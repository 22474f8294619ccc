import MarketMaker.PaperMarket
import MarketMaker.Proofs.Decimal.Magnitude
import MarketMaker.Proofs.Engine.Prices
import MarketMaker.Proofs.Venue.Depth
/-!
The shape of the books that are made up for paper trading. Every step from the mid price to the price
of a level is rounded, but each keeps order: so prices get no better with the levels, and no bid is
above an ask, however wide the tick is.
-/

namespace MarketMaker

open Decimal

namespace Tick

variable [Arithmetic] {value other step price price' : Decimal}

theorem nearest_value (rounds : Arithmetic.Rounds) (nonneg : 0 ≤ value.value)
    (positive : 0 < step.value) (done : Tick.nearest value step = .ok price) :
    price.value =
      Decimal.nearest (⌊Decimal.nearest (value.value / step.value) + 1 / 2⌋ * step.value) := by
  have quotient : 0 ≤ stepsIn value step := nearest_nonneg (by positivity)
  rw [(nearest_count rounds positive done).1, roundAway_of_nonneg quotient, stepsIn]

/-- Rounding to the nearest multiple keeps order and sign. -/
theorem nearest_mono (rounds : Arithmetic.Rounds) (nonneg : 0 ≤ value.value)
    (le : value.value ≤ other.value) (done : Tick.nearest value step = .ok price)
    (done' : Tick.nearest other step = .ok price') :
    0 ≤ price.value ∧ price.value ≤ price'.value := by
  rcases le_or_gt step.value 0 with none | positive
  · rw [Tick.nearest, roundWith, if_pos (nonpos_iff_value.2 none)] at done done'
    obtain rfl := Except.ok.inj done
    obtain rfl := Except.ok.inj done'
    exact ⟨nonneg, le⟩
  · rw [nearest_value rounds nonneg positive done,
      nearest_value rounds (nonneg.trans le) positive done']
    have quotients : value.value / step.value ≤ other.value / step.value := by gcongr
    have steps : ⌊Decimal.nearest (value.value / step.value) + 1 / 2⌋ ≤
        ⌊Decimal.nearest (other.value / step.value) + 1 / 2⌋ :=
      Int.floor_le_floor (add_le_add_left (Decimal.nearest_mono quotients) _)
    have whole : 0 ≤ ⌊Decimal.nearest (value.value / step.value) + 1 / 2⌋ := by
      have quotient : 0 ≤ Decimal.nearest (value.value / step.value) :=
        nearest_nonneg (by positivity)
      exact Int.floor_nonneg.2 (by linarith)
    constructor
    · exact nearest_nonneg (mul_nonneg (by exact_mod_cast whole) positive.le)
    · exact Decimal.nearest_mono (mul_le_mul_of_nonneg_right (by exact_mod_cast steps) positive.le)

end Tick

/-! ### Rounding below ten thousand -/

namespace Decimal

/-- Numbers below ten thousand keep 24 places. -/
theorem nearest_le_add {x : ℚ} (nonneg : 0 ≤ x) (less : x < 10000) :
    nearest x ≤ x + 1 / 2 / 10 ^ 24 := by
  have fits : FitsAt x 24 := by
    rw [fitsAt_iff nonneg]
    have bound : x * 10 ^ 24 ≤ ((10 ^ 28 : ℤ) : ℚ) := by
      push_cast
      linarith
    have rounded := roundEven_mono bound
    rw [roundEven_intCast] at rounded
    exact rounded.trans_lt (by decide)
  have many : 24 ≤ places x := Nat.le_findGreatest (by omega) fits
  have unit := pow_ten_pos (places x)
  have near := roundEven_sub_half_le (x * 10 ^ places x)
  calc nearest x ≤ (x * 10 ^ places x + 1 / 2) / 10 ^ places x := by
        rw [nearest]
        gcongr
        linarith
    _ = x + 1 / 2 / 10 ^ places x := by rw [add_div, mul_div_cancel_right₀ _ unit.ne']
    _ ≤ x + 1 / 2 / 10 ^ 24 := by
        gcongr
        norm_num

/-- Less than half of the last place over ten thousand is dropped. -/
theorem nearest_le_tenThousand {x : ℚ} (less : x < 10000 + 1 / 2 / 10 ^ 24) :
    nearest x ≤ 10000 := by
  rcases le_or_gt x 10000 with le | more
  · exact nearest_le_natCast (n := 10000) (by decide) (by exact_mod_cast le)
  · have nonneg : 0 ≤ x := by linarith
    have rounded : roundEven (x * 10 ^ 24) = 10 ^ 28 :=
      roundEven_eq_of_near (by push_cast; linarith) (by push_cast; linarith)
    have tight : ¬ FitsAt x 25 := by
      have large : ((10 ^ 29 : ℤ) : ℚ) ≤ x * 10 ^ 25 := by
        push_cast
        linarith
      have more := roundEven_mono large
      rw [roundEven_intCast] at more
      rw [fitsAt_iff nonneg, not_lt]
      exact le_trans (by decide) more
    have last : places x = 24 := by
      refine places_eq nonneg (by omega) ?_ (.inr tight)
      rw [FitsAt, rounded]
      decide
    rw [nearest, last, rounded]
    norm_num

end Decimal

/-! ### Shifts of the mid price -/

namespace BasisPoints

variable [Arithmetic] {mid bps bps' shifted shifted' : Decimal}

theorem below_between (rounds : Arithmetic.Rounds) (nonneg : 0 ≤ mid.value) (shift : 0 ≤ bps.value)
    (proper : bps.value ≤ 10000) (done : below mid bps = .ok shifted) :
    0 ≤ shifted.value ∧ shifted.value ≤ mid.value := by
  rw [below_value rounds done]
  have factor : 0 ≤ nearest (1 - rate bps) := nearest_nonneg (sub_nonneg.2 (rate_le_one proper))
  have atMost : nearest (1 - rate bps) ≤ 1 := by
    have le : 1 - rate bps ≤ (1 : Decimal).value := by
      rw [value_one]
      linarith [rate_nonneg shift]
    simpa using nearest_le le
  exact ⟨nearest_nonneg (mul_nonneg nonneg factor),
    nearest_le (mul_le_of_le_one_right nonneg atMost)⟩

theorem le_above (rounds : Arithmetic.Rounds) (nonneg : 0 ≤ mid.value) (shift : 0 ≤ bps.value)
    (done : above mid bps = .ok shifted) : mid.value ≤ shifted.value := by
  rw [above_value rounds done]
  have factor : 1 ≤ nearest (1 + rate bps) := by
    have le : (1 : Decimal).value ≤ 1 + rate bps := by
      rw [value_one]
      linarith [rate_nonneg shift]
    simpa using le_nearest le
  exact le_nearest (le_mul_of_one_le_right nonneg factor)

theorem below_anti (rounds : Arithmetic.Rounds) (nonneg : 0 ≤ mid.value)
    (wider : bps.value ≤ bps'.value) (done : below mid bps = .ok shifted)
    (done' : below mid bps' = .ok shifted') : shifted'.value ≤ shifted.value := by
  rw [below_value rounds done, below_value rounds done']
  refine nearest_mono (mul_le_mul_of_nonneg_left (nearest_mono ?_) nonneg)
  exact sub_le_sub_left (rate_mono wider) 1

theorem above_mono (rounds : Arithmetic.Rounds) (nonneg : 0 ≤ mid.value)
    (wider : bps.value ≤ bps'.value) (done : above mid bps = .ok shifted)
    (done' : above mid bps' = .ok shifted') : shifted.value ≤ shifted'.value := by
  rw [above_value rounds done, above_value rounds done']
  refine nearest_mono (mul_le_mul_of_nonneg_left (nearest_mono ?_) nonneg)
  exact add_le_add_right (rate_mono wider) 1

end BasisPoints

namespace PaperMarket

variable {m : PaperMarket} {pair : Pair} {mid tickSize : Decimal} {now : Instant} {book : OrderBook}

/-- How many levels either side of a book has. -/
def depth (m : PaperMarket) : ℕ := (max m.config.levels 1).toNat

theorem depth_pos : 0 < m.depth := by
  change 0 < (if m.config.levels ≤ 1 then 1 else m.config.levels).toNat
  split
  next => decide
  next more =>
    rw [UInt64.le_iff_toNat_le, UInt64.toNat_one] at more
    omega

/-- Levels go away from the mid price, and the last one stays within the whole of it. -/
structure Narrow (m : PaperMarket) : Prop where
  half : 0 ≤ m.config.halfSpreadBps
  step : 0 ≤ m.config.levelStepBps
  last : m.config.halfSpreadBps.value + m.config.levelStepBps.value * (m.depth - 1 : ℕ) < 10000

instance (m : PaperMarket) : Decidable m.Narrow :=
  decidable_of_iff (0 ≤ m.config.halfSpreadBps ∧ 0 ≤ m.config.levelStepBps ∧
    m.config.halfSpreadBps.value + m.config.levelStepBps.value * (m.depth - 1 : ℕ) < 10000)
    ⟨fun ⟨half, step, last⟩ => ⟨half, step, last⟩, fun ⟨half, step, last⟩ => ⟨half, step, last⟩⟩

section Levels

variable [Arithmetic] {i j : ℕ} {offset offset' : Decimal} {levels : List Level}
  {shift : Decimal → Decimal → Checked Decimal}

theorem offset_value (rounds : Arithmetic.Rounds) (inside : i < m.depth)
    (done : m.offset i = .ok offset) :
    offset.value = nearest (m.config.halfSpreadBps.value +
      nearest (m.config.levelStepBps.value * i)) := by
  simp only [PaperMarket.offset, Checked.bind_ok] at done
  obtain ⟨steps, multiplied, added⟩ := done
  have word : i.toUInt64.toNat = i :=
    UInt64.toNat_ofNat_of_lt (inside.trans (max m.config.levels 1).toNat_lt)
  rw [rounds.add added, rounds.mul multiplied, value_ofWord, word]

theorem offset_mono (rounds : Arithmetic.Rounds) (narrow : m.Narrow) (inside : j < m.depth)
    (le : i ≤ j) (done : m.offset i = .ok offset) (done' : m.offset j = .ok offset') :
    offset.value ≤ offset'.value := by
  have step := nonneg_iff_value.1 narrow.step
  rw [offset_value rounds (le.trans_lt inside) done, offset_value rounds inside done']
  refine nearest_mono (add_le_add_right (nearest_mono ?_) _)
  gcongr

/-- Rounding takes no offset past the whole. -/
theorem offset_between (rounds : Arithmetic.Rounds) (narrow : m.Narrow) (inside : i < m.depth)
    (done : m.offset i = .ok offset) : 0 ≤ offset.value ∧ offset.value ≤ 10000 := by
  have half := nonneg_iff_value.1 narrow.half
  have step := nonneg_iff_value.1 narrow.step
  have steps : 0 ≤ m.config.levelStepBps.value * (i : ℚ) := by positivity
  have last : m.config.levelStepBps.value * (i : ℚ) ≤
      m.config.levelStepBps.value * ((m.depth - 1 : ℕ) : ℚ) := by
    gcongr
    omega
  have whole := narrow.last
  rw [offset_value rounds inside done]
  refine ⟨nearest_nonneg (add_nonneg half (nearest_nonneg steps)), nearest_le_tenThousand ?_⟩
  have near := nearest_le_add steps (by linarith)
  linarith

theorem buildSide_get (done : m.buildSide shift mid tickSize = .ok levels) :
    levels.length = m.depth ∧ ∀ i (inside : i < levels.length), ∃ offset price,
      m.offset i = .ok offset ∧ shift mid offset = .ok price ∧
        Tick.nearest price tickSize = .ok levels[i].price := by
  obtain ⟨length, built⟩ := List.forall₂_iff_get.1 (Checked.mapM_forall₂ done)
  rw [List.length_range] at length
  refine ⟨length.symm, fun i inside => ?_⟩
  have level := built i (by rwa [List.length_range, length]) inside
  simp only [List.get_eq_getElem, List.getElem_range, Checked.bind_ok, Checked.pure_ok] at level
  obtain ⟨offset, spaced, price, shifted, rounded, stepped, same⟩ := level
  exact ⟨offset, price, spaced, shifted, by rw [stepped, ← same]⟩

/-- The price before it is made a multiple of the tick is between zero and the mid price, and no
higher on a later level. -/
theorem bids_sorted (rounds : Arithmetic.Rounds) (positive : 0 < mid) (narrow : m.Narrow)
    (done : m.buildSide BasisPoints.below mid tickSize = .ok levels) :
    (∀ bid ∈ levels, 0 ≤ bid.price) ∧
      levels.Pairwise fun first second => second.price ≤ first.price := by
  have nonneg := (pos_iff_value.1 positive).le
  obtain ⟨length, built⟩ := buildSide_get done
  have ordered (i j : ℕ) (inside : i < levels.length) (inside' : j < levels.length) (le : i ≤ j) :
      0 ≤ levels[j].price.value ∧ levels[j].price.value ≤ levels[i].price.value := by
    obtain ⟨offset, price, spaced, shifted, stepped⟩ := built i inside
    obtain ⟨offset', price', spaced', shifted', stepped'⟩ := built j inside'
    obtain ⟨away, proper⟩ := offset_between rounds narrow (length ▸ inside') spaced'
    have wider := offset_mono rounds narrow (length ▸ inside') le spaced spaced'
    exact Tick.nearest_mono rounds (BasisPoints.below_between rounds nonneg away proper shifted').1
      (BasisPoints.below_anti rounds nonneg wider shifted shifted') stepped' stepped
  constructor
  · intro bid member
    obtain ⟨i, inside, rfl⟩ := List.getElem_of_mem member
    exact nonneg_iff_value.2 (ordered i i inside inside le_rfl).1
  · rw [List.pairwise_iff_getElem]
    exact fun i j inside inside' less => le_iff_value.2 (ordered i j inside inside' less.le).2

theorem asks_sorted (rounds : Arithmetic.Rounds) (positive : 0 < mid) (narrow : m.Narrow)
    (done : m.buildSide BasisPoints.above mid tickSize = .ok levels) :
    levels.Pairwise fun first second => first.price ≤ second.price := by
  have nonneg := (pos_iff_value.1 positive).le
  obtain ⟨length, built⟩ := buildSide_get done
  rw [List.pairwise_iff_getElem]
  intro i j inside inside' less
  obtain ⟨offset, price, spaced, shifted, stepped⟩ := built i inside
  obtain ⟨offset', price', spaced', shifted', stepped'⟩ := built j inside'
  have away := (offset_between rounds narrow (length ▸ inside) spaced).1
  have wider := offset_mono rounds narrow (length ▸ inside') less.le spaced spaced'
  exact le_iff_value.2 (Tick.nearest_mono rounds
    (nonneg.trans (BasisPoints.le_above rounds nonneg away shifted))
    (BasisPoints.above_mono rounds nonneg wider shifted shifted') stepped stepped').2

/-- The best prices are on either side of the mid price until they are made multiples of the tick. -/
theorem best_ordered (rounds : Arithmetic.Rounds) (positive : 0 < mid) (narrow : m.Narrow)
    {bids asks : List Level} (bid : m.buildSide BasisPoints.below mid tickSize = .ok bids)
    (ask : m.buildSide BasisPoints.above mid tickSize = .ok asks) :
    ∃ first second, bids.head? = some first ∧ asks.head? = some second ∧
      first.price ≤ second.price := by
  have nonneg := (pos_iff_value.1 positive).le
  obtain ⟨length, bids'⟩ := buildSide_get bid
  obtain ⟨length', asks'⟩ := buildSide_get ask
  have some' : 0 < m.depth := depth_pos
  have inside : 0 < bids.length := length ▸ some'
  have inside' : 0 < asks.length := length' ▸ some'
  obtain ⟨offset, price, spaced, shifted, stepped⟩ := bids' 0 inside
  obtain ⟨_, price', spaced', shifted', stepped'⟩ := asks' 0 inside'
  obtain rfl := Except.ok.inj (spaced.symm.trans spaced')
  obtain ⟨away, proper⟩ := offset_between rounds narrow some' spaced
  obtain ⟨floor, atMost⟩ := BasisPoints.below_between rounds nonneg away proper shifted
  have atLeast := BasisPoints.le_above rounds nonneg away shifted'
  refine ⟨bids[0], asks[0], ?_, ?_, le_iff_value.2
    (Tick.nearest_mono rounds floor (atMost.trans atLeast) stepped stepped').2⟩
  · rw [List.head?_eq_getElem?, List.getElem?_eq_getElem]
  · rw [List.head?_eq_getElem?, List.getElem?_eq_getElem]

end Levels

/-- A book that is built is deep as configured, has no negative bid, has its best prices first, and its
best bid is not above its best ask. -/
theorem buildBook_wellFormed (positive : 0 < mid) (narrow : m.Narrow)
    (built : @buildBook .rounding m pair mid tickSize now = .ok book) :
    book.bids.length = m.depth ∧ book.asks.length = m.depth ∧
      (∀ bid ∈ book.bids, 0 ≤ bid.price) ∧ book.Sorted ∧
      ∃ bid ask, book.bestBid? = some bid ∧ book.bestAsk? = some ask ∧ bid ≤ ask := by
  let _ : Arithmetic := .rounding
  have rounds := Arithmetic.rounding_rounds
  simp only [buildBook, Checked.bind_ok, Checked.pure_ok] at built
  obtain ⟨bids, below, asks, above, rfl⟩ := built
  obtain ⟨nonneg, falling⟩ := bids_sorted rounds positive narrow below
  have rising := asks_sorted rounds positive narrow above
  obtain ⟨first, second, best, best', le⟩ := best_ordered rounds positive narrow below above
  refine ⟨(buildSide_get below).1, (buildSide_get above).1, nonneg, ⟨falling, rising⟩,
    first.price, second.price, ?_, ?_, le⟩
  · rw [OrderBook.bestBid?, best, Option.map_some]
  · rw [OrderBook.bestAsk?, best', Option.map_some]

/-- Few levels, and a tick of twice the mid price. -/
def wideTick : PaperMarket :=
  .new { halfSpreadBps := .of 3333 0, levelStepBps := .of 3333 0, levels := 3 }
    ⟨"okx", ⟨"DOGE", "USDT"⟩, .of 2 0, 0⟩ ⟨"binance", ⟨"DOGE", "USDT"⟩, .of 2 0, 0⟩

/-- Its bids are all zero. -/
theorem buildBook_wellFormed_wideTick :
    ∃ book, @buildBook .rounding wideTick ⟨"DOGE", "USDT"⟩ 1 (.of 2 0) ⟨0⟩ = .ok book ∧
      book.bids.length = 3 ∧ book.asks.length = 3 ∧
      (∀ bid ∈ book.bids, 0 ≤ bid.price) ∧ book.Sorted ∧
      ∃ bid ask, book.bestBid? = some bid ∧ book.bestAsk? = some ask ∧ bid ≤ ask := by
  have works : (@buildBook .rounding wideTick ⟨"DOGE", "USDT"⟩ 1 (.of 2 0) ⟨0⟩).toOption.any
      (fun _ => true) = true := by
    decide +kernel
  obtain ⟨book, built, -⟩ := Checked.toOption_any works
  exact ⟨book, built, buildBook_wellFormed (by decide) (by decide +kernel) built⟩

end PaperMarket

end MarketMaker
