import MarketMaker.Proofs.Decimal.Magnitude
import MarketMaker.Proofs.Engine.Prices
import MarketMaker.StatusReport
/-!
The status report against the cancellation of quotes. A row shows how far its order is from the
threshold, after a difference, a quotient and a product that are all rounded and a fraction that is
dropped. The sign that is left is the sign of the distance itself, and a whole basis point of distance
always leaves one.
-/

namespace MarketMaker

open Decimal

/-! ### Signs of rounded numbers -/

namespace Decimal

theorem neg_of_nearest_neg {x : ℚ} (negative : nearest x < 0) : x < 0 := by
  by_contra nonneg
  exact absurd (nearest_nonneg (not_lt.1 nonneg)) (not_le.2 negative)

theorem pos_of_nearest_pos {x : ℚ} (positive : 0 < nearest x) : 0 < x := by
  by_contra nonpos
  exact absurd (nearest_nonpos (not_lt.1 nonpos)) (not_le.2 positive)

theorem nearest_le_neg_place {x : ℚ} {k : ℕ} (few : k ≤ 28) (le : x ≤ -(1 / 10 ^ k)) :
    nearest x ≤ -(1 / 10 ^ k) := by
  have flipped := place_le_nearest few (le_neg.1 le)
  rw [nearest_neg] at flipped
  exact le_neg.1 flipped

theorem value_trunc_floor (a : Decimal) :
    a.trunc.value = if a.negative then -(⌊|a.value|⌋ : ℚ) else ⌊|a.value|⌋ := by
  rw [value_trunc, abs_value, floor_magnitude, Int.cast_natCast]

theorem neg_of_trunc_neg {a : Decimal} (negative : a.trunc.value < 0) : a.value < 0 := by
  have whole : (0 : ℚ) ≤ ⌊|a.value|⌋ := by exact_mod_cast Int.floor_nonneg.2 (abs_nonneg a.value)
  have atMost := Int.floor_le |a.value|
  rw [value_trunc_floor] at negative
  split at negative
  next sign =>
    rw [value_eq_signed, if_pos sign, ← abs_value]
    linarith
  next => linarith

theorem pos_of_trunc_pos {a : Decimal} (positive : 0 < a.trunc.value) : 0 < a.value := by
  have whole : (0 : ℚ) ≤ ⌊|a.value|⌋ := by exact_mod_cast Int.floor_nonneg.2 (abs_nonneg a.value)
  have atMost := Int.floor_le |a.value|
  rw [value_trunc_floor] at positive
  split at positive
  next => linarith
  next sign =>
    rw [value_eq_signed, if_neg sign, ← abs_value]
    linarith

/-- A whole unit is not dropped. -/
theorem trunc_neg {a : Decimal} (le : a.value ≤ -1) : a.trunc.value < 0 := by
  have sign : a.negative = true := by
    by_contra plus
    rw [value_eq_signed, if_neg plus, ← abs_value] at le
    linarith [abs_nonneg a.value]
  have whole : (1 : ℤ) ≤ ⌊|a.value|⌋ := by
    refine Int.le_floor.2 ?_
    rw [Int.cast_one, abs_of_nonpos (by linarith)]
    linarith
  have whole' : (1 : ℚ) ≤ ⌊|a.value|⌋ := by exact_mod_cast whole
  rw [value_trunc_floor, if_pos sign]
  linarith

/-! ### Rounded differences -/

/-- A whole number of the last place of a decimal that is not above the decimal fits. -/
theorem nearest_of_le {x : ℚ} {a : Decimal} {n : ℤ} (whole : x * 10 ^ a.scale = n) (nonneg : 0 ≤ x)
    (le : x ≤ a.value) : nearest x = x := by
  have unit := pow_ten_pos a.scale
  refine nearest_of_whole a.scale_le whole ?_
  have lower : (0 : ℚ) ≤ n := whole ▸ mul_nonneg nonneg unit.le
  have upper : (n : ℚ) ≤ a.coefficient := by
    rw [← whole, ← div_mul_cancel₀ (a.coefficient : ℚ) unit.ne', ← value_eq]
    exact mul_le_mul_of_nonneg_right le unit.le
  have lower' : 0 ≤ n := by exact_mod_cast lower
  have upper' : n ≤ a.coefficient := by exact_mod_cast upper
  have small := a.mantissa_lt
  rw [← coefficient_natAbs] at small
  omega

/-- The difference of two decimals is exact where the one is at most twice the other. -/
theorem nearest_sub {a b : Decimal} (le : b.value ≤ a.value) (near : a.value ≤ 2 * b.value) :
    nearest (a.value - b.value) = a.value - b.value := by
  have nonneg : 0 ≤ a.value - b.value := sub_nonneg.2 le
  -- at the longer scale both are whole, and the difference is no more than either
  rcases le_total b.scale a.scale with short | long
  · refine nearest_of_le (a := a) (n := a.coefficient - b.coefficient * 10 ^ (a.scale - b.scale)) ?_
      nonneg (by linarith)
    rw [sub_mul, b.value_eq_at short, a.value_eq_at le_rfl, div_mul_cancel₀ _ (pow_ten_pos _).ne',
      div_mul_cancel₀ _ (pow_ten_pos _).ne', Nat.sub_self]
    simp only [tenTo_eq_pow]
    push_cast
    ring
  · refine nearest_of_le (a := b) (n := a.coefficient * 10 ^ (b.scale - a.scale) - b.coefficient) ?_
      nonneg (by linarith)
    rw [sub_mul, a.value_eq_at long, b.value_eq_at le_rfl, div_mul_cancel₀ _ (pow_ten_pos _).ne',
      div_mul_cancel₀ _ (pow_ten_pos _).ne', Nat.sub_self]
    simp only [tenTo_eq_pow]
    push_cast
    ring

/-- From the least decimal on, rounding leaves half of a number. -/
theorem half_le_nearest {x : ℚ} (least : tiny.value ≤ x) : x / 2 ≤ nearest x := by
  rw [value_tiny, div_le_iff₀ (pow_ten_pos 28)] at least
  have nonneg : 0 ≤ x := by linarith
  have unit := pow_ten_pos (places x)
  have one : 1 ≤ roundEven (x * 10 ^ places x) := by
    rcases (places_le x).eq_or_lt with most | fewer
    · have unit' := roundEven_intCast 1
      rw [Int.cast_one] at unit'
      exact most ▸ unit' ▸ roundEven_mono least
    · have tight : ¬ FitsAt x (places x + 1) := fun more => by
        have : places x + 1 ≤ places x := Nat.le_findGreatest fewer more
        omega
      have large := le_roundEven_of_not_fitsAt nonneg tight
      omega
  have one' : (1 : ℚ) ≤ roundEven (x * 10 ^ places x) := by exact_mod_cast one
  have near := le_roundEven_add_half (x * 10 ^ places x)
  rw [nearest, le_div_iff₀ unit]
  linarith

/-- A basis point of a decimal stays one in a difference from a number that is not below it. -/
theorem share_le_nearest_sub {a b t : Decimal} (positive : 0 < t.value) (le : t.value ≤ a.value)
    (apart : t.value / 10000 ≤ a.value - b.value) :
    t.value / 10000 ≤ nearest (a.value - b.value) := by
  have less : b.value < a.value := by linarith
  rcases le_or_gt a.value (2 * b.value) with near | far
  · rwa [nearest_sub less.le near]
  · have half := half_le_nearest (tiny_le_sub less)
    linarith

end Decimal

/-! ### Distances in basis points -/

namespace BasisPoints

variable [Arithmetic] {a b reference distance : Decimal}

theorem spread_value (rounds : Arithmetic.Rounds) (positive : 0 < reference.value)
    (done : spread a b reference = .ok distance) :
    distance.value =
      nearest (nearest (nearest (a.value - b.value) / reference.value) * 10000) := by
  have unit : tenThousand.value = 10000 := value_ofWord 10000
  have nonzero : reference.mantissa ≠ 0 := mt (value_eq_zero_iff reference).2 positive.ne'
  simp only [spread, Checked.bind_ok] at done
  obtain ⟨difference, subtracted, rate, divided, multiplied⟩ := done
  rw [divOrZero, if_neg nonzero] at divided
  rw [rounds.mul multiplied, rounds.div positive.ne' divided, rounds.sub subtracted, unit]

/-- The sign of a distance that is shown without its fraction. -/
theorem spread_trunc_neg (rounds : Arithmetic.Rounds) (positive : 0 < reference.value)
    (done : spread a b reference = .ok distance) (negative : distance.trunc.value < 0) :
    a.value < b.value := by
  have below := neg_of_trunc_neg negative
  rw [spread_value rounds positive done] at below
  have rate := neg_of_nearest_neg (neg_of_mul_neg_left (neg_of_nearest_neg below) (by norm_num))
  rw [div_lt_iff₀ positive, zero_mul] at rate
  have difference := neg_of_nearest_neg rate
  linarith

theorem spread_trunc_pos (rounds : Arithmetic.Rounds) (positive : 0 < reference.value)
    (done : spread a b reference = .ok distance) (above : 0 < distance.trunc.value) :
    b.value < a.value := by
  have more := pos_of_trunc_pos above
  rw [spread_value rounds positive done] at more
  have rate := pos_of_nearest_pos (pos_of_mul_pos_left (pos_of_nearest_pos more) (by norm_num))
  rw [lt_div_iff₀ positive, zero_mul] at rate
  have difference := pos_of_nearest_pos rate
  linarith

theorem spread_trunc_of_share (rounds : Arithmetic.Rounds) (positive : 0 < reference.value)
    (done : spread a b reference = .ok distance)
    (apart : reference.value / 10000 ≤ nearest (b.value - a.value)) : distance.trunc.value < 0 := by
  apply trunc_neg
  have flipped : nearest (a.value - b.value) = -nearest (b.value - a.value) := by
    rw [← nearest_neg, neg_sub]
  have rate : nearest (a.value - b.value) / reference.value ≤ -(1 / 10 ^ 4) := by
    rw [div_le_iff₀ positive, flipped]
    linarith
  have scaled : nearest (nearest (a.value - b.value) / reference.value) * 10000 ≤ -(1 / 10 ^ 0) := by
    have rounded := nearest_le_neg_place (by omega) rate
    linarith
  rw [spread_value rounds positive done]
  simpa using nearest_le_neg_place (by omega) scaled

end BasisPoints

/-! ### Rows -/

namespace Cancellation

/-- How far a price is beyond its threshold. -/
def excess (side : Side) (price threshold : Decimal) : ℚ :=
  match side with
  | .buy => price.value - threshold.value
  | .sell => threshold.value - price.value

theorem isBeyond_iff {side : Side} {price threshold : Decimal} :
    isBeyond side price threshold = true ↔ 0 < excess side price threshold := by
  cases side with
  | buy => rw [isBeyond, decide_eq_true_iff, lt_iff_value, excess, sub_pos]
  | sell => rw [isBeyond, decide_eq_true_iff, lt_iff_value, excess, sub_pos]

variable [Arithmetic] {p : Parameters} {quotes : MarketQuotes} {side : Side} {price threshold : Decimal}
  {t : Instant}

theorem reason?_of_beyond (bound : p.threshold quotes side = .ok threshold)
    (beyond : 0 < excess side price threshold) :
    reason? p quotes t side price t = .ok (some (.priceDrift price threshold)) := by
  rw [reason?, bound, Checked.ok_bind, if_pos (isBeyond_iff.2 beyond)]
  rfl

/-- An order that is no older than the moment goes for its price only. -/
theorem reason?_of_within (valid : p.Valid) (bound : p.threshold quotes side = .ok threshold)
    (within : ¬ 0 < excess side price threshold) : reason? p quotes t side price t = .ok none := by
  rw [reason?, bound, Checked.ok_bind, if_neg (mt isBeyond_iff.1 within), if_neg (valid.early t)]
  rfl

end Cancellation

namespace OrderRow

variable {a b c : OrderRow} {rows : List OrderRow} {pair : Pair}

theorem ahead_trans (first : a.ahead b = true) (second : b.ahead c = true) : a.ahead c = true :=
  Std.TransCmp.isLE_trans first second

theorem ahead_total (a b : OrderRow) : (a.ahead b || b.ahead a) = true := by
  rw [Bool.or_eq_true]
  by_cases first : a.ahead b = true
  · exact .inl first
  · refine .inr (Std.OrientedCmp.isGE_iff_isLE.1 (Ordering.isGE_iff_ne_lt.2 fun less => first ?_))
    rw [ahead, less]
    rfl

/-- Of one pair, bids come before asks. -/
theorem ahead_of_pair (same : a.pair = b.pair) : a.ahead b = true ↔ a.side = .buy ∨ b.side = .sell := by
  simp only [ahead, compareLex, compareOn, same]
  cases a.side <;> cases b.side <;> simp [Side.text] <;> decide

/-- The sort is stable: rows that are in order among themselves stay as they are. -/
theorem filter_mergeSort {keeps : OrderRow → Bool}
    (sorted : (rows.filter keeps).Pairwise fun a b => a.ahead b = true) :
    (rows.mergeSort ahead).filter keeps = rows.filter keeps := by
  have kept : (rows.filter keeps).Sublist (rows.mergeSort ahead) :=
    @List.sublist_mergeSort _ ahead _ (fun _ _ _ => ahead_trans) ahead_total _ sorted
      List.filter_sublist
  have among := kept.filter keeps
  rw [List.filter_filter] at among
  simp only [Bool.and_self] at among
  exact (among.eq_of_length ((List.mergeSort_perm rows ahead).filter keeps).length_eq.symm).symm

/-- Rows in which no ask comes before a bid are the bids and then the asks. -/
theorem eq_sides (sorted : rows.Pairwise fun a b => a.side = .buy ∨ b.side = .sell) :
    rows = (rows.filter fun row => row.side = .buy) ++ rows.filter fun row => row.side = .sell := by
  induction sorted with
  | nil => rfl
  | @cons row rows first later ih =>
    cases side : row.side with
    | buy => simp [side, ← ih]
    | sell =>
      have asks : ∀ other ∈ row :: rows, other.side = .sell := by
        refine List.forall_mem_cons.2 ⟨side, fun other member => ?_⟩
        exact (first other member).resolve_left (by simp [side])
      rw [List.filter_eq_nil_iff.2 fun other member => by simp [asks other member],
        List.filter_eq_self.2 fun other member => by simp [asks other member]]
      rfl

/-- Sorted rows of one pair are the bids and then the asks, either as they were. -/
theorem mergeSort_of_pair (same : ∀ row ∈ rows, row.pair = pair) :
    rows.mergeSort ahead =
      (rows.filter fun row => row.side = .buy) ++ rows.filter fun row => row.side = .sell := by
  have among : ∀ row ∈ rows.mergeSort ahead, row.pair = pair := fun row member =>
    same row (List.mem_mergeSort.1 member)
  have sorted : (rows.mergeSort ahead).Pairwise fun a b => a.side = .buy ∨ b.side = .sell :=
    (@List.pairwise_mergeSort _ ahead (fun _ _ _ => ahead_trans) ahead_total rows).imp_of_mem
      fun {a b} left right le => (ahead_of_pair ((among a left).trans (among b right).symm)).1 le
  have kept (side : Side) : ((rows.mergeSort ahead).filter fun row => row.side = side) =
      rows.filter fun row => row.side = side := by
    refine filter_mergeSort (List.pairwise_of_forall_mem_list fun a left b right => ?_)
    rw [List.mem_filter, decide_eq_true_eq] at left right
    rw [ahead_of_pair ((same a left.1).trans (same b right.1).symm), left.2, right.2]
    cases side <;> decide
  rw [eq_sides sorted, kept, kept]

/-- What a row repeats of its order. -/
structure Shows (p : Parameters) (now : Instant) (row : OrderRow) (order : RestingOrder) : Prop where
  venue : row.venue = p.maker.venue
  pair : row.pair = order.pair
  side : row.side = order.side
  price : row.price = order.price
  amount : row.amount = order.quantity
  age : row.age = now.since order.createdAt

end OrderRow

namespace StatusReport

open Cancellation (excess)

variable [Arithmetic] {p : Parameters} {quotes : MarketQuotes} {makerMid : Decimal} {now : Instant}
  {orders : List RestingOrder} {order : RestingOrder} {row : OrderRow} {rows : List OrderRow}

/-- The distance to the threshold that a row shows, before its fraction is dropped. -/
def distance (side : Side) (price threshold : Decimal) : Checked Decimal :=
  match side with
  | .buy => BasisPoints.spread threshold price threshold
  | .sell => BasisPoints.spread price threshold threshold

theorem distance_trunc (rounds : Arithmetic.Rounds) {side : Side} {price bound shown : Decimal}
    (positive : 0 < bound.value) (done : distance side price bound = .ok shown) :
    (shown.trunc.value < 0 → 0 < excess side price bound) ∧
      (0 < shown.trunc.value → excess side price bound < 0) ∧
      (bound.value / 10000 ≤ excess side price bound → shown.trunc.value < 0) := by
  cases side with
  | buy =>
    refine ⟨fun negative => sub_pos.2 (BasisPoints.spread_trunc_neg rounds positive done negative),
      fun above => sub_neg.2 (BasisPoints.spread_trunc_pos rounds positive done above),
      fun apart => BasisPoints.spread_trunc_of_share rounds positive done ?_⟩
    have above : bound.value / 10000 ≤ price.value - bound.value := apart
    exact share_le_nearest_sub positive (by linarith) above
  | sell =>
    refine ⟨fun negative => sub_pos.2 (BasisPoints.spread_trunc_neg rounds positive done negative),
      fun above => sub_neg.2 (BasisPoints.spread_trunc_pos rounds positive done above),
      fun apart => BasisPoints.spread_trunc_of_share rounds positive done ?_⟩
    exact share_le_nearest_sub positive le_rfl apart

theorem orderRow_ok (threshold : Side → Decimal)
    (done : orderRow p makerMid (threshold .buy) (threshold .sell) now order = .ok row) :
    (∃ shown, distance row.side row.price (threshold row.side) = .ok shown ∧
      row.spreadCancel = shown.trunc) ∧ row.Shows p now order := by
  obtain ⟨id, pair, side, price, quantity, createdAt⟩ := order
  cases side with
  | buy =>
    simp only [orderRow, Checked.bind_ok, Checked.pure_ok] at done
    obtain ⟨mid, -, shown, spread, _, rfl, rfl⟩ := done
    exact ⟨⟨shown, spread, rfl⟩, rfl, rfl, rfl, rfl, rfl, rfl⟩
  | sell =>
    simp only [orderRow, Checked.bind_ok, Checked.pure_ok] at done
    obtain ⟨mid, -, shown, spread, _, rfl, rfl⟩ := done
    exact ⟨⟨shown, spread, rfl⟩, rfl, rfl, rfl, rfl, rfl, rfl⟩

/-- The orders of one side on a pair, in their order. -/
def listed (orders : List RestingOrder) (pair : Pair) (side : Side) : List RestingOrder :=
  orders.filter fun order => order.pair = pair ∧ order.side = side

/-- Since all rows are of the maker's pair, bids come before asks. -/
theorem orderRows_eq : orderRows p quotes makerMid now orders = do
    let buyThreshold ← p.threshold quotes .buy
    let sellThreshold ← p.threshold quotes .sell
    let own := orders.filter fun order => order.pair = p.maker.pair
    let rows ← own.mapM (orderRow p makerMid buyThreshold sellThreshold now)
    return (rows.filter fun row => row.side = .buy) ++ rows.filter fun row => row.side = .sell := by
  unfold orderRows
  refine bind_congr fun buy => bind_congr fun sell => ?_
  dsimp only
  cases mapped : (orders.filter fun order => order.pair = p.maker.pair).mapM
      (orderRow p makerMid buy sell now) with
  | error overflow => rfl
  | ok rows =>
    have same : ∀ row ∈ rows, row.pair = p.maker.pair := by
      intro row member
      obtain ⟨order, among, made⟩ := Checked.mapM_ok mapped row member
      obtain ⟨-, shows⟩ := orderRow_ok (fun side => match side with | .buy => buy | .sell => sell) made
      exact shows.pair.trans (of_decide_eq_true (List.mem_filter.1 among).2)
    exact congrArg Except.ok (OrderRow.mergeSort_of_pair same)

theorem orderRows_ok (done : orderRows p quotes makerMid now orders = .ok rows) :
    ∃ threshold : Side → Decimal, (∀ side, p.threshold quotes side = .ok (threshold side)) ∧
      (∀ row ∈ rows, ∃ shown, distance row.side row.price (threshold row.side) = .ok shown ∧
        row.spreadCancel = shown.trunc) ∧
      List.Forall₂ (OrderRow.Shows p now) rows
        (listed orders p.maker.pair .buy ++ listed orders p.maker.pair .sell) := by
  simp only [orderRows_eq, Checked.bind_ok, Checked.pure_ok] at done
  obtain ⟨buy, bought, sell, sold, all, mapped, rfl⟩ := done
  refine ⟨fun side => match side with | .buy => buy | .sell => sell, ?_, ?_⟩
  · rintro (_ | _)
    · exact bought
    · exact sold
  · have related := (Checked.mapM_forall₂ mapped).flip.imp fun _ _ row =>
      orderRow_ok (fun side => match side with | .buy => buy | .sell => sell) row
    have split (side : Side) : listed orders p.maker.pair side =
        (orders.filter fun order => order.pair = p.maker.pair).filter
          fun order => order.side = side := by
      rw [List.filter_filter, listed]
      congr 1
      funext order
      rw [Bool.decide_and, Bool.and_comm]
    rw [split, split, ← List.forall₂_and_left]
    refine List.rel_append (List.rel_filter ?_ related) (List.rel_filter ?_ related)
    · rintro row order ⟨-, shows⟩
      simp [shows.side]
    · rintro row order ⟨-, shows⟩
      simp [shows.side]

omit [Arithmetic] in
/-- Every order on the maker's pair has its row, bids before asks and each side in the order given.
An order with a negative distance goes for its price, one with a positive distance stays, and a price
that is beyond the threshold by a basis point of it has a negative distance. -/
theorem build_agrees {config : Config} {e : Engine} {takerMid : Decimal} {balances : List BalanceRow}
    {report : StatusReport} (configured : config.parameters = .ok e.params)
    (positive : ∀ side threshold,
      @Parameters.threshold .rounding e.params quotes side = .ok threshold → 0 < threshold)
    (built : @build .rounding e quotes makerMid takerMid orders balances now = .ok report) :
    List.Forall₂ (OrderRow.Shows e.params now) report.orders
      (listed orders e.params.maker.pair .buy ++ listed orders e.params.maker.pair .sell) ∧
    ∀ row ∈ report.orders, ∃ threshold,
      @Parameters.threshold .rounding e.params quotes row.side = .ok threshold ∧
      (∀ t, row.spreadCancel < 0 →
        @Cancellation.reason? .rounding e.params quotes t row.side row.price t =
          .ok (some (.priceDrift row.price threshold))) ∧
      (∀ t, 0 < row.spreadCancel →
        @Cancellation.reason? .rounding e.params quotes t row.side row.price t = .ok none) ∧
      (threshold.value / 10000 ≤ excess row.side row.price threshold → row.spreadCancel < 0) := by
  let _ : Arithmetic := .rounding
  have valid := (Config.parameters_valid configured).1
  simp only [build, Checked.bind_ok, Checked.pure_ok] at built
  obtain ⟨exchanges, -, rows, made, rfl⟩ := built
  obtain ⟨threshold, bounds, shows, related⟩ := orderRows_ok made
  refine ⟨related, fun row member => ?_⟩
  obtain ⟨shown, far, same⟩ := shows row member
  have above := pos_iff_value.1 (positive _ _ (bounds row.side))
  obtain ⟨drifts, stays, beyond⟩ := distance_trunc Arithmetic.rounding_rounds above far
  rw [same]
  refine ⟨threshold row.side, bounds row.side, fun t negative => ?_, fun t more => ?_, fun apart => ?_⟩
  · rw [lt_iff_value, value_zero] at negative
    exact Cancellation.reason?_of_beyond (bounds row.side) (drifts negative)
  · exact Cancellation.reason?_of_within valid (bounds row.side)
      (not_lt.2 (stays (pos_iff_value.1 more)).le)
  · rw [lt_iff_value, value_zero]
    exact beyond apart

def mixedQuotes : MarketQuotes := ⟨.of 101 0, .of 100 0, .of 102 0, .of 99 0⟩

/-- An ask and a bid, the bid above its threshold of 99.78, and an order on another pair. -/
def mixedOrders : List RestingOrder :=
  [⟨"okx-1", ⟨"DOGE", "USDT"⟩, .sell, .of 102 0, 1, ⟨0⟩⟩,
    ⟨"okx-2", ⟨"BTC", "USDT"⟩, .buy, 1, 1, ⟨0⟩⟩,
    ⟨"okx-3", ⟨"DOGE", "USDT"⟩, .buy, .of 9980 2, 1, ⟨0⟩⟩]

omit [Arithmetic] in
theorem build_agrees_mixed : ∃ p report, ({} : Config).parameters = .ok p ∧
    @build .rounding (.new p) mixedQuotes (.of 1005 1) (.of 1005 1) mixedOrders [] ⟨0⟩ = .ok report ∧
    report.orders.map (fun row => (row.side, row.price, decide (row.spreadCancel < 0))) =
      [(.buy, .of 9980 2, true), (.sell, .of 102 0, false)] ∧
    ∀ row ∈ report.orders, ∃ threshold,
      @Parameters.threshold .rounding p mixedQuotes row.side = .ok threshold ∧
      (row.spreadCancel < 0 →
        @Cancellation.reason? .rounding p mixedQuotes ⟨0⟩ row.side row.price ⟨0⟩ =
          .ok (some (.priceDrift row.price threshold))) ∧
      (0 < row.spreadCancel →
        @Cancellation.reason? .rounding p mixedQuotes ⟨0⟩ row.side row.price ⟨0⟩ = .ok none) := by
  have works : ({} : Config).parameters.toOption.any (fun p =>
      (@build .rounding (.new p) mixedQuotes (.of 1005 1) (.of 1005 1) mixedOrders [] ⟨0⟩).toOption.any
        fun report => decide (report.orders.map (fun row =>
          (row.side, row.price, decide (row.spreadCancel < 0))) =
            [(.buy, .of 9980 2, true), (.sell, .of 102 0, false)]) &&
          (@Parameters.threshold .rounding p mixedQuotes .buy).toOption.all (fun t => decide (0 < t)) &&
          (@Parameters.threshold .rounding p mixedQuotes .sell).toOption.all fun t => decide (0 < t)) =
      true := by
    simp only [build, orderRows_eq]
    decide +kernel
  obtain ⟨p, configured, works⟩ := Checked.toOption_any works
  obtain ⟨report, built, works⟩ := Checked.toOption_any works
  rw [Bool.and_eq_true, Bool.and_eq_true] at works
  obtain ⟨⟨rows, buys⟩, sells⟩ := works
  have positive (side : Side) (threshold : Decimal)
      (bound : @Parameters.threshold .rounding p mixedQuotes side = .ok threshold) : 0 < threshold := by
    cases side with
    | buy => exact of_decide_eq_true (Checked.toOption_all.1 buys threshold bound)
    | sell => exact of_decide_eq_true (Checked.toOption_all.1 sells threshold bound)
  obtain ⟨-, agrees⟩ := build_agrees (e := .new p) configured positive built
  refine ⟨p, report, configured, built, of_decide_eq_true rows, fun row member => ?_⟩
  obtain ⟨threshold, bound, drifts, stays, -⟩ := agrees row member
  exact ⟨threshold, bound, drifts ⟨0⟩, stays ⟨0⟩⟩

end StatusReport

end MarketMaker
