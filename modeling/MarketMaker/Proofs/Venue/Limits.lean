import MarketMaker.Proofs.Venue.Sides
import MarketMaker.Proofs.Venue.Soundness
/-!
What a book offers within a limit. Best prices first, a limit order takes the levels that its limit
reaches until it is filled; it executes nothing if its limit does not reach the best one, and only then.
-/

namespace MarketMaker

open Decimal

namespace OrderBook

variable {book : OrderBook} {side : Side}

/-- The levels that an order of this side may trade at. -/
def offered (book : OrderBook) (side : Side) (limit : Option Decimal) : List Level :=
  (book.facing side).filter fun level => level.isWithin side limit

/-- Before a level within the limit there is none beyond it. -/
theorem Sorted.within (sorted : book.Sorted) (limit : Option Decimal) :
    (book.facing side).Pairwise fun first second =>
      second.isWithin side limit = true → first.isWithin side limit = true := by
  cases limit with
  | none => exact List.pairwise_of_forall fun _ _ _ => rfl
  | some limit =>
    exact sorted.facing.imp fun le within =>
      Level.isWithin_iff.2 (le.trans (Level.isWithin_iff.1 within))

end OrderBook

variable [Arithmetic]

namespace Level

variable {side : Side} {limit : Option Decimal} {amount : Decimal} {x y : Execution}
  {levels : List Level}

/-- An order takes what the levels within its limit offer, and no more than it needs. -/
theorem sweep_filled (exact : Arithmetic.ExactSums) (fair : ∀ level ∈ levels, 0 ≤ level.amount.value)
    (sorted : levels.Pairwise fun first second =>
      second.isWithin side limit = true → first.isWithin side limit = true)
    (start : x.filled.value ≤ amount.value) (done : sweep side limit amount x levels = .ok y) :
    y.filled.value = x.filled.value +
      min (depth (levels.filter fun level => level.isWithin side limit))
        (amount.value - x.filled.value) := by
  induction levels generalizing x with
  | nil =>
    obtain rfl := Except.ok.inj done
    have none : min (depth []) (amount.value - x.filled.value) = 0 :=
      min_eq_left (sub_nonneg.2 start)
    rw [List.filter_nil, none, add_zero]
  | cons level levels ih =>
    obtain ⟨offers, others⟩ := List.forall_mem_cons.1 fair
    obtain ⟨first, sorted'⟩ := List.pairwise_cons.1 sorted
    rcases sweep_cons done with
      ⟨full | beyond, rfl⟩ | ⟨rest, -, filled, notional, less, within, subtracted, added, -, -, later⟩
    · have complete : amount.value - y.filled.value = 0 := by linarith
      have some' : 0 ≤ depth ((level :: levels).filter fun level => level.isWithin side limit) :=
        depth_nonneg fun other member => fair other (List.mem_filter.1 member).1
      rw [complete, min_eq_right some', add_zero]
    · -- the levels after one beyond the limit are beyond it too
      have none : (level :: levels).filter (fun level => level.isWithin side limit) = [] := by
        rw [List.filter_eq_nil_iff]
        intro other member reached
        rcases List.mem_cons.1 member with rfl | inRest
        · exact absurd reached (by simp [beyond])
        · exact absurd (first other inRest reached) (by simp [beyond])
      have nothing : min (depth []) (amount.value - y.filled.value) = 0 :=
        min_eq_left (sub_nonneg.2 start)
      rw [none, nothing, add_zero]
    · have took := exact.add added
      rw [value_min, exact.sub subtracted] at took
      have further : filled.value ≤ amount.value := by
        have most := min_le_right level.amount.value (amount.value - x.filled.value)
        linarith
      have fills := ih (x := ⟨filled, notional⟩) others sorted' further later
      have kept : (level :: levels).filter (fun level => level.isWithin side limit) =
          level :: levels.filter fun level => level.isWithin side limit := by
        rw [List.filter_cons, if_pos within]
      rw [fills, took, kept, depth_cons, add_assoc, add_right_inj]
      rcases min_cases level.amount.value (amount.value - x.filled.value) with
        ⟨taken, -⟩ | ⟨taken, few⟩
      · rw [taken, ← min_add_add_left]
        ring_nf
      · have more : 0 ≤ depth (levels.filter fun level => level.isWithin side limit) :=
          depth_nonneg fun other member => others other (List.mem_filter.1 member).1
        rw [taken, add_sub_cancel, sub_self, min_eq_right more, add_zero, min_eq_right (by linarith)]

/-- An order never gives back what it has executed. -/
theorem le_sweep (rounds : Arithmetic.Rounds) (fair : ∀ level ∈ levels, 0 ≤ level.amount.value)
    (done : sweep side limit amount x levels = .ok y) : x.filled.value ≤ y.filled.value := by
  refine sweep_preserves (P := fun z => x.filled.value ≤ z.filled.value) ?_ le_rfl done
  intro level member z rest _ filled _ reached less _ subtracted added _ _
  have taken := taken_nonneg rounds.signed (fair level member) less subtracted
  calc x.filled.value ≤ z.filled.value := reached
    _ ≤ filled.value := by
      rw [rounds.add added]
      exact le_nearest (le_add_of_nonneg_right taken)

end Level

namespace OrderBook

variable {book : OrderBook} {side : Side} {limit : Option Decimal} {amount price : Decimal}
  {x : Execution}

theorem execute_filled (exact : Arithmetic.ExactSums) (fair : book.Fair) (sorted : book.Sorted)
    (positive : 0 < amount.value) (done : book.execute side limit amount = .ok x) :
    x.filled.value = min (Level.depth (book.offered side limit)) amount.value := by
  have fills := Level.sweep_filled exact fair.facing (sorted.within limit)
    (Execution.value_none.trans_le positive.le) done
  rwa [Execution.value_none, zero_add, sub_zero] at fills

/-- An order executes something at once if its price crosses the book, and only then. -/
theorem execute_eq_zero_iff (rounds : Arithmetic.Rounds) (sound : book.Positive)
    (positive : 0 < amount.value) (done : book.execute side (some price) amount = .ok x) :
    x.filled.value = 0 ↔ book.crosses side price = false := by
  have fair : ∀ level ∈ book.facing side, 0 ≤ level.amount.value := sound.fair.facing
  have priced : ∀ level ∈ book.facing side, 0 < level.amount.value :=
    fun level member => pos_iff_value.1 (sound level (mem_of_facing member)).2
  rw [crosses_eq]
  rw [execute] at done
  generalize book.facing side = levels at fair priced done
  cases levels with
  | nil =>
    obtain rfl := Except.ok.inj done
    simp [Execution.value_none]
  | cons level levels =>
    rcases Level.sweep_cons done with
      ⟨full | beyond, rfl⟩ | ⟨rest, -, filled, notional, -, within, subtracted, added, -, -, later⟩
    · rw [Execution.value_none] at full
      exact absurd full positive.not_ge
    · simp [Execution.value_none, beyond]
    · have left : rest.value = amount.value := by
        rw [rounds.sub subtracted, Execution.value_none, sub_zero, nearest_value]
      have took : 0 < filled.value := by
        rw [rounds.add added, Execution.value_none, zero_add, nearest_value, value_min, left]
        exact lt_min (priced level List.mem_cons_self) positive
      have more := Level.le_sweep rounds (List.forall_mem_cons.1 fair).2 later
      simp [within, (took.trans_le more).ne']

end OrderBook

namespace SimulatedVenue

/-- What the log tells of an order. -/
def logged? (v : SimulatedVenue) (id : OrderId) : Option OrderEntry :=
  v.log.find? fun entry => entry.id = id

variable {v w : SimulatedVenue} {pair : Pair} {side : Side} {type : OrderType}
  {amount price : Decimal} {id : OrderId} {book : OrderBook} {entry : OrderEntry}

omit [Arithmetic] in
theorem Sound.logged_iff (sound : v.Sound) :
    v.logged? id = some entry ↔ entry ∈ v.log ∧ entry.id = id := by
  rw [logged?]
  constructor
  · intro looked
    exact ⟨List.mem_of_find?_eq_some looked, by simpa using List.find?_some looked⟩
  · rintro ⟨member, rfl⟩
    obtain ⟨found, looked⟩ : ∃ found, v.log.find? (fun other => other.id = entry.id) = some found :=
      Option.isSome_iff_exists.1 (List.find?_isSome.2 ⟨entry, member, by simp⟩)
    have same : found.id = entry.id := by simpa using List.find?_some looked
    obtain rfl :=
      List.inj_on_of_nodup_map sound.ids_nodup (List.mem_of_find?_eq_some looked) member same
    exact looked

omit [Arithmetic] in
/-- What was logged stays logged. -/
theorem logged_mono (sound : v.Sound) (sound' : w.Sound) (later : Precedes v w)
    (known : v.logged? id = some entry) : w.logged? id = some entry := by
  obtain ⟨member, same⟩ := sound.logged_iff.1 known
  exact sound'.logged_iff.2 ⟨later.log member, same⟩

/-- An order that is accepted on its terms is logged with them, and what is left of it rests. -/
theorem placeOrder_entered (sound : v.Sound)
    (done : v.placeOrder pair side amount type price = .ok (.ok id, w)) :
    ∃ book t, 0 < amount.value ∧ v.bookOf pair = .ok book ∧
      v.terms book side amount type price = .ok t ∧
      w.logged? id = some ⟨id, pair, side, type, amount, price, t.execution.filled⟩ ∧
      w.find? id =
        if 0 < t.remaining then some ⟨id, pair, side, price, t.remaining, v.clock⟩ else none := by
  rcases placeOrder_cases done with
    ⟨_, _, impossible, -⟩ | ⟨book, t, _, same, positive, found, terms, -, accepted⟩
  · cases impossible
  obtain rfl := Except.ok.inj same
  obtain ⟨s, fills, trades, -, -, rfl, rfl⟩ := accept_ok accepted
  have unlogged : v.logged? v.nextId = none := by
    rw [logged?, List.find?_eq_none]
    intro entry member known
    exact sound.nextId_fresh ⟨entry, member, of_decide_eq_true known, rfl, rfl⟩
  have unrested : v.find? v.nextId = none := sound.lookup_nextId
  refine ⟨book, t, positive, found, terms, ?_, ?_⟩
  · rw [logged?] at unlogged ⊢
    rw [List.find?_append, unlogged]
    simp
  · rw [find?] at unrested ⊢
    rw [List.find?_append, unrested, restOf]
    split <;> simp

/-- A limit order executes what the book offers within its limit, as far as it needs it; the difference
rests. -/
theorem placeOrder_limit (exact : Arithmetic.ExactSums) (sound : v.Sound)
    (found : v.bookOf pair = .ok book) (fair : book.Fair) (sorted : book.Sorted)
    (done : v.placeOrder pair side amount .limit price = .ok (.ok id, w)) :
    ∃ entry, w.logged? id = some entry ∧
      (entry.pair = pair ∧ entry.side = side ∧ entry.amount = amount ∧ entry.price = price) ∧
      entry.executed.value = min (Level.depth (book.offered side (some price))) amount.value ∧
      RestingOrder.quantityOf w.resting id = amount.value - entry.executed.value ∧
      (w.find? id = none ↔ entry.executed.value = amount.value) := by
  obtain ⟨book', t, positive, found', terms, entered, rests⟩ := placeOrder_entered sound done
  obtain rfl := Except.ok.inj (found.symm.trans found')
  obtain ⟨executed, left, -⟩ := terms_limit terms
  have fills := OrderBook.execute_filled exact fair sorted positive executed
  have remains := exact.sub left
  have most : t.execution.filled.value ≤ amount.value := fills.trans_le (min_le_right _ _)
  refine ⟨_, entered, ⟨rfl, rfl, rfl, rfl⟩, fills, ?_, ?_⟩
  · have looked : RestingOrder.lookup id w.resting =
        if 0 < t.remaining then some ⟨id, pair, side, price, t.remaining, v.clock⟩ else none := rests
    rw [RestingOrder.quantityOf, looked, ← remains]
    split_ifs with more
    · rfl
    · rw [pos_iff_value, not_lt] at more
      exact (le_antisymm more (remains ▸ sub_nonneg.2 most)).symm
  · rw [rests]
    split_ifs with more
    · rw [pos_iff_value, remains, sub_pos] at more
      simp [more.ne]
    · rw [pos_iff_value, not_lt, remains, sub_nonpos] at more
      simp [le_antisymm most more]

end SimulatedVenue

end MarketMaker
