import MarketMaker.Proofs.Decimal.Magnitude
import MarketMaker.Proofs.Releases
/-!
What a book is after any history of calls from an empty one. The orders it knows are positive, told apart
by their ids and sorted by side, and an order that was let go is remembered until fills took all of it or
eight others were let go after it.
-/

namespace MarketMaker

open Decimal

namespace QuoteBook

/-- A call that changes a book. -/
inductive Operation
  | mark (order : TrackedOrder)
  | release (side : Side)
  | forget (side : Side)
  | fill (side : Side) (amount : Decimal)
  | lateFill (side : Side) (id : OrderId) (amount : Decimal)

/-- The amount of a fill of the released order of this side and id. -/
def Operation.lateAmounts (side : Side) (id : OrderId) : Operation → List Decimal
  | .lateFill side' id' amount => if side' = side ∧ id' = id then [amount] else []
  | _ => []

/-- The order that the call lets go but remembers. -/
def letsGo (book : QuoteBook) : Operation → List TrackedOrder
  | .forget side => (book.tracked side).toList
  | _ => []

/-- New orders have an id that no known order has and a positive quantity; fills have a positive amount. -/
def Operation.Fits (book : QuoteBook) : Operation → Prop
  | .mark order => order.id ∉ book.ids ∧ 0 < order.remaining.value ∧
      order.remaining.value ≤ order.initialQuantity.value
  | .release _ => True
  | .forget _ => True
  | .fill _ amount => 0 < amount.value
  | .lateFill _ _ amount => 0 < amount.value

/-- What fills leave of a quantity. -/
def leftOf (quantity : ℚ) (amounts : List Decimal) : ℚ :=
  amounts.foldl (fun left amount => max (nearest (left - amount.value)) 0) quantity

structure WellFormed (book : QuoteBook) : Prop where
  sided : book.Sided
  bounds : ∀ order ∈ book.known,
    0 < order.remaining.value ∧ order.remaining.value ≤ order.initialQuantity.value
  distinct : book.ids.Nodup
  few : book.released.length ≤ releasedCapacity

/-- The order is released, and as many more may be before it is dropped. -/
def Keeps (book : QuoteBook) (room : ℕ) (order : TrackedOrder) : Prop :=
  ∃ older newer, book.released = older ++ order :: newer ∧ newer.length + room < releasedCapacity

section Calls

variable [Arithmetic]

def perform (book : QuoteBook) : Operation → Checked QuoteBook
  | .mark order => .ok (book.markResting order).2
  | .release side => .ok (book.release side).2
  | .forget side => .ok (book.forget side).2
  | .fill side amount => return (← book.applyFill side amount).2
  | .lateFill side id amount => return (← book.applyReleasedFill side id amount).2

/-- The orders that a history lets go, in their order, and the book after it. -/
def run : List Operation → QuoteBook → Checked (List TrackedOrder × QuoteBook)
  | [], book => .ok ([], book)
  | operation :: later, book => do
    let after ← book.perform operation
    let (orders, last) ← run later after
    return (book.letsGo operation ++ orders, last)

/-- Each call fits the book that it finds. -/
def Proper : List Operation → QuoteBook → Prop
  | [], _ => True
  | operation :: later, book =>
    operation.Fits book ∧ ∀ after, book.perform operation = .ok after → Proper later after

instance (book : QuoteBook) : DecidablePred (Operation.Fits book)
  | .mark _ => inferInstanceAs (Decidable (_ ∧ _ ∧ _))
  | .release _ => .isTrue trivial
  | .forget _ => .isTrue trivial
  | .fill _ _ => inferInstanceAs (Decidable (_ < _))
  | .lateFill _ _ _ => inferInstanceAs (Decidable (_ < _))

instance decidableProper : (operations : List Operation) → (book : QuoteBook) →
    Decidable (Proper operations book)
  | [], _ => .isTrue trivial
  | operation :: later, book =>
    have : Decidable (∀ after, book.perform operation = .ok after → Proper later after) :=
      match book.perform operation with
      | .error _ => .isTrue fun _ done => nomatch done
      | .ok next =>
        have := decidableProper later next
        decidable_of_iff (Proper later next)
          ⟨fun proper _ done => Except.ok.inj done ▸ proper, fun proper => proper next rfl⟩
    inferInstanceAs (Decidable (_ ∧ _))

end Calls

variable {book after : QuoteBook} {side : Side} {id : OrderId} {amount left : Decimal}
  {order : TrackedOrder} {room : ℕ}

theorem wellFormed_empty : WellFormed .empty :=
  ⟨sided_empty, by simp [known, resting, empty], by simp [ids, known, resting, empty],
    by simp [empty]⟩

namespace WellFormed

theorem remaining_pos (formed : book.WellFormed) (member : order ∈ book.known) :
    0 < order.remaining.value :=
  (formed.bounds order member).1

/-! ### Calls that keep a book well formed -/

theorem mark (formed : book.WellFormed) (fits : Operation.Fits book (.mark order)) :
    (book.markResting order).2.WellFormed := by
  obtain ⟨fresh, bounds⟩ := fits
  rcases book.markResting_cases order with ⟨idle, marked⟩ | unchanged
  · rw [marked]
    refine ⟨formed.sided.setTracked fun known same => Option.some.inj same ▸ rfl, ?_,
      (ids_setTracked_new idle).nodup_iff.2 (List.nodup_cons.2 ⟨fresh, formed.distinct⟩),
      by rw [released_setTracked]; exact formed.few⟩
    intro other member
    rcases known_of_setTracked member with new | old
    · obtain rfl := Option.some.inj new
      exact bounds
    · exact formed.bounds other old
  · rw [unchanged]
    exact formed

theorem release (formed : book.WellFormed) (side : Side) : (book.release side).2.WellFormed := by
  rw [QuoteBook.release]
  cases found : book.tracked side with
  | none =>
    rw [setTracked_none (isIdle_eq_true.2 found)]
    exact formed
  | some order =>
    refine ⟨formed.sided.setTracked (by simp), fun other member => formed.bounds other ?_,
      (List.nodup_cons.1 ((ids_release found).nodup_iff.1 formed.distinct)).2,
      by rw [released_setTracked]; exact formed.few⟩
    rcases known_of_setTracked member with new | old
    · cases new
    · exact old

theorem forget (formed : book.WellFormed) (side : Side) : (book.forget side).2.WellFormed := by
  cases found : book.tracked side with
  | none =>
    rw [forget_idle found]
    exact formed
  | some order =>
    refine ⟨formed.sided.forget side,
      fun other member => formed.bounds other (mem_known_of_forget found member),
      nodup_ids_forget formed.distinct side, ?_⟩
    have few := formed.few
    simp only [QuoteBook.forget, found, remember, released_setTracked, List.length_append,
      List.length_singleton]
    split
    next full => rw [List.length_tail, full, releasedCapacity]
    next => omega

/-- A reduced order is smaller than it was, and still positive. -/
theorem bounds_of_rest (formed : book.WellFormed) (member : order ∈ book.known)
    (less : left.value ≤ order.remaining.value) {other : TrackedOrder}
    (kept : order.rest left = some other) :
    0 < other.remaining.value ∧ other.remaining.value ≤ other.initialQuantity.value := by
  rw [TrackedOrder.rest] at kept
  split at kept
  next more =>
    obtain rfl := Option.some.inj kept
    rw [value_max, value_zero, max_eq_left more.le]
    exact ⟨more, less.trans (formed.bounds order member).2⟩
  next => cases kept

theorem fill (formed : book.WellFormed) (found : book.tracked side = some order)
    (less : left.value ≤ order.remaining.value) : (book.setTracked side (order.rest left)).WellFormed := by
  have reduced : Reduced book (book.setTracked side (order.rest left)) order left :=
    reduced_tracked formed.distinct formed.sided found
  refine ⟨reduced.sided, fun other member => ?_, reduced.distinct,
    by rw [released_setTracked]; exact formed.few⟩
  rcases known_of_setTracked member with new | old
  · exact formed.bounds_of_rest (mem_known.2 (.inl ⟨side, found⟩)) less new
  · exact formed.bounds other old

theorem lateFill (formed : book.WellFormed) {older newer : List TrackedOrder}
    (listed : book.released = older ++ order :: newer) (less : left.value ≤ order.remaining.value) :
    ({ book with released := older ++ keep order left ++ newer } : QuoteBook).WellFormed := by
  have reduced : Reduced book { book with released := older ++ keep order left ++ newer } order left :=
    reduced_released formed.distinct formed.sided listed
  refine ⟨reduced.sided, fun other member => ?_, reduced.distinct, ?_⟩
  · rw [known, List.mem_append] at member
    simp only [List.mem_append, keep_eq_rest, Option.mem_toList] at member
    rcases member with tracked | (old | kept) | new
    · exact formed.bounds other (List.mem_append_left _ tracked)
    · exact formed.bounds other (List.mem_append_right _ (by simp [listed, old]))
    · exact formed.bounds_of_rest (List.mem_append_right _ (by simp [listed])) less kept
    · exact formed.bounds other (List.mem_append_right _ (by simp [listed, new]))
  · have fewer := reduced.released.length_le
    rw [List.length_map, List.length_map] at fewer
    exact fewer.trans formed.few

end WellFormed

/-! ### Calls that keep an order -/

theorem Keeps.congr (keeps : book.Keeps room order) (same : after.released = book.released) :
    after.Keeps room order := by
  obtain ⟨older, newer, listed, few⟩ := keeps
  exact ⟨older, newer, same.trans listed, few⟩

theorem Keeps.mem (keeps : book.Keeps room order) : order ∈ book.released := by
  obtain ⟨older, newer, listed, -⟩ := keeps
  simp [listed]

/-- The order that is let go is the newest of those that are remembered. -/
theorem keeps_forgotten (found : book.tracked side = some order) (few : room < releasedCapacity) :
    (book.forget side).2.Keeps room order := by
  rcases released_forget found with listed | ⟨-, rest, -, -, listed⟩
  · exact ⟨book.released, [], listed, by simpa using few⟩
  · exact ⟨rest, [], listed, by simpa using few⟩

theorem Keeps.forget (keeps : book.Keeps (room + (book.letsGo (.forget side)).length) order) :
    (book.forget side).2.Keeps room order := by
  rw [letsGo] at keeps
  cases found : book.tracked side with
  | none =>
    rw [forget_idle found]
    simpa [found] using keeps
  | some forgotten =>
    obtain ⟨older, newer, listed, few⟩ := keeps
    rw [found, Option.toList_some, List.length_singleton] at few
    obtain ⟨kept, -, listed'⟩ := released_forget_split found listed (by omega)
    refine ⟨kept, newer ++ [forgotten], listed', ?_⟩
    rw [List.length_append, List.length_singleton]
    omega

/-- A fill of another released order may drop that order, but leaves this one where it is. -/
theorem Keeps.lateFill (keeps : book.Keeps room order) {before rest : List TrackedOrder}
    {hit : TrackedOrder} (listed : book.released = before ++ hit :: rest) (other : order ≠ hit) :
    ({ book with released := before ++ keep hit left ++ rest } : QuoteBook).Keeps room order := by
  obtain ⟨older, newer, listed', few⟩ := keeps
  have short : (keep hit left).length ≤ 1 := by
    rw [keep]
    split <;> simp
  rcases List.append_eq_append_iff.1 (listed'.symm.trans listed) with
    ⟨between, rfl, split⟩ | ⟨between, rfl, split⟩
  · cases between with
    | nil => exact absurd (List.cons.inj split).1 other
    | cons _ between =>
      obtain ⟨rfl, rfl⟩ := List.cons.inj split
      refine ⟨older, between ++ keep hit left ++ rest, by simp, ?_⟩
      simp only [List.append_eq, List.length_append, List.length_cons] at few ⊢
      omega
  · cases between with
    | nil => exact absurd (List.cons.inj split).1.symm other
    | cons _ between =>
      obtain ⟨rfl, rfl⟩ := List.cons.inj split
      exact ⟨before ++ keep hit left ++ between, newer, by simp, few⟩

/-- What is left of the order itself takes its place. -/
theorem keeps_rest {older newer : List TrackedOrder} (few : newer.length + room < releasedCapacity)
    (more : 0 < left.value) :
    ({ book with released := older ++ keep order left ++ newer } : QuoteBook).Keeps room
      { order with remaining := max left 0 } := by
  refine ⟨older, newer, ?_, few⟩
  rw [keep_eq_rest, TrackedOrder.rest, if_pos more]
  simp

/-! ### Quantities left -/

theorem leftOf_cons (quantity : ℚ) (amount : Decimal) (more : List Decimal) :
    leftOf quantity (amount :: more) = leftOf (max (nearest (quantity - amount.value)) 0) more :=
  rfl

theorem leftOf_append (quantity : ℚ) (first second : List Decimal) :
    leftOf quantity (first ++ second) = leftOf (leftOf quantity first) second :=
  List.foldl_append

/-- Nothing is left of nothing. -/
theorem leftOf_nonpos {quantity : ℚ} (none : quantity ≤ 0) {amounts : List Decimal}
    (positive : ∀ amount ∈ amounts, 0 < amount.value) : leftOf quantity amounts ≤ 0 := by
  induction amounts generalizing quantity with
  | nil => exact none
  | cons amount more ih =>
    rw [leftOf_cons]
    have below := nearest_nonpos (by linarith [positive amount List.mem_cons_self] :
      quantity - amount.value ≤ 0)
    exact ih (max_le below le_rfl) fun other member => positive other (List.mem_cons_of_mem amount member)

section Calls

variable [Arithmetic]

/-- The difference of two positive numbers does not overflow, and is not more than the first. -/
theorem exists_left (total : Arithmetic.Total) {quantity : Decimal} (some' : 0 < quantity.value)
    (positive : 0 < amount.value) : ∃ left, quantity.sub amount = .ok left ∧
      left.value = nearest (quantity.value - amount.value) ∧ left.value ≤ quantity.value := by
  have within := abs_le.1 quantity.abs_value_le_greatest
  have within' := abs_le.1 amount.abs_value_le_greatest
  obtain ⟨left, done, value⟩ := total.sub (a := quantity) (b := amount)
    (abs_le.2 ⟨by linarith, by linarith⟩)
  exact ⟨left, done, value, value ▸ nearest_le (by linarith)⟩

theorem perform_fill (found : book.tracked side = some order) :
    book.perform (.fill side amount) = do
      let left ← order.remaining.sub amount
      return book.setTracked side (order.rest left) := by
  rw [perform, applyFill_tracked found]
  cases order.remaining.sub amount <;> rfl

theorem perform_fill_idle (idle : book.tracked side = none) :
    book.perform (.fill side amount) = .ok book := by
  rw [perform, applyFill, idle]
  rfl

theorem WellFormed.applyReleasedFill (formed : book.WellFormed) {older newer : List TrackedOrder}
    (listed : book.released = older ++ order :: newer) :
    book.applyReleasedFill order.side order.id amount = do
      let left ← order.remaining.sub amount
      return (some (max left 0), { book with released := older ++ keep order left ++ newer }) := by
  have alone : ∀ known ∈ older, ¬ (known.side = order.side ∧ known.id = order.id) := by
    intro known member same
    have distinct := formed.distinct.sublist ((List.sublist_append_right _ _).map _)
    rw [listed, List.map_append, List.map_cons, List.nodup_middle, List.nodup_cons,
      ← List.map_append] at distinct
    exact distinct.1 (same.2 ▸ List.mem_map_of_mem (List.mem_append_left newer member))
  rw [QuoteBook.applyReleasedFill, listed, fillFirst_own ⟨rfl, rfl⟩ alone]
  cases order.remaining.sub amount <;> rfl

theorem WellFormed.perform_lateFill (formed : book.WellFormed) {older newer : List TrackedOrder}
    (listed : book.released = older ++ order :: newer) :
    book.perform (.lateFill order.side order.id amount) = do
      let left ← order.remaining.sub amount
      return { book with released := older ++ keep order left ++ newer } := by
  rw [perform, formed.applyReleasedFill listed]
  cases order.remaining.sub amount <;> rfl

theorem perform_lateFill_none
    (unknown : ∀ order ∈ book.released, ¬ (order.side = side ∧ order.id = id)) :
    book.perform (.lateFill side id amount) = .ok book := by
  rw [perform, applyReleasedFill, fillFirst_none unknown]
  rfl

/-- Every call that fits a well-formed book leads to another. -/
theorem WellFormed.perform (total : Arithmetic.Total) (formed : book.WellFormed)
    {operation : Operation} (fits : operation.Fits book) :
    Checked.Gives (book.perform operation) WellFormed := by
  cases operation with
  | mark order => exact ⟨_, rfl, formed.mark fits⟩
  | release side => exact ⟨_, rfl, formed.release side⟩
  | forget side => exact ⟨_, rfl, formed.forget side⟩
  | fill side amount =>
    cases found : book.tracked side with
    | none => exact ⟨book, perform_fill_idle found, formed⟩
    | some order =>
      have some' := formed.remaining_pos (mem_known.2 (.inl ⟨side, found⟩))
      obtain ⟨left, done, -, less⟩ := exists_left total some' fits
      exact ⟨_, by rw [perform_fill found, done]; rfl, formed.fill found less⟩
  | lateFill side id amount =>
    by_cases known : ∃ order ∈ book.released, order.side = side ∧ order.id = id
    case pos =>
      obtain ⟨order, member, rfl, rfl⟩ := known
      obtain ⟨older, newer, listed⟩ := List.append_of_mem member
      have some' := formed.remaining_pos (mem_known.2 (.inr member))
      obtain ⟨left, done, -, less⟩ := exists_left total some' fits
      exact ⟨_, by rw [formed.perform_lateFill listed, done]; rfl, formed.lateFill listed less⟩
    case neg =>
      exact ⟨book, perform_lateFill_none fun order member same => known ⟨order, member, same⟩, formed⟩

/-- A late fill of the order itself leaves the rest of it at its place. -/
theorem Keeps.perform_own (total : Arithmetic.Total) (formed : book.WellFormed)
    (fits : (Operation.lateFill order.side order.id amount).Fits book) (keeps : book.Keeps room order)
    (more : 0 < leftOf order.remaining.value [amount])
    (done : book.perform (.lateFill order.side order.id amount) = .ok after) :
    ∃ rest, after.Keeps room rest ∧ rest.side = order.side ∧ rest.id = order.id ∧
      rest.remaining.value = leftOf order.remaining.value [amount] := by
  obtain ⟨older, newer, listed, few⟩ := keeps
  rw [formed.perform_lateFill listed] at done
  simp only [Checked.bind_ok, Checked.pure_ok] at done
  obtain ⟨left, subtracted, rfl⟩ := done
  have some' := formed.remaining_pos (mem_known.2 (.inr (by simp [listed] : order ∈ book.released)))
  obtain ⟨left', subtracted', value, -⟩ := exists_left total some' fits
  obtain rfl := Except.ok.inj (subtracted'.symm.trans subtracted)
  rw [leftOf_cons, ← value] at more ⊢
  have positive : 0 < left'.value := (lt_max_iff.1 more).resolve_right (lt_irrefl 0)
  exact ⟨_, keeps_rest few positive, rfl, rfl, by rw [value_max, value_zero]; rfl⟩

/-- A late fill of another order, known or not, leaves this one alone. -/
theorem Keeps.perform_other (formed : book.WellFormed) (keeps : book.Keeps room order)
    (other : ¬ (side = order.side ∧ id = order.id))
    (done : book.perform (.lateFill side id amount) = .ok after) : after.Keeps room order := by
  by_cases known : ∃ hit ∈ book.released, hit.side = side ∧ hit.id = id
  · obtain ⟨hit, member, rfl, rfl⟩ := known
    obtain ⟨before, rest, listed⟩ := List.append_of_mem member
    rw [formed.perform_lateFill listed] at done
    simp only [Checked.bind_ok, Checked.pure_ok] at done
    obtain ⟨left, -, rfl⟩ := done
    exact keeps.lateFill listed fun same => other ⟨same ▸ rfl, same ▸ rfl⟩
  · rw [perform_lateFill_none fun hit member same => known ⟨hit, member, same⟩] at done
    cases done
    exact keeps

/-- A released order stays where it is as long as there is room and something is left of it. -/
theorem Keeps.perform (total : Arithmetic.Total) (formed : book.WellFormed) {operation : Operation}
    (fits : operation.Fits book) (keeps : book.Keeps (room + (book.letsGo operation).length) order)
    (more : 0 < leftOf order.remaining.value (operation.lateAmounts order.side order.id))
    (done : book.perform operation = .ok after) :
    ∃ rest, after.Keeps room rest ∧ rest.side = order.side ∧ rest.id = order.id ∧
      rest.remaining.value =
        leftOf order.remaining.value (operation.lateAmounts order.side order.id) := by
  cases operation with
  | mark fresh =>
    cases done
    refine ⟨order, keeps.congr ?_, rfl, rfl, rfl⟩
    rcases book.markResting_cases fresh with ⟨-, marked⟩ | unchanged
    · rw [marked, released_setTracked]
    · rw [unchanged]
  | release side =>
    cases done
    exact ⟨order, keeps.congr (released_setTracked book side none), rfl, rfl, rfl⟩
  | forget side =>
    cases done
    exact ⟨order, keeps.forget, rfl, rfl, rfl⟩
  | fill side amount =>
    refine ⟨order, keeps.congr ?_, rfl, rfl, rfl⟩
    cases found : book.tracked side with
    | none =>
      rw [perform_fill_idle found] at done
      cases done
      rfl
    | some known =>
      rw [perform_fill found] at done
      simp only [Checked.bind_ok, Checked.pure_ok] at done
      obtain ⟨left, -, rfl⟩ := done
      rw [released_setTracked]
  | lateFill side id amount =>
    by_cases own : side = order.side ∧ id = order.id
    case pos =>
      obtain ⟨rfl, rfl⟩ := own
      simp only [Operation.lateAmounts, and_self, if_true] at more ⊢
      exact keeps.perform_own total formed fits more done
    case neg =>
      have none : Operation.lateAmounts order.side order.id (.lateFill side id amount) = [] := if_neg own
      rw [none]
      exact ⟨order, keeps.perform_other formed own done, rfl, rfl, rfl⟩

/-! ### Histories -/

variable {operations earlier later : List Operation} {operation : Operation}
  {orders : List TrackedOrder}

theorem run_cons : run (operation :: later) book = .ok (orders, after) ↔
    ∃ next rest, book.perform operation = .ok next ∧ run later next = .ok (rest, after) ∧
      orders = book.letsGo operation ++ rest := by
  simp only [run, Checked.bind_ok, Checked.pure_ok, Prod.exists, Prod.mk.injEq]
  constructor
  · rintro ⟨next, performed, rest, last, done, rfl, rfl⟩
    exact ⟨next, rest, performed, done, rfl⟩
  · rintro ⟨next, rest, performed, done, rfl⟩
    exact ⟨next, performed, rest, after, done, rfl, rfl⟩

theorem run_append (done : run (earlier ++ later) book = .ok (orders, after)) :
    ∃ lost before rest, run earlier book = .ok (lost, before) ∧ run later before = .ok (rest, after) ∧
      orders = lost ++ rest := by
  induction earlier generalizing book orders with
  | nil => exact ⟨[], book, orders, rfl, done, rfl⟩
  | cons operation earlier ih =>
    obtain ⟨next, rest, performed, onward, rfl⟩ := run_cons.1 done
    obtain ⟨lost, before, rest, first, second, rfl⟩ := ih onward
    exact ⟨_, before, rest, run_cons.2 ⟨next, lost, performed, first, rfl⟩, second,
      (List.append_assoc _ _ _).symm⟩

theorem Proper.take (proper : Proper (earlier ++ later) book) : Proper earlier book := by
  induction earlier generalizing book with
  | nil => trivial
  | cons operation earlier ih => exact ⟨proper.1, fun next performed => ih (proper.2 next performed)⟩

theorem Proper.drop (proper : Proper (earlier ++ later) book)
    (done : run earlier book = .ok (orders, after)) : Proper later after := by
  induction earlier generalizing book orders with
  | nil =>
    cases done
    exact proper
  | cons operation earlier ih =>
    obtain ⟨next, rest, performed, done, -⟩ := run_cons.1 done
    exact ih (proper.2 next performed) done

theorem WellFormed.run (total : Arithmetic.Total) (formed : book.WellFormed)
    (proper : Proper operations book) :
    Checked.Gives (QuoteBook.run operations book) fun out => out.2.WellFormed := by
  induction operations generalizing book with
  | nil => exact ⟨_, rfl, formed⟩
  | cons operation later ih =>
    obtain ⟨next, performed, formed'⟩ := formed.perform total proper.1
    obtain ⟨⟨rest, last⟩, done, formed''⟩ := ih formed' (proper.2 next performed)
    exact ⟨_, run_cons.2 ⟨next, rest, performed, done, rfl⟩, formed''⟩

theorem Proper.late_pos (proper : Proper operations book)
    (done : run operations book = .ok (orders, after)) :
    ∀ amount ∈ operations.flatMap (Operation.lateAmounts side id), 0 < amount.value := by
  induction operations generalizing book orders with
  | nil => simp
  | cons operation later ih =>
    obtain ⟨next, rest, performed, done, -⟩ := run_cons.1 done
    rw [List.flatMap_cons, List.forall_mem_append]
    refine ⟨fun amount member => ?_, ih (proper.2 next performed) done⟩
    have fits := proper.1
    cases operation with
    | lateFill side' id' amount' =>
      rw [Operation.lateAmounts] at member
      split at member
      next => exact List.mem_singleton.1 member ▸ fits
      next => cases member
    | _ => cases member

/-- A released order outlasts a history that lets go of fewer orders than there is room for, and does
not fill it. -/
theorem Keeps.run (total : Arithmetic.Total) (formed : book.WellFormed)
    (proper : Proper operations book) (done : QuoteBook.run operations book = .ok (orders, after))
    (keeps : book.Keeps (room + orders.length) order)
    (more : 0 < leftOf order.remaining.value
      (operations.flatMap (Operation.lateAmounts order.side order.id))) :
    ∃ rest, after.Keeps room rest ∧ rest.side = order.side ∧ rest.id = order.id ∧
      rest.remaining.value = leftOf order.remaining.value
        (operations.flatMap (Operation.lateAmounts order.side order.id)) := by
  induction operations generalizing book orders order with
  | nil =>
    cases done
    exact ⟨order, keeps, rfl, rfl, rfl⟩
  | cons operation later ih =>
    obtain ⟨next, rest, performed, done, rfl⟩ := run_cons.1 done
    obtain ⟨next', performed', formed'⟩ := formed.perform total proper.1
    obtain rfl := Except.ok.inj (performed'.symm.trans performed)
    have proper' := proper.2 next' performed
    rw [List.flatMap_cons, leftOf_append] at more ⊢
    have first : 0 < leftOf order.remaining.value (operation.lateAmounts order.side order.id) :=
      not_le.1 fun none => more.not_ge (leftOf_nonpos none (proper'.late_pos done))
    rw [List.length_append, ← add_assoc, add_right_comm] at keeps
    obtain ⟨less, kept, sides, ids, value⟩ := keeps.perform total formed proper.1 first performed
    rw [← value] at more ⊢
    rw [← sides, ← ids] at more ⊢
    exact ih formed' proper' done kept more

/-- A history of fitting calls from an empty book runs to its end, and the book is well formed. A fill of
an order that was let go on the way is of what earlier fills left of it, unless they left nothing or eight
orders were let go after it. -/
theorem histories_kept (total : Arithmetic.Total) (proper : Proper operations .empty) :
    ∃ orders book, run operations .empty = .ok (orders, book) ∧ book.WellFormed ∧
      ∀ earlier side later, operations = earlier ++ .forget side :: later →
        ∃ lost before, run earlier .empty = .ok (lost, before) ∧
          ∀ order, before.tracked side = some order → ∃ newer, orders = lost ++ order :: newer ∧
            (newer.length < releasedCapacity →
              0 < leftOf order.remaining.value
                (later.flatMap (Operation.lateAmounts side order.id)) →
              book.isReleased side order.id = true ∧ ∀ amount : Decimal, 0 < amount.value →
                ∃ left after, book.applyReleasedFill side order.id amount = .ok (some left, after) ∧
                  left.value = leftOf order.remaining.value
                    (later.flatMap (Operation.lateAmounts side order.id) ++ [amount])) := by
  obtain ⟨⟨orders, book⟩, done, formed⟩ := wellFormed_empty.run total proper
  refine ⟨orders, book, done, formed, ?_⟩
  rintro earlier side later rfl
  obtain ⟨lost, before, rest, first, second, rfl⟩ := run_append done
  refine ⟨lost, before, first, fun order found => ?_⟩
  obtain ⟨next, newer, performed, done', rfl⟩ := run_cons.1 second
  cases performed
  obtain ⟨⟨lost', before'⟩, first', formed'⟩ := wellFormed_empty.run total proper.take
  cases first.symm.trans first'
  have proper' := (proper.drop first).2 _ rfl
  refine ⟨newer, by rw [letsGo, found]; rfl, fun few more => ?_⟩
  obtain rfl := formed'.sided found
  have kept : (before.forget order.side).2.Keeps (0 + newer.length) order :=
    keeps_forgotten found (by omega)
  obtain ⟨less, keeps, sides, ids, value⟩ := kept.run total (formed'.forget _) proper' done' more
  refine ⟨isReleased_iff.2 ⟨less, keeps.mem, sides, ids⟩, fun amount positive => ?_⟩
  obtain ⟨older, after, listed, -⟩ := keeps
  obtain ⟨left, subtracted, result, -⟩ := exists_left total (value ▸ more) positive
  refine ⟨max left 0, { book with released := older ++ keep less left ++ after }, ?_, ?_⟩
  · rw [← sides, ← ids, formed.applyReleasedFill listed, subtracted]
    rfl
  · rw [value_max, value_zero, result, value, leftOf_append]
    rfl

/-- Two bids and an offer; the first bid is let go, filled in part and outlived by the others. -/
def crossedHistory : List Operation :=
  [.forget .sell, .mark (.new "okx-2" .buy (.of 996 1) (.of 3 0) ⟨0⟩),
    .mark (.new "okx-3" .sell (.of 102 0) (.of 5 0) ⟨0⟩), .lateFill .buy "okx-1" (.of 4 0),
    .fill .sell (.of 2 0), .forget .sell, .lateFill .buy "okx-1" (.of 55 1), .release .buy]

omit [Arithmetic] in
theorem histories_kept_crossed : ∃ book : QuoteBook, book.WellFormed ∧
    (∃ orders, @run .rounding
      (.mark (.new "okx-1" .buy (.of 99 0) (.of 10 0) ⟨0⟩) :: .forget .buy :: crossedHistory) .empty =
        .ok (orders, book) ∧ orders.map TrackedOrder.id = ["okx-1", "okx-3"]) ∧
    book.isReleased .buy "okx-1" = true ∧ ∀ amount : Decimal, 0 < amount.value →
      ∃ left after, @applyReleasedFill .rounding book .buy "okx-1" amount = .ok (some left, after) ∧
        left.value = max (nearest (1 / 2 - amount.value)) 0 := by
  let first : TrackedOrder := .new "okx-1" .buy (.of 99 0) (.of 10 0) ⟨0⟩
  have proper : @Proper .rounding (.mark first :: .forget .buy :: crossedHistory) .empty := by
    decide +kernel
  obtain ⟨orders, book, done, formed, retained⟩ :=
    @histories_kept .rounding _ Arithmetic.rounding_total proper
  have works : (@run .rounding (.mark first :: .forget .buy :: crossedHistory) .empty).toOption.any
      (fun out => decide (out.1.map TrackedOrder.id = ["okx-1", "okx-3"])) = true := by
    decide +kernel
  obtain ⟨_, done', listed⟩ := Checked.toOption_any works
  cases done.symm.trans done'
  have listed := of_decide_eq_true listed
  obtain ⟨lost, before, begun, kept⟩ := retained [.mark first] .buy crossedHistory rfl
  cases begun
  obtain ⟨newer, rfl, matched⟩ := kept first rfl
  have short := congrArg List.length listed
  simp only [List.length_map, List.length_append, List.length_cons, List.length_nil] at short
  have left : leftOf first.remaining.value
      (crossedHistory.flatMap (Operation.lateAmounts .buy first.id)) = 1 / 2 := by
    decide +kernel
  obtain ⟨released, fills⟩ := matched (by rw [releasedCapacity]; omega) (left ▸ by norm_num)
  refine ⟨book, formed, ⟨_, done, listed⟩, released, fun amount positive => ?_⟩
  obtain ⟨rest, after, filled, value⟩ := fills amount positive
  refine ⟨rest, after, filled, value.trans ?_⟩
  rw [leftOf_append, left]
  rfl

end Calls

end QuoteBook

end MarketMaker
