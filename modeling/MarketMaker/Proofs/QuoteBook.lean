import MarketMaker.Proofs.Decimal.Value
import MarketMaker.Proofs.Steps
import MarketMaker.QuoteBook
/-!
What fills and releases do to the orders that a quote book knows, tracked or released. A fill takes
its amount off one known order of its side and id, or the book does not change.
-/

namespace MarketMaker

open Decimal

namespace QuoteBook

variable {book after : QuoteBook} {side other : Side} {id : OrderId} {amount : Decimal}
  {order : TrackedOrder}

/-- The orders whose fills are recognised. -/
def known (book : QuoteBook) : List TrackedOrder :=
  book.resting ++ book.released

def ids (book : QuoteBook) : List OrderId :=
  book.known.map TrackedOrder.id

theorem mem_resting : order ∈ book.resting ↔ ∃ side, book.tracked side = some order := by
  rw [resting, List.mem_append, Option.mem_toList, Option.mem_toList]
  constructor
  · intro given
    rcases given with bid | ask
    · exact ⟨.buy, bid⟩
    · exact ⟨.sell, ask⟩
  · intro given
    rcases given with ⟨_ | _, found⟩
    · exact .inl found
    · exact .inr found

theorem mem_known :
    order ∈ book.known ↔ (∃ side, book.tracked side = some order) ∨ order ∈ book.released := by
  rw [known, List.mem_append, mem_resting]

theorem isTracked_iff :
    book.isTracked side id = true ↔ ∃ order, book.tracked side = some order ∧ order.id = id := by
  rw [isTracked, Option.any_eq_true]
  simp only [beq_iff_eq]

theorem isReleased_iff : book.isReleased side id = true ↔
    ∃ order ∈ book.released, order.side = side ∧ order.id = id := by
  simp [isReleased]

theorem contains_iff :
    book.contains id = true ↔ ∃ order ∈ book.resting, order.id = id := by
  rw [contains, Bool.or_eq_true, isTracked_iff, isTracked_iff]
  constructor
  · intro given
    rcases given with ⟨order, found, same⟩ | ⟨order, found, same⟩
    · exact ⟨order, mem_resting.2 ⟨_, found⟩, same⟩
    · exact ⟨order, mem_resting.2 ⟨_, found⟩, same⟩
  · intro given
    obtain ⟨order, member, same⟩ := given
    obtain ⟨_ | _, found⟩ := mem_resting.1 member
    · exact .inl ⟨order, found, same⟩
    · exact .inr ⟨order, found, same⟩

theorem isIdle_eq_true : book.isIdle side = true ↔ book.tracked side = none :=
  Option.isNone_iff_eq_none

theorem setTracked_tracked (book : QuoteBook) (side : Side) :
    book.setTracked side (book.tracked side) = book := by
  cases side <;> rfl

theorem setTracked_none (idle : book.isIdle side = true) : book.setTracked side none = book := by
  rw [← isIdle_eq_true.1 idle, setTracked_tracked]

/-- Each side tracks an order of its own. -/
def Sided (book : QuoteBook) : Prop :=
  ∀ ⦃side order⦄, book.tracked side = some order → order.side = side

theorem sided_empty : Sided .empty := by
  intro side order tracked
  cases side <;> cases tracked

theorem Sided.setTracked {kept : Option TrackedOrder} (sided : book.Sided)
    (own : ∀ order, kept = some order → order.side = side) : (book.setTracked side kept).Sided := by
  intro other order found
  rw [tracked_setTracked] at found
  split at found
  next same => exact same ▸ own order found
  next => exact sided found

theorem Sided.tracked_of_mem (sided : book.Sided) (member : order ∈ book.resting) :
    book.tracked order.side = some order := by
  obtain ⟨side, found⟩ := mem_resting.1 member
  exact (sided found).symm ▸ found

theorem Sided.sides_nodup (sided : book.Sided) : (book.resting.map TrackedOrder.side).Nodup := by
  rw [resting]
  cases bid : book.buy with
  | none => cases ask : book.sell <;> simp
  | some b =>
    cases ask : book.sell with
    | none => simp
    | some a =>
      have bids : b.side = .buy := sided (show book.tracked .buy = some b from bid)
      have asks : a.side = .sell := sided (show book.tracked .sell = some a from ask)
      simp [bids, asks]

theorem tracked_of_setTracked {other : Side} {known : TrackedOrder}
    (found : (book.setTracked side (some order)).tracked other = some known) :
    (side = other ∧ known = order) ∨ book.tracked other = some known := by
  rw [tracked_setTracked] at found
  split at found
  next same => exact .inl ⟨same, (Option.some.inj found).symm⟩
  next => exact .inr found

theorem isTracked_setTracked (side : Side) (order : TrackedOrder) :
    (book.setTracked side (some order)).isTracked side order.id = true :=
  isTracked_iff.2 ⟨order, by rw [tracked_setTracked, if_pos rfl], rfl⟩

theorem isTracked_setTracked_of_idle (idle : book.tracked side = none) {other : Side}
    (tracked : book.isTracked other id = true) :
    (book.setTracked side (some order)).isTracked other id = true := by
  obtain ⟨known, found, same⟩ := isTracked_iff.1 tracked
  refine isTracked_iff.2 ⟨known, ?_, same⟩
  rw [tracked_setTracked, if_neg, found]
  intro given
  subst given
  rw [idle] at found
  cases found

theorem isTracked_setTracked_none (found : book.tracked side = some order) (other : id ≠ order.id)
    {side' : Side} (tracked : book.isTracked side' id = true) :
    (book.setTracked side none).isTracked side' id = true := by
  obtain ⟨known, found', same⟩ := isTracked_iff.1 tracked
  refine isTracked_iff.2 ⟨known, ?_, same⟩
  rw [tracked_setTracked, if_neg, found']
  intro given
  subst given
  rw [found] at found'
  exact other (same.symm.trans (congrArg TrackedOrder.id (Option.some.inj found').symm))

theorem isTracked_setTracked_same (found : book.tracked side = some order) {less : TrackedOrder}
    (same : less.id = order.id) {other : Side} (tracked : book.isTracked other id = true) :
    (book.setTracked side (some less)).isTracked other id = true := by
  by_cases here : id = order.id ∧ side = other
  · obtain ⟨rfl, rfl⟩ := here
    exact same ▸ isTracked_setTracked side less
  · obtain ⟨known, found', rfl⟩ := isTracked_iff.1 tracked
    refine isTracked_iff.2 ⟨known, ?_, rfl⟩
    rw [tracked_setTracked, if_neg, found']
    intro given
    subst given
    rw [found] at found'
    exact here ⟨congrArg TrackedOrder.id (Option.some.inj found').symm, rfl⟩

/-- What is known after one side's order was replaced. -/
theorem mem_known_setTracked {kept : Option TrackedOrder}
    (member : order ∈ (book.setTracked side kept).known) :
    kept = some order ∨ (∃ other, side ≠ other ∧ book.tracked other = some order) ∨
      order ∈ book.released := by
  rcases mem_known.1 member with ⟨other, found⟩ | released
  · rw [tracked_setTracked] at found
    split at found
    next => exact .inl found
    next different => exact .inr (.inl ⟨other, different, found⟩)
  · rw [released_setTracked] at released
    exact .inr (.inr released)

theorem known_of_setTracked {kept : Option TrackedOrder}
    (member : order ∈ (book.setTracked side kept).known) : kept = some order ∨ order ∈ book.known := by
  rcases mem_known_setTracked member with new | ⟨other, -, found⟩ | released
  · exact .inl new
  · exact .inr (mem_known.2 (.inl ⟨other, found⟩))
  · exact .inr (mem_known.2 (.inr released))

/-! ### Ids of known orders -/

theorem ids_setTracked_new (idle : book.tracked side = none) :
    (book.setTracked side (some order)).ids.Perm (order.id :: book.ids) := by
  cases side with
  | buy =>
    have none : book.buy = none := idle
    simp [ids, known, resting, setTracked, none]
  | sell =>
    have none : book.sell = none := idle
    simp [ids, known, resting, setTracked, none]

theorem ids_setTracked_same {reduced : TrackedOrder} (found : book.tracked side = some order)
    (same : reduced.id = order.id) : (book.setTracked side (some reduced)).ids = book.ids := by
  cases side with
  | buy =>
    have some' : book.buy = some order := found
    simp [ids, known, resting, setTracked, some', same]
  | sell =>
    have some' : book.sell = some order := found
    simp [ids, known, resting, setTracked, some', same]

theorem ids_release (found : book.tracked side = some order) :
    book.ids.Perm (order.id :: (book.setTracked side none).ids) := by
  cases side with
  | buy =>
    have some' : book.buy = some order := found
    simp [ids, known, resting, setTracked, some']
  | sell =>
    have some' : book.sell = some order := found
    simp [ids, known, resting, setTracked, some']

theorem id_ne_of_released (distinct : book.ids.Nodup) (found : book.tracked side = some order)
    {late : TrackedOrder} (released : late ∈ book.released) : late.id ≠ order.id := by
  rw [ids, known, List.map_append, List.nodup_append] at distinct
  obtain ⟨-, -, apart⟩ := distinct
  have resting : order.id ∈ book.resting.map TrackedOrder.id :=
    List.mem_map_of_mem (mem_resting.2 ⟨side, found⟩)
  exact (apart order.id resting late.id (List.mem_map_of_mem released)).symm

/-- Where ids are distinct, no order but the new one has the id of the order that it replaces. -/
theorem other_of_setTracked (distinct : book.ids.Nodup) (sided : book.Sided)
    (found : book.tracked side = some order) {kept : Option TrackedOrder} {other : TrackedOrder}
    (member : other ∈ (book.setTracked side kept).known) :
    kept = some other ∨ other ∈ book.known ∧ other.id ≠ order.id := by
  rcases mem_known_setTracked member with new | ⟨side', different, found'⟩ | released
  · exact .inl new
  · have known : other ∈ book.known := mem_known.2 (.inl ⟨side', found'⟩)
    refine .inr ⟨known, fun same => different ?_⟩
    obtain rfl := List.inj_on_of_nodup_map distinct known (mem_known.2 (.inl ⟨side, found⟩)) same
    exact (sided found).symm.trans (sided found')
  · exact .inr ⟨mem_known.2 (.inr released), id_ne_of_released distinct found released⟩

theorem ids_remember_subperm (book : QuoteBook) (order : TrackedOrder) :
    (book.remember order).ids.Subperm (order.id :: book.ids) := by
  have kept : ∀ {kept : List TrackedOrder}, kept.Sublist book.released →
      List.Subperm ((book.resting ++ (kept ++ [order])).map TrackedOrder.id)
        (order.id :: book.ids) := by
    intro kept sub
    rw [← List.append_assoc, List.map_append]
    refine List.Subperm.trans (List.perm_append_comm.subperm) ?_
    exact (((List.Sublist.refl book.resting).append sub).map _).cons_cons _ |>.subperm
  rw [ids, known, remember]
  by_cases full : book.released.length = releasedCapacity
  · simpa [full, resting] using kept (List.tail_sublist book.released)
  · simpa [full, resting] using kept (List.Sublist.refl book.released)

theorem nodup_ids_forget (nodup : book.ids.Nodup) (side : Side) :
    (book.forget side).2.ids.Nodup := by
  rw [forget]
  cases found : book.tracked side with
  | none => exact nodup
  | some order =>
    obtain ⟨l, perm, sub⟩ := ids_remember_subperm (book.setTracked side none) order
    exact perm.nodup_iff.1 (((ids_release found).nodup_iff.1 nodup).sublist sub)

theorem tracked_forget (other : Side) :
    (book.forget side).2.tracked other = if side = other then none else book.tracked other := by
  cases found : book.tracked side with
  | none =>
    simp only [forget, found]
    by_cases same : side = other
    · rw [if_pos same, ← same, found]
    · rw [if_neg same]
  | some order =>
    simp only [forget, found]
    have kept : ((book.setTracked side none).remember order).tracked other =
        (book.setTracked side none).tracked other := by
      cases other <;> rfl
    exact kept.trans (tracked_setTracked book side other none)

theorem tracked_of_forget (found : (book.forget side).2.tracked other = some order) :
    book.tracked other = some order := by
  rw [tracked_forget] at found
  split at found
  next => cases found
  next => exact found

theorem Sided.forget (sided : book.Sided) (side : Side) : (book.forget side).2.Sided :=
  fun _ _ found => sided (tracked_of_forget found)

/-- Releasing an order that would be the ninth drops the oldest one. -/
theorem released_forget (found : book.tracked side = some order) :
    (book.forget side).2.released = book.released ++ [order] ∨
      ∃ oldest rest, book.released = oldest :: rest ∧ rest.length + 1 = releasedCapacity ∧
        (book.forget side).2.released = rest ++ [order] := by
  simp only [forget, found, remember, released_setTracked]
  split
  next full =>
    right
    match listed : book.released with
    | [] => simp [listed, releasedCapacity] at full
    | oldest :: rest => exact ⟨oldest, rest, rfl, by simpa [listed] using full, rfl⟩
  next => exact .inl rfl

theorem mem_released_forget (found : book.tracked side = some order) {known : TrackedOrder}
    (member : known ∈ (book.forget side).2.released) : known ∈ book.released ∨ known = order := by
  rcases released_forget found with listed | ⟨oldest, rest, split, -, listed⟩
  · rw [listed, List.mem_append, List.mem_singleton] at member
    exact member
  · rw [listed, List.mem_append, List.mem_singleton] at member
    rw [split]
    exact member.imp_left (List.mem_cons_of_mem _)

theorem mem_known_of_forget (found : book.tracked side = some order) {known : TrackedOrder}
    (member : known ∈ (book.forget side).2.known) : known ∈ book.known := by
  rcases mem_known.1 member with ⟨other, tracked⟩ | released
  · exact mem_known.2 (.inl ⟨other, tracked_of_forget tracked⟩)
  · rcases mem_released_forget found released with old | rfl
    · exact mem_known.2 (.inr old)
    · exact mem_known.2 (.inl ⟨side, found⟩)

/-- A known order stays known, unless it is the oldest of all released orders there is room for. -/
theorem known_forget (found : book.tracked side = some order) {known : TrackedOrder}
    (member : known ∈ book.known) :
    known ∈ (book.forget side).2.known ∨
      ∃ rest, book.released = known :: rest ∧ rest.length + 1 = releasedCapacity := by
  have last : order ∈ (book.forget side).2.released := by
    rcases released_forget found with listed | ⟨oldest, rest, -, -, listed⟩ <;> simp [listed]
  rcases mem_known.1 member with ⟨other, tracked⟩ | released
  · by_cases same : side = other
    · subst same
      obtain rfl := Option.some.inj (tracked.symm.trans found)
      exact .inl (mem_known.2 (.inr last))
    · exact .inl (mem_known.2 (.inl ⟨other, by rw [tracked_forget, if_neg same, tracked]⟩))
  · rcases released_forget found with listed | ⟨oldest, rest, split, seven, listed⟩
    · exact .inl (mem_known.2 (.inr (by simp [listed, released])))
    · rcases List.mem_cons.1 (split ▸ released) with rfl | later
      · exact .inr ⟨rest, split, seven⟩
      · exact .inl (mem_known.2 (.inr (by simp [listed, later])))

/-! ### Fills -/

variable [Arithmetic]

theorem reduce_ok {reduced : TrackedOrder} (done : order.reduce amount = .ok reduced) :
    ∃ left, order.remaining.sub amount = .ok left ∧
      reduced = { order with remaining := max left 0 } := by
  simp only [TrackedOrder.reduce, Checked.bind_ok, Checked.pure_ok] at done
  obtain ⟨left, subtracted, rfl⟩ := done
  exact ⟨left, subtracted, rfl⟩

/-- What is kept of a released order. -/
def keep (order : TrackedOrder) (left : Decimal) : List TrackedOrder :=
  if (max left 0).value = 0 then [] else [{ order with remaining := max left 0 }]

omit [Arithmetic] in
theorem nothing_left_iff {left : Decimal} : (max left 0).value = 0 ↔ ¬ 0 < left.value := by
  rw [value_max, value_zero, max_eq_right_iff, not_lt]

omit [Arithmetic] in
theorem mem_keep {left : Decimal} {known : TrackedOrder} :
    known ∈ keep order left ↔ 0 < left.value ∧ known = { order with remaining := max left 0 } := by
  rw [keep]
  split
  next nothing => exact iff_of_false List.not_mem_nil fun kept => nothing_left_iff.1 nothing kept.1
  next more =>
    rw [List.mem_singleton]
    exact ⟨fun same => ⟨not_not.1 (mt nothing_left_iff.2 more), same⟩, And.right⟩

omit [Arithmetic] in
theorem ids_keep_sublist (order : TrackedOrder) (left : Decimal) :
    ((keep order left).map TrackedOrder.id).Sublist [order.id] := by
  rw [keep]
  split
  next => exact List.nil_sublist _
  next => exact List.Sublist.refl _

theorem fillFirst_cases {orders : List TrackedOrder}
    {found : Option (Decimal × List TrackedOrder)}
    (done : fillFirst side id amount orders = .ok found) :
    (found = none ∧ ∀ order ∈ orders, ¬ (order.side = side ∧ order.id = id)) ∨
      ∃ before order after left, orders = before ++ order :: after ∧ order.side = side ∧
        order.id = id ∧ order.remaining.sub amount = .ok left ∧
        found = some (max left 0, before ++ keep order left ++ after) := by
  induction orders generalizing found with
  | nil =>
    cases done
    exact .inl ⟨rfl, by simp⟩
  | cons first rest ih =>
    rw [fillFirst] at done
    split at done
    next hit =>
      simp only [Checked.bind_ok, Checked.pure_ok] at done
      obtain ⟨reduced, reduces, rfl⟩ := done
      obtain ⟨left, subtracted, rfl⟩ := reduce_ok reduces
      refine .inr ⟨[], first, rest, left, rfl, hit.1, hit.2, subtracted, ?_⟩
      rw [keep]
      simp only [value_eq_zero_iff]
      split <;> rfl
    next miss =>
      simp only [Checked.bind_ok, Checked.pure_ok] at done
      obtain ⟨later, filled, rfl⟩ := done
      rcases ih filled with ⟨rfl, none⟩ | ⟨before, order, after, left, rfl, sides, ids', left', rfl⟩
      · refine .inl ⟨rfl, ?_⟩
        intro order member
        rcases List.mem_cons.1 member with rfl | inRest
        · exact miss
        · exact none order inRest
      · exact .inr ⟨first :: before, order, after, left, rfl, sides, ids', left', rfl⟩

/-- A fill settles the tracked order of its side, or a released one, or it is of no known order. -/
theorem settle_cases {answer : Option Decimal}
    (done : book.settle side id amount = .ok (answer, after)) :
    (∃ order left, book.tracked side = some order ∧ order.id = id ∧
      order.remaining.sub amount = .ok left ∧ answer ≠ none ∧
      after = book.setTracked side
        (if 0 < left.value then some { order with remaining := max left 0 } else none)) ∨
    (∃ before order rest left, book.released = before ++ order :: rest ∧ order.side = side ∧
      order.id = id ∧ order.remaining.sub amount = .ok left ∧ answer ≠ none ∧
      after = { book with released := before ++ keep order left ++ rest }) ∨
    (answer = none ∧ after = book ∧
      (∀ order, book.tracked side = some order → order.id ≠ id) ∧
      ∀ order ∈ book.released, ¬ (order.side = side ∧ order.id = id)) := by
  rw [settle] at done
  split at done
  next tracked =>
    obtain ⟨order, found, same⟩ := isTracked_iff.1 tracked
    simp only [applyFill, found, Checked.bind_ok, Checked.pure_ok, Prod.exists, Prod.mk.injEq] at done
    obtain ⟨progress, reducedBook, ⟨reduced, reduces, result⟩, rfl, rfl⟩ := done
    obtain ⟨left, subtracted, rfl⟩ := reduce_ok reduces
    refine .inl ⟨order, left, found, same, subtracted, ?_⟩
    have positive : 0 < max left 0 ↔ 0 < left.value := by
      rw [pos_iff_value, value_max, value_zero, lt_max_iff]
      simp
    dsimp only at result
    split at result
    next more =>
      rw [Checked.pure_ok, Prod.mk.injEq] at result
      obtain ⟨rfl, rfl⟩ := result
      exact ⟨by simp, by rw [if_pos (positive.1 more)]⟩
    next done' =>
      rw [Checked.pure_ok, Prod.mk.injEq] at result
      obtain ⟨rfl, rfl⟩ := result
      exact ⟨by simp, by rw [if_neg fun more => done' (positive.2 more)]⟩
  next notTracked =>
    simp only [applyReleasedFill, Checked.bind_ok] at done
    obtain ⟨found, filled, result⟩ := done
    rcases fillFirst_cases filled with
      ⟨rfl, none⟩ | ⟨before, order, rest, left, split, sides, same, subtracted, rfl⟩
    · cases result
      refine .inr (.inr ⟨rfl, rfl, ?_, none⟩)
      intro order found same
      exact notTracked (isTracked_iff.2 ⟨order, found, same⟩)
    · cases result
      exact .inr (.inl ⟨before, order, rest, left, split, sides, same, subtracted, by simp, rfl⟩)

/-- What a fill leaves tracked was tracked before it. -/
theorem tracked_of_settle {answer : Option Decimal}
    (done : book.settle side id amount = .ok (answer, after)) {known : TrackedOrder}
    (found : after.tracked other = some known) :
    ∃ before, book.tracked other = some before ∧ known.id = before.id ∧ known.side = before.side := by
  rcases settle_cases done with
    ⟨order, left, tracked, -, -, -, rfl⟩ | ⟨before, order, rest, left, -, -, -, -, -, rfl⟩ |
      ⟨-, rfl, -⟩
  · rw [tracked_setTracked] at found
    split at found
    next same =>
      subst same
      split at found
      next =>
        obtain rfl := Option.some.inj found
        exact ⟨order, tracked, rfl, rfl⟩
      next => cases found
    next => exact ⟨known, found, rfl, rfl⟩
  · exact ⟨known, by cases other <;> exact found, rfl, rfl⟩
  · exact ⟨known, found, rfl, rfl⟩

theorem released_of_settle {answer : Option Decimal}
    (done : book.settle side id amount = .ok (answer, after)) {known : TrackedOrder}
    (member : known ∈ after.released) : ∃ before ∈ book.released, known.id = before.id := by
  rcases settle_cases done with
    ⟨order, left, -, -, -, -, rfl⟩ | ⟨before, order, rest, left, split, -, -, -, -, rfl⟩ |
      ⟨-, rfl, -⟩
  · rw [released_setTracked] at member
    exact ⟨known, member, rfl⟩
  · dsimp only at member
    rw [List.mem_append, List.mem_append] at member
    rcases member with (old | kept) | old
    · exact ⟨known, by simp [split, old], rfl⟩
    · obtain ⟨-, rfl⟩ := mem_keep.1 kept
      exact ⟨order, by simp [split], rfl⟩
    · exact ⟨known, by simp [split, old], rfl⟩
  · exact ⟨known, member, rfl⟩

theorem Sided.settle (sided : book.Sided) {answer : Option Decimal}
    (done : book.settle side id amount = .ok (answer, after)) : after.Sided := by
  intro other order found
  obtain ⟨before, tracked, -, same⟩ := tracked_of_settle done found
  exact same.trans (sided tracked)

/-- A fill that is answered is of a known order. -/
theorem known_of_answer {answer : Option Decimal}
    (done : book.settle side id amount = .ok (answer, after)) (answered : answer ≠ none) :
    ∃ order ∈ book.known, order.id = id := by
  rcases settle_cases done with
    ⟨order, left, found, same, -⟩ | ⟨before, order, rest, left, split, -, same, -⟩ | ⟨nothing, -⟩
  · exact ⟨order, mem_known.2 (.inl ⟨side, found⟩), same⟩
  · exact ⟨order, mem_known.2 (.inr (by simp [split])), same⟩
  · exact absurd nothing answered

/-- One known order is reduced to `left`, and dropped if that is nothing; the others are kept. -/
structure Reduced (book after : QuoteBook) (order : TrackedOrder) (left : Decimal) : Prop where
  distinct : after.ids.Nodup
  sided : after.Sided
  known : ∀ other ∈ after.known, (other ∈ book.known ∧ other.id ≠ order.id) ∨
    other = { order with remaining := max left 0 }
  kept : ∀ known ∈ book.ids, known ∈ after.ids ∨ known = order.id ∧ left.value ≤ 0
  tracked : ∀ side known, book.isTracked side known = true →
    after.isTracked side known = true ∨ known = order.id ∧ left.value ≤ 0
  released : (after.released.map TrackedOrder.id).Sublist (book.released.map TrackedOrder.id)

omit [Arithmetic] in
theorem reduced_partly {left : Decimal} (distinct : book.ids.Nodup) (sided : book.Sided)
    (found : book.tracked side = some order) :
    Reduced book (book.setTracked side (some { order with remaining := max left 0 })) order left := by
  have ids : (book.setTracked side (some { order with remaining := max left 0 })).ids = book.ids :=
    ids_setTracked_same found rfl
  refine ⟨ids ▸ distinct, sided.setTracked ?_, ?_, fun known member => .inl (ids ▸ member), ?_, ?_⟩
  · intro less kept
    have own : order.side = side := sided found
    obtain rfl := Option.some.inj kept
    exact own
  · intro other member
    rcases other_of_setTracked distinct sided found member with new | old
    · exact .inr (Option.some.inj new).symm
    · exact .inl old
  · intro side' known tracked
    refine .inl (isTracked_setTracked_same found ?_ tracked)
    rfl
  · rw [released_setTracked]

omit [Arithmetic] in
theorem reduced_wholly {left : Decimal} (distinct : book.ids.Nodup) (sided : book.Sided)
    (found : book.tracked side = some order) (nothing : left.value ≤ 0) :
    Reduced book (book.setTracked side none) order left where
  distinct := (List.nodup_cons.1 ((ids_release found).nodup_iff.1 distinct)).2
  sided := sided.setTracked (by simp)
  known := by
    intro other member
    rcases other_of_setTracked distinct sided found member with new | old
    · cases new
    · exact .inl old
  kept := by
    intro known member
    rcases List.mem_cons.1 ((ids_release found).mem_iff.1 member) with same | kept
    · exact .inr ⟨same, nothing⟩
    · exact .inl kept
  tracked := by
    intro side' known tracked
    by_cases same : known = order.id
    · exact .inr ⟨same, nothing⟩
    · exact .inl (isTracked_setTracked_none found same tracked)
  released := by rw [released_setTracked]

omit [Arithmetic] in
theorem reduced_tracked {left : Decimal} (distinct : book.ids.Nodup) (sided : book.Sided)
    (found : book.tracked side = some order) :
    Reduced book (book.setTracked side
      (if 0 < left.value then some { order with remaining := max left 0 } else none)) order left := by
  split
  next => exact reduced_partly distinct sided found
  next none => exact reduced_wholly distinct sided found (not_lt.1 none)

omit [Arithmetic] in
/-- In a list of distinct ids, the orders around one order have other ids than it. -/
theorem id_ne_of_split {before rest : List TrackedOrder}
    (distinct : ((before ++ order :: rest).map TrackedOrder.id).Nodup) {other : TrackedOrder}
    (member : other ∈ before ++ rest) : other.id ≠ order.id := by
  rw [List.map_append, List.map_cons, List.nodup_middle, List.nodup_cons, ← List.map_append] at distinct
  exact fun same => distinct.1 (same ▸ List.mem_map_of_mem member)

omit [Arithmetic] in
theorem reduced_released {left : Decimal} {before rest : List TrackedOrder}
    (distinct : book.ids.Nodup) (sided : book.Sided)
    (split : book.released = before ++ order :: rest) :
    Reduced book { book with released := before ++ keep order left ++ rest } order left := by
  have same : ∀ side, ({ book with released := before ++ keep order left ++ rest } :
      QuoteBook).tracked side = book.tracked side := by
    intro side
    cases side <;> rfl
  have fewer : ((before ++ keep order left ++ rest).map TrackedOrder.id).Sublist
      (book.released.map TrackedOrder.id) := by
    rw [split, List.append_assoc, List.map_append, List.map_append, List.map_append, List.map_cons]
    exact (List.Sublist.refl _).append ((ids_keep_sublist order left).append (List.Sublist.refl _))
  have apart : ((before ++ order :: rest).map TrackedOrder.id).Nodup := by
    rw [← split]
    exact distinct.sublist ((List.sublist_append_right _ _).map _)
  refine ⟨?_, fun side other tracked => sided (same side ▸ tracked), ?_, ?_, ?_, fewer⟩
  · have whole := (List.Sublist.refl (book.resting.map TrackedOrder.id)).append fewer
    rw [← List.map_append, ← List.map_append] at whole
    exact distinct.sublist whole
  · intro other member
    rcases mem_known.1 member with ⟨side, tracked⟩ | released
    · rw [same] at tracked
      have elsewhere : order.id ≠ other.id := id_ne_of_released distinct tracked (by simp [split])
      exact .inl ⟨mem_known.2 (.inl ⟨side, tracked⟩), elsewhere.symm⟩
    · rcases List.mem_append.1 released with first | inRest
      · rcases List.mem_append.1 first with inBefore | kept
        · exact .inl ⟨mem_known.2 (.inr (by simp [split, inBefore])),
            id_ne_of_split apart (List.mem_append_left _ inBefore)⟩
        · exact .inr (mem_keep.1 kept).2
      · exact .inl ⟨mem_known.2 (.inr (by simp [split, inRest])),
          id_ne_of_split apart (List.mem_append_right _ inRest)⟩
  · intro known' member
    obtain ⟨other, known, rfl⟩ := List.mem_map.1 member
    rcases mem_known.1 known with ⟨side, tracked⟩ | released
    · exact .inl (List.mem_map_of_mem (mem_known.2 (.inl ⟨side, (same side).trans tracked⟩)))
    · rw [split, List.mem_append, List.mem_cons] at released
      rcases released with inBefore | rfl | inRest
      · exact .inl (List.mem_map_of_mem (mem_known.2 (.inr (by simp [inBefore]))))
      · rcases le_or_gt left.value 0 with nothing | more
        · exact .inr ⟨rfl, nothing⟩
        · refine .inl (List.mem_map.2 ⟨{ other with remaining := max left 0 }, ?_, rfl⟩)
          exact mem_known.2 (.inr (by simp [mem_keep, more]))
      · exact .inl (List.mem_map_of_mem (mem_known.2 (.inr (by simp [inRest]))))
  · intro side known tracked
    refine .inl ?_
    rw [isTracked, same]
    exact tracked

/-- A fill reduces the known order of its side and id; if there is none, nothing happens. -/
theorem settle_reduces {answer : Option Decimal} (distinct : book.ids.Nodup) (sided : book.Sided)
    (done : book.settle side id amount = .ok (answer, after)) :
    (answer ≠ none ∧ ∃ order ∈ book.known, order.id = id ∧ ∃ left,
      order.remaining.sub amount = .ok left ∧ Reduced book after order left) ∨
      (answer = none ∧ after = book ∧ ∀ order ∈ book.known, ¬ (order.side = side ∧ order.id = id)) := by
  rcases settle_cases done with
    ⟨order, left, found, same, subtracted, known, rfl⟩ |
    ⟨before, order, rest, left, split, -, same, subtracted, known, rfl⟩ |
    ⟨rfl, rfl, untracked, unreleased⟩
  · exact .inl ⟨known, order, mem_known.2 (.inl ⟨side, found⟩), same, left, subtracted,
      reduced_tracked distinct sided found⟩
  · exact .inl ⟨known, order, mem_known.2 (.inr (by simp [split])), same, left, subtracted,
      reduced_released distinct sided split⟩
  · refine .inr ⟨rfl, rfl, ?_⟩
    rintro order known ⟨sides, same⟩
    rcases mem_known.1 known with ⟨other, found⟩ | released
    · have own : other = side := (sided found).symm.trans sides
      exact untracked order (own ▸ found) same
    · exact unreleased order released ⟨sides, same⟩

end QuoteBook

end MarketMaker
