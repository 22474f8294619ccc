import MarketMaker.Proofs.QuoteBook
/-!
How a book goes on knowing one order, tracked or released. Other orders may come and go; the order is
known until it is filled, or until as many others were let go as there is room for.
-/

namespace MarketMaker

open Decimal

namespace TrackedOrder

variable {order less : TrackedOrder} {left : Decimal}

/-- What is kept of an order of which a fill leaves this much. -/
def rest (order : TrackedOrder) (left : Decimal) : Option TrackedOrder :=
  if 0 < left.value then some { order with remaining := max left 0 } else none

/-- What a fill that leaves this much does to the side's order. -/
def progress (order : TrackedOrder) (left : Decimal) : FillProgress :=
  if 0 < left.value then .partly (max left 0) else .complete { order with remaining := max left 0 }

theorem rest_same (kept : order.rest left = some less) :
    less.side = order.side ∧ less.id = order.id := by
  rw [rest] at kept
  split at kept
  next =>
    obtain rfl := Option.some.inj kept
    exact ⟨rfl, rfl⟩
  next => cases kept

theorem value_progress : (order.progress left).remaining.value = max left.value 0 := by
  rw [progress]
  split
  next => rw [FillProgress.remaining, value_max, value_zero]
  next none => rw [FillProgress.remaining, value_zero, max_eq_right (not_lt.1 none)]

end TrackedOrder

namespace QuoteBook

variable {book after : QuoteBook} {side other : Side} {id : OrderId} {amount : Decimal}
  {order fresh : TrackedOrder} {kept : Option TrackedOrder} {room : Nat}

/-- Whether a fill of this side and id is of a known order. -/
def recognises (book : QuoteBook) (side : Side) (id : OrderId) : Bool :=
  book.isTracked side id || book.isReleased side id

/-- What the book keeps of this side and id is what the side tracks, if that is the order of this id;
no released order is. -/
structure Tracks (book : QuoteBook) (side : Side) (id : OrderId) (kept : Option TrackedOrder) :
    Prop where
  sided : book.Sided
  kept : ∀ order, kept = some order ↔ book.tracked side = some order ∧ order.id = id
  alone : ∀ order ∈ book.released, ¬ (order.side = side ∧ order.id = id)

/-- The order is the one released order of this side and id, and as many more may be released before
it is dropped. -/
structure Remembers (book : QuoteBook) (side : Side) (id : OrderId) (room : Nat)
    (order : TrackedOrder) : Prop where
  sided : book.Sided
  untracked : ∀ order, book.tracked side = some order → order.id ≠ id
  same : order.side = side ∧ order.id = id
  placed : ∃ older newer, book.released = older ++ order :: newer ∧
    (∀ order ∈ older ++ newer, ¬ (order.side = side ∧ order.id = id)) ∧
    newer.length + room < releasedCapacity

/-- The book knows the order in one way or the other, or knows none of this side and id. -/
inductive Holds (book : QuoteBook) (side : Side) (id : OrderId) (room : Nat) :
    Option TrackedOrder → Prop
  | tracks {kept : Option TrackedOrder} (tracks : book.Tracks side id kept)
      (few : room ≤ releasedCapacity) : Holds book side id room kept
  | remembers {order : TrackedOrder} (remembers : book.Remembers side id room order) :
      Holds book side id room (some order)

theorem isTracked_eq_false (untracked : ∀ order, book.tracked side = some order → order.id ≠ id) :
    book.isTracked side id = false := by
  refine Bool.eq_false_iff.2 fun tracked => ?_
  obtain ⟨order, found, same⟩ := isTracked_iff.1 tracked
  exact untracked order found same

theorem Tracks.untracked (tracks : book.Tracks side id none) :
    ∀ order, book.tracked side = some order → order.id ≠ id :=
  fun order found same => nomatch (tracks.kept order).2 ⟨found, same⟩

theorem Tracks.recognises (tracks : book.Tracks side id kept) :
    book.recognises side id = kept.isSome := by
  have unreleased : book.isReleased side id = false :=
    Bool.eq_false_iff.2 fun released => by
      obtain ⟨order, member, same⟩ := isReleased_iff.1 released
      exact tracks.alone order member same
  rw [QuoteBook.recognises, unreleased, Bool.or_false]
  cases kept with
  | none => exact isTracked_eq_false tracks.untracked
  | some order => exact isTracked_iff.2 ⟨order, (tracks.kept order).1 rfl⟩

theorem Holds.recognises (holds : book.Holds side id room kept) :
    book.recognises side id = kept.isSome := by
  cases holds with
  | tracks tracks => exact tracks.recognises
  | remembers remembers =>
    obtain ⟨older, newer, listed, -, -⟩ := remembers.placed
    rw [QuoteBook.recognises, isTracked_eq_false remembers.untracked, Bool.false_or]
    exact isReleased_iff.2 ⟨_, by simp [listed], remembers.same⟩

theorem Holds.mono {fewer : Nat} (holds : book.Holds side id room kept) (less : fewer ≤ room) :
    book.Holds side id fewer kept := by
  cases holds with
  | tracks tracks few => exact .tracks tracks (less.trans few)
  | remembers remembers =>
    obtain ⟨older, newer, listed, alone, few⟩ := remembers.placed
    exact .remembers { remembers with placed := ⟨older, newer, listed, alone, by omega⟩ }

/-! ### New orders -/

/-- A new order is tracked on its side, or nothing changes. -/
theorem markResting_cases (book : QuoteBook) (fresh : TrackedOrder) :
    (book.tracked fresh.side = none ∧
      (book.markResting fresh).2 = book.setTracked fresh.side (some fresh)) ∨
      (book.markResting fresh).2 = book := by
  rw [markResting]
  split
  next idle => exact .inl ⟨Option.isNone_iff_eq_none.1 idle, rfl⟩
  next => exact .inr rfl

theorem Tracks.markResting (tracks : book.Tracks side id kept)
    (new : ¬ (fresh.side = side ∧ fresh.id = id)) :
    (book.markResting fresh).2.Tracks side id kept := by
  rcases book.markResting_cases fresh with ⟨idle, marked⟩ | unchanged
  · rw [marked]
    refine ⟨tracks.sided.setTracked fun order same => Option.some.inj same ▸ rfl, fun order => ?_,
      by rw [released_setTracked]; exact tracks.alone⟩
    rw [tracks.kept, tracked_setTracked]
    split
    next same =>
      subst same
      rw [idle]
      refine iff_of_false (by simp) ?_
      rintro ⟨tracked, same⟩
      exact new ⟨rfl, (congrArg TrackedOrder.id (Option.some.inj tracked)).trans same⟩
    next => rfl
  · rw [unchanged]
    exact tracks

theorem Remembers.markResting (remembers : book.Remembers side id room order)
    (new : ¬ (fresh.side = side ∧ fresh.id = id)) :
    (book.markResting fresh).2.Remembers side id room order := by
  rcases book.markResting_cases fresh with ⟨-, marked⟩ | unchanged
  · rw [marked]
    refine ⟨remembers.sided.setTracked fun order same => Option.some.inj same ▸ rfl, ?_,
      remembers.same, by rw [released_setTracked]; exact remembers.placed⟩
    intro known found same
    rw [tracked_setTracked] at found
    split at found
    next own =>
      obtain rfl := Option.some.inj found
      exact new ⟨own, same⟩
    next => exact remembers.untracked known found same
  · rw [unchanged]
    exact remembers

theorem Holds.markResting (holds : book.Holds side id room kept)
    (new : ¬ (fresh.side = side ∧ fresh.id = id)) :
    (book.markResting fresh).2.Holds side id room kept := by
  cases holds with
  | tracks tracks few => exact .tracks (tracks.markResting new) few
  | remembers remembers => exact .remembers (remembers.markResting new)

/-! ### Releases -/

theorem forget_idle (idle : book.tracked side = none) : (book.forget side).2 = book := by
  rw [QuoteBook.forget, idle]

theorem Tracks.forget_other (tracks : book.Tracks side id kept)
    (others : ∀ known, book.tracked other = some known → ¬ (known.side = side ∧ known.id = id)) :
    (book.forget other).2.Tracks side id kept := by
  refine ⟨tracks.sided.forget other, fun order => ?_, ?_⟩
  · rw [tracks.kept, tracked_forget]
    split
    next same =>
      subst same
      refine iff_of_false ?_ (by simp)
      rintro ⟨found, same⟩
      exact others order found ⟨tracks.sided found, same⟩
    next => rfl
  · cases found : book.tracked other with
    | none =>
      rw [forget_idle found]
      exact tracks.alone
    | some forgotten =>
      intro known member
      rcases mem_released_forget found member with old | rfl
      · exact tracks.alone known old
      · exact others known found

/-- The order that is let go is the newest of those that are remembered. -/
theorem Tracks.forget_own (tracks : book.Tracks side id (some order))
    (few : room < releasedCapacity) : (book.forget side).2.Remembers side id room order := by
  obtain ⟨found, same⟩ := (tracks.kept order).1 rfl
  refine ⟨tracks.sided.forget side, ?_, ⟨tracks.sided found, same⟩, ?_⟩
  · intro known found'
    rw [tracked_forget, if_pos rfl] at found'
    cases found'
  · rcases released_forget found with listed | ⟨oldest, rest, split, -, listed⟩
    · exact ⟨book.released, [], listed, by simpa using tracks.alone, by simpa using few⟩
    · refine ⟨rest, [], listed, ?_, by simpa using few⟩
      intro known member
      rw [List.append_nil] at member
      exact tracks.alone known (split ▸ List.mem_cons_of_mem oldest member)

theorem Remembers.others (remembers : book.Remembers side id room order) {known : TrackedOrder}
    (found : book.tracked other = some known) : ¬ (known.side = side ∧ known.id = id) := by
  rintro ⟨sides, same⟩
  obtain rfl := (remembers.sided found).symm.trans sides
  exact remembers.untracked known found same

/-- If there is room, a released order stays where it is; the oldest one may be dropped. -/
theorem released_forget_split {forgotten : TrackedOrder} (found : book.tracked side = some forgotten)
    {older newer : List TrackedOrder} (listed : book.released = older ++ order :: newer)
    (few : newer.length + 1 < releasedCapacity) : ∃ kept : List TrackedOrder, kept ⊆ older ∧
      (book.forget side).2.released = kept ++ order :: (newer ++ [forgotten]) := by
  rcases released_forget found with listed' | ⟨oldest, rest, split, full, listed'⟩
  · exact ⟨older, List.Subset.refl older, by simp [listed', listed]⟩
  · cases older with
    | nil =>
      obtain ⟨-, rfl⟩ := List.cons.inj (split.symm.trans listed)
      omega
    | cons first older =>
      obtain ⟨-, rfl⟩ := List.cons.inj (split.symm.trans listed)
      exact ⟨older, List.subset_cons_self first older, by simp [listed']⟩

/-- Another order that is let go takes one place; the older ones go first. -/
theorem Remembers.forget (remembers : book.Remembers side id (room + 1) order) (other : Side) :
    (book.forget other).2.Remembers side id room order := by
  obtain ⟨older, newer, listed, alone, few⟩ := remembers.placed
  cases found : book.tracked other with
  | none =>
    rw [forget_idle found]
    exact { remembers with placed := ⟨older, newer, listed, alone, by omega⟩ }
  | some forgotten =>
    have untracked : ∀ known, (book.forget other).2.tracked side = some known → known.id ≠ id :=
      fun known found' => remembers.untracked known (tracked_of_forget found')
    obtain ⟨kept, sub, listed'⟩ := released_forget_split found listed (by omega)
    refine ⟨remembers.sided.forget other, untracked, remembers.same, kept, newer ++ [forgotten], listed',
      ?_, ?_⟩
    · intro known member
      simp only [List.mem_append, List.mem_singleton] at member
      rcases member with inKept | inNewer | rfl
      · exact alone known (List.mem_append_left newer (sub inKept))
      · exact alone known (List.mem_append_right older inNewer)
      · exact remembers.others found
    · rw [List.length_append, List.length_singleton]
      omega

theorem Holds.forget (holds : book.Holds side id (room + 1) kept) (other : Side) :
    (book.forget other).2.Holds side id room kept := by
  cases holds with
  | remembers remembers => exact .remembers (remembers.forget other)
  | tracks tracks few =>
    by_cases own : other = side ∧ kept.isSome
    · obtain ⟨rfl, given⟩ := own
      obtain ⟨order, rfl⟩ := Option.isSome_iff_exists.1 given
      exact .remembers (tracks.forget_own few)
    · refine .tracks (tracks.forget_other fun known found same => own ?_) (by omega)
      obtain rfl := (tracks.sided found).symm.trans same.1
      exact ⟨rfl, by rw [(tracks.kept known).2 ⟨found, same.2⟩]; rfl⟩

/-! ### Fills -/

theorem Tracks.setTracked (tracks : book.Tracks side id kept) {next : Option TrackedOrder}
    (own : ∀ order, next = some order → order.side = side ∧ order.id = id) :
    (book.setTracked side next).Tracks side id next := by
  refine ⟨tracks.sided.setTracked fun order same => (own order same).1, fun order => ?_,
    by rw [released_setTracked]; exact tracks.alone⟩
  rw [tracked_setTracked, if_pos rfl]
  exact ⟨fun same => ⟨same, (own order same).2⟩, And.left⟩

theorem keep_eq_rest (order : TrackedOrder) (left : Decimal) :
    keep order left = (order.rest left).toList := by
  rw [keep, TrackedOrder.rest]
  by_cases more : 0 < left.value
  · rw [if_neg fun nothing => nothing_left_iff.1 nothing more, if_pos more]
    rfl
  · rw [if_pos (nothing_left_iff.2 more), if_neg more]
    rfl

section Fills

variable [Arithmetic]

theorem fillFirst_none {orders : List TrackedOrder}
    (alone : ∀ order ∈ orders, ¬ (order.side = side ∧ order.id = id)) :
    fillFirst side id amount orders = .ok none := by
  induction orders with
  | nil => rfl
  | cons first rest ih =>
    rw [fillFirst, if_neg (alone first List.mem_cons_self),
      ih fun order member => alone order (List.mem_cons_of_mem first member)]
    rfl

theorem fillFirst_own {older newer : List TrackedOrder} (same : order.side = side ∧ order.id = id)
    (alone : ∀ order ∈ older, ¬ (order.side = side ∧ order.id = id)) :
    fillFirst side id amount (older ++ order :: newer) = do
      let left ← order.remaining.sub amount
      return some (max left 0, older ++ keep order left ++ newer) := by
  induction older with
  | nil =>
    rw [List.nil_append, fillFirst, if_pos same, TrackedOrder.reduce]
    cases order.remaining.sub amount with
    | error e => rfl
    | ok left =>
      change Except.ok _ = Except.ok _
      simp only [keep, value_eq_zero_iff]
      split <;> rfl
  | cons first older ih =>
    rw [List.cons_append, fillFirst, if_neg (alone first List.mem_cons_self),
      ih fun order member => alone order (List.mem_cons_of_mem first member)]
    cases order.remaining.sub amount <;> rfl

theorem applyFill_tracked (found : book.tracked side = some order) :
    book.applyFill side amount = do
      let left ← order.remaining.sub amount
      return (some (order.progress left), book.setTracked side (order.rest left)) := by
  rw [applyFill, found]
  dsimp only
  rw [TrackedOrder.reduce]
  cases order.remaining.sub amount with
  | error e => rfl
  | ok left =>
    have positive : 0 < max left 0 ↔ 0 < left.value := by
      rw [pos_iff_value, value_max, value_zero, lt_max_iff, or_iff_left (lt_irrefl 0)]
    change (if 0 < max left 0 then _ else _) = Except.ok _
    rw [TrackedOrder.rest, TrackedOrder.progress]
    by_cases more : 0 < left.value
    · rw [if_pos (positive.2 more), if_pos more, if_pos more]
      rfl
    · rw [if_neg fun given => more (positive.1 given), if_neg more, if_neg more]
      rfl

theorem Tracks.settle_none (tracks : book.Tracks side id none) :
    book.settle side id amount = .ok (none, book) := by
  rw [QuoteBook.settle, isTracked_eq_false tracks.untracked, if_neg Bool.false_ne_true,
    applyReleasedFill, fillFirst_none tracks.alone]
  rfl

/-- A fill takes its amount off the order, and the books it may leave keep the rest as they should. -/
def Reduces (book : QuoteBook) (side : Side) (id : OrderId) (order : TrackedOrder)
    (keeps : QuoteBook → Option TrackedOrder → Prop) : Prop :=
  ∀ amount, ∃ answer : Decimal → Decimal × QuoteBook,
    book.settle side id amount = (do
      let left ← order.remaining.sub amount
      return (some (answer left).1, (answer left).2)) ∧
    ∀ left, (answer left).1.value = max left.value 0 ∧ keeps (answer left).2 (order.rest left)

theorem Tracks.reduces (tracks : book.Tracks side id (some order)) :
    book.Reduces side id order fun after kept => after.Tracks side id kept := by
  intro amount
  obtain ⟨found, same⟩ := (tracks.kept order).1 rfl
  refine ⟨fun left => ((order.progress left).remaining, book.setTracked side (order.rest left)), ?_,
    fun left => ⟨TrackedOrder.value_progress, ?_⟩⟩
  · rw [settle, isTracked_iff.2 ⟨order, found, same⟩, if_pos rfl, applyFill_tracked found]
    cases order.remaining.sub amount <;> rfl
  · refine tracks.setTracked fun kept same' => ?_
    obtain ⟨sides, ids⟩ := TrackedOrder.rest_same same'
    exact ⟨sides.trans (tracks.sided found), ids.trans same⟩

theorem Remembers.reduces (remembers : book.Remembers side id room order) :
    book.Reduces side id order fun after kept => after.Holds side id room kept := by
  intro amount
  obtain ⟨older, newer, listed, alone, few⟩ := remembers.placed
  refine ⟨fun left => (max left 0, { book with released := older ++ keep order left ++ newer }), ?_,
    fun left => ⟨by rw [value_max, value_zero], ?_⟩⟩
  · rw [settle, isTracked_eq_false remembers.untracked, if_neg Bool.false_ne_true, applyReleasedFill,
      listed,
      fillFirst_own remembers.same fun order member => alone order (List.mem_append_left newer member)]
    cases order.remaining.sub amount <;> rfl
  · dsimp only
    rw [keep_eq_rest]
    cases kept : order.rest left with
    | none =>
      refine .tracks ⟨remembers.sided, fun known => iff_of_false (by simp) ?_, by simpa using alone⟩ ?_
      · rintro ⟨found, same⟩
        exact remembers.untracked known found same
      · omega
    | some less =>
      obtain ⟨sides, ids⟩ := TrackedOrder.rest_same kept
      exact .remembers ⟨remembers.sided, remembers.untracked,
        ⟨sides.trans remembers.same.1, ids.trans remembers.same.2⟩, older, newer, by simp, alone, few⟩

theorem Holds.reduces (holds : book.Holds side id room (some order)) :
    book.Reduces side id order fun after kept => after.Holds side id room kept := by
  cases holds with
  | remembers remembers => exact remembers.reduces
  | tracks tracks few =>
    intro amount
    obtain ⟨answer, settles, answers⟩ := tracks.reduces amount
    exact ⟨answer, settles, fun left => ⟨(answers left).1, .tracks (answers left).2 few⟩⟩

theorem Holds.settle_none (holds : book.Holds side id room none) :
    book.settle side id amount = .ok (none, book) := by
  cases holds with
  | tracks tracks => exact tracks.settle_none

end Fills

end QuoteBook

end MarketMaker
