import MarketMaker.Proofs.Engine.Submission
import MarketMaker.Proofs.Engine.Transcript
/-!
One pass over the resting orders, on any venue. An order is asked to be cancelled at most once, and only
if the venue listed it. What the pass reports is what it did to the quote book: an order that was
cancelled frees its side, one that was gone for too long joins the released ones, and nothing else
touches the book.
-/

namespace MarketMaker

namespace Turn

/-- The order that a request asks to cancel. -/
def cancels? (turn : Turn) : Option OrderId :=
  match turn.message with
  | .cancelOrder _ id => some id
  | _ => none

/-- The orders that requests ask to cancel, in the order in which they were sent. -/
def cancels (turns : List Turn) : List OrderId :=
  turns.filterMap cancels?

theorem cancels_append (turns more : List Turn) :
    cancels (turns ++ more) = cancels turns ++ cancels more :=
  List.filterMap_append

end Turn

namespace CancelOutcome

def orderId : CancelOutcome → OrderId
  | cancelled id .. | cancelFailed id .. | released id _ | orphanCancelled id .. => id

def side : CancelOutcome → Side
  | cancelled _ side _ | cancelFailed _ side _ | released _ side | orphanCancelled _ side _ => side

/-- The side of the book that nothing is tracked on afterwards. -/
def freed? : CancelOutcome → Option Side
  | cancelled _ side _ | released _ side => some side
  | cancelFailed .. | orphanCancelled .. => none

/-- The order that the venue cancelled. -/
def pulled? : CancelOutcome → Option OrderId
  | cancelled id .. | orphanCancelled id .. => some id
  | cancelFailed .. | released .. => none

/-- What the outcome means for the book. -/
def enter (book : QuoteBook) : CancelOutcome → QuoteBook
  | cancelled _ side _ => (book.release side).2
  | released _ side => (book.forget side).2
  | cancelFailed .. | orphanCancelled .. => book

theorem side_of_freed? {outcome : CancelOutcome} {side : Side} (freed : outcome.freed? = some side) :
    outcome.side = side := by
  cases outcome <;> cases freed <;> rfl

end CancelOutcome

open CancelOutcome (freed? pulled?)

namespace QuoteBook

variable {book other : QuoteBook} {outcomes : List CancelOutcome} {side : Side}

/-- The book after these outcomes, one after the other. -/
def enterAll (book : QuoteBook) (outcomes : List CancelOutcome) : QuoteBook :=
  outcomes.foldl CancelOutcome.enter book

theorem enterAll_append (book : QuoteBook) (outcomes more : List CancelOutcome) :
    book.enterAll (outcomes ++ more) = (book.enterAll outcomes).enterAll more :=
  List.foldl_append

theorem enterAll_of_not_freed (none' : outcomes.filterMap freed? = []) :
    book.enterAll outcomes = book := by
  induction outcomes with
  | nil => rfl
  | cons outcome outcomes ih =>
    rw [List.filterMap_eq_nil_iff, List.forall_mem_cons] at none'
    have same : outcome.enter book = book := by
      cases outcome with
      | cancelled | released => cases none'.1
      | cancelFailed | orphanCancelled => rfl
    have step : book.enterAll (outcome :: outcomes) = (outcome.enter book).enterAll outcomes := rfl
    rw [step, same, ih (List.filterMap_eq_nil_iff.2 none'.2)]

/-- The released orders once another one joins them; if there is no room, the oldest of them goes. -/
def joined (released : List TrackedOrder) (order : TrackedOrder) : List TrackedOrder :=
  (if released.length = releasedCapacity then released.tail else released) ++ [order]

/-- The order that a release lets go. -/
def letGo? (book : QuoteBook) : CancelOutcome → Option TrackedOrder
  | .released _ side => book.tracked side
  | _ => none

theorem tracked_enter (outcome : CancelOutcome) :
    (outcome.enter book).tracked side =
      if outcome.freed? = some side then none else book.tracked side := by
  cases outcome with
  | cancelled id own reason =>
    simp only [CancelOutcome.enter, release, freed?, Option.some.injEq, tracked_setTracked]
  | released id own => simp only [CancelOutcome.enter, freed?, Option.some.injEq, tracked_forget]
  | cancelFailed | orphanCancelled => simp [CancelOutcome.enter, freed?]

/-- A side keeps what it tracks unless an outcome frees it. -/
theorem tracked_enterAll : (book.enterAll outcomes).tracked side =
    if side ∈ outcomes.filterMap freed? then none else book.tracked side := by
  induction outcomes generalizing book with
  | nil => simp [enterAll]
  | cons outcome outcomes ih =>
    have step : book.enterAll (outcome :: outcomes) = (outcome.enter book).enterAll outcomes := rfl
    rw [step, ih, tracked_enter]
    cases freed : outcome.freed? with
    | none => simp [freed]
    | some own =>
      simp only [List.filterMap_cons_some freed, List.mem_cons, Option.some.injEq]
      by_cases same : own = side
      · simp [same]
      · simp [same, Ne.symm same]

theorem released_enter (outcome : CancelOutcome) :
    (outcome.enter book).released = (book.letGo? outcome).toList.foldl joined book.released := by
  cases outcome with
  | cancelled id own reason => exact released_setTracked book own none
  | released id own =>
    simp only [CancelOutcome.enter, letGo?, forget]
    cases book.tracked own with
    | none => rfl
    | some order => simp [remember, joined, released_setTracked]
  | cancelFailed | orphanCancelled => rfl

/-- Whatever frees a side for the first time finds there what was tracked at the beginning. -/
theorem letGo?_enter {outcome : CancelOutcome} (outcomes : List CancelOutcome)
    (once : ∀ side ∈ outcome.freed?, side ∉ outcomes.filterMap freed?) :
    outcomes.filterMap (outcome.enter book).letGo? = outcomes.filterMap book.letGo? := by
  refine List.filterMap_congr fun later member => ?_
  cases later with
  | released id side =>
    have other : outcome.freed? ≠ some side := fun same =>
      once side same (List.mem_filterMap.2 ⟨_, member, rfl⟩)
    rw [letGo?, letGo?, tracked_enter, if_neg other]
  | _ => rfl

/-- Where no side is freed twice, the orders that were let go have joined the released ones. -/
theorem released_enterAll (once : (outcomes.filterMap freed?).Nodup) :
    (book.enterAll outcomes).released =
      (outcomes.filterMap book.letGo?).foldl joined book.released := by
  induction outcomes generalizing book with
  | nil => rfl
  | cons outcome outcomes ih =>
    have step : book.enterAll (outcome :: outcomes) = (outcome.enter book).enterAll outcomes := rfl
    have later : (outcomes.filterMap freed?).Nodup ∧
        ∀ side ∈ outcome.freed?, side ∉ outcomes.filterMap freed? := by
      cases freed : outcome.freed? with
      | none =>
        rw [List.filterMap_cons_none freed] at once
        exact ⟨once, by simp⟩
      | some own =>
        rw [List.filterMap_cons_some freed, List.nodup_cons] at once
        exact ⟨once.2, by simpa using once.1⟩
    rw [step, ih later.1, released_enter, letGo?_enter outcomes later.2]
    cases gone : book.letGo? outcome with
    | none => rw [List.filterMap_cons_none gone]; rfl
    | some order => rw [List.filterMap_cons_some gone]; rfl

end QuoteBook

namespace Cancellation

open Act RestingOrder
open Turn (cancels)

variable {σ : Type} {pair : Pair} {live : List RestingOrder} {ids more : List OrderId}
  {outcomes others : List CancelOutcome} {turns turns' : List Turn} {book between after : QuoteBook}

/-- The requests of a pass over orders of these ids. -/
structure Sweep (pair : Pair) (live : List RestingOrder) (ids : List OrderId)
    (outcomes : List CancelOutcome) (turns : List Turn) : Prop where
  /-- Nothing is asked but to cancel orders of the pair. -/
  only : ∀ turn ∈ turns, turn.recipient = .maker ∧ ∃ id, turn.message = .cancelOrder pair id
  /-- Each order is asked for in its turn, if at all. -/
  order : (cancels turns).Sublist ids
  listed : cancels turns ⊆ live.map RestingOrder.id
  /-- What was granted is reported. -/
  pulled : cancels (turns.filter Turn.granted) = outcomes.filterMap pulled?

theorem Sweep.append (first : Sweep pair live ids outcomes turns)
    (second : Sweep pair live more others turns') :
    Sweep pair live (ids ++ more) (outcomes ++ others) (turns ++ turns') where
  only turn member := (List.mem_append.1 member).elim (first.only turn) (second.only turn)
  order := by
    rw [Turn.cancels_append]
    exact first.order.append second.order
  listed := by
    rw [Turn.cancels_append]
    exact List.append_subset.2 ⟨first.listed, second.listed⟩
  pulled := by
    rw [List.filter_append, Turn.cancels_append, first.pulled, second.pulled, List.filterMap_append]

/-- Nothing was asked, and so nothing was cancelled. -/
theorem sweep_nil (ids : List OrderId) (unasked : outcomes.filterMap pulled? = []) :
    Sweep pair live ids outcomes [] :=
  ⟨by simp, List.nil_sublist ids, List.nil_subset _, unasked.symm⟩

/-- One order was asked for, and it is reported as cancelled if that was granted. -/
theorem sweep_single {id : OrderId} {granted : Bool} (listed : id ∈ live.map RestingOrder.id)
    (reported : outcomes.filterMap pulled? = if granted then [id] else []) :
    Sweep pair live [id] outcomes [⟨.maker, .cancelOrder pair id, granted⟩] where
  only turn member := by
    obtain rfl := List.mem_singleton.1 member
    exact ⟨rfl, id, rfl⟩
  order := .refl _
  listed := by simpa [cancels, Turn.cancels?] using listed
  pulled := by
    rw [reported]
    cases granted <;> rfl

/-! ### Tracked orders -/

/-- What a pass over tracked orders does. -/
structure TrackedSweep (pair : Pair) (live : List RestingOrder) (orders : List TrackedOrder)
    (book : QuoteBook) (outcomes : List CancelOutcome) (after : QuoteBook) (turns : List Turn) :
    Prop where
  sweep : Sweep pair live (orders.map TrackedOrder.id) outcomes turns
  entered : after = book.enterAll outcomes
  /-- Each order frees its side at most once. -/
  freed : (outcomes.filterMap freed?).Sublist (orders.map TrackedOrder.side)
  own : ∀ outcome ∈ outcomes, ∃ order ∈ orders,
    outcome.orderId = order.id ∧ outcome.side = order.side

theorem TrackedSweep.append {orders rest : List TrackedOrder}
    (first : TrackedSweep pair live orders book outcomes between turns)
    (second : TrackedSweep pair live rest between others after turns') :
    TrackedSweep pair live (orders ++ rest) book (outcomes ++ others) after (turns ++ turns') where
  sweep := List.map_append ▸ first.sweep.append second.sweep
  entered := by rw [QuoteBook.enterAll_append, ← first.entered, second.entered]
  freed := by
    rw [List.filterMap_append, List.map_append]
    exact first.freed.append second.freed
  own outcome member := by
    rcases List.mem_append.1 member with early | late
    · obtain ⟨order, given, about⟩ := first.own outcome early
      exact ⟨order, List.mem_append_left _ given, about⟩
    · obtain ⟨order, given, about⟩ := second.own outcome late
      exact ⟨order, List.mem_append_right _ given, about⟩

/-- A check that came to nothing. -/
theorem trackedSweep_nil (orders : List TrackedOrder) : TrackedSweep pair live orders book [] book [] :=
  ⟨sweep_nil _ rfl, rfl, List.nil_sublist _, nofun⟩

/-- A check of one order is about that order. -/
theorem trackedSweep_single {order : TrackedOrder} {outcome : CancelOutcome}
    (about : outcome.orderId = order.id ∧ outcome.side = order.side)
    (sweep : Sweep pair live [order.id] [outcome] turns) :
    TrackedSweep pair live [order] book [outcome] (outcome.enter book) turns where
  sweep := sweep
  entered := rfl
  freed := by
    cases freed : outcome.freed? with
    | none =>
      rw [List.filterMap_cons_none freed]
      exact List.nil_sublist _
    | some side =>
      have own : side = order.side := (CancelOutcome.side_of_freed? freed).symm.trans about.2
      rw [List.filterMap_cons_some freed, own]
      exact .refl _
  own other member := by
    obtain rfl := List.mem_singleton.1 member
    exact ⟨order, List.mem_singleton_self order, about⟩

section Passes

variable [Arithmetic] {desk : Desk σ} {p : Parameters} {quotes : MarketQuotes} {now : Instant}
  {s t : σ}

theorem noted_checkTracked {order : TrackedOrder} :
    Noted (checkTracked desk p quotes now live order book)
      (checkTracked desk.noted p quotes now live order book) fun result turns =>
        TrackedSweep p.maker.pair live [order] book result.1 result.2 turns := by
  rintro s ⟨outcomes, after⟩ t led
  -- what the venue listed may be asked for
  have shown : ∀ {found}, lookup order.id live = some found → order.id ∈ live.map RestingOrder.id := by
    intro found listed
    obtain ⟨member, same⟩ := mem_of_lookup listed
    exact List.mem_map.2 ⟨found, member, same⟩
  cases leads_checkTracked.1 led with
  | release absent late =>
    refine ⟨[], trackedSweep_single ⟨rfl, rfl⟩ (sweep_nil _ rfl), fun notes => leads_checkTracked.2 ?_⟩
    rw [List.append_nil]
    exact .release absent late
  | await absent early =>
    refine ⟨[], trackedSweep_nil _, fun notes => leads_checkTracked.2 ?_⟩
    rw [List.append_nil]
    exact .await absent early
  | stay listed judged =>
    refine ⟨[], trackedSweep_nil _, fun notes => leads_checkTracked.2 ?_⟩
    rw [List.append_nil]
    exact .stay listed judged
  | cancel listed judged done =>
    obtain ⟨_, rfl, noted⟩ := noted_request done
    exact ⟨_, trackedSweep_single ⟨rfl, rfl⟩ (sweep_single (shown listed) rfl),
      fun notes => leads_checkTracked.2 (.cancel listed judged (noted notes))⟩
  | fail listed judged refused =>
    obtain ⟨_, rfl, noted⟩ := noted_request refused
    exact ⟨_, trackedSweep_single ⟨rfl, rfl⟩ (sweep_single (shown listed) rfl),
      fun notes => leads_checkTracked.2 (.fail listed judged (noted notes))⟩

theorem noted_checkAllTracked {orders : List TrackedOrder} :
    Noted (checkAllTracked desk p quotes now live orders book)
      (checkAllTracked desk.noted p quotes now live orders book) fun result turns =>
        TrackedSweep p.maker.pair live orders book result.1 result.2 turns := by
  induction orders generalizing book with
  | nil => exact noted_pure (trackedSweep_nil [])
  | cons order orders ih =>
    rw [checkAllTracked, checkAllTracked]
    refine noted_checkTracked.bind fun first turns swept => ih.bind fun others turns' rest => ?_
    exact noted_pure (by rw [List.append_nil]; exact swept.append rest)

/-! ### Orders that nobody tracks -/

/-- One of them is asked for at most, and whatever comes of it, no side is freed. -/
theorem noted_orphanCheck {order : RestingOrder} (shown : order.id ∈ live.map RestingOrder.id)
    (check : OrphanCheck desk p quotes now order s outcomes t) : ∃ turns,
      Sweep p.maker.pair live [order.id] outcomes turns ∧ outcomes.filterMap freed? = [] ∧ ∀ notes,
        OrphanCheck desk.noted p quotes now order (s, notes) outcomes (t, notes ++ turns) := by
  cases check with
  | stay judged =>
    refine ⟨[], sweep_nil _ rfl, rfl, fun notes => ?_⟩
    rw [List.append_nil]
    exact .stay judged
  | cancel judged done =>
    obtain ⟨_, rfl, noted⟩ := noted_request done
    exact ⟨_, sweep_single shown rfl, rfl, fun notes => .cancel judged (noted notes)⟩
  | fail judged refused =>
    obtain ⟨_, rfl, noted⟩ := noted_request refused
    exact ⟨_, sweep_single shown rfl, rfl, fun notes => .fail judged (noted notes)⟩

theorem noted_checkOrphans {orders : List RestingOrder} (listed : orders ⊆ live) :
    Noted (checkOrphans desk p quotes now orders) (checkOrphans desk.noted p quotes now orders)
      fun outcomes turns =>
        Sweep p.maker.pair live (orders.map RestingOrder.id) outcomes turns ∧
          outcomes.filterMap freed? = [] := by
  induction orders with
  | nil => exact noted_pure ⟨sweep_nil _ rfl, rfl⟩
  | cons order orders ih =>
    have shown : order.id ∈ live.map RestingOrder.id :=
      List.mem_map.2 ⟨order, listed List.mem_cons_self, rfl⟩
    have rest := ih fun other member => listed (List.mem_cons_of_mem _ member)
    intro s outcomes t led
    obtain ⟨first, others, u, rfl, check, led⟩ := leads_checkOrphans_cons.1 led
    obtain ⟨turns, sweep, freed, noted⟩ := noted_orphanCheck shown check
    obtain ⟨turns', ⟨swept, none⟩, noted'⟩ := rest led
    refine ⟨turns ++ turns', ⟨sweep.append swept, ?_⟩, fun notes => ?_⟩
    · rw [List.filterMap_append, freed, none, List.nil_append]
    · refine leads_checkOrphans_cons.2 ⟨first, others, (u, notes ++ turns), rfl, noted notes, ?_⟩
      rw [← List.append_assoc]
      exact noted' (notes ++ turns)

/-! ### A whole pass -/

/-- What a pass over listed orders does, and what it sends for it. -/
structure Pass (pair : Pair) (book : QuoteBook) (live : List RestingOrder)
    (outcomes : List CancelOutcome) (after : QuoteBook) (turns : List Turn) : Prop where
  only : ∀ turn ∈ turns, turn.recipient = .maker ∧ ∃ id, turn.message = .cancelOrder pair id
  /-- No order is asked for twice. -/
  once : (cancels turns).Nodup
  listed : cancels turns ⊆ live.map RestingOrder.id
  pulled : cancels (turns.filter Turn.granted) = outcomes.filterMap pulled?
  /-- An order that frees a side is the one that was tracked there. -/
  own : ∀ outcome ∈ outcomes, ∀ side, outcome.freed? = some side →
    ∃ order, book.tracked side = some order ∧ order.id = outcome.orderId
  changed : ∀ side, after.tracked side ≠ book.tracked side ↔ side ∈ outcomes.filterMap freed?
  idle : ∀ side ∈ outcomes.filterMap freed?, after.tracked side = none
  released : after.released = (outcomes.filterMap book.letGo?).foldl QuoteBook.joined book.released
  /-- Failures and orphans, which enter nothing, leave the book as it is. -/
  entered : after = book.enterAll outcomes

omit [Arithmetic] in
theorem pass_of_sweeps (distinct : (book.resting.map TrackedOrder.id).Nodup) (sided : book.Sided)
    (listing : (live.map RestingOrder.id).Nodup)
    (tracked : TrackedSweep pair live book.resting book outcomes after turns)
    (orphans : Sweep pair live ((strays pair book live).map RestingOrder.id) others turns')
    (none : others.filterMap freed? = []) :
    Pass pair book live (outcomes ++ others) after (turns ++ turns') := by
  have both := tracked.sweep.append orphans
  have freed : (outcomes ++ others).filterMap freed? = outcomes.filterMap freed? := by
    rw [List.filterMap_append, none, List.append_nil]
  have entered : after = book.enterAll (outcomes ++ others) := by
    rw [QuoteBook.enterAll_append, ← tracked.entered, QuoteBook.enterAll_of_not_freed none]
  have own : ∀ outcome ∈ outcomes ++ others, ∀ side, outcome.freed? = some side →
      ∃ order, book.tracked side = some order ∧ order.id = outcome.orderId := by
    intro outcome member side frees
    rcases List.mem_append.1 member with first | other
    · obtain ⟨order, resting, same, aside⟩ := tracked.own outcome first
      have here : side = order.side := (CancelOutcome.side_of_freed? frees).symm.trans aside
      exact ⟨order, here ▸ sided.tracked_of_mem resting, same.symm⟩
    · rw [List.filterMap_eq_nil_iff.1 none outcome other] at frees
      cases frees
  have left : ∀ side, after.tracked side =
      if side ∈ (outcomes ++ others).filterMap freed? then .none else book.tracked side := by
    intro side
    rw [entered]
    exact QuoteBook.tracked_enterAll
  exact {
    only := both.only
    once := by
      rw [Turn.cancels_append]
      refine (tracked.sweep.order.nodup distinct).append
        (orphans.order.nodup (listing.sublist (List.filter_sublist.map _))) ?_
      -- an order that the book tracks is not among those that nobody tracks
      intro id first second
      obtain ⟨order, resting, same⟩ := List.mem_map.1 (tracked.sweep.order.subset first)
      obtain ⟨stray, member, same'⟩ := List.mem_map.1 (orphans.order.subset second)
      have unknown : ¬ book.contains stray.id = true := by
        simpa using (of_decide_eq_true (List.mem_filter.1 member).2).2
      exact unknown (QuoteBook.contains_iff.2 ⟨order, resting, same.trans same'.symm⟩)
    listed := both.listed
    pulled := both.pulled
    own := own
    changed := by
      intro side
      rw [left]
      constructor
      · intro changed
        by_contra kept
        exact changed (if_neg kept)
      · intro frees
        obtain ⟨outcome, member, frees'⟩ := List.mem_filterMap.1 frees
        obtain ⟨order, found, -⟩ := own outcome member side frees'
        rw [if_pos frees, found]
        simp
    idle := fun side frees => (left side).trans (if_pos frees)
    released := by
      have once : ((outcomes ++ others).filterMap freed?).Nodup :=
        freed ▸ tracked.freed.nodup sided.sides_nodup
      rw [entered, QuoteBook.released_enterAll once]
    entered := entered }

/-- A pass over a book with distinct ids asks at most once to cancel an order, and what it reports is
what it did to the book. If the orders cannot be listed, nothing happens. -/
theorem run_pass (distinct : (book.resting.map TrackedOrder.id).Nodup) (sided : book.Sided)
    (listing : ∀ live u, Leads desk.maker.activeOrders.run s (.ok live) u →
      (live.map RestingOrder.id).Nodup)
    (led : Leads (run desk p quotes now book) s (outcomes, after) t) :
    ∃ turns, Leads (run desk.noted p quotes now book) (s, []) (outcomes, after) (t, turns) ∧
      ((∃ e, Leads desk.maker.activeOrders.run s (.error e) t ∧ outcomes = [] ∧ after = book ∧
        turns = [⟨.maker, .activeOrders, false⟩]) ∨
      ∃ live u asked, Leads desk.maker.activeOrders.run s (.ok live) u ∧
        turns = ⟨.maker, .activeOrders, true⟩ :: asked ∧
        Pass p.maker.pair book live outcomes after asked) := by
  rcases leads_run_cases.1 led with
    ⟨e, refused, rfl, rfl⟩ | ⟨live, u, tracked, others, w, listed, rfl, checked, orphaned⟩
  · obtain ⟨_, rfl, noted⟩ := noted_request refused
    exact ⟨_, leads_run_cases.2 (.inl ⟨e, noted [], rfl, rfl⟩), .inl ⟨e, refused, rfl, rfl, rfl⟩⟩
  · obtain ⟨_, rfl, noted⟩ := noted_request listed
    obtain ⟨turns, sweep, noted'⟩ := noted_checkAllTracked checked
    obtain ⟨turns', ⟨sweep', none⟩, noted''⟩ := noted_checkOrphans (List.filter_subset_self _) orphaned
    refine ⟨_, leads_run_cases.2 (.inr ⟨live, _, tracked, others, _, noted [], rfl, noted' _, noted'' _⟩),
      .inr ⟨live, u, turns ++ turns', listed, ?_,
        pass_of_sweeps distinct sided (listing live u listed) sweep sweep' none⟩⟩
    rw [List.nil_append, List.append_assoc]
    rfl

end Passes

/-- The bid rests on the maker, which does not know the ask. -/
def halfGoneBook : QuoteBook :=
  ⟨some (.new "okx-1" .buy (.of 996800 4) (.of 10 0) ⟨0⟩),
    some (.new "okx-9" .sell (.of 1013232 4) (.of 10 0) ⟨0⟩), []⟩

/-- Beside the bid there is an order that nobody tracks. The first cancellation is refused. -/
def stubbornVenues : FaultyVenue × FaultyVenue :=
  ((FaultyVenue.ofVenue { Engine.bookedVenue "okx" 0 (.of 10000 0) Engine.wideBook with
      orderCount := 2
      resting := [⟨"okx-1", Engine.tenPair, .buy, .of 996800 4, .of 10 0, ⟨0⟩⟩,
        ⟨"okx-2", Engine.tenPair, .buy, .of 996800 4, .of 10 0, ⟨0⟩⟩] }).plan .cancelOrder 0 1
      (.unavailable (.other "closed")),
    .ofVenue (Engine.bookedVenue "binance" 0 (.of 10000 0) Engine.narrowBook))

def faultyDesk : Desk (FaultyVenue × FaultyVenue) :=
  .ofPair (@FaultyVenue.adapter .rounding) (@FaultyVenue.adapter .rounding)

/-- One order cannot be cancelled, one is gone from the venue, and one is an orphan. -/
theorem run_pass_refused : ∃ p message reason after live turns t,
    let outcomes : List CancelOutcome := [.cancelFailed "okx-1" .buy message, .released "okx-9" .sell,
      .orphanCancelled "okx-2" .buy reason]
    Engine.tenConfig.parameters = .ok p ∧
    (halfGoneBook.resting.map TrackedOrder.id).Nodup ∧ halfGoneBook.Sided ∧
    (∀ live u, Leads faultyDesk.maker.activeOrders.run stubbornVenues (.ok live) u →
      (live.map RestingOrder.id).Nodup) ∧
    Leads (@run _ .rounding faultyDesk p Engine.narrowQuotes Engine.expiry halfGoneBook) stubbornVenues
      (outcomes, after) t ∧
    Pass p.maker.pair halfGoneBook live outcomes after turns ∧ cancels turns = ["okx-1", "okx-2"] := by
  have works : Engine.tenConfig.parameters.toOption.any (fun p =>
      ((@run _ .rounding faultyDesk.noted p Engine.narrowQuotes Engine.expiry halfGoneBook).run
          (stubbornVenues, [])).toOption.any fun noted => decide (cancels noted.2.2 =
            ["okx-1", "okx-2"]) &&
        ((@run _ .rounding faultyDesk p Engine.narrowQuotes Engine.expiry halfGoneBook).run
          stubbornVenues).toOption.any fun result => decide (result.1.1 =
            [.cancelFailed "okx-1" .buy (VenueError.unavailable (.other "closed")).message,
              .released "okx-9" .sell,
              .orphanCancelled "okx-2" .buy (.expired (Span.ofSeconds 31))])) = true := by
    decide +kernel
  have listing : ∀ live u, Leads faultyDesk.maker.activeOrders.run stubbornVenues (.ok live) u →
      (live.map RestingOrder.id).Nodup := by
    intro live u listed
    have shown : (faultyDesk.maker.activeOrders.run.run stubbornVenues).toOption.all (fun answer =>
        answer.1.toOption.all fun live => decide (live.map RestingOrder.id).Nodup) = true := by
      decide +kernel
    rw [listed] at shown
    exact of_decide_eq_true shown
  have sided : halfGoneBook.Sided := by
    intro side order found
    cases side <;> cases found <;> rfl
  have distinct : (halfGoneBook.resting.map TrackedOrder.id).Nodup := by decide
  obtain ⟨p, configured, works⟩ := Checked.toOption_any works
  obtain ⟨⟨result, u, notes⟩, noted, works⟩ := Checked.toOption_any works
  obtain ⟨sent, works⟩ := Bool.and_eq_true_iff.1 works
  obtain ⟨⟨⟨outcomes, after⟩, t⟩, led, works⟩ := Checked.toOption_any works
  obtain rfl := of_decide_eq_true works
  obtain ⟨turns, noted', ⟨_, -, impossible, -⟩ | ⟨live, u, asked, -, rfl, pass⟩⟩ :=
    @run_pass _ _ _ _ .rounding _ _ _ _ _ _ distinct sided listing led
  · cases impossible
  · obtain ⟨-, same⟩ := Leads.unique noted noted'
    obtain ⟨-, rfl⟩ := Prod.mk.inj same
    exact ⟨p, _, _, after, live, asked, t, configured, distinct, sided, listing, led, pass,
      of_decide_eq_true sent⟩

end Cancellation

end MarketMaker
