import MarketMaker.Proofs.Engine.Submission
import MarketMaker.Proofs.Releases
/-!
Fills of an order that was let go. A book reduces a tracked order and a released one by separate code;
which of the two it did cannot be told from what comes of the fills, as long as the released order is
not dropped for newer ones.
-/

namespace MarketMaker

open Act

/-- The same outcome, however what remains of the order is written. -/
inductive HedgeOutcome.Same : HedgeOutcome → HedgeOutcome → Prop
  | ignored : Same .ignored .ignored
  | hedged (record : HedgeRecord) {remaining : Decimal}
      (same : remaining.value = record.makerRemaining.value) :
      Same (.hedged record) (.hedged { record with makerRemaining := remaining })
  | unhedged (gap : UnhedgedFill) {remaining : Decimal}
      (same : remaining.value = gap.makerRemaining.value) :
      Same (.unhedged gap) (.unhedged { gap with makerRemaining := remaining })

theorem HedgeOutcome.Same.refl : (outcome : HedgeOutcome) → outcome.Same outcome
  | .ignored => .ignored
  | .hedged record => .hedged record rfl
  | .unhedged gap => .unhedged gap rfl

theorem HedgeOutcome.Same.remaining {outcome outcome' : HedgeOutcome} (same : outcome.Same outcome') :
    outcome.record?.map (fun record => record.makerRemaining.value) =
      outcome'.record?.map fun record => record.makerRemaining.value := by
  cases same with
  | ignored => rfl
  | hedged record same => exact congrArg some same.symm
  | unhedged => rfl

namespace Hedging

variable {σ : Type} [Arithmetic] {desk : Desk σ} {p : Parameters} {fill : Fill}
  {book book' after : QuoteBook} {side : Side} {id : OrderId} {room : Nat}
  {kept : Option TrackedOrder} {outcome : HedgeOutcome} {s t : σ}

/-- What remains of the filled order is written down and nothing else depends on it. -/
theorem attempt_remaining (remaining other : Decimal) :
    attempt desk p fill other = do
      let record ← attempt desk p fill remaining
      return { record with makerRemaining := other } := by
  rw [attempt, attempt, bind_assoc]
  refine bind_congr fun executable => ?_
  rw [bind_assoc]
  refine bind_congr fun price => ?_
  rw [bind_assoc]
  refine bind_congr fun wanted => ?_
  rw [bind_assoc]
  refine bind_congr fun adjusted => ?_
  rw [bind_assoc]
  refine bind_congr fun amount => ?_
  split
  next => rfl
  next => simp only [bind_assoc, pure_bind]

/-- What comes of a fill that leaves this much, once its hedge was attempted. -/
def outcomeOf (fill : Fill) (remaining : Decimal) : Except UnhedgedReason HedgeRecord → HedgeOutcome
  | .ok record => .hedged record
  | .error reason => .unhedged ⟨fill, reason, remaining⟩

/-- Attempts that differ in what remains ask the same, are answered the same and come to the same. -/
theorem attempt_alike {remaining other : Decimal} {r : Except UnhedgedReason HedgeRecord}
    (same : other.value = remaining.value)
    (led : Leads (attempt desk p fill remaining).run s r t) :
    ∃ r', Leads (attempt desk p fill other).run s r' t ∧
      (outcomeOf fill remaining r).Same (outcomeOf fill other r') := by
  rw [attempt_remaining 0 remaining, leads_run_bind] at led
  rw [attempt_remaining 0 other]
  rcases led with ⟨reason, led, rfl⟩ | ⟨record, u, led, written⟩
  · exact ⟨.error reason, leads_run_bind.2 (.inl ⟨reason, led, rfl⟩),
      .unhedged ⟨fill, reason, remaining⟩ same⟩
  · obtain ⟨rfl, rfl⟩ := leads_run_pure.1 written
    exact ⟨_, leads_run_bind.2 (.inr ⟨record, t, led, leads_run_pure.2 ⟨rfl, rfl⟩⟩),
      .hedged { record with makerRemaining := remaining } same⟩

theorem leads_handle_none (settled : book.settle fill.side fill.orderId fill.amount = .ok (none, book)) :
    Leads (handle desk p fill book) s (outcome, after) t ↔
      outcome = .ignored ∧ after = book ∧ t = s := by
  rw [handle, settled]
  change Leads (pure (HedgeOutcome.ignored, book)) s (outcome, after) t ↔ _
  rw [leads_pure, Prod.mk.injEq, and_assoc]

theorem leads_handle_some {order : TrackedOrder} {answer : Decimal → Decimal × QuoteBook}
    (settled : book.settle fill.side fill.orderId fill.amount = do
      let left ← order.remaining.sub fill.amount
      return (some (answer left).1, (answer left).2)) :
    Leads (handle desk p fill book) s (outcome, after) t ↔
      ∃ left r, order.remaining.sub fill.amount = .ok left ∧
        Leads (attempt desk p fill (answer left).1).run s r t ∧
        outcome = outcomeOf fill (answer left).1 r ∧ after = (answer left).2 := by
  rw [handle, settled, leads_bind]
  simp only [leads_lift, Checked.bind_ok, Checked.pure_ok]
  constructor
  · rintro ⟨_, u, ⟨⟨left, subtracted, rfl⟩, rfl⟩, led⟩
    obtain ⟨r, v, attempted, answered⟩ := leads_bind.1 led
    refine ⟨left, r, subtracted, ?_⟩
    cases r <;>
    · obtain ⟨rfl, rfl, rfl⟩ := leads_pure_pair.1 answered
      exact ⟨attempted, rfl, rfl⟩
  · rintro ⟨left, r, subtracted, attempted, rfl, rfl⟩
    refine ⟨_, s, ⟨⟨left, subtracted, rfl⟩, rfl⟩, leads_bind.2 ⟨r, t, attempted, ?_⟩⟩
    cases r <;> exact leads_pure.2 ⟨rfl, rfl⟩

/-- A fill of an order that both books hold comes to the same, and both books hold the same of it
afterwards. -/
theorem handle_alike (holds : book.Holds fill.side fill.orderId room kept)
    (holds' : book'.Holds fill.side fill.orderId room kept)
    (led : Leads (handle desk p fill book) s (outcome, after) t) :
    ∃ outcome' after' kept', Leads (handle desk p fill book') s (outcome', after') t ∧
      outcome.Same outcome' ∧ after.Holds fill.side fill.orderId room kept' ∧
      after'.Holds fill.side fill.orderId room kept' := by
  cases kept with
  | none =>
    obtain ⟨rfl, rfl, rfl⟩ := (leads_handle_none holds.settle_none).1 led
    exact ⟨.ignored, book', none, (leads_handle_none holds'.settle_none).2 ⟨rfl, rfl, rfl⟩, .ignored,
      holds, holds'⟩
  | some order =>
    obtain ⟨answer, settled, answers⟩ := holds.reduces fill.amount
    obtain ⟨answer', settled', answers'⟩ := holds'.reduces fill.amount
    obtain ⟨left, r, subtracted, attempted, rfl, rfl⟩ := (leads_handle_some settled).1 led
    have same : (answer' left).1.value = (answer left).1.value :=
      (answers' left).1.trans (answers left).1.symm
    obtain ⟨r', attempted', alike⟩ := attempt_alike same attempted
    exact ⟨_, _, order.rest left,
      (leads_handle_some settled').2 ⟨left, r', subtracted, attempted', rfl, rfl⟩, alike,
      (answers left).2, (answers' left).2⟩

theorem handle_tracks (tracks : book.Tracks fill.side fill.orderId kept)
    (led : Leads (handle desk p fill book) s (outcome, after) t) :
    ∃ kept', after.Tracks fill.side fill.orderId kept' := by
  cases kept with
  | none =>
    obtain ⟨-, rfl, -⟩ := (leads_handle_none tracks.settle_none).1 led
    exact ⟨none, tracks⟩
  | some order =>
    obtain ⟨answer, settled, answers⟩ := tracks.reduces fill.amount
    obtain ⟨left, -, -, -, -, rfl⟩ := (leads_handle_some settled).1 led
    exact ⟨order.rest left, (answers left).2⟩

/-- What may happen to a book while fills of an order arrive. -/
inductive Event
  | fill (fill : Fill)
  | mark (order : TrackedOrder)
  | forget (side : Side)
deriving DecidableEq

/-- Fills are of the order, and new orders are not. -/
def Event.Concerns (side : Side) (id : OrderId) : Event → Prop
  | .fill fill => fill.side = side ∧ fill.orderId = id
  | .mark order => ¬ (order.side = side ∧ order.id = id)
  | .forget _ => True

instance (side : Side) (id : OrderId) (event : Event) : Decidable (event.Concerns side id) :=
  match event with
  | .fill fill => inferInstanceAs (Decidable (fill.side = side ∧ fill.orderId = id))
  | .mark order => inferInstanceAs (Decidable (¬ (order.side = side ∧ order.id = id)))
  | .forget _ => isTrue trivial

def Event.isForget : Event → Bool
  | .forget _ => true
  | _ => false

/-- Events one after the other: what comes of each fill, and whether the order is recognised after it. -/
def respondAll (desk : Desk σ) (p : Parameters) (side : Side) (id : OrderId) :
    List Event → QuoteBook → Act σ (List (HedgeOutcome × Bool) × QuoteBook)
  | [], book => return ([], book)
  | .fill fill :: events, book => do
    let (outcome, book) ← handle desk p fill book
    let (results, last) ← respondAll desk p side id events book
    return ((outcome, book.recognises side id) :: results, last)
  | .mark order :: events, book => respondAll desk p side id events (book.markResting order).2
  | .forget released :: events, book => respondAll desk p side id events (book.forget released).2

/-- Fills that came to the same, and after both or neither of which the order is recognised. -/
def Alike (result result' : HedgeOutcome × Bool) : Prop :=
  result.1.Same result'.1 ∧ result.2 = result'.2

/-- From any world the second run does what the first does: it ends in the same world, with the same
outcomes, and the order is recognised after the same fills. -/
def Follows (second first : Act σ (List (HedgeOutcome × Bool) × QuoteBook)) : Prop :=
  ∀ ⦃s t results last⦄, Leads first s (results, last) t →
    ∃ results' last', Leads second s (results', last') t ∧
      List.Forall₂ Alike results results'

/-- What the hedged fills left of the order, as numbers. -/
def remainders (results : List (HedgeOutcome × Bool)) : List (Option ℚ) :=
  results.map fun result => result.1.record?.map fun record => record.makerRemaining.value

section Alike

variable {results results' : List (HedgeOutcome × Bool)}

omit [Arithmetic] in
theorem alike_remainders (alike : List.Forall₂ Alike results results') :
    remainders results = remainders results' := by
  induction alike with
  | nil => rfl
  | cons same _ ih => exact congrArg₂ List.cons same.1.remaining ih

omit [Arithmetic] in
theorem alike_flags (alike : List.Forall₂ Alike results results') :
    results.map Prod.snd = results'.map Prod.snd := by
  induction alike with
  | nil => rfl
  | cons same _ ih => exact congrArg₂ List.cons same.2 ih

end Alike

/-- Runs that go on alike after a fill that came to the same do so from before it. -/
theorem follows_fill {events events' : List Event}
    (first : ∀ {s t outcome after}, Leads (handle desk p fill book) s (outcome, after) t →
      ∃ outcome' after', Leads (handle desk p fill book') s (outcome', after') t ∧
        outcome.Same outcome' ∧ after.recognises side id = after'.recognises side id ∧
        Follows (respondAll desk p side id events' after') (respondAll desk p side id events after)) :
    Follows (respondAll desk p side id (.fill fill :: events') book')
      (respondAll desk p side id (.fill fill :: events) book) := by
  intro s t results last led
  rw [respondAll] at led
  obtain ⟨⟨outcome, after⟩, u, handled, led⟩ := leads_bind.1 led
  obtain ⟨⟨later, _⟩, v, led, listed⟩ := leads_bind.1 led
  obtain ⟨rfl, rfl, rfl⟩ := leads_pure_pair.1 listed
  obtain ⟨outcome', after', handled', alike, known, follows⟩ := first handled
  obtain ⟨later', last', led', rest⟩ := follows led
  refine ⟨(outcome', after'.recognises side id) :: later', last', ?_, .cons ⟨alike, known⟩ rest⟩
  rw [respondAll]
  exact leads_bind.2 ⟨_, u, handled', leads_bind.2 ⟨_, _, led', leads_pure.2 ⟨rfl, rfl⟩⟩⟩

/-- Books that hold the same of the order cannot be told apart by what comes of its fills, as long as
no more orders are let go than there is room for. -/
theorem follows_of_holds {events : List Event} (own : ∀ event ∈ events, event.Concerns side id)
    (few : events.countP Event.isForget ≤ room) (holds : book.Holds side id room kept)
    (holds' : book'.Holds side id room kept) :
    Follows (respondAll desk p side id events book') (respondAll desk p side id events book) := by
  -- On the events: every release takes one place in both books, whichever way they know the order.
  induction events generalizing book book' room kept with
  | nil =>
    intro s t results last led
    obtain ⟨rfl, -, rfl⟩ := leads_pure_pair.1 led
    exact ⟨[], book', leads_pure.2 ⟨rfl, rfl⟩, .nil⟩
  | cons event events ih =>
    have here := own event List.mem_cons_self
    have later : ∀ event ∈ events, event.Concerns side id :=
      fun event member => own event (List.mem_cons_of_mem _ member)
    cases event with
    | fill fill =>
      obtain ⟨rfl, rfl⟩ := here
      refine follows_fill fun {s t outcome after} led => ?_
      obtain ⟨outcome', after', kept', led', alike, keeps, keeps'⟩ := handle_alike holds holds' led
      exact ⟨outcome', after', led', alike, keeps.recognises.trans keeps'.recognises.symm,
        ih later few keeps keeps'⟩
    | mark order => exact ih later few (holds.markResting here) (holds'.markResting here)
    | forget released =>
      rw [List.countP_cons_of_pos (show Event.isForget (.forget released) = true from rfl)] at few
      cases room with
      | zero => omega
      | succ room =>
        exact ih later (Nat.le_of_succ_le_succ few) (holds.forget released) (holds'.forget released)

/-- Until the order is let go, the book tracks it or it is filled. -/
theorem follows_of_tracks {before after : List Event}
    (own : ∀ event ∈ before ++ after, event.Concerns side id) (rests : .forget side ∉ before)
    (few : after.countP Event.isForget < QuoteBook.releasedCapacity)
    (tracks : book.Tracks side id kept) :
    Follows (respondAll desk p side id (before ++ after) book)
        (respondAll desk p side id (before ++ .forget side :: after) book) ∧
      Follows (respondAll desk p side id (before ++ .forget side :: after) book)
        (respondAll desk p side id (before ++ after) book) := by
  -- Up to the release both runs are on one book, in which releases on the other side take no place yet.
  induction before generalizing book kept with
  | nil =>
    have holds : book.Holds side id (after.countP Event.isForget + 1) kept := .tracks tracks few
    have holds' := holds.mono (Nat.le_succ _)
    exact ⟨follows_of_holds own le_rfl (holds.forget side) holds',
      follows_of_holds own le_rfl holds' (holds.forget side)⟩
  | cons event before ih =>
    have here := own event (by simp)
    have later : ∀ event ∈ before ++ after, event.Concerns side id :=
      fun event member => own event (List.mem_cons_of_mem _ member)
    have different : .forget side ≠ event := fun same => rests (by simp [same])
    have rests' : .forget side ∉ before := fun member => rests (List.mem_cons_of_mem _ member)
    cases event with
    | fill fill =>
      obtain ⟨rfl, rfl⟩ := here
      constructor
      · refine follows_fill fun {s t outcome after} led => ?_
        obtain ⟨_, tracks⟩ := handle_tracks tracks led
        exact ⟨outcome, after, led, .refl outcome, rfl, (ih later rests' tracks).1⟩
      · refine follows_fill fun {s t outcome after} led => ?_
        obtain ⟨_, tracks⟩ := handle_tracks tracks led
        exact ⟨outcome, after, led, .refl outcome, rfl, (ih later rests' tracks).2⟩
    | mark order => exact ih later rests' (tracks.markResting here)
    | forget released =>
      refine ih later rests' (tracks.forget_other fun known found same => different ?_)
      rw [← same.1, tracks.sided found]

/-- If no other order of its side and id is remembered, letting an order go changes nothing about what
comes of its fills. -/
theorem forgotten_alike {order : TrackedOrder} {before after : List Event} (sided : book.Sided)
    (tracked : book.tracked order.side = some order)
    (single : book.isReleased order.side order.id = false)
    (own : ∀ event ∈ before ++ after, event.Concerns order.side order.id)
    (rests : .forget order.side ∉ before)
    (few : after.countP Event.isForget < QuoteBook.releasedCapacity) :
    Follows (respondAll desk p order.side order.id (before ++ after) book)
        (respondAll desk p order.side order.id (before ++ .forget order.side :: after) book) ∧
      Follows (respondAll desk p order.side order.id (before ++ .forget order.side :: after) book)
        (respondAll desk p order.side order.id (before ++ after) book) := by
  have tracks : book.Tracks order.side order.id (some order) := by
    refine ⟨sided, fun known => ?_, fun known member same => ?_⟩
    · rw [tracked]
      constructor
      · intro same
        exact ⟨same, congrArg TrackedOrder.id (Option.some.inj same).symm⟩
      · exact And.left
    · exact Bool.eq_false_iff.1 single (QuoteBook.isReleased_iff.2 ⟨known, member, same⟩)
  exact follows_of_tracks own rests few tracks

def bid (id : OrderId) (quantity : Decimal) : TrackedOrder :=
  .new id .buy (.of 996800 4) quantity ⟨0⟩

def bidFilled (amount : Decimal) : Event :=
  .fill (Engine.bidFill (.of 996800 4) amount)

/-- What comes of the fills of a bid whose taker has enough of everything. -/
def bidRun (p : Parameters) (events : List Event) (book : QuoteBook) :
    Act Venues (List (HedgeOutcome × Bool) × QuoteBook) :=
  @respondAll _ .rounding (@Session.desk .rounding) p .buy "okx-1" events book

def plentyVenues : Venues := Engine.tenVenues (.of 10000 0)

def bidBook : QuoteBook := ⟨some (bid "okx-1" (.of 10 0)), none, []⟩

def early : List Event := [bidFilled (.of 4 0)]

/-- Another bid takes its place and is let go as well; the last fill but one is of more than is left. -/
def late : List Event :=
  [.mark (bid "okx-2" (.of 10 0)), bidFilled (.of 15 1), .forget .buy, bidFilled (.of 5 0),
    bidFilled (.of 1 0)]

omit [Arithmetic] in
theorem forgotten_alike_early : ∃ p results results' last last' t,
    Engine.tenConfig.parameters = .ok p ∧
    Leads (bidRun p (early ++ late) bidBook) plentyVenues (results, last) t ∧
    Leads (bidRun p (early ++ .forget .buy :: late) bidBook) plentyVenues (results', last') t ∧
    remainders results = [some 6, some (9 / 2), some 0, none] ∧ remainders results' = remainders results ∧
    results.map Prod.snd = [true, true, false, false] ∧ results'.map Prod.snd = results.map Prod.snd := by
  have works : Engine.tenConfig.parameters.toOption.any (fun p =>
      ((bidRun p (early ++ late) bidBook).run plentyVenues).toOption.any fun ((results, _), _) =>
        decide (remainders results = [some 6, some (9 / 2), some 0, none] ∧
          results.map Prod.snd = [true, true, false, false])) = true := by
    decide +kernel
  obtain ⟨p, configured, works⟩ := Checked.toOption_any works
  obtain ⟨⟨⟨results, last⟩, t⟩, led, works⟩ := Checked.toOption_any works
  obtain ⟨left, matched⟩ := of_decide_eq_true works
  have sided : bidBook.Sided := by
    intro side order found
    cases side <;> cases found
    rfl
  obtain ⟨-, follows⟩ := @forgotten_alike _ .rounding (@Session.desk .rounding) p _
    (bid "okx-1" (.of 10 0)) early late sided rfl rfl (by decide) (by decide) (by decide)
  obtain ⟨results', last', led', alike⟩ := follows led
  exact ⟨p, results, results', last, last', t, configured, led, led', left, (alike_remainders alike).symm,
    matched, (alike_flags alike).symm⟩

/-- A bid of an id that a released bid has, too. -/
def twiceBook : QuoteBook :=
  ⟨some (bid "okx-1" (.of 5 0)), none, [bid "okx-1" (.of 10 0)]⟩

omit [Arithmetic] in
/-- Once both are released, the fill of the second is taken for one of the first. -/
theorem forgotten_mistaken : ∃ p results results' last last' t t',
    Engine.tenConfig.parameters = .ok p ∧
    Leads (bidRun p [bidFilled (.of 5 0)] twiceBook) plentyVenues (results, last) t ∧
    Leads (bidRun p [.forget .buy, bidFilled (.of 5 0)] twiceBook) plentyVenues (results', last') t' ∧
    remainders results = [some 0] ∧ remainders results' = [some 5] ∧
    ¬ Follows (bidRun p [.forget .buy, bidFilled (.of 5 0)] twiceBook)
      (bidRun p [bidFilled (.of 5 0)] twiceBook) := by
  have works : Engine.tenConfig.parameters.toOption.any (fun p =>
      ((bidRun p [bidFilled (.of 5 0)] twiceBook).run plentyVenues).toOption.any
        fun ((results, _), _) =>
      ((bidRun p [.forget .buy, bidFilled (.of 5 0)] twiceBook).run plentyVenues).toOption.any
        fun ((results', _), _) =>
      decide (remainders results = [some 0] ∧ remainders results' = [some 5])) = true := by
    decide +kernel
  obtain ⟨p, configured, works⟩ := Checked.toOption_any works
  obtain ⟨⟨⟨results, last⟩, t⟩, led, works⟩ := Checked.toOption_any works
  obtain ⟨⟨⟨results', last'⟩, t'⟩, led', works⟩ := Checked.toOption_any works
  obtain ⟨filled, mistaken⟩ := of_decide_eq_true works
  refine ⟨p, results, results', last, last', t, t', configured, led, led', filled, mistaken, ?_⟩
  intro follows
  obtain ⟨_, _, again, alike⟩ := follows led
  obtain ⟨same, -⟩ := Leads.unique led' again
  obtain ⟨rfl, -⟩ := Prod.mk.inj same
  have equal := alike_remainders alike
  rw [filled, mistaken] at equal
  simp at equal

end Hedging

end MarketMaker
