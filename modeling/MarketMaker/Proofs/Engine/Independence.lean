import MarketMaker.Proofs.Engine.Submission
import MarketMaker.Proofs.Engine.Transcript
/-!
What a fill does to the quote book is settled before the taker is asked for anything. Whatever venues
answer or refuse, the book comes out the same; a hedge is one order that was granted, and a fill is
ignored only for an order that the book does not know.
-/

namespace MarketMaker

open Turn (orders)

namespace QuoteBook

variable {book after : QuoteBook} {side : Side} {id : OrderId} {amount : Decimal}

/-- Nothing is settled if the order is neither tracked nor remembered, and then nothing changes. -/
theorem settle_none [Arithmetic] {answer : Option Decimal}
    (done : book.settle side id amount = .ok (answer, after)) :
    (answer = none ↔ book.isTracked side id = false ∧ book.isReleased side id = false) ∧
      (answer = none → after = book) := by
  rcases settle_cases done with
    ⟨order, left, found, same, -, known, -⟩ | ⟨before, order, rest, left, split, sides, same, -, known, -⟩ |
    ⟨rfl, rfl, untracked, unreleased⟩
  · have tracked : book.isTracked side id = true := isTracked_iff.2 ⟨order, found, same⟩
    exact ⟨iff_of_false known (by simp [tracked]), fun none => absurd none known⟩
  · have released : book.isReleased side id = true :=
      isReleased_iff.2 ⟨order, by simp [split], sides, same⟩
    exact ⟨iff_of_false known (by simp [released]), fun none => absurd none known⟩
  · refine ⟨iff_of_true rfl ⟨Bool.eq_false_iff.2 ?_, Bool.eq_false_iff.2 ?_⟩, fun _ => rfl⟩
    · intro tracked
      obtain ⟨order, found, same⟩ := isTracked_iff.1 tracked
      exact untracked order found same
    · intro released
      obtain ⟨order, member, same⟩ := isReleased_iff.1 released
      exact unreleased order member same

end QuoteBook

namespace Hedging

open Act

variable {σ : Type} [Arithmetic] {desk : Desk σ} {p : Parameters} {fill : Fill} {book after : QuoteBook}
  {outcome : HedgeOutcome} {α β : Type}

/-- No order was sent and nothing came of it, or one order was sent and decides what came of it. -/
def Ordered (r : Except UnhedgedReason α) (turns : List Turn) : Prop :=
  (orders turns = [] ∧ r.isOk = false) ∨ ∃ turn, orders turns = [turn] ∧ turn.granted = r.isOk

omit [Arithmetic] in
theorem noted_require {reason : String → UnhedgedReason} {who : Recipient} {message : Message}
    {call : Call σ α} :
    Noted (require reason call).run (require reason (call.noted who message)).run fun r turns =>
      turns = [⟨who, message, r.isOk⟩] := by
  refine (noted_run_act noted_request).run_bind ?_ fun reply turns asked => ?_
  · rintro e turns ⟨_, impossible, -⟩
    cases impossible
  · obtain ⟨_, same, rfl⟩ := asked
    obtain rfl := Except.ok.inj same
    cases reply <;> exact noted_pure rfl

omit [Arithmetic] in
theorem quiet_require {reason : String → UnhedgedReason} {who : Recipient} {message : Message}
    {call : Call σ α} (other : message.kind ≠ .placeOrder) :
    Quiet (require reason call) (require reason (call.noted who message)) := by
  refine noted_require.mono fun r turns asked => ?_
  simp [asked, orders, other]

omit [Arithmetic] in
/-- Before the order, steps go by that place none. -/
theorem ordered_bind {step : ExceptT UnhedgedReason (Act σ) α}
    {noted : ExceptT UnhedgedReason (Act (σ × List Turn)) α}
    {next : α → ExceptT UnhedgedReason (Act σ) β}
    {next' : α → ExceptT UnhedgedReason (Act (σ × List Turn)) β} (first : Quiet step noted)
    (rest : ∀ a, Noted (next a).run (next' a).run Ordered) :
    Noted (step >>= next).run (noted >>= next').run Ordered :=
  first.run_bind (fun r turns more same ordered => by rwa [Ordered, same]) (fun e => .inl ⟨rfl, rfl⟩)
    rest

/-- An attempt succeeds if it sends its order and the order is granted; it sends no other. -/
theorem noted_attempt {remaining : Decimal} :
    Noted (attempt desk p fill remaining).run (attempt desk.noted p fill remaining).run Ordered := by
  rw [attempt, attempt]
  refine ordered_bind (quiet_require (by simp [Message.kind])) fun executable => ?_
  refine ordered_bind quiet_lift fun price => ordered_bind quiet_lift fun wanted => ?_
  refine ordered_bind (quiet_require (by simp [Message.kind])) fun adjusted => ?_
  refine ordered_bind quiet_lift fun amount => ?_
  split
  next => exact noted_pure (.inl ⟨rfl, rfl⟩)
  next =>
    refine ordered_bind quiet_lift fun residual => ordered_bind quiet_lift fun profit => ?_
    refine noted_require.run_bind (fun e turns sent => ?_) fun id turns sent => noted_pure ?_
    · exact .inr ⟨_, by rw [sent]; rfl, rfl⟩
    · exact .inr ⟨_, by rw [List.append_nil, sent]; rfl, rfl⟩

/-- What a fill did, beside the requests that were sent for it. -/
structure Settles (book : QuoteBook) (fill : Fill) (outcome : HedgeOutcome) (after : QuoteBook)
    (turns : List Turn) : Prop where
  /-- At most one order is placed. -/
  once : (orders turns).length ≤ 1
  hedged : (∃ record, outcome = .hedged record) ↔ ∃ turn ∈ orders turns, turn.granted = true
  ignored : outcome = .ignored ↔
    book.isTracked fill.side fill.orderId = false ∧ book.isReleased fill.side fill.orderId = false
  /-- A fill that is ignored leaves no trace. -/
  untouched : outcome = .ignored → after = book ∧ turns = []

/-- The book that a fill leaves is the one that settles it, before anything is asked. -/
theorem noted_handle :
    Noted (handle desk p fill book) (handle desk.noted p fill book) fun result turns =>
      (∃ answer, book.settle fill.side fill.orderId fill.amount = .ok (answer, result.2)) ∧
        Settles book fill result.1 result.2 turns := by
  rw [handle, handle]
  have settles : Noted
      (monadLift (book.settle fill.side fill.orderId fill.amount) : Act σ _)
      (monadLift (book.settle fill.side fill.orderId fill.amount)) fun settled turns =>
        turns = [] ∧ book.settle fill.side fill.orderId fill.amount = .ok settled :=
    noted_lift fun _ done => ⟨rfl, done⟩
  refine settles.bind ?_
  rintro ⟨answer, after⟩ _ ⟨rfl, settled⟩
  obtain ⟨unknown, same⟩ := QuoteBook.settle_none settled
  cases answer with
  | none =>
    refine noted_pure ⟨⟨none, settled⟩, by simp [orders], ?_, ?_, fun _ => ⟨same rfl, rfl⟩⟩
    · simp [orders]
    · exact iff_of_true rfl (unknown.1 rfl)
  | some remaining =>
    have known : ¬ (book.isTracked fill.side fill.orderId = false ∧
        book.isReleased fill.side fill.orderId = false) :=
      fun given => Option.some_ne_none _ (unknown.2 given)
    refine noted_attempt.bind fun r turns ordered => ?_
    cases r with
    | ok record =>
      obtain ⟨-, impossible⟩ | ⟨turn, sent, granted⟩ := ordered
      · cases impossible
      · have accepted : turn.granted = true := granted
        refine noted_pure ⟨⟨some remaining, settled⟩, ?_, ?_, iff_of_false (by simp) known, by simp⟩
        · simp [sent]
        · simp [sent, accepted]
    | error reason =>
      refine noted_pure ⟨⟨some remaining, settled⟩, ?_, ?_, iff_of_false (by simp) known, by simp⟩
      · obtain ⟨none, -⟩ | ⟨turn, sent, -⟩ := ordered
        · simp [none]
        · simp [sent]
      · obtain ⟨none, -⟩ | ⟨turn, sent, granted⟩ := ordered
        · simp [none]
        · have refused : turn.granted = false := granted
          simp [sent, refused]

/-- Two runs of one fill on desks that have nothing in common leave the same book. -/
theorem settled_alike {τ : Type} {desk' : Desk τ} {after' : QuoteBook} {outcome' : HedgeOutcome}
    {s t : σ} {s' t' : τ} (led : Leads (handle desk p fill book) s (outcome, after) t)
    (led' : Leads (handle desk' p fill book) s' (outcome', after') t') :
    after' = after ∧
      (∃ turns, Leads (handle desk.noted p fill book) (s, []) (outcome, after) (t, turns) ∧
        Settles book fill outcome after turns) ∧
      ∃ turns, Leads (handle desk'.noted p fill book) (s', []) (outcome', after') (t', turns) ∧
        Settles book fill outcome' after' turns := by
  obtain ⟨turns, ⟨⟨answer, settled⟩, settles⟩, leads⟩ := noted_handle led
  obtain ⟨turns', ⟨⟨answer', settled'⟩, settles'⟩, leads'⟩ := noted_handle led'
  have same : after' = after := by
    obtain ⟨-, same⟩ := Prod.mk.inj (Except.ok.inj (settled'.symm.trans settled))
    exact same
  exact ⟨same, ⟨turns, leads [], settles⟩, turns', leads' [], settles'⟩

/-- A bid that was let go while a fill of it was under way. -/
def lateBook : QuoteBook :=
  ⟨none, none, [.new "okx-1" .buy (.of 996800 4) (.of 10 0) ⟨0⟩]⟩

def lateFill : Fill := Engine.bidFill (.of 996800 4) (.of 4 0)

/-- The taker refuses the next order. -/
def closedVenues : FaultyVenue × FaultyVenue :=
  (.ofVenue (Engine.tenVenues (.of 10000 0)).1,
    (FaultyVenue.ofVenue (Engine.tenVenues (.of 10000 0)).2).plan .placeOrder 0 1
      (.unavailable (.other "closed")))

omit [Arithmetic] in
/-- One taker takes the hedge and one refuses it; the fill leaves the same book. -/
theorem settled_alike_refused : ∃ p record reason after turns turns',
    Engine.tenConfig.parameters = .ok p ∧
    (∃ t, @Leads _ _ (@handle _ .rounding (@Session.desk .rounding).noted p lateFill lateBook)
      (Engine.tenVenues (.of 10000 0), []) (.hedged record, after) (t, turns)) ∧
    (∃ t, @Leads _ _ (@handle _ .rounding
        (Desk.ofPair (@FaultyVenue.adapter .rounding) (@FaultyVenue.adapter .rounding)).noted p lateFill
        lateBook)
      (closedVenues, []) (.unhedged ⟨lateFill, .submitFailed reason, .of 6 0⟩, after) (t, turns')) ∧
    (∃ turn ∈ orders turns, turn.granted = true) ∧ (∀ turn ∈ orders turns', turn.granted = false) ∧
    after.released.map TrackedOrder.remaining = [.of 6 0] := by
  have works : Engine.tenConfig.parameters.toOption.any (fun p =>
      ((@handle _ .rounding (@Session.desk .rounding) p lateFill lateBook).run
          (Engine.tenVenues (.of 10000 0))).toOption.any fun result => result.1.1.record?.any fun _ =>
        ((@handle _ .rounding
            (Desk.ofPair (@FaultyVenue.adapter .rounding) (@FaultyVenue.adapter .rounding)) p lateFill
            lateBook).run closedVenues).toOption.any fun result' =>
          decide (result'.1.1 = .unhedged ⟨lateFill,
              .submitFailed (VenueError.unavailable (.other "closed")).message, .of 6 0⟩ ∧
            result.1.2.released.map TrackedOrder.remaining = [.of 6 0])) = true := by
    decide +kernel
  obtain ⟨p, configured, works⟩ := Checked.toOption_any works
  obtain ⟨⟨⟨outcome, after⟩, t⟩, led, works⟩ := Checked.toOption_any works
  obtain ⟨record, hedged, works⟩ := (Option.any_eq_true _ _).1 works
  obtain ⟨⟨⟨outcome', after'⟩, t'⟩, led', works⟩ := Checked.toOption_any works
  obtain rfl := HedgeOutcome.record?_eq_some.1 hedged
  obtain ⟨rfl, six⟩ := of_decide_eq_true works
  obtain ⟨rfl, ⟨turns, noted, settles⟩, turns', noted', settles'⟩ :=
    @settled_alike _ .rounding _ _ _ _ _ _ _ _ _ _ _ _ _ _ led led'
  refine ⟨p, record, _, _, turns, turns', configured, ⟨t, noted⟩, ⟨t', noted'⟩,
    settles.hedged.1 ⟨record, rfl⟩, ?_, six⟩
  intro turn sent
  refine Bool.eq_false_iff.2 fun granted => ?_
  obtain ⟨_, impossible⟩ := settles'.hedged.2 ⟨turn, sent, granted⟩
  cases impossible

end Hedging

end MarketMaker
