import MarketMaker.Proofs.Engine.Requests
import MarketMaker.Proofs.QuoteBook
import MarketMaker.Proofs.Venue.Budget
/-!
What a fill leads to: the quote book settles it, and unless it is ignored at most one order goes to
the taker. The maker's venue is not touched.
-/

namespace MarketMaker

/-- The hedge of a fill as the taker accepted it. -/
structure Submitted [Arithmetic] (p : Parameters) (fill : Fill) (record : HedgeRecord)
    (before after : SimulatedVenue) : Prop where
  executable : ∃ price,
    before.executablePrice p.taker.pair fill.side.opposite fill.amount = .ok (.ok price)
  accepted : ∃ price, before.placeOrder p.taker.pair fill.side.opposite record.hedgeAmount .limit
    price = .ok (.ok record.hedgeOrderId, after)
  residual : fill.amount.sub record.hedgeAmount = .ok record.unhedgedResidual
  fillOrderId : record.fillOrderId = fill.orderId
  fillSide : record.fillSide = fill.side
  fillAmount : record.fillAmount = fill.amount

namespace Hedging

open Act Session

variable [Arithmetic] {world next : Venues} {p : Parameters} {fill : Fill}
  {book after : QuoteBook} {outcome : HedgeOutcome}

omit [Arithmetic] in
theorem leads_require {α : Type} {reason : String → UnhedgedReason} {call : Call Venues α}
    {r : Except UnhedgedReason α} (led : Leads (require reason call).run world r next) :
    ∃ reply, Leads call.run world reply next ∧
      r = reply.mapError fun e => reason e.message := by
  rw [require, leads_run_bind] at led
  rcases led with ⟨e, asked, -⟩ | ⟨reply, u, asked, led⟩
  · obtain ⟨_, impossible, -⟩ := leads_run_act.1 asked
    cases impossible
  · obtain ⟨_, same, asked⟩ := leads_run_act.1 asked
    obtain rfl := Except.ok.inj same
    match reply with
    | .ok x =>
      obtain ⟨rfl, rfl⟩ := leads_run_pure.1 led
      exact ⟨_, asked, rfl⟩
    | .error e =>
      obtain ⟨rfl, rfl⟩ := leads_run_throw.1 led
      exact ⟨_, asked, rfl⟩

omit [Arithmetic] in
/-- A refused request ends the attempt. -/
theorem leads_require_cases {α β : Type} {reason : String → UnhedgedReason} {call : Call Venues α}
    {f : α → Attempt Venues β} {r : Except UnhedgedReason β}
    (led : Leads (require reason call >>= f).run world r next) :
    (∃ e, Leads call.run world (.error e) next ∧ r = .error (reason e.message)) ∨
      ∃ x u, Leads call.run world (.ok x) u ∧ Leads (f x).run u r next := by
  rw [leads_run_bind] at led
  rcases led with ⟨failure, required, failed⟩ | ⟨x, u, required, led⟩
  · obtain ⟨reply, asked, answered⟩ := leads_require required
    cases reply with
    | ok x => cases answered
    | error e =>
      obtain rfl := Except.error.inj answered
      exact .inl ⟨e, asked, failed⟩
  · obtain ⟨reply, asked, answered⟩ := leads_require required
    cases reply with
    | ok y =>
      obtain rfl := Except.ok.inj answered
      exact .inr ⟨x, u, asked, led⟩
    | error e => cases answered

omit [Arithmetic] in
/-- A request that is granted whatever comes of it does not end the attempt. -/
theorem leads_require_bind {α β : Type} {reason : String → UnhedgedReason} {call : Call Venues α}
    {f : α → Attempt Venues β} {r : Except UnhedgedReason β}
    (granted : ∀ {reply u}, Leads call.run world reply u → ∃ x, reply = .ok x)
    (led : Leads (require reason call >>= f).run world r next) :
    ∃ x u, Leads call.run world (.ok x) u ∧ Leads (f x).run u r next := by
  rcases leads_require_cases led with ⟨e, asked, -⟩ | led
  · obtain ⟨x, impossible⟩ := granted asked
    cases impossible
  · exact led

/-- An attempt ends without an order, or with the one that the record tells of. -/
theorem attempt_cases {remaining : Decimal} {r : Except UnhedgedReason HedgeRecord}
    (led : Leads (attempt desk p fill remaining).run world r next) :
    (∃ reason n, r = .error reason ∧ next = (world.1, { world.2 with rejections := n })) ∨
      ∃ record v, r = .ok record ∧ next = (world.1, v) ∧ Submitted p fill record world.2 v := by
  have unsent : ∀ {reason : UnhedgedReason}, r = .error reason → next = world →
      (∃ reason n, r = .error reason ∧ next = (world.1, { world.2 with rejections := n })) ∨
      ∃ record v, r = .ok record ∧ next = (world.1, v) ∧ Submitted p fill record world.2 v :=
    fun {reason} failed same => .inl ⟨reason, world.2.rejections, failed, same⟩
  rw [attempt] at led
  rcases leads_require_cases led with ⟨e, asked, failed⟩ | ⟨executable, u, asked, priced⟩
  · exact unsent failed (passive_taker_ask _ asked)
  obtain ⟨asks, rfl⟩ := leads_taker_ask.1 asked
  obtain ⟨price, -, sized⟩ := leads_run_lift_bind.1 priced
  obtain ⟨wanted, -, sized⟩ := leads_run_lift_bind.1 sized
  rcases leads_require_cases sized with ⟨e, asked', failed⟩ | ⟨adjusted, v, asked', rounded⟩
  · exact unsent failed (passive_taker_ask _ asked')
  obtain ⟨adjusts, rfl⟩ := leads_taker_ask.1 asked'
  rw [SimulatedVenue.adjusted_eq adjusts] at rounded
  obtain ⟨amount, -, checked⟩ := leads_run_lift_bind.1 rounded
  split at checked
  next =>
    obtain ⟨failed, same⟩ := leads_run_throw.1 checked
    exact unsent failed same
  next =>
    obtain ⟨residual, left, recorded⟩ := leads_run_lift_bind.1 checked
    obtain ⟨profit, -, recorded⟩ := leads_run_lift_bind.1 recorded
    rcases leads_require_cases recorded with ⟨e, sent, failed⟩ | ⟨id, w, sent, finished⟩
    · obtain ⟨after, placed, rfl⟩ := leads_taker_place.1 sent
      rcases SimulatedVenue.placeOrder_cases placed with ⟨_, n, -, rfl⟩ | ⟨_, _, _, impossible, -⟩
      · exact .inl ⟨_, n, failed, rfl⟩
      · cases impossible
    · obtain ⟨after, placed, rfl⟩ := leads_taker_place.1 sent
      obtain ⟨rfl, rfl⟩ := leads_run_pure.1 finished
      exact .inr ⟨_, after, rfl, rfl, ⟨_, asks⟩, ⟨_, placed⟩, left, rfl, rfl, rfl⟩

/-- A fill is ignored if the quote book does not know its order, and only then. -/
theorem handle_cases (led : Leads (handle desk p fill book) world (outcome, after) next) :
    ∃ answer, book.settle fill.side fill.orderId fill.amount = .ok (answer, after) ∧
      ((answer = none ∧ outcome = .ignored ∧ next = world) ∨
        (answer ≠ none ∧ ∃ reason remaining n, outcome = .unhedged ⟨fill, reason, remaining⟩ ∧
          next = (world.1, { world.2 with rejections := n })) ∨
        (answer ≠ none ∧ ∃ record v, outcome = .hedged record ∧ next = (world.1, v) ∧
          Submitted p fill record world.2 v)) := by
  rw [handle, leads_bind] at led
  obtain ⟨⟨answer, settled⟩, u, lifted, led⟩ := led
  obtain ⟨settles, rfl⟩ := leads_lift.1 lifted
  refine ⟨answer, ?_⟩
  match answer with
  | none =>
    obtain ⟨rfl, rfl, rfl⟩ := leads_pure_pair.1 led
    exact ⟨settles, .inl ⟨rfl, rfl, rfl⟩⟩
  | some remaining =>
    dsimp only at led
    rw [leads_bind] at led
    obtain ⟨r, w, tried, led⟩ := led
    match r with
    | .ok record =>
      obtain ⟨rfl, rfl, rfl⟩ := leads_pure_pair.1 led
      rcases attempt_cases tried with ⟨_, _, impossible, -⟩ | ⟨_, v, sent, rfl, submitted⟩
      · cases impossible
      · obtain rfl := Except.ok.inj sent
        exact ⟨settles, .inr (.inr ⟨by simp, _, v, rfl, rfl, submitted⟩)⟩
    | .error reason =>
      obtain ⟨rfl, rfl, rfl⟩ := leads_pure_pair.1 led
      rcases attempt_cases tried with ⟨_, n, failed, rfl⟩ | ⟨_, _, impossible, -⟩
      · exact ⟨settles, .inr (.inl ⟨by simp, reason, remaining, n, rfl, rfl⟩)⟩
      · cases impossible

end Hedging

namespace Engine

open Act Session

variable [Arithmetic] {world next : Venues} {e e' : Engine} {fill : Fill} {outcome : HedgeOutcome}

theorem account_ok (done : e.account outcome = .ok e') :
    e'.params = e.params ∧ e'.book = e.book := by
  cases outcome with
  | ignored =>
    cases done
    exact ⟨rfl, rfl⟩
  | hedged record =>
    simp only [account, Checked.bind_ok, Checked.pure_ok] at done
    obtain ⟨profit, -, rfl⟩ := done
    exact ⟨rfl, rfl⟩
  | unhedged fill =>
    cases done
    exact ⟨rfl, rfl⟩

theorem onFill_cases (led : Leads (e.onFill desk fill) world (outcome, e') next) :
    e'.params = e.params ∧
      ∃ answer, e.book.settle fill.side fill.orderId fill.amount = .ok (answer, e'.book) ∧
      ((answer = none ∧ outcome = .ignored ∧ next = world) ∨
        (answer ≠ none ∧ ∃ reason remaining n, outcome = .unhedged ⟨fill, reason, remaining⟩ ∧
          next = (world.1, { world.2 with rejections := n })) ∨
        (answer ≠ none ∧ ∃ record v, outcome = .hedged record ∧ next = (world.1, v) ∧
          Submitted e.params fill record world.2 v)) := by
  rw [onFill, leads_bind] at led
  obtain ⟨⟨outcome', book⟩, u, handled, led⟩ := led
  rw [leads_bind] at led
  obtain ⟨counted, w, lifted, led⟩ := led
  obtain ⟨accounts, rfl⟩ := leads_lift.1 lifted
  obtain ⟨rfl, rfl, rfl⟩ := leads_pure_pair.1 led
  obtain ⟨params, books⟩ := account_ok accounts
  refine ⟨params, ?_⟩
  rw [books]
  exact Hedging.handle_cases handled

end Engine

end MarketMaker
