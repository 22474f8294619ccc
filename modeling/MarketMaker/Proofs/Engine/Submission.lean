import MarketMaker.Proofs.Engine.Coverage
import MarketMaker.Proofs.Venue.Limits
/-!
What happens to a hedge when it is sent. Its limit is the average price of the fill's size with the
slippage buffer, so the levels beyond the limit are not reached: the taker executes what the others
offer, and the rest of the hedge waits at its limit.
-/

namespace MarketMaker

open Decimal

/-- The hedge that a record tells of: its limit, its profit and the order that the taker accepted. -/
structure Sent [Arithmetic] (p : Parameters) (fill : Fill) (record : HedgeRecord)
    (before after : SimulatedVenue) : Prop where
  limit : ∃ executable,
    before.executablePrice p.taker.pair fill.side.opposite fill.amount = .ok (.ok executable) ∧
      p.protectivePrice executable fill.side.opposite = .ok record.hedgePrice
  side : record.hedgeSide = fill.side.opposite
  placed : before.placeOrder p.taker.pair record.hedgeSide record.hedgeAmount .limit
    record.hedgePrice = .ok (.ok record.hedgeOrderId, after)
  residual : fill.amount.sub record.hedgeAmount = .ok record.unhedgedResidual
  profit : potentialProfit fill.side fill.price record.hedgePrice record.hedgeAmount p.makerFee
    p.takerFee = .ok record.profit

/-- The record of a hedge that was sent. -/
def HedgeOutcome.record? : HedgeOutcome → Option HedgeRecord
  | hedged record => some record
  | _ => none

theorem HedgeOutcome.record?_eq_some {outcome : HedgeOutcome} {record : HedgeRecord} :
    outcome.record? = some record ↔ outcome = hedged record := by
  cases outcome <;> simp [record?]

namespace Hedging

open Act Session

variable [Arithmetic] {world next : Venues} {p : Parameters} {fill : Fill} {record : HedgeRecord}
  {book after : QuoteBook}

omit [Arithmetic] in
/-- An attempt goes on after the requests that were granted. -/
theorem leads_require_bind_ok {α β : Type} {reason : String → UnhedgedReason}
    {call : Call Venues α} {f : α → Attempt Venues β} {b : β}
    (led : Leads (require reason call >>= f).run world (.ok b) next) :
    ∃ a u, Leads call.run world (.ok a) u ∧ Leads (f a).run u (.ok b) next := by
  rcases leads_require_cases led with ⟨e, -, impossible⟩ | led
  · cases impossible
  · exact led

theorem attempt_sent {remaining : Decimal}
    (led : Leads (attempt desk p fill remaining).run world (.ok record) next) :
    ∃ v, next = (world.1, v) ∧ Sent p fill record world.2 v := by
  rw [attempt] at led
  obtain ⟨executable, u, asked, priced⟩ := leads_require_bind_ok led
  obtain ⟨asks, rfl⟩ := leads_taker_ask.1 asked
  obtain ⟨price, protects, sized⟩ := leads_run_lift_bind.1 priced
  obtain ⟨wanted, -, sized⟩ := leads_run_lift_bind.1 sized
  obtain ⟨adjusted, v, asked', rounded⟩ := leads_require_bind_ok sized
  obtain ⟨adjusts, rfl⟩ := leads_taker_ask.1 asked'
  rw [SimulatedVenue.adjusted_eq adjusts] at rounded
  obtain ⟨amount, -, checked⟩ := leads_run_lift_bind.1 rounded
  split at checked
  next =>
    obtain ⟨impossible, -⟩ := leads_run_throw.1 checked
    cases impossible
  next =>
    obtain ⟨residual, left, counted⟩ := leads_run_lift_bind.1 checked
    obtain ⟨profit, earned, sending⟩ := leads_run_lift_bind.1 counted
    obtain ⟨id, w, sent, recorded⟩ := leads_require_bind_ok sending
    obtain ⟨taker, placed, rfl⟩ := leads_taker_place.1 sent
    obtain ⟨same, rfl⟩ := leads_run_pure.1 recorded
    obtain rfl := Except.ok.inj same
    exact ⟨taker, rfl, ⟨executable, asks, protects⟩, rfl, placed, left, earned⟩

end Hedging

namespace Engine

open Act Session

variable [Arithmetic] {world next : Venues} {e e' : Engine} {fill : Fill} {record : HedgeRecord}
  {book : OrderBook}

/-- A fill that is handled as hedged has sent one order to the taker. -/
theorem onFill_sent (led : Leads (e.onFill desk fill) world (.hedged record, e') next) :
    ∃ v, next = (world.1, v) ∧ Sent e.params fill record world.2 v := by
  rw [onFill, leads_bind] at led
  obtain ⟨⟨outcome, book⟩, u, handled, led⟩ := led
  rw [leads_bind] at led
  obtain ⟨counted, w, lifted, led⟩ := led
  obtain ⟨-, rfl⟩ := leads_lift.1 lifted
  obtain ⟨rfl, -, rfl⟩ := leads_pure_pair.1 led
  rw [Hedging.handle, leads_bind] at handled
  obtain ⟨⟨answer, settled⟩, u, lifted, handled⟩ := handled
  obtain ⟨-, rfl⟩ := leads_lift.1 lifted
  cases answer with
  | none =>
    obtain ⟨impossible, -⟩ := leads_pure.1 handled
    cases impossible
  | some remaining =>
    dsimp only at handled
    rw [leads_bind] at handled
    obtain ⟨r, w, tried, handled⟩ := handled
    cases r with
    | ok sent =>
      obtain ⟨same, rfl⟩ := leads_pure.1 handled
      obtain rfl := HedgeOutcome.hedged.inj (Prod.mk.inj same).1
      exact Hedging.attempt_sent tried
    | error reason =>
      obtain ⟨impossible, -⟩ := leads_pure.1 handled
      cases impossible

/-- At submission a hedge executes what the taker's book offers within the hedge's limit, and no more
than its amount; the difference rests. So all of it executes exactly if the book offers that much. -/
theorem hedge_executed (exact : Arithmetic.ExactSums) (reached : world.2.Reached)
    (found : world.2.bookOf e.params.taker.pair = .ok book) (positive : book.Positive)
    (sorted : book.Sorted) (led : Leads (e.onFill desk fill) world (.hedged record, e') next) :
    ∃ entry, next.2.logged? record.hedgeOrderId = some entry ∧
      (entry.pair = e.params.taker.pair ∧ entry.side = record.hedgeSide ∧
        entry.amount = record.hedgeAmount ∧ entry.price = record.hedgePrice) ∧
      entry.executed.value =
        min (Level.depth (book.offered record.hedgeSide (some record.hedgePrice)))
          record.hedgeAmount.value ∧
      RestingOrder.quantityOf next.2.resting record.hedgeOrderId =
        record.hedgeAmount.value - entry.executed.value ∧
      (entry.executed.value = record.hedgeAmount.value ∧ next.2.find? record.hedgeOrderId = none ↔
        record.hedgeAmount.value ≤
          Level.depth (book.offered record.hedgeSide (some record.hedgePrice))) := by
  obtain ⟨v, rfl, sent⟩ := onFill_sent led
  obtain ⟨entry, entered, terms, executed, rests, complete⟩ :=
    SimulatedVenue.placeOrder_limit exact reached.healthy.sound found positive.fair sorted sent.placed
  refine ⟨entry, entered, terms, executed, rests, ?_⟩
  rw [complete, and_self, executed, min_eq_right_iff]

/-- A venue with this fee that holds this much of either asset, with this book. -/
def bookedVenue (name : String) (fee plenty : Decimal) (book : OrderBook) : SimulatedVenue :=
  { SimulatedVenue.funded name fee ⟨0⟩ [("DOGE", plenty), ("USDT", plenty)] with
    books := [(book.pair, book)] }

def bookedVenues (fee plenty : Decimal) (maker taker : OrderBook) : Venues :=
  (bookedVenue "okx" fee plenty maker, bookedVenue "binance" fee plenty taker)

theorem bookedVenue_reached (name : String) (fee plenty : Decimal) (book : OrderBook) :
    (bookedVenue name fee plenty book).Reached := by
  have opened : (SimulatedVenue.funded name fee ⟨0⟩ [("DOGE", plenty), ("USDT", plenty)]).setBook
      book = .ok ([], bookedVenue name fee plenty book) := rfl
  exact (SimulatedVenue.reached_funded name fee ⟨0⟩ _).setBook opened

omit [Arithmetic] in
theorem bookedVenue_fair {name : String} {fee plenty : Decimal} {book : OrderBook}
    (fair : book.Fair) : (bookedVenue name fee plenty book).FairBooks := by
  intro pair other found
  have looked : SimulatedVenue.bookOf { bookedVenue name fee plenty book with
      books := Table.put book.pair book [] } pair = .ok other := found
  rcases SimulatedVenue.bookOf_put (v := { bookedVenue name fee plenty book with books := [] })
    looked with rfl | none
  · exact fair
  · cases none

/-- What a first tick on these venues and then this fill lead to, and the taker after it. -/
def firstFill (config : Config) (venues : Venues) (fill : Fill) :
    Option (HedgeOutcome × SimulatedVenue) := do
  let p ← config.parameters.toOption
  let ((_, e), next) ← (((new p).onTick desk ⟨0⟩).run venues).toOption
  let ((outcome, _), last) ← ((e.onFill desk fill).run next).toOption
  return (outcome, last.2)

theorem firstFill_ok {config : Config} {venues : Venues} {outcome : HedgeOutcome}
    {taker : SimulatedVenue} (reached : venues.1.Reached)
    (done : firstFill config venues fill = some (outcome, taker)) :
    ∃ (p : Parameters) (e : Engine) (next : Venues) (e' : Engine) (last : Venues),
      config.parameters = .ok p ∧ e.params = p ∧ next.2 = venues.2 ∧
      Leads (e.onFill desk fill) next (outcome, e') last ∧ last.2 = taker := by
  have unwrap : ∀ {ε α : Type} {x : Except ε α} {a : α}, x.toOption = some a → x = .ok a := by
    intro ε α x a found
    cases x <;> simp_all [Except.toOption]
  simp only [firstFill, Option.bind_eq_bind, Option.bind_eq_some_iff, Option.pure_def,
    Option.some.injEq, Prod.mk.injEq, Prod.exists] at done
  obtain ⟨p, configured, report, e, maker, other, ticked, outcome', e', maker', taker', handled, rfl,
    rfl⟩ := done
  obtain ⟨same, updated, -⟩ := onTick_moves .empty reached.healthy.sound QuoteBook.sided_empty (unwrap ticked)
  exact ⟨p, e, (maker, other), e', (maker', taker'), unwrap configured, by rw [updated]; rfl, same,
    unwrap handled, rfl⟩

/-- Few bids at the best price, and the others far below. -/
def steepBook : OrderBook :=
  ⟨tenPair, ⟨0⟩, [⟨.of 100 0, .of 5 0⟩, ⟨.of 90 0, .of 1000 0⟩], [⟨.of 101 0, .of 1000 0⟩]⟩

/-- A fill of the bid that the first tick places. -/
def bidFill (price amount : Decimal) : Fill :=
  ⟨"okx-1", tenPair, .buy, price, amount, ⟨0⟩⟩

omit [Arithmetic] in
/-- A fill of four needs no more than the best bid offers. -/
theorem hedge_executed_four : ∃ record taker entry,
    @firstFill .strict tenConfig (bookedVenues 0 (.of 10000 0) wideBook steepBook)
      (bidFill (.of 94696 3) (.of 4 0)) = some (.hedged record, taker) ∧
    taker.logged? record.hedgeOrderId = some entry ∧ entry.executed.value = 4 ∧
    record.hedgeAmount.value = 4 ∧ taker.find? record.hedgeOrderId = none := by
  have works : (@firstFill .strict tenConfig (bookedVenues 0 (.of 10000 0) wideBook steepBook)
      (bidFill (.of 94696 3) (.of 4 0))).any (fun handled => handled.1.record?.any fun record =>
        decide (record.hedgeAmount.value = 4 ∧
          4 ≤ Level.depth (steepBook.offered record.hedgeSide (some record.hedgePrice)))) = true := by
    decide +kernel
  obtain ⟨⟨outcome, taker⟩, done, works⟩ := (Option.any_eq_true _ _).1 works
  obtain ⟨record, hedged, works⟩ := (Option.any_eq_true _ _).1 works
  obtain rfl := HedgeOutcome.record?_eq_some.1 hedged
  obtain ⟨four, deep⟩ := of_decide_eq_true works
  have reached := @bookedVenue_reached .strict
  obtain ⟨p, e, next, e', last, configured, params, same, handled, rfl⟩ :=
    @firstFill_ok .strict _ _ _ _ _ (reached _ _ _ _) done
  have pair : e.params.taker.pair = tenPair := by
    have given : (tenConfig.parameters.toOption.all fun p => decide (p.taker.pair = tenPair)) =
        true := by decide
    rw [params]
    exact of_decide_eq_true (Checked.toOption_all.1 given p configured)
  have found : next.2.bookOf e.params.taker.pair = .ok steepBook := by
    rw [same, pair]
    rfl
  obtain ⟨entry, entered, -, -, -, complete⟩ := @hedge_executed .strict _ _ _ _ _ _ _
    Arithmetic.strict_exact (same ▸ reached _ _ _ _) found (by decide) (by decide) handled
  obtain ⟨whole, gone⟩ := complete.2 (four ▸ deep)
  exact ⟨record, _, entry, done, entered, whole.trans four, four, gone⟩

/-- Bids at one price whose amounts have no exact sum among the decimals, and one below. -/
def vastBook : OrderBook :=
  ⟨tenPair, ⟨0⟩, [⟨1, .of 5 1⟩, ⟨1, .of 10000000000000000000000000001 0⟩, ⟨.of 9 1, .of 5 0⟩],
    [⟨.of 101 2, .of 20000000000000000000000000000 0⟩]⟩

/-- A maker around that price. -/
def vastWideBook : OrderBook :=
  ⟨tenPair, ⟨0⟩, [⟨.of 9 1, .of 20000000000000000000000000000 0⟩],
    [⟨.of 11 1, .of 20000000000000000000000000000 0⟩]⟩

def vastConfig : Config :=
  { strategy := { orderAmount := .of 10000000000000000000000000001 0, makerFee := 0, takerFee := 0 } }

omit [Arithmetic] in
/-- Half of a hedge rests where its limit leaves out the second best bid. Where a sum is rounded a unit
rests, although the bids within the limit offer enough. -/
theorem hedge_rests :
    (steepBook.Positive ∧ steepBook.Sorted ∧ ∃ record taker,
      @firstFill .rounding tenConfig (bookedVenues 0 (.of 10000 0) wideBook steepBook)
        (bidFill (.of 94696 3) (.of 10 0)) = some (.hedged record, taker) ∧
      record.hedgeAmount = .of 10 0 ∧
      (taker.logged? record.hedgeOrderId).map OrderEntry.executed = some (.of 5 0) ∧
      (taker.find? record.hedgeOrderId).map RestingOrder.quantity = some (.of 5 0)) ∧
    vastBook.Positive ∧ vastBook.Sorted ∧ ∃ record taker,
      @firstFill .rounding vastConfig
        (bookedVenues 0 (.of 50000000000000000000000000000 0) vastWideBook vastBook)
        (bidFill (.of 9968 4) vastConfig.strategy.orderAmount) = some (.hedged record, taker) ∧
      record.hedgeAmount.value ≤
        Level.depth (vastBook.offered record.hedgeSide (some record.hedgePrice)) ∧
      (taker.logged? record.hedgeOrderId).map OrderEntry.executed =
        some (.of 10000000000000000000000000000 0) ∧
      (taker.find? record.hedgeOrderId).map RestingOrder.quantity = some 1 := by
  have works : (@firstFill .rounding tenConfig (bookedVenues 0 (.of 10000 0) wideBook steepBook)
      (bidFill (.of 94696 3) (.of 10 0))).any (fun handled => handled.1.record?.any fun record =>
        decide (record.hedgeAmount = .of 10 0 ∧
          (handled.2.logged? record.hedgeOrderId).map OrderEntry.executed = some (.of 5 0) ∧
          (handled.2.find? record.hedgeOrderId).map RestingOrder.quantity = some (.of 5 0))) =
      true := by
    decide +kernel
  have works' : (@firstFill .rounding vastConfig
      (bookedVenues 0 (.of 50000000000000000000000000000 0) vastWideBook vastBook)
      (bidFill (.of 9968 4) vastConfig.strategy.orderAmount)).any (fun handled =>
        handled.1.record?.any fun record => decide (record.hedgeAmount.value ≤
            Level.depth (vastBook.offered record.hedgeSide (some record.hedgePrice)) ∧
          (handled.2.logged? record.hedgeOrderId).map OrderEntry.executed =
            some (.of 10000000000000000000000000000 0) ∧
          (handled.2.find? record.hedgeOrderId).map RestingOrder.quantity = some 1)) = true := by
    decide +kernel
  obtain ⟨⟨outcome, taker⟩, done, works⟩ := (Option.any_eq_true _ _).1 works
  obtain ⟨record, hedged, works⟩ := (Option.any_eq_true _ _).1 works
  obtain rfl := HedgeOutcome.record?_eq_some.1 hedged
  obtain ⟨⟨outcome', taker'⟩, done', works'⟩ := (Option.any_eq_true _ _).1 works'
  obtain ⟨record', hedged', works'⟩ := (Option.any_eq_true _ _).1 works'
  obtain rfl := HedgeOutcome.record?_eq_some.1 hedged'
  exact ⟨⟨by decide, by decide, record, taker, done, of_decide_eq_true works⟩, by decide, by decide,
    record', taker', done', of_decide_eq_true works'⟩

end Engine

end MarketMaker
