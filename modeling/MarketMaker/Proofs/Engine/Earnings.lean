import MarketMaker.Proofs.Engine.Submission
import MarketMaker.Proofs.Venue.Reports
/-!
What a hedge earns. The recorded profit is the cash of the fill and of its hedge, had all of the hedge
executed at its limit. The taker never executes it at a worse price, so the cash of its fills is at
least as much once all of it has executed.
-/

namespace MarketMaker

open Decimal

/-- What the fills of an order do to the holdings of the quote. -/
def Fill.cashOf (rate : ℚ) (fills : List Fill) (id : OrderId) : ℚ :=
  ((fills.filter fun fill => fill.orderId = id).map fun fill => (Exchange.ofFill fill).cash rate).sum

/-- What one unit brings at a price, its fee taken off. -/
def Side.cash (side : Side) (rate price : ℚ) : ℚ :=
  -side.signed price - rate * price

/-- A price that is no worse brings no less cash. -/
theorem Side.cash_mono {side : Side} {rate price limit : ℚ} (rates : 0 ≤ rate ∧ rate ≤ 1)
    (le : side.signed price ≤ side.signed limit) : side.cash rate limit ≤ side.cash rate price := by
  obtain ⟨nonneg, most⟩ := rates
  cases side with
  | buy =>
    have costs : price * (1 + rate) ≤ limit * (1 + rate) :=
      mul_le_mul_of_nonneg_right le (by linarith)
    simp only [cash, signed]
    linarith
  | sell =>
    have earns : limit * (1 - rate) ≤ price * (1 - rate) :=
      mul_le_mul_of_nonneg_right (neg_le_neg_iff.1 le) (by linarith)
    simp only [cash, signed]
    linarith

namespace Exchange

variable {side : Side} {rate limit : ℚ} {fills : List Fill}

theorem cash_ofFill (fill : Fill) : (ofFill fill).cash rate =
    fill.amount.value * fill.side.cash rate fill.price.value := by
  cases side : fill.side <;> simp only [ofFill, cash, fee, Side.cash, Side.signed, side] <;> ring

/-- Executions at prices no worse than a limit bring at least the cash of all of it at the limit. -/
theorem cash_sum_le (rates : 0 ≤ rate ∧ rate ≤ 1)
    (within : ∀ fill ∈ fills, fill.side = side ∧ 0 ≤ fill.amount.value ∧
      side.signed fill.price.value ≤ side.signed limit) :
    (fills.map fun fill => fill.amount.value).sum * side.cash rate limit ≤
      (fills.map fun fill => (ofFill fill).cash rate).sum := by
  rw [← List.sum_map_mul_right]
  apply List.sum_le_sum
  intro fill member
  obtain ⟨rfl, nonneg, le⟩ := within fill member
  rw [cash_ofFill]
  exact mul_le_mul_of_nonneg_left (Side.cash_mono rates le) nonneg

/-- At the limit they bring exactly that. -/
theorem cash_sum_eq
    (same : ∀ fill ∈ fills, fill.side = side ∧ fill.price.value = limit) :
    (fills.map fun fill => (ofFill fill).cash rate).sum =
      (fills.map fun fill => fill.amount.value).sum * side.cash rate limit := by
  rw [← List.sum_map_mul_right]
  congr 1
  apply List.map_congr_left
  intro fill member
  obtain ⟨rfl, rfl⟩ := same fill member
  exact cash_ofFill fill

end Exchange

/-- What fills do to the holdings of the quote, split into an order of this pair and the others. -/
theorem Fill.flow_eq {rate : ℚ} {fills : List Fill} {id : OrderId} {pair : Pair}
    (apart : pair.base ≠ pair.quote) (own : ∀ fill ∈ fills, fill.orderId = id → fill.pair = pair) :
    (fills.map fun fill => (Exchange.ofFill fill).flow rate pair.quote).sum =
      Fill.cashOf rate fills id + ((fills.filter fun fill => ¬ fill.orderId = id).map fun fill =>
        (Exchange.ofFill fill).flow rate pair.quote).sum := by
  have split := ((List.filter_append_perm (fun fill : Fill => decide (fill.orderId = id)) fills).map
    fun fill => (Exchange.ofFill fill).flow rate pair.quote).sum_eq
  have cash : (fills.filter fun fill => fill.orderId = id).map (fun fill =>
      (Exchange.ofFill fill).flow rate pair.quote) =
      (fills.filter fun fill => fill.orderId = id).map fun fill =>
        (Exchange.ofFill fill).cash rate := by
    apply List.map_congr_left
    intro fill member
    obtain ⟨reported, same⟩ := List.mem_filter.1 member
    obtain rfl := own fill reported (by simpa using same)
    exact Exchange.flow_quote apart
  rw [List.map_append, List.sum_append, cash] at split
  rw [← split, Fill.cashOf]
  simp

variable [Arithmetic]

/-- The recorded profit is what each unit brings in both orders, each at its price. -/
theorem potentialProfit_eq (exact : Arithmetic.Exact) {side : Side}
    {fillPrice hedgePrice amount makerFee takerFee profit : Decimal}
    (done : potentialProfit side fillPrice hedgePrice amount makerFee takerFee = .ok profit) :
    profit.value = amount.value * (side.cash makerFee.value fillPrice.value +
      side.opposite.cash takerFee.value hedgePrice.value) := by
  cases side
  all_goals
    simp only [potentialProfit, Checked.bind_ok] at done
    obtain ⟨kept, less, received, sold, charged, more, paid, bought, unit, net, times⟩ := done
    rw [exact.products times, exact.sums.sub net, exact.products sold, exact.sums.sub less,
      exact.products bought, exact.sums.add more, value_one]
    simp only [Side.cash, Side.signed, Side.opposite]
    ring

namespace Engine

open Act Session SimulatedVenue

variable {world next : Venues} {e e' : Engine} {fill : Fill} {record : HedgeRecord}
  {operations : List Operation} {exchanges : List Exchange} {v : SimulatedVenue}

/-- Everything that a hedge executes, at once or later, is reported at a price no worse than its limit. -/
theorem hedge_reports (exact : Arithmetic.Exact) (reached : world.2.Reached)
    (fair : world.2.FairBooks)
    (handled : Leads (e.onFill desk fill) world (.hedged record, e') next)
    (allowed : ∀ operation ∈ operations, operation.Fair)
    (ran : next.2.run operations = .ok (exchanges, v)) :
    ∃ fills, Reports fills world.2 v ∧ ∀ x ∈ fills, x.orderId = record.hedgeOrderId →
      x.pair = e.params.taker.pair ∧ x.side = record.hedgeSide ∧ 0 < x.amount.value ∧
      record.hedgeSide.signed x.price.value ≤ record.hedgeSide.signed record.hedgePrice.value := by
  obtain ⟨taker, rfl, sent⟩ := onFill_sent handled
  have reached' : taker.Reached := reached.placeOrder sent.placed
  rcases placeOrder_cases sent.placed with
    ⟨_, _, impossible, -⟩ | ⟨book, t, _, same, positive, found, terms, -, accepted⟩
  · cases impossible
  obtain rfl := Except.ok.inj same
  obtain ⟨waits, first, reports, limited⟩ :=
    reports_accept exact reached.healthy.sound (fair found) positive terms accepted
  obtain ⟨-, -, -, entered, -⟩ := sound_accept reached.healthy.sound accepted
  obtain ⟨more, reports'⟩ := reports_run exact reached' (fair.congr (placeOrder_books sent.placed))
    allowed ran
  have both := reports.trans reports'
  obtain ⟨-, priced⟩ := reports'.waits waits
  have sound := (run_reached reached' ran).healthy.sound
  refine ⟨first ++ more, both, fun x member hedge => ?_⟩
  -- An id has one pair and one side, those that its order was accepted with.
  obtain ⟨known, some'⟩ := both.backed x member
  obtain ⟨samePair, sameSide⟩ :=
    sound.accepted_unique (hedge ▸ known) (entered.mono reports'.later)
  refine ⟨samePair, sameSide, some', ?_⟩
  rcases List.mem_append.1 member with atOnce | afterwards
  · exact (limited x atOnce).2 rfl
  · rw [priced x afterwards hedge]

/-- The quote that a fill and the executions of its hedge bring together, fees taken off, is at least the
recorded profit once all of the hedge has executed, and equal to it where everything executed at the
hedge's limit. The executions' share is what the taker's holdings of the quote changed by, the fills of
other orders aside. -/
theorem profit_le_cash (exact : Arithmetic.Exact) {config : Config}
    (configured : config.parameters = .ok e.params) (reached : world.2.Reached)
    (rate : world.2.feeRate = e.params.takerFee) (fair : world.2.FairBooks)
    (handled : Leads (e.onFill desk fill) world (.hedged record, e') next)
    (whole : record.unhedgedResidual.value = 0)
    (allowed : ∀ operation ∈ operations, operation.Fair)
    (ran : next.2.run operations = .ok (exchanges, v)) :
    ∃ fills, v.outbox = world.2.outbox ++ fills ∧
      (e.params.taker.pair.base ≠ e.params.taker.pair.quote →
        v.holdings e.params.taker.pair.quote = world.2.holdings e.params.taker.pair.quote +
          (Fill.cashOf e.params.takerFee.value fills record.hedgeOrderId +
            ((fills.filter fun x => ¬ x.orderId = record.hedgeOrderId).map fun x =>
              (Exchange.ofFill x).flow e.params.takerFee.value e.params.taker.pair.quote).sum)) ∧
      ((Fill.amountsOf fills record.hedgeOrderId).sum = record.hedgeAmount.value →
        record.profit.value ≤ (Exchange.ofFill fill).cash e.params.makerFee.value +
            Fill.cashOf e.params.takerFee.value fills record.hedgeOrderId ∧
          ((∀ x ∈ fills, x.orderId = record.hedgeOrderId → x.price.value = record.hedgePrice.value) →
            record.profit.value = (Exchange.ofFill fill).cash e.params.makerFee.value +
              Fill.cashOf e.params.takerFee.value fills record.hedgeOrderId)) := by
  obtain ⟨fills, reports, executions⟩ := hedge_reports exact reached fair handled allowed ran
  obtain ⟨taker, -, sent⟩ := onFill_sent handled
  obtain ⟨-, feeNonneg, feeLess⟩ := Config.parameters_rates configured
  have hedged : record.hedgeAmount.value = fill.amount.value := by
    have left := exact.sums.sub sent.residual
    rw [whole] at left
    linarith
  have profit : record.profit.value =
      (Exchange.ofFill fill).cash e.params.makerFee.value + record.hedgeAmount.value *
        record.hedgeSide.cash e.params.takerFee.value record.hedgePrice.value := by
    rw [potentialProfit_eq exact sent.profit, Exchange.cash_ofFill, sent.side, hedged, mul_add]
  have own : ∀ x ∈ fills.filter (fun x => x.orderId = record.hedgeOrderId),
      x ∈ fills ∧ x.orderId = record.hedgeOrderId := by
    intro x member
    simpa using List.mem_filter.1 member
  refine ⟨fills, reports.outbox, fun apart => ?_, fun complete => ⟨?_, fun same => ?_⟩⟩
  · have holds := reports.balanced.holdings e.params.taker.pair.quote
    rw [rate, List.map_map] at holds
    rw [holds, ← Fill.flow_eq apart fun x member hedge => (executions x member hedge).1]
    rfl
  · rw [profit, ← complete]
    gcongr
    refine Exchange.cash_sum_le ⟨feeNonneg, feeLess.le⟩ fun x member => ?_
    obtain ⟨reported, hedge⟩ := own x member
    obtain ⟨-, sameSide, positive, le⟩ := executions x reported hedge
    exact ⟨sameSide, positive.le, le⟩
  · rw [profit, ← complete, Fill.cashOf, Exchange.cash_sum_eq, Fill.amountsOf]
    intro x member
    obtain ⟨reported, hedge⟩ := own x member
    exact ⟨(executions x reported hedge).2.1, same x reported hedge⟩

/-- An engine that tracks one quote. -/
def tracking (p : Parameters) (side : Side) (price amount : Decimal) : Engine :=
  { new p with
    book := QuoteBook.empty.setTracked side (some (.new "okx-1" side price amount ⟨0⟩)) }

/-- Orders for ten, with a fee of a thousandth on either venue. -/
def feeConfig : Config :=
  { strategy := { orderAmount := .of 10 0, makerFee := .of 1 3, takerFee := .of 1 3 } }

/-- Two levels of bids, half of an order each. -/
def slopedBook : OrderBook :=
  ⟨tenPair, ⟨0⟩, [⟨.of 100 0, .of 5 0⟩, ⟨.of 99 0, .of 5 0⟩], [⟨.of 101 0, .of 1000 0⟩]⟩

/-- The bids have come back to the average of the sloped ones. -/
def levelBook : OrderBook :=
  ⟨tenPair, ⟨0⟩, [⟨.of 995 1, .of 10 0⟩], [⟨.of 101 0, .of 1000 0⟩]⟩

omit [Arithmetic] in
/-- Half of the hedge executes at the best bid, above its limit, and half rests until the bids are back. -/
theorem profit_le_cash_sloped : ∃ p record e' next exchanges v, feeConfig.parameters = .ok p ∧
    Leads (@onFill _ .faithful (@desk .faithful) (bidFill (.of 98 0) (.of 10 0))
        (tracking p .buy (.of 98 0) (.of 10 0)))
      (bookedVenues (.of 1 3) (.of 10000 0) wideBook slopedBook) (.hedged record, e') next ∧
    @run .faithful next.2 [.setBook levelBook] = .ok (exchanges, v) ∧
    v.outbox.map (fun x => (x.price, x.amount)) =
      [(.of 100 0, .of 5 0), (.of 99480100 6, .of 5 0)] ∧
    record.profit.value ≤
      (Exchange.ofFill (bidFill (.of 98 0) (.of 10 0))).cash p.makerFee.value +
        Fill.cashOf p.takerFee.value v.outbox record.hedgeOrderId := by
  have works : feeConfig.parameters.toOption.any (fun p =>
      decide (p.takerFee = .of 1 3) &&
      ((@onFill _ .faithful (@desk .faithful) (bidFill (.of 98 0) (.of 10 0))
        (tracking p .buy (.of 98 0) (.of 10 0))).run
          (bookedVenues (.of 1 3) (.of 10000 0) wideBook slopedBook)).toOption.any fun handled =>
        handled.1.1.record?.any fun record => decide (record.unhedgedResidual.value = 0) &&
          (@run .faithful handled.2.2 [.setBook levelBook]).toOption.any fun ran =>
            decide (ran.2.outbox.map (fun x => (x.price, x.amount)) =
                [(.of 100 0, .of 5 0), (.of 99480100 6, .of 5 0)] ∧
              (Fill.amountsOf ran.2.outbox record.hedgeOrderId).sum = record.hedgeAmount.value)) =
      true := by
    decide +kernel
  obtain ⟨p, configured, works⟩ := Checked.toOption_any works
  obtain ⟨fee, works⟩ := Bool.and_eq_true_iff.1 works
  obtain ⟨⟨⟨outcome, e'⟩, next⟩, handled, works⟩ := Checked.toOption_any works
  obtain ⟨record, hedged, works⟩ := (Option.any_eq_true _ _).1 works
  obtain rfl := HedgeOutcome.record?_eq_some.1 hedged
  obtain ⟨whole, works⟩ := Bool.and_eq_true_iff.1 works
  obtain ⟨⟨exchanges, v⟩, ran, works⟩ := Checked.toOption_any works
  obtain ⟨executed, complete⟩ := of_decide_eq_true works
  obtain ⟨fills, outbox, -, earns⟩ := @profit_le_cash .faithful
    (bookedVenues (.of 1 3) (.of 10000 0) wideBook slopedBook) next
    (tracking p .buy (.of 98 0) (.of 10 0)) e' (bidFill (.of 98 0) (.of 10 0)) record
    [.setBook levelBook] exchanges v Arithmetic.faithful_exact feeConfig configured
    (@bookedVenue_reached .faithful _ _ _ _) (of_decide_eq_true fee).symm
    (bookedVenue_fair (by decide)) handled (of_decide_eq_true whole) (by decide) ran
  have all : fills = v.outbox := outbox.symm
  subst all
  exact ⟨p, record, e', next, exchanges, v, configured, handled, ran, executed, (earns complete).1⟩

end Engine

end MarketMaker
