import MarketMaker.Proofs.Engine.Hedges
import MarketMaker.Proofs.Engine.Prices
import MarketMaker.Proofs.Venue.Depth
import MarketMaker.Proofs.Venue.Funds
/-!
Quotes that can be hedged. A tick that places a quote has seen that the taker's book is deep enough for
the order size, and for a bid that the taker holds the base to sell. For an ask it has not seen that
the taker can pay the price with the slippage buffer and the fee; where it can, each quote is hedged in
full.
-/

namespace MarketMaker

open Decimal

/-! ### What a placed quote has shown -/

namespace Quoting

open Act Session

variable [Arithmetic] {world next : Venues} {p : Parameters} {quotes : MarketQuotes} {side : Side}
  {now : Instant} {book after : QuoteBook} {id : OrderId} {price amount : Decimal}

/-- A bid within its limit asks for no more base than the taker holds. -/
theorem checkPositionLimit_bid
    (led : Leads (checkPositionLimit desk p quotes .buy amount price).run world (.ok true) next) :
    amount ≤ world.2.free p.taker.pair.base := by
  simp only [checkPositionLimit, leads_run_bind_ok] at led
  obtain ⟨maker, u, asked, needed, v, computed, taker, w, asked', amount', x, computed', led⟩ := led
  obtain ⟨-, rfl⟩ := leads_maker_ask.1 asked
  obtain ⟨-, -, -, rfl⟩ := leads_run_lift.1 computed
  obtain ⟨same, rfl⟩ := leads_taker_ask.1 asked'
  obtain ⟨same', rfl⟩ := leads_run_pure.1 computed'
  obtain ⟨within, -⟩ := leads_run_pure.1 led
  obtain rfl := Except.ok.inj same'
  obtain rfl := Except.ok.inj (Except.ok.inj same)
  exact (of_decide_eq_true (Except.ok.inj within).symm).2

theorem attempt_bid
    (led : Leads (attempt desk p quotes .buy).run world (.ok (.placed id price amount)) next) :
    p.orderAmount ≤ world.2.free p.taker.pair.base := by
  obtain ⟨_, _, _, _, _, -, within, -⟩ := attempt_placed led
  exact checkPositionLimit_bid within

theorem placeQuotes_placed {placements : List (Side × Placement)}
    (led : Leads (placeQuotes desk p quotes now book) world (placements, after) next)
    (placed : (side, .placed id price amount) ∈ placements) :
    ∃ u v, u.2 = world.2 ∧
      Leads (attempt desk p quotes side).run u (.ok (.placed id price amount)) v := by
  obtain ⟨bid, ask, between, u, rfl, first, second⟩ := leads_placeQuotes.1 led
  simp only [List.mem_cons, Prod.mk.injEq, List.not_mem_nil, or_false] at placed
  rcases placed with ⟨rfl, rfl⟩ | ⟨rfl, rfl⟩
  · exact ⟨world, u, rfl, (placeSide_placed first).2.2⟩
  · have asked := @placeSide_moves _ _ _ _ _ _ _ _ _ (fun _ => True) _ .empty (fun _ => trivial) first
    exact ⟨u, _, asked.1, (placeSide_placed second).2.2⟩

end Quoting

/-! ### Placed quotes stay known -/

/-- What the engine placed since is tracked on its side, unless it was cancelled. -/
def Front.Answers (f : Front) (now : Instant) : Prop :=
  ∀ side id, (side, id) ∈ f.journal.placed → id ∈ f.journal.cancelled ∨
    ∃ order, f.book.tracked side = some order ∧ order.id = id ∧ order.createdAt = now

/-- Nothing placed just now is late. -/
theorem Move.answers [Arithmetic] {pair : Pair} {rules : Rules} {f g : Front}
    (prompt : ¬ rules.late rules.now) (move : Move pair rules f g) (answers : f.Answers rules.now) :
    g.Answers rules.now := by
  intro side id placed
  cases move with
  | refuse n => exact answers side id placed
  | @place v w book j aside amount price new idle aimed accepted =>
    rcases List.mem_append.1 placed with earlier | last
    · refine (answers side id earlier).imp_right fun known => ?_
      obtain ⟨order, found, same⟩ := known
      refine ⟨order, ?_, same⟩
      have other : aside ≠ side := by
        rintro rfl
        exact absurd (idle.symm.trans found) (by simp)
      rw [QuoteBook.tracked_setTracked, if_neg other]
      exact found
    · obtain ⟨rfl, rfl⟩ := Prod.mk.inj (List.mem_singleton.1 last)
      exact .inr ⟨_, by rw [QuoteBook.tracked_setTracked, if_pos rfl], rfl, rfl⟩
  | @cancel v w book j aside order live tracked found stale done =>
    rcases answers side id placed with gone | ⟨known, tracked', same⟩
    · exact .inl (List.mem_append_left _ gone)
    · by_cases here : aside = side
      · subst here
        obtain rfl := Option.some.inj (tracked.symm.trans tracked')
        exact .inl (List.mem_append_right _ (List.mem_singleton.2 same.1.symm))
      · refine .inr ⟨known, ?_, same⟩
        rw [QuoteBook.tracked_setTracked, if_neg here]
        exact tracked'
  | @release v book j aside order tracked gone late =>
    refine (answers side id placed).imp_right fun given => ?_
    obtain ⟨known, tracked', same⟩ := given
    refine ⟨known, ?_, same⟩
    have other : aside ≠ side := by
      rintro rfl
      obtain rfl := Option.some.inj (tracked.symm.trans tracked')
      exact prompt (same.2 ▸ late)
    rw [QuoteBook.tracked_forget, if_neg other]
    exact tracked'
  | orphan unknown found stale done => exact answers side id placed

namespace Engine

open Act Session

variable [Arithmetic] {world next : Venues} {e e' : Engine} {now : Instant} {report : TickReport}
  {side : Side} {id : OrderId} {price amount : Decimal} {quotes : MarketQuotes}

/-- A quote that a tick placed was attempted with its prices, and nothing changed at the taker before. -/
theorem onTick_attempted (led : Leads (e.onTick desk now) world (report, e') next)
    (quoted : report.quotes = some quotes)
    (placed : (side, .placed id price amount) ∈ report.placements) :
    ∃ u v, u.2 = world.2 ∧
      Leads (Quoting.attempt desk e.params quotes side).run u (.ok (.placed id price amount)) v := by
  obtain ⟨-, ticked⟩ := onTick_ticked led
  generalize e'.book = last at ticked
  cases ticked with
  | skip | pull => cases placed
  | quote working fetched placing checked =>
    obtain rfl := passive_fetch fetched
    obtain rfl := Option.some.inj quoted
    exact Quoting.placeQuotes_placed placing placed

/-- A quote that a tick placed and did not cancel is tracked after it. -/
theorem onTick_tracked (sound : world.1.Sound) (sided : e.book.Sided)
    (patient : 0 < e.params.maxOrderAge) (led : Leads (e.onTick desk now) world (report, e') next)
    (placed : (side, .placed id price amount) ∈ report.placements)
    (kept : id ∉ report.cancellations.filterMap CancelOutcome.cancelledId?) :
    e'.book.isTracked side id = true := by
  have listed : (side, id) ∈ (Journal.empty.tick report).placed :=
    List.mem_filterMap.2 ⟨(side, .placed id price amount), placed, rfl⟩
  obtain ⟨-, -, ⟨-, -, -, nothing⟩ | ⟨quotes, -, -, moves⟩⟩ := onTick_moves .empty sound sided led
  · rw [nothing] at listed
    cases listed
  · have prompt : ¬ e.params.maxOrderAge < now.since now := by
      rw [Instant.since, sub_self, not_lt]
      exact patient.le
    have answers := moves_preserve (fun move holds => Move.answers prompt move holds) moves
      (fun _ _ none => by cases none)
    rcases answers side id listed with cancelled | ⟨order, found, same, -⟩
    · exact absurd cancelled kept
    · exact QuoteBook.isTracked_iff.2 ⟨order, found, same⟩

end Engine

/-! ### Hedges that go through -/

/-- There is enough for a hedge of this side and amount: the book is deep enough, and the limit of the
hedge is positive and covered. -/
structure SimulatedVenue.Hedges [Arithmetic] (v : SimulatedVenue) (p : Parameters) (side : Side)
    (amount : Decimal) : Prop where
  rate : 0 ≤ v.feeRate.value
  deep : ∃ book, v.bookOf p.taker.pair = .ok book ∧ book.Positive ∧
    amount.value ≤ Level.depth (book.facing side)
  covered : ∀ {executable price},
    v.executablePrice p.taker.pair side amount = .ok (.ok executable) →
    p.protectivePrice executable side = .ok price →
    0 < price.value ∧ v.Covers p.taker.pair side amount price

namespace Hedging

open Act Session

variable [Arithmetic] {world next : Venues} {p : Parameters} {fill : Fill}
  {book after : QuoteBook} {outcome : HedgeOutcome}

/-- The whole fill is hedged. -/
theorem attempt_full (rounds : Arithmetic.Rounds) (exact : Arithmetic.ExactSums)
    (products : Arithmetic.ExactProducts) (stepless : p.taker.lotSize ≤ 0)
    (positive : 0 < fill.amount.value) (accepting : world.2.rejections = 0)
    (hedges : world.2.Hedges p fill.side.opposite fill.amount)
    {remaining : Decimal} {r : Except UnhedgedReason HedgeRecord}
    (led : Leads (attempt desk p fill remaining).run world r next) :
    ∃ record, r = .ok record ∧ record.hedgeAmount = fill.amount ∧
      record.unhedgedResidual.value = 0 := by
  obtain ⟨book, found, sound, deep⟩ := hedges.deep
  have lot : Lot.down fill.amount p.taker.lotSize = .ok fill.amount := by
    rw [Lot.down, Tick.down, Tick.roundWith, if_pos stepless]
  have available : ∀ {reply u}, Leads (desk.taker.executablePrice p.taker.pair fill.side.opposite
      fill.amount).run world reply u → ∃ price, reply = .ok price := by
    intro reply u asked
    obtain ⟨asks, -⟩ := leads_taker_ask.1 asked
    rcases SimulatedVenue.executablePrice_cases rounds exact products found sound.fair positive asks with
      ⟨-, price, same, -⟩ | ⟨short, -⟩
    · exact ⟨price, same⟩
    · exact absurd deep short.not_ge
  rw [attempt] at led
  obtain ⟨executable, u, asked, priced⟩ := leads_require_bind available led
  obtain ⟨asks, rfl⟩ := leads_taker_ask.1 asked
  obtain ⟨price, protects, sized⟩ := leads_run_lift_bind.1 priced
  obtain ⟨wanted, rounded, sized⟩ := leads_run_lift_bind.1 sized
  obtain rfl := Except.ok.inj (lot.symm.trans rounded)
  obtain ⟨limit, covered⟩ := hedges.covered asks protects
  have adjusts : ∀ {reply v}, Leads (desk.taker.adjustCandidate
      ⟨p.taker.pair, false, .limit, fill.side.opposite, fill.amount, price⟩ false).run u reply v →
      reply = .ok ⟨p.taker.pair, false, .limit, fill.side.opposite, fill.amount, price⟩ := by
    intro reply v asked
    obtain ⟨asks, -⟩ := leads_taker_ask.1 asked
    apply SimulatedVenue.adjustCandidate_covered rounds exact products hedges.rate _ _ asks
    · exact limit
    · exact covered
  obtain ⟨adjusted, v, asked', sent⟩ := leads_require_bind (fun asked => ⟨_, adjusts asked⟩) sized
  obtain rfl := Except.ok.inj (adjusts asked')
  obtain ⟨-, rfl⟩ := leads_taker_ask.1 asked'
  obtain ⟨amount, rounded', sent⟩ := leads_run_lift_bind.1 sent
  obtain rfl := Except.ok.inj (lot.symm.trans rounded')
  rw [if_neg fun none => positive.not_ge (nonpos_iff_value.1 none)] at sent
  obtain ⟨residual, subtracted, sent⟩ := leads_run_lift_bind.1 sent
  obtain ⟨profit, -, sent⟩ := leads_run_lift_bind.1 sent
  have accepts : ∀ {reply w}, Leads (desk.taker.placeOrder p.taker.pair fill.side.opposite
      fill.amount .limit price).run v reply w → ∃ id, reply = .ok id := by
    intro reply w placed
    obtain ⟨x, placed, -⟩ := leads_taker_place.1 placed
    exact SimulatedVenue.placeOrder_covered exact products found sound.fair accepting
      hedges.rate positive limit covered placed
  obtain ⟨id, w, -, recorded⟩ := leads_require_bind accepts sent
  obtain ⟨rfl, -⟩ := leads_run_pure.1 recorded
  exact ⟨_, rfl, rfl, by rw [exact.sub subtracted, sub_self]⟩

/-- A fill of a tracked quote is hedged in full. -/
theorem handle_full (rounds : Arithmetic.Rounds) (exact : Arithmetic.ExactSums)
    (products : Arithmetic.ExactProducts) (stepless : p.taker.lotSize ≤ 0)
    (positive : 0 < fill.amount.value) (accepting : world.2.rejections = 0)
    (hedges : world.2.Hedges p fill.side.opposite fill.amount)
    (tracked : book.isTracked fill.side fill.orderId = true)
    (led : Leads (handle desk p fill book) world (outcome, after) next) :
    ∃ record, outcome = .hedged record ∧ record.hedgeAmount = fill.amount ∧
      record.unhedgedResidual.value = 0 := by
  rw [handle, leads_bind] at led
  obtain ⟨⟨answer, settled⟩, u, lifted, led⟩ := led
  obtain ⟨settles, rfl⟩ := leads_lift.1 lifted
  cases answer with
  | none =>
    obtain ⟨order, found, same⟩ := QuoteBook.isTracked_iff.1 tracked
    rcases QuoteBook.settle_cases settles with
      ⟨_, _, _, _, _, known, -⟩ | ⟨_, _, _, _, _, _, _, _, known, -⟩ | ⟨-, -, unknown, -⟩
    · exact absurd rfl known
    · exact absurd rfl known
    · exact absurd same (unknown order found)
  | some remaining =>
    dsimp only at led
    rw [leads_bind] at led
    obtain ⟨r, w, tried, led⟩ := led
    obtain ⟨record, rfl, whole⟩ := attempt_full rounds exact products stepless positive accepting
      hedges tried
    obtain ⟨same, -⟩ := leads_pure.1 led
    exact ⟨record, (Prod.mk.inj same).1, whole⟩

end Hedging

namespace Parameters

variable [Arithmetic] {p : Parameters} {executable price : Decimal} {side : Side} {r : ℚ}

/-- Without a tick a purchase may pay the slippage buffer more, and a sale may bring that much less. -/
theorem protectivePrice_exact (exact : Arithmetic.ExactSums) (products : Arithmetic.ExactProducts)
    (rate : ∀ {x}, BasisPoints.toRate p.slippageBuffer = .ok x → x.value = r)
    (stepless : p.taker.tickSize ≤ 0) (done : p.protectivePrice executable side = .ok price) :
    price.value = executable.value * (1 + side.signed r) := by
  rw [protectivePrice_stepless stepless] at done
  cases side with
  | buy => exact BasisPoints.above_exact exact products rate done
  | sell =>
    rw [Side.signed, ← sub_eq_add_neg]
    exact BasisPoints.below_exact exact products rate done

end Parameters

namespace SimulatedVenue

variable [Arithmetic] {v w : SimulatedVenue} {p : Parameters} {quotes : MarketQuotes}
  {amount larger price : Decimal} {side : Side} {book : OrderBook}

/-- A sale goes through where the base is there. -/
theorem hedges_sell (rounds : Arithmetic.Rounds) (exact : Arithmetic.ExactSums)
    (products : Arithmetic.ExactProducts) (stepless : p.taker.tickSize ≤ 0)
    (slippage : p.slippageBuffer.value < 10000) (rate : 0 ≤ v.feeRate.value)
    (found : v.bookOf p.taker.pair = .ok book) (sound : book.Positive) (positive : 0 < amount.value)
    (deep : amount.value ≤ Level.depth (book.facing .sell))
    (stock : amount.value ≤ (v.free p.taker.pair.base).value) : v.Hedges p .sell amount where
  rate := rate
  deep := ⟨book, found, sound, deep⟩
  covered := by
    intro executable price asked protects
    obtain ⟨-, average⟩ := executablePrice_ok rounds exact products found sound.fair positive asked
    have limit := Parameters.protectivePrice_exact exact products (BasisPoints.toRate_value rounds)
      stepless protects
    have kept := BasisPoints.rate_lt_one slippage
    refine ⟨?_, stock⟩
    rw [limit, Side.signed, ← sub_eq_add_neg, average]
    exact mul_pos (Level.average_pos sound.fair.facing sound.facing positive deep) (sub_pos.2 kept)

/-- A purchase goes through where the quote covers it at the price of a larger one, slippage buffer and
fee included. -/
theorem hedges_buy (rounds : Arithmetic.Rounds) (exact : Arithmetic.ExactSums)
    (products : Arithmetic.ExactProducts) (stepless : p.taker.tickSize ≤ 0)
    (slippage : 0 ≤ p.slippageBuffer.value) (rate : 0 ≤ v.feeRate.value)
    (found : v.bookOf p.taker.pair = .ok book) (sound : book.Positive) (sorted : book.Sorted)
    (positive : 0 < amount.value) (le : amount.value ≤ larger.value)
    (quoted : v.executablePrice p.taker.pair .buy larger = .ok (.ok price))
    (funds : amount.value * price.value * (1 + BasisPoints.rate p.slippageBuffer) *
      (1 + v.feeRate.value) ≤ (v.free p.taker.pair.quote).value) : v.Hedges p .buy amount := by
  obtain ⟨within, larger'⟩ := executablePrice_ok rounds exact products found sound.fair
    (positive.trans_le le) quoted
  have deep := le.trans within
  refine ⟨rate, ⟨book, found, sound, deep⟩, ?_⟩
  intro executable limit asked protects
  obtain ⟨-, average⟩ := executablePrice_ok rounds exact products found sound.fair positive asked
  have bound : limit.value = executable.value * (1 + BasisPoints.rate p.slippageBuffer) :=
    Parameters.protectivePrice_exact exact products (BasisPoints.toRate_value rounds) stepless protects
  have buffer := BasisPoints.rate_nonneg slippage
  have some' : 0 < executable.value :=
    average ▸ Level.average_pos sound.fair.facing sound.facing positive deep
  have cheaper : executable.value ≤ price.value := by
    rw [average, larger']
    exact nearest_mono (Level.average_le sound.fair.facing sorted.asks positive le within)
  refine ⟨?_, ?_⟩
  · rw [bound]
    exact mul_pos some' (by linarith)
  · calc amount.value * limit.value * (1 + v.feeRate.value)
        = amount.value * executable.value * (1 + BasisPoints.rate p.slippageBuffer) *
          (1 + v.feeRate.value) := by rw [bound]; ring
      _ ≤ amount.value * price.value * (1 + BasisPoints.rate p.slippageBuffer) *
          (1 + v.feeRate.value) := by gcongr
      _ ≤ (v.free p.taker.pair.quote).value := funds

theorem Hedges.congr (hedges : v.Hedges p side amount) (books : w.books = v.books)
    (balances : w.balances = v.balances) (fee : w.feeRate = v.feeRate) : w.Hedges p side amount := by
  have found := bookOf_congr books p.taker.pair
  refine ⟨fee ▸ hedges.rate, found.symm ▸ hedges.deep, ?_⟩
  intro executable price asked protects
  have asked' : v.executablePrice p.taker.pair side amount = .ok (.ok executable) := by
    rw [← asked, executablePrice, executablePrice, found]
  have covers : w.Covers p.taker.pair side amount price = v.Covers p.taker.pair side amount price := by
    unfold Covers
    rw [fee, free_congr balances, free_congr balances]
  rw [covers]
  exact hedges.covered asked' protects

end SimulatedVenue

/-! ### The quotes of a tick -/

namespace Engine

open Act Session

variable [Arithmetic] {world next later last : Venues} {e e' : Engine} {now : Instant}
  {report : TickReport} {quotes : MarketQuotes} {side : Side} {id : OrderId} {price amount : Decimal}
  {fill : Fill} {outcome : HedgeOutcome} {book : OrderBook}

theorem onFill_full (rounds : Arithmetic.Rounds) (exact : Arithmetic.ExactSums)
    (products : Arithmetic.ExactProducts) (stepless : e.params.taker.lotSize ≤ 0)
    (positive : 0 < fill.amount.value) (accepting : world.2.rejections = 0)
    (hedges : world.2.Hedges e.params fill.side.opposite fill.amount)
    (tracked : e.book.isTracked fill.side fill.orderId = true)
    (led : Leads (e.onFill desk fill) world (outcome, e') next) :
    ∃ record, outcome = .hedged record ∧ record.hedgeAmount = fill.amount ∧
      record.unhedgedResidual.value = 0 := by
  rw [onFill, leads_bind] at led
  obtain ⟨⟨outcome', book⟩, u, handled, led⟩ := led
  rw [leads_bind] at led
  obtain ⟨counted, w, lifted, led⟩ := led
  obtain ⟨rfl, -, -⟩ := leads_pure_pair.1 led
  exact Hedging.handle_full rounds exact products stepless positive accepting hedges tracked handled

/-- Whatever part of a quote is filled, the taker has enough to hedge it, if for an ask it holds the
price of the quote with the slippage buffer and the fee. -/
theorem attempted_hedges (rounds : Arithmetic.Rounds) (exact : Arithmetic.ExactSums)
    (products : Arithmetic.ExactProducts) {config : Config} {p : Parameters}
    (configured : config.parameters = .ok p) (stepless : p.taker.tickSize ≤ 0)
    (rate : world.2.feeRate = p.takerFee) (found : world.2.bookOf p.taker.pair = .ok book)
    (sound : book.Positive) (sorted : book.Sorted)
    (fetched : Leads (MarketQuotes.fetch desk p).run world (.ok quotes) world)
    (untouched : next.2 = world.2)
    (attempted :
      Leads (Quoting.attempt desk p quotes side).run next (.ok (.placed id price amount)) last)
    (sized : amount ≤ p.orderAmount)
    (funds : side = .sell → amount.value * quotes.takerBuy.value *
      (1 + BasisPoints.rate p.slippageBuffer) * (1 + p.takerFee.value) ≤
        (world.2.free p.taker.pair.quote).value)
    {part : Decimal} (positive : 0 < part.value) (within : part.value ≤ amount.value) :
    world.2.Hedges p side.opposite part := by
  have valid := (Config.parameters_valid configured).1
  obtain ⟨slippage, feeNonneg, -⟩ := Config.parameters_rates configured
  obtain ⟨takerBuy, takerSell, -, -⟩ := leads_fetch fetched
  have charges : 0 ≤ world.2.feeRate.value := rate ▸ feeNonneg
  have ordered := within.trans (le_iff_value.1 sized)
  cases side with
  | buy =>
    have stock := Quoting.attempt_bid attempted
    rw [untouched] at stock
    obtain ⟨deep, -⟩ := SimulatedVenue.executablePrice_ok rounds exact products found sound.fair
      valid.orderAmount takerSell
    exact SimulatedVenue.hedges_sell rounds exact products stepless slippage.2 charges found sound
      positive (ordered.trans deep) (ordered.trans (le_iff_value.1 stock))
  | sell =>
    obtain ⟨deep, average⟩ := SimulatedVenue.executablePrice_ok rounds exact products found sound.fair
      valid.orderAmount takerBuy
    have costly : 0 < quotes.takerBuy.value :=
      average ▸ Level.average_pos sound.fair.facing sound.facing valid.orderAmount deep
    have buffer := BasisPoints.rate_nonneg slippage.1
    have cheaper : part.value * quotes.takerBuy.value ≤ amount.value * quotes.takerBuy.value :=
      mul_le_mul_of_nonneg_right within costly.le
    apply SimulatedVenue.hedges_buy rounds exact products stepless slippage.1 charges found sound
      sorted positive ordered takerBuy
    rw [rate]
    calc part.value * quotes.takerBuy.value * (1 + BasisPoints.rate p.slippageBuffer) *
          (1 + p.takerFee.value)
        ≤ amount.value * quotes.takerBuy.value * (1 + BasisPoints.rate p.slippageBuffer) *
          (1 + p.takerFee.value) := by gcongr
      _ ≤ (world.2.free p.taker.pair.quote).value := funds rfl

/-- A quote that a tick places is hedged in full when it is filled, as long as the taker's books and
balances are what they were at the tick; for an ask the taker has to hold the price of the quote with
the slippage buffer and the fee. Handling the fill may only stop at an overflow. -/
theorem placed_quote_hedged (rounds : Arithmetic.Rounds) (exact : Arithmetic.ExactSums)
    (products : Arithmetic.ExactProducts) {config : Config}
    (configured : config.parameters = .ok e.params)
    (stepless : e.params.taker.tickSize ≤ 0 ∧ e.params.taker.lotSize ≤ 0)
    (reached : world.1.Reached) (sided : e.book.Sided)
    (rate : world.2.feeRate = e.params.takerFee)
    (found : world.2.bookOf e.params.taker.pair = .ok book) (sound : book.Positive)
    (sorted : book.Sorted) (ticked : Leads (e.onTick desk now) world (report, e') next)
    (quoted : report.quotes = some quotes)
    (placed : (side, .placed id price amount) ∈ report.placements)
    (kept : id ∉ report.cancellations.filterMap CancelOutcome.cancelledId?)
    (sized : amount ≤ e.params.orderAmount)
    (funds : side = .sell → amount.value * quotes.takerBuy.value *
      (1 + BasisPoints.rate e.params.slippageBuffer) * (1 + e.params.takerFee.value) ≤
        (world.2.free e.params.taker.pair.quote).value)
    (filled : fill.orderId = id ∧ fill.side = side)
    (within : 0 < fill.amount ∧ fill.amount ≤ amount) (books : later.2.books = world.2.books)
    (balances : later.2.balances = world.2.balances) (fee : later.2.feeRate = world.2.feeRate)
    (accepting : later.2.rejections = 0) :
    (∃ overflow, (e'.onFill desk fill).run later = .error overflow) ∨
      ∃ record e'' last, Leads (e'.onFill desk fill) later (.hedged record, e'') last ∧
        record.hedgeAmount = fill.amount ∧ record.unhedgedResidual.value = 0 := by
  obtain ⟨rfl, rfl⟩ := filled
  obtain ⟨-, updated, tick⟩ := onTick_moves .empty reached.healthy.sound sided ticked
  have params : e'.params = e.params := by rw [updated]
  have fetched : Leads (MarketQuotes.fetch desk e.params).run world (.ok quotes) world := by
    rcases tick with ⟨none, -⟩ | ⟨fresh, same, fetched, -⟩
    · cases quoted.symm.trans none
    · obtain rfl := Option.some.inj (quoted.symm.trans same)
      exact fetched
  have patient := (Config.parameters_valid configured).1.maxOrderAge
  have tracked := onTick_tracked reached.healthy.sound sided patient ticked placed kept
  obtain ⟨u, v, untouched, attempted⟩ := onTick_attempted ticked quoted placed
  have positive := pos_iff_value.1 within.1
  have enough := attempted_hedges rounds exact products configured stepless.1 rate found sound sorted
    fetched untouched attempted sized funds positive (le_iff_value.1 within.2)
  have hedges := enough.congr books balances fee
  rw [← params] at hedges stepless
  cases handled : (e'.onFill desk fill).run later with
  | error overflow => exact .inl ⟨overflow, rfl⟩
  | ok answer =>
    obtain ⟨⟨outcome, e''⟩, last⟩ := answer
    obtain ⟨record, rfl, whole⟩ :=
      onFill_full rounds exact products stepless.2 positive accepting hedges tracked handled
    exact .inr ⟨record, e'', last, handled, whole⟩

/-- Orders for ten, without fees. -/
def tenConfig : Config :=
  { strategy := { orderAmount := .of 10 0, makerFee := 0, takerFee := 0 } }

def tenPair : Pair := ⟨"DOGE", "USDT"⟩

def wideBook : OrderBook :=
  ⟨tenPair, ⟨0⟩, [⟨.of 80 0, .of 1000 0⟩], [⟨.of 110 0, .of 1000 0⟩]⟩

def narrowBook : OrderBook :=
  ⟨tenPair, ⟨0⟩, [⟨.of 100 0, .of 1000 0⟩, ⟨.of 99 0, .of 1000 0⟩],
    [⟨.of 101 0, .of 1000 0⟩, ⟨.of 102 0, .of 1000 0⟩]⟩

/-- The prices of a narrow taker and a wide maker. -/
def narrowQuotes : MarketQuotes := ⟨.of 101 0, .of 100 0, .of 110 0, .of 80 0⟩

/-- The time at which a quote of the first tick has expired. -/
def expiry : Instant := ⟨Span.ofSeconds 31⟩

def tenMaker : SimulatedVenue :=
  .funded "okx" 0 ⟨0⟩ [("DOGE", .of 100 0), ("USDT", .of 10000 0)]

def tenTaker (funds : Decimal) : SimulatedVenue :=
  .funded "binance" 0 ⟨0⟩ [("DOGE", .of 100 0), ("USDT", funds)]

/-- A wide maker, and a narrow taker that holds this much of the quote. -/
def tenVenues (funds : Decimal) : Venues :=
  ({ tenMaker with books := [(tenPair, wideBook)] },
    { tenTaker funds with books := [(tenPair, narrowBook)] })

theorem tenVenues_reached (funds : Decimal) : (tenVenues funds).1.Reached := by
  have opened : tenMaker.setBook wideBook = .ok ([], (tenVenues funds).1) := rfl
  exact (SimulatedVenue.reached_funded _ _ _ _).setBook opened

/-- A fill of the ask that the first tick places. -/
def tenFill (amount : Decimal) : Fill :=
  ⟨"okx-2", tenPair, .sell, .of 1013232 4, amount, ⟨0⟩⟩

omit [Arithmetic] in
theorem placed_quote_hedged_ten : ∃ p report e next record e' last,
    tenConfig.parameters = .ok p ∧
    Leads (@onTick _ .precise (@desk .precise) ⟨0⟩ (.new p)) (tenVenues (.of 1011 0)) (report, e)
      next ∧
    Leads (@onFill _ .precise (@desk .precise) (tenFill (.of 7 0)) e) next (.hedged record, e') last ∧
    record.hedgeAmount = .of 7 0 ∧ record.unhedgedResidual.value = 0 := by
  have works : tenConfig.parameters.toOption.any (fun p =>
      ((@onTick _ .precise (@desk .precise) ⟨0⟩ (.new p)).run (tenVenues (.of 1011 0))).toOption.any
        fun ((report, e), next) => report.quotes.any fun quotes =>
          decide (((p.taker.tickSize ≤ 0 ∧ p.taker.lotSize ≤ 0) ∧ p.taker.pair = tenPair ∧
              p.takerFee = 0 ∧ Decimal.of 10 0 ≤ p.orderAmount) ∧
            ((Side.sell, Placement.placed "okx-2" (.of 1013232 4) (.of 10 0)) ∈ report.placements ∧
              "okx-2" ∉ report.cancellations.filterMap CancelOutcome.cancelledId?) ∧
            (Decimal.of 10 0).value * quotes.takerBuy.value *
                (1 + BasisPoints.rate p.slippageBuffer) * (1 + p.takerFee.value) ≤
              ((tenVenues (.of 1011 0)).2.free "USDT").value ∧
            next.2 = (tenVenues (.of 1011 0)).2) &&
          ((@onFill _ .precise (@desk .precise) (tenFill (.of 7 0)) e).run next).toOption.isSome) =
      true := by
    decide +kernel
  obtain ⟨p, configured, works⟩ := Checked.toOption_any works
  obtain ⟨⟨⟨report, e⟩, next⟩, ticked, works⟩ := Checked.toOption_any works
  obtain ⟨quotes, quoted, works⟩ := (Option.any_eq_true _ _).1 works
  obtain ⟨facts, completes⟩ := Bool.and_eq_true_iff.1 works
  obtain ⟨⟨stepless, pair, fee, sized⟩, ⟨placed, kept⟩, funds, same⟩ := of_decide_eq_true facts
  have found : (tenVenues (.of 1011 0)).2.bookOf p.taker.pair = .ok narrowBook := by
    rw [pair]
    rfl
  have rate : (tenVenues (.of 1011 0)).2.feeRate = p.takerFee := fee.symm
  have holds : ((tenVenues (.of 1011 0)).2.free p.taker.pair.quote).value =
      ((tenVenues (.of 1011 0)).2.free "USDT").value := by
    rw [pair]
    rfl
  have sided : QuoteBook.Sided .empty := by
    intro side order tracked
    cases side <;> cases tracked
  rcases @placed_quote_hedged .precise _ _ next (.new p) e _ _ quotes .sell "okx-2" _ _
      (tenFill (.of 7 0)) narrowBook Arithmetic.precise_rounds Arithmetic.precise_exact
      Arithmetic.precise_exactProducts tenConfig configured stepless (@tenVenues_reached .precise _)
      sided rate found (by decide) (by decide) ticked quoted placed kept sized
      (fun _ => holds ▸ funds) ⟨rfl, rfl⟩ (by decide) (by rw [same]) (by rw [same]) (by rw [same])
      (by rw [same]; rfl) with
    ⟨overflow, stopped⟩ | ⟨record, e', last, handled, whole, none⟩
  · rw [stopped] at completes
    cases completes
  · exact ⟨p, report, e, next, record, e', last, configured, ticked, handled, whole, none⟩

omit [Arithmetic] in
/-- The taker holds the price of ten coins, but not the slippage buffer on top; so less is bought. -/
theorem placed_quote_short_ten : ∃ p report e next record e' last,
    tenConfig.parameters = .ok p ∧
    Leads (@onTick _ .rounding (@desk .rounding) ⟨0⟩ (.new p)) (tenVenues (.of 1010 0)) (report, e)
      next ∧ (Side.sell, Placement.placed "okx-2" (.of 1013232 4) (.of 10 0)) ∈ report.placements ∧
    Leads (@onFill _ .rounding (@desk .rounding) (tenFill (.of 10 0)) e) next (.hedged record, e')
      last ∧ record.hedgeAmount < .of 10 0 ∧ 0 < record.unhedgedResidual := by
  have works : tenConfig.parameters.toOption.any (fun p =>
      ((@onTick _ .rounding (@desk .rounding) ⟨0⟩ (.new p)).run (tenVenues (.of 1010 0))).toOption.any
        fun ((report, e), next) =>
          decide ((Side.sell, Placement.placed "okx-2" (.of 1013232 4) (.of 10 0)) ∈
            report.placements) &&
          ((@onFill _ .rounding (@desk .rounding) (tenFill (.of 10 0)) e).run next).toOption.any
            fun ((outcome, _), _) => match outcome with
              | .hedged record => decide (record.hedgeAmount < .of 10 0 ∧ 0 < record.unhedgedResidual)
              | _ => false) = true := by
    decide +kernel
  obtain ⟨p, configured, works⟩ := Checked.toOption_any works
  obtain ⟨⟨⟨report, e⟩, next⟩, ticked, works⟩ := Checked.toOption_any works
  obtain ⟨placed, works⟩ := Bool.and_eq_true_iff.1 works
  obtain ⟨⟨⟨outcome, e'⟩, last⟩, handled, works⟩ := Checked.toOption_any works
  cases outcome with
  | hedged record =>
    obtain ⟨less, open'⟩ := of_decide_eq_true works
    exact ⟨p, report, e, next, record, e', last, configured, ticked, of_decide_eq_true placed, handled,
      less, open'⟩
  | unhedged gap => cases works
  | ignored => cases works

end Engine

end MarketMaker
