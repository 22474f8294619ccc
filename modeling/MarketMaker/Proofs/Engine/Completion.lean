import MarketMaker.Proofs.Engine.Bounds
/-!
Ticks and fills that complete. Only an overflow keeps them from it, and within everyday bounds of the
parameters, the books and the balances nothing overflows.
-/

namespace MarketMaker

open Decimal Act Session SimulatedVenue

/-! ### Bounds -/

/-- A fill of a moderate amount. -/
def Fill.Moderate (fill : Fill) : Prop :=
  fill.amount.Moderate ∧ fill.price.AtMost (10 ^ 9)

/-- No order that the engine answers for has more than a billion left. -/
def QuoteBook.Moderate (book : QuoteBook) : Prop :=
  ∀ order ∈ book.resting ++ book.released, order.remaining.AtMost (10 ^ 9)

/-- An engine within everyday bounds. -/
structure Engine.Moderate (e : Engine) : Prop where
  params : e.params.Moderate
  book : e.book.Moderate
  profit : e.profit.total.AtMost (10 ^ 27)

section Handlers

/-! ### Requests of the engine -/

variable [Arithmetic] {α : Type} {world : Venues} {p : Parameters} {quotes : MarketQuotes} {side : Side}
  {amount price : Decimal} {left : Venues → Prop} {n : ℕ}

omit [Arithmetic] in
/-- A question is answered if what it asks for is there. -/
theorem answers_ask {call : Call Venues α} {asked : Checked (Except VenueError α)} {holds : α → Prop}
    (asks : ∀ {r next}, Leads call.run world r next ↔ asked = .ok r ∧ next = world)
    (gives : Checked.Gives asked fun reply => ∀ a, reply = .ok a → holds a) (same : left world) :
    Answers call world (fun a next => holds a ∧ next = world) left := by
  obtain ⟨reply, answered, given⟩ := gives
  exact ⟨reply, world, asks.2 ⟨answered, rfl⟩, same, fun a granted => ⟨given a granted, rfl⟩⟩

theorem answers_makerPrice (total : Arithmetic.Total) (within : world.1.Within n) {pair : Pair}
    (size : amount.Moderate) (same : left world) :
    Answers (desk.maker.executablePrice pair side amount) world
      (fun price next => price.Quotable ∧ next = world) left :=
  answers_ask leads_maker_ask (gives_executablePrice total within size) same

theorem answers_takerPrice (total : Arithmetic.Total) (within : world.2.Within n) {pair : Pair}
    (size : amount.Moderate) (same : left world) :
    Answers (desk.taker.executablePrice pair side amount) world
      (fun price next => price.Quotable ∧ next = world) left :=
  answers_ask leads_taker_ask (gives_executablePrice total within size) same

/-- Both venues price the order size. -/
theorem answers_fetch (total : Arithmetic.Total) (bounded : p.Bounded) {m : ℕ}
    (maker : world.1.Within m) (taker : world.2.Within n) (same : left world) :
    Answers (MarketQuotes.fetch desk p) world (fun quotes next => quotes.Quotable ∧ next = world)
      left := by
  have size := bounded.moderate.orderAmount
  unfold MarketQuotes.fetch
  refine (answers_takerPrice total taker size same).bind ?_
  rintro takerBuy _ - ⟨first, rfl⟩
  refine (answers_takerPrice total taker size same).bind ?_
  rintro takerSell _ - ⟨second, rfl⟩
  refine (answers_makerPrice total maker size same).bind ?_
  rintro makerBuy _ - ⟨third, rfl⟩
  refine (answers_makerPrice total maker size same).bind ?_
  rintro makerSell _ - ⟨fourth, rfl⟩
  exact answers_pure ⟨⟨first, second, third, fourth⟩, rfl⟩ same

theorem answers_checkPositionLimit (total : Arithmetic.Total) (quotable : quotes.Quotable)
    (size : amount.AtMost (10 ^ 6)) (priced : price.AtMost (10 ^ 9)) (same : left world) :
    Answers (Quoting.checkPositionLimit desk p quotes side amount price) world
      (fun _ next => next = world) left := by
  have makerFunds : Answers (desk.maker.availableBalance (p.maker.pair.spent side)) world
      (fun _ next => True ∧ next = world) left :=
    answers_ask leads_maker_ask (Checked.gives_pure fun _ _ => trivial) same
  have takerFunds : Answers (desk.taker.availableBalance (p.taker.pair.spent side.opposite)) world
      (fun _ next => True ∧ next = world) left :=
    answers_ask leads_taker_ask (Checked.gives_pure fun _ _ => trivial) same
  unfold Quoting.checkPositionLimit
  refine makerFunds.bind ?_
  rintro makerBalance _ - ⟨-, rfl⟩
  cases side with
  | buy =>
    refine (answers_lift (total.gives_mul size priced (by decide)) same).bind ?_
    rintro makerNeeded _ - ⟨-, rfl⟩
    refine takerFunds.bind ?_
    rintro takerBalance _ - ⟨-, rfl⟩
    exact answers_pure rfl same
  | sell =>
    have needed : Answers (pure amount : Call Venues Decimal) _ (fun _ next => next = _) left :=
      answers_pure rfl same
    refine needed.bind ?_
    rintro makerNeeded _ - rfl
    refine takerFunds.bind ?_
    rintro takerBalance _ - ⟨-, rfl⟩
    refine (answers_lift (total.gives_mul size quotable.takerBuy.2 (by decide)) same).bind ?_
    rintro takerNeeded _ - ⟨-, rfl⟩
    exact answers_pure rfl same

theorem answers_hedgingBudget (total : Arithmetic.Total) (quotable : quotes.Quotable)
    (funds : world.2.Provided) (same : left world) :
    Answers (Quoting.hedgingBudget desk p quotes side) world
      (fun budget next => 0 ≤ budget.value ∧ next = world) left := by
  have takerFunds : Answers (desk.taker.availableBalance (p.taker.pair.spent side.opposite)) world
      (fun balance next => (0 ≤ balance.value ∧ balance.AtMost (10 ^ 9)) ∧ next = world) left := by
    refine answers_ask leads_taker_ask (Checked.gives_pure ?_) same
    rintro _ ⟨⟩
    exact funds _
  unfold Quoting.hedgingBudget
  refine takerFunds.bind ?_
  rintro balance _ - ⟨⟨nonneg, most⟩, rfl⟩
  cases side with
  | buy => exact answers_pure ⟨nonneg, rfl⟩ same
  | sell =>
    have budget : Checked.Gives (balance.divOrZero quotes.takerBuy) fun budget => 0 ≤ budget.value := by
      unfold divOrZero
      split
      next => exact Checked.gives_pure value_zero.ge
      next =>
        refine (total.gives_div most quotable.takerBuy.1 (by decide)).mono fun budget divided => ?_
        rw [divided.1]
        exact nearest_nonneg (div_nonneg nonneg quotable.takerBuy.1.pos.le)
    exact answers_lift budget same

theorem answers_makerAdjust (total : Arithmetic.Total) (within : world.1.Within n)
    {candidate : Candidate} {m : ℕ} (size : candidate.amount.AtMost m) (priced : candidate.price.Priced)
    (funds : candidate.side = .buy → world.1.Provided) (same : left world) :
    Answers (desk.maker.adjustCandidate candidate false) world
      (fun adjusted next => adjusted.amount.AtMost m ∧ next = world) left :=
  answers_ask leads_maker_ask (gives_adjustCandidate total within size priced.1 fun buys =>
    ⟨priced.2, (funds buys _).2⟩) same

/-- What trying to place one more order leaves of the venues. -/
def Placed (n : ℕ) (before after : Venues) : Prop :=
  after.2 = before.2 ∧ after.1.Within (n + 10 ^ 20) ∧
    after.1.resting.length ≤ before.1.resting.length + 1

theorem answers_makerPlace (total : Arithmetic.Total) (within : world.1.Within n) (room : n ≤ 10 ^ 21)
    (size : amount.AtMost (10 ^ 7)) (priced : price.AtMost (10 ^ 9)) {pair : Pair} :
    Answers (desk.maker.placeOrder pair side amount .limit price) world (fun _ _ => True)
      (Placed n world) := by
  obtain ⟨⟨reply, v⟩, placed, kept⟩ := gives_placeOrder total within room size priced
  exact ⟨reply, _, leads_maker_place.2 ⟨v, placed, rfl⟩, ⟨rfl, kept⟩, fun _ _ => trivial⟩

/-- The attempt to place a quote completes, and leaves the taker as it is. -/
theorem answers_attempt (total : Arithmetic.Total) (bounded : p.Bounded) (quotable : quotes.Quotable)
    (within : world.1.Within n) (room : n ≤ 10 ^ 21) (taker : world.2.Provided)
    (maker : side = .buy → world.1.Provided) :
    Answers (Quoting.attempt desk p quotes side) world (fun _ _ => True) (Placed n world) := by
  have same : Placed n world world := ⟨rfl, within.mono (by omega), by omega⟩
  obtain ⟨large, small⟩ := bounded.moderate.orderAmount
  have lots := bounded.moderate.makerLot
  unfold Quoting.attempt
  refine (answers_lift (p.gives_targetPrice total bounded quotable side) same).bind ?_
  rintro price _ - ⟨priced, rfl⟩
  refine (answers_checkPositionLimit total quotable small priced.1 same).bind ?_
  rintro fits _ - rfl
  cases fits with
  | false => exact answers_pure trivial same
  | true =>
    rw [if_pos rfl]
    refine (answers_hedgingBudget total quotable taker same).bind ?_
    rintro budget _ - ⟨nonneg, rfl⟩
    have least : (min p.orderAmount budget).AtMost (10 ^ 6) := by
      refine atMost_of_between ?_ ?_
      · rw [value_min]
        exact le_min large.pos.le nonneg
      · rw [value_min]
        exact (min_le_left _ _).trans small.le
    refine (answers_lift (Tick.gives_lots total least (by decide) lots) same).bind ?_
    rintro wanted _ - ⟨wanted', rfl⟩
    refine Answers.bind (answers_makerAdjust total within wanted' priced maker same) ?_
    rintro adjusted _ - ⟨adjusted', rfl⟩
    refine (answers_lift (Tick.gives_lots total adjusted' (by decide) lots) same).bind ?_
    rintro amount _ - ⟨amount', rfl⟩
    split
    next => exact answers_pure trivial same
    next =>
      refine Answers.bind (answers_makerPlace total within room (amount'.mono (by decide)) priced.1) ?_
      exact fun id next placed _ => answers_pure trivial placed

/-! ### Ticks -/

variable {now : Instant} {book : QuoteBook} {c : ℕ}

theorem gives_placeSide (total : Arithmetic.Total) (bounded : p.Bounded) (quotable : quotes.Quotable)
    (within : world.1.Within n) (room : n ≤ 10 ^ 21) (taker : world.2.Provided)
    (maker : side = .buy → world.1.Provided) :
    Gives (Quoting.placeSide desk p quotes now side book) world fun _ next => Placed n world next := by
  unfold Quoting.placeSide
  split
  next =>
    have attempts : Gives (Quoting.attempt desk p quotes side).answer world
        fun _ next => Placed n world next :=
      (answers_attempt total bounded quotable within room taker maker).mono fun _ _ given => given.1
    refine attempts.bind fun reply next placed => ?_
    split <;> exact gives_pure placed
  next => exact gives_pure ⟨rfl, within.mono (by omega), by omega⟩

theorem gives_placeQuotes (total : Arithmetic.Total) (bounded : p.Bounded) (quotable : quotes.Quotable)
    (within : world.1.Within n) (room : n ≤ 10 ^ 20) (taker : world.2.Provided)
    (maker : world.1.Provided) :
    Gives (Quoting.placeQuotes desk p quotes now book) world fun _ next =>
      next.1.Within (n + 2 * 10 ^ 20) ∧ next.1.resting.length ≤ world.1.resting.length + 2 := by
  unfold Quoting.placeQuotes
  refine (gives_placeSide total bounded quotable within (by omega) taker fun _ => maker).bind ?_
  rintro ⟨bid, between⟩ next ⟨same, within', more⟩
  dsimp only
  refine Gives.bind (gives_placeSide total bounded quotable within' (by omega) (same ▸ taker)
    fun impossible => nomatch impossible) ?_
  rintro ⟨ask, last⟩ after ⟨-, within'', more'⟩
  exact gives_pure ⟨within''.mono (by omega), by omega⟩

theorem gives_reason (total : Arithmetic.Total) (bounded : p.Bounded) (quotable : quotes.Quotable)
    (createdAt : Instant) :
    Checked.Gives (Cancellation.reason? p quotes now side price createdAt) fun _ => True := by
  unfold Cancellation.reason?
  refine (p.gives_threshold total bounded quotable side).bind fun threshold _ => ?_
  split
  next => exact Checked.gives_pure trivial
  next => dsimp only; split <;> exact Checked.gives_pure trivial

theorem gives_makerCancel (total : Arithmetic.Total) (room : c < twoTo 96) (carries : world.1.Carries c)
    {pair : Pair} {id : OrderId} :
    Gives (desk.maker.cancelOrder pair id).answer world fun _ next => next.1.Carries c := by
  obtain ⟨⟨reply, v⟩, cancelled, kept⟩ := gives_cancelOrder total carries room
  exact ⟨reply, _, leads_maker_cancel.2 ⟨v, cancelled, rfl⟩, kept⟩

theorem gives_checkTracked (total : Arithmetic.Total) (bounded : p.Bounded)
    (quotable : quotes.Quotable) (room : c < twoTo 96) (carries : world.1.Carries c)
    (live : List RestingOrder) (order : TrackedOrder) :
    Gives (Cancellation.checkTracked desk p quotes now live order book) world
      fun _ next => next.1.Carries c := by
  unfold Cancellation.checkTracked
  split
  next => split <;> exact gives_pure carries
  next found _ =>
    refine (gives_lift (gives_reason total bounded quotable found.createdAt)).bind ?_
    rintro verdict _ ⟨-, rfl⟩
    split
    next => exact gives_pure carries
    next =>
      refine (gives_makerCancel total room carries).bind fun reply next carries' => ?_
      split <;> exact gives_pure carries'

theorem gives_checkAllTracked (total : Arithmetic.Total) (bounded : p.Bounded)
    (quotable : quotes.Quotable) (room : c < twoTo 96) (carries : world.1.Carries c)
    (live : List RestingOrder) (orders : List TrackedOrder) :
    Gives (Cancellation.checkAllTracked desk p quotes now live orders book) world
      fun _ next => next.1.Carries c := by
  induction orders generalizing book world with
  | nil => exact gives_pure carries
  | cons order orders ih =>
    unfold Cancellation.checkAllTracked
    refine (gives_checkTracked total bounded quotable room carries live order).bind
      fun first next carries' => ?_
    exact (ih carries').bind fun others last carries'' => gives_pure carries''

theorem gives_checkOrphans (total : Arithmetic.Total) (bounded : p.Bounded)
    (quotable : quotes.Quotable) (room : c < twoTo 96) (carries : world.1.Carries c)
    (orders : List RestingOrder) :
    Gives (Cancellation.checkOrphans desk p quotes now orders) world
      fun _ next => next.1.Carries c := by
  induction orders generalizing world with
  | nil => exact gives_pure carries
  | cons order orders ih =>
    have rest (first : List CancelOutcome) {next : Venues} (carries : next.1.Carries c) :
        Gives (Cancellation.checkOrphans desk p quotes now orders >>= fun others =>
          pure (first ++ others)) next fun _ last => last.1.Carries c :=
      (ih carries).bind fun others last carries' => gives_pure carries'
    unfold Cancellation.checkOrphans
    refine (gives_lift (gives_reason total bounded quotable order.createdAt)).bind ?_
    rintro verdict _ ⟨-, rfl⟩
    cases verdict with
    | none => exact rest [] carries
    | some reason =>
      refine (gives_makerCancel total room carries).bind fun reply next carries' => ?_
      cases reply with
      | ok _ => exact rest _ carries'
      | error e => exact rest _ carries'

theorem gives_cancellation (total : Arithmetic.Total) (bounded : p.Bounded)
    (quotable : quotes.Quotable) (room : c < twoTo 96) (carries : world.1.Carries c) :
    Gives (Cancellation.run desk p quotes now book) world fun _ next => next.1.Carries c := by
  have listed : Gives desk.maker.activeOrders.answer world
      fun reply next => reply = .ok world.1.activeOrders ∧ next = world :=
    ⟨_, _, leads_maker_active.2 ⟨rfl, rfl⟩, rfl, rfl⟩
  unfold Cancellation.run
  refine listed.bind ?_
  rintro _ next ⟨rfl, rfl⟩
  refine (gives_checkAllTracked total bounded quotable room carries _ _).bind
    fun tracked between carries' => ?_
  exact (gives_checkOrphans total bounded quotable room carries' _).bind
    fun others last carries'' => gives_pure carries''

/-- A tick completes: the quotes are fetched, quotes are placed, and those that rest are checked. -/
theorem gives_onTick (total : Arithmetic.Total) {e : Engine} (bounded : e.params.Bounded)
    (maker : world.1.Moderate) (taker : world.2.Moderate) :
    Gives (e.onTick desk now) world fun _ _ => True := by
  have fetched : Gives (MarketQuotes.fetch desk e.params).answer world
      fun reply next => ∀ quotes, reply = .ok quotes → quotes.Quotable ∧ next = world :=
    (answers_fetch total bounded maker.within taker.within trivial : Answers _ _ _ fun _ => True).mono
      fun reply next given => given.2
  unfold Engine.onTick
  refine fetched.bind fun reply next answered => ?_
  cases reply with
  | error error => exact gives_pure trivial
  | ok quotes =>
    obtain ⟨quotable, rfl⟩ := answered quotes rfl
    dsimp only
    have rest (placements : List (Side × Placement)) (book : QuoteBook) {world : Venues}
        (carries : world.1.Carries (10 ^ 25)) :
        Gives (Cancellation.run desk e.params quotes now book >>= fun out =>
          pure ((⟨none, some quotes, placements, out.1⟩ : TickReport), { e with book := out.2 }))
          world fun _ _ => True :=
      (gives_cancellation total bounded quotable (by decide) carries).bind
        fun _ _ _ => gives_pure trivial
    split
    next => exact rest [] e.book ⟨_, maker.within, by have := maker.few; omega⟩
    next =>
      refine (gives_placeQuotes total bounded quotable maker.within le_rfl taker.provided
        maker.provided).bind ?_
      rintro ⟨placements, book⟩ last ⟨within, more⟩
      exact rest placements book ⟨_, within, by have := maker.few; omega⟩

/-! ### Fills -/

omit [Arithmetic] in
theorem answers_require {holds : α → Venues → Prop} {reason : String → UnhedgedReason}
    {call : Call Venues α} (answers : Answers call world holds left) :
    Answers (Hedging.require reason call) world holds left := by
  obtain ⟨reply, next, led, same, granted⟩ := answers
  have asked : Leads (monadLift (call.answer : Act Venues (Except VenueError α)) :
      Hedging.Attempt Venues (Except VenueError α)).run world (.ok reply) next :=
    leads_run_act.2 ⟨reply, rfl, led⟩
  unfold Hedging.require
  cases reply with
  | ok a =>
    exact ⟨.ok a, next, leads_run_bind.2 (.inr ⟨_, _, asked, leads_run_pure.2 ⟨rfl, rfl⟩⟩), same,
      fun b result => Except.ok.inj result ▸ granted a rfl⟩
  | error e =>
    exact ⟨.error (reason e.message), next,
      leads_run_bind.2 (.inr ⟨_, _, asked, leads_run_throw.2 ⟨rfl, rfl⟩⟩), same,
      fun b impossible => nomatch impossible⟩

theorem gives_potentialProfit (total : Arithmetic.Total) {fillPrice hedgePrice makerFee takerFee : Decimal}
    (fill : fillPrice.AtMost (10 ^ 9)) (hedge : hedgePrice.AtMost (10 ^ 9))
    (size : amount.AtMost (10 ^ 7)) (maker : makerFee.AtMost 1) (taker : takerFee.AtMost 1) :
    Checked.Gives (potentialProfit side fillPrice hedgePrice amount makerFee takerFee)
      fun profit => profit.AtMost (10 ^ 20) := by
  have rest (received paid : Decimal) (first : received.AtMost (10 ^ 9 * 2))
      (second : paid.AtMost (10 ^ 9 * 2)) :
      Checked.Gives (received.sub paid >>= fun perUnit => perUnit.mul amount)
        fun profit => profit.AtMost (10 ^ 20) :=
    (total.gives_sub first second (by decide)).bind fun perUnit difference =>
      (total.gives_mul difference.2 size (by decide)).mono fun _ product => product.2.mono (by decide)
  unfold potentialProfit
  cases side with
  | buy =>
    refine (total.gives_sub one_atMost taker (by decide)).bind fun kept keeps => ?_
    refine (total.gives_mul hedge keeps.2 (by decide)).bind fun received receives => ?_
    refine (total.gives_add one_atMost maker (by decide)).bind fun raised raises => ?_
    refine (total.gives_mul fill raises.2 (by decide)).bind fun paid pays => ?_
    exact rest received paid receives.2 pays.2
  | sell =>
    refine (total.gives_sub one_atMost maker (by decide)).bind fun kept keeps => ?_
    refine (total.gives_mul fill keeps.2 (by decide)).bind fun received receives => ?_
    refine (total.gives_add one_atMost taker (by decide)).bind fun raised raises => ?_
    refine (total.gives_mul hedge raises.2 (by decide)).bind fun paid pays => ?_
    exact rest received paid receives.2 pays.2

theorem answers_takerAdjust (total : Arithmetic.Total) (taker : world.2.Moderate)
    {candidate : Candidate} {m : ℕ} (size : candidate.amount.AtMost m) (priced : candidate.price.Priced)
    (same : left world) :
    Answers (desk.taker.adjustCandidate candidate false) world (fun adjusted next =>
      (∃ amount : Decimal, amount.AtMost m ∧ adjusted = { candidate with amount }) ∧ next = world)
      left := by
  refine answers_ask leads_taker_ask ((gives_adjustCandidate total taker.within size priced.1 fun _ =>
    ⟨priced.2, (taker.provided _).2⟩).of_ok fun reply done kept adjusted granted => ?_) same
  exact ⟨adjusted.amount, kept adjusted granted, adjusted_eq (granted ▸ done)⟩

theorem answers_takerPlace (total : Arithmetic.Total) (taker : world.2.Moderate)
    (size : amount.AtMost (10 ^ 7)) (priced : price.AtMost (10 ^ 9)) {pair : Pair} :
    Answers (desk.taker.placeOrder pair side amount .limit price) world (fun _ _ => True)
      fun _ => True := by
  obtain ⟨⟨reply, v⟩, placed, -⟩ := gives_placeOrder total taker.within (by decide) size priced
  exact ⟨reply, _, leads_taker_place.2 ⟨v, placed, rfl⟩, trivial, fun _ _ => trivial⟩

theorem answers_hedge (total : Arithmetic.Total) (bounded : p.Bounded) (taker : world.2.Moderate)
    {fill : Fill} (moderate : fill.Moderate) (remaining : Decimal) :
    Answers (Hedging.attempt desk p fill remaining) world
      (fun record _ => record.profit.AtMost (10 ^ 20)) fun _ => True := by
  obtain ⟨size, filledAt⟩ := moderate
  have makerFee : p.makerFee.AtMost 1 :=
    atMost_of_between bounded.makerFee.1 (by exact_mod_cast bounded.makerFee.2)
  have takerFee : p.takerFee.AtMost 1 :=
    atMost_of_between bounded.takerFee.1 (by exact_mod_cast bounded.takerFee.2)
  have lots := bounded.moderate.takerLot
  unfold Hedging.attempt
  refine Answers.bind (answers_require (answers_takerPrice total taker.within size trivial)) ?_
  rintro executable _ - ⟨quotable, rfl⟩
  refine (answers_lift (p.gives_protectivePrice total bounded quotable _) trivial).bind ?_
  rintro price _ - ⟨priced, rfl⟩
  refine (answers_lift (Tick.gives_lots total size.2 (by decide) lots) trivial).bind ?_
  rintro wanted _ - ⟨wanted', rfl⟩
  refine Answers.bind (answers_require (answers_takerAdjust total taker wanted' priced trivial)) ?_
  rintro _ _ - ⟨⟨allowed, allowed', rfl⟩, rfl⟩
  refine (answers_lift (Tick.gives_lots total allowed' (by decide) lots) trivial).bind ?_
  rintro amount _ - ⟨amount', rfl⟩
  have hedged := amount'.mono (n := 10 ^ 7) (by decide)
  split
  next => exact answers_throw trivial
  next =>
    refine (answers_lift (total.gives_sub size.2 hedged (by decide)) trivial).bind ?_
    rintro residual _ - ⟨-, rfl⟩
    refine (answers_lift (gives_potentialProfit total filledAt priced.1 hedged makerFee takerFee)
      trivial).bind ?_
    rintro profit _ - ⟨earned, rfl⟩
    refine Answers.bind (answers_require (answers_takerPlace total taker hedged priced.1)) ?_
    exact fun id next _ _ => answers_pure earned trivial

theorem TrackedOrder.gives_reduce (total : Arithmetic.Total) {order : TrackedOrder}
    (bounded : order.remaining.AtMost (10 ^ 9)) (size : amount.AtMost (10 ^ 6)) :
    Checked.Gives (order.reduce amount) fun _ => True :=
  (total.gives_sub bounded size (by decide)).bind fun _ _ => Checked.gives_pure trivial

theorem QuoteBook.gives_applyFill (total : Arithmetic.Total) (moderate : book.Moderate)
    (size : amount.AtMost (10 ^ 6)) (side : Side) :
    Checked.Gives (book.applyFill side amount) fun _ => True := by
  unfold QuoteBook.applyFill
  split
  next => exact Checked.gives_pure trivial
  next order tracked =>
    have member : order ∈ book.resting ++ book.released :=
      List.mem_append_left _ (QuoteBook.mem_resting.2 ⟨side, tracked⟩)
    refine (TrackedOrder.gives_reduce total (moderate order member) size).bind fun _ _ => ?_
    split <;> exact Checked.gives_pure trivial

theorem QuoteBook.gives_fillFirst (total : Arithmetic.Total) (size : amount.AtMost (10 ^ 6))
    (side : Side) (id : OrderId) {orders : List TrackedOrder}
    (bounded : ∀ order ∈ orders, order.remaining.AtMost (10 ^ 9)) :
    Checked.Gives (QuoteBook.fillFirst side id amount orders) fun _ => True := by
  induction orders with
  | nil => exact Checked.gives_pure trivial
  | cons order orders ih =>
    obtain ⟨first, others⟩ := List.forall_mem_cons.1 bounded
    unfold QuoteBook.fillFirst
    split
    next =>
      exact (TrackedOrder.gives_reduce total first size).bind fun _ _ => Checked.gives_pure trivial
    next => exact (ih others).bind fun _ _ => Checked.gives_pure trivial

theorem QuoteBook.gives_settle (total : Arithmetic.Total) (moderate : book.Moderate)
    (size : amount.AtMost (10 ^ 6)) (side : Side) (id : OrderId) :
    Checked.Gives (book.settle side id amount) fun _ => True := by
  unfold QuoteBook.settle
  split
  next =>
    exact (QuoteBook.gives_applyFill total moderate size side).bind
      fun _ _ => Checked.gives_pure trivial
  next =>
    have released : ∀ order ∈ book.released, order.remaining.AtMost (10 ^ 9) :=
      fun order member => moderate order (List.mem_append_right _ member)
    unfold QuoteBook.applyReleasedFill
    refine (QuoteBook.gives_fillFirst total size side id released).bind fun found _ => ?_
    split <;> exact Checked.gives_pure trivial

/-- A fill is hedged or left open, and what a hedge earns is bounded. -/
theorem gives_handle (total : Arithmetic.Total) (bounded : p.Bounded) (known : book.Moderate)
    (taker : world.2.Moderate) {fill : Fill} (moderate : fill.Moderate) :
    Gives (Hedging.handle desk p fill book) world fun out _ =>
      ∀ record, out.1 = .hedged record → record.profit.AtMost (10 ^ 20) := by
  unfold Hedging.handle
  refine (gives_lift (QuoteBook.gives_settle total known moderate.1.2 fill.side fill.orderId)).bind ?_
  rintro ⟨settled, after⟩ _ ⟨-, rfl⟩
  cases settled with
  | none => exact gives_pure fun _ impossible => nomatch impossible
  | some remaining =>
    refine Gives.bind (answers_hedge total bounded taker moderate remaining) ?_
    rintro reply next ⟨-, earned⟩
    cases reply with
    | ok record =>
      refine gives_pure ?_
      rintro _ ⟨⟩
      exact earned record rfl
    | error reason => exact gives_pure fun _ impossible => nomatch impossible

theorem gives_onFill (total : Arithmetic.Total) {e : Engine} (bounded : e.params.Bounded)
    (book : e.book.Moderate) (profit : e.profit.total.AtMost (10 ^ 27)) (taker : world.2.Moderate)
    {fill : Fill} (moderate : fill.Moderate) :
    Gives (e.onFill desk fill) world fun _ _ => True := by
  unfold Engine.onFill
  refine (gives_handle total bounded book taker moderate).bind ?_
  rintro ⟨outcome, after⟩ next earned
  have counts : Checked.Gives ({ e with book := after }.account outcome) fun _ => True := by
    cases outcome with
    | ignored => exact Checked.gives_pure trivial
    | hedged record =>
      have adds : Checked.Gives (e.profit.recordHedge record.profit) fun _ => True :=
        (total.gives_add profit (earned record rfl) (by decide)).bind
          fun _ _ => Checked.gives_pure trivial
      exact adds.bind fun _ _ => Checked.gives_pure trivial
    | unhedged gap => exact Checked.gives_pure trivial
  exact (gives_lift counts).bind fun _ _ _ => gives_pure trivial

end Handlers

namespace Engine

/-- Within everyday bounds every tick and every fill completes, in every state of the engine and of both
venues: no sum, difference, product or quotient is out of range. -/
theorem handlers_complete {config : Config} {e : Engine} {world : Venues}
    (configured : config.parameters = .ok e.params) (moderate : e.Moderate)
    (maker : world.1.Moderate) (taker : world.2.Moderate) :
    (∀ now, ∃ report e' next,
      Leads (@onTick _ .rounding (@desk .rounding) now e) world (report, e') next) ∧
    ∀ fill : Fill, fill.Moderate → ∃ outcome e' next,
      Leads (@onFill _ .rounding (@desk .rounding) fill e) world (outcome, e') next := by
  have bounded := moderate.params.bounded configured
  constructor
  · intro now
    obtain ⟨⟨report, e'⟩, next, led, -⟩ :=
      @gives_onTick .rounding world now Arithmetic.rounding_total e bounded maker taker
    exact ⟨report, e', next, led⟩
  · intro fill moderate'
    obtain ⟨⟨outcome, e'⟩, next, led, -⟩ := @gives_onFill .rounding world Arithmetic.rounding_total e
      bounded moderate.book moderate.profit taker fill moderate'
    exact ⟨outcome, e', next, led⟩

theorem bookedVenue_moderate {name : String} {fee plenty : Decimal} {book : OrderBook}
    (rate : 0 ≤ fee ∧ fee ≤ 1) (funds : 0 ≤ plenty ∧ plenty.AtMost (10 ^ 9)) (moderate : book.Moderate) :
    (bookedVenue name fee plenty book).Moderate where
  feeRate := rate
  books := List.forall_mem_singleton.2 moderate
  balances := by
    have both : (bookedVenue name fee plenty book).balances = [("DOGE", plenty), ("USDT", plenty)] := rfl
    rw [both]
    simpa using funds
  fees := zero_atMost _
  resting := List.forall_mem_nil _
  few := Nat.zero_le _

/-- A tick on ten and a fill of part of a bid. -/
theorem handlers_complete_ten : ∃ p, tenConfig.parameters = .ok p ∧
    (∃ report e' next, Leads (@onTick _ .rounding (@desk .rounding) ⟨0⟩ (new p))
      (bookedVenues 0 (.of 10000 0) wideBook narrowBook) (report, e') next) ∧
    ∃ outcome e' next, Leads (@onFill _ .rounding (@desk .rounding) (bidFill (.of 9968 2) (.of 4 0))
        (tracking p .buy (.of 9968 2) (.of 10 0)))
      (bookedVenues 0 (.of 10000 0) wideBook narrowBook) (outcome, e') next := by
  have works : tenConfig.parameters.toOption.any (fun p => decide (p.orderAmount.Moderate ∧
      p.spread ≤ .of 9000 0 ∧ p.slippageBuffer ≤ .of 9000 0 ∧ p.maker.tickSize.Steplike ∧
      p.maker.lotSize.Steplike ∧ p.taker.tickSize.Steplike ∧ p.taker.lotSize.Steplike)) = true := by
    decide +kernel
  obtain ⟨p, configured, works⟩ := Checked.toOption_any works
  obtain ⟨size, spread, buffer, makerTick, makerLot, takerTick, takerLot⟩ := of_decide_eq_true works
  have params : p.Moderate := ⟨size, spread, buffer, makerTick, makerLot, takerTick, takerLot⟩
  have maker : (bookedVenues 0 (.of 10000 0) wideBook narrowBook).1.Moderate :=
    bookedVenue_moderate (by decide) (by decide +kernel) (by decide +kernel)
  have taker : (bookedVenues 0 (.of 10000 0) wideBook narrowBook).2.Moderate :=
    bookedVenue_moderate (by decide) (by decide +kernel) (by decide +kernel)
  have idle : (new p).Moderate := ⟨params, List.forall_mem_nil _, zero_atMost _⟩
  have busy : (tracking p .buy (.of 9968 2) (.of 10 0)).Moderate :=
    ⟨params, List.forall_mem_singleton.2 (by decide +kernel), zero_atMost _⟩
  exact ⟨p, configured, (handlers_complete configured idle maker taker).1 ⟨0⟩,
    (handlers_complete configured busy maker taker).2 _ ⟨by decide +kernel, by decide +kernel⟩⟩

/-- The least tick that there is. -/
def fineConfig : Config :=
  { tenConfig with maker := { tenConfig.maker with tickSize := Decimal.tiny } }

/-- A price of a hundred is too many of the least ticks to be counted, so a tick on moderate venues does
not complete. -/
theorem tick_overflows_fine : ∃ p, fineConfig.parameters = .ok p ∧
    (bookedVenues 0 (.of 10000 0) wideBook narrowBook).1.Moderate ∧
    (bookedVenues 0 (.of 10000 0) wideBook narrowBook).2.Moderate ∧
    (@onTick _ .rounding (@desk .rounding) ⟨0⟩ (new p)).run
      (bookedVenues 0 (.of 10000 0) wideBook narrowBook) = .error .division := by
  have works : fineConfig.parameters.toOption.any (fun p =>
      match (@onTick _ .rounding (@desk .rounding) ⟨0⟩ (new p)).run
        (bookedVenues 0 (.of 10000 0) wideBook narrowBook) with
      | .error overflow => decide (overflow = .division)
      | .ok _ => false) = true := by
    decide +kernel
  obtain ⟨p, configured, works⟩ := Checked.toOption_any works
  refine ⟨p, configured, bookedVenue_moderate (by decide) (by decide +kernel) (by decide +kernel),
    bookedVenue_moderate (by decide) (by decide +kernel) (by decide +kernel), ?_⟩
  split at works
  next overflow failed => rw [failed, of_decide_eq_true works]
  next => cases works

end Engine

end MarketMaker
