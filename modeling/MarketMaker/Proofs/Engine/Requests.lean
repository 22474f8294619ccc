import MarketMaker.Proofs.Steps
import MarketMaker.Proofs.Venue.Operations
import MarketMaker.Session
/-!
The requests of the engine on a desk of two simulated venues: which venue answers, and that a
question changes neither of them.
-/

namespace MarketMaker

namespace SimulatedVenue

variable {α : Type} {v w : SimulatedVenue} {r : Except VenueError α}

theorem leads_ask {f : SimulatedVenue → Checked (Except VenueError α)} :
    Act.Leads (ask f).run v r w ↔ f v = .ok r ∧ w = v := by
  have split : (ask f).run.run v = (f v >>= fun a => pure (a, v)) := rfl
  rw [Act.Leads, split, Checked.bind_ok]
  simp only [Checked.pure_ok, Prod.mk.injEq]
  constructor
  · intro given
    obtain ⟨a, answered, rfl, rfl⟩ := given
    exact ⟨answered, rfl⟩
  · intro given
    obtain ⟨answered, rfl⟩ := given
    exact ⟨r, answered, rfl, rfl⟩

/-- What holds after a question holds of the venue that was asked. -/
theorem exists_leads_ask {f : SimulatedVenue → Checked (Except VenueError α)}
    {holds : SimulatedVenue → Prop} :
    (∃ w, Act.Leads (ask f).run v r w ∧ holds w) ↔ f v = .ok r ∧ holds v := by
  simp only [leads_ask, and_assoc, exists_and_left, exists_eq_left]

end SimulatedVenue

namespace Session

open Act SimulatedVenue

variable [Arithmetic] {α : Type} {world next : Venues} {pair : Pair} {side : Side}
  {amount price : Decimal} {type : OrderType} {id : OrderId} {p : Parameters}

/-! ### Questions to one venue -/

omit [Arithmetic] in
theorem leads_maker_ask {f : SimulatedVenue → Checked (Except VenueError α)}
    {r : Except VenueError α} :
    Leads ((ask f).onFirst : Call Venues α).run world r next ↔ f world.1 = .ok r ∧ next = world :=
  leads_onFirst.trans exists_leads_ask

omit [Arithmetic] in
theorem leads_taker_ask {f : SimulatedVenue → Checked (Except VenueError α)}
    {r : Except VenueError α} :
    Leads ((ask f).onSecond : Call Venues α).run world r next ↔
      f world.2 = .ok r ∧ next = world :=
  leads_onSecond.trans exists_leads_ask

omit [Arithmetic] in
theorem passive_maker_ask (f : SimulatedVenue → Checked (Except VenueError α)) :
    Passive ((ask f).onFirst : Call Venues α).run :=
  fun _ _ _ led => (leads_maker_ask.1 led).2

omit [Arithmetic] in
theorem passive_taker_ask (f : SimulatedVenue → Checked (Except VenueError α)) :
    Passive ((ask f).onSecond : Call Venues α).run :=
  fun _ _ _ led => (leads_taker_ask.1 led).2

/-! ### Orders -/

theorem leads_maker_place {r : Except VenueError OrderId} :
    Leads (desk.maker.placeOrder pair side amount type price).run world r next ↔
      ∃ v, world.1.placeOrder pair side amount type price = .ok (r, v) ∧ next = (v, world.2) :=
  leads_onFirst

theorem leads_taker_place {r : Except VenueError OrderId} :
    Leads (desk.taker.placeOrder pair side amount type price).run world r next ↔
      ∃ v, world.2.placeOrder pair side amount type price = .ok (r, v) ∧ next = (world.1, v) :=
  leads_onSecond

theorem leads_maker_cancel {r : Except VenueError Unit} :
    Leads (desk.maker.cancelOrder pair id).run world r next ↔
      ∃ v, world.1.cancelOrder pair id = .ok (r, v) ∧ next = (v, world.2) :=
  leads_onFirst

theorem maker_cancel_refused {e : VenueError}
    (led : Leads (desk.maker.cancelOrder pair id).run world (.error e) next) : next = world := by
  obtain ⟨v, refused, rfl⟩ := leads_maker_cancel.1 led
  exact Prod.ext (SimulatedVenue.cancelOrder_refused refused) rfl

theorem leads_maker_active {r : Except VenueError (List RestingOrder)} :
    Leads desk.maker.activeOrders.run world r next ↔
      r = .ok world.1.activeOrders ∧ next = world := by
  refine leads_maker_ask.trans (and_congr_left fun _ => ?_)
  rw [Except.ok.injEq, eq_comm]

/-! ### Questions of the engine -/

theorem passive_fetch : Passive (MarketQuotes.fetch desk p).run :=
  .run_bind (passive_taker_ask _) fun _ => .run_bind (passive_taker_ask _) fun _ =>
    .run_bind (passive_maker_ask _) fun _ => .run_bind (passive_maker_ask _) fun _ =>
      passive_run_pure

/-- The prices of a fetch are those at which the venues would execute the order size. -/
theorem leads_fetch {quotes : MarketQuotes}
    (led : Leads (MarketQuotes.fetch desk p).run world (.ok quotes) next) :
    world.2.executablePrice p.taker.pair .buy p.orderAmount = .ok (.ok quotes.takerBuy) ∧
      world.2.executablePrice p.taker.pair .sell p.orderAmount = .ok (.ok quotes.takerSell) ∧
      world.1.executablePrice p.maker.pair .buy p.orderAmount = .ok (.ok quotes.makerBuy) ∧
      world.1.executablePrice p.maker.pair .sell p.orderAmount = .ok (.ok quotes.makerSell) := by
  simp only [MarketQuotes.fetch, leads_run_bind_ok, leads_run_pure, Except.ok.injEq] at led
  obtain ⟨takerBuy, u, first, takerSell, v, second, makerBuy, w, third, makerSell, x, fourth, rfl,
    -⟩ := led
  obtain ⟨first, rfl⟩ := leads_taker_ask.1 first
  obtain ⟨second, rfl⟩ := leads_taker_ask.1 second
  obtain ⟨third, rfl⟩ := leads_maker_ask.1 third
  obtain ⟨fourth, -⟩ := leads_maker_ask.1 fourth
  exact ⟨first, second, third, fourth⟩

theorem passive_checkPositionLimit {quotes : MarketQuotes} :
    Passive (Quoting.checkPositionLimit desk p quotes side amount price).run := by
  refine .run_bind (passive_maker_ask _) fun _ => ?_
  cases side with
  | buy =>
    exact .run_bind passive_run_lift fun _ => .run_bind (passive_taker_ask _) fun _ =>
      .run_bind passive_run_pure fun _ => passive_run_pure
  | sell =>
    exact .run_bind passive_run_pure fun _ => .run_bind (passive_taker_ask _) fun _ =>
      .run_bind passive_run_lift fun _ => passive_run_pure

theorem passive_hedgingBudget {quotes : MarketQuotes} :
    Passive (Quoting.hedgingBudget desk p quotes side).run := by
  refine .run_bind (passive_taker_ask _) fun _ => ?_
  cases side with
  | buy => exact passive_run_pure
  | sell => exact passive_run_lift

end Session

end MarketMaker
