import MarketMaker.Proofs.Steps
import MarketMaker.Venue.Faults
import MarketMaker.Engine
/-!
What the engine sends. On a recorded desk every request is written down before its answer is used,
whatever the venues answer; a step sends requests of some kinds only, and what is built of such
steps does, too.
-/

namespace MarketMaker

inductive Recipient
  | maker
  | taker
deriving DecidableEq

/-- A request with all that it says. -/
inductive Message
  | executablePrice (pair : Pair) (side : Side) (amount : Decimal)
  | midPrice (pair : Pair)
  | availableBalance (asset : String)
  | adjustCandidate (candidate : Candidate) (allOrNone : Bool)
  | placeOrder (pair : Pair) (side : Side) (amount : Decimal) (type : OrderType) (price : Decimal)
  | cancelOrder (pair : Pair) (id : OrderId)
  | activeOrders
deriving DecidableEq

namespace Message

def kind : Message → Request
  | executablePrice .. => .executablePrice
  | midPrice .. => .midPrice
  | availableBalance .. => .availableBalance
  | adjustCandidate .. => .adjustCandidate
  | placeOrder .. => .placeOrder
  | cancelOrder .. => .cancelOrder
  | activeOrders => .activeOrders

end Message

/-- Requests in the order in which they were sent. -/
abbrev Record := List (Recipient × Message)

variable {σ α β : Type}

/-- The request, written down. -/
def Call.recorded (who : Recipient) (message : Message) (call : Call σ α) : Call (σ × Record) α :=
  ExceptT.mk fun world => do
    let (reply, s) ← call.run.run world.1
    return (reply, (s, world.2 ++ [(who, message)]))

/-- The venue, with a record of what it is asked. -/
def Adapter.recorded (venue : Adapter σ) (who : Recipient) : Adapter (σ × Record) where
  executablePrice pair side amount :=
    (venue.executablePrice pair side amount).recorded who (.executablePrice pair side amount)
  midPrice pair := (venue.midPrice pair).recorded who (.midPrice pair)
  availableBalance asset := (venue.availableBalance asset).recorded who (.availableBalance asset)
  adjustCandidate candidate allOrNone :=
    (venue.adjustCandidate candidate allOrNone).recorded who (.adjustCandidate candidate allOrNone)
  placeOrder pair side amount type price :=
    (venue.placeOrder pair side amount type price).recorded who
      (.placeOrder pair side amount type price)
  cancelOrder pair id := (venue.cancelOrder pair id).recorded who (.cancelOrder pair id)
  activeOrders := venue.activeOrders.recorded who .activeOrders

def Desk.recorded (desk : Desk σ) : Desk (σ × Record) where
  maker := desk.maker.recorded .maker
  taker := desk.taker.recorded .taker

namespace Act

/-! ### Kinds of requests -/

/-- Every request that the step sends is of one of these kinds. -/
def Sends (kinds : Recipient → Request → Prop) (step : Act (σ × Record) α) : Prop :=
  ∀ ⦃s : σ × Record⦄ ⦃a : α⦄ ⦃t : σ × Record⦄, Leads step s a t →
    ∃ sent, t.2 = s.2 ++ sent ∧ ∀ entry ∈ sent, kinds entry.1 entry.2.kind

variable {ε : Type} {kinds : Recipient → Request → Prop}

theorem sends_pure {a : α} : Sends kinds (pure a : Act (σ × Record) α) := by
  intro s b t led
  obtain ⟨-, rfl⟩ := leads_pure.1 led
  exact ⟨[], by simp, by simp⟩

theorem sends_lift {x : Checked α} : Sends kinds (monadLift x : Act (σ × Record) α) := by
  intro s a t led
  obtain ⟨-, rfl⟩ := leads_lift.1 led
  exact ⟨[], by simp, by simp⟩

theorem Sends.bind {step : Act (σ × Record) α} {next : α → Act (σ × Record) β}
    (first : Sends kinds step) (rest : ∀ a, Sends kinds (next a)) : Sends kinds (step >>= next) := by
  intro s b t led
  obtain ⟨a, u, led, later⟩ := leads_bind.1 led
  obtain ⟨sent, grown, all⟩ := first led
  obtain ⟨more, grown', all'⟩ := rest a later
  refine ⟨sent ++ more, by rw [grown', grown, List.append_assoc], fun entry member => ?_⟩
  exact (List.mem_append.1 member).elim (all entry) (all' entry)

theorem sends_run_lift {x : Checked α} :
    Sends kinds (monadLift x : ExceptT ε (Act (σ × Record)) α).run := by
  intro s r t led
  obtain ⟨a, -, -, rfl⟩ := leads_run_lift.1 led
  exact ⟨[], by simp, by simp⟩

theorem sends_run_act {step : Act (σ × Record) α} (sends : Sends kinds step) :
    Sends kinds (monadLift step : ExceptT ε (Act (σ × Record)) α).run := by
  intro s r t led
  obtain ⟨a, -, led⟩ := leads_run_act.1 led
  exact sends led

theorem Sends.run_bind {step : ExceptT ε (Act (σ × Record)) α}
    {next : α → ExceptT ε (Act (σ × Record)) β} (first : Sends kinds step.run)
    (rest : ∀ a, Sends kinds (next a).run) : Sends kinds (step >>= next).run := by
  rw [ExceptT.run_bind]
  refine first.bind fun r => ?_
  cases r with
  | error e => exact sends_pure
  | ok a => exact rest a

theorem leads_recorded {who : Recipient} {message : Message} {call : Call σ α}
    {s t : σ × Record} {r : Except VenueError α} :
    Leads (call.recorded who message).run s r t ↔
      ∃ u, Leads call.run s.1 r u ∧ t = (u, s.2 ++ [(who, message)]) :=
  leads_within Prod.fst (fun s u => (u, s.2 ++ [(who, message)])) fun _ => rfl

theorem sends_recorded {who : Recipient} {message : Message} {call : Call σ α}
    (allowed : kinds who message.kind) : Sends kinds (call.recorded who message).run := by
  intro s r t led
  obtain ⟨u, -, rfl⟩ := leads_recorded.1 led
  refine ⟨[(who, message)], rfl, fun entry member => ?_⟩
  rw [List.mem_singleton.1 member]
  exact allowed

end Act

open Act

variable [Arithmetic] {desk : Desk σ} {p : Parameters} {quotes : MarketQuotes} {now : Instant}
  {kinds : Recipient → Request → Prop}

omit [Arithmetic] in
/-- Quotes are fetched by asking for prices. -/
theorem MarketQuotes.sends_fetch (prices : ∀ who, kinds who .executablePrice) :
    Sends kinds (fetch desk.recorded p).run :=
  (sends_recorded (prices .taker)).run_bind fun _ =>
    (sends_recorded (prices .taker)).run_bind fun _ =>
      (sends_recorded (prices .maker)).run_bind fun _ =>
        (sends_recorded (prices .maker)).run_bind fun _ => sends_pure

namespace Cancellation

variable {live : List RestingOrder}

theorem sends_checkTracked (cancels : kinds .maker .cancelOrder) (order : TrackedOrder)
    (book : QuoteBook) : Sends kinds (checkTracked desk.recorded p quotes now live order book) := by
  rw [checkTracked]
  split
  next => split <;> exact sends_pure
  next found _ =>
    refine sends_lift.bind fun verdict => ?_
    cases verdict with
    | none => exact sends_pure
    | some reason =>
      refine (sends_recorded cancels).bind fun reply => ?_
      cases reply <;> exact sends_pure

theorem sends_checkAllTracked (cancels : kinds .maker .cancelOrder) (orders : List TrackedOrder)
    (book : QuoteBook) :
    Sends kinds (checkAllTracked desk.recorded p quotes now live orders book) := by
  induction orders generalizing book with
  | nil => exact sends_pure
  | cons order orders ih =>
    exact (sends_checkTracked cancels order book).bind fun _ =>
      (ih _).bind fun _ => sends_pure

theorem sends_checkOrphans (cancels : kinds .maker .cancelOrder) (orders : List RestingOrder) :
    Sends kinds (checkOrphans desk.recorded p quotes now orders) := by
  induction orders with
  | nil => exact sends_pure
  | cons order orders ih =>
    refine sends_lift.bind fun verdict => ?_
    cases verdict with
    | none => exact sends_pure.bind fun _ => ih.bind fun _ => sends_pure
    | some reason =>
      refine (sends_recorded cancels).bind fun reply => ?_
      cases reply <;> exact sends_pure.bind fun _ => ih.bind fun _ => sends_pure

/-- A pass asks the maker for its orders and cancels some of them. -/
theorem sends_run (asks : kinds .maker .activeOrders) (cancels : kinds .maker .cancelOrder)
    (book : QuoteBook) : Sends kinds (run desk.recorded p quotes now book) := by
  rw [run]
  refine (sends_recorded asks).bind fun listed => ?_
  cases listed with
  | error e => exact sends_pure
  | ok live =>
    exact (sends_checkAllTracked cancels _ _).bind fun _ =>
      (sends_checkOrphans cancels _).bind fun _ => sends_pure

end Cancellation

namespace Hedging

omit [Arithmetic] in
theorem sends_require {reason : String → UnhedgedReason} {call : Call (σ × Record) α}
    (sends : Sends kinds call.run) : Sends kinds (require reason call).run := by
  rw [require]
  refine (sends_run_act sends).run_bind fun reply => ?_
  cases reply <;> exact sends_pure

theorem sends_attempt (prices : kinds .taker .executablePrice)
    (adjusts : kinds .taker .adjustCandidate) (places : kinds .taker .placeOrder) (fill : Fill)
    (remaining : Decimal) : Sends kinds (attempt desk.recorded p fill remaining).run := by
  rw [attempt]
  refine (sends_require (sends_recorded prices)).run_bind fun executable => ?_
  refine sends_run_lift.run_bind fun price => sends_run_lift.run_bind fun wanted => ?_
  refine (sends_require (sends_recorded adjusts)).run_bind fun adjusted => ?_
  refine sends_run_lift.run_bind fun amount => ?_
  split
  next => exact sends_pure
  next =>
    refine sends_run_lift.run_bind fun residual => sends_run_lift.run_bind fun profit => ?_
    exact (sends_require (sends_recorded places)).run_bind fun _ => sends_pure

/-- A hedge asks the taker for a price and a budget and places an order there. -/
theorem sends_handle (prices : kinds .taker .executablePrice)
    (adjusts : kinds .taker .adjustCandidate) (places : kinds .taker .placeOrder) (fill : Fill)
    (book : QuoteBook) : Sends kinds (handle desk.recorded p fill book) := by
  rw [handle]
  refine sends_lift.bind fun settled => ?_
  rcases settled with ⟨_ | remaining, book⟩
  · exact sends_pure
  · refine (sends_attempt prices adjusts places fill remaining).bind fun attempted => ?_
    cases attempted <;> exact sends_pure

end Hedging

namespace Engine

omit [Arithmetic] in
/-- A stop cancels on the maker. -/
theorem sends_onStop (cancels : kinds .maker .cancelOrder) (e : Engine) :
    Sends kinds (e.onStop desk.recorded) := by
  have sends : ∀ (e : Engine) (side : Side), Sends kinds (e.stopSide desk.recorded side) := by
    intro e side
    rw [stopSide]
    split
    next => exact sends_pure
    next =>
      refine (sends_recorded cancels).bind fun reply => ?_
      cases reply <;> exact sends_pure
  exact (sends e .buy).bind fun _ => (sends _ .sell).bind fun _ => sends_pure

end Engine

end MarketMaker
