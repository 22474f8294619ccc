import MarketMaker.Proofs.Engine.Recording
/-!
Transcripts: which requests a step sends, and which of them are granted. A desk that takes notes is asked
what the desk without notes is asked and answers the same, so that every step on any desk has a
transcript, and what is shown of the transcript is shown of the step.
-/

namespace MarketMaker

/-- A request and whether it was granted. -/
structure Turn where
  recipient : Recipient
  message : Message
  granted : Bool
deriving DecidableEq

namespace Turn

/-- The requests that place an order. -/
def orders (turns : List Turn) : List Turn :=
  turns.filter fun turn => turn.message.kind = .placeOrder

theorem orders_append (turns more : List Turn) :
    orders (turns ++ more) = orders turns ++ orders more :=
  List.filter_append turns more

end Turn

variable {σ α β : Type}

/-- The request, written down with what came of it. -/
def Call.noted (who : Recipient) (message : Message) (call : Call σ α) : Call (σ × List Turn) α :=
  ExceptT.mk fun world => do
    let (reply, s) ← call.run.run world.1
    return (reply, (s, world.2 ++ [⟨who, message, reply.isOk⟩]))

/-- The venue, with notes of what it is asked. -/
def Adapter.noted (venue : Adapter σ) (who : Recipient) : Adapter (σ × List Turn) where
  executablePrice pair side amount :=
    (venue.executablePrice pair side amount).noted who (.executablePrice pair side amount)
  midPrice pair := (venue.midPrice pair).noted who (.midPrice pair)
  availableBalance asset := (venue.availableBalance asset).noted who (.availableBalance asset)
  adjustCandidate candidate allOrNone :=
    (venue.adjustCandidate candidate allOrNone).noted who (.adjustCandidate candidate allOrNone)
  placeOrder pair side amount type price :=
    (venue.placeOrder pair side amount type price).noted who
      (.placeOrder pair side amount type price)
  cancelOrder pair id := (venue.cancelOrder pair id).noted who (.cancelOrder pair id)
  activeOrders := venue.activeOrders.noted who .activeOrders

def Desk.noted (desk : Desk σ) : Desk (σ × List Turn) where
  maker := desk.maker.noted .maker
  taker := desk.taker.noted .taker

namespace Act

/-- Whatever a step does, it does while notes are taken, too, and what is written down is as described. -/
def Noted (step : Act σ α) (noted : Act (σ × List Turn) α) (holds : α → List Turn → Prop) : Prop :=
  ∀ ⦃s : σ⦄ ⦃a : α⦄ ⦃t : σ⦄, Leads step s a t →
    ∃ turns, holds a turns ∧ ∀ notes, Leads noted (s, notes) a (t, notes ++ turns)

variable {ε : Type} {holds : α → List Turn → Prop}

theorem noted_pure {a : α} (given : holds a []) :
    Noted (pure a : Act σ α) (pure a) holds := by
  intro s b t led
  obtain ⟨rfl, rfl⟩ := leads_pure.1 led
  exact ⟨[], given, fun notes => leads_pure.2 ⟨rfl, by rw [List.append_nil]⟩⟩

theorem noted_lift {x : Checked α} (given : ∀ a, x = .ok a → holds a []) :
    Noted (monadLift x : Act σ α) (monadLift x) holds := by
  intro s a t led
  obtain ⟨done, rfl⟩ := leads_lift.1 led
  exact ⟨[], given a done, fun notes => leads_lift.2 ⟨done, by rw [List.append_nil]⟩⟩

theorem Noted.mono {step : Act σ α} {noted : Act (σ × List Turn) α} {holds' : α → List Turn → Prop}
    (given : Noted step noted holds) (implies : ∀ a turns, holds a turns → holds' a turns) :
    Noted step noted holds' := by
  intro s a t led
  obtain ⟨turns, described, leads⟩ := given led
  exact ⟨turns, implies a turns described, leads⟩

/-- The transcript of two steps is that of the first and then that of the second. -/
theorem Noted.bind {step : Act σ α} {noted : Act (σ × List Turn) α} {next : α → Act σ β}
    {next' : α → Act (σ × List Turn) β} {holds' : β → List Turn → Prop}
    (first : Noted step noted holds)
    (rest : ∀ a turns, holds a turns →
      Noted (next a) (next' a) fun b more => holds' b (turns ++ more)) :
    Noted (step >>= next) (noted >>= next') holds' := by
  intro s b t led
  obtain ⟨a, u, led, later⟩ := leads_bind.1 led
  obtain ⟨turns, described, leads⟩ := first led
  obtain ⟨more, described', leads'⟩ := rest a turns described later
  refine ⟨turns ++ more, described', fun notes => leads_bind.2 ⟨a, (u, notes ++ turns), leads notes, ?_⟩⟩
  rw [← List.append_assoc]
  exact leads' (notes ++ turns)

theorem noted_request {who : Recipient} {message : Message} {call : Call σ α} :
    Noted call.run (call.noted who message).run fun r turns =>
      turns = [⟨who, message, r.isOk⟩] := by
  intro s r t led
  refine ⟨_, rfl, fun notes => ?_⟩
  have split : (call.noted who message).run.run (s, notes) =
      (call.run.run s >>= fun out => pure (out.1, (out.2, notes ++ [⟨who, message, out.1.isOk⟩]))) :=
    rfl
  rw [Leads, split]
  exact Checked.bind_ok.2 ⟨(r, t), led, rfl⟩

/-! ### Steps that may be refused -/

theorem noted_run_lift {x : Checked α} {holds : Except ε α → List Turn → Prop}
    (given : ∀ a, x = .ok a → holds (.ok a) []) :
    Noted (monadLift x : ExceptT ε (Act σ) α).run
      (monadLift x : ExceptT ε (Act (σ × List Turn)) α).run holds := by
  intro s r t led
  obtain ⟨a, rfl, done, rfl⟩ := leads_run_lift.1 led
  exact ⟨[], given a done, fun notes => leads_run_lift.2 ⟨a, rfl, done, by rw [List.append_nil]⟩⟩

theorem noted_run_act {step : Act σ α} {noted : Act (σ × List Turn) α}
    (given : Noted step noted holds) :
    Noted (monadLift step : ExceptT ε (Act σ) α).run
      (monadLift noted : ExceptT ε (Act (σ × List Turn)) α).run
      fun r turns => ∃ a, r = .ok a ∧ holds a turns := by
  intro s r t led
  obtain ⟨a, rfl, taken⟩ := leads_run_act.1 led
  obtain ⟨turns, described, leads⟩ := given taken
  exact ⟨turns, ⟨a, rfl, described⟩, fun notes => leads_run_act.2 ⟨a, rfl, leads notes⟩⟩

theorem Noted.run_bind {step : ExceptT ε (Act σ) α} {noted : ExceptT ε (Act (σ × List Turn)) α}
    {next : α → ExceptT ε (Act σ) β} {next' : α → ExceptT ε (Act (σ × List Turn)) β}
    {holds : Except ε α → List Turn → Prop} {holds' : Except ε β → List Turn → Prop}
    (first : Noted step.run noted.run holds)
    (refused : ∀ e turns, holds (.error e) turns → holds' (.error e) turns)
    (rest : ∀ a turns, holds (.ok a) turns →
      Noted (next a).run (next' a).run fun b more => holds' b (turns ++ more)) :
    Noted (step >>= next).run (noted >>= next').run holds' := by
  rw [ExceptT.run_bind, ExceptT.run_bind]
  refine first.bind fun r turns described => ?_
  cases r with
  | error e => exact noted_pure (by rw [List.append_nil]; exact refused e turns described)
  | ok a => exact rest a turns described

/-- A step that places no order, whatever comes of it. -/
def Quiet (step : ExceptT ε (Act σ) α) (noted : ExceptT ε (Act (σ × List Turn)) α) : Prop :=
  Noted step.run noted.run fun _ turns => Turn.orders turns = []

theorem quiet_pure {a : α} : Quiet (pure a : ExceptT ε (Act σ) α) (pure a) :=
  noted_pure rfl

theorem quiet_lift {x : Checked α} : Quiet (monadLift x : ExceptT ε (Act σ) α) (monadLift x) :=
  noted_run_lift fun _ _ => rfl

theorem quiet_request {who : Recipient} {message : Message} {call : Call σ α}
    (other : message.kind ≠ .placeOrder) : Quiet call (call.noted who message) := by
  refine noted_request.mono fun r turns asked => ?_
  simp [asked, Turn.orders, other]

section Quiet

variable {step : ExceptT ε (Act σ) α} {noted : ExceptT ε (Act (σ × List Turn)) α}
  {next : α → ExceptT ε (Act σ) β} {next' : α → ExceptT ε (Act (σ × List Turn)) β}

/-- What is said of the orders alone is not affected by quiet steps before them. -/
theorem Quiet.run_bind {holds : Except ε β → List Turn → Prop} (first : Quiet step noted)
    (blind : ∀ r turns more, Turn.orders more = Turn.orders turns → holds r turns → holds r more)
    (refused : ∀ e, holds (.error e) []) (rest : ∀ a, Noted (next a).run (next' a).run holds) :
    Noted (step >>= next).run (noted >>= next').run holds := by
  refine Noted.run_bind first (fun e turns none => blind _ [] _ none (refused e)) fun a turns none => ?_
  refine (rest a).mono fun r more given => blind r more _ ?_ given
  rw [Turn.orders_append, none, List.nil_append]

theorem Quiet.bind (first : Quiet step noted) (rest : ∀ a, Quiet (next a) (next' a)) :
    Quiet (step >>= next) (noted >>= next') :=
  first.run_bind (fun _ _ _ same none => same.trans none) (fun _ => rfl) rest

end Quiet

end Act

end MarketMaker
