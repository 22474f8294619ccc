import MarketMaker.Proofs.Engine.Hedges
import MarketMaker.Proofs.Engine.Moves
/-!
An engine at work on two venues, with everything around it that may happen in any order: ticks and
stops, new books and fills on the maker, late deliveries of its fills, and any change of the taker.
-/

namespace MarketMaker

/-- The fills in the maker's outbox are under way to the engine. -/
structure Trading where
  engine : Engine
  venues : Venues
  journal : Journal
deriving DecidableEq

/-- One thing that happens. Fills are delivered in any order, each at most once. -/
inductive Action
  | tick (now : Instant)
  | stop
  | setBook (book : OrderBook)
  | fillResting (id : OrderId) (amount : Option Decimal)
  | deliver (index : Nat)
  | setClock (clock : Instant)
  | setFaults (rejections : Nat) (rejectsCancels : Bool)
  | changeTaker (taker : SimulatedVenue)
deriving DecidableEq

namespace Trading

def start (p : Parameters) (maker taker : SimulatedVenue) : Trading :=
  ⟨.new p, (maker, taker), .empty⟩

def maker (s : Trading) : SimulatedVenue := s.venues.1

def book (s : Trading) : QuoteBook := s.engine.book

/-- The part of the state that ticks and stops work on. -/
def front (s : Trading) : Front := ⟨s.maker, s.book, s.journal⟩

variable [Arithmetic]

/-- A fill reaches the engine; it is no longer under way. -/
def handle (s : Trading) (index : Nat) (fill : Fill) : Checked (HedgeOutcome × Trading) := do
  let maker := { s.maker with outbox := s.maker.outbox.eraseIdx index }
  let ((outcome, engine), venues) ← (s.engine.onFill Session.desk fill).run (maker, s.venues.2)
  return (outcome, ⟨engine, venues, s.journal⟩)

def perform (s : Trading) : Action → Checked Trading
  | .tick now => do
    let ((report, engine), venues) ← (s.engine.onTick Session.desk now).run s.venues
    return ⟨engine, venues, s.journal.tick report⟩
  | .stop => do
    let ((_, engine), venues) ← (s.engine.onStop Session.desk).run s.venues
    return ⟨engine, venues, s.journal.stop s.book engine.book⟩
  | .setBook book => do
    let (_, maker) ← s.maker.setBook book
    return { s with venues := (maker, s.venues.2) }
  | .fillResting id amount => do
    let (_, maker) ← s.maker.fillResting id amount
    return { s with venues := (maker, s.venues.2) }
  | .deliver index =>
    match s.maker.outbox[index]? with
    | none => .ok s
    | some fill => do return (← s.handle index fill).2
  | .setClock clock => .ok { s with venues := ({ s.maker with clock }, s.venues.2) }
  | .setFaults rejections rejectsCancels =>
    .ok { s with venues := ({ s.maker with rejections, rejectsCancels }, s.venues.2) }
  | .changeTaker taker => .ok { s with venues := (s.maker, taker) }

/-- The actions one after the other. -/
def run : Trading → List Action → Checked Trading
  | s, [] => .ok s
  | s, action :: actions => do (← s.perform action).run actions

/-- What every allowed action preserves, every run of allowed actions preserves. -/
theorem run_preserves (holds : Trading → Prop) {allowed : Action → Prop}
    (step : ∀ {s t action}, holds s → allowed action → s.perform action = .ok t → holds t)
    {s t : Trading} {actions : List Action} (start : holds s)
    (all : ∀ action ∈ actions, allowed action) (ran : s.run actions = .ok t) : holds t := by
  induction actions generalizing s with
  | nil =>
    cases ran
    exact start
  | cons action actions ih =>
    rw [run, Checked.bind_ok] at ran
    obtain ⟨u, performed, ran⟩ := ran
    exact ih (step start (all action List.mem_cons_self) performed)
      (fun other member => all other (List.mem_cons_of_mem _ member)) ran

end Trading

end MarketMaker
