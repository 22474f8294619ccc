import MarketMaker.Archive
import MarketMaker.Config.Validation
import MarketMaker.Ledger.Basic
import MarketMaker.PaperMarket
import MarketMaker.StatusReport
/-!
A session of paper trading: the engine on two simulated venues that follow the paper market. Fills
of both venues go into one queue; what happens is recorded in the ledger and the archive.
-/

namespace MarketMaker

/-- The maker's and the taker's venue. -/
abbrev Venues := SimulatedVenue × SimulatedVenue

structure Session where
  engine : Engine
  market : PaperMarket
  venues : Venues
  /-- Fills that were not handled yet, oldest first. -/
  queue : List Fill
  ledger : Ledger
  archive : Option Archive
  archiveDepth : Nat
  statusEveryTicks : Nat
  ticks : Nat

/-- A step of a session, which the ledger may refuse. What was done before stays done. -/
abbrev SessionStep := ExceptT StoreError (Act Session)

namespace Session

variable [Arithmetic]

def desk : Desk Venues :=
  .ofPair SimulatedVenue.adapter SimulatedVenue.adapter

/-- Fills in the venues' outboxes join the queue. -/
def collect (s : Session) : Session :=
  let (maker, taker) := s.venues
  { s with
    queue := s.queue ++ taker.outbox ++ maker.outbox
    venues := ({ maker with outbox := [] }, { taker with outbox := [] }) }

/-- A session ready for its first tick; it continues the totals of the ledger. -/
def start (config : Config) (ledger : Ledger) (archive : Option Archive) (now : Instant) :
    Except ConfigError Session := do
  let p ← config.parameters
  let market := PaperMarket.new config.paper p.maker p.taker
  let venues := market.seedBoth
    (.new p.maker.venue p.makerFee now, .new p.taker.venue p.takerFee now)
  let profit := ((ledger.load? now).map SavedState.profit).getD .none
  return {
    engine := { Engine.new p with profit }
    market
    venues
    queue := []
    ledger
    archive
    archiveDepth := config.archive.depth.toNat
    statusEveryTicks := config.runtime.statusEveryTicks.toNat
    ticks := 0 }

/-- Work of the engine on the session's venues. -/
def withVenues {α : Type} (work : Act Venues α) : SessionStep α := do
  let s ← get
  let (result, venues) ← (work.run s.venues : Checked _)
  set { s with venues }.collect
  return result

/-- Saves the totals. -/
def save (now : Instant) : SessionStep Unit := do
  let s ← get
  match s.ledger.save ⟨s.engine.profit, s.engine.halted, now⟩ with
  | .ok ledger => set { s with ledger }
  | .error e => throw e

/-- Hedges one fill; unless it is ignored, the outcome and the totals are recorded. -/
def handle (fill : Fill) : SessionStep HedgeOutcome := do
  let engine := (← get).engine
  let (outcome, engine) ← withVenues (engine.onFill desk fill)
  modify fun s => { s with engine }
  match outcome with
  | .ignored => return outcome
  | _ =>
    modify fun s => { s with ledger := s.ledger.recordOutcome outcome }
    save fill.time
    return outcome

/-- Handles up to so many queued fills; says how many there were. -/
def handleQueued : Nat → SessionStep Nat
  | 0 => return 0
  | most + 1 => do
    let s ← get
    match s.queue with
    | [] => return 0
    | fill :: queue =>
      set { s with queue }
      let _ ← handle fill
      return (← handleQueued most) + 1

/-- Handles fills until none is queued. A fill of a quote puts at most the fill of its hedge into
the queue, and that one is ignored, so twice the length of the queue is enough. -/
def drain : SessionStep Nat := do
  handleQueued (2 * (← get).queue.length)

/-- One venue's book and tape go into the archive. -/
def archiveVenue (depth : Nat) (pair : Pair) (archive : Archive) (v : SimulatedVenue) :
    Archive × SimulatedVenue :=
  let archive := match v.snapshot pair depth with
    | .ok book => archive.recordBook v.id book
    | .error _ => archive
  (v.tape.foldl (fun archive trade => archive.recordTrade v.id trade) archive,
    { v with tape := [] })

/-- Both venues' market data go into the archive, if there is one. -/
def archiveMarket (now : Instant) (s : Session) : Session :=
  match s.archive with
  | none => s
  | some archive =>
    let p := s.engine.params
    let (archive, maker) := archiveVenue s.archiveDepth p.maker.pair archive s.venues.1
    let (archive, taker) := archiveVenue s.archiveDepth p.taker.pair archive s.venues.2
    { s with archive := some (archive.maybeFlush now).2, venues := (maker, taker) }

/-- The status report is made for the log; one that is unavailable does no harm. -/
def makeStatus (now : Instant) : SessionStep Unit := do
  let engine := (← get).engine
  let _ ← withVenues (engine.status desk now).answer

/-- The market moves on, its fills are handled, then the engine ticks. -/
def tick (now : Instant) : SessionStep TickReport := do
  let s ← get
  let (_, market, venues) ← (s.market.step now s.venues : Checked _)
  set { s with market, venues }.collect
  let _ ← drain
  let engine := (← get).engine
  let (report, engine) ← withVenues (engine.onTick desk now)
  modify fun s =>
    let maker := engine.params.maker
    let ledger := s.ledger.recordTick maker.venue maker.pair report now
    { { s with engine, ledger }.archiveMarket now with ticks := s.ticks + 1 }
  let s ← get
  if 0 < s.statusEveryTicks ∧ s.ticks % s.statusEveryTicks = 0 then
    makeStatus now
    save now
  return report

/-- Handles what is queued, pulls the quotes and writes everything out. -/
def shutdown (now : Instant) : SessionStep Unit := do
  let _ ← drain
  let engine := (← get).engine
  let (_, engine) ← withVenues (engine.onStop desk)
  modify fun s => { s with engine }
  let _ ← drain
  save now
  modify fun s => { s with archive := s.archive.map fun archive => archive.flush.2 }
  makeStatus now

/-- A step whose refusal is passed over. -/
def attempt {α : Type} (step : SessionStep α) : Act Session Unit := do
  let _ ← step.run

/-- So many ticks at one time, the fills of each handled before the next. -/
def runTicks (now : Instant) : Nat → Act Session Unit
  | 0 => return ()
  | more + 1 => do
    attempt (tick now)
    attempt drain
    runTicks now more

/-- A session from its first tick to its shutdown. At least one tick is run. -/
def run (now : Instant) (ticks : Nat) : SessionStep Unit := do
  (runTicks now (max ticks 1) : Act Session Unit)
  shutdown now

end Session

end MarketMaker
