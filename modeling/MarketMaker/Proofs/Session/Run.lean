import MarketMaker.Proofs.Engine.Hedges
import MarketMaker.Proofs.Engine.Prices
/-!
Runs of a session, and what its events consist of: the market moves on, a fill is taken from the
queue, the engine ticks or stops. Everything else that happens only keeps records.
-/

namespace MarketMaker

/-- The tick by which the price of a placed quote was divided did not round it. -/
def TickReport.Unrounded [Arithmetic] (p : Parameters) (report : TickReport) : Prop :=
  ∀ quotes side, report.quotes = some quotes → report.Places side → p.Unrounded quotes side

/-- A fill as it was taken from the queue, what came of it, and the venues at that time. -/
structure Handled where
  fill : Fill
  outcome : HedgeOutcome
  venues : Venues

namespace Session

open Act

variable [Arithmetic]

/-! ### Fills and their outcomes -/

/-- The fills that are handled in turn, with their outcomes; a failure ends them. -/
def handled : Nat → Session → List Handled
  | 0, _ => []
  | most + 1, s =>
    match s.queue with
    | [] => []
    | fill :: queue =>
      match (handle fill).run.run { s with queue } with
      | .ok (.ok outcome, t) => ⟨fill, outcome, s.venues⟩ :: handled most t
      | _ => []

/-- The fills that a drain handles. -/
def drained (s : Session) : List Handled :=
  handled (2 * s.queue.length) s

/-- The market moves on, and its fills join the queue. -/
def advance (now : Instant) (s : Session) : Checked Session := do
  let (_, market, venues) ← s.market.step now s.venues
  return { s with market, venues }.collect

/-- Pulls the quotes. -/
def pull : SessionStep Unit := do
  let engine := (← get).engine
  let (_, engine) ← withVenues (engine.onStop desk)
  modify fun s => { s with engine }

end Session

/-- What is asked of a session. -/
inductive Event
  | tick (now : Instant)
  | handle (most : Nat)
  | drain
  | shutdown (now : Instant)

namespace Event

open Session

variable [Arithmetic]

/-- The fills that are handled with the event, as far as it gets. -/
def handled : Event → Session → List Handled
  | tick now, s =>
    match s.advance now with
    | .ok t => t.drained
    | .error _ => []
  | handle most, s => Session.handled most s
  | drain, s => s.drained
  | shutdown _, s => s.drained ++
    match (do let _ ← Session.drain; pull : SessionStep Unit).run.run s with
    | .ok (.ok (), t) => t.drained
    | _ => []

end Event

namespace Session

open Act

variable [Arithmetic]

/-- The events of a run succeed one after the other; `history` has all fills that were handled. -/
inductive Run (s₀ : Session) : Session → List Handled → Prop
  | start : Run s₀ s₀ []
  | tick {s t : Session} {history : List Handled} {now : Instant}
      {report : TickReport} (run : Run s₀ s history)
      (led : Leads (Session.tick now).run s (.ok report) t)
      (unrounded : report.Unrounded s.engine.params) :
    Run s₀ t (history ++ Event.handled (.tick now) s)
  | handle {s t : Session} {history : List Handled} {most n : Nat}
      (run : Run s₀ s history) (led : Leads (handleQueued most).run s (.ok n) t) :
    Run s₀ t (history ++ Event.handled (.handle most) s)
  | drain {s t : Session} {history : List Handled} {n : Nat}
      (run : Run s₀ s history) (led : Leads Session.drain.run s (.ok n) t) :
    Run s₀ t (history ++ Event.handled .drain s)
  | shutdown {s t : Session} {history : List Handled} {now : Instant}
      (run : Run s₀ s history) (led : Leads (Session.shutdown now).run s (.ok ()) t) :
    Run s₀ t (history ++ Event.handled (.shutdown now) s)

variable {s t u : Session} {now : Instant} {fill : Fill} {most n : Nat}

/-- Whether a tick succeeds, its prices unrounded, and leaves a session of which this holds. -/
def ticksTo (now : Instant) (holds : Session → Bool) (s : Session) : Bool :=
  ((Session.tick now).run.run s).toOption.any fun (r, t) => r.toOption.any fun report =>
    (report.quotes.all fun quotes =>
      decide (s.engine.params.Unrounded quotes .buy ∧ s.engine.params.Unrounded quotes .sell)) &&
        holds t

theorem Run.exists_tick {s₀ : Session} {history : List Handled} {holds : Session → Bool}
    (run : Run s₀ s history) (found : s.ticksTo now holds = true) :
    ∃ t, Run s₀ t (history ++ Event.handled (.tick now) s) ∧ holds t = true := by
  obtain ⟨⟨r, t⟩, led, found⟩ := Checked.toOption_any found
  obtain ⟨report, rfl, found⟩ := Checked.toOption_any found
  obtain ⟨unrounded, holds⟩ := Bool.and_eq_true_iff.1 found
  refine ⟨t, run.tick led ?_, holds⟩
  intro quotes side answered _
  rw [answered] at unrounded
  obtain ⟨bid, ask⟩ := of_decide_eq_true unrounded
  cases side with
  | buy => exact bid
  | sell => exact ask

/-! ### Records -/

/-- The sessions differ in their records only. -/
structure Echoes (s t : Session) : Prop where
  engine : t.engine = s.engine
  market : t.market = s.market
  queue : t.queue = s.queue
  maker : ∃ tape, t.venues.1 = { s.venues.1 with tape }
  taker : ∃ tape, t.venues.2 = { s.venues.2 with tape }

omit [Arithmetic] in
theorem Echoes.refl (s : Session) : Echoes s s :=
  ⟨rfl, rfl, rfl, ⟨s.venues.1.tape, rfl⟩, ⟨s.venues.2.tape, rfl⟩⟩

omit [Arithmetic] in
theorem Echoes.trans (first : Echoes s t) (second : Echoes t u) : Echoes s u := by
  obtain ⟨_, maker⟩ := first.maker
  obtain ⟨tape, maker'⟩ := second.maker
  obtain ⟨_, taker⟩ := first.taker
  obtain ⟨tape', taker'⟩ := second.taker
  refine ⟨second.engine.trans first.engine, second.market.trans first.market,
    second.queue.trans first.queue, ⟨tape, ?_⟩, ⟨tape', ?_⟩⟩
  · rw [maker', maker]
  · rw [taker', taker]

/-- The fills that were reported have joined the queue. -/
def Collected (s : Session) : Prop :=
  s.venues.1.outbox = [] ∧ s.venues.2.outbox = []

omit [Arithmetic] in
theorem Echoes.collected (echoes : Echoes s t) (collected : s.Collected) : t.Collected := by
  obtain ⟨_, maker⟩ := echoes.maker
  obtain ⟨_, taker⟩ := echoes.taker
  rw [Collected, maker, taker]
  exact collected

omit [Arithmetic] in
theorem collect_of_collected (collected : s.Collected) : s.collect = s := by
  have emptied : ∀ v : SimulatedVenue, v.outbox = [] → { v with outbox := [] } = v := by
    rintro v none
    cases v
    cases none
    rfl
  obtain ⟨maker, taker⟩ := collected
  have split : s.collect = { s with
      queue := s.queue ++ s.venues.2.outbox ++ s.venues.1.outbox
      venues := ({ s.venues.1 with outbox := [] }, { s.venues.2 with outbox := [] }) } := rfl
  rw [split, emptied _ maker, emptied _ taker, maker, taker, List.append_nil, List.append_nil]

omit [Arithmetic] in
theorem leads_withVenues {α : Type} {work : Act Venues α} {r : Except StoreError α}
    (led : Leads (withVenues work).run s r t) : ∃ result venues, r = .ok result ∧
      Leads work s.venues result venues ∧ t = { s with venues }.collect := by
  rw [withVenues, leads_run_get_bind, leads_run_lift_bind] at led
  obtain ⟨⟨result, venues⟩, works, led⟩ := led
  dsimp only at led
  rw [leads_run_set_bind] at led
  obtain ⟨rfl, rfl⟩ := leads_run_pure.1 led
  exact ⟨result, venues, rfl, works, rfl⟩

omit [Arithmetic] in
/-- What follows on work of the engine starts with the fills of that work in the queue. -/
theorem leads_withVenues_bind {α β : Type} {work : Act Venues α} {rest : α → SessionStep β}
    {r : Except StoreError β} (led : Leads (withVenues work >>= rest).run s r t) : ∃ result venues,
      Leads work s.venues result venues ∧ Leads (rest result).run { s with venues }.collect r t := by
  rw [leads_run_bind] at led
  rcases led with ⟨e, worked, -⟩ | ⟨result, u, worked, led⟩
  · obtain ⟨_, _, impossible, -⟩ := leads_withVenues worked
    cases impossible
  · obtain ⟨_, venues, given, works, rfl⟩ := leads_withVenues worked
    obtain rfl := Except.ok.inj given
    exact ⟨result, venues, works, led⟩

omit [Arithmetic] in
theorem leads_save (led : Leads (save now).run s (.ok ()) t) : ∃ ledger,
    s.ledger.save ⟨s.engine.profit, s.engine.halted, now⟩ = .ok ledger ∧ t = { s with ledger } := by
  rw [save, leads_run_get_bind] at led
  split at led
  next ledger saved =>
    obtain ⟨-, rfl⟩ := leads_run_set.1 led
    exact ⟨ledger, saved, rfl⟩
  next =>
    obtain ⟨impossible, -⟩ := leads_run_throw.1 led
    cases impossible

omit [Arithmetic] in
theorem echoes_ledger (s : Session) (ledger : Ledger) : Echoes s { s with ledger } :=
  ⟨rfl, rfl, rfl, ⟨_, rfl⟩, ⟨_, rfl⟩⟩

theorem passive_status {e : Engine} : Passive (e.status desk now).run := by
  have maker : ∀ market, Passive (Engine.balanceRows desk.maker market).run := fun _ =>
    .run_bind (passive_maker_ask _) fun _ => .run_bind (passive_maker_ask _) fun _ =>
      passive_run_pure
  have taker : ∀ market, Passive (Engine.balanceRows desk.taker market).run := fun _ =>
    .run_bind (passive_taker_ask _) fun _ => .run_bind (passive_taker_ask _) fun _ =>
      passive_run_pure
  exact .run_bind passive_fetch fun _ => .run_bind (passive_maker_ask _) fun _ =>
    .run_bind (passive_taker_ask _) fun _ => .run_bind (passive_maker_ask _) fun _ =>
      .run_bind (maker _) fun _ => .run_bind (taker _) fun _ => passive_run_lift

theorem leads_makeStatus (collected : s.Collected)
    (led : Leads (makeStatus now).run s (.ok ()) t) : t = s := by
  rw [makeStatus, leads_run_get_bind] at led
  obtain ⟨reply, venues, asks, finished⟩ := leads_withVenues_bind led
  obtain ⟨-, rfl⟩ := leads_run_pure.1 finished
  rw [passive_status asks]
  exact collect_of_collected collected

omit [Arithmetic] in
theorem echoes_archiveMarket (s : Session) (now : Instant) : Echoes s (s.archiveMarket now) := by
  rw [archiveMarket]
  split
  · exact .refl s
  · exact ⟨rfl, rfl, rfl, ⟨[], rfl⟩, ⟨[], rfl⟩⟩

omit [Arithmetic] in
theorem ledger_archiveMarket (s : Session) (now : Instant) :
    (s.archiveMarket now).ledger = s.ledger := by
  rw [archiveMarket]
  split <;> rfl

/-! ### What events consist of -/

/-- The session with an engine and venues as some work left them; their fills join the queue. -/
def resume (s : Session) (engine : Engine) (venues : Venues) : Session :=
  { collect { s with venues } with engine }

omit [Arithmetic] in
theorem queue_resume (s : Session) (engine : Engine) (venues : Venues) :
    (s.resume engine venues).queue = s.queue ++ venues.2.outbox ++ venues.1.outbox := rfl

omit [Arithmetic] in
theorem collected_resume (s : Session) (engine : Engine) (venues : Venues) :
    (s.resume engine venues).Collected := ⟨rfl, rfl⟩

/-- A fill is hedged. Unless it is ignored, the ledger gets the outcome and then the totals. -/
theorem leads_handle {outcome : HedgeOutcome}
    (led : Leads (handle fill).run s (.ok outcome) t) : ∃ engine venues,
      Leads (s.engine.onFill desk fill) s.venues (outcome, engine) venues ∧
        Echoes (s.resume engine venues) t ∧
        ((outcome = .ignored ∧ t.ledger = s.ledger) ∨ (outcome ≠ .ignored ∧
          (s.ledger.recordOutcome outcome).save ⟨engine.profit, engine.halted, fill.time⟩ =
            .ok t.ledger)) := by
  rw [handle, leads_run_get_bind] at led
  obtain ⟨⟨answer, engine⟩, venues, hedged, led⟩ := leads_withVenues_bind led
  rw [leads_run_modify_bind] at led
  refine ⟨engine, venues, ?_⟩
  have recorded : ∀ {outcome' : HedgeOutcome}, Leads (do
        modify fun s => { s with ledger := s.ledger.recordOutcome answer }
        save fill.time
        return answer : SessionStep HedgeOutcome).run (s.resume engine venues) (.ok outcome') t →
      outcome' = answer ∧ Echoes (s.resume engine venues) t ∧
        (s.ledger.recordOutcome answer).save ⟨engine.profit, engine.halted, fill.time⟩ =
          .ok t.ledger := by
    intro outcome' led
    rw [leads_run_modify_bind, leads_run_bind_ok] at led
    obtain ⟨_, _, saves, led⟩ := led
    obtain ⟨returned, rfl⟩ := leads_run_pure.1 led
    obtain ⟨ledger, saved, rfl⟩ := leads_save saves
    exact ⟨Except.ok.inj returned, (echoes_ledger _ _).trans (echoes_ledger _ _), saved⟩
  cases answer with
  | ignored =>
    obtain ⟨returned, rfl⟩ := leads_run_pure.1 led
    obtain rfl := Except.ok.inj returned
    exact ⟨hedged, .refl _, .inl ⟨rfl, rfl⟩⟩
  | hedged _ | unhedged _ =>
    obtain ⟨rfl, echoes, saved⟩ := recorded led
    exact ⟨hedged, echoes, .inr ⟨by simp, saved⟩⟩

/-- Either nothing is queued, or the first fill is handled and then the others. -/
theorem leads_handleQueued_succ (led : Leads (handleQueued (most + 1)).run s (.ok n) t) :
    (s.queue = [] ∧ n = 0 ∧ t = s) ∨ ∃ fill queue outcome u m, s.queue = fill :: queue ∧
      Leads (handle fill).run { s with queue } (.ok outcome) u ∧
      Leads (handleQueued most).run u (.ok m) t ∧ n = m + 1 := by
  rw [handleQueued, leads_run_get_bind] at led
  split at led
  next empty =>
    obtain ⟨returned, rfl⟩ := leads_run_pure.1 led
    exact .inl ⟨empty, Except.ok.inj returned, rfl⟩
  next fill queue waiting =>
    rw [leads_run_set_bind, leads_run_bind_ok] at led
    obtain ⟨outcome, u, handles, led⟩ := led
    rw [leads_run_bind_ok] at led
    obtain ⟨m, _, later, led⟩ := led
    obtain ⟨returned, rfl⟩ := leads_run_pure.1 led
    exact .inr ⟨fill, queue, outcome, u, m, waiting, handles, later, Except.ok.inj returned⟩

theorem leads_drain {r : Except StoreError Nat} :
    Leads drain.run s r t ↔ Leads (handleQueued (2 * s.queue.length)).run s r t :=
  leads_run_get_bind

theorem leads_advance (led : s.advance now = .ok t) : ∃ fills market venues,
    s.market.step now s.venues = .ok (fills, market, venues) ∧
      t = { s with market, venues }.collect := by
  simp only [advance, Checked.bind_ok, Checked.pure_ok, Prod.exists] at led
  obtain ⟨fills, market, maker, taker, moved, rfl⟩ := led
  exact ⟨fills, market, (maker, taker), moved, rfl⟩

/-- A tick: the market moves on, the queue is drained, the engine ticks. The ledger gets the events of
the tick, and the totals when a status is due. -/
theorem leads_tick {report : TickReport} (led : Leads (tick now).run s (.ok report) t) :
    ∃ u v n engine venues, s.advance now = .ok u ∧ Leads drain.run u (.ok n) v ∧
      Leads (v.engine.onTick desk now) v.venues (report, engine) venues ∧
      Echoes (v.resume engine venues) t ∧ ∃ ledger,
        ledger = v.ledger.recordTick engine.params.maker.venue engine.params.maker.pair report now ∧
        (t.ledger = ledger ∨
          ledger.save ⟨engine.profit, engine.halted, now⟩ = .ok t.ledger) := by
  rw [tick, leads_run_get_bind, leads_run_lift_bind] at led
  obtain ⟨⟨fills, market, moved⟩, steps, led⟩ := led
  rw [leads_run_set_bind, leads_run_bind_ok] at led
  obtain ⟨n, v, drains, led⟩ := led
  rw [leads_run_get_bind] at led
  obtain ⟨⟨answer, engine⟩, venues, ticks, led⟩ := leads_withVenues_bind led
  rw [leads_run_modify_bind, leads_run_get_bind] at led
  have echoes : ∀ ledger count, Echoes (v.resume engine venues)
      { archiveMarket now { collect { v with venues } with engine, ledger } with ticks := count } := by
    intro ledger count
    have archived := echoes_archiveMarket { collect { v with venues } with engine, ledger } now
    exact ⟨archived.engine, archived.market, archived.queue, archived.maker, archived.taker⟩
  refine ⟨_, v, n, engine, venues, ?_, drains, ?_⟩
  · rw [advance, steps]
    rfl
  split at led
  next =>
    rw [leads_run_bind_ok] at led
    obtain ⟨_, _, status, led⟩ := led
    rw [leads_run_bind_ok] at led
    obtain ⟨_, _, saves, led⟩ := led
    obtain ⟨returned, rfl⟩ := leads_run_pure.1 led
    obtain rfl := Except.ok.inj returned
    obtain rfl := leads_makeStatus ((echoes _ _).collected (collected_resume v engine venues)) status
    obtain ⟨ledger, saved, rfl⟩ := leads_save saves
    rw [ledger_archiveMarket, (echoes _ _).engine] at saved
    exact ⟨ticks, (echoes _ _).trans (echoes_ledger _ _), _, rfl, .inr saved⟩
  next =>
    obtain ⟨returned, rfl⟩ := leads_run_pure.1 led
    obtain rfl := Except.ok.inj returned
    exact ⟨ticks, echoes _ _, _, rfl, .inl (ledger_archiveMarket _ _)⟩

theorem leads_pull {r : Except StoreError Unit} (led : Leads pull.run s r t) :
    ∃ n engine venues, r = .ok () ∧ Leads (s.engine.onStop desk) s.venues (n, engine) venues ∧
      t = s.resume engine venues := by
  rw [pull, leads_run_get_bind] at led
  obtain ⟨⟨count, engine⟩, venues, stops, finished⟩ := leads_withVenues_bind led
  obtain ⟨rfl, rfl⟩ := leads_run_modify.1 finished
  exact ⟨_, engine, venues, rfl, stops, rfl⟩

theorem collected_handleQueued (collected : s.Collected)
    (led : Leads (handleQueued most).run s (.ok n) t) : t.Collected := by
  induction most generalizing s n with
  | zero =>
    obtain ⟨-, rfl⟩ := leads_run_pure.1 led
    exact collected
  | succ most ih =>
    rcases leads_handleQueued_succ led with
      ⟨-, -, rfl⟩ | ⟨fill, queue, outcome, u, m, -, handles, later, -⟩
    · exact collected
    · obtain ⟨engine, venues, -, echoes, -⟩ := leads_handle handles
      exact ih (echoes.collected (collected_resume _ engine venues)) later

/-- A shutdown: the queue is drained, the quotes are pulled, the queue is drained again, the totals are
saved and the archive is written. -/
theorem leads_shutdown (led : Leads (shutdown now).run s (.ok ()) t) :
    ∃ n u m v w, Leads drain.run s (.ok n) u ∧ Leads pull.run u (.ok ()) v ∧
      Leads drain.run v (.ok m) w ∧ Echoes w t ∧
      w.ledger.save ⟨w.engine.profit, w.engine.halted, now⟩ = .ok t.ledger ∧
      t.archive = w.archive.map fun archive => archive.flush.2 := by
  rw [shutdown, leads_run_bind_ok] at led
  obtain ⟨n, u, drains, led⟩ := led
  rw [leads_run_get_bind, leads_run_bind_ok] at led
  obtain ⟨⟨count, engine⟩, v, worked, led⟩ := led
  rw [leads_run_modify_bind, leads_run_bind_ok] at led
  obtain ⟨m, w, drains', led⟩ := led
  rw [leads_run_bind_ok] at led
  obtain ⟨_, x, saves, led⟩ := led
  rw [leads_run_modify_bind] at led
  have pulls : Leads pull.run u (.ok ()) { v with engine } :=
    leads_run_get_bind.2 (leads_run_bind_ok.2 ⟨_, _, worked, leads_run_modify.2 ⟨rfl, rfl⟩⟩)
  obtain ⟨_, _, _, -, -, resumed⟩ := leads_pull pulls
  have collected : w.Collected := by
    refine collected_handleQueued ?_ (leads_drain.1 drains')
    rw [resumed]
    exact collected_resume _ _ _
  obtain ⟨ledger, saved, rfl⟩ := leads_save saves
  have archived : Echoes { w with ledger }
      { w with ledger, archive := w.archive.map fun archive => archive.flush.2 } :=
    ⟨rfl, rfl, rfl, ⟨_, rfl⟩, ⟨_, rfl⟩⟩
  obtain rfl := leads_makeStatus (archived.collected ((echoes_ledger w ledger).collected collected)) led
  exact ⟨n, u, m, _, w, drains, pulls, drains', (echoes_ledger w ledger).trans archived, saved, rfl⟩

/-! ### Steps -/

/-- One part of an event, and the fill that it handles. The engine ticks and stops with an empty
queue only. -/
inductive Step : Session → List Handled → Session → Prop
  | advance {s : Session} {now : Instant} {fills : List Fill} {market : PaperMarket}
      {venues : Venues} (moved : s.market.step now s.venues = .ok (fills, market, venues)) :
    Step s [] (resume { s with market } s.engine venues)
  | take {s : Session} {fill : Fill} {queue : List Fill} {outcome : HedgeOutcome}
      {engine : Engine} {venues : Venues} (waiting : s.queue = fill :: queue)
      (led : Leads (s.engine.onFill desk fill) s.venues (outcome, engine) venues) :
    Step s [⟨fill, outcome, s.venues⟩] (resume { s with queue } engine venues)
  | tick {s : Session} {now : Instant} {report : TickReport} {engine : Engine} {venues : Venues}
      (empty : s.queue = []) (clock : s.venues.1.clock = now)
      (led : Leads (s.engine.onTick desk now) s.venues (report, engine) venues)
      (unrounded : report.Unrounded s.engine.params) :
    Step s [] (s.resume engine venues)
  | pull {s : Session} {n : Nat} {engine : Engine} {venues : Venues} (empty : s.queue = [])
      (led : Leads (s.engine.onStop desk) s.venues (n, engine) venues) :
    Step s [] (s.resume engine venues)
  | record {s t : Session} (echoes : Echoes s t) : Step s [] t

inductive Steps (s₀ : Session) : Session → List Handled → Prop
  | refl : Steps s₀ s₀ []
  | tail {s t : Session} {history more : List Handled}
      (steps : Steps s₀ s history) (step : Step s more t) : Steps s₀ t (history ++ more)

variable {history more : List Handled}

theorem Steps.trans (first : Steps s t history)
    (second : Steps t u more) : Steps s u (history ++ more) := by
  induction second with
  | refl => exact (List.append_nil history).symm ▸ first
  | tail _ step ih => exact List.append_assoc .. ▸ ih.tail step

/-- A step that handles no fill adds nothing to the history. -/
theorem Steps.quiet (steps : Steps s t history) (step : Step t [] u) : Steps s u history :=
  List.append_nil history ▸ steps.tail step

section Handling

variable {queue : List Fill} {outcome : HedgeOutcome}

theorem handled_cons (waiting : s.queue = fill :: queue)
    (led : Leads (handle fill).run { s with queue } (.ok outcome) t) :
    handled (most + 1) s = ⟨fill, outcome, s.venues⟩ :: handled most t := by
  rw [handled, waiting]
  dsimp only
  rw [show (handle fill).run.run { s with queue } = .ok (.ok outcome, t) from led]

theorem steps_handle (waiting : s.queue = fill :: queue)
    (led : Leads (handle fill).run { s with queue } (.ok outcome) t) :
    Steps s t [⟨fill, outcome, s.venues⟩] := by
  obtain ⟨engine, venues, hedged, echoes, -⟩ := leads_handle led
  exact (Steps.refl.tail (.take waiting hedged)).quiet (.record echoes)

theorem steps_handleQueued (led : Leads (handleQueued most).run s (.ok n) t) :
    Steps s t (handled most s) := by
  induction most generalizing s n with
  | zero =>
    obtain ⟨-, rfl⟩ := leads_run_pure.1 led
    exact .refl
  | succ most ih =>
    rcases leads_handleQueued_succ led with
      ⟨empty, -, rfl⟩ | ⟨fill, queue, outcome, u, m, waiting, handles, later, -⟩
    · rw [handled, empty]
      exact .refl
    · rw [handled_cons waiting handles]
      exact (steps_handle waiting handles).trans (ih later)

/-- As far as it gets, handling fills consists of steps. -/
theorem exists_steps_handled (most : Nat) (s : Session) : ∃ t, Steps s t (handled most s) := by
  induction most generalizing s with
  | zero => exact ⟨s, .refl⟩
  | succ most ih =>
    rw [handled]
    split
    next => exact ⟨s, .refl⟩
    next fill queue waiting =>
      split
      next outcome u led =>
        obtain ⟨t, later⟩ := ih u
        exact ⟨t, (steps_handle waiting led).trans later⟩
      next => exact ⟨s, .refl⟩

end Handling

end Session

end MarketMaker
