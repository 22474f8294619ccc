import MarketMaker.Proofs.Session.Expectation
import MarketMaker.Proofs.Session.Market
import MarketMaker.Proofs.Session.Run
/-!
Where fills go. Both venues report into one queue, and the engine tells their fills apart by their
ids: a fill of the maker's venue is always one of a tracked quote, a fill of the taker's venue never
is. So the queue runs empty, and the engine ticks with no fill of an older quote under way.
-/

namespace MarketMaker

namespace Session

open Act

/-- The venues have the names of different markets, and queued fills are theirs. -/
structure Wired (s : Session) : Prop where
  valid : s.engine.params.Valid
  makerId : s.venues.1.id = s.engine.params.maker.venue
  takerId : s.venues.2.id = s.engine.params.taker.venue
  backed : ∀ fill ∈ s.queue, s.venues.1.Backs fill ∨ s.venues.2.Backs fill

/-- The state between the parts of events. -/
structure Routed (s : Session) : Prop extends s.Wired where
  collected : s.Collected
  expects : Expects s.venues.1 s.engine.book s.queue
  hedges : s.venues.2.Sound
  uniform : s.venues.1.Uniform s.market.config.levelAmount

/-- A fill of an order of the maker's venue is hedged or left open, one of the taker's is ignored. -/
def Routes (entry : Handled) : Prop :=
  (entry.venues.1.Backs entry.fill ∧ ¬ entry.venues.2.Backs entry.fill ∧ entry.outcome ≠ .ignored) ∨
    (entry.venues.2.Backs entry.fill ∧ ¬ entry.venues.1.Backs entry.fill ∧
      entry.outcome = .ignored)

section Parts

variable {s t : Session} {engine : Engine} {maker taker : SimulatedVenue} {venues : Venues}
  {now : Instant}

theorem Wired.apart (wired : s.Wired) {id : OrderId} (issued : Issued s.venues.1.id id) :
    ¬ Issued s.venues.2.id id := by
  intro issued'
  have same := issued.venue_eq issued'
  rw [wired.makerId, wired.takerId] at same
  exact wired.valid.venues same

theorem Wired.rest (wired : s.Wired) {fill : Fill} {queue : List Fill}
    (waiting : s.queue = fill :: queue) : ({ s with queue } : Session).Wired where
  valid := wired.valid
  makerId := wired.makerId
  takerId := wired.takerId
  backed other member := wired.backed other (waiting ▸ List.mem_cons_of_mem _ member)

theorem Wired.withMarket (wired : s.Wired) (market : PaperMarket) :
    ({ s with market } : Session).Wired :=
  ⟨wired.valid, wired.makerId, wired.takerId, wired.backed⟩

/-- No fill that the taker's venue reports is one of a quote. -/
theorem Wired.foreign (wired : s.Wired) (takerId : taker.id = s.venues.2.id)
    (hedges : taker.Healthy) : ∀ fill ∈ taker.outbox, ¬ Issued s.venues.1.id fill.orderId := by
  intro fill member issued
  have own := hedges.sound.issued (hedges.backed fill member).1
  rw [takerId] at own
  exact wired.apart issued own

theorem Collected.healthy (collected : s.Collected) (maker : s.venues.1.Sound)
    (taker : s.venues.2.Sound) : s.venues.1.Healthy ∧ s.venues.2.Healthy := by
  refine ⟨⟨maker, ?_⟩, taker, ?_⟩
  · rw [collected.1]
    exact fun fill member => by cases member
  · rw [collected.2]
    exact fun fill member => by cases member

/-- The venues hand over their fills. -/
theorem Wired.wired_resume (wired : s.Wired) (params : engine.params = s.engine.params)
    (later : s.venues.1.Precedes maker) (later' : s.venues.2.Precedes taker)
    (healthy : maker.Healthy) (hedges : taker.Healthy) :
    (s.resume engine (maker, taker)).Wired := by
  refine ⟨params ▸ wired.valid, ?_, ?_, ?_⟩
  · exact (later.id.trans wired.makerId).trans (congrArg (fun p => p.maker.venue) params).symm
  · exact (later'.id.trans wired.takerId).trans (congrArg (fun p => p.taker.venue) params).symm
  · intro fill member
    rcases List.mem_append.1 member with old | new'
    · rcases List.mem_append.1 old with before | hedge
      · exact (wired.backed fill before).imp (SimulatedVenue.Backs.mono (w := maker) later)
          (SimulatedVenue.Backs.mono (w := taker) later')
      · exact .inr (hedges.backed fill hedge)
    · exact .inl (healthy.backed fill new')

/-- The venues hand over their fills, and the maker's still are what the quote book expects. -/
theorem Wired.resume (wired : s.Wired) (params : engine.params = s.engine.params)
    (later : s.venues.1.Precedes maker) (later' : s.venues.2.Precedes taker)
    (expects : Expects maker engine.book (s.queue ++ maker.outbox)) (healthy : maker.Healthy)
    (hedges : taker.Healthy) (uniform : maker.Uniform s.market.config.levelAmount) :
    (s.resume engine (maker, taker)).Routed := by
  have all := expects.insert (later.id ▸ wired.foreign later'.id hedges)
  exact ⟨wired.wired_resume params later later' healthy hedges, collected_resume _ _ _,
    all.congr (healthy.sound.congr rfl rfl rfl rfl) ⟨rfl, List.Subset.refl _⟩ rfl,
    hedges.sound.congr rfl rfl rfl rfl, uniform⟩

theorem Wired.echo (wired : s.Wired) (echoes : Echoes s t) : t.Wired := by
  obtain ⟨tape, maker⟩ := echoes.maker
  obtain ⟨tape', taker⟩ := echoes.taker
  have makerId : t.venues.1.id = s.venues.1.id := by rw [maker]
  have takerId : t.venues.2.id = s.venues.2.id := by rw [taker]
  have backed : ∀ fill ∈ s.queue, t.venues.1.Backs fill ∨ t.venues.2.Backs fill := by
    rw [maker, taker]
    exact wired.backed
  refine ⟨?_, ?_, ?_, ?_⟩
  · rw [echoes.engine]
    exact wired.valid
  · rw [makerId, echoes.engine]
    exact wired.makerId
  · rw [takerId, echoes.engine]
    exact wired.takerId
  · rw [echoes.queue]
    exact backed

theorem Echoes.sound (echoes : Echoes s t) :
    (s.venues.1.Sound → t.venues.1.Sound) ∧ (s.venues.2.Sound → t.venues.2.Sound) := by
  obtain ⟨tape, maker⟩ := echoes.maker
  obtain ⟨tape', taker⟩ := echoes.taker
  rw [maker, taker]
  exact ⟨fun sound => sound.congr rfl rfl rfl rfl, fun sound => sound.congr rfl rfl rfl rfl⟩

theorem Routed.echo (routed : s.Routed) (echoes : Echoes s t) : t.Routed := by
  obtain ⟨tape, maker⟩ := echoes.maker
  have expects : Expects t.venues.1 s.engine.book s.queue := by
    rw [maker]
    exact routed.expects.congr (routed.expects.sound.congr rfl rfl rfl rfl)
      ⟨rfl, List.Subset.refl _⟩ rfl
  refine ⟨routed.toWired.echo echoes, echoes.collected routed.collected, ?_,
    echoes.sound.2 routed.hedges, ?_⟩
  · rw [echoes.engine, echoes.queue]
    exact expects
  · rw [echoes.market]
    exact routed.uniform.congr (by rw [maker])

theorem routed_start {config : Config} {ledger : Ledger} {archive : Option Archive}
    (done : Session.start config ledger archive now = .ok s) : s.Routed := by
  simp only [Session.start, Checked.bind_ok, Checked.pure_ok] at done
  obtain ⟨p, accepted, rfl⟩ := done
  refine ⟨⟨(Config.parameters_valid accepted).1, rfl, rfl, by simp⟩, ⟨rfl, rfl⟩,
    .start p.maker.venue p.makerFee now _, ?_, ?_⟩
  · exact (SimulatedVenue.sound_new p.taker.venue p.takerFee now).congr rfl rfl rfl rfl
  · intro pair book found
    cases found

theorem Routed.healthy (routed : s.Routed) : s.venues.1.Healthy ∧ s.venues.2.Healthy :=
  routed.collected.healthy routed.expects.sound routed.hedges

variable [Arithmetic]

/-- The books fill resting orders, and so more fills are to come. -/
theorem Routed.advance (rounds : Arithmetic.Rounds) (routed : s.Routed) {fills : List Fill}
    {market : PaperMarket} (moved : s.market.step now s.venues = .ok (fills, market, venues)) :
    (Session.resume { s with market } s.engine venues).Routed := by
  obtain ⟨config, takerBook, makerBook, _, _, -, same, takes, makes⟩ := PaperMarket.step_ok moved
  have maker := routed.healthy.1.withClock now
  have taker := routed.healthy.2.withClock now
  have expects : Expects { s.venues.1 with clock := now } s.engine.book
      (s.queue ++ s.venues.1.outbox) := by
    rw [routed.collected.1, List.append_nil]
    exact routed.expects.congr maker.sound ⟨rfl, List.Subset.refl _⟩ rfl
  have uniform : ({ s.venues.1 with clock := now } : SimulatedVenue).Uniform
      s.market.config.levelAmount := routed.uniform.congr rfl
  have later := SimulatedVenue.precedes_setBook maker.sound makes
  have later' := SimulatedVenue.precedes_setBook taker.sound takes
  refine (routed.withMarket market).resume rfl ⟨later.id, later.log⟩ ⟨later'.id, later'.log⟩
    (expects.setBook rounds makes)
    (SimulatedVenue.healthy_setBook maker makes) (SimulatedVenue.healthy_setBook taker takes) ?_
  have after := uniform.setBook same makes
  exact config.symm ▸ after

/-- What a fill leads to at the venues: at most one order at the taker, which reports at most one
fill. -/
theorem Collected.hedge (collected : s.Collected) (hedges : s.venues.2.Healthy) {fill : Fill}
    {outcome : HedgeOutcome}
    (led : Leads (s.engine.onFill desk fill) s.venues (outcome, engine) venues) :
    venues.1 = s.venues.1 ∧ s.venues.2.Precedes venues.2 ∧ venues.2.Healthy ∧
      venues.2.outbox.length ≤ 1 ∧ (outcome = .ignored → venues = s.venues) := by
  obtain ⟨-, -, -, ⟨-, -, rfl⟩ | ⟨-, _, _, n, rfl, rfl⟩ | ⟨-, record, taker, rfl, rfl, sent⟩⟩ :=
    Engine.onFill_cases led
  · refine ⟨rfl, .refl _, hedges, ?_, fun _ => rfl⟩
    rw [collected.2]
    exact zero_le_one
  · refine ⟨rfl, ⟨rfl, List.Subset.refl _⟩,
      hedges.congr rfl rfl rfl rfl (List.Subset.refl _), ?_, by simp⟩
    rw [collected.2]
    exact zero_le_one
  · obtain ⟨price, accepted⟩ := sent.accepted
    obtain ⟨fills, outbox, few⟩ := SimulatedVenue.placeOrder_outbox accepted
    rw [collected.2, List.nil_append] at outbox
    exact ⟨rfl, SimulatedVenue.precedes_placeOrder hedges.sound accepted,
      SimulatedVenue.healthy_placeOrder hedges accepted, outbox ▸ few, by simp⟩

/-- A fill goes where its id says. -/
theorem Routed.take (rounds : Arithmetic.Rounds) (routed : s.Routed) {fill : Fill}
    {queue : List Fill} {outcome : HedgeOutcome} (waiting : s.queue = fill :: queue)
    (led : Leads (s.engine.onFill desk fill) s.venues (outcome, engine) venues) :
    (Session.resume { s with queue } engine venues).Routed ∧
      Routes ⟨fill, outcome, s.venues⟩ := by
  obtain ⟨maker, later, healthy, -, -⟩ := routed.collected.hedge routed.healthy.2 led
  obtain ⟨params, answer, settled, cases'⟩ := Engine.onFill_cases led
  have expects := routed.expects
  rw [waiting] at expects
  have resumed : Expects s.venues.1 engine.book queue →
      (Session.resume { s with queue } engine venues).Routed := by
    intro expects
    obtain ⟨_, _⟩ := venues
    obtain rfl : _ = s.venues.1 := maker
    refine (routed.rest waiting).resume params (.refl _) later ?_ routed.healthy.1 healthy
      routed.uniform
    rw [routed.collected.1, List.append_nil]
    exact expects
  have backs := routed.backed fill (waiting ▸ List.mem_cons_self)
  by_cases issued : Issued s.venues.1.id fill.orderId
  · obtain ⟨answered, after⟩ := expects.deliver rounds issued settled
    have foreign : ¬ s.venues.2.Backs fill := fun own =>
      routed.apart issued (routed.hedges.issued own.1)
    refine ⟨resumed after, .inl ⟨backs.resolve_right foreign, foreign, ?_⟩⟩
    rcases cases' with ⟨nothing, -⟩ | ⟨-, _, _, _, rfl, -⟩ | ⟨-, _, _, rfl, -⟩
    · exact absurd nothing answered
    · simp
    · simp
  · obtain ⟨nothing, same, after⟩ := expects.ignore issued settled
    have foreign : ¬ s.venues.1.Backs fill := fun own => issued (routed.expects.sound.issued own.1)
    refine ⟨resumed (same ▸ after), .inr ⟨backs.resolve_left foreign, foreign, ?_⟩⟩
    rcases cases' with ⟨-, rfl, -⟩ | ⟨answered, -⟩ | ⟨answered, -⟩
    · rfl
    · exact absurd nothing answered
    · exact absurd nothing answered

/-- The maker's venue and the quote book, with an empty journal. -/
def front (s : Session) : Front := ⟨s.venues.1, s.engine.book, .empty⟩

omit [Arithmetic] in
/-- With an empty queue no fill is under way when the engine begins to act. -/
theorem Routed.prompt (routed : s.Routed) (empty : s.queue = []) {rules : Rules}
    (ready : ∀ {side price}, rules.aim side price →
      s.venues.1.FairBooks ∧ s.venues.1.clock = rules.now) : s.front.Prompt rules where
  expects := by
    have expects := routed.expects
    rw [empty, ← routed.collected.1] at expects
    exact expects
  healthy := routed.healthy.1
  ready := ready
  fresh {side order} found moving := by
    have none : s.front.venue.outbox = [] := routed.collected.1
    rw [none] at moving
    exact absurd (Fill.amountsOf_nil order.id) moving

/-- What the engine does on its own leaves the session as it should be. -/
theorem Routed.moves (rounds : Arithmetic.Rounds) (routed : s.Routed) (empty : s.queue = [])
    {rules : Rules} (patient : rules.Patient)
    (ready : ∀ {side price}, rules.aim side price →
      s.venues.1.FairBooks ∧ s.venues.1.clock = rules.now) {pair : Pair} {j : Journal}
    (params : engine.params = s.engine.params) (taker : venues.2 = s.venues.2)
    (steps : Relation.ReflTransGen (Move pair rules) s.front ⟨venues.1, engine.book, j⟩) :
    (s.resume engine venues).Routed := by
  obtain ⟨prompt, books, later⟩ := (routed.prompt empty ready).moves rounds patient steps
  obtain ⟨maker, _⟩ := venues
  obtain rfl : _ = s.venues.2 := taker
  refine routed.toWired.resume params later (.refl _) ?_ prompt.healthy routed.healthy.2
    (routed.uniform.congr books)
  rw [empty]
  exact prompt.expects

theorem Routed.tick (rounds : Arithmetic.Rounds) (routed : s.Routed) (empty : s.queue = [])
    {report : TickReport} (clock : s.venues.1.clock = now)
    (led : Leads (s.engine.onTick desk now) s.venues (report, engine) venues)
    (unrounded : report.Unrounded s.engine.params) : (s.resume engine venues).Routed := by
  obtain ⟨taker, updated, cases'⟩ :=
    Engine.onTick_moves .empty routed.expects.sound routed.expects.sided led
  have params : engine.params = s.engine.params := by rw [updated]
  rcases cases' with ⟨-, rfl, rfl, -⟩ | ⟨quotes, answered, fetched, steps⟩
  · obtain ⟨healthy, hedges⟩ := routed.healthy
    refine routed.toWired.resume params (.refl _) (.refl _) ?_ healthy hedges routed.uniform
    rw [routed.collected.1, List.append_nil]
    exact routed.expects
  · obtain ⟨-, -, makerBuy, -⟩ := leads_fetch fetched
    have fair := routed.uniform.fair_of_executable rounds routed.valid.orderAmount makerBuy
    have patient : (Rules.tick s.engine.params quotes now report.Places).Patient :=
      Rules.patient_tick rounds routed.valid fun side places => unrounded quotes side answered places
    exact routed.moves rounds empty patient (fun _ => ⟨fair, clock⟩) params taker steps

theorem Routed.pull (rounds : Arithmetic.Rounds) (routed : s.Routed) (empty : s.queue = [])
    {n : Nat} (led : Leads (s.engine.onStop desk) s.venues (n, engine) venues) :
    (s.resume engine venues).Routed := by
  obtain ⟨taker, updated, steps⟩ := Engine.onStop_moves .empty led
  have params : engine.params = s.engine.params := by rw [updated]
  exact routed.moves rounds empty Rules.patient_stop (fun aim => aim.elim) params taker steps

end Parts

/-! ### The queue runs empty -/

open Classical in
/-- How many steps the queue can still take. A fill of the maker's venue may add one. -/
noncomputable def weight (s : Session) : Nat :=
  s.queue.length + s.queue.countP fun fill => Issued s.venues.1.id fill.orderId

section Drain

variable [Arithmetic] {s t u : Session} {engine : Engine} {venues : Venues} {now : Instant}
  {most n : Nat} {fill : Fill} {queue : List Fill} {outcome : HedgeOutcome}

omit [Arithmetic] in
theorem weight_le (s : Session) : s.weight ≤ 2 * s.queue.length := by
  classical
  have few := List.countP_le_length (p := fun fill : Fill => Issued s.venues.1.id fill.orderId)
    (l := s.queue)
  unfold weight
  omega

omit [Arithmetic] in
theorem queue_of_weight (light : s.weight = 0) : s.queue = [] := by
  unfold weight at light
  exact List.length_eq_zero_iff.1 (by omega)

omit [Arithmetic] in
theorem Echoes.weight (echoes : Echoes s t) : t.weight = s.weight := by
  obtain ⟨_, maker⟩ := echoes.maker
  unfold Session.weight
  rw [echoes.queue, maker]

/-- A fill of a quote may put the one of its hedge into the queue, and that one puts none. -/
theorem Routed.take_weight (rounds : Arithmetic.Rounds) (routed : s.Routed)
    (waiting : s.queue = fill :: queue)
    (led : Leads (s.engine.onFill desk fill) s.venues (outcome, engine) venues) :
    (Session.resume { s with queue } engine venues).weight < s.weight := by
  classical
  obtain ⟨maker, later, healthy, few, idle⟩ := routed.collected.hedge routed.healthy.2 led
  obtain ⟨-, ⟨backs, -, -⟩ | ⟨backs, -, ignored⟩⟩ := routed.take rounds waiting led
  · have issued := routed.expects.sound.issued backs.1
    have none : venues.2.outbox.countP (fun fill => Issued s.venues.1.id fill.orderId) = 0 := by
      rw [List.countP_eq_zero]
      intro hedge member
      simpa using routed.foreign later.id healthy hedge member
    have same : (Session.resume { s with queue } engine venues).venues.1.id = s.venues.1.id := by
      change venues.1.id = _
      rw [maker]
    unfold weight
    rw [queue_resume, maker, routed.collected.1, List.append_nil, same, waiting, List.length_append,
      List.countP_append, none, List.length_cons, List.countP_cons_of_pos (by simpa using issued)]
    dsimp only
    omega
  · have foreign : ¬ Issued s.venues.1.id fill.orderId := fun issued =>
      routed.apart issued (routed.hedges.issued backs.1)
    obtain rfl := idle ignored
    have same : (Session.resume { s with queue } engine s.venues).venues.1.id = s.venues.1.id := rfl
    unfold weight
    rw [queue_resume, routed.collected.1, routed.collected.2, List.append_nil, List.append_nil, same,
      waiting, List.length_cons, List.countP_cons_of_neg (by simpa using foreign)]
    dsimp only
    omega

/-- Handling the queue leaves the time and the engine's parameters alone, and it leaves nothing queued
if it may handle as many fills as the queue has weight. -/
theorem Routed.handleQueued (rounds : Arithmetic.Rounds) (routed : s.Routed)
    (led : Leads (handleQueued most).run s (.ok n) t) :
    t.Routed ∧ t.engine.params = s.engine.params ∧ t.venues.1.clock = s.venues.1.clock ∧
      (s.weight ≤ most → t.queue = []) := by
  induction most generalizing s n with
  | zero =>
    obtain ⟨-, rfl⟩ := leads_run_pure.1 led
    exact ⟨routed, rfl, rfl, fun light => queue_of_weight (Nat.le_zero.1 light)⟩
  | succ most ih =>
    rcases leads_handleQueued_succ led with
      ⟨empty, -, rfl⟩ | ⟨fill, queue, outcome, u, m, waiting, handles, later, -⟩
    · exact ⟨routed, rfl, rfl, fun _ => empty⟩
    · obtain ⟨engine, venues, hedged, echoes, -⟩ := leads_handle handles
      obtain ⟨taken, -⟩ := routed.take rounds waiting hedged
      obtain ⟨maker, -⟩ := routed.collected.hedge routed.healthy.2 hedged
      have lighter := routed.take_weight rounds waiting hedged
      have params := (Engine.onFill_cases hedged).1
      obtain ⟨_, tape⟩ := echoes.maker
      obtain ⟨routed', params', clock, empty⟩ := ih (taken.echo echoes) later
      refine ⟨routed', ?_, ?_, fun light => empty ?_⟩
      · rw [params', echoes.engine]
        exact params
      · rw [clock, tape]
        change venues.1.clock = _
        rw [maker]
      · rw [echoes.weight]
        omega

theorem Routed.drain (rounds : Arithmetic.Rounds) (routed : s.Routed)
    (led : Leads drain.run s (.ok n) t) :
    t.Routed ∧ t.engine.params = s.engine.params ∧ t.venues.1.clock = s.venues.1.clock ∧
      t.queue = [] := by
  obtain ⟨routed', params, clock, empty⟩ := routed.handleQueued rounds (leads_drain.1 led)
  exact ⟨routed', params, clock, empty s.weight_le⟩

/-! ### Runs -/

theorem Step.routed (rounds : Arithmetic.Rounds) {entries : List Handled}
    (step : Step s entries t) (routed : s.Routed) :
    t.Routed ∧ t.engine.params = s.engine.params ∧
      ∀ entry ∈ entries, Routes entry := by
  cases step with
  | advance moved => exact ⟨routed.advance rounds moved, rfl, by simp⟩
  | take waiting led =>
    obtain ⟨routed', routes⟩ := routed.take rounds waiting led
    exact ⟨routed', (Engine.onFill_cases led).1, by simpa using routes⟩
  | tick empty clock led unrounded =>
    obtain ⟨-, updated, -⟩ :=
      Engine.onTick_moves .empty routed.expects.sound routed.expects.sided led
    refine ⟨routed.tick rounds empty clock led unrounded, ?_, by simp⟩
    exact (congrArg Engine.params updated :)
  | pull empty led =>
    obtain ⟨-, updated, -⟩ := Engine.onStop_moves .empty led
    exact ⟨routed.pull rounds empty led, (congrArg Engine.params updated :), by simp⟩
  | record echoes => exact ⟨routed.echo echoes, congrArg Engine.params echoes.engine, by simp⟩

theorem Steps.routed (rounds : Arithmetic.Rounds) {history : List Handled}
    (steps : Steps s t history) (routed : s.Routed) :
    t.Routed ∧ t.engine.params = s.engine.params ∧
      ∀ entry ∈ history, Routes entry := by
  induction steps with
  | refl => exact ⟨routed, rfl, by simp⟩
  | tail _ step ih =>
    obtain ⟨between, params, before⟩ := ih
    obtain ⟨after, params', routes⟩ := step.routed rounds between
    refine ⟨after, params'.trans params, fun entry member => ?_⟩
    exact (List.mem_append.1 member).elim (before entry) (routes entry)

theorem advance_clock (led : s.advance now = .ok t) :
    t.venues.1.clock = now ∧ t.engine = s.engine ∧ Step s [] t := by
  obtain ⟨fills, market, venues, moved, rfl⟩ := leads_advance led
  obtain ⟨-, _, _, _, _, -, -, -, makes⟩ := PaperMarket.step_ok moved
  exact ⟨SimulatedVenue.setBook_clock makes, rfl, .advance moved⟩

theorem Routed.steps_tick (rounds : Arithmetic.Rounds) (routed : s.Routed) {report : TickReport}
    (led : Leads (Session.tick now).run s (.ok report) t)
    (unrounded : report.Unrounded s.engine.params) : Steps s t (Event.handled (.tick now) s) := by
  obtain ⟨u, v, n, engine, venues, advanced, drains, ticks, echoes, -⟩ := leads_tick led
  obtain ⟨clock, same, step⟩ := advance_clock advanced
  obtain ⟨-, params, clock', empty⟩ := (step.routed rounds routed).1.drain rounds drains
  have drained : Steps u v u.drained := steps_handleQueued (leads_drain.1 drains)
  have handled : Event.handled (.tick now) s = u.drained := by
    rw [Event.handled, advanced]
  rw [← same, ← params] at unrounded
  rw [handled]
  exact (((Steps.refl.quiet step).trans drained).quiet
    (.tick empty (clock'.trans clock) ticks unrounded)).quiet (.record echoes)

theorem Routed.steps_shutdown (rounds : Arithmetic.Rounds) (routed : s.Routed)
    (led : Leads (Session.shutdown now).run s (.ok ()) t) :
    Steps s t (Event.handled (.shutdown now) s) := by
  obtain ⟨n, u, m, v, w, drains, pulls, drains', echoes, -⟩ := leads_shutdown led
  obtain ⟨-, -, -, empty⟩ := routed.drain rounds drains
  have drained : Steps s u s.drained := steps_handleQueued (leads_drain.1 drains)
  have drained' : Steps v w v.drained := steps_handleQueued (leads_drain.1 drains')
  obtain ⟨k, engine, venues, -, stopped, rfl⟩ := leads_pull pulls
  have both : Leads (do let _ ← Session.drain; Session.pull : SessionStep Unit).run s (.ok ())
      (u.resume engine venues) := leads_run_bind_ok.2 ⟨n, u, drains, pulls⟩
  have handled : Event.handled (.shutdown now) s =
      s.drained ++ (u.resume engine venues).drained := by
    rw [Leads] at both
    rw [Event.handled, both]
  rw [handled]
  exact ((drained.quiet (.pull empty stopped)).trans drained').quiet (.record echoes)

/-- A run consists of steps. -/
theorem Run.steps (rounds : Arithmetic.Rounds) {s₀ : Session} {history : List Handled}
    (run : Run s₀ s history) (routed : s₀.Routed) : Steps s₀ s history := by
  induction run with
  | start => exact .refl
  | tick _ led unrounded ih =>
    exact ih.trans ((ih.routed rounds routed).1.steps_tick rounds led unrounded)
  | handle _ led ih => exact ih.trans (steps_handleQueued led)
  | drain _ led ih => exact ih.trans (steps_handleQueued (leads_drain.1 led))
  | shutdown _ led ih =>
    exact ih.trans ((ih.routed rounds routed).1.steps_shutdown rounds led)

/-- As far as it gets, an event consists of steps. -/
theorem Routed.exists_steps_event (rounds : Arithmetic.Rounds) (routed : s.Routed) (event : Event) :
    ∃ t, Steps s t (event.handled s) := by
  cases event with
  | tick now =>
    cases advanced : s.advance now with
    | error e =>
      rw [Event.handled, advanced]
      exact ⟨s, .refl⟩
    | ok u =>
      obtain ⟨t, later⟩ := exists_steps_handled (2 * u.queue.length) u
      rw [Event.handled, advanced]
      exact ⟨t, (Steps.refl.quiet (advance_clock advanced).2.2).trans later⟩
  | handle most => exact exists_steps_handled most s
  | drain => exact exists_steps_handled _ s
  | shutdown now =>
    rw [Event.handled]
    split
    next v led =>
      obtain ⟨n, u, drains, pulls⟩ := leads_run_bind_ok.1 led
      obtain ⟨-, -, -, empty⟩ := routed.drain rounds drains
      obtain ⟨k, engine, venues, -, stopped, rfl⟩ := leads_pull pulls
      obtain ⟨t, later⟩ := exists_steps_handled _ (u.resume engine venues)
      have drained : Steps s u s.drained := steps_handleQueued (leads_drain.1 drains)
      exact ⟨t, (drained.quiet (.pull empty stopped)).trans later⟩
    next =>
      rw [List.append_nil]
      exact exists_steps_handled _ s

end Drain

/-! ### Where fills go -/

/-- Whatever happens in a session, also in an event that fails: each fill of the maker's venue is
hedged or left open, and each fill of the taker's venue is ignored. -/
theorem fills_routed {config : Config} {ledger : Ledger} {archive : Option Archive} {now : Instant}
    {s₀ s : Session} {history : List Handled}
    (started : start config ledger archive now = .ok s₀) (run : @Run .rounding s₀ s history)
    (event : Event) : ∀ entry ∈ history ++ @Event.handled .rounding event s, Routes entry := by
  have routed := routed_start started
  have steps := @Run.steps .rounding s Arithmetic.rounding_rounds s₀ history run routed
  have between := @Steps.routed .rounding s₀ s Arithmetic.rounding_rounds history steps routed
  obtain ⟨t, later⟩ :=
    @Routed.exists_steps_event .rounding s Arithmetic.rounding_rounds between.1 event
  have both := @Steps.trans .rounding s₀ s t history _ steps later
  exact (@Steps.routed .rounding s₀ t Arithmetic.rounding_rounds _ both routed).2.2

/-- A market whose prices rise by 60 basis points a tick. -/
def risingConfig : Config :=
  { maker := { venue := "okx", pair := "DOGE-USDT", tickSize := .of 1 5 }
    taker := { venue := "binance", pair := "DOGE-USDT", tickSize := .of 1 5 }
    paper := { driftBps := .of 60 0, makerLagTicks := 0, levels := 1 } }

/-- The second tick takes the ask of the first, and its hedge executes. -/
theorem routed_rising : ∃ s₀ s history, start risingConfig .empty none ⟨0⟩ = .ok s₀ ∧
    @Run .rounding s₀ s history ∧ (∃ entry ∈ history, entry.outcome ≠ .ignored) ∧
    (∃ entry ∈ history, entry.outcome = .ignored) ∧
    ∀ entry ∈ history ++ @Event.handled .rounding .drain s, Routes entry := by
  have works : (start risingConfig .empty none ⟨0⟩).toOption.any
      (@ticksTo .rounding ⟨0⟩ fun s => @ticksTo .rounding ⟨0⟩ (fun _ => decide
        ((∃ entry ∈ @Event.handled .rounding (.tick ⟨0⟩) s, entry.outcome ≠ .ignored) ∧
          ∃ entry ∈ @Event.handled .rounding (.tick ⟨0⟩) s, entry.outcome = .ignored)) s) = true := by
    decide +kernel
  obtain ⟨s₀, started, works⟩ := Checked.toOption_any works
  obtain ⟨s, first, works⟩ := @Run.exists_tick .rounding _ _ _ _ _ (@Run.start .rounding s₀) works
  obtain ⟨t, second, works⟩ := @Run.exists_tick .rounding _ _ _ _ _ first works
  obtain ⟨⟨quote, inHistory, hedged⟩, hedge, inHistory', ignored⟩ := of_decide_eq_true works
  exact ⟨s₀, t, _, started, second, ⟨quote, List.mem_append_right _ inHistory, hedged⟩,
    ⟨hedge, List.mem_append_right _ inHistory', ignored⟩, fills_routed started second .drain⟩

end Session

end MarketMaker
