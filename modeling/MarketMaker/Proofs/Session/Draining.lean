import MarketMaker.Proofs.Session.Routing
/-!
Draining the queue of fills that it feeds itself. Whatever was called before, in whichever order and
with whatever result, every order that the engine knows has an id of the maker's venue. So a fill of
that venue adds at most the fill of its hedge, a fill of the taker's venue adds none, and the queue runs
empty as long as fills can be handled.
-/

namespace MarketMaker

namespace SimulatedVenue

instance (v : SimulatedVenue) (id : OrderId) (pair : Pair) (side : Side) :
    Decidable (v.Accepted id pair side) :=
  inferInstanceAs (Decidable (∃ entry ∈ v.log, entry.id = id ∧ entry.pair = pair ∧ entry.side = side))

instance (v : SimulatedVenue) (fill : Fill) : Decidable (v.Backs fill) :=
  inferInstanceAs (Decidable (v.Accepted fill.orderId fill.pair fill.side ∧ 0 < fill.amount.value))

end SimulatedVenue

/-! ### Orders of one venue -/

namespace QuoteBook

/-- The ids of all known orders may be the venue's. -/
def Own (book : QuoteBook) (venue : String) : Prop :=
  ∀ order ∈ book.known, Issued venue order.id

variable {book after : QuoteBook} {venue : String} {side : Side}

theorem own_empty (venue : String) : empty.Own venue := by
  intro order member
  cases member

theorem Own.setTracked (own : book.Own venue) {kept : Option TrackedOrder}
    (issued : ∀ order, kept = some order → Issued venue order.id) :
    (book.setTracked side kept).Own venue := by
  intro order member
  rcases known_of_setTracked member with new | old
  · exact issued order new
  · exact own order old

theorem Own.settle [Arithmetic] (own : book.Own venue) {id : OrderId} {amount : Decimal}
    {answer : Option Decimal} (done : book.settle side id amount = .ok (answer, after)) :
    after.Own venue := by
  intro order member
  rcases mem_known.1 member with ⟨other, tracked⟩ | released
  · obtain ⟨before, found, same, -⟩ := tracked_of_settle done tracked
    exact same ▸ own before (mem_known.2 (.inl ⟨other, found⟩))
  · obtain ⟨before, found, same⟩ := released_of_settle done released
    exact same ▸ own before (mem_known.2 (.inr found))

end QuoteBook

theorem Move.book_own [Arithmetic] {pair : Pair} {rules : Rules} {f g : Front}
    (move : Move pair rules f g) (sound : f.venue.Sound) (own : f.book.Own f.venue.id) :
    g.book.Own g.venue.id := by
  rw [(move.venue_sound sound).2.id]
  cases move with
  | refuse n => exact own
  | place idle aimed accepted =>
    obtain ⟨rfl, -⟩ := SimulatedVenue.placeOrder_resting accepted
    refine own.setTracked fun order same => ?_
    obtain rfl := Option.some.inj same
    exact ⟨_, rfl⟩
  | cancel tracked found stale done => exact own.setTracked (by simp)
  | release tracked gone late =>
    exact fun order member => own order (QuoteBook.mem_known_of_forget tracked member)
  | orphan unknown found stale done => exact own

namespace Session

open Act

/-! ### Turns -/

section Turns

variable [Arithmetic]

/-- What a session does at once. Calls consist of turns, also those that the ledger refuses. -/
inductive Turn : Session → Session → Prop
  | advance {s : Session} {now : Instant} {fills : List Fill} {market : PaperMarket} {venues : Venues}
    (moved : s.market.step now s.venues = .ok (fills, market, venues)) :
    Turn s (resume { s with market } s.engine venues)
  | drop {s : Session} {fill : Fill} {queue : List Fill} (waiting : s.queue = fill :: queue) :
    Turn s { s with queue }
  | hedge {s : Session} {fill : Fill} {outcome : HedgeOutcome} {engine : Engine} {venues : Venues}
    (led : Leads (s.engine.onFill desk fill) s.venues (outcome, engine) venues) :
    Turn s (s.resume engine venues)
  | tick {s : Session} {now : Instant} {report : TickReport} {engine : Engine} {venues : Venues}
    (led : Leads (s.engine.onTick desk now) s.venues (report, engine) venues) :
    Turn s (s.resume engine venues)
  | pull {s : Session} {n : Nat} {engine : Engine} {venues : Venues}
    (led : Leads (s.engine.onStop desk) s.venues (n, engine) venues) : Turn s (s.resume engine venues)
  | collect (s : Session) : Turn s s.collect
  | record {s t : Session} (echoes : Echoes s t) : Turn s t

/-- However the step ends, it consists of turns. -/
def Turns {α : Type} (step : SessionStep α) : Prop :=
  ∀ ⦃s t : Session⦄ ⦃r : Except StoreError α⦄,
    Leads step.run s r t → Relation.ReflTransGen Turn s t

variable {α β : Type} {s t : Session} {now : Instant}

theorem turns_pure (a : α) : Turns (pure a) := by
  intro s t r led
  obtain ⟨-, rfl⟩ := leads_run_pure.1 led
  exact .refl

theorem Turns.bind {step : SessionStep α} {next : α → SessionStep β} (first : Turns step)
    (rest : ∀ a, Turns (next a)) : Turns (step >>= next) := by
  intro s t r led
  rcases leads_run_bind.1 led with ⟨e, led, -⟩ | ⟨a, u, led, later⟩
  · exact first led
  · exact (first led).trans (rest a later)

theorem turns_get_bind {next : Session → SessionStep β} (rest : ∀ s, Turns (next s)) :
    Turns (get >>= next) := by
  intro s t r led
  exact rest s (leads_run_get_bind.1 led)

theorem turns_modify {f : Session → Session} (echoes : ∀ s, Echoes s (f s)) : Turns (modify f) := by
  intro s t r led
  obtain ⟨-, rfl⟩ := leads_run_modify.1 led
  exact .single (.record (echoes s))

theorem turns_save (now : Instant) : Turns (save now) := by
  intro s t r led
  rw [save, leads_run_get_bind] at led
  split at led
  next ledger saved =>
    obtain ⟨-, rfl⟩ := leads_run_set.1 led
    exact .single (.record (echoes_ledger s ledger))
  next =>
    obtain ⟨-, rfl⟩ := leads_run_throw.1 led
    exact .refl

theorem turns_makeStatus (now : Instant) : Turns (makeStatus now) := by
  intro s t r led
  rw [makeStatus, leads_run_get_bind] at led
  obtain ⟨reply, venues, asks, finished⟩ := leads_withVenues_bind led
  obtain ⟨-, rfl⟩ := leads_run_pure.1 finished
  rw [passive_status asks]
  exact .single (.collect s)

/-- Work of the engine on the venues, after which the session has the engine that it leads to. -/
theorem turns_withVenues (work : Engine → Act Venues (α × Engine))
    {next : α × Engine → SessionStep β}
    (turn : ∀ {s a engine venues}, Leads (work s.engine) s.venues (a, engine) venues →
      Turn s (s.resume engine venues))
    (rest : ∀ a engine ⦃s t r⦄, Leads (next (a, engine)).run s r t →
      Relation.ReflTransGen Turn { s with engine } t) :
    Turns (get >>= fun s => withVenues (work s.engine) >>= next) := by
  intro s t r led
  rw [leads_run_get_bind] at led
  obtain ⟨⟨a, engine⟩, venues, works, later⟩ := leads_withVenues_bind led
  exact .head (turn works) (rest a engine later)

theorem turns_handle (fill : Fill) : Turns (handle fill) := by
  refine turns_withVenues (fun engine => engine.onFill desk fill) .hedge ?_
  intro outcome engine s t r led
  rw [leads_run_modify_bind] at led
  have recorded : Turns (do
        modify fun s => { s with ledger := s.ledger.recordOutcome outcome }
        save fill.time
        return outcome : SessionStep HedgeOutcome) :=
    (turns_modify fun s => echoes_ledger s _).bind fun _ => (turns_save _).bind fun _ => turns_pure _
  cases outcome with
  | ignored => exact turns_pure _ led
  | hedged _ | unhedged _ => exact recorded led

theorem turns_handleQueued (most : Nat) : Turns (handleQueued most) := by
  induction most with
  | zero => exact turns_pure _
  | succ most ih =>
    intro s t r led
    rw [handleQueued, leads_run_get_bind] at led
    split at led
    next => exact turns_pure _ led
    next fill queue waiting =>
      rw [leads_run_set_bind] at led
      exact .head (.drop waiting)
        ((turns_handle fill).bind (fun _ => ih.bind fun _ => turns_pure _) led)

theorem turns_drain : Turns drain :=
  turns_get_bind fun s => turns_handleQueued (2 * s.queue.length)

theorem turns_tick (now : Instant) : Turns (Session.tick now) := by
  intro s t r led
  rw [Session.tick, leads_run_get_bind, leads_run_lift_bind] at led
  obtain ⟨⟨fills, market, moved⟩, steps, led⟩ := led
  rw [leads_run_set_bind] at led
  refine .head (.advance steps) (turns_drain.bind (fun _ => ?_) led)
  refine turns_withVenues (fun engine => engine.onTick desk now) .tick ?_
  intro report engine s t r led
  rw [leads_run_modify_bind] at led
  have archived : ∀ ledger count, Echoes { s with engine }
      { archiveMarket now { s with engine, ledger } with ticks := count } := by
    intro ledger count
    have echoes := echoes_archiveMarket { s with engine, ledger } now
    exact ⟨echoes.engine, echoes.market, echoes.queue, echoes.maker, echoes.taker⟩
  refine .head (.record (archived _ _)) (turns_get_bind (fun s => ?_) led)
  split
  · exact (turns_makeStatus now).bind fun _ => (turns_save now).bind fun _ => turns_pure _
  · exact turns_pure _

theorem turns_shutdown (now : Instant) : Turns (Session.shutdown now) := by
  refine turns_drain.bind fun _ => ?_
  refine turns_withVenues (fun engine => engine.onStop desk) .pull ?_
  intro n engine s t r led
  rw [leads_run_modify_bind] at led
  refine turns_drain.bind (fun _ => (turns_save now).bind fun _ => ?_) led
  refine (turns_modify fun s => ?_).bind fun _ => turns_makeStatus now
  exact ⟨rfl, rfl, rfl, ⟨_, rfl⟩, ⟨_, rfl⟩⟩

end Turns

/-! ### Calls -/

section Calls

variable [Arithmetic]

/-- A call leads from one session to the next, whether or not the ledger refuses it. Fills are handled
from the queue, and also on their own, whoever made them. -/
inductive Call : Session → Session → Prop
  | tick {s t : Session} {now : Instant} {r : Except StoreError TickReport}
    (led : Leads (Session.tick now).run s r t) : Call s t
  | onFill {s t : Session} {fill : Fill} {r : Except StoreError HedgeOutcome}
    (led : Leads (handle fill).run s r t) : Call s t
  | handle {s t : Session} {most : Nat} {r : Except StoreError Nat}
    (led : Leads (handleQueued most).run s r t) : Call s t
  | shutdown {s t : Session} {now : Instant} {r : Except StoreError Unit}
    (led : Leads (Session.shutdown now).run s r t) : Call s t

/-- What a session may come to. -/
def Reachable (s : Session) : Prop :=
  ∃ config ledger archive now s₀, start config ledger archive now = .ok s₀ ∧
    Relation.ReflTransGen Call s₀ s

variable {s t u : Session} {fill : Fill} {queue : List Fill}

theorem Call.turns (call : Call s t) : Relation.ReflTransGen Turn s t := by
  cases call with
  | tick led => exact turns_tick _ led
  | onFill led => exact turns_handle _ led
  | handle led => exact turns_handleQueued _ led
  | shutdown led => exact turns_shutdown _ led

/-! ### Fills of either venue -/

/-- The engine knows orders of the maker's venue only. -/
structure Separate (s : Session) : Prop extends s.Wired where
  collected : s.Collected
  maker : s.venues.1.Sound
  taker : s.venues.2.Sound
  sided : s.engine.book.Sided
  own : s.engine.book.Own s.venues.1.id

omit [Arithmetic] in
theorem Separate.healthy (separate : s.Separate) : s.venues.1.Healthy ∧ s.venues.2.Healthy :=
  separate.collected.healthy separate.maker separate.taker

omit [Arithmetic] in
theorem Separate.resume (separate : s.Separate) {engine : Engine} {venues : Venues}
    (params : engine.params = s.engine.params) (later : s.venues.1.Precedes venues.1)
    (later' : s.venues.2.Precedes venues.2) (healthy : venues.1.Healthy) (hedges : venues.2.Healthy)
    (sided : engine.book.Sided) (own : engine.book.Own s.venues.1.id) :
    (s.resume engine venues).Separate where
  toWired := separate.wired_resume params later later' healthy hedges
  collected := collected_resume _ _ _
  maker := healthy.sound.congr rfl rfl rfl rfl
  taker := hedges.sound.congr rfl rfl rfl rfl
  sided := sided
  own := by
    have same : (s.resume engine venues).venues.1.id = s.venues.1.id := later.id
    rw [same]
    exact own

omit [Arithmetic] in
theorem separate_start {config : Config} {ledger : Ledger} {archive : Option Archive} {now : Instant}
    (done : start config ledger archive now = .ok s) : s.Separate := by
  have routed := routed_start done
  simp only [start, Checked.bind_ok, Checked.pure_ok] at done
  obtain ⟨p, -, rfl⟩ := done
  exact ⟨routed.toWired, routed.collected, routed.expects.sound, routed.hedges,
    routed.expects.sided, QuoteBook.own_empty _⟩

theorem Separate.hedge (separate : s.Separate) {outcome : HedgeOutcome} {engine : Engine}
    {venues : Venues}
    (led : Leads (s.engine.onFill desk fill) s.venues (outcome, engine) venues) :
    (s.resume engine venues).Separate := by
  obtain ⟨maker, later, hedges, -, -⟩ := separate.collected.hedge separate.healthy.2 led
  obtain ⟨params, answer, settled, -⟩ := Engine.onFill_cases led
  refine separate.resume params (maker ▸ .refl _) later (maker ▸ separate.healthy.1) hedges
    (separate.sided.settle settled) (separate.own.settle settled)

theorem Separate.moves (separate : s.Separate) {engine : Engine} {venues : Venues} {pair : Pair}
    {rules : Rules} {j : Journal} (params : engine.params = s.engine.params)
    (taker : venues.2 = s.venues.2)
    (steps : Relation.ReflTransGen (Move pair rules) s.front ⟨venues.1, engine.book, j⟩) :
    (s.resume engine venues).Separate := by
  have kept : venues.1.Healthy ∧ s.venues.1.Precedes venues.1 ∧ engine.book.Sided ∧
      engine.book.Own venues.1.id :=
    @moves_preserve _ _ _ _ _ (fun f => f.venue.Healthy ∧ s.venues.1.Precedes f.venue ∧
        f.book.Sided ∧ f.book.Own f.venue.id)
      (fun move ⟨healthy, later, sided, own⟩ => ⟨move.venue_healthy healthy,
        later.trans (move.venue_sound healthy.sound).2, move.book_sided sided,
        move.book_own healthy.sound own⟩)
      steps ⟨separate.healthy.1, .refl _, separate.sided, separate.own⟩
  obtain ⟨healthy, later, sided, own⟩ := kept
  exact separate.resume params later (taker ▸ .refl _) healthy (taker ▸ separate.healthy.2) sided
    (later.id ▸ own)

theorem Separate.turn (separate : s.Separate) (turn : Turn s t) : t.Separate := by
  cases turn with
  | advance moved =>
    rename_i now fills market venues
    obtain ⟨-, _, _, _, _, -, -, takes, makes⟩ := PaperMarket.step_ok moved
    have maker := separate.healthy.1.withClock now
    have taker := separate.healthy.2.withClock now
    have later := SimulatedVenue.precedes_setBook maker.sound makes
    have later' := SimulatedVenue.precedes_setBook taker.sound takes
    have moved' : ({ s with market } : Session).Separate :=
      ⟨separate.withMarket market, separate.collected, separate.maker, separate.taker,
        separate.sided, separate.own⟩
    exact moved'.resume rfl ⟨later.id, later.log⟩ ⟨later'.id, later'.log⟩
      (SimulatedVenue.healthy_setBook maker makes) (SimulatedVenue.healthy_setBook taker takes)
      separate.sided separate.own
  | drop waiting =>
    exact ⟨separate.rest waiting, separate.collected, separate.maker, separate.taker,
      separate.sided, separate.own⟩
  | hedge led => exact separate.hedge led
  | tick led =>
    obtain ⟨taker, updated, ⟨-, rfl, rfl, -⟩ | ⟨_, -, -, steps⟩⟩ :=
      Engine.onTick_moves .empty separate.maker separate.sided led
    · exact separate.resume rfl (.refl _) (.refl _) separate.healthy.1 separate.healthy.2
        separate.sided separate.own
    · exact separate.moves (by rw [updated]) taker steps
  | pull led =>
    obtain ⟨taker, updated, steps⟩ := Engine.onStop_moves .empty led
    exact separate.moves (by rw [updated]) taker steps
  | collect =>
    rw [collect_of_collected separate.collected]
    exact separate
  | record echoes =>
    obtain ⟨tape, maker⟩ := echoes.maker
    have same : t.venues.1.id = s.venues.1.id := by rw [maker]
    refine ⟨separate.echo echoes, echoes.collected separate.collected,
      echoes.sound.1 separate.maker, echoes.sound.2 separate.taker, ?_, ?_⟩
    · exact echoes.engine ▸ separate.sided
    · rw [echoes.engine, same]
      exact separate.own

theorem Separate.turns (separate : s.Separate) (turns : Relation.ReflTransGen Turn s t) :
    t.Separate := by
  induction turns with
  | refl => exact separate
  | tail _ turn ih => exact ih.turn turn

theorem Reachable.separate (reachable : Reachable s) : s.Separate := by
  obtain ⟨config, ledger, archive, now, s₀, started, calls⟩ := reachable
  induction calls with
  | refl => exact separate_start started
  | tail _ call ih => exact ih.turns call.turns

omit [Arithmetic] in
/-- No fill is one of both venues. -/
theorem Separate.apart_fills (separate : s.Separate) (own : s.venues.1.Backs fill) :
    ¬ s.venues.2.Backs fill := fun other =>
  separate.apart (separate.maker.issued own.1) (separate.taker.issued other.1)

/-! ### Counting -/

def makerFills (s : Session) : Nat := s.queue.countP fun fill => s.venues.1.Backs fill

def takerFills (s : Session) : Nat := s.queue.countP fun fill => s.venues.2.Backs fill

omit [Arithmetic] in
theorem Separate.fills_split (separate : s.Separate) :
    s.makerFills + s.takerFills = s.queue.length := by
  have others : s.takerFills = s.queue.countP fun fill => ¬ s.venues.1.Backs fill := by
    refine List.countP_congr fun fill member => ?_
    rw [decide_eq_true_iff, decide_eq_true_iff]
    exact ⟨fun other own => separate.apart_fills own other,
      (separate.backed fill member).resolve_left⟩
  rw [makerFills, others, eq_comm]
  simpa using List.length_eq_countP_add_countP (fun fill => decide (s.venues.1.Backs fill))

/-- A queued fill is taken and handled. -/
def Handles (s t : Session) : Prop :=
  ∃ fill queue outcome, s.queue = fill :: queue ∧
    Leads (handle fill).run { s with queue } (.ok outcome) t

/-- A fill of the maker's venue adds at most one fill of the taker's venue, one of the taker's venue
adds none. -/
theorem Separate.added (separate : s.Separate) {outcome : HedgeOutcome}
    (waiting : s.queue = fill :: queue)
    (led : Leads (handle fill).run { s with queue } (.ok outcome) u) :
    ∃ more, u.queue = queue ++ more ∧ (∀ fill ∈ more, u.venues.2.Backs fill) ∧
      more.length ≤ if s.venues.1.Backs fill then 1 else 0 := by
  obtain ⟨engine, venues, hedged, echoes, -⟩ := leads_handle led
  obtain ⟨maker, later, healthy, few, idle⟩ := separate.collected.hedge separate.healthy.2 hedged
  obtain ⟨_, tape⟩ := echoes.taker
  have queued : u.queue = queue ++ venues.2.outbox := by
    rw [echoes.queue, queue_resume, maker, separate.collected.1, List.append_nil]
  refine ⟨venues.2.outbox, queued, fun hedge member => ?_, ?_⟩
  · rw [tape]
    exact healthy.backed hedge member
  · split
    next => exact few
    next foreign =>
      -- the id is the taker's, so the engine does not know the order
      have backs := (separate.backed fill (waiting ▸ List.mem_cons_self)).resolve_left foreign
      obtain ⟨-, answer, settled, cases'⟩ := Engine.onFill_cases hedged
      have unknown : answer = none := by
        by_contra answered
        obtain ⟨order, known, same⟩ := QuoteBook.known_of_answer settled answered
        exact separate.apart (same ▸ separate.own order known) (separate.taker.issued backs.1)
      rcases cases' with ⟨-, ignored, -⟩ | ⟨answered, -⟩ | ⟨answered, -⟩
      · rw [idle ignored, separate.collected.2, List.length_nil]
      · exact absurd unknown answered
      · exact absurd unknown answered

/-- The queue and its fills of the maker's venue together get fewer with every fill that is handled,
while the queue alone loses at most that fill. -/
theorem Separate.handles (separate : s.Separate) (handles : Handles s t) :
    t.Separate ∧ t.makerFills + t.queue.length < s.makerFills + s.queue.length ∧
      s.queue.length ≤ t.queue.length + 1 := by
  obtain ⟨fill, queue, outcome, waiting, led⟩ := handles
  have after : t.Separate :=
    (separate.turn (.drop waiting)).turns (turns_handle fill led)
  obtain ⟨more, queued, hedges, few⟩ := separate.added waiting led
  obtain ⟨engine, venues, hedged, echoes, -⟩ := leads_handle led
  obtain ⟨_, tape⟩ := echoes.maker
  have same (fill : Fill) : t.venues.1.Backs fill ↔ s.venues.1.Backs fill := by
    obtain ⟨maker, -⟩ := separate.collected.hedge separate.healthy.2 hedged
    rw [tape]
    change venues.1.Backs fill ↔ _
    rw [maker]
  have makers : t.makerFills = queue.countP fun fill => s.venues.1.Backs fill := by
    have none : more.countP (fun fill => t.venues.1.Backs fill) = 0 := by
      rw [List.countP_eq_zero]
      exact fun hedge member own =>
        after.apart_fills (of_decide_eq_true own) (hedges hedge member)
    rw [makerFills, queued, List.countP_append, none, add_zero]
    simp only [same]
  rw [makers, makerFills, waiting, queued, List.length_append, List.length_cons]
  refine ⟨after, ?_, by omega⟩
  by_cases own : s.venues.1.Backs fill
  · rw [if_pos own] at few
    rw [List.countP_cons_of_pos (by simpa using own)]
    omega
  · rw [if_neg own] at few
    rw [List.countP_cons_of_neg (by simpa using own)]
    omega

/-- What is handled in turn is handled at once, and more need not be handled. -/
theorem exists_handleQueued (separate : s.Separate)
    (able : ∀ t, Relation.ReflTransGen Handles s t → t.queue ≠ [] → ∃ u, Handles t u) :
    ∃ n t, t.queue = [] ∧ s.queue.length ≤ n ∧ n ≤ s.makerFills + s.queue.length ∧
      ∀ most, n ≤ most → Leads (handleQueued most).run s (.ok n) t := by
  induction potential : s.makerFills + s.queue.length using Nat.strong_induction_on generalizing s with
  | _ left ih =>
    subst potential
    rcases eq_or_ne s.queue [] with empty | waiting
    · refine ⟨0, s, empty, by simp [empty], Nat.zero_le _, fun most _ => ?_⟩
      cases most with
      | zero => exact leads_run_pure.2 ⟨rfl, rfl⟩
      | succ most =>
        rw [handleQueued, leads_run_get_bind]
        simp only [empty]
        exact leads_run_pure.2 ⟨rfl, rfl⟩
    · obtain ⟨u, handles⟩ := able s .refl waiting
      obtain ⟨after, less, atMost⟩ := separate.handles handles
      obtain ⟨n, t, done, lower, upper, later⟩ :=
        ih _ less after (fun t steps => able t (.head handles steps)) rfl
      obtain ⟨fill, queue, outcome, first, led⟩ := handles
      refine ⟨n + 1, t, done, by omega, by omega, fun most enough => ?_⟩
      obtain ⟨most, rfl⟩ : ∃ k, most = k + 1 := ⟨most - 1, by omega⟩
      rw [handleQueued, leads_run_get_bind]
      simp only [first]
      exact leads_run_set_bind.2 (leads_run_bind_ok.2 ⟨outcome, u, led,
        leads_run_bind_ok.2 ⟨n, t, later most (by omega), leads_run_pure.2 ⟨rfl, rfl⟩⟩⟩)

/-- Where the queued fills can be handled in turn, with those that their hedges add, a drain leaves
nothing queued. It handles every fill and at most one more for each of the maker's venue, and it would
handle no more if it went on: a fill of the maker's venue adds at most one, of the taker's venue, and
such a fill adds none. -/
theorem drain_ends (reachable : Reachable s)
    (able : ∀ t, Relation.ReflTransGen Handles s t → t.queue ≠ [] → ∃ u, Handles t u) :
    (∃ n t, Leads drain.run s (.ok n) t ∧ t.queue = [] ∧
      s.makerFills + s.takerFills ≤ n ∧ n ≤ 2 * s.makerFills + s.takerFills ∧
      ∀ most, n ≤ most → Leads (handleQueued most).run s (.ok n) t) ∧
    ∀ fill queue outcome u, s.queue = fill :: queue →
      Leads (handle fill).run { s with queue } (.ok outcome) u →
      ∃ more, u.queue = queue ++ more ∧ (∀ fill ∈ more, u.venues.2.Backs fill) ∧
        more.length ≤ if s.venues.1.Backs fill then 1 else 0 := by
  have separate := reachable.separate
  have split := separate.fills_split
  refine ⟨?_, fun fill queue outcome u waiting led => separate.added waiting led⟩
  obtain ⟨n, t, done, lower, upper, later⟩ := exists_handleQueued separate able
  exact ⟨n, t, leads_drain.2 (later _ (by omega)), done, by omega, by omega, later⟩

theorem eq_of_handles_empty (empty : s.queue = [])
    (between : Relation.ReflTransGen Handles s u) : u = s := by
  rcases between.cases_head with rfl | ⟨v, ⟨fill, queue, _, first, -⟩, -⟩
  · rfl
  · rw [empty] at first
    cases first

/-- A queue that was once handled to its end can be handled at every point of it. -/
theorem able_of_handleQueued {most n : Nat} (led : Leads (handleQueued most).run s (.ok n) t)
    (done : t.queue = []) (between : Relation.ReflTransGen Handles s u) (waiting : u.queue ≠ []) :
    ∃ v, Handles u v := by
  induction most generalizing s n with
  | zero =>
    obtain ⟨-, rfl⟩ := leads_run_pure.1 led
    exact absurd done (eq_of_handles_empty done between ▸ waiting)
  | succ most ih =>
    rcases leads_handleQueued_succ led with
      ⟨empty, -, -⟩ | ⟨fill, queue, outcome, v, m, first, handles, later, -⟩
    · exact absurd empty (eq_of_handles_empty empty between ▸ waiting)
    · rcases between.cases_head with rfl | ⟨w, ⟨fill', queue', outcome', first', handles'⟩, rest⟩
      · exact ⟨v, fill, queue, outcome, first, handles⟩
      · obtain ⟨rfl, rfl⟩ := List.cons.inj (first.symm.trans first')
        obtain ⟨-, rfl⟩ := handles.unique handles'
        exact ih later rest

/-- The session after ticks at these times, if all of them succeed. -/
def ticked (s : Session) : List Instant → Option Session
  | [] => some s
  | now :: later =>
    match (Session.tick now).run.run s with
    | .ok (.ok _, t) => t.ticked later
    | _ => none

theorem calls_ticked {times : List Instant} (found : s.ticked times = some t) :
    Relation.ReflTransGen Call s t := by
  induction times generalizing s with
  | nil =>
    obtain rfl := Option.some.inj found
    exact .refl
  | cons now later ih =>
    rw [ticked] at found
    split at found
    next report u led => exact .head (.tick led) (ih found)
    next => cases found

omit [Arithmetic] in
/-- A market in which the maker's prices are two ticks late, and orders that are kept for a second. -/
def laggingConfig (lot : Decimal) : Config :=
  { maker := { venue := "okx", pair := "DOGE-USDT", tickSize := .of 1 5 }
    taker := { venue := "binance", pair := "DOGE-USDT", tickSize := .of 1 5, lotSize := lot }
    strategy := { maxOrderAgeSecs := 1 }
    paper := { driftBps := .of 60 0, makerLagTicks := 2, levels := 1 } }

omit [Arithmetic] in
/-- Three ticks, two seconds apart. The bid of the last one executes at once. -/
def laggingTimes : List Instant := [⟨0⟩, ⟨2000000000⟩, ⟨4000000000⟩]

omit [Arithmetic] in
theorem drain_ends_lagging : ∃ s, @Reachable .rounding s ∧ s.makerFills = 1 ∧ s.takerFills = 0 ∧
    ∃ n t, Leads (@drain .rounding).run s (.ok n) t ∧ t.queue = [] ∧ 1 ≤ n ∧ n ≤ 2 := by
  have works : (start (laggingConfig 0) .empty none ⟨0⟩).toOption.any (fun s₀ =>
      (@ticked .rounding s₀ laggingTimes).any fun s =>
        decide (s.makerFills = 1 ∧ s.takerFills = 0) &&
          ((@drain .rounding).run.run s).toOption.any fun (r, t) =>
            r.toOption.any fun _ => decide (t.queue = [])) = true := by
    decide +kernel
  obtain ⟨s₀, started, works⟩ := Checked.toOption_any works
  obtain ⟨s, found, works⟩ := Option.any_eq_true _ _ |>.1 works
  obtain ⟨counts, works⟩ := Bool.and_eq_true_iff.1 works
  obtain ⟨makers, takers⟩ := of_decide_eq_true counts
  obtain ⟨⟨r, t⟩, led, works⟩ := Checked.toOption_any works
  obtain ⟨n, rfl, done⟩ := Checked.toOption_any works
  have reachable : @Reachable .rounding s :=
    ⟨_, _, _, _, s₀, started, @calls_ticked .rounding _ _ _ found⟩
  have handled := (@leads_drain .rounding _ _ _).1 led
  obtain ⟨⟨n, t, drains, empty, lower, upper, -⟩, -⟩ := @drain_ends .rounding s reachable
    fun _ => @able_of_handleQueued .rounding _ _ _ _ _ handled (of_decide_eq_true done)
  rw [makers, takers] at lower upper
  exact ⟨s, reachable, makers, takers, n, t, drains, empty, lower, upper⟩

omit [Arithmetic] in
/-- With a lot of one unit in the last place, the quotient of the fill and the lot has no decimal. -/
theorem drain_overflows_fine : ∃ s, @Reachable .rounding s ∧ s.makerFills = 1 ∧ s.takerFills = 0 ∧
    (@drain .rounding).run.run s = .error .division := by
  have works : (start (laggingConfig Decimal.tiny) .empty none ⟨0⟩).toOption.any (fun s₀ =>
      (@ticked .rounding s₀ laggingTimes).any fun s =>
        decide (s.makerFills = 1 ∧ s.takerFills = 0) &&
          match (@drain .rounding).run.run s with
          | .ok _ => false
          | .error e => decide (e = .division)) = true := by
    decide +kernel
  obtain ⟨s₀, started, works⟩ := Checked.toOption_any works
  obtain ⟨s, found, works⟩ := Option.any_eq_true _ _ |>.1 works
  obtain ⟨counts, works⟩ := Bool.and_eq_true_iff.1 works
  obtain ⟨makers, takers⟩ := of_decide_eq_true counts
  refine ⟨s, ⟨_, _, _, _, s₀, started, @calls_ticked .rounding _ _ _ found⟩, makers, takers, ?_⟩
  split at works
  next => cases works
  next e stopped => rw [stopped, of_decide_eq_true works]

end Calls

end Session

end MarketMaker
