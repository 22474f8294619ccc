import MarketMaker.Proofs.Engine.Passes
import MarketMaker.Proofs.Session.Totals
/-!
How a session ends. With its queue empty each quote that is tracked rests on the maker's venue, where
its cancellation is not refused. So a shutdown leaves nothing on that venue, nothing in the queue and
nothing unwritten.
-/

namespace MarketMaker

open RestingOrder

/-! ### Stopping -/

/-- The maker's venue and the quote book when no fill is under way: what is tracked rests on the market,
and the venue refuses no cancellation. -/
structure Settled (v : SimulatedVenue) (pair : Pair) (book : QuoteBook) : Prop extends
    Matched v pair book where
  expects : Expects v book []
  willing : v.rejectsCancels = false
  still : v.outbox = []

namespace Settled

variable {v : SimulatedVenue} {pair : Pair} {book : QuoteBook} {side : Side} {order : TrackedOrder}

theorem rests (settled : Settled v pair book) (found : book.tracked side = some order) :
    ∃ live, lookup order.id v.resting = some live ∧ live.pair = pair := by
  have left : order.remaining.value = quantityOf v.resting order.id := settled.expects.leaves found
  cases resting : lookup order.id v.resting with
  | none =>
    rw [quantityOf_of_absent resting] at left
    exact absurd left (settled.expects.positive found).ne'
  | some live =>
    obtain ⟨member, same⟩ := mem_of_lookup resting
    exact ⟨live, rfl, (settled.resting found member same).1⟩

/-- Nothing rests but what is tracked. -/
theorem resting_eq_nil (settled : Settled v pair book) (idle : ∀ side, book.tracked side = none) :
    v.resting = [] := by
  rw [List.eq_nil_iff_forall_not_mem]
  intro live member
  obtain ⟨order, found, -⟩ := QuoteBook.isTracked_iff.1 (settled.expects.resting live member)
  rw [idle] at found
  cases found

end Settled

namespace Engine

open Act Session

variable [Arithmetic] {e e' : Engine} {world next : Venues} {n : ℕ}

/-- The side's quote is cancelled, if it has one. -/
theorem stopSide_settled {side : Side}
    (settled : Settled world.1 e.params.maker.pair e.book)
    (led : Leads (e.stopSide desk side) world (n, e') next) :
    e'.params = e.params ∧ Settled next.1 e.params.maker.pair e'.book ∧
      ∀ other, e'.book.tracked other = if side = other then none else e.book.tracked other := by
  rw [stopSide] at led
  split at led
  next idle =>
    obtain ⟨-, rfl, rfl⟩ := leads_pure_pair.1 led
    refine ⟨rfl, settled, fun other => ?_⟩
    split
    next same => exact same ▸ idle
    next => rfl
  next order tracked =>
    rw [leads_bind] at led
    obtain ⟨reply, u, answered, led⟩ := led
    obtain ⟨maker, done, rfl⟩ := leads_maker_cancel.1 answered
    obtain ⟨live, rests, onPair⟩ := settled.rests tracked
    split at led
    next =>
      obtain ⟨-, rfl, rfl⟩ := leads_pure_pair.1 led
      have move : Move e.params.maker.pair .stop ⟨world.1, e.book, .empty⟩
          ⟨maker, e.book.setTracked side none, _⟩ := .cancel tracked rests trivial done
      have expects := settled.still ▸ settled.expects
      have none : Fill.amountsOf world.1.outbox order.id = [] := by
        rw [settled.still, Fill.amountsOf_nil]
      obtain ⟨-, -, outbox, -⟩ := SimulatedVenue.sound_cancel settled.healthy.sound done
      have still : maker.outbox = [] := outbox.trans settled.still
      exact ⟨rfl, ⟨settled.toMatched.move move, still ▸ expects.cancel tracked none done,
        move.venue_willing.trans settled.willing, still⟩,
        fun other => QuoteBook.tracked_setTracked _ _ _ _⟩
    next error =>
      exfalso
      rw [SimulatedVenue.cancelOrder, settled.willing, if_neg Bool.false_ne_true,
        show world.1.find? order.id = some live from rests] at done
      dsimp only at done
      rw [if_pos onPair, Checked.bind_ok] at done
      obtain ⟨_, -, impossible⟩ := done
      cases impossible

theorem onStop_settled (settled : Settled world.1 e.params.maker.pair e.book)
    (led : Leads (e.onStop desk) world (n, e') next) :
    Settled next.1 e.params.maker.pair e'.book ∧ ∀ side, e'.book.tracked side = none := by
  rw [onStop, leads_bind] at led
  obtain ⟨⟨bids, between⟩, u, first, led⟩ := led
  rw [leads_bind] at led
  obtain ⟨⟨asks, last⟩, w, second, led⟩ := led
  obtain ⟨-, rfl, rfl⟩ := leads_pure_pair.1 led
  obtain ⟨params, settled', bid⟩ := stopSide_settled settled first
  obtain ⟨-, settled'', ask⟩ := stopSide_settled (params.symm ▸ settled') second
  refine ⟨params ▸ settled'', fun side => ?_⟩
  cases side with
  | buy => rw [ask, if_neg (by decide), bid, if_pos rfl]
  | sell => rw [ask, if_pos rfl]

end Engine

namespace Session

open Act

/-- The maker's venue accepted each tracked quote on its market, and it refuses no cancellation. -/
structure Pullable (s : Session) : Prop where
  matched : Matched s.venues.1 s.engine.params.maker.pair s.engine.book
  willing : s.venues.1.rejectsCancels = false

section Parts

variable {s t : Session} {engine : Engine} {venues : Venues} {now : Instant}

theorem Pullable.resume (pullable : s.Pullable) (params : engine.params = s.engine.params)
    (matched : Matched venues.1 s.engine.params.maker.pair engine.book)
    (willing : venues.1.rejectsCancels = s.venues.1.rejectsCancels) :
    (s.resume engine venues).Pullable where
  matched := by
    have emptied : { venues.1 with outbox := [] }.Healthy :=
      matched.healthy.congr rfl rfl rfl rfl (List.nil_subset _)
    have later := matched.later emptied ⟨rfl, List.Subset.refl _⟩
    exact params.symm ▸ later
  willing := willing.trans pullable.willing

theorem pullable_start {config : Config} {ledger : Ledger} {archive : Option Archive}
    (started : start config ledger archive now = .ok s) : s.Pullable := by
  simp only [start, Checked.bind_ok, Checked.pure_ok] at started
  obtain ⟨p, -, rfl⟩ := started
  refine ⟨.start ⟨?_, fun fill member => absurd member List.not_mem_nil⟩ _, rfl⟩
  exact (SimulatedVenue.sound_new p.maker.venue p.makerFee now).congr rfl rfl rfl rfl

theorem Pullable.echo (pullable : s.Pullable) (echoes : Echoes s t) : t.Pullable := by
  obtain ⟨tape, maker⟩ := echoes.maker
  obtain ⟨matched, willing⟩ := pullable
  have healthy : { s.venues.1 with tape }.Healthy :=
    matched.healthy.congr rfl rfl rfl rfl (List.Subset.refl _)
  refine ⟨?_, ?_⟩
  · rw [echoes.engine, maker]
    exact matched.later healthy ⟨rfl, List.Subset.refl _⟩
  · rw [maker]
    exact willing

variable [Arithmetic]

theorem Pullable.moves (pullable : s.Pullable) {rules : Rules} {j : Journal}
    (params : engine.params = s.engine.params)
    (moves : Relation.ReflTransGen (Move s.engine.params.maker.pair rules) s.front
      ⟨venues.1, engine.book, j⟩) : (s.resume engine venues).Pullable :=
  have willing : venues.1.rejectsCancels = s.venues.1.rejectsCancels :=
    @moves_preserve _ _ _ _ _ (fun f => f.venue.rejectsCancels = s.venues.1.rejectsCancels)
      (fun move same => move.venue_willing.trans same) moves rfl
  pullable.resume params (moves_preserve Matched.move moves pullable.matched) willing

theorem Step.pullable {entries : List Handled} (step : Step s entries t) (pullable : s.Pullable) :
    t.Pullable := by
  have healthy := pullable.matched.healthy
  have sided := pullable.matched.sided
  cases step with
  | advance moved =>
    rename_i now fills market venues
    obtain ⟨-, _, _, _, _, -, -, -, makes⟩ := PaperMarket.step_ok moved
    have timed := healthy.withClock now
    have later := SimulatedVenue.precedes_setBook timed.sound makes
    have before : ({ s with market } : Session).Pullable := ⟨pullable.matched, pullable.willing⟩
    exact before.resume rfl (pullable.matched.later (SimulatedVenue.healthy_setBook timed makes)
      ⟨later.id, later.log⟩) (SimulatedVenue.setBook_willing makes :)
  | take waiting led =>
    obtain ⟨params, answer, settled, cases'⟩ := Engine.onFill_cases led
    rename_i fill queue outcome engine venues
    have same : venues.1 = s.venues.1 := by
      rcases cases' with ⟨-, -, rfl⟩ | ⟨-, _, _, n, -, rfl⟩ | ⟨-, _, v, -, rfl, -⟩ <;> rfl
    have rest : ({ s with queue } : Session).Pullable := ⟨pullable.matched, pullable.willing⟩
    exact rest.resume params (same ▸ pullable.matched.settle settled) (by rw [same])
  | tick empty clock led unrounded =>
    obtain ⟨-, updated, ⟨-, rfl, rfl, -⟩ | ⟨quotes, -, -, moves⟩⟩ :=
      Engine.onTick_moves .empty healthy.sound sided led
    · exact pullable.resume rfl pullable.matched rfl
    · exact pullable.moves (congrArg Engine.params updated :) moves
  | pull empty led =>
    obtain ⟨-, updated, moves⟩ := Engine.onStop_moves .empty led
    exact pullable.moves (congrArg Engine.params updated :) moves
  | record echoes => exact pullable.echo echoes

theorem Steps.pullable {history : List Handled} (steps : Steps s t history)
    (pullable : s.Pullable) : t.Pullable := by
  induction steps with
  | refl => exact pullable
  | tail _ step ih => exact step.pullable ih

end Parts

section Shutdown

variable [Arithmetic] {s t : Session} {now : Instant}

omit [Arithmetic] in
theorem Routed.settled (routed : s.Routed) (pullable : s.Pullable) (empty : s.queue = []) :
    Settled s.venues.1 s.engine.params.maker.pair s.engine.book where
  toMatched := pullable.matched
  expects := empty ▸ routed.expects
  willing := pullable.willing
  still := routed.collected.1

/-- Nothing is left on the maker's venue, and the cancellations report no fills. -/
theorem Routed.pulled (routed : s.Routed) (pullable : s.Pullable) (empty : s.queue = [])
    {r : Except StoreError Unit} (led : Leads Session.pull.run s r t) :
    t.venues.1.resting = [] ∧ (∀ side, t.engine.book.tracked side = none) ∧ t.queue = [] := by
  obtain ⟨n, engine, venues, -, stopped, rfl⟩ := leads_pull led
  obtain ⟨taker, -, -⟩ := Engine.onStop_moves .empty stopped
  obtain ⟨settled, idle⟩ := Engine.onStop_settled (routed.settled pullable empty) stopped
  refine ⟨settled.resting_eq_nil idle, idle, ?_⟩
  rw [queue_resume, empty, taker, routed.collected.2, settled.still]
  rfl

/-- Nothing is queued, so nothing is handled. -/
theorem drain_empty (empty : s.queue = []) {n : ℕ} (led : Leads Session.drain.run s (.ok n) t) : t = s := by
  rw [leads_drain, empty] at led
  exact (leads_run_pure.1 led).2

/-- With an empty queue the cancellations succeed, and what is written last is all there is. -/
theorem Routed.shutdown (rounds : Arithmetic.Rounds) (routed : s.Routed) (pullable : s.Pullable)
    (led : Leads (Session.shutdown now).run s (.ok ()) t) :
    t.venues.1.resting = [] ∧ (∀ side, t.engine.book.tracked side = none) ∧ t.queue = [] ∧
      t.Collected ∧ (∀ reading, t.ledger.load? reading = some ⟨t.engine.profit.restored,
        t.engine.halted, Ledger.readTime reading now.toText⟩) ∧
      ∀ archive ∈ t.archive, archive.pending = 0 := by
  obtain ⟨n, u, m, v, w, drains, pulls, drains', echoes, saved, written⟩ := leads_shutdown led
  obtain ⟨drained, -, -, empty⟩ := routed.drain rounds drains
  have pullable' : u.Pullable := (steps_handleQueued (leads_drain.1 drains)).pullable pullable
  obtain ⟨resting, idle, empty'⟩ := drained.pulled pullable' empty pulls
  obtain ⟨-, engine, venues, -, -, resumed⟩ := leads_pull pulls
  obtain rfl := drain_empty empty' drains'
  obtain ⟨tape, maker⟩ := echoes.maker
  refine ⟨?_, ?_, ?_, ?_, ?_, ?_⟩
  · rw [maker]
    exact resting
  · rw [echoes.engine]
    exact idle
  · rw [echoes.queue]
    exact empty'
  · exact echoes.collected (resumed ▸ collected_resume u engine venues)
  · intro reading
    rw [echoes.engine]
    exact Ledger.load_save saved reading
  · intro archive member
    rw [written] at member
    obtain ⟨before, -, rfl⟩ := Option.mem_map.1 member
    rfl

end Shutdown

/-- Whatever happened in a session, its shutdown leaves no order on the maker's venue, both sides idle and
nothing queued; the ledger has the engine's totals and whether it halted, and the archive is written. -/
theorem shutdown_clean {config : Config} {ledger : Ledger} {archive : Option Archive}
    {begun now : Instant} {s₀ s t : Session} {history : List Handled}
    (started : start config ledger archive begun = .ok s₀) (run : @Run .rounding s₀ s history)
    (closed : Leads (@shutdown .rounding now).run s (.ok ()) t) :
    t.venues.1.resting = [] ∧ (∀ side, t.engine.book.isIdle side = true) ∧
      (t.queue = [] ∧ t.Collected) ∧
      (∀ reading, ∃ saved, t.ledger.load? reading = some saved ∧
        saved.profit = t.engine.profit.restored ∧ saved.halted = t.engine.halted) ∧
      ∀ archive ∈ t.archive, archive.pending = 0 := by
  have routed := routed_start started
  have steps := @Run.steps .rounding s Arithmetic.rounding_rounds s₀ history run routed
  have between := (@Steps.routed .rounding s₀ s Arithmetic.rounding_rounds history steps routed).1
  have pullable := @Steps.pullable s₀ s .rounding history steps (pullable_start started)
  obtain ⟨resting, idle, empty, collected, saved, written⟩ :=
    @Routed.shutdown .rounding s t now Arithmetic.rounding_rounds between pullable closed
  refine ⟨resting, fun side => ?_, ⟨empty, collected⟩, fun reading => ⟨_, saved reading, rfl, rfl⟩,
    written⟩
  rw [QuoteBook.isIdle, idle]
  rfl

/-- After two ticks a quote rests and market data are buffered; then the session is shut down. -/
theorem shutdown_clean_rising : ∃ s₀ s history t,
    start risingConfig .empty (some (.new 5 1000 .empty)) ⟨0⟩ = .ok s₀ ∧
    @Run .rounding s₀ s history ∧ s.venues.1.resting ≠ [] ∧
    (∃ archive ∈ s.archive, archive.pending ≠ 0) ∧
    Leads (@shutdown .rounding ⟨2⟩).run s (.ok ()) t ∧ t.engine.profit.hedgeCount = 1 ∧
    t.venues.1.resting = [] ∧ (∀ side, t.engine.book.isIdle side = true) ∧
    (t.queue = [] ∧ t.Collected) ∧
    (∀ reading, ∃ saved, t.ledger.load? reading = some saved ∧
      saved.profit = t.engine.profit.restored ∧ saved.halted = t.engine.halted) ∧
    ∀ archive ∈ t.archive, archive.pending = 0 := by
  have works : (start risingConfig .empty (some (.new 5 1000 .empty)) ⟨0⟩).toOption.any
      (@ticksTo .rounding ⟨0⟩ <| @ticksTo .rounding ⟨1⟩ fun s =>
        decide (s.venues.1.resting ≠ [] ∧ ∃ archive ∈ s.archive, archive.pending ≠ 0) &&
          ((@shutdown .rounding ⟨2⟩).run.run s).toOption.any fun (r, t) =>
            r.toOption.any fun _ => decide (t.engine.profit.hedgeCount = 1)) = true := by
    decide +kernel
  obtain ⟨s₀, started, works⟩ := Checked.toOption_any works
  obtain ⟨_, first, works⟩ := @Run.exists_tick .rounding _ _ _ _ _ (@Run.start .rounding s₀) works
  obtain ⟨s, second, works⟩ := @Run.exists_tick .rounding _ _ _ _ _ first works
  obtain ⟨before, works⟩ := Bool.and_eq_true_iff.1 works
  obtain ⟨resting, buffered⟩ := of_decide_eq_true before
  obtain ⟨⟨r, t⟩, led, works⟩ := Checked.toOption_any works
  obtain ⟨_, rfl, hedged⟩ := Checked.toOption_any works
  exact ⟨s₀, s, _, t, started, second, resting, buffered, led, of_decide_eq_true hedged,
    shutdown_clean started second led⟩

end Session

end MarketMaker
