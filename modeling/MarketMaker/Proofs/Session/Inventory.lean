import MarketMaker.Proofs.Session.Routing
import MarketMaker.Proofs.Venue.Inventory
/-!
What a session holds of the base that both of its markets trade. Quotes and their hedges cancel out,
but for what was not hedged and what of the hedges is still to execute.
-/

namespace MarketMaker

open Decimal RestingOrder SimulatedVenue

/-- Both markets trade this base for something else. -/
structure Parameters.SharesBase (p : Parameters) (base : String) : Prop where
  maker : p.maker.pair.base = base
  taker : p.taker.pair.base = base
  makerQuote : p.maker.pair.quote ≠ base
  takerQuote : p.taker.pair.quote ≠ base

namespace Parameters.SharesBase

instance (p : Parameters) (base : String) : Decidable (p.SharesBase base) :=
  decidable_of_iff (p.maker.pair.base = base ∧ p.taker.pair.base = base ∧
      p.maker.pair.quote ≠ base ∧ p.taker.pair.quote ≠ base)
    ⟨fun ⟨maker, taker, makerQuote, takerQuote⟩ => ⟨maker, taker, makerQuote, takerQuote⟩,
      fun shares => ⟨shares.maker, shares.taker, shares.makerQuote, shares.takerQuote⟩⟩

variable {p : Parameters} {base : String}

theorem makerSeparate (shares : p.SharesBase base) : p.maker.pair.quote ≠ p.maker.pair.base :=
  shares.maker.symm ▸ shares.makerQuote

theorem takerSeparate (shares : p.SharesBase base) : p.taker.pair.quote ≠ p.taker.pair.base :=
  shares.taker.symm ▸ shares.takerQuote

end Parameters.SharesBase

namespace Handled

/-- What of a fill its hedge leaves open, with its sign. Fills of hedges are ignored. -/
def remainder (entry : Handled) : ℚ :=
  entry.fill.side.signed <| match entry.outcome with
    | .ignored => 0
    | .unhedged _ => entry.fill.amount.value
    | .hedged record => record.unhedgedResidual.value

/-- What a fill adds to the inventory: what its hedge leaves open, and what of the hedge rests. -/
def drift (taker : SimulatedVenue) (entry : Handled) : ℚ :=
  entry.fill.side.signed <| match entry.outcome with
    | .ignored => 0
    | .unhedged _ => entry.fill.amount.value
    | .hedged record =>
      record.unhedgedResidual.value + quantityOf taker.resting record.hedgeOrderId

/-- The order that hedges a fill, and its side. -/
def hedge? (entry : Handled) : Option (OrderId × Side) :=
  match entry.outcome with
  | .hedged record => some (record.hedgeOrderId, entry.fill.side.opposite)
  | .ignored | .unhedged _ => none

theorem sum_drift (taker : SimulatedVenue) (entries : List Handled) :
    (entries.map (drift taker)).sum = (entries.map remainder).sum -
      ((entries.filterMap hedge?).map fun order =>
        order.2.signed (quantityOf taker.resting order.1)).sum := by
  induction entries with
  | nil => simp
  | cons entry entries ih =>
    rw [List.map_cons, List.sum_cons, ih, List.map_cons, List.sum_cons, List.filterMap_cons]
    obtain ⟨fill, outcome, venues⟩ := entry
    cases outcome with
    | ignored | unhedged _ =>
      simp only [drift, remainder, hedge?]
      ring
    | hedged record =>
      simp only [drift, remainder, hedge?, List.map_cons, List.sum_cons]
      cases fill.side <;> simp only [Side.signed, Side.opposite] <;> ring

end Handled

namespace Front

variable [Arithmetic] {pair : Pair} {rules : Rules} {f g : Front}

/-- What comes of a maker's venue by the engine's moves, which place orders on fair books only. -/
structure Stocked (pair : Pair) (rules : Rules) (v : SimulatedVenue) (f : Front) : Prop where
  healthy : f.venue.Healthy
  later : v.Precedes f.venue
  trades : f.venue.Trades pair
  ready : ∀ {side price}, rules.aim side price → f.venue.FairBooks
  accrues : Accrues pair.base v f.venue

theorem Stocked.move (exact : Arithmetic.ExactSums) (separate : pair.quote ≠ pair.base)
    {v : SimulatedVenue} (move : Move pair rules f g) (stocked : f.Stocked pair rules v) :
    g.Stocked pair rules v := by
  have sound := stocked.healthy.sound
  have healthy := move.venue_healthy stocked.healthy
  have later := stocked.later.trans (move.venue_sound sound).2
  have books := move.venue_books
  have ready : ∀ {side price}, rules.aim side price → g.venue.FairBooks :=
    fun aimed => (stocked.ready aimed).congr books
  cases move with
  | refuse n =>
    exact ⟨healthy, later, stocked.trades, ready, stocked.accrues.trans (.of_eq rfl rfl)⟩
  | place idle aimed accepted =>
    obtain ⟨accrues, -, entry, -, traded, -, log⟩ :=
      inventory_placeOrder exact separate (stocked.ready aimed) accepted
    exact ⟨healthy, later, stocked.trades.append traded log, ready, stocked.accrues.trans accrues⟩
  | cancel tracked found stale done | orphan unknown found stale done =>
    obtain ⟨accrues, log⟩ := inventory_cancelOrder exact separate sound done
    exact ⟨healthy, later, stocked.trades.congr log, ready, stocked.accrues.trans accrues⟩
  | release tracked gone late => exact ⟨healthy, later, stocked.trades, ready, stocked.accrues⟩

end Front

namespace Session

open Act

/-- What both venues hold of an asset. -/
def inventory (s : Session) (asset : String) : ℚ :=
  s.venues.1.inventory asset + s.venues.2.inventory asset

/-- Each venue has orders of its own market only, and the taker's books offer one amount. -/
structure Trades (s : Session) : Prop where
  maker : s.venues.1.Trades s.engine.params.maker.pair
  taker : s.venues.2.Trades s.engine.params.taker.pair
  uniform : s.venues.2.Uniform s.market.config.levelAmount

open Classical in
/-- What the venues would hold if the queued fills of quotes had not happened and all hedges had
executed. Only what a handled fill leaves open changes it. -/
noncomputable def account (s : Session) (asset : String) : ℚ :=
  s.venues.1.inventory asset -
    Fill.flow (s.queue.filter fun fill => Issued s.venues.1.id fill.orderId) +
    s.venues.2.prospect asset

variable {s t : Session} {engine : Engine} {maker taker : SimulatedVenue} {base : String}

theorem Wired.account_resume (wired : s.Wired) (engine : Engine) (base : String)
    (collected : s.venues.1.outbox = []) (makerId : maker.id = s.venues.1.id)
    (takerId : taker.id = s.venues.2.id) (healthy : maker.Healthy) (hedges : taker.Healthy)
    (accrues : Accrues base s.venues.1 maker) :
    (s.resume engine (maker, taker)).account base =
      s.account base - s.venues.2.prospect base + taker.prospect base := by
  classical
  obtain ⟨fills, outbox, change⟩ := accrues
  rw [collected, List.nil_append] at outbox
  have none : (taker.outbox.filter fun fill => Issued s.venues.1.id fill.orderId) = [] := by
    rw [List.filter_eq_nil_iff]
    intro fill member
    simpa using wired.foreign takerId hedges fill member
  have all : (fills.filter fun fill => Issued s.venues.1.id fill.orderId) = fills := by
    rw [List.filter_eq_self]
    intro fill member
    have issued := healthy.sound.issued (healthy.backed fill (outbox ▸ member)).1
    simpa [makerId] using issued
  have name : (s.resume engine (maker, taker)).venues.1.id = s.venues.1.id := makerId
  have makers : (s.resume engine (maker, taker)).venues.1.inventory base = maker.inventory base :=
    inventory_congr rfl rfl base
  have takers : (s.resume engine (maker, taker)).venues.2.prospect base = taker.prospect base :=
    prospect_congr rfl rfl base
  unfold account
  rw [makers, takers, name, queue_resume, List.filter_append, List.filter_append,
    none, List.append_nil, outbox, all, Fill.flow_append, change]
  ring

/-- A fill of a quote counts as soon as it is taken from the queue. -/
theorem account_take (base : String) {fill : Fill} {queue : List Fill}
    (waiting : s.queue = fill :: queue) :
    (Issued s.venues.1.id fill.orderId → ({ s with queue } : Session).account base =
        s.account base + fill.side.signed fill.amount.value) ∧
      (¬ Issued s.venues.1.id fill.orderId →
        ({ s with queue } : Session).account base = s.account base) := by
  classical
  refine ⟨fun issued => ?_, fun foreign => ?_⟩
  · unfold account
    rw [waiting, List.filter_cons_of_pos (by simpa using issued), Fill.flow_cons]
    ring
  · unfold account
    rw [waiting, List.filter_cons_of_neg (by simpa using foreign)]

/-- What a part of an event adds to the account, and its hedges to the taker's log. -/
structure Adds (base : String) (s : Session) (entries : List Handled) (t : Session) : Prop where
  trades : t.Trades
  account : t.account base = s.account base + (entries.map Handled.remainder).sum
  hedges : (t.venues.2.log.map fun entry => (entry.id, entry.side)) =
    (s.venues.2.log.map fun entry => (entry.id, entry.side)) ++ entries.filterMap Handled.hedge?

section Parts

variable [Arithmetic] {venues : Venues} {now : Instant}

theorem Routed.adds_advance (exact : Arithmetic.ExactSums) (routed : s.Routed) (trades : s.Trades)
    (shares : s.engine.params.SharesBase base) {fills : List Fill} {market : PaperMarket}
    (moved : s.market.step now s.venues = .ok (fills, market, venues)) :
    Adds base s [] (Session.resume { s with market } s.engine venues) := by
  obtain ⟨config, takerBook, makerBook, _, _, same, -, takes, makes⟩ := PaperMarket.step_ok moved
  have maker := routed.healthy.1.withClock now
  have taker := routed.healthy.2.withClock now
  obtain ⟨accrues, -, log⟩ :=
    inventory_setBook exact shares.makerSeparate maker.sound (trades.maker.congr rfl) makes
  obtain ⟨-, prospect, log'⟩ :=
    inventory_setBook exact shares.takerSeparate taker.sound (trades.taker.congr rfl) takes
  have account := (routed.withMarket market).account_resume s.engine base routed.collected.1
    (precedes_setBook maker.sound makes).id (precedes_setBook taker.sound takes).id
    (healthy_setBook maker makes) (healthy_setBook taker takes) (shares.maker ▸ accrues)
  refine ⟨⟨trades.maker.congr log, trades.taker.congr log', ?_⟩, ?_, ?_⟩
  · have before : ({ s.venues.2 with clock := now } : SimulatedVenue).Uniform
        s.market.config.levelAmount := trades.uniform.congr rfl
    have after := before.setBook same takes
    exact config.symm ▸ after
  · have kept : venues.2.prospect base = s.venues.2.prospect base :=
      shares.taker ▸ prospect
    rw [account, kept, List.map_nil, List.sum_nil]
    change s.account base - _ + _ = _
    ring
  · change venues.2.log.map _ = _
    rw [log', List.filterMap_nil, List.append_nil]

/-- A hedge trades the other way what the record says, and the rest of the fill stays open. -/
theorem Routed.adds_take (rounds : Arithmetic.Rounds) (exact : Arithmetic.ExactSums)
    (routed : s.Routed) (trades : s.Trades) (shares : s.engine.params.SharesBase base) {fill : Fill}
    {queue : List Fill} {outcome : HedgeOutcome} (waiting : s.queue = fill :: queue)
    (led : Leads (s.engine.onFill desk fill) s.venues (outcome, engine) venues) :
    Adds base s [⟨fill, outcome, s.venues⟩] (Session.resume { s with queue } engine venues) := by
  obtain ⟨maker, later, healthy, -, -⟩ := routed.collected.hedge routed.healthy.2 led
  obtain ⟨-, routes⟩ := routed.take rounds waiting led
  obtain ⟨params, answer, -, cases'⟩ := Engine.onFill_cases led
  obtain ⟨taken, untaken⟩ := account_take base waiting
  obtain ⟨_, taker⟩ := venues
  obtain rfl : _ = s.venues.1 := maker
  have account := (routed.rest waiting).account_resume engine base routed.collected.1 rfl
    later.id routed.healthy.1 healthy (.of_eq rfl rfl)
  have makers : s.venues.1.Trades engine.params.maker.pair := params ▸ trades.maker
  rcases cases' with ⟨-, rfl, same⟩ | ⟨-, reason, remaining, n, rfl, same⟩ |
    ⟨-, record, v, rfl, same, sent⟩
  · -- the fill of a hedge was not taken off the account when it was queued
    obtain rfl := (Prod.mk.inj same).2
    have foreign : ¬ Issued s.venues.1.id fill.orderId := by
      rcases routes with ⟨-, -, answered⟩ | ⟨backs, -, -⟩
      · exact absurd rfl answered
      · exact fun issued => routed.apart issued (routed.hedges.issued backs.1)
    refine ⟨⟨makers, params ▸ trades.taker, trades.uniform⟩, ?_, (List.append_nil _).symm⟩
    rw [account, untaken foreign]
    cases side : fill.side <;> simp [Handled.remainder, side, Side.signed]
  · obtain rfl := (Prod.mk.inj same).2
    obtain ⟨backs, -, -⟩ | ⟨-, -, impossible⟩ := routes
    · have issued := routed.expects.sound.issued backs.1
      refine ⟨⟨makers, params ▸ trades.taker, trades.uniform⟩, ?_, (List.append_nil _).symm⟩
      have kept : ({ s.venues.2 with rejections := n } : SimulatedVenue).prospect base =
          s.venues.2.prospect base := prospect_congr rfl rfl base
      rw [account, taken issued, kept]
      simp [Handled.remainder]
    · cases impossible
  · -- the hedge takes back what it is sent for, and the residual is the difference
    obtain rfl := (Prod.mk.inj same).2
    obtain ⟨backs, -, -⟩ | ⟨-, -, impossible⟩ := routes
    · have issued := routed.expects.sound.issued backs.1
      obtain ⟨price, accepted⟩ := sent.accepted
      obtain ⟨offer, available⟩ := sent.executable
      have fair := trades.uniform.fair_of_executable rounds backs.2 available
      obtain ⟨-, prospect, entry, sameId, samePair, sameSide, log⟩ :=
        inventory_placeOrder exact shares.takerSeparate fair accepted
      rw [shares.taker] at prospect
      have traded : taker.Trades s.engine.params.taker.pair := trades.taker.append samePair log
      have uniform := trades.uniform.congr (placeOrder_books accepted)
      refine ⟨⟨makers, params ▸ traded, uniform⟩, ?_, ?_⟩
      · rw [account, taken issued, prospect, List.map_singleton, List.sum_singleton,
          Handled.remainder]
        dsimp only
        rw [exact.sub sent.residual]
        cases fill.side <;> simp only [Side.signed, Side.opposite] <;> ring
      · change taker.log.map _ = _
        rw [log, List.map_append, List.map_singleton, sameId, sameSide]
        rfl
    · cases impossible

/-- What the engine does on its own moves nothing but what the maker's venue reports. -/
theorem Routed.adds_moves (exact : Arithmetic.ExactSums) (routed : s.Routed) (trades : s.Trades)
    (shares : s.engine.params.SharesBase base) {rules : Rules}
    (ready : ∀ {side price}, rules.aim side price → s.venues.1.FairBooks) {j : Journal}
    (params : engine.params = s.engine.params) (kept : venues.2 = s.venues.2)
    (moves : Relation.ReflTransGen (Move s.engine.params.maker.pair rules) s.front
      ⟨venues.1, engine.book, j⟩) : Adds base s [] (s.resume engine venues) := by
  obtain ⟨healthy, hedges⟩ := routed.healthy
  have begins : s.front.Stocked s.engine.params.maker.pair rules s.venues.1 :=
    ⟨healthy, .refl _, trades.maker, ready, .of_eq rfl rfl⟩
  have stocked := moves_preserve (fun move => Front.Stocked.move exact shares.makerSeparate move)
    moves begins
  obtain ⟨maker, _⟩ := venues
  obtain rfl : _ = s.venues.2 := kept
  have account := routed.account_resume engine base routed.collected.1
    stocked.later.id rfl stocked.healthy hedges (shares.maker ▸ stocked.accrues)
  refine ⟨⟨params ▸ stocked.trades, params ▸ trades.taker, trades.uniform⟩, ?_,
    (List.append_nil _).symm⟩
  rw [account, List.map_nil, List.sum_nil]
  ring

theorem Routed.adds_tick (rounds : Arithmetic.Rounds) (exact : Arithmetic.ExactSums)
    (routed : s.Routed) (trades : s.Trades) (shares : s.engine.params.SharesBase base)
    {report : TickReport} (led : Leads (s.engine.onTick desk now) s.venues (report, engine) venues) :
    Adds base s [] (s.resume engine venues) := by
  obtain ⟨taker, updated, cases'⟩ :=
    Engine.onTick_moves .empty routed.expects.sound routed.expects.sided led
  have params : engine.params = s.engine.params := by rw [updated]
  rcases cases' with ⟨-, rfl, rfl, -⟩ | ⟨quotes, -, fetched, moves⟩
  · have stays : Relation.ReflTransGen (Move s.engine.params.maker.pair .stop) s.front
        ⟨s.venues.1, s.engine.book, .empty⟩ := .refl
    have idle : ∀ {side price}, Rules.stop.aim side price → s.venues.1.FairBooks :=
      fun aim => aim.elim
    exact routed.adds_moves exact trades shares idle rfl rfl stays
  · obtain ⟨-, -, makerBuy, -⟩ := leads_fetch fetched
    have fair := routed.uniform.fair_of_executable rounds routed.valid.orderAmount makerBuy
    exact routed.adds_moves exact trades shares (fun _ => fair) params taker moves

theorem Routed.adds_pull (exact : Arithmetic.ExactSums) (routed : s.Routed) (trades : s.Trades)
    (shares : s.engine.params.SharesBase base) {n : Nat}
    (led : Leads (s.engine.onStop desk) s.venues (n, engine) venues) :
    Adds base s [] (s.resume engine venues) := by
  obtain ⟨taker, updated, moves⟩ := Engine.onStop_moves .empty led
  have params : engine.params = s.engine.params := by rw [updated]
  have idle : ∀ {side price}, Rules.stop.aim side price → s.venues.1.FairBooks :=
    fun aim => aim.elim
  exact routed.adds_moves exact trades shares idle params taker moves

omit [Arithmetic] in
theorem Echoes.adds (echoes : Echoes s t) (trades : s.Trades) : Adds base s [] t := by
  obtain ⟨tape, maker⟩ := echoes.maker
  obtain ⟨tape', taker⟩ := echoes.taker
  refine ⟨⟨?_, ?_, ?_⟩, ?_, ?_⟩
  · rw [echoes.engine, maker]
    exact trades.maker
  · rw [echoes.engine, taker]
    exact trades.taker
  · rw [echoes.market, taker]
    exact trades.uniform.congr rfl
  · unfold account
    rw [echoes.queue, maker, taker, List.map_nil, List.sum_nil, add_zero]
    rfl
  · rw [taker, List.filterMap_nil, List.append_nil]

end Parts

/-! ### Runs -/

section Runs

variable [Arithmetic] {s₀ : Session} {entries history : List Handled}

omit [Arithmetic] in
theorem Adds.trans {u : Session} {more : List Handled} (first : Adds base s history t)
    (second : Adds base t more u) : Adds base s (history ++ more) u where
  trades := second.trades
  account := by
    rw [second.account, first.account, List.map_append, List.sum_append, add_assoc]
  hedges := by
    rw [second.hedges, first.hedges, List.filterMap_append, List.append_assoc]

theorem Step.adds (rounds : Arithmetic.Rounds) (exact : Arithmetic.ExactSums)
    (step : Step s entries t) (routed : s.Routed) (trades : s.Trades)
    (shares : s.engine.params.SharesBase base) : Adds base s entries t := by
  cases step with
  | advance moved => exact routed.adds_advance exact trades shares moved
  | take waiting led => exact routed.adds_take rounds exact trades shares waiting led
  | tick empty clock led unrounded => exact routed.adds_tick rounds exact trades shares led
  | pull empty led => exact routed.adds_pull exact trades shares led
  | record echoes => exact echoes.adds trades

theorem Steps.adds (rounds : Arithmetic.Rounds) (exact : Arithmetic.ExactSums)
    (steps : Steps s t history) (routed : s.Routed) (trades : s.Trades)
    (shares : s.engine.params.SharesBase base) : Adds base s history t := by
  induction steps with
  | refl => exact ⟨trades, by simp, by simp⟩
  | tail steps step ih =>
    obtain ⟨between, params, -⟩ := steps.routed rounds routed
    exact ih.trans (step.adds rounds exact between ih.trades (params.symm ▸ shares))

end Runs

theorem trades_start {config : Config} {ledger : Ledger} {archive : Option Archive}
    {now : Instant} (done : start config ledger archive now = .ok s) :
    s.Trades ∧ s.queue = [] ∧ s.venues.2.log = [] := by
  simp only [start, Checked.bind_ok, Checked.pure_ok] at done
  obtain ⟨p, -, rfl⟩ := done
  have none : ∀ {v : SimulatedVenue} {pair : Pair}, v.log = [] → v.Trades pair := by
    intro v pair empty entry member
    rw [empty] at member
    cases member
  refine ⟨⟨none rfl, none rfl, ?_⟩, rfl, rfl⟩
  intro pair book found
  cases found

theorem account_eq (sound : s.venues.2.Sound) (empty : s.queue = []) :
    s.account base = s.inventory base + ((s.venues.2.log.map fun entry => (entry.id, entry.side)).map
      fun order => order.2.signed (quantityOf s.venues.2.resting order.1)).sum := by
  unfold account inventory
  rw [empty, prospect_eq sound, List.map_map]
  simp only [List.filter_nil, Fill.flow, List.map_nil, List.sum_nil, sub_zero, add_assoc]
  rfl

/-- While nothing is queued, the inventory has changed by what of the quotes' fills was not hedged and
what of the hedges has not executed. -/
theorem inventory_drift [Arithmetic] (rounds : Arithmetic.Rounds) (exact : Arithmetic.ExactSums)
    {config : Config} {ledger : Ledger} {archive : Option Archive} {now : Instant} {s₀ : Session}
    {history : List Handled} (started : start config ledger archive now = .ok s₀)
    (shares : s₀.engine.params.SharesBase base) (run : Run s₀ s history) (empty : s.queue = []) :
    s.inventory base - s₀.inventory base =
      (history.map (Handled.drift s.venues.2)).sum := by
  have routed := routed_start started
  obtain ⟨trades, empty₀, log⟩ := trades_start started
  have steps := run.steps rounds routed
  have adds := steps.adds rounds exact routed trades shares
  have balance := adds.account
  rw [account_eq (steps.routed rounds routed).1.hedges empty, account_eq routed.hedges empty₀,
    adds.hedges, log] at balance
  rw [Handled.sum_drift]
  simp only [List.map_nil, List.sum_nil, List.nil_append, add_zero] at balance
  linarith

/-- A market whose books are too thin for a hedge, of which 150 are traded at a time. -/
def thinConfig : Config :=
  { risingConfig with
    taker := { venue := "binance", pair := "DOGE-USDT", tickSize := .of 1 5, lotSize := .of 150 0 }
    paper := { risingConfig.paper with
      levels := 3, levelAmount := .of 200 0, levelStepBps := .of 20 0 } }

/-- An ask of 500 is filled; 450 are hedged, of which 200 execute. -/
theorem inventory_drift_thin : ∃ s₀ s history, start thinConfig .empty none ⟨0⟩ = .ok s₀ ∧
    @Run .strict s₀ s history ∧ s.queue = [] ∧ s.inventory "DOGE" - s₀.inventory "DOGE" = -300 ∧
    s.inventory "DOGE" - s₀.inventory "DOGE" =
      (history.map (Handled.drift s.venues.2)).sum := by
  have works : (start thinConfig .empty none ⟨0⟩).toOption.any (fun s₀ =>
      decide (s₀.engine.params.SharesBase "DOGE") &&
        @ticksTo .strict ⟨0⟩ (@ticksTo .strict ⟨0⟩ fun s => decide
          (s.queue = [] ∧ s.inventory "DOGE" - s₀.inventory "DOGE" = -300)) s₀) = true := by
    decide +kernel
  obtain ⟨s₀, started, works⟩ := Checked.toOption_any works
  obtain ⟨shares, works⟩ := Bool.and_eq_true_iff.1 works
  obtain ⟨s, first, works⟩ := @Run.exists_tick .strict _ _ _ _ _ (@Run.start .strict s₀) works
  obtain ⟨t, second, works⟩ := @Run.exists_tick .strict _ _ _ _ _ first works
  obtain ⟨empty, change⟩ := of_decide_eq_true works
  exact ⟨s₀, t, _, started, second, empty, change, @inventory_drift t "DOGE" .strict
    Arithmetic.strict_rounds Arithmetic.strict_exact _ _ _ _ s₀ _ started (of_decide_eq_true shares)
    second empty⟩

end Session

end MarketMaker
