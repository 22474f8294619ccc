import MarketMaker.Proofs.Engine.Passes
/-!
Ticks settle. As long as the books do not change, fills are not delivered and no time passes, the first
tick clears away what is stale, the second may fill an order that pays for a quote of the other side,
and the third places that one. No tick after them does anything.
-/

namespace MarketMaker

open RestingOrder

/-! ### Orders that no check disturbs -/

namespace Cancellation

open Act

section Checks

variable [Arithmetic] {σ : Type} {desk : Desk σ} {p : Parameters} {quotes : MarketQuotes}
  {now : Instant} {live : List RestingOrder} {book after : QuoteBook} {outcomes : List CancelOutcome}
  {s t : σ}

/-- A check of the order does not cancel it. -/
def Fresh (p : Parameters) (quotes : MarketQuotes) (now : Instant) (order : RestingOrder) : Prop :=
  ∀ reason, reason? p quotes now order.side order.price order.createdAt ≠ .ok (some reason)

theorem Stays.fresh {order : RestingOrder} (stays : Stays p quotes now order) :
    Fresh p quotes now order := by
  intro reason judged
  cases stays.symm.trans judged

/-- What rests under the id of a tracked order, judged by the side that is tracked. -/
def Seen (holds : RestingOrder → Prop) (live : List RestingOrder) (order : TrackedOrder) : Prop :=
  ∀ found, lookup order.id live = some found → holds { found with side := order.side }

theorem leads_checkTracked_fresh {order : TrackedOrder}
    (fresh : Seen (Fresh p quotes now) live order)
    (early : lookup order.id live = none → ¬ p.maxOrderAge < order.age now) :
    Leads (checkTracked desk p quotes now live order book) s (outcomes, after) t ↔
      (outcomes = [] ∧ after = book ∧ t = s) ∧ Seen (Stays p quotes now) live order := by
  rw [leads_checkTracked]
  constructor
  · intro check
    cases check with
    | release absent late => exact absurd late (early absent)
    | await absent => exact ⟨⟨rfl, rfl, rfl⟩, fun found listed => by cases absent.symm.trans listed⟩
    | stay listed judged =>
      refine ⟨⟨rfl, rfl, rfl⟩, fun other same => ?_⟩
      obtain rfl := Option.some.inj (listed.symm.trans same)
      exact judged
    | cancel listed judged | fail listed judged => exact absurd judged (fresh _ listed _)
  · intro given
    obtain ⟨⟨rfl, rfl, rfl⟩, stays⟩ := given
    cases listed : lookup order.id live with
    | none => exact .await listed (early listed)
    | some found => exact .stay listed (stays found listed)

theorem leads_checkAllTracked_fresh {orders : List TrackedOrder}
    (fresh : ∀ order ∈ orders, Seen (Fresh p quotes now) live order)
    (early : ∀ order ∈ orders, lookup order.id live = none → ¬ p.maxOrderAge < order.age now) :
    Leads (checkAllTracked desk p quotes now live orders book) s (outcomes, after) t ↔
      (outcomes = [] ∧ after = book ∧ t = s) ∧
        ∀ order ∈ orders, Seen (Stays p quotes now) live order := by
  induction orders generalizing outcomes with
  | nil =>
    rw [checkAllTracked, leads_pure, Prod.mk.injEq, and_assoc]
    simp
  | cons order orders ih =>
    rw [List.forall_mem_cons] at fresh early ⊢
    rw [leads_checkAllTracked_cons]
    constructor
    · intro led
      obtain ⟨first, others, between, u, rfl, checked, rest⟩ := led
      obtain ⟨⟨rfl, rfl, rfl⟩, stays⟩ := (leads_checkTracked_fresh fresh.1 early.1).1 checked
      obtain ⟨⟨rfl, rfl, rfl⟩, all⟩ := (ih fresh.2 early.2).1 rest
      exact ⟨⟨rfl, rfl, rfl⟩, stays, all⟩
    · intro given
      obtain ⟨⟨rfl, rfl, rfl⟩, stays, all⟩ := given
      exact ⟨[], [], after, t, rfl,
        (leads_checkTracked_fresh fresh.1 early.1).2 ⟨⟨rfl, rfl, rfl⟩, stays⟩,
        (ih fresh.2 early.2).2 ⟨⟨rfl, rfl, rfl⟩, all⟩⟩

theorem leads_checkOrphans_fresh {orders : List RestingOrder}
    (fresh : ∀ order ∈ orders, Fresh p quotes now order) :
    Leads (checkOrphans desk p quotes now orders) s outcomes t ↔
      (outcomes = [] ∧ t = s) ∧ ∀ order ∈ orders, Stays p quotes now order := by
  induction orders generalizing outcomes with
  | nil =>
    rw [checkOrphans, leads_pure]
    simp
  | cons order orders ih =>
    rw [List.forall_mem_cons] at fresh ⊢
    rw [leads_checkOrphans_cons]
    constructor
    · intro led
      obtain ⟨first, others, u, rfl, check, rest⟩ := led
      cases check with
      | stay judged =>
        obtain ⟨⟨rfl, rfl⟩, all⟩ := (ih fresh.2).1 rest
        exact ⟨⟨rfl, rfl⟩, judged, all⟩
      | cancel judged | fail judged => exact absurd judged (fresh.1 _)
    · intro given
      obtain ⟨⟨rfl, rfl⟩, stays, all⟩ := given
      exact ⟨[], [], t, rfl, .stay stays, (ih fresh.2).2 ⟨⟨rfl, rfl⟩, all⟩⟩

end Checks

end Cancellation

/-! ### Between ticks of one time -/

namespace SimulatedVenue

variable [Arithmetic] {v w : SimulatedVenue} {pair : Pair} {side : Side} {type : OrderType}
  {amount price : Decimal}

/-- A refusal by itself changes nothing. -/
theorem placeOrder_refused {e : VenueError} (eager : v.rejections = 0)
    (done : v.placeOrder pair side amount type price = .ok (.error e, w)) : w = v := by
  rcases placeOrder_error done with ⟨-, injected, -⟩ | ⟨-, -, same⟩
  · exact absurd eager injected.ne'
  · exact same

theorem placeOrder_rejections {id : OrderId}
    (done : v.placeOrder pair side amount type price = .ok (.ok id, w)) :
    w.rejections = v.rejections := by
  rcases placeOrder_cases done with ⟨_, _, impossible, -⟩ | ⟨_, t, _, -, -, -, -, -, accepts⟩
  · cases impossible
  · obtain ⟨s, fills, trades, -, -, -, rfl⟩ := accept_ok accepts
    rfl

theorem executablePrice_congr (same : w.books = v.books) :
    w.executablePrice pair side amount = v.executablePrice pair side amount := by
  simp only [executablePrice, bookOf_congr same]

end SimulatedVenue

open Act Session

variable [Arithmetic] {world next : Venues} {p : Parameters} {quotes : MarketQuotes} {now : Instant}
  {side : Side} {book after : QuoteBook}

/-- The step only asks for what the books tell. -/
def ReadsBooks {α : Type} (step : Act Venues α) : Prop :=
  ∀ ⦃world r u next⦄, next.1.books = world.1.books → next.2 = world.2 → Leads step world r u →
    Leads step next r next ∧ u = world

theorem readsBooks_maker (pair : Pair) (side : Side) (amount : Decimal) :
    ReadsBooks (desk.maker.executablePrice pair side amount).run := by
  intro world r u next maker taker led
  obtain ⟨answered, rfl⟩ := leads_maker_ask.1 led
  refine ⟨leads_maker_ask.2 ⟨?_, rfl⟩, rfl⟩
  rw [SimulatedVenue.executablePrice_congr maker]
  exact answered

theorem readsBooks_taker (pair : Pair) (side : Side) (amount : Decimal) :
    ReadsBooks (desk.taker.executablePrice pair side amount).run := by
  intro world r u next maker taker led
  obtain ⟨answered, rfl⟩ := leads_taker_ask.1 led
  exact ⟨leads_taker_ask.2 ⟨taker ▸ answered, rfl⟩, rfl⟩

omit [Arithmetic] in
theorem ReadsBooks.run_bind {α β : Type} {step : Call Venues α} {rest : α → Call Venues β}
    (first : ReadsBooks step.run) (later : ∀ a, ReadsBooks (rest a).run) :
    ReadsBooks (step >>= rest).run := by
  intro world r u next maker taker led
  rw [leads_run_bind] at led ⊢
  rcases led with ⟨e, asked, rfl⟩ | ⟨a, v, asked, led⟩
  · obtain ⟨again, rfl⟩ := first maker taker asked
    exact ⟨.inl ⟨e, again, rfl⟩, rfl⟩
  · obtain ⟨again, rfl⟩ := first maker taker asked
    obtain ⟨led', rfl⟩ := later a maker taker led
    exact ⟨.inr ⟨a, next, again, led'⟩, rfl⟩

/-- The same books give the same quotes. -/
theorem MarketQuotes.readsBooks_fetch : ReadsBooks (fetch desk p).run :=
  (readsBooks_taker _ _ _).run_bind fun _ => (readsBooks_taker _ _ _).run_bind fun _ =>
    (readsBooks_maker _ _ _).run_bind fun _ => (readsBooks_maker _ _ _).run_bind fun _ => by
      intro world r u next _ _ led
      obtain ⟨rfl, rfl⟩ := leads_run_pure.1 led
      exact ⟨leads_run_pure.2 ⟨rfl, rfl⟩, rfl⟩

/-- What is true of the venues and the quote book at any point of a tick at this time with these
quotes: no request is refused on purpose. -/
structure Ready (p : Parameters) (quotes : MarketQuotes) (now : Instant) (world : Venues)
    (book : QuoteBook) : Prop where
  matched : Matched world.1 p.maker.pair book
  eager : world.1.rejections = 0
  willing : world.1.rejectsCancels = false
  clock : world.1.clock = now
  fetched : Leads (MarketQuotes.fetch desk p).run world (.ok quotes) world

/-- No check disturbs any order. -/
structure Undisturbed (p : Parameters) (quotes : MarketQuotes) (now : Instant) (world : Venues)
    (book : QuoteBook) : Prop extends Ready p quotes now world book where
  fresh : ∀ order ∈ world.1.resting, order.pair = p.maker.pair → Cancellation.Fresh p quotes now order
  early : ∀ ⦃side order⦄, book.tracked side = some order → lookup order.id world.1.resting = none →
    ¬ p.maxOrderAge < order.age now

/-- A pass over these orders has left them alone. -/
structure Calm (p : Parameters) (quotes : MarketQuotes) (now : Instant) (world : Venues)
    (book : QuoteBook) : Prop extends Undisturbed p quotes now world book where
  stays : ∀ order ∈ world.1.resting, order.pair = p.maker.pair → Cancellation.Stays p quotes now order

namespace Cancellation

variable {outcomes : List CancelOutcome}

omit [Arithmetic] in
/-- What holds of the orders of the pair holds of what rests under a tracked id. -/
theorem seen_of_matched (matched : Matched world.1 p.maker.pair book) {holds : RestingOrder → Prop}
    (all : ∀ order ∈ world.1.resting, order.pair = p.maker.pair → holds order) :
    ∀ order ∈ book.resting, Seen holds world.1.activeOrders order := by
  intro order member found listed
  rw [matched.healthy.sound.lookup_activeOrders] at listed
  obtain ⟨inVenue, same⟩ := mem_of_lookup listed
  obtain ⟨pair, aside⟩ := matched.resting (matched.sided.tracked_of_mem member) inVenue same
  have own : { found with side := order.side } = found := by rw [← aside]
  exact own ▸ all found inVenue pair

/-- A pass over undisturbed orders does nothing, and it is known afterwards that all of them may
stay. -/
theorem leads_run_undisturbed (undisturbed : Undisturbed p quotes now world book) :
    Leads (run desk p quotes now book) world (outcomes, after) next ↔
      (outcomes = [] ∧ after = book ∧ next = world) ∧
        ∀ order ∈ world.1.resting, order.pair = p.maker.pair → Stays p quotes now order := by
  have matched := undisturbed.matched
  have sound := matched.healthy.sound
  have fresh := seen_of_matched matched undisturbed.fresh
  have early : ∀ order ∈ book.resting, lookup order.id world.1.activeOrders = none →
      ¬ p.maxOrderAge < order.age now := by
    intro order member missing
    rw [sound.lookup_activeOrders] at missing
    exact undisturbed.early (matched.sided.tracked_of_mem member) missing
  have orphans : ∀ order ∈ world.1.activeOrders.filter fun order =>
      order.pair = p.maker.pair ∧ ¬ book.contains order.id,
      order ∈ world.1.resting ∧ order.pair = p.maker.pair ∧ book.contains order.id = false := by
    intro order member
    obtain ⟨listed, kind⟩ := List.mem_filter.1 member
    exact ⟨world.1.activeOrders_perm.mem_iff.1 listed, by simpa using kind⟩
  have fresh' : ∀ order ∈ world.1.activeOrders.filter fun order =>
      order.pair = p.maker.pair ∧ ¬ book.contains order.id, Fresh p quotes now order :=
    fun order member => undisturbed.fresh order (orphans order member).1 (orphans order member).2.1
  rw [leads_run]
  constructor
  · intro led
    obtain ⟨tracked, others, between, joined, checked, orphaned⟩ := led
    obtain ⟨⟨rfl, rfl, rfl⟩, seen⟩ := (leads_checkAllTracked_fresh fresh early).1 checked
    obtain ⟨⟨rfl, rfl⟩, unknown⟩ := (leads_checkOrphans_fresh fresh').1 orphaned
    refine ⟨⟨joined, rfl, rfl⟩, fun order member pair => ?_⟩
    cases known : after.contains order.id with
    | true =>
      obtain ⟨quote, inBook, same⟩ := QuoteBook.contains_iff.1 known
      have listed : lookup quote.id next.1.activeOrders = some order := by
        rw [sound.lookup_activeOrders, same]
        exact lookup_of_mem sound.distinct member
      have judged := seen quote inBook order listed
      have aside := (matched.resting (matched.sided.tracked_of_mem inBook) member same.symm).2
      rwa [Stays, ← aside] at judged
    | false =>
      refine unknown order (List.mem_filter.2 ⟨next.1.activeOrders_perm.mem_iff.2 member, ?_⟩)
      simp [pair, known]
  · intro given
    obtain ⟨⟨rfl, rfl, rfl⟩, stays⟩ := given
    refine ⟨[], [], next, rfl, ?_, ?_⟩
    · exact (leads_checkAllTracked_fresh fresh early).2 ⟨⟨rfl, rfl, rfl⟩, seen_of_matched matched stays⟩
    · refine (leads_checkOrphans_fresh fresh').2 ⟨⟨rfl, rfl⟩, fun order member => ?_⟩
      exact stays order (orphans order member).1 (orphans order member).2.1

end Cancellation

/-! ### Placing and passing -/

namespace Quoting

/-- Where nothing is refused on purpose, a refusal changes nothing. -/
theorem placeSide_eager {placement : Placement} (eager : world.1.rejections = 0)
    (led : Leads (placeSide desk p quotes now side book) world (placement, after) next) :
    (placement.id? = none ∧ after = book ∧ next = world) ∨
      ∃ id price amount v, book.tracked side = none ∧ p.targetPrice quotes side = .ok price ∧
        0 < price.value ∧ world.1.placeOrder p.maker.pair side amount .limit price = .ok (.ok id, v) ∧
        after = book.setTracked side (some (.new id side price amount now)) ∧
        next = (v, world.2) := by
  rcases placeSide_cases led with
    unchanged | ⟨price, amount, e, v, unplaced, rfl, refused, rfl⟩ |
      ⟨id, price, amount, v, -, placed⟩
  · exact .inl unchanged
  · obtain rfl := SimulatedVenue.placeOrder_refused eager refused
    exact .inl ⟨unplaced, rfl, rfl⟩
  · exact .inr ⟨id, price, amount, v, placed⟩

theorem leads_placeSide_tracked (tracked : book.tracked side ≠ none) :
    Leads (placeSide desk p quotes now side book) world (.alreadyResting, book) world := by
  have rests : book.isIdle side = false := by
    simpa [Bool.eq_false_iff, QuoteBook.isIdle_eq_true] using tracked
  exact leads_placeSide.2 (.inl ⟨rests, rfl, rfl, rfl⟩)

end Quoting

theorem Ready.place {placement : Placement} (ready : Ready p quotes now world book)
    (led : Leads (Quoting.placeSide desk p quotes now side book) world (placement, after) next) :
    Ready p quotes now next after := by
  rcases Quoting.placeSide_eager ready.eager led with
    ⟨-, rfl, rfl⟩ | ⟨id, price, amount, v, idle, target, positive, placed, rfl, rfl⟩
  · exact ready
  · have move : Move p.maker.pair (.tick p quotes now fun _ => True) ⟨world.1, book, .empty⟩
        ⟨v, _, _⟩ := .place idle ⟨trivial, target, positive⟩ placed
    have books : (v, world.2).1.books = world.1.books := move.venue_books
    exact ⟨ready.matched.move move, (SimulatedVenue.placeOrder_rejections placed).trans ready.eager,
      move.venue_willing.trans ready.willing, move.venue_clock.trans ready.clock,
      (MarketQuotes.readsBooks_fetch books rfl ready.fetched).1⟩

/-- A quote that was just placed is neither stale nor late. -/
theorem Undisturbed.place (patient : (Rules.tick p quotes now fun _ => True).Patient)
    {placement : Placement} (undisturbed : Undisturbed p quotes now world book)
    (led : Leads (Quoting.placeSide desk p quotes now side book) world (placement, after) next) :
    Undisturbed p quotes now next after := by
  refine ⟨undisturbed.toReady.place led, ?_, ?_⟩ <;>
  rcases Quoting.placeSide_eager undisturbed.eager led with
    ⟨-, rfl, rfl⟩ | ⟨id, price, amount, v, idle, target, positive, placed, rfl, rfl⟩
  · exact undisturbed.fresh
  · obtain ⟨rfl, -, remaining, resting⟩ := SimulatedVenue.placeOrder_resting placed
    intro order member pair
    rw [resting, List.mem_append] at member
    rcases member with old | new'
    · exact undisturbed.fresh order old pair
    · obtain ⟨rfl, -⟩ := SimulatedVenue.mem_restOf.1 new'
      intro reason judged
      rw [undisturbed.clock] at judged
      exact patient.fresh side price ⟨trivial, target, positive⟩ ⟨reason, judged⟩
  · exact undisturbed.early
  · obtain ⟨rfl, -, remaining, resting⟩ := SimulatedVenue.placeOrder_resting placed
    intro other order found missing
    rcases QuoteBook.tracked_of_setTracked found with ⟨rfl, rfl⟩ | old
    · exact patient.early
    · rw [resting, lookup_append, Option.or_eq_none_iff] at missing
      exact undisturbed.early old missing.1

/-- A pass leaves only orders that may stay, and none disturbed. -/
theorem Ready.pass {outcomes : List CancelOutcome} (ready : Ready p quotes now world book)
    (led : Leads (Cancellation.run desk p quotes now book) world (outcomes, after) next) :
    Calm p quotes now next after := by
  obtain ⟨⟨ids, swept, all⟩, early⟩ := Cancellation.run_swept ready.matched ready.willing led
  have moved := @Cancellation.run_moves _ _ _ _ _ _ _ _ _ (fun _ => True) .empty
    ready.matched.healthy.sound ready.matched.sided led
  have stays : ∀ order ∈ next.1.resting, order.pair = p.maker.pair →
      Cancellation.Stays p quotes now order := fun order member pair =>
    swept.stays order member pair (all order (swept.sublist.subset member) pair)
  have matched : Matched next.1 p.maker.pair after := moves_preserve Matched.move moved.2 ready.matched
  obtain ⟨balances, resting, -, same⟩ := swept.frame
  have books : next.1.books = world.1.books := by rw [same]
  refine ⟨⟨⟨matched, ?_, ?_, ?_, ?_⟩, ?_, early⟩, stays⟩
  · rw [same]
    exact ready.eager
  · rw [same]
    exact ready.willing
  · rw [same]
    exact ready.clock
  · exact (MarketQuotes.readsBooks_fetch books moved.1 ready.fetched).1
  · exact fun order member pair => (stays order member pair).fresh

/-! ### Ticks -/

namespace Engine

variable {e e' : Engine} {report : TickReport}

/-- A tick at this time places nothing, cancels nothing and changes nothing. -/
def Still (now : Instant) (e : Engine) (world : Venues) : Prop :=
  ∃ report, report.placed = 0 ∧ report.cancellations = [] ∧
    Leads (e.onTick desk now) world (report, e) world

theorem Still.tick (still : Still now e world)
    (ticked : Leads (e.onTick desk now) world (report, e') next) : Still now e' next := by
  obtain ⟨given, none, none', led⟩ := still
  obtain ⟨same, rfl⟩ := ticked.unique led
  obtain ⟨rfl, rfl⟩ := Prod.mk.inj same
  exact ⟨report, none, none', led⟩

theorem Still.respondAll (still : Still now e world) : ∃ report, report.placed = 0 ∧
    report.cancellations = [] ∧ ∀ n, Leads (Engine.respondAll desk (List.replicate n (.tick now)) e)
      world (List.replicate n (.ticked report), e) world := by
  obtain ⟨report, none, none', led⟩ := still
  refine ⟨report, none, none', fun n => ?_⟩
  induction n with
  | zero => exact leads_pure.2 ⟨rfl, rfl⟩
  | succ n ih =>
    rw [List.replicate_succ, List.replicate_succ, Engine.respondAll, leads_bind]
    refine ⟨(.ticked report, e), world, leads_bind.2 ⟨_, _, led, leads_pure.2 ⟨rfl, rfl⟩⟩, ?_⟩
    exact leads_bind.2 ⟨_, _, ih, leads_pure.2 ⟨rfl, rfl⟩⟩

/-- The first tick: there are no quotes, or nothing is left that a check would disturb. -/
theorem onTick_calm (matched : Matched world.1 e.params.maker.pair e.book)
    (eager : world.1.rejections = 0) (willing : world.1.rejectsCancels = false)
    (clock : world.1.clock = now) (ticked : Leads (e.onTick desk now) world (report, e') next) :
    e'.params = e.params ∧ (Still now e world ∨
      ∃ quotes, Leads (MarketQuotes.fetch desk e.params).run world (.ok quotes) world ∧
        Calm e.params quotes now next e'.book) := by
  obtain ⟨updated, did⟩ := onTick_ticked ticked
  refine ⟨by rw [updated], ?_⟩
  generalize e'.book = last at did updated ⊢
  cases did with
  | skip fetched =>
    obtain rfl := passive_fetch fetched
    rw [updated] at ticked
    exact .inl ⟨_, rfl, rfl, ticked⟩
  | pull halted fetched checked =>
    obtain rfl := passive_fetch fetched
    exact .inr ⟨_, fetched, Ready.pass ⟨matched, eager, willing, clock, fetched⟩ checked⟩
  | quote working fetched placed checked =>
    obtain rfl := passive_fetch fetched
    obtain ⟨bid, ask, between, u, -, first, second⟩ := Quoting.leads_placeQuotes.1 placed
    have ready : Ready e.params _ now _ e.book := ⟨matched, eager, willing, clock, fetched⟩
    exact .inr ⟨_, fetched, ((ready.place first).place second).pass checked⟩

/-- A later tick can only place. If it places no ask, all is still: before it, or after it has placed
a bid. -/
theorem onTick_settles (patient : (Rules.tick e.params quotes now fun _ => True).Patient)
    (calm : Calm e.params quotes now world e.book)
    (ticked : Leads (e.onTick desk now) world (report, e') next) :
    e'.params = e.params ∧ Calm e.params quotes now next e'.book ∧ (Still now e world ∨
      Still now e' next ∨ e.book.tracked .sell = none ∧ e'.book.tracked .sell ≠ none) := by
  obtain ⟨updated, did⟩ := onTick_ticked ticked
  refine ⟨by rw [updated], ?_⟩
  generalize e'.book = last at did updated ⊢
  cases did with
  | skip fetched => cases (calm.fetched.unique fetched).1
  | pull halted fetched checked =>
    obtain ⟨same, rfl⟩ := calm.fetched.unique fetched
    obtain rfl := Except.ok.inj same
    obtain ⟨⟨rfl, rfl, rfl⟩, -⟩ :=
      (Cancellation.leads_run_undisturbed calm.toUndisturbed).1 checked
    rw [updated] at ticked
    exact ⟨calm, .inl ⟨_, rfl, rfl, ticked⟩⟩
  | quote working fetched placed checked =>
    obtain ⟨same, rfl⟩ := calm.fetched.unique fetched
    obtain rfl := Except.ok.inj same
    obtain ⟨bid, ask, between, u, rfl, first, second⟩ := Quoting.leads_placeQuotes.1 placed
    have undisturbed := (calm.toUndisturbed.place patient first).place patient second
    obtain ⟨⟨rfl, rfl, rfl⟩, stays⟩ := (Cancellation.leads_run_undisturbed undisturbed).1 checked
    refine ⟨⟨undisturbed, stays⟩, ?_⟩
    rcases Quoting.placeSide_eager (calm.toReady.place first).eager second with
      ⟨noAsk, rfl, rfl⟩ | ⟨_, _, _, _, idle, -, -, -, rfl, rfl⟩
    · rcases Quoting.placeSide_eager calm.eager first with
        ⟨noBid, rfl, rfl⟩ | ⟨_, _, _, _, -, -, -, -, tracked, -⟩
      · rw [updated] at ticked
        have idle : TickReport.placed ⟨none, some quotes, [(.buy, bid), (.sell, ask)], []⟩ = 0 := by
          simp [TickReport.placed, Placement.isPlaced_of_id? noBid, Placement.isPlaced_of_id? noAsk]
        exact .inl ⟨_, idle, rfl, ticked⟩
      · -- the bid is tracked now, and the ask fails as it did
        have quoted : last.tracked .buy ≠ none := by simp [tracked, QuoteBook.tracked_setTracked]
        have placed' := Quoting.leads_placeQuotes.2 ⟨_, _, _, _, rfl,
          Quoting.leads_placeSide_tracked quoted, second⟩
        have checked' := (Cancellation.leads_run_undisturbed undisturbed).2 ⟨⟨rfl, rfl, rfl⟩, stays⟩
        have again : Ticked desk now { e with book := last } next
            ⟨none, some quotes, [(.buy, .alreadyResting), (.sell, ask)], []⟩ last next :=
          .quote working undisturbed.fetched placed' checked'
        rw [updated]
        have noBid : Placement.alreadyResting.isPlaced = false := rfl
        have idle :
            TickReport.placed ⟨none, some quotes, [(.buy, .alreadyResting), (.sell, ask)], []⟩ = 0 := by
          simp [TickReport.placed, noBid, Placement.isPlaced_of_id? noAsk]
        exact .inr (.inl ⟨_, idle, rfl, again.leads⟩)
    · refine .inr (.inr ⟨?_, by simp [QuoteBook.tracked_setTracked]⟩)
      rcases Quoting.placeSide_eager calm.eager first with
        ⟨-, rfl, rfl⟩ | ⟨_, _, _, _, -, -, -, -, rfl, -⟩
      · exact idle
      · simpa [QuoteBook.tracked_setTracked] using idle

theorem respond_tick {answer : Answer}
    (led : Leads (e.respond desk (.tick now)) world (answer, e') next) :
    ∃ report, Leads (e.onTick desk now) world (report, e') next := by
  rcases respond_cases led with ⟨_, report, same, -, ticked⟩ | ⟨_, _, same, -⟩ | ⟨_, same, -⟩
  · cases same
    exact ⟨report, ticked⟩
  · cases same
  · cases same

/-- After three ticks at one time, with the same books and no fill delivered in between, no further
tick at that time does anything: the engine and both venues stay as they are. -/
theorem ticks_settle (rounds : Arithmetic.Rounds) {config : Config}
    (configured : config.parameters = .ok p) (reachable : Reachable p e world)
    (eager : world.1.rejections = 0) (willing : world.1.rejectsCancels = false)
    (clock : world.1.clock = now)
    (unrounded : ∀ quotes, Leads (MarketQuotes.fetch desk p).run world (.ok quotes) world →
      ∀ side, p.Unrounded quotes side) {answers : List Answer}
    (ran : Leads (respondAll desk (List.replicate 3 (.tick now)) e) world (answers, e') next) :
    ∃ report, report.placed = 0 ∧ report.cancellations = [] ∧
      ∀ n, Leads (respondAll desk (List.replicate n (.tick now)) e') next
        (List.replicate n (.ticked report), e') next := by
  obtain ⟨rfl, matched⟩ := reachable.matched
  obtain ⟨_, others, e₁, w₁, -, first, ran⟩ := respondAll_cons ran
  obtain ⟨_, others, e₂, w₂, -, second, ran⟩ := respondAll_cons ran
  obtain ⟨_, others, e₃, w₃, -, third, ran⟩ := respondAll_cons ran
  obtain ⟨-, rfl, rfl⟩ := leads_pure_pair.1 ran
  obtain ⟨_, first⟩ := respond_tick first
  obtain ⟨_, second⟩ := respond_tick second
  obtain ⟨_, third⟩ := respond_tick third
  refine Still.respondAll ?_
  obtain ⟨params, still | ⟨quotes, fetched, calm⟩⟩ := onTick_calm matched eager willing clock first
  · exact ((still.tick first).tick second).tick third
  · have patient : (Rules.tick e.params quotes now fun _ => True).Patient :=
      Rules.patient_tick rounds (Config.parameters_valid configured).1
        fun side _ => unrounded quotes fetched side
    rw [← params] at patient calm
    obtain ⟨params', calm', still | still | ⟨-, quoted⟩⟩ := onTick_settles patient calm second
    · exact (still.tick second).tick third
    · exact still.tick third
    · rw [← params'] at patient calm'
      obtain ⟨-, -, still | still | ⟨idle, -⟩⟩ := onTick_settles patient calm' third
      · exact still.tick third
      · exact still
      · exact absurd idle quoted

def Answer.report? : Answer → Option TickReport
  | ticked report => some report
  | _ => none

/-- The maker has nothing to buy with. -/
def poorVenues : Venues :=
  ((bookedVenue "okx" 0 (.of 10000 0) wideBook).setBalance "USDT" 0,
    bookedVenue "binance" 0 (.of 10000 0) narrowBook)

/-- Bids on the maker, just below an ask that rests there, and lower prices on the taker. -/
def nearBook : OrderBook :=
  ⟨tenPair, ⟨0⟩, [⟨.of 101 0, .of 1000 0⟩], [⟨.of 110 0, .of 1000 0⟩]⟩

def lowBook : OrderBook :=
  ⟨tenPair, ⟨0⟩, [⟨.of 99 0, .of 1000 0⟩], [⟨.of 100 0, .of 1000 0⟩]⟩

omit [Arithmetic] in
/-- All three ticks are needed: the first cancels an expired ask, the second sells, and with the
proceeds the third places a bid. -/
theorem ticks_settle_third : ∃ p e world answers e' next, tenConfig.parameters = .ok p ∧
    @Reachable .rounding p e world ∧
    Leads (@respondAll _ .rounding (@desk .rounding) (List.replicate 3 (.tick expiry)) e) world
      (answers, e') next ∧
    (answers.filterMap Answer.report?).map (fun report =>
      (report.placed, report.cancellations.length)) = [(0, 1), (1, 0), (1, 0)] ∧
    ∃ report, report.placed = 0 ∧ report.cancellations = [] ∧
      ∀ n, Leads (@respondAll _ .rounding (@desk .rounding) (List.replicate n (.tick expiry)) e') next
        (List.replicate n (.ticked report), e') next := by
  have works : tenConfig.parameters.toOption.any (fun p =>
      ((@respond _ .rounding (@desk .rounding) (.new p) (.tick ⟨0⟩)).run
        poorVenues).toOption.any fun quoted =>
          (@SimulatedVenue.perform .rounding quoted.2.1 (.settings expiry 0 false)).toOption.any
            fun later =>
              (@SimulatedVenue.perform .rounding later.2 (.setBook nearBook)).toOption.any fun maker =>
                let world := (maker.2, bookedVenue "binance" 0 (.of 10000 0) lowBook)
                ((@respondAll _ .rounding (@desk .rounding) (List.replicate 3 (.tick expiry))
                  quoted.1.2).run world).toOption.any fun ran =>
                    ((@MarketQuotes.fetch _ (@desk .rounding) p).run.run world).toOption.any
                      fun fetched => decide (maker.2.rejections = 0 ∧
                        maker.2.rejectsCancels = false ∧ maker.2.clock = expiry ∧
                        fetched.1.toOption.all (fun quotes =>
                          decide (@Parameters.Unrounded .rounding p quotes .buy) &&
                            decide (@Parameters.Unrounded .rounding p quotes .sell)) = true ∧
                        (ran.1.1.filterMap Answer.report?).map (fun report =>
                          (report.placed, report.cancellations.length)) =
                            [(0, 1), (1, 0), (1, 0)])) = true := by
    decide +kernel
  obtain ⟨p, configured, works⟩ := Checked.toOption_any works
  obtain ⟨⟨⟨answer, e⟩, quoted⟩, responded, works⟩ := Checked.toOption_any works
  obtain ⟨⟨nothing, later⟩, set, works⟩ := Checked.toOption_any works
  obtain ⟨⟨exchanges, maker⟩, booked, works⟩ := Checked.toOption_any works
  obtain ⟨⟨⟨answers, e'⟩, next⟩, ran, works⟩ := Checked.toOption_any works
  obtain ⟨⟨r, world⟩, fetched, works⟩ := Checked.toOption_any works
  obtain ⟨eager, willing, clock, unrounded, active⟩ := of_decide_eq_true works
  have reachable : @Reachable .rounding p e (maker, bookedVenue "binance" 0 (.of 10000 0) lowBook) :=
    @Reachable.taker .rounding _ _ _ _ (@Reachable.others .rounding _ _ _ _ _ _
      (@Reachable.others .rounding _ _ _ _ _ _ (@Reachable.respond .rounding _ _ _ _ _ _ _
        (@Reachable.fund .rounding _ _ _ "USDT" 0 (@Reachable.start .rounding p _ .none _
          (@bookedVenue_reached .rounding "okx" 0 (.of 10000 0) wideBook))) responded) set) booked)
  refine ⟨p, e, _, answers, e', next, configured, reachable, ran, active, ?_⟩
  refine @ticks_settle .rounding _ _ p expiry e e' Arithmetic.rounding_rounds tenConfig configured
    reachable eager willing clock ?_ answers ran
  intro quotes led side
  obtain ⟨rfl, -⟩ := Leads.unique fetched led
  obtain ⟨bid, ask⟩ := Bool.and_eq_true_iff.1 unrounded
  cases side with
  | buy => exact of_decide_eq_true bid
  | sell => exact of_decide_eq_true ask

end Engine

end MarketMaker
