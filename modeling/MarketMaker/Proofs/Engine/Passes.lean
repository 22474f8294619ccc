import MarketMaker.Proofs.Engine.Coverage
import MarketMaker.Proofs.Engine.Prices
import MarketMaker.Proofs.Engine.Reachable
import MarketMaker.Proofs.Engine.Submission
/-!
What a pass over the resting orders leaves behind on a venue that refuses no cancellation. Every order
of the pair is checked, as a tracked one or as one that nobody tracks; afterwards it is gone, or the
check lets it rest. So nothing stale survives a tick.
-/

namespace MarketMaker

open RestingOrder

namespace Cancellation

variable [Arithmetic] {p : Parameters} {quotes : MarketQuotes} {now : Instant}

/-- A check of the order lets it rest. -/
def Stays (p : Parameters) (quotes : MarketQuotes) (now : Instant) (order : RestingOrder) : Prop :=
  reason? p quotes now order.side order.price order.createdAt = .ok none

theorem reason?_none {side : Side} {price : Decimal} {createdAt : Instant}
    (judged : reason? p quotes now side price createdAt = .ok none) :
    ∃ threshold, p.threshold quotes side = .ok threshold ∧ isBeyond side price threshold = false ∧
      ¬ p.maxOrderAge < now.since createdAt := by
  simp only [reason?, Checked.bind_ok] at judged
  obtain ⟨threshold, bound, judged⟩ := judged
  refine ⟨threshold, bound, ?_⟩
  split at judged
  next => cases judged
  next within =>
    split at judged
    next => cases judged
    next young => exact ⟨Bool.eq_false_iff.2 within, young⟩

/-- From `v` to `w` the orders of these ids were checked: those of them that still rest may stay, and
all others are left alone. -/
structure Swept (p : Parameters) (quotes : MarketQuotes) (now : Instant) (ids : List OrderId)
    (v w : SimulatedVenue) : Prop where
  frame : ∃ balances resting, resting.Sublist v.resting ∧ w = { v with balances, resting }
  stays : ∀ order ∈ w.resting, order.pair = p.maker.pair → order.id ∈ ids → Stays p quotes now order
  others : ∀ id ∉ ids, lookup id w.resting = lookup id v.resting

namespace Swept

variable {v u w : SimulatedVenue} {ids more : List OrderId}

theorem unchanged (stays : ∀ order ∈ v.resting, order.pair = p.maker.pair → order.id ∈ ids →
    Stays p quotes now order) : Swept p quotes now ids v v :=
  ⟨⟨v.balances, v.resting, .refl _, rfl⟩, stays, fun _ _ => rfl⟩

theorem sublist (swept : Swept p quotes now ids v w) : w.resting.Sublist v.resting := by
  obtain ⟨balances, resting, fewer, rfl⟩ := swept.frame
  exact fewer

theorem willing (swept : Swept p quotes now ids v w) : w.rejectsCancels = v.rejectsCancels := by
  obtain ⟨balances, resting, -, rfl⟩ := swept.frame
  rfl

theorem sound (swept : Swept p quotes now ids v w) (sound : v.Sound) : w.Sound := by
  obtain ⟨balances, resting, fewer, rfl⟩ := swept.frame
  exact ⟨sound.numbered, fun order member => sound.accepted order (fewer.subset member),
    sound.distinct.sublist (fewer.map _),
    fun order member => sound.positive order (fewer.subset member)⟩

theorem append (first : Swept p quotes now ids v u) (second : Swept p quotes now more u w) :
    Swept p quotes now (ids ++ more) v w where
  frame := by
    obtain ⟨_, _, fewer, rfl⟩ := first.frame
    obtain ⟨balances, resting, fewer', rfl⟩ := second.frame
    exact ⟨balances, resting, fewer'.trans fewer, rfl⟩
  stays order member pair inIds := by
    rcases List.mem_append.1 inIds with earlier | later
    · exact first.stays order (second.sublist.subset member) pair earlier
    · exact second.stays order member pair later
  others id unchecked := by
    rw [List.mem_append, not_or] at unchecked
    rw [second.others id unchecked.2, first.others id unchecked.1]

end Swept

/-- Whatever a venue answers to a cancellation that it does not refuse as such, no order of the pair
rests under the id any more. -/
theorem swept_cancel {v w : SimulatedVenue} {id : OrderId} {reply : Except VenueError Unit}
    (sound : v.Sound) (willing : v.rejectsCancels = false)
    (done : v.cancelOrder p.maker.pair id = .ok (reply, w)) : Swept p quotes now [id] v w := by
  rw [SimulatedVenue.cancelOrder, willing, if_neg Bool.false_ne_true] at done
  split at done
  next absent =>
    cases done
    refine .unchanged fun order member _ same => ?_
    exact absurd (List.mem_singleton.1 same) (lookup_eq_none.1 absent order member)
  next found resting =>
    split at done
    next =>
      simp only [Checked.bind_ok, Checked.pure_ok, Prod.mk.injEq] at done
      obtain ⟨_, refunded, rfl, rfl⟩ := done
      obtain ⟨held, sum, -, -, -, rfl⟩ := SimulatedVenue.refund_ok refunded
      refine ⟨⟨_, _, List.filter_sublist, rfl⟩, ?_, ?_⟩
      · intro order member _ same
        have other := (List.mem_filter.1 member).2
        simp only [decide_eq_true_eq] at other
        exact absurd (List.mem_singleton.1 same) other
      · intro other unchecked
        refine (lookup_remove other id v.resting).trans (if_neg ?_)
        exact fun same => unchecked (List.mem_singleton.2 same)
    next elsewhere =>
      cases done
      refine .unchanged fun order member pair same => ?_
      have both := lookup_of_mem sound.distinct member
      rw [List.mem_singleton.1 same] at both
      obtain rfl := Option.some.inj (both.symm.trans resting)
      exact absurd pair elsewhere

/-! ### A pass -/

section Pass

open Act Session

variable {world next : Venues} {live : List RestingOrder} {book after : QuoteBook}
  {outcomes : List CancelOutcome}

/-- A tracked order is judged by the side it is tracked on, so that has to be its own. -/
theorem checkTracked_swept {order : TrackedOrder} (sound : world.1.Sound)
    (willing : world.1.rejectsCancels = false) (shown : Shown live world.1)
    (sides : ∀ resting ∈ world.1.resting, resting.id = order.id → resting.side = order.side)
    (led : Leads (checkTracked desk p quotes now live order book) world (outcomes, after) next) :
    Swept p quotes now [order.id] world.1 next.1 := by
  have gone : lookup order.id live = none → Swept p quotes now [order.id] world.1 world.1 := by
    refine fun absent => .unchanged fun resting member _ same => ?_
    exact absurd (List.mem_singleton.1 same) (lookup_eq_none.1 (shown.gone absent) resting member)
  cases leads_checkTracked.1 led with
  | release absent | await absent => exact gone absent
  | stay listed judged =>
    refine .unchanged fun resting member _ same => ?_
    have own := List.mem_singleton.1 same
    have both := lookup_of_mem sound.distinct member
    rw [own] at both
    obtain rfl := shown.same listed both
    rw [Stays, sides _ member own]
    exact judged
  | cancel listed judged answered | fail listed judged answered =>
    obtain ⟨v, cancelled, rfl⟩ := leads_maker_cancel.1 answered
    exact swept_cancel sound willing cancelled

/-- A tracked order that is still tracked rests, or it has not been missing for long: a cancellation
that fails leaves it where it was. -/
theorem checkTracked_prompt {order : TrackedOrder}
    (seen : lookup order.id live = lookup order.id world.1.resting)
    (led : Leads (checkTracked desk p quotes now live order book) world (outcomes, after) next)
    (still : after.tracked order.side = some order)
    (missing : lookup order.id next.1.resting = none) : ¬ p.maxOrderAge < order.age now := by
  cases leads_checkTracked.1 led with
  | release =>
    rw [QuoteBook.tracked_forget, if_pos rfl] at still
    cases still
  | await absent early => exact early
  | stay listed => cases (seen.symm.trans listed).symm.trans missing
  | cancel =>
    rw [QuoteBook.release, QuoteBook.tracked_setTracked, if_pos rfl] at still
    cases still
  | fail listed judged refused =>
    obtain rfl := maker_cancel_refused refused
    cases (seen.symm.trans listed).symm.trans missing

/-- The state in which a pass has still to check these tracked orders. -/
structure Pending (live : List RestingOrder) (orders : List TrackedOrder) (v : SimulatedVenue)
    (book : QuoteBook) : Prop where
  sound : v.Sound
  willing : v.rejectsCancels = false
  shown : Shown live v
  seen : ∀ order ∈ orders, lookup order.id live = lookup order.id v.resting
  sides : ∀ order ∈ orders, ∀ resting ∈ v.resting, resting.id = order.id → resting.side = order.side
  tracked : ∀ order ∈ orders, book.tracked order.side = some order
  apart : (orders.map TrackedOrder.side).Nodup
  distinct : (orders.map TrackedOrder.id).Nodup

omit [Arithmetic] in
theorem pending_of_matched {v : SimulatedVenue} {pair : Pair} (matched : Matched v pair book)
    (willing : v.rejectsCancels = false) : Pending v.activeOrders book.resting v book where
  sound := matched.healthy.sound
  willing := willing
  shown := shown_activeOrders matched.healthy.sound
  seen order _ := matched.healthy.sound.lookup_activeOrders order.id
  sides _ member _ inVenue same :=
    (matched.resting (matched.sided.tracked_of_mem member) inVenue same).2
  tracked _ member := matched.sided.tracked_of_mem member
  apart := matched.sided.sides_nodup
  distinct := matched.ids_nodup

/-- Orders have different sides and ids, so checking one of them does not affect the others. -/
theorem Pending.check {order : TrackedOrder} {orders : List TrackedOrder}
    (pending : Pending live (order :: orders) world.1 book)
    (led : Leads (checkTracked desk p quotes now live order book) world (outcomes, after) next) :
    Swept p quotes now [order.id] world.1 next.1 ∧ Pending live orders next.1 after := by
  have apart := List.nodup_cons.1 pending.apart
  have distinct := List.nodup_cons.1 pending.distinct
  have swept := checkTracked_swept pending.sound pending.willing pending.shown
    (pending.sides order List.mem_cons_self) led
  obtain ⟨-, shown, kept, -⟩ := @checkTracked_moves _ _ _ _ _ _ _ _ _ _ (fun _ => True) order .empty
    pending.shown (pending.tracked order List.mem_cons_self) led
  refine ⟨swept, swept.sound pending.sound, swept.willing.trans pending.willing, shown, ?_, ?_, ?_,
    apart.2, distinct.2⟩
  · intro other member
    rw [swept.others other.id, pending.seen other (List.mem_cons_of_mem _ member)]
    intro same
    exact distinct.1 (List.mem_singleton.1 same ▸ List.mem_map_of_mem member)
  · intro other member resting inNext
    exact pending.sides other (List.mem_cons_of_mem _ member) resting (swept.sublist.subset inNext)
  · intro other member
    rcases kept other.side with same | ⟨same, -⟩
    · exact same.trans (pending.tracked other (List.mem_cons_of_mem _ member))
    · exact absurd (same ▸ List.mem_map_of_mem member) apart.1

theorem checkAllTracked_swept {orders : List TrackedOrder}
    (pending : Pending live orders world.1 book)
    (led : Leads (checkAllTracked desk p quotes now live orders book) world (outcomes, after) next) :
    Swept p quotes now (orders.map TrackedOrder.id) world.1 next.1 ∧
      ∀ order ∈ orders, after.tracked order.side = some order →
        lookup order.id next.1.resting = none → ¬ p.maxOrderAge < order.age now := by
  induction orders generalizing world book outcomes with
  | nil =>
    obtain ⟨-, rfl⟩ := leads_pure.1 led
    exact ⟨.unchanged fun _ _ _ none => absurd none List.not_mem_nil,
      fun _ none => absurd none List.not_mem_nil⟩
  | cons order orders ih =>
    obtain ⟨first, others, between, u, rfl, checked, rest⟩ := leads_checkAllTracked_cons.1 led
    obtain ⟨swept, pending'⟩ := pending.check checked
    obtain ⟨later, prompt⟩ := ih pending' rest
    refine ⟨swept.append later, fun other member still missing => ?_⟩
    rcases List.mem_cons.1 member with rfl | inRest
    · obtain ⟨-, -, kept, -⟩ := @checkAllTracked_moves _ _ _ _ _ _ _ _ _ _ (fun _ => True) orders
        .empty pending'.shown pending'.tracked pending'.apart rest
      rw [later.others _ (List.nodup_cons.1 pending.distinct).1] at missing
      exact checkTracked_prompt (pending.seen _ List.mem_cons_self) checked (kept _ _ still) missing
    · exact prompt other inRest still missing

theorem checkOrphans_swept {orders : List RestingOrder} (sound : world.1.Sound)
    (willing : world.1.rejectsCancels = false) (shown : Shown live world.1) (listed : orders ⊆ live)
    (led : Leads (checkOrphans desk p quotes now orders) world outcomes next) :
    Swept p quotes now (orders.map RestingOrder.id) world.1 next.1 := by
  induction orders generalizing world outcomes with
  | nil =>
    obtain ⟨-, rfl⟩ := leads_pure.1 led
    exact .unchanged fun _ _ _ none => absurd none List.not_mem_nil
  | cons order orders ih =>
    obtain ⟨first, others, u, -, check, rest⟩ := leads_checkOrphans_cons.1 led
    have swept : Swept p quotes now [order.id] world.1 u.1 := by
      cases check with
      | stay judged =>
        refine .unchanged fun resting member _ same => ?_
        have both := lookup_of_mem sound.distinct member
        rw [List.mem_singleton.1 same] at both
        obtain rfl := shown.same (lookup_of_mem shown.distinct (listed List.mem_cons_self)) both
        exact judged
      | cancel judged answered | fail judged answered =>
        obtain ⟨v, cancelled, rfl⟩ := leads_maker_cancel.1 answered
        exact swept_cancel sound willing cancelled
    refine swept.append (ih (swept.sound sound) (swept.willing.trans willing)
      (shown.mono swept.sublist.subset) ?_ rest)
    exact fun other member => listed (List.mem_cons_of_mem _ member)

/-- Every order of the pair is tracked or not, and is checked either way. -/
theorem run_swept (matched : Matched world.1 p.maker.pair book)
    (willing : world.1.rejectsCancels = false)
    (led : Leads (run desk p quotes now book) world (outcomes, after) next) :
    (∃ ids, Swept p quotes now ids world.1 next.1 ∧
      ∀ order ∈ world.1.resting, order.pair = p.maker.pair → order.id ∈ ids) ∧
    ∀ side order, after.tracked side = some order → lookup order.id next.1.resting = none →
      ¬ p.maxOrderAge < order.age now := by
  obtain ⟨tracked, others, between, -, checked, orphaned⟩ := leads_run.1 led
  have pending := pending_of_matched matched willing
  obtain ⟨first, prompt⟩ := checkAllTracked_swept pending checked
  have second := checkOrphans_swept (first.sound pending.sound) (first.willing.trans willing)
    (pending.shown.mono first.sublist.subset) (List.filter_subset_self _) orphaned
  refine ⟨⟨_, first.append second, fun order member pair => List.mem_append.2 ?_⟩, ?_⟩
  · cases known : book.contains order.id with
    | true =>
      obtain ⟨quote, inBook, same⟩ := QuoteBook.contains_iff.1 known
      exact .inl (same ▸ List.mem_map_of_mem inBook)
    | false =>
      refine .inr (List.mem_map_of_mem (List.mem_filter.2 ⟨pending.shown.subset member, ?_⟩))
      simp [pair, known]
  · intro side order found missing
    obtain ⟨-, -, kept, -⟩ := @checkAllTracked_moves _ _ _ _ _ _ _ _ _ _ (fun _ => True) _ .empty
      pending.shown pending.tracked pending.apart checked
    have known := kept side order found
    have member : order ∈ book.resting := QuoteBook.mem_resting.2 ⟨side, known⟩
    rw [second.others order.id] at missing
    · exact prompt order member ((matched.sided known).symm ▸ found) missing
    · intro orphan
      obtain ⟨other, inList, same⟩ := List.mem_map.1 orphan
      have unknown := (List.mem_filter.1 inList).2
      have contained := QuoteBook.contains_iff.2 ⟨order, member, same.symm⟩
      simp [contained] at unknown

end Pass

end Cancellation

/-! ### Ticks -/

theorem Move.venue_willing [Arithmetic] {pair : Pair} {rules : Rules} {f g : Front}
    (move : Move pair rules f g) : g.venue.rejectsCancels = f.venue.rejectsCancels := by
  cases move with
  | refuse n => rfl
  | place idle aimed accepted =>
    rcases SimulatedVenue.placeOrder_cases accepted with
      ⟨_, n, -, rfl⟩ | ⟨_, t, _, -, -, -, -, -, accepts⟩
    · rfl
    · obtain ⟨s, fills, trades, -, -, -, rfl⟩ := SimulatedVenue.accept_ok accepts
      rfl
  | release tracked gone late => rfl
  | cancel tracked found stale done | orphan unknown found stale done =>
    rcases SimulatedVenue.cancelOrder_cases done with ⟨_, -, rfl⟩ | ⟨order, -, -, -, refunded⟩
    · rfl
    · obtain ⟨held, sum, -, -, -, rfl⟩ := SimulatedVenue.refund_ok refunded
      rfl

/-- The thresholds of both sides keep away from a taker whose prices are in order. -/
theorem Parameters.thresholds_ordered [Arithmetic] (rounds : Arithmetic.Rounds) {p : Parameters}
    (valid : p.Valid) {quotes : MarketQuotes} (positive : 0 < quotes.takerSell)
    (ordered : quotes.takerSell ≤ quotes.takerBuy) {low high : Decimal}
    (bids : p.threshold quotes .buy = .ok low) (asks : p.threshold quotes .sell = .ok high) :
    low ≤ high := by
  rw [Decimal.pos_iff_value] at positive
  rw [Decimal.le_iff_value] at ordered ⊢
  rw [BasisPoints.below_value rounds bids, BasisPoints.above_value rounds asks]
  have rate := BasisPoints.rate_nonneg valid.minSpread
  apply Decimal.nearest_mono
  have factors : Decimal.nearest (1 - BasisPoints.rate p.minSpread) ≤
      Decimal.nearest (1 + BasisPoints.rate p.minSpread) := Decimal.nearest_mono (by linarith)
  have factor : 0 ≤ Decimal.nearest (1 + BasisPoints.rate p.minSpread) :=
    Decimal.nearest_nonneg (by linarith)
  calc quotes.takerSell.value * Decimal.nearest (1 - BasisPoints.rate p.minSpread)
      ≤ quotes.takerSell.value * Decimal.nearest (1 + BasisPoints.rate p.minSpread) :=
        mul_le_mul_of_nonneg_left factors positive.le
    _ ≤ quotes.takerBuy.value * Decimal.nearest (1 + BasisPoints.rate p.minSpread) :=
        mul_le_mul_of_nonneg_right ordered factor

theorem Quoting.placeQuotes_matched [Arithmetic] {p : Parameters} {quotes : MarketQuotes}
    {now : Instant} {world next : Venues} {book after : QuoteBook}
    {placements : List (Side × Placement)} (matched : Matched world.1 p.maker.pair book)
    (led : Act.Leads (placeQuotes Session.desk p quotes now book) world (placements, after) next) :
    Matched next.1 p.maker.pair after ∧ next.1.rejectsCancels = world.1.rejectsCancels := by
  have moves : Relation.ReflTransGen (Move p.maker.pair (.tick p quotes now fun _ => True))
      ⟨world.1, book, .empty⟩ ⟨next.1, after, Journal.empty.place placements⟩ :=
    (placeQuotes_moves .empty (fun _ _ _ => trivial) led).2
  exact ⟨moves_preserve Matched.move moves matched,
    moves_preserve (fun move same => move.venue_willing.trans same) moves rfl⟩

namespace Engine

open Act Session

variable [Arithmetic] {world next : Venues} {p : Parameters} {e e' : Engine} {now : Instant}
  {report : TickReport} {quotes : MarketQuotes}

/-- A tick with quotes ends with a pass over what it has placed and what rested before. -/
theorem onTick_pass (matched : Matched world.1 e.params.maker.pair e.book)
    (ticked : Leads (e.onTick desk now) world (report, e') next)
    (quoted : report.quotes = some quotes) :
    ∃ between book, Matched between.1 e.params.maker.pair book ∧
      between.1.rejectsCancels = world.1.rejectsCancels ∧
      Leads (Cancellation.run desk e.params quotes now book) between
        (report.cancellations, e'.book) next := by
  obtain ⟨-, ticked⟩ := onTick_ticked ticked
  generalize e'.book = last at ticked ⊢
  cases ticked with
  | skip fetched => cases quoted
  | pull halted fetched checked =>
    obtain rfl := Option.some.inj quoted
    obtain rfl := passive_fetch fetched
    exact ⟨_, _, matched, rfl, checked⟩
  | quote working fetched placed checked =>
    obtain rfl := Option.some.inj quoted
    obtain rfl := passive_fetch fetched
    obtain ⟨matched', same⟩ := Quoting.placeQuotes_matched matched placed
    exact ⟨_, _, matched', same, checked⟩

/-- On a maker that refuses no cancellation nothing stale survives a tick, whoever placed it. So no
bid there is above an ask, if the taker's prices are in order. -/
theorem nothing_stale_rests {config : Config} (configured : config.parameters = .ok p)
    (reachable : Reachable p e world) (willing : world.1.rejectsCancels = false)
    (ticked : Leads (e.onTick desk now) world (report, e') next)
    (unskipped : report.skipped = none) :
    ∃ quotes, report.quotes = some quotes ∧
      (∀ order ∈ next.1.resting, order.pair = p.maker.pair →
        Cancellation.reason? p quotes now order.side order.price order.createdAt = .ok none) ∧
      (Arithmetic.Rounds → 0 < quotes.takerSell → quotes.takerSell ≤ quotes.takerBuy →
        ∀ bid ∈ next.1.resting, ∀ ask ∈ next.1.resting,
          bid.pair = p.maker.pair → bid.side = .buy → ask.pair = p.maker.pair → ask.side = .sell →
            bid.price ≤ ask.price) := by
  obtain ⟨rfl, matched⟩ := reachable.matched
  obtain ⟨quotes, quoted⟩ : ∃ quotes, report.quotes = some quotes := by
    obtain ⟨-, ticked⟩ := onTick_ticked ticked
    generalize e'.book = last at ticked
    cases ticked with
    | skip fetched => cases unskipped
    | pull => exact ⟨_, rfl⟩
    | quote => exact ⟨_, rfl⟩
  obtain ⟨between, book, matched', same, passed⟩ := onTick_pass matched ticked quoted
  obtain ⟨⟨ids, swept, all⟩, -⟩ := Cancellation.run_swept matched' (same.trans willing) passed
  have stays : ∀ order ∈ next.1.resting, order.pair = e.params.maker.pair →
      Cancellation.Stays e.params quotes now order := fun order member pair =>
    swept.stays order member pair (all order (swept.sublist.subset member) pair)
  refine ⟨quotes, quoted, stays, ?_⟩
  intro rounds positive ordered bid bids ask asks bidPair bidSide askPair askSide
  have valid := (Config.parameters_valid configured).1
  obtain ⟨low, least, below, -⟩ := Cancellation.reason?_none (stays bid bids bidPair)
  obtain ⟨high, most, above, -⟩ := Cancellation.reason?_none (stays ask asks askPair)
  rw [bidSide] at least below
  rw [askSide] at most above
  have apart := Parameters.thresholds_ordered rounds valid positive ordered least most
  have bidBelow := Decimal.not_lt_iff_value.1 (of_decide_eq_false below)
  have askAbove := Decimal.not_lt_iff_value.1 (of_decide_eq_false above)
  rw [Decimal.le_iff_value] at apart ⊢
  exact bidBelow.trans (apart.trans askAbove)

/-- Another bid, too close to the taker's price. -/
def rivalBid : SimulatedVenue.Operation :=
  .place tenPair .buy (.of 5 0) .limit (.of 999 1)

omit [Arithmetic] in
/-- A first tick places both quotes and cancels the bid that rested before. -/
theorem nothing_stale_rests_rival : ∃ p exchanges maker report e next quotes,
    tenConfig.parameters = .ok p ∧
    @SimulatedVenue.perform .rounding (bookedVenue "okx" 0 (.of 10000 0) wideBook) rivalBid =
      .ok (exchanges, maker) ∧
    maker.resting.map RestingOrder.price = [.of 999 1] ∧
    Leads (@onTick _ .rounding (@desk .rounding) ⟨0⟩ (.new p))
      (maker, bookedVenue "binance" 0 (.of 10000 0) narrowBook) (report, e) next ∧
    next.1.resting.map (fun order => (order.side, order.price)) =
      [(.buy, .of 996800 4), (.sell, .of 1013232 4)] ∧
    report.quotes = some quotes ∧
    (∀ order ∈ next.1.resting, order.pair = p.maker.pair →
      @Cancellation.reason? .rounding p quotes ⟨0⟩ order.side order.price order.createdAt =
        .ok none) ∧
    ∀ bid ∈ next.1.resting, ∀ ask ∈ next.1.resting,
      bid.pair = p.maker.pair → bid.side = .buy → ask.pair = p.maker.pair → ask.side = .sell →
        bid.price ≤ ask.price := by
  have works : tenConfig.parameters.toOption.any (fun p =>
      (@SimulatedVenue.perform .rounding (bookedVenue "okx" 0 (.of 10000 0) wideBook)
        rivalBid).toOption.any fun placed =>
          ((@onTick _ .rounding (@desk .rounding) ⟨0⟩ (.new p)).run
            (placed.2, bookedVenue "binance" 0 (.of 10000 0) narrowBook)).toOption.any fun ticked =>
              decide (placed.2.resting.map RestingOrder.price = [.of 999 1] ∧
                placed.2.rejectsCancels = false ∧ ticked.1.1.skipped = none ∧
                ticked.2.1.resting.map (fun order => (order.side, order.price)) =
                  [(.buy, .of 996800 4), (.sell, .of 1013232 4)] ∧
                ticked.1.1.quotes.all (fun quotes => decide (0 < quotes.takerSell ∧
                  quotes.takerSell ≤ quotes.takerBuy)) = true)) = true := by
    decide +kernel
  obtain ⟨p, configured, works⟩ := Checked.toOption_any works
  obtain ⟨⟨exchanges, maker⟩, placed, works⟩ := Checked.toOption_any works
  obtain ⟨⟨⟨report, e⟩, next⟩, ticked, works⟩ := Checked.toOption_any works
  obtain ⟨before, willing, unskipped, after, priced⟩ := of_decide_eq_true works
  have begun := @Reachable.start .rounding p _ .none (bookedVenue "binance" 0 (.of 10000 0) narrowBook)
    (@bookedVenue_reached .rounding "okx" 0 (.of 10000 0) wideBook)
  obtain ⟨quotes, quoted, stays, apart⟩ := @nothing_stale_rests .rounding _ _ p _ _ _ _ tenConfig
    configured (@Reachable.others .rounding _ _ _ _ _ _ begun placed) willing ticked unskipped
  rw [quoted] at priced
  obtain ⟨positive, ordered⟩ := of_decide_eq_true priced
  exact ⟨p, exchanges, maker, report, e, next, quotes, configured, placed, before, ticked, after,
    quoted, stays, apart Arithmetic.rounding_rounds positive ordered⟩

end Engine

end MarketMaker
