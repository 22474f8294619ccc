import MarketMaker.Proofs.Engine.Handlers
import MarketMaker.Proofs.Engine.Requests
import MarketMaker.Proofs.QuoteBook
import MarketMaker.Proofs.Venue.Budget
import MarketMaker.Proofs.Venue.Soundness
/-!
Ticks and stops as single moves. Whatever a tick or a stop does to the maker's venue and the quote
book is a sequence of placements, cancellations and releases; the taker is only asked.
-/

namespace MarketMaker

open Relation (ReflTransGen)

/-! ### The journal -/

namespace Placement

def id? : Placement → Option OrderId
  | placed id .. => some id
  | _ => none

theorem isPlaced_of_id? {placement : Placement} (unplaced : placement.id? = none) :
    placement.isPlaced = false := by
  cases placement with
  | placed => cases unplaced
  | _ => rfl

end Placement

namespace CancelOutcome

def cancelledId? : CancelOutcome → Option OrderId
  | cancelled id .. => some id
  | _ => none

def releasedId? : CancelOutcome → Option OrderId
  | released id _ => some id
  | _ => none

end CancelOutcome

/-- What became of the engine's quotes, as its reports tell it, oldest first. -/
structure Journal where
  placed : List (Side × OrderId)
  cancelled : List OrderId
  released : List OrderId
deriving DecidableEq

namespace Journal

def empty : Journal := ⟨[], [], []⟩

def place (j : Journal) (placements : List (Side × Placement)) : Journal :=
  { j with
    placed := j.placed ++ placements.filterMap fun entry => entry.2.id?.map fun id => (entry.1, id) }

def check (j : Journal) (outcomes : List CancelOutcome) : Journal :=
  { j with
    cancelled := j.cancelled ++ outcomes.filterMap CancelOutcome.cancelledId?
    released := j.released ++ outcomes.filterMap CancelOutcome.releasedId? }

def tick (j : Journal) (report : TickReport) : Journal :=
  (j.place report.placements).check report.cancellations

/-- A stop cancels the quotes of the sides that it leaves idle. -/
def stop (j : Journal) (before after : QuoteBook) : Journal :=
  let cancelled := [Side.buy, Side.sell].filterMap fun side =>
    if after.isIdle side then (before.tracked side).map TrackedOrder.id else none
  { j with cancelled := j.cancelled ++ cancelled }

theorem check_append (j : Journal) (outcomes more : List CancelOutcome) :
    j.check (outcomes ++ more) = (j.check outcomes).check more := by
  simp [check]

theorem check_nil (j : Journal) : j.check [] = j := by
  simp [check]

theorem check_cancelled (j : Journal) (id : OrderId) (side : Side) (reason : CancelReason) :
    j.check [.cancelled id side reason] = { j with cancelled := j.cancelled ++ [id] } := by
  simp [check, CancelOutcome.cancelledId?, CancelOutcome.releasedId?]

theorem check_released (j : Journal) (id : OrderId) (side : Side) :
    j.check [.released id side] = { j with released := j.released ++ [id] } := by
  simp [check, CancelOutcome.cancelledId?, CancelOutcome.releasedId?]

theorem check_failed (j : Journal) (id : OrderId) (side : Side) (message : String) :
    j.check [.cancelFailed id side message] = j :=
  j.check_nil

theorem place_unplaced (j : Journal) {placement : Placement} (unplaced : placement.id? = none)
    (side : Side) : j.place [(side, placement)] = j := by
  simp [place, unplaced]

theorem place_append (j : Journal) (placements more : List (Side × Placement)) :
    j.place (placements ++ more) = (j.place placements).place more := by
  simp [place]

end Journal

/-! ### Moves -/

/-- The maker's venue, the quote book, and what the engine did so far. -/
structure Front where
  venue : SimulatedVenue
  book : QuoteBook
  journal : Journal

namespace TickReport

/-- The tick placed a quote on this side. -/
def Places (report : TickReport) (side : Side) : Prop :=
  ∃ placement, (side, placement) ∈ report.placements ∧ placement.isPlaced = true

end TickReport

/-- When the engine acts: the time, the price that it quotes a side at, from which price and time on
a resting order is stale, and since when an order is missed. -/
structure Rules where
  now : Instant
  aim : Side → Decimal → Prop
  stale : Side → Decimal → Instant → Prop
  late : Instant → Prop

namespace Rules

variable [Arithmetic]

/-- Quotes go on these sides only. -/
def tick (p : Parameters) (quotes : MarketQuotes) (now : Instant) (sides : Side → Prop) : Rules where
  now := now
  aim side price := sides side ∧ p.targetPrice quotes side = .ok price ∧ 0 < price.value
  stale side price createdAt :=
    ∃ reason, Cancellation.reason? p quotes now side price createdAt = .ok (some reason)
  late createdAt := p.maxOrderAge < now.since createdAt

/-- A stop pulls every quote and places none. -/
def stop : Rules where
  now := default
  aim _ _ := False
  stale _ _ _ := True
  late _ := False

end Rules

/-- One request of the engine and its consequence for the quote book. -/
inductive Move [Arithmetic] (pair : Pair) (rules : Rules) : Front → Front → Prop
  | refuse {v : SimulatedVenue} {book : QuoteBook} {j : Journal} (n : Nat) :
    Move pair rules ⟨v, book, j⟩ ⟨{ v with rejections := n }, book, j⟩
  | place {v w : SimulatedVenue} {book : QuoteBook} {j : Journal} {side : Side}
      {amount price : Decimal} {id : OrderId} (idle : book.tracked side = none)
      (aimed : rules.aim side price)
      (accepted : v.placeOrder pair side amount .limit price = .ok (.ok id, w)) :
    Move pair rules ⟨v, book, j⟩
      ⟨w, book.setTracked side (some (.new id side price amount rules.now)),
        { j with placed := j.placed ++ [(side, id)] }⟩
  | cancel {v w : SimulatedVenue} {book : QuoteBook} {j : Journal} {side : Side}
      {order : TrackedOrder} {live : RestingOrder} (tracked : book.tracked side = some order)
      (found : RestingOrder.lookup order.id v.resting = some live)
      (stale : rules.stale side live.price live.createdAt)
      (done : v.cancelOrder pair order.id = .ok (.ok (), w)) :
    Move pair rules ⟨v, book, j⟩
      ⟨w, book.setTracked side none, { j with cancelled := j.cancelled ++ [order.id] }⟩
  | release {v : SimulatedVenue} {book : QuoteBook} {j : Journal} {side : Side}
      {order : TrackedOrder} (tracked : book.tracked side = some order)
      (gone : RestingOrder.lookup order.id v.resting = none) (late : rules.late order.createdAt) :
    Move pair rules ⟨v, book, j⟩
      ⟨v, (book.forget side).2, { j with released := j.released ++ [order.id] }⟩
  | orphan {v w : SimulatedVenue} {book : QuoteBook} {j : Journal} {live : RestingOrder}
      (unknown : book.contains live.id = false)
      (found : RestingOrder.lookup live.id v.resting = some live)
      (stale : rules.stale live.side live.price live.createdAt)
      (done : v.cancelOrder pair live.id = .ok (.ok (), w)) :
    Move pair rules ⟨v, book, j⟩ ⟨w, book, j⟩

namespace Move

variable [Arithmetic] {pair : Pair} {rules : Rules} {f g : Front}

theorem venue_sound (move : Move pair rules f g) (sound : f.venue.Sound) :
    g.venue.Sound ∧ f.venue.Precedes g.venue := by
  cases move with
  | refuse n =>
    exact ⟨⟨sound.numbered, sound.accepted, sound.distinct, sound.positive⟩,
      rfl, List.Subset.refl _⟩
  | place idle aimed accepted =>
    rcases SimulatedVenue.placeOrder_cases accepted with
      ⟨_, _, impossible, -⟩ | ⟨_, t, _, -, -, -, -, -, accepts⟩
    · cases impossible
    · obtain ⟨sound', later, -⟩ := SimulatedVenue.sound_accept sound accepts
      exact ⟨sound', later⟩
  | cancel tracked found stale done =>
    obtain ⟨sound', later, -⟩ := SimulatedVenue.sound_cancel sound done
    exact ⟨sound', later⟩
  | release tracked gone late => exact ⟨sound, .refl _⟩
  | orphan unknown found stale done =>
    obtain ⟨sound', later, -⟩ := SimulatedVenue.sound_cancel sound done
    exact ⟨sound', later⟩

theorem venue_healthy (move : Move pair rules f g) (healthy : f.venue.Healthy) :
    g.venue.Healthy := by
  cases move with
  | refuse n => exact healthy.congr rfl rfl rfl rfl (List.Subset.refl _)
  | place idle aimed accepted => exact SimulatedVenue.healthy_placeOrder healthy accepted
  | cancel tracked found stale done => exact SimulatedVenue.healthy_cancelOrder healthy done
  | release tracked gone late => exact healthy
  | orphan unknown found stale done => exact SimulatedVenue.healthy_cancelOrder healthy done

theorem venue_books (move : Move pair rules f g) : g.venue.books = f.venue.books := by
  cases move with
  | refuse n => rfl
  | place idle aimed accepted => exact SimulatedVenue.placeOrder_books accepted
  | cancel tracked found stale done => exact SimulatedVenue.cancelOrder_books done
  | release tracked gone late => rfl
  | orphan unknown found stale done => exact SimulatedVenue.cancelOrder_books done

theorem venue_clock (move : Move pair rules f g) : g.venue.clock = f.venue.clock := by
  cases move with
  | refuse n => rfl
  | place idle aimed accepted => exact (SimulatedVenue.placeOrder_resting accepted).2.1
  | cancel tracked found stale done => exact SimulatedVenue.cancelOrder_clock done
  | release tracked gone late => rfl
  | orphan unknown found stale done => exact SimulatedVenue.cancelOrder_clock done

theorem book_sided (move : Move pair rules f g) (sided : f.book.Sided) : g.book.Sided := by
  cases move with
  | refuse n => exact sided
  | place idle aimed accepted => exact sided.setTracked fun order same => Option.some.inj same ▸ rfl
  | cancel tracked found stale done => exact sided.setTracked (by simp)
  | release tracked gone late => exact sided.forget _
  | orphan unknown found stale done => exact sided

end Move

/-- What every move preserves, a sequence of moves preserves. -/
theorem moves_preserve [Arithmetic] {pair : Pair} {rules : Rules} {f g : Front}
    {holds : Front → Prop} (step : ∀ {f g}, Move pair rules f g → holds f → holds g)
    (moves : ReflTransGen (Move pair rules) f g) (start : holds f) : holds g := by
  induction moves with
  | refl => exact start
  | tail _ move ih => exact step move ih

/-! ### Placing -/

namespace Quoting

open Act Session

variable [Arithmetic] {world next : Venues} {p : Parameters} {quotes : MarketQuotes} {side : Side}
  {now : Instant} {book after : QuoteBook} {sides : Side → Prop}

/-- An attempt asks, and then places at most one order at the target price. -/
theorem attempt_cases {r : Except VenueError Placement}
    (led : Leads (attempt desk p quotes side).run world r next) :
    (next = world ∧ ∀ placement, r = .ok placement → placement.id? = none) ∨
      ∃ price amount reply v, p.targetPrice quotes side = .ok price ∧ 0 < price.value ∧
        world.1.placeOrder p.maker.pair side amount .limit price = .ok (reply, v) ∧
        next = (v, world.2) ∧ r = reply.map fun id => .placed id price amount := by
  rw [attempt] at led
  obtain ⟨price, target, limited⟩ := leads_run_lift_bind.1 led
  rcases passive_checkPositionLimit.leads_run_bind limited with ⟨⟨e, rfl⟩, same⟩ | ⟨within, -, opened⟩
  · exact .inl ⟨same, by simp⟩
  split at opened
  next =>
    rcases passive_hedgingBudget.leads_run_bind opened with ⟨⟨e, rfl⟩, same⟩ | ⟨budget, -, sized⟩
    · exact .inl ⟨same, by simp⟩
    obtain ⟨wanted, -, adjusting⟩ := leads_run_lift_bind.1 sized
    rcases (passive_maker_ask _).leads_run_bind adjusting with
      ⟨⟨e, rfl⟩, same⟩ | ⟨adjusted, asked, rounded⟩
    · exact .inl ⟨same, by simp⟩
    have positive := SimulatedVenue.adjusted_price_pos (leads_maker_ask.1 asked).1
    obtain ⟨amount, -, checked⟩ := leads_run_lift_bind.1 rounded
    split at checked
    next =>
      obtain ⟨rfl, rfl⟩ := leads_run_pure.1 checked
      exact .inl ⟨rfl, by rintro _ ⟨⟩; rfl⟩
    next =>
      rcases leads_run_bind.1 checked with ⟨e, placed, rfl⟩ | ⟨id, u, placed, finished⟩
      · obtain ⟨v, refused, rfl⟩ := leads_maker_place.1 placed
        exact .inr ⟨price, amount, .error e, v, target, positive, refused, rfl, rfl⟩
      · obtain ⟨v, accepted, rfl⟩ := leads_maker_place.1 placed
        obtain ⟨rfl, rfl⟩ := leads_run_pure.1 finished
        exact .inr ⟨price, amount, .ok id, v, target, positive, accepted, rfl, rfl⟩
  next =>
    obtain ⟨rfl, rfl⟩ := leads_run_pure.1 opened
    exact .inl ⟨rfl, by rintro _ ⟨⟩; rfl⟩

/-- A side is left as it was, with or without an order that the venue refused, or it tracks an order
that was placed at the target price. -/
theorem placeSide_cases {placement : Placement}
    (led : Leads (placeSide desk p quotes now side book) world (placement, after) next) :
    (placement.id? = none ∧ after = book ∧ next = world) ∨
    (∃ price amount e v, placement.id? = none ∧ after = book ∧
      world.1.placeOrder p.maker.pair side amount .limit price = .ok (.error e, v) ∧
      next = (v, world.2)) ∨
    ∃ id price amount v, placement = .placed id price amount ∧ book.tracked side = none ∧
      p.targetPrice quotes side = .ok price ∧ 0 < price.value ∧
      world.1.placeOrder p.maker.pair side amount .limit price = .ok (.ok id, v) ∧
      after = book.setTracked side (some (.new id side price amount now)) ∧ next = (v, world.2) := by
  rcases leads_placeSide.1 led with ⟨-, rfl, rfl, rfl⟩ | ⟨idle, rfl, r, tried, rfl⟩
  · exact .inl ⟨rfl, rfl, rfl⟩
  have same := QuoteBook.setTracked_none idle
  rcases attempt_cases tried with
    ⟨rfl, notPlaced⟩ | ⟨price, amount, reply, v, target, positive, placed, rfl, rfl⟩
  · -- nothing was sent
    have unplaced : (Placement.ofReply r).id? = none := by
      cases r with
      | error e => rfl
      | ok placement => exact notPlaced placement rfl
    rw [Placement.tracked?_of_not_isPlaced (Placement.isPlaced_of_id? unplaced)]
    exact .inl ⟨unplaced, same, rfl⟩
  · cases reply with
    | error e => exact .inr (.inl ⟨price, amount, e, v, rfl, same, placed, rfl⟩)
    | ok id =>
      have untracked : book.tracked side = none := QuoteBook.isIdle_eq_true.1 idle
      exact .inr (.inr ⟨id, price, amount, v, rfl, untracked, target, positive, placed, rfl, rfl⟩)

theorem placeSide_moves {placement : Placement} (j : Journal)
    (counted : placement.isPlaced = true → sides side)
    (led : Leads (placeSide desk p quotes now side book) world (placement, after) next) :
    next.2 = world.2 ∧
      ReflTransGen (Move p.maker.pair (.tick p quotes now sides)) ⟨world.1, book, j⟩
        ⟨next.1, after, j.place [(side, placement)]⟩ := by
  rcases placeSide_cases led with
    ⟨unplaced, rfl, rfl⟩ | ⟨price, amount, e, v, unplaced, rfl, refused, rfl⟩ |
      ⟨id, price, amount, v, rfl, untracked, target, positive, placed, rfl, rfl⟩
  · rw [j.place_unplaced unplaced]
    exact ⟨rfl, .refl⟩
  · rw [j.place_unplaced unplaced]
    rcases SimulatedVenue.placeOrder_cases refused with ⟨_, n, -, rfl⟩ | ⟨_, _, _, impossible, -⟩
    · exact ⟨rfl, .single (.refuse n)⟩
    · cases impossible
  · exact ⟨rfl, .single (.place untracked ⟨counted rfl, target, positive⟩ placed)⟩

theorem placeQuotes_moves {placements : List (Side × Placement)} (j : Journal)
    (counted : ∀ entry ∈ placements, entry.2.isPlaced = true → sides entry.1)
    (led : Leads (placeQuotes desk p quotes now book) world (placements, after) next) :
    next.2 = world.2 ∧
      ReflTransGen (Move p.maker.pair (.tick p quotes now sides)) ⟨world.1, book, j⟩
        ⟨next.1, after, j.place placements⟩ := by
  obtain ⟨bid, ask, between, u, rfl, first, second⟩ := leads_placeQuotes.1 led
  obtain ⟨taker, bids⟩ := placeSide_moves j (counted (.buy, bid) (by simp)) first
  obtain ⟨taker', asks⟩ :=
    placeSide_moves (j.place [(.buy, bid)]) (counted (.sell, ask) (by simp)) second
  refine ⟨taker'.trans taker, bids.trans ?_⟩
  rwa [← Journal.place_append] at asks

end Quoting

/-! ### Pulling -/

/-- Whatever rests is in the snapshot, under the same id. -/
structure Shown (live : List RestingOrder) (v : SimulatedVenue) : Prop where
  subset : v.resting ⊆ live
  distinct : (live.map RestingOrder.id).Nodup

theorem shown_activeOrders {v : SimulatedVenue} (sound : v.Sound) : Shown v.activeOrders v where
  subset _ member := v.activeOrders_perm.mem_iff.2 member
  distinct := (v.activeOrders_perm.map _).nodup_iff.2 sound.distinct

theorem Shown.mono {live : List RestingOrder} {v w : SimulatedVenue} (shown : Shown live v)
    (fewer : w.resting ⊆ v.resting) : Shown live w :=
  ⟨List.Subset.trans fewer shown.subset, shown.distinct⟩

theorem Shown.gone {live : List RestingOrder} {v : SimulatedVenue} {id : OrderId}
    (shown : Shown live v) (absent : RestingOrder.lookup id live = none) :
    RestingOrder.lookup id v.resting = none := by
  rw [RestingOrder.lookup_eq_none] at absent ⊢
  exact fun order member => absent order (shown.subset member)

theorem Shown.same {live : List RestingOrder} {v : SimulatedVenue} {id : OrderId}
    {seen found : RestingOrder} (shown : Shown live v)
    (listed : RestingOrder.lookup id live = some seen)
    (resting : RestingOrder.lookup id v.resting = some found) : found = seen := by
  obtain ⟨member, rfl⟩ := RestingOrder.mem_of_lookup resting
  have both := RestingOrder.lookup_of_mem shown.distinct (shown.subset member)
  exact Option.some.inj (both.symm.trans listed)

namespace Cancellation

open Act Session

variable [Arithmetic] {world next : Venues} {p : Parameters} {quotes : MarketQuotes}
  {now : Instant} {live : List RestingOrder} {book after : QuoteBook}
  {outcomes : List CancelOutcome} {sides : Side → Prop}

/-- A cancellation that succeeds takes one order off the venue. -/
theorem cancelled_resting {v w : SimulatedVenue} {pair : Pair} {id : OrderId}
    (done : v.cancelOrder pair id = .ok (.ok (), w)) :
    w.resting ⊆ v.resting ∧ ∃ found, RestingOrder.lookup id v.resting = some found := by
  rcases SimulatedVenue.cancelOrder_cases done with ⟨e, impossible, -⟩ | ⟨order, -, found, -, refunded⟩
  · cases impossible
  · obtain ⟨held, sum, -, -, -, rfl⟩ := SimulatedVenue.refund_ok refunded
    exact ⟨List.filter_subset_self _, order, found⟩

theorem checkTracked_moves {order : TrackedOrder} (j : Journal) (shown : Shown live world.1)
    (tracked : book.tracked order.side = some order)
    (led : Leads (checkTracked desk p quotes now live order book) world (outcomes, after) next) :
    next.2 = world.2 ∧ Shown live next.1 ∧
      (∀ other, after.tracked other = book.tracked other ∨
        other = order.side ∧ after.tracked other = none) ∧
      ReflTransGen (Move p.maker.pair (.tick p quotes now sides)) ⟨world.1, book, j⟩
        ⟨next.1, after, j.check outcomes⟩ := by
  cases leads_checkTracked.1 led with
  | release absent late =>
    rw [j.check_released]
    refine ⟨rfl, shown, ?_, .single (.release tracked (shown.gone absent) late)⟩
    intro other
    rw [QuoteBook.tracked_forget]
    split
    next same => exact .inr ⟨same.symm, rfl⟩
    next => exact .inl rfl
  | await | stay =>
    rw [j.check_nil]
    exact ⟨rfl, shown, fun _ => .inl rfl, .refl⟩
  | cancel listed judged done =>
    obtain ⟨v, cancelled, rfl⟩ := leads_maker_cancel.1 done
    obtain ⟨fewer, resting, still⟩ := cancelled_resting cancelled
    obtain rfl := shown.same listed still
    have stale : (Rules.tick p quotes now sides).stale order.side resting.price resting.createdAt :=
      ⟨_, judged⟩
    rw [j.check_cancelled]
    refine ⟨rfl, shown.mono fewer, ?_, .single (.cancel tracked still stale cancelled)⟩
    intro other
    rw [QuoteBook.release, QuoteBook.tracked_setTracked]
    split
    next same => exact .inr ⟨same.symm, rfl⟩
    next => exact .inl rfl
  | fail listed judged refused =>
    obtain rfl := maker_cancel_refused refused
    rw [j.check_failed]
    exact ⟨rfl, shown, fun _ => .inl rfl, .refl⟩

/-- The orders are on different sides, so checking one of them leaves the others tracked. -/
theorem checkAllTracked_moves {orders : List TrackedOrder} (j : Journal)
    (shown : Shown live world.1) (tracked : ∀ order ∈ orders, book.tracked order.side = some order)
    (apart : (orders.map TrackedOrder.side).Nodup)
    (led : Leads (checkAllTracked desk p quotes now live orders book) world (outcomes, after) next) :
    next.2 = world.2 ∧ Shown live next.1 ∧
      (∀ side order, after.tracked side = some order → book.tracked side = some order) ∧
      ReflTransGen (Move p.maker.pair (.tick p quotes now sides)) ⟨world.1, book, j⟩
        ⟨next.1, after, j.check outcomes⟩ := by
  induction orders generalizing world book outcomes j with
  | nil =>
    obtain ⟨rfl, rfl, rfl⟩ := leads_pure_pair.1 led
    rw [j.check_nil]
    exact ⟨rfl, shown, fun _ _ found => found, .refl⟩
  | cons order orders ih =>
    rw [List.map_cons, List.nodup_cons] at apart
    obtain ⟨first, others, between, u, rfl, checked, rest⟩ := leads_checkAllTracked_cons.1 led
    obtain ⟨taker, shown', kept, moves⟩ :=
      checkTracked_moves j shown (tracked order List.mem_cons_self) checked
    have still : ∀ other ∈ orders, between.tracked other.side = some other := by
      intro other member
      rcases kept other.side with same | ⟨same, -⟩
      · exact same.trans (tracked other (List.mem_cons_of_mem _ member))
      · exact absurd (same ▸ List.mem_map_of_mem member) apart.1
    obtain ⟨taker', shown'', kept', moves'⟩ := ih (j.check first) shown' still apart.2 rest
    refine ⟨taker'.trans taker, shown'', ?_, moves.trans (j.check_append first others ▸ moves')⟩
    intro side found tracked'
    rcases kept side with same | ⟨-, gone⟩
    · exact same ▸ kept' side found tracked'
    · exact absurd (kept' side found tracked') (by simp [gone])

theorem checkOrphans_moves {orders : List RestingOrder} (j : Journal) (shown : Shown live world.1)
    (listed : orders ⊆ live) (unknown : ∀ order ∈ orders, book.contains order.id = false)
    (led : Leads (checkOrphans desk p quotes now orders) world outcomes next) :
    next.2 = world.2 ∧
      ReflTransGen (Move p.maker.pair (.tick p quotes now sides)) ⟨world.1, book, j⟩
        ⟨next.1, book, j.check outcomes⟩ := by
  induction orders generalizing world outcomes with
  | nil =>
    obtain ⟨rfl, rfl⟩ := leads_pure.1 led
    rw [j.check_nil]
    exact ⟨rfl, .refl⟩
  | cons order orders ih =>
    have listed' : orders ⊆ live := fun other member => listed (List.mem_cons_of_mem _ member)
    have unknown' : ∀ other ∈ orders, book.contains other.id = false :=
      fun other member => unknown other (List.mem_cons_of_mem _ member)
    obtain ⟨first, others, u, rfl, check, rest⟩ := leads_checkOrphans_cons.1 led
    cases check with
    | stay judged => exact ih shown listed' unknown' rest
    | cancel judged done =>
      obtain ⟨v, cancelled, rfl⟩ := leads_maker_cancel.1 done
      obtain ⟨fewer, resting, still⟩ := cancelled_resting cancelled
      have seen := RestingOrder.lookup_of_mem shown.distinct (listed List.mem_cons_self)
      obtain rfl := shown.same seen still
      have stale : (Rules.tick p quotes now sides).stale resting.side resting.price resting.createdAt :=
        ⟨_, judged⟩
      obtain ⟨taker, moves⟩ := ih (shown.mono fewer) listed' unknown' rest
      exact ⟨taker, .head (.orphan (unknown _ List.mem_cons_self) still stale cancelled) moves⟩
    | fail judged refused =>
      obtain rfl := maker_cancel_refused refused
      exact ih shown listed' unknown' rest

/-- A pass goes through the tracked orders and then through those of the pair that nobody tracks. -/
theorem leads_run : Leads (run desk p quotes now book) world (outcomes, after) next ↔
      ∃ tracked others between, outcomes = tracked ++ others ∧
        Leads (checkAllTracked desk p quotes now world.1.activeOrders book.resting book) world
          (tracked, after) between ∧
        Leads (checkOrphans desk p quotes now (world.1.activeOrders.filter fun order =>
          order.pair = p.maker.pair ∧ ¬ book.contains order.id)) between others next := by
  constructor
  · intro led
    rcases leads_run_cases.1 led with
      ⟨e, refused, -⟩ | ⟨live, u, tracked, others, between, asked, joined, checked, orphaned⟩
    · obtain ⟨impossible, -⟩ := leads_maker_active.1 refused
      cases impossible
    · obtain ⟨same, rfl⟩ := leads_maker_active.1 asked
      obtain rfl := Except.ok.inj same
      exact ⟨tracked, others, between, joined, checked, orphaned⟩
  · intro given
    obtain ⟨tracked, others, between, joined, checked, orphaned⟩ := given
    exact leads_run_cases.2 (.inr ⟨_, world, tracked, others, between,
      leads_maker_active.2 ⟨rfl, rfl⟩, joined, checked, orphaned⟩)

theorem run_moves (j : Journal) (sound : world.1.Sound) (sided : book.Sided)
    (led : Leads (run desk p quotes now book) world (outcomes, after) next) :
    next.2 = world.2 ∧
      ReflTransGen (Move p.maker.pair (.tick p quotes now sides)) ⟨world.1, book, j⟩
        ⟨next.1, after, j.check outcomes⟩ := by
  obtain ⟨tracked, others, w, rfl, checked, orphaned⟩ := leads_run.1 led
  have shown := shown_activeOrders sound
  obtain ⟨taker, shown', kept, moves⟩ := checkAllTracked_moves j shown
    (fun _ member => sided.tracked_of_mem member) sided.sides_nodup checked
  -- an order that nobody tracked before the pass is not tracked during it
  have unknown : ∀ order ∈ world.1.activeOrders.filter
      (fun order => order.pair = p.maker.pair ∧ ¬ book.contains order.id),
      after.contains order.id = false := by
    intro order member
    have before := (List.mem_filter.1 member).2
    rw [Bool.eq_false_iff]
    intro tracked
    obtain ⟨found, known, same⟩ := QuoteBook.contains_iff.1 tracked
    obtain ⟨side, known⟩ := QuoteBook.mem_resting.1 known
    have member' := QuoteBook.mem_resting.2 ⟨side, kept _ _ known⟩
    have contained := QuoteBook.contains_iff.2 ⟨found, member', same⟩
    simp [contained] at before
  obtain ⟨taker', moves'⟩ := checkOrphans_moves (j.check tracked) shown'
    (List.filter_subset_self _) unknown orphaned
  rw [j.check_append]
  exact ⟨taker'.trans taker, moves.trans moves'⟩

end Cancellation

namespace Engine

open Act Session

variable [Arithmetic] {world next : Venues} {e e' : Engine} {now : Instant} {report : TickReport}

/-- A tick without quotes does nothing; one with quotes is a sequence of moves. -/
theorem onTick_moves (j : Journal) (sound : world.1.Sound) (sided : e.book.Sided)
    (led : Leads (e.onTick desk now) world (report, e') next) :
    next.2 = world.2 ∧ e' = { e with book := e'.book } ∧
      ((report.quotes = none ∧ next = world ∧ e' = e ∧ j.tick report = j) ∨
        ∃ quotes, report.quotes = some quotes ∧
          Leads (MarketQuotes.fetch desk e.params).run world (.ok quotes) world ∧
          ReflTransGen (Move e.params.maker.pair (.tick e.params quotes now report.Places))
            ⟨world.1, e.book, j⟩ ⟨next.1, e'.book, j.tick report⟩) := by
  obtain ⟨updated, ticked⟩ := onTick_ticked led
  generalize e'.book = last at ticked updated ⊢
  cases ticked with
  | skip fetched =>
    obtain rfl := passive_fetch fetched
    exact ⟨rfl, updated, .inl ⟨rfl, rfl, updated, by simp [Journal.tick, Journal.place, Journal.check]⟩⟩
  | pull halted fetched checked =>
    rename_i quotes cancellations t
    obtain rfl := passive_fetch fetched
    let report : TickReport := ⟨none, some quotes, [], cancellations⟩
    obtain ⟨taker, moves⟩ :=
      @Cancellation.run_moves _ _ _ _ _ _ _ _ _ report.Places j sound sided checked
    have journal : j.tick report = j.check cancellations := by
      simp [Journal.tick, Journal.place, report]
    exact ⟨taker, updated, .inr ⟨quotes, rfl, fetched, journal ▸ moves⟩⟩
  | quote working fetched placed checked =>
    rename_i quotes placements cancellations between t u
    obtain rfl := passive_fetch fetched
    let report : TickReport := ⟨none, some quotes, placements, cancellations⟩
    have counted : ∀ entry ∈ placements, entry.2.isPlaced = true → report.Places entry.1 :=
      fun entry member isPlaced => ⟨entry.2, member, isPlaced⟩
    obtain ⟨taker, moves⟩ := Quoting.placeQuotes_moves j counted placed
    have sound' : u.1.Sound :=
      moves_preserve (fun move sound => (move.venue_sound sound).1) moves sound
    have sided' : between.Sided := moves_preserve Move.book_sided moves sided
    obtain ⟨taker', moves'⟩ := Cancellation.run_moves (j.place placements) sound' sided' checked
    exact ⟨taker'.trans taker, updated, .inr ⟨quotes, rfl, fetched, moves.trans moves'⟩⟩

/-- The ids cancelled on a side that a stop leaves idle. -/
theorem stopSide_moves {side : Side} {n : Nat} (j : Journal)
    (led : Leads (e.stopSide desk side) world (n, e') next) :
    next.2 = world.2 ∧ e' = { e with book := e'.book } ∧
      (∀ other, other ≠ side → e'.book.tracked other = e.book.tracked other) ∧
      ReflTransGen (Move e.params.maker.pair .stop) ⟨world.1, e.book, j⟩
        ⟨next.1, e'.book, { j with
          cancelled := j.cancelled ++ (if e'.book.isIdle side then
            (e.book.tracked side).map TrackedOrder.id else none).toList }⟩ := by
  rw [stopSide] at led
  split at led
  next untracked =>
    obtain ⟨rfl, rfl, rfl⟩ := leads_pure_pair.1 led
    refine ⟨rfl, rfl, fun _ _ => rfl, ?_⟩
    simpa [QuoteBook.isIdle, untracked] using ReflTransGen.refl
  next order tracked =>
    rw [leads_bind] at led
    obtain ⟨reply, u, answered, led⟩ := led
    split at led
    next =>
      obtain ⟨v, cancelled, rfl⟩ := leads_maker_cancel.1 answered
      obtain ⟨rfl, rfl, rfl⟩ := leads_pure_pair.1 led
      obtain ⟨-, resting, found⟩ := Cancellation.cancelled_resting cancelled
      refine ⟨rfl, rfl, ?_, ?_⟩
      · intro other different
        rw [QuoteBook.release, QuoteBook.tracked_setTracked, if_neg different.symm]
      · have idle : (e.book.setTracked side none).isIdle side = true := by
          rw [QuoteBook.isIdle, QuoteBook.tracked_setTracked, if_pos rfl]
          rfl
        rw [QuoteBook.release, idle, if_pos rfl, tracked]
        exact .single (.cancel tracked found trivial cancelled)
    next =>
      obtain rfl := maker_cancel_refused answered
      obtain ⟨rfl, rfl, rfl⟩ := leads_pure_pair.1 led
      refine ⟨rfl, rfl, fun _ _ => rfl, ?_⟩
      simpa [QuoteBook.isIdle, tracked] using ReflTransGen.refl

theorem onStop_moves {n : Nat} (j : Journal) (led : Leads (e.onStop desk) world (n, e') next) :
    next.2 = world.2 ∧ e' = { e with book := e'.book } ∧
      ReflTransGen (Move e.params.maker.pair .stop) ⟨world.1, e.book, j⟩
        ⟨next.1, e'.book, j.stop e.book e'.book⟩ := by
  rw [onStop, leads_bind] at led
  obtain ⟨⟨bids, between⟩, u, first, led⟩ := led
  rw [leads_bind] at led
  obtain ⟨⟨asks, last⟩, w, second, led⟩ := led
  obtain ⟨rfl, rfl, rfl⟩ := leads_pure_pair.1 led
  obtain ⟨taker, updated, kept, moves⟩ := stopSide_moves j first
  obtain ⟨taker', updated', kept', moves'⟩ := stopSide_moves _ second
  have pair : between.params = e.params := by rw [updated]
  have bidAfter : e'.book.isIdle .buy = between.book.isIdle .buy := by
    rw [QuoteBook.isIdle, QuoteBook.isIdle, kept' .buy (by decide)]
  have askBefore : between.book.tracked .sell = e.book.tracked .sell := kept .sell (by decide)
  refine ⟨taker'.trans taker, ?_, ?_⟩
  · rw [updated']
    simp only [pair]
    rw [updated]
  · rw [pair] at moves'
    have journal : j.stop e.book e'.book = { j with
        cancelled := (j.cancelled ++ (if between.book.isIdle .buy then
            (e.book.tracked .buy).map TrackedOrder.id else none).toList) ++
          (if e'.book.isIdle .sell then
            (between.book.tracked .sell).map TrackedOrder.id else none).toList } := by
      rw [Journal.stop, ← bidAfter, askBefore]
      simp only [List.append_assoc, List.filterMap_cons, List.filterMap_nil]
      generalize (if e'.book.isIdle .buy then _ else _ : Option OrderId) = bid
      generalize (if e'.book.isIdle .sell then _ else _ : Option OrderId) = ask
      cases bid <;> cases ask <;> rfl
    rw [journal]
    exact moves.trans moves'

end Engine

end MarketMaker
