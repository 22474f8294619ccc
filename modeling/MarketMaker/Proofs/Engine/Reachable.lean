import MarketMaker.Proofs.Engine.Handlers
import MarketMaker.Proofs.Engine.Hedges
import MarketMaker.Proofs.Engine.Moves
import MarketMaker.Proofs.Venue.Funds
/-!
The states that an engine on two simulated venues may come to, when others trade on the maker's venue
as well. In all of them every quote that the engine tracks is an order that the maker accepted, on the
pair and the side that it is tracked on.
-/

namespace MarketMaker

namespace SimulatedVenue

variable [Arithmetic] {v w : SimulatedVenue}

/-- Whatever is asked of a venue, it stays healthy, and its log only grows. -/
theorem healthy_perform (healthy : v.Healthy) {operation : Operation} {exchanges : List Exchange}
    (done : v.perform operation = .ok (exchanges, w)) : w.Healthy ∧ v.Precedes w := by
  cases operation with
  | place pair side amount type price =>
    simp only [perform, Checked.bind_ok, Prod.exists] at done
    obtain ⟨reply, placed, answered, done⟩ := done
    have after := And.intro (healthy_placeOrder healthy answered)
      (precedes_placeOrder healthy.sound answered)
    cases reply <;> cases done <;> exact after
  | cancel pair id =>
    simp only [perform, Checked.bind_ok, Checked.pure_ok, Prod.exists, Prod.mk.injEq] at done
    obtain ⟨reply, _, answered, rfl, rfl⟩ := done
    exact ⟨healthy_cancelOrder healthy answered, precedes_cancelOrder healthy.sound answered⟩
  | fill id amount =>
    simp only [perform, Checked.bind_ok, Checked.pure_ok, Prod.exists, Prod.mk.injEq] at done
    obtain ⟨reply, _, filled, rfl, rfl⟩ := done
    exact ⟨healthy_fillResting healthy filled, (sound_fillResting healthy.sound filled).2.1⟩
  | setBook book =>
    simp only [perform, Checked.bind_ok, Checked.pure_ok, Prod.exists, Prod.mk.injEq] at done
    obtain ⟨fills, _, set', rfl, rfl⟩ := done
    exact ⟨healthy_setBook healthy set', precedes_setBook healthy.sound set'⟩
  | settings clock rejections rejectsCancels =>
    cases done
    exact ⟨healthy.congr rfl rfl rfl rfl (List.Subset.refl _), rfl, List.Subset.refl _⟩

end SimulatedVenue

/-- The venue has accepted every tracked order, for this pair and the side it is tracked on. -/
structure Matched (v : SimulatedVenue) (pair : Pair) (book : QuoteBook) : Prop where
  healthy : v.Healthy
  sided : book.Sided
  accepted : ∀ ⦃side order⦄, book.tracked side = some order → v.Accepted order.id pair side

namespace Matched

variable {v w : SimulatedVenue} {pair : Pair} {book after : QuoteBook} {side : Side}

theorem start (healthy : v.Healthy) (pair : Pair) : Matched v pair .empty where
  healthy := healthy
  sided := QuoteBook.sided_empty
  accepted side order found := by cases side <;> cases found

theorem later (matched : Matched v pair book) (healthy : w.Healthy) (later : v.Precedes w) :
    Matched w pair book :=
  ⟨healthy, matched.sided, fun _ _ found => (matched.accepted found).mono later⟩

/-- Orders may be dropped or change, as long as those that are left keep their ids and sides. -/
theorem drop (matched : Matched v pair book) (kept : ∀ side order, after.tracked side = some order →
    ∃ before, book.tracked side = some before ∧ order.id = before.id ∧ order.side = before.side) :
    Matched v pair after where
  healthy := matched.healthy
  sided side order found := by
    obtain ⟨before, known, -, same⟩ := kept side order found
    exact same.trans (matched.sided known)
  accepted side order found := by
    obtain ⟨before, known, same, -⟩ := kept side order found
    exact same ▸ matched.accepted known

theorem drop_side (matched : Matched v pair book) (side : Side)
    (dropped : ∀ other, after.tracked other = if side = other then none else book.tracked other) :
    Matched v pair after := by
  refine matched.drop fun other order found => ?_
  rw [dropped] at found
  split at found
  next => cases found
  next => exact ⟨order, found, rfl, rfl⟩

/-- An order on the venue that carries a tracked id is on the pair and on the tracked side. -/
theorem resting (matched : Matched v pair book) {order : TrackedOrder} {live : RestingOrder}
    (found : book.tracked side = some order) (member : live ∈ v.resting) (same : live.id = order.id) :
    live.pair = pair ∧ live.side = side := by
  have sound := matched.healthy.sound
  exact sound.accepted_unique (same ▸ sound.accepted live member) (matched.accepted found)

/-- An id has one side, so the two sides track different ids. -/
theorem ids_nodup (matched : Matched v pair book) : (book.resting.map TrackedOrder.id).Nodup := by
  refine List.pairwise_map.2 ((List.pairwise_map.1 matched.sided.sides_nodup).imp_of_mem ?_)
  intro a b first second apart same
  have sound := matched.healthy.sound
  have found := matched.accepted (matched.sided.tracked_of_mem first)
  have found' := matched.accepted (matched.sided.tracked_of_mem second)
  exact apart (sound.accepted_unique found (same ▸ found')).2

variable [Arithmetic]

theorem move {rules : Rules} {f g : Front} (move : Move pair rules f g)
    (matched : Matched f.venue pair f.book) : Matched g.venue pair g.book := by
  have onward := matched.later (move.venue_healthy matched.healthy)
    (move.venue_sound matched.healthy.sound).2
  cases move with
  | refuse n => exact onward
  | place idle aimed accepted =>
    rename_i v w book j side amount price id
    refine ⟨onward.healthy, Move.book_sided (.place (j := j) idle aimed accepted) matched.sided, ?_⟩
    intro other order found
    rcases QuoteBook.tracked_of_setTracked found with ⟨rfl, rfl⟩ | old
    · rcases SimulatedVenue.placeOrder_cases accepted with
        ⟨_, _, impossible, -⟩ | ⟨_, t, _, same, -, -, -, -, accepts⟩
      · cases impossible
      · obtain rfl := Except.ok.inj same
        exact (SimulatedVenue.sound_accept matched.healthy.sound accepts).2.2.2.1
    · exact onward.accepted old
  | cancel tracked found stale done =>
    exact onward.drop_side _ fun other => QuoteBook.tracked_setTracked _ _ _ _
  | release tracked gone late =>
    exact onward.drop_side _ fun other => QuoteBook.tracked_forget _
  | orphan unknown found stale done => exact onward

/-- A fill, of whatever order, reduces a tracked order or drops it. -/
theorem settle (matched : Matched v pair book) {id : OrderId} {amount : Decimal}
    {answer : Option Decimal} (done : book.settle side id amount = .ok (answer, after)) :
    Matched v pair after :=
  matched.drop fun _ _ found => QuoteBook.tracked_of_settle done found

end Matched

namespace Engine

open Act Session

variable [Arithmetic] {p : Parameters} {e e' : Engine} {world next : Venues}

/-- What an engine and its venues may come to. The engine may be called for anything at any time, for
a fill of its own orders as for any other. In between others use the maker's venue, funds are set
there and its fills are collected; the taker becomes whatever it likes. -/
inductive Reachable (p : Parameters) : Engine → Venues → Prop
  | start {maker : SimulatedVenue} (profit : Profit) (taker : SimulatedVenue)
    (reached : maker.Reached) : Reachable p { new p with profit } (maker, taker)
  | respond {e e' : Engine} {world next : Venues} {event : Event} {answer : Answer}
    (before : Reachable p e world) (led : Leads (e.respond desk event) world (answer, e') next) :
    Reachable p e' next
  | others {e : Engine} {world : Venues} {operation : SimulatedVenue.Operation}
    {exchanges : List Exchange} {maker : SimulatedVenue} (before : Reachable p e world)
    (done : world.1.perform operation = .ok (exchanges, maker)) : Reachable p e (maker, world.2)
  | fund {e : Engine} {world : Venues} (asset : String) (amount : Decimal)
    (before : Reachable p e world) : Reachable p e (world.1.setBalance asset amount, world.2)
  | collect {e : Engine} {world : Venues} (tape : List Trade) {outbox : List Fill}
    (before : Reachable p e world) (fewer : outbox ⊆ world.1.outbox) :
    Reachable p e ({ world.1 with tape, outbox }, world.2)
  | taker {e : Engine} {world : Venues} (taker : SimulatedVenue) (before : Reachable p e world) :
    Reachable p e (world.1, taker)

theorem matched_respond {event : Event} {answer : Answer}
    (matched : Matched world.1 e.params.maker.pair e.book)
    (led : Leads (e.respond desk event) world (answer, e') next) :
    e'.params = e.params ∧ Matched next.1 e.params.maker.pair e'.book := by
  have moved : ∀ {rules : Rules} {j k : Journal},
      Relation.ReflTransGen (Move e.params.maker.pair rules) ⟨world.1, e.book, j⟩
        ⟨next.1, e'.book, k⟩ → Matched next.1 e.params.maker.pair e'.book :=
    fun moves => moves_preserve Matched.move moves matched
  rcases respond_cases led with
    ⟨now, report, rfl, rfl, ticked⟩ | ⟨fill, outcome, rfl, rfl, handled⟩ | ⟨n, rfl, rfl, stopped⟩
  · obtain ⟨-, same, ⟨-, rfl, rfl, -⟩ | ⟨quotes, -, -, moves⟩⟩ :=
      onTick_moves .empty matched.healthy.sound matched.sided ticked
    · exact ⟨rfl, matched⟩
    · exact ⟨by rw [same], moved moves⟩
  · obtain ⟨params, answer, settled, cases'⟩ := onFill_cases handled
    have same : next.1 = world.1 := by
      rcases cases' with ⟨-, -, rfl⟩ | ⟨-, _, _, n, -, rfl⟩ | ⟨-, _, v, -, rfl, -⟩ <;> rfl
    exact ⟨params, same ▸ matched.settle settled⟩
  · obtain ⟨-, same, moves⟩ := onStop_moves .empty stopped
    exact ⟨by rw [same], moved moves⟩

theorem Reachable.matched (reachable : Reachable p e world) :
    e.params = p ∧ Matched world.1 p.maker.pair e.book := by
  induction reachable with
  | start profit taker reached => exact ⟨rfl, .start reached.healthy _⟩
  | respond before led ih =>
    obtain ⟨rfl, matched⟩ := ih
    exact matched_respond matched led
  | others before done ih =>
    obtain ⟨healthy, later⟩ := SimulatedVenue.healthy_perform ih.2.healthy done
    exact ⟨ih.1, ih.2.later healthy later⟩
  | fund asset amount before ih =>
    exact ⟨ih.1, ih.2.later (ih.2.healthy.congr rfl rfl rfl rfl (List.Subset.refl _))
      ⟨rfl, List.Subset.refl _⟩⟩
  | collect tape before fewer ih =>
    exact ⟨ih.1, ih.2.later (ih.2.healthy.congr rfl rfl rfl rfl fewer) ⟨rfl, List.Subset.refl _⟩⟩
  | taker taker before ih => exact ih

end Engine

end MarketMaker
