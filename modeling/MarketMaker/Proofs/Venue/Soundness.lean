import MarketMaker.Proofs.Venue.Operations
/-!
A sound venue: its log numbers the orders it accepted, and what rests is a positive part of a logged
order. Operations keep a venue sound, only add to its log, and report fills of logged orders only.
-/

namespace MarketMaker

namespace SimulatedVenue

open Decimal RestingOrder

variable {v v' w : SimulatedVenue} {pair pair' : Pair} {side side' : Side} {type : OrderType}
  {amount price : Decimal} {t : Terms} {id other : OrderId}

/-- The venue has accepted an order of this id, pair and side. -/
def Accepted (v : SimulatedVenue) (id : OrderId) (pair : Pair) (side : Side) : Prop :=
  ∃ entry ∈ v.log, entry.id = id ∧ entry.pair = pair ∧ entry.side = side

/-- The fill is a positive part of an order of the venue. -/
def Backs (v : SimulatedVenue) (fill : Fill) : Prop :=
  v.Accepted fill.orderId fill.pair fill.side ∧ 0 < fill.amount.value

structure Sound (v : SimulatedVenue) : Prop where
  numbered : v.log.map OrderEntry.id = (List.range v.orderCount).map fun n => orderId v.id (n + 1)
  accepted : ∀ order ∈ v.resting, v.Accepted order.id order.pair order.side
  distinct : (v.resting.map RestingOrder.id).Nodup
  positive : ∀ order ∈ v.resting, 0 < order.quantity.value

/-- The same venue at a later time. -/
structure Precedes (v w : SimulatedVenue) : Prop where
  id : w.id = v.id
  log : v.log ⊆ w.log

theorem Precedes.refl (v : SimulatedVenue) : Precedes v v := ⟨rfl, List.Subset.refl _⟩

theorem Precedes.trans {u v w : SimulatedVenue} (first : Precedes u v) (second : Precedes v w) :
    Precedes u w :=
  ⟨second.id.trans first.id, List.Subset.trans first.log second.log⟩

theorem Accepted.mono (later : Precedes v w) (accepted : v.Accepted id pair side) :
    w.Accepted id pair side := by
  obtain ⟨entry, member, same⟩ := accepted
  exact ⟨entry, later.log member, same⟩

theorem Backs.mono {fill : Fill} (later : Precedes v w) (backs : v.Backs fill) : w.Backs fill :=
  ⟨backs.1.mono later, backs.2⟩

theorem sound_new (id : String) (feeRate : Decimal) (clock : Instant) :
    (new id feeRate clock).Sound where
  numbered := rfl
  accepted := by simp [new]
  distinct := List.nodup_nil
  positive := by simp [new]

theorem Sound.congr (sound : v.Sound) (id : w.id = v.id) (log : w.log = v.log)
    (count : w.orderCount = v.orderCount) (resting : w.resting = v.resting) : w.Sound := by
  have same : Precedes v w := ⟨id, log ▸ List.Subset.refl _⟩
  refine ⟨?_, ?_, ?_, ?_⟩
  · rw [log, count, id]
    exact sound.numbered
  · rw [resting]
    exact fun order member => (sound.accepted order member).mono same
  · rw [resting]
    exact sound.distinct
  · rw [resting]
    exact sound.positive

/-! ### Ids in use -/

theorem Sound.number_of_accepted (sound : v.Sound) (accepted : v.Accepted id pair side) :
    ∃ n < v.orderCount, id = orderId v.id (n + 1) := by
  obtain ⟨entry, member, rfl, -, -⟩ := accepted
  have numbered : entry.id ∈ v.log.map OrderEntry.id := List.mem_map_of_mem member
  rw [sound.numbered] at numbered
  obtain ⟨n, inRange, same⟩ := List.mem_map.1 numbered
  exact ⟨n, List.mem_range.1 inRange, same.symm⟩

theorem Sound.issued (sound : v.Sound) (accepted : v.Accepted id pair side) : Issued v.id id := by
  obtain ⟨n, -, same⟩ := sound.number_of_accepted accepted
  exact ⟨n + 1, same⟩

theorem Sound.ids_nodup (sound : v.Sound) : (v.log.map OrderEntry.id).Nodup := by
  rw [sound.numbered]
  refine List.Nodup.map ?_ List.nodup_range
  intro m n same
  exact Nat.succ.inj (orderId_injective same).2

theorem Sound.nextId_fresh (sound : v.Sound) : ¬ v.Accepted v.nextId pair side := by
  intro accepted
  obtain ⟨n, below, same⟩ := sound.number_of_accepted accepted
  have number : v.orderCount + 1 = n + 1 := (orderId_injective same).2
  omega

/-- An id has one pair and one side. -/
theorem Sound.accepted_unique (sound : v.Sound) (first : v.Accepted id pair side)
    (second : v.Accepted id pair' side') : pair = pair' ∧ side = side' := by
  obtain ⟨a, inLog, rfl, rfl, rfl⟩ := first
  obtain ⟨b, inLog', same, rfl, rfl⟩ := second
  obtain rfl := List.inj_on_of_nodup_map sound.ids_nodup inLog inLog' same.symm
  exact ⟨rfl, rfl⟩

theorem Sound.lookup_nextId (sound : v.Sound) : lookup v.nextId v.resting = none := by
  rw [lookup_eq_none]
  intro order member same
  exact sound.nextId_fresh (same ▸ sound.accepted order member)

theorem Sound.quantity_pos (sound : v.Sound) {order : RestingOrder}
    (found : lookup id v.resting = some order) : 0 < quantityOf v.resting id := by
  rw [quantityOf, found]
  exact sound.positive order (mem_of_lookup found).1

theorem Sound.quantity_nonneg (sound : v.Sound) (id : OrderId) : 0 ≤ quantityOf v.resting id := by
  cases found : lookup id v.resting with
  | none => exact (quantityOf_of_absent found).ge
  | some order => exact (sound.quantity_pos found).le

/-! ### Lists of resting orders -/

theorem insertByAge_perm (order : RestingOrder) (orders : List RestingOrder) :
    (insertByAge order orders).Perm (order :: orders) := by
  induction orders with
  | nil => exact .refl _
  | cons first rest ih =>
    rw [insertByAge]
    split
    · exact .refl _
    · exact (ih.cons first).trans (.swap order first rest)

theorem activeOrders_perm (v : SimulatedVenue) : v.activeOrders.Perm v.resting := by
  rw [activeOrders]
  induction v.resting with
  | nil => exact .refl _
  | cons order rest ih => exact (insertByAge_perm order _).trans (ih.cons order)

theorem Sound.lookup_activeOrders (sound : v.Sound) (id : OrderId) :
    lookup id v.activeOrders = lookup id v.resting := by
  have listed : (v.activeOrders.map RestingOrder.id).Nodup :=
    (v.activeOrders_perm.map _).nodup_iff.2 sound.distinct
  cases found : lookup id v.resting with
  | none =>
    rw [lookup_eq_none] at found ⊢
    exact fun order member => found order (v.activeOrders_perm.mem_iff.1 member)
  | some order =>
    obtain ⟨member, rfl⟩ := mem_of_lookup found
    exact lookup_of_mem listed (v.activeOrders_perm.mem_iff.2 member)

theorem mem_restOf {order found : RestingOrder} :
    found ∈ restOf order ↔ found = order ∧ 0 < order.quantity := by
  by_cases positive : 0 < order.quantity <;> simp [restOf, positive]

theorem quantityOf_append_restOf {orders : List RestingOrder} {order : RestingOrder}
    (fresh : lookup order.id orders = none) (id : OrderId) :
    quantityOf (orders ++ restOf order) id =
      if id = order.id then max order.quantity.value 0 else quantityOf orders id := by
  rw [restOf]
  split
  next positive =>
    split
    next same =>
      rw [same, quantityOf_append_new fresh, max_eq_left (pos_iff_value.1 positive).le]
    next different => exact quantityOf_append_other (Ne.symm different)
  next notPositive =>
    rw [List.append_nil]
    split
    next same =>
      rw [same, quantityOf_of_absent fresh, max_eq_right]
      rw [pos_iff_value, not_lt] at notPositive
      exact notPositive
    next => rfl

theorem quantityOf_afterFill {orders : List RestingOrder} {order : RestingOrder}
    (found : lookup id orders = some order) (remaining : Decimal) (other : OrderId) :
    quantityOf (afterFill orders id remaining) other =
      if other = id then max remaining.value 0 else quantityOf orders other := by
  rw [afterFill]
  split
  next positive =>
    rw [quantityOf_setQuantity remaining found, max_eq_left (pos_iff_value.1 positive).le]
  next notPositive =>
    rw [pos_iff_value, not_lt] at notPositive
    rw [quantityOf_remove, max_eq_right notPositive]

/-- An order after the fill of one of them is an order before, its quantity aside. -/
theorem mem_afterFill {orders : List RestingOrder} {remaining : Decimal} {order : RestingOrder}
    (member : order ∈ afterFill orders id remaining) :
    ∃ before ∈ orders, before.id = order.id ∧ before.pair = order.pair ∧
      before.side = order.side ∧ before.price = order.price ∧
      (order.quantity = before.quantity ∨ order.quantity = remaining ∧ 0 < remaining) := by
  rw [afterFill] at member
  split at member
  next positive =>
    obtain ⟨before, inOrders, rfl⟩ := List.mem_map.1 member
    refine ⟨before, inOrders, ?_⟩
    split
    next => exact ⟨rfl, rfl, rfl, rfl, .inr ⟨rfl, positive⟩⟩
    next => exact ⟨rfl, rfl, rfl, rfl, .inl rfl⟩
  next => exact ⟨order, (List.mem_filter.1 member).1, rfl, rfl, rfl, rfl, .inl rfl⟩

theorem afterFill_ids_sublist (orders : List RestingOrder) (id : OrderId) (remaining : Decimal) :
    ((afterFill orders id remaining).map RestingOrder.id).Sublist
      (orders.map RestingOrder.id) := by
  rw [afterFill]
  split
  next =>
    rw [List.map_map]
    have same : ∀ order ∈ orders, (RestingOrder.id ∘ fun order =>
        if order.id = id then { order with quantity := remaining } else order) order = order.id := by
      intro order _
      simp only [Function.comp_apply]
      split <;> rfl
    rw [List.map_congr_left same]
  next => exact List.filter_sublist.map _

/-! ### Operations -/

variable [Arithmetic]

/-- What an accepted order adds to a sound venue. -/
theorem sound_accept (sound : v.Sound)
    (done : v.accept pair side amount type price t = .ok (id, v')) :
    v'.Sound ∧ Precedes v v' ∧ id = v.nextId ∧ v'.Accepted id pair side ∧
      (∀ other, quantityOf v'.resting other =
        if other = id then max t.remaining.value 0 else quantityOf v.resting other) ∧
      ∃ fills, v'.outbox = v.outbox ++ fills ∧ (∀ fill ∈ fills, v'.Backs fill) ∧
        ∀ other, Fill.amountsOf fills other =
          if other = id ∧ 0 < t.execution.filled.value then [t.execution.filled.value] else [] := by
  obtain ⟨s, fills, trades, -, reported, rfl, updated⟩ := accept_ok done
  have log : v'.log =
      v.log ++ [⟨v.nextId, pair, side, type, amount, price, t.execution.filled⟩] := by rw [updated]
  have resting : v'.resting =
      v.resting ++ restOf ⟨v.nextId, pair, side, price, t.remaining, v.clock⟩ := by rw [updated]
  have outbox : v'.outbox = v.outbox ++ fills := by rw [updated]
  have name : v'.id = v.id := by rw [updated]
  have count : v'.orderCount = v.orderCount + 1 := by rw [updated]
  have grows : Precedes v v' := ⟨name, log ▸ List.subset_append_left _ _⟩
  have entered : v'.Accepted v.nextId pair side :=
    ⟨_, log ▸ List.mem_append_right _ List.mem_cons_self, rfl, rfl, rfl⟩
  refine ⟨⟨?_, ?_, ?_, ?_⟩, grows, rfl, entered, ?_, fills, outbox, ?_, ?_⟩
  · rw [log, count, name, List.map_append, sound.numbered, List.range_succ, List.map_append]
    rfl
  · intro order member
    rcases List.mem_append.1 (resting ▸ member) with old | new'
    · exact (sound.accepted order old).mono grows
    · obtain ⟨rfl, -⟩ := mem_restOf.1 new'
      exact entered
  · rw [resting, List.map_append, List.nodup_append]
    refine ⟨sound.distinct, ?_, ?_⟩
    · rw [restOf]
      split <;> simp
    · intro a old b new' same
      obtain ⟨order, member, rfl⟩ := List.mem_map.1 old
      obtain ⟨added, member', rfl⟩ := List.mem_map.1 new'
      obtain ⟨rfl, -⟩ := mem_restOf.1 member'
      exact sound.nextId_fresh (same ▸ sound.accepted order member)
  · intro order member
    rcases List.mem_append.1 (resting ▸ member) with old | new'
    · exact sound.positive order old
    · obtain ⟨rfl, positive⟩ := mem_restOf.1 new'
      exact pos_iff_value.1 positive
  · intro other
    rw [resting]
    exact quantityOf_append_restOf sound.lookup_nextId other
  · intro fill member
    rcases reportOf_cases reported with ⟨rfl, -⟩ | ⟨average, positive, rfl⟩
    · cases member
    · obtain rfl := List.mem_singleton.1 member
      exact ⟨entered, pos_iff_value.1 positive⟩
  · intro other
    rcases reportOf_cases reported with ⟨rfl, notPositive⟩ | ⟨average, positive, rfl⟩
    · rw [if_neg fun both => notPositive (pos_iff_value.2 both.2)]
      rfl
    · by_cases same : other = v.nextId
      · simp [Fill.amountsOf, same, pos_iff_value.1 positive]
      · simp [Fill.amountsOf, same, Ne.symm same]

/-- A new order has no fills but its own. -/
theorem amountsOf_placeOrder (sound : v.Sound)
    (done : v.placeOrder pair side amount type price = .ok (.ok id, v')) (other : OrderId)
    (different : other ≠ id) :
    Fill.amountsOf v'.outbox other = Fill.amountsOf v.outbox other := by
  rcases placeOrder_cases done with ⟨_, _, impossible, -⟩ | ⟨_, t, _, same, -, -, -, -, accepted⟩
  · cases impossible
  · obtain rfl := Except.ok.inj same
    obtain ⟨-, -, -, -, -, fills, outbox, -, amounts⟩ := sound_accept sound accepted
    rw [outbox, Fill.amountsOf_append, amounts, if_neg fun both => different both.1, List.append_nil]

theorem sound_cancel (sound : v.Sound)
    (done : v.cancelOrder pair id = .ok (.ok (), v')) :
    v'.Sound ∧ Precedes v v' ∧ v'.outbox = v.outbox ∧ v'.resting = (v.remove id).resting ∧
      ∀ other, quantityOf v'.resting other =
        if other = id then 0 else quantityOf v.resting other := by
  rcases cancelOrder_cases done with ⟨e, impossible, -⟩ | ⟨order, -, -, -, refunded⟩
  · cases impossible
  · obtain ⟨held, sum, -, -, -, rfl⟩ := refund_ok refunded
    refine ⟨⟨sound.numbered, ?_, ?_, ?_⟩, ⟨rfl, List.Subset.refl _⟩, rfl, rfl, ?_⟩
    · exact fun order member => sound.accepted order (List.mem_filter.1 member).1
    · exact sound.distinct.sublist (List.filter_sublist.map _)
    · exact fun order member => sound.positive order (List.mem_filter.1 member).1
    · exact fun other => quantityOf_remove v.resting other id

/-- What a fill of a resting order leaves of it. -/
theorem sound_fillResting (sound : v.Sound) {requested : Option Decimal} {reply : Option Fill}
    (done : v.fillResting id requested = .ok (reply, v')) :
    v'.Sound ∧ Precedes v v' ∧
      (reply = none ∧ v' = v ∨
        ∃ order fill remaining, lookup id v.resting = some order ∧ reply = some fill ∧
          fill.amount = min (requested.getD order.quantity) order.quantity ∧
          fill.orderId = id ∧ order.quantity.sub fill.amount = .ok remaining ∧
          v.Backs fill ∧ v'.outbox = v.outbox ++ [fill] ∧
          v'.resting = afterFill v.resting id remaining ∧
          ∀ other, quantityOf v'.resting other =
            if other = id then max remaining.value 0 else quantityOf v.resting other) := by
  rcases fillResting_cases done with
    ⟨rfl, rfl⟩ | ⟨order, amount, s, remaining, trades, found, bounded, positive, -, left, rfl, rfl⟩
  · exact ⟨sound, .refl v', .inl ⟨rfl, rfl⟩⟩
  · obtain ⟨member, rfl⟩ := mem_of_lookup found
    have accepted := sound.accepted order member
    refine ⟨⟨sound.numbered, ?_, ?_, ?_⟩, ⟨rfl, List.Subset.refl _⟩, .inr ?_⟩
    · intro after inAfter
      obtain ⟨before, inBefore, sameId, samePair, sameSide, -, -⟩ := mem_afterFill inAfter
      exact sameId ▸ samePair ▸ sameSide ▸ sound.accepted before inBefore
    · exact sound.distinct.sublist (afterFill_ids_sublist _ _ _)
    · intro after inAfter
      obtain ⟨before, inBefore, -, -, -, -, same | ⟨same, some'⟩⟩ := mem_afterFill inAfter
      · exact same ▸ sound.positive before inBefore
      · exact same ▸ pos_iff_value.1 some'
    · exact ⟨order, _, remaining, found, rfl, bounded, rfl, left, ⟨accepted, positive⟩, rfl, rfl,
        quantityOf_afterFill found remaining⟩

/-! ### Reachable venues -/

/-- A venue as its operations leave it, with any settings in between. Fills that were reported may
have been collected. -/
inductive Reached : SimulatedVenue → Prop
  | new (id : String) (feeRate : Decimal) (clock : Instant) : Reached (.new id feeRate clock)
  | setBalance {v : SimulatedVenue} (asset : String) (amount : Decimal) :
    Reached v → Reached (v.setBalance asset amount)
  | setBook {v w : SimulatedVenue} {book : OrderBook} {fills : List Fill} :
    Reached v → v.setBook book = .ok (fills, w) → Reached w
  | placeOrder {v w : SimulatedVenue} {pair : Pair} {side : Side} {amount price : Decimal}
      {type : OrderType} {reply : Except VenueError OrderId} :
    Reached v → v.placeOrder pair side amount type price = .ok (reply, w) → Reached w
  | cancelOrder {v w : SimulatedVenue} {pair : Pair} {id : OrderId}
      {reply : Except VenueError Unit} :
    Reached v → v.cancelOrder pair id = .ok (reply, w) → Reached w
  | fillResting {v w : SimulatedVenue} {id : OrderId} {amount : Option Decimal}
      {reply : Option Fill} :
    Reached v → v.fillResting id amount = .ok (reply, w) → Reached w
  | settings {v : SimulatedVenue} (clock : Instant) (rejections : Nat) (rejectsCancels : Bool) :
    Reached v → Reached { v with clock, rejections, rejectsCancels }
  | collect {v : SimulatedVenue} (tape : List Trade) {outbox : List Fill} :
    Reached v → outbox ⊆ v.outbox → Reached { v with tape, outbox }

/-- A sound venue whose fills are all of its own orders. -/
structure Healthy (v : SimulatedVenue) : Prop where
  sound : v.Sound
  backed : ∀ fill ∈ v.outbox, v.Backs fill

theorem healthy_fillResting (healthy : v.Healthy) {requested : Option Decimal}
    {reply : Option Fill} (done : v.fillResting id requested = .ok (reply, v')) : v'.Healthy := by
  obtain ⟨sound, later, ⟨-, rfl⟩ | ⟨_, fill, _, -, -, -, -, -, backs, outbox, -, -⟩⟩ :=
    sound_fillResting healthy.sound done
  · exact healthy
  · refine ⟨sound, fun other member => ?_⟩
    rw [outbox, List.mem_append, List.mem_singleton] at member
    rcases member with old | rfl
    · exact (healthy.backed other old).mono later
    · exact backs.mono later

omit [Arithmetic] in
theorem Healthy.congr (healthy : v.Healthy) (id : v'.id = v.id) (log : v'.log = v.log)
    (count : v'.orderCount = v.orderCount) (resting : v'.resting = v.resting)
    (outbox : v'.outbox ⊆ v.outbox) : v'.Healthy := by
  have same : Precedes v v' := ⟨id, log ▸ List.Subset.refl _⟩
  exact ⟨healthy.sound.congr id log count resting,
    fun fill member => (healthy.backed fill (outbox member)).mono same⟩

omit [Arithmetic] in
theorem Healthy.withClock (healthy : v.Healthy) (clock : Instant) : { v with clock }.Healthy :=
  healthy.congr rfl rfl rfl rfl (List.Subset.refl _)

theorem healthy_setBook (healthy : v.Healthy) {book : OrderBook} {fills : List Fill}
    (done : v.setBook book = .ok (fills, v')) : v'.Healthy := by
  obtain ⟨ids, filled⟩ := setBook_ok done
  have start : { v with books := Table.put book.pair book v.books }.Healthy :=
    healthy.congr rfl rfl rfl rfl (List.Subset.refl _)
  exact fillAll_preserves Healthy (fun healthy done => healthy_fillResting healthy done) start filled

theorem precedes_setBook (sound : v.Sound) {book : OrderBook} {fills : List Fill}
    (done : v.setBook book = .ok (fills, v')) : Precedes v v' := by
  obtain ⟨ids, filled⟩ := setBook_ok done
  refine (fillAll_preserves (fun w => w.Sound ∧ Precedes v w) ?_ ?_ filled).2
  · rintro u w id reply ⟨sound, later⟩ done
    obtain ⟨sound', later', -⟩ := sound_fillResting sound done
    exact ⟨sound', later.trans later'⟩
  · exact ⟨sound.congr rfl rfl rfl rfl, rfl, List.Subset.refl _⟩

theorem precedes_placeOrder (sound : v.Sound) {reply : Except VenueError OrderId}
    (done : v.placeOrder pair side amount type price = .ok (reply, v')) : Precedes v v' := by
  rcases placeOrder_cases done with ⟨_, n, -, rfl⟩ | ⟨_, t, id, -, -, -, -, -, accepted⟩
  · exact ⟨rfl, List.Subset.refl _⟩
  · obtain ⟨-, later, -⟩ := sound_accept sound accepted
    exact later

theorem precedes_cancelOrder (sound : v.Sound) {reply : Except VenueError Unit}
    (done : v.cancelOrder pair id = .ok (reply, v')) : Precedes v v' := by
  rcases cancelOrder_cases done with ⟨_, -, rfl⟩ | ⟨_, rfl, -⟩
  · exact .refl _
  · exact (sound_cancel sound done).2.1

theorem healthy_placeOrder (healthy : v.Healthy) {reply : Except VenueError OrderId}
    (done : v.placeOrder pair side amount type price = .ok (reply, v')) : v'.Healthy := by
  rcases placeOrder_cases done with ⟨_, n, -, rfl⟩ | ⟨_, t, id, -, -, -, -, -, accepted⟩
  · exact healthy.congr rfl rfl rfl rfl (List.Subset.refl _)
  · obtain ⟨sound, later, -, -, -, fills, outbox, backs, -⟩ := sound_accept healthy.sound accepted
    refine ⟨sound, fun fill member => ?_⟩
    rw [outbox, List.mem_append] at member
    rcases member with old | new'
    · exact (healthy.backed fill old).mono later
    · exact backs fill new'

theorem healthy_cancelOrder (healthy : v.Healthy) {reply : Except VenueError Unit}
    (done : v.cancelOrder pair id = .ok (reply, v')) : v'.Healthy := by
  match reply with
  | .error e =>
    exact cancelOrder_refused done ▸ healthy
  | .ok () =>
    obtain ⟨sound, later, outbox, -, -⟩ := sound_cancel healthy.sound done
    refine ⟨sound, fun fill member => ?_⟩
    exact (healthy.backed fill (outbox ▸ member)).mono later

theorem Reached.healthy (reached : Reached v) : v.Healthy := by
  induction reached with
  | new id feeRate clock => exact ⟨sound_new id feeRate clock, by simp [SimulatedVenue.new]⟩
  | setBalance asset amount _ ih => exact ih.congr rfl rfl rfl rfl (List.Subset.refl _)
  | setBook _ done ih => exact healthy_setBook ih done
  | placeOrder _ done ih => exact healthy_placeOrder ih done
  | cancelOrder _ done ih => exact healthy_cancelOrder ih done
  | fillResting _ done ih => exact healthy_fillResting ih done
  | settings clock rejections rejectsCancels _ ih =>
    exact ih.congr rfl rfl rfl rfl (List.Subset.refl _)
  | collect tape _ fewer ih => exact ih.congr rfl rfl rfl rfl fewer

end SimulatedVenue

end MarketMaker
