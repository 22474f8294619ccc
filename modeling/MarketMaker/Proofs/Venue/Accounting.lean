import MarketMaker.Proofs.Venue.Reports
/-!
What becomes of an order. A venue uses no id twice, and it accounts for the whole amount of every
order that it accepts: what it reported as filled, what still rests, and what rested when the order
was cancelled.
-/

namespace MarketMaker

open Decimal RestingOrder

namespace OrderEntry

/-- The order that was entered, with its id. -/
def order (entry : OrderEntry) : OrderId × SimulatedVenue.Operation :=
  (entry.id, .place entry.pair entry.side entry.amount entry.orderType entry.price)

end OrderEntry

namespace SimulatedVenue

section Answers

variable [Arithmetic]

/-- The order that an operation places, with the id that it is answered. -/
def accepted? (v : SimulatedVenue) (operation : Operation) : Option (OrderId × Operation) :=
  match operation with
  | .place pair side amount type price =>
    match v.placeOrder pair side amount type price with
    | .ok (.ok id, _) => some (id, operation)
    | _ => none
  | _ => none

/-- The order that an operation cancels, as it rests until then. -/
def cancelled? (v : SimulatedVenue) : Operation → Option RestingOrder
  | .cancel pair id =>
    match v.cancelOrder pair id with
    | .ok (.ok (), _) => v.find? id
    | _ => none
  | _ => none

/-- What is found at each operation of a run, just before it is performed. -/
def gather {α : Type} (find : SimulatedVenue → Operation → Option α) :
    SimulatedVenue → List Operation → List α
  | _, [] => []
  | v, operation :: operations =>
    match v.perform operation with
    | .ok (_, w) => (find v operation).toList ++ gather find w operations
    | .error _ => []

end Answers

variable {v w : SimulatedVenue} {pair : Pair} {side : Side} {type : OrderType}
  {amount price : Decimal} {t : Terms} {id : OrderId} {book : OrderBook}
  {cancelled : List RestingOrder} {operation : Operation} {exchanges : List Exchange}

/-- The amount reported as filled under an id. -/
def filled (v : SimulatedVenue) (id : OrderId) : ℚ :=
  (Fill.amountsOf v.outbox id).sum

/-- Every order is accounted for by the fills in the outbox, the resting orders and the orders
cancelled so far, as they rested then. -/
structure Accounted (cancelled : List RestingOrder) (v : SimulatedVenue) : Prop where
  sound : v.Sound
  /-- Only limit orders rest, at their price. -/
  resting : ∀ order ∈ v.resting, ∃ entry ∈ v.log,
    entry.id = order.id ∧ entry.orderType = .limit ∧ entry.price = order.price
  /-- A fill is of an order in the log, and not beyond its limit. -/
  reported : ∀ fill ∈ v.outbox, ∃ entry ∈ v.log,
    entry.id = fill.orderId ∧ entry.pair = fill.pair ∧ entry.side = fill.side ∧
    (entry.orderType = .limit →
      entry.side.signed fill.price.value ≤ entry.side.signed entry.price.value)
  /-- A cancelled order does not rest any more. -/
  gone : ∀ order ∈ cancelled, lookup order.id v.resting = none ∧
    v.Accepted order.id order.pair order.side
  /-- No order is cancelled twice. -/
  once : (cancelled.map RestingOrder.id).Nodup
  limit : ∀ entry ∈ v.log, entry.orderType = .limit → entry.amount.value =
    v.filled entry.id + quantityOf v.resting entry.id + quantityOf cancelled entry.id
  market : ∀ entry ∈ v.log, entry.orderType = .market →
    v.filled entry.id = entry.executed.value ∧ entry.executed.value ≤ entry.amount.value

theorem Accounted.congr (accounted : Accounted cancelled v) (id : w.id = v.id) (log : w.log = v.log)
    (count : w.orderCount = v.orderCount) (resting : w.resting = v.resting)
    (outbox : w.outbox = v.outbox) : Accounted cancelled w where
  sound := accounted.sound.congr id log count resting
  resting := by
    rw [resting, log]
    exact accounted.resting
  reported := by
    rw [outbox, log]
    exact accounted.reported
  gone := by
    rw [resting]
    intro order member
    obtain ⟨absent, accepted⟩ := accounted.gone order member
    exact ⟨absent, accepted.mono ⟨id, log ▸ List.Subset.refl _⟩⟩
  once := accounted.once
  limit := by
    rw [resting, log, show w.filled = v.filled by funext other; rw [filled, filled, outbox]]
    exact accounted.limit
  market := by
    rw [log, show w.filled = v.filled by funext other; rw [filled, filled, outbox]]
    exact accounted.market

theorem filled_append {fills : List Fill} (outbox : w.outbox = v.outbox ++ fills) (id : OrderId) :
    w.filled id = v.filled id + (Fill.amountsOf fills id).sum := by
  rw [filled, outbox, Fill.amountsOf_append, List.sum_append, filled]

theorem filled_concat {fill : Fill} (outbox : w.outbox = v.outbox ++ [fill]) (id : OrderId) :
    w.filled id = v.filled id + if fill.orderId = id then fill.amount.value else 0 := by
  rw [filled_append outbox, Fill.amountsOf_cons, Fill.amountsOf_nil]
  split <;> simp

theorem lookup_afterFill_none {orders : List RestingOrder} {remaining : Decimal} {other : OrderId}
    (absent : lookup other orders = none) : lookup other (afterFill orders id remaining) = none := by
  rw [lookup_eq_none] at absent ⊢
  intro after inAfter same
  obtain ⟨before, inBefore, beforeId, -⟩ := mem_afterFill inAfter
  exact absent before inBefore (beforeId.trans same)

/-- The log knows an accepted order under one entry only. -/
theorem Sound.entry_unique (sound : v.Sound) {first second : OrderEntry} (member : first ∈ v.log)
    (member' : second ∈ v.log) (same : first.id = second.id) : first = second :=
  List.inj_on_of_nodup_map sound.ids_nodup member member' same

theorem Sound.entry_of_accepted (sound : v.Sound) (accepted : v.Accepted id pair side)
    {entry : OrderEntry} (member : entry ∈ v.log) (same : entry.id = id) :
    entry.pair = pair ∧ entry.side = side := by
  obtain ⟨other, member', sameId, rfl, rfl⟩ := accepted
  obtain rfl := sound.entry_unique member member' (same.trans sameId.symm)
  exact ⟨rfl, rfl⟩

/-- What is in use under an id of no order in the log: nothing. -/
theorem Accounted.unused (accounted : Accounted cancelled v)
    (unused : ∀ pair side, ¬ v.Accepted id pair side) :
    v.filled id = 0 ∧ quantityOf v.resting id = 0 ∧ quantityOf cancelled id = 0 := by
  refine ⟨?_, quantityOf_of_absent (lookup_eq_none.2 ?_), quantityOf_of_absent (lookup_eq_none.2 ?_)⟩
  · rw [filled, Fill.amountsOf_eq_nil.2]
    · rfl
    · rintro fill member rfl
      obtain ⟨entry, inLog, same, -⟩ := accounted.reported fill member
      exact unused entry.pair entry.side ⟨entry, inLog, same, rfl, rfl⟩
  · rintro order member rfl
    exact unused _ _ (accounted.sound.accepted order member)
  · rintro order member rfl
    exact unused _ _ (accounted.gone order member).2

variable [Arithmetic]

/-! ### Filling -/

theorem fillResting_price {requested : Option Decimal} {fill : Fill} {order : RestingOrder}
    (found : lookup id v.resting = some order)
    (done : v.fillResting id requested = .ok (some fill, w)) : fill.price = order.price := by
  rcases fillResting_cases done with
    ⟨impossible, -⟩ | ⟨filled, _, _, _, _, found', -, -, -, -, reply, -⟩
  · cases impossible
  · obtain rfl := Option.some.inj (found.symm.trans found')
    rw [Option.some.inj reply]

/-- What a fill takes from the resting quantity it adds to the filled amount. -/
theorem accounted_fillResting (exact : Arithmetic.ExactSums) (accounted : Accounted cancelled v)
    {requested : Option Decimal} {reply : Option Fill}
    (done : v.fillResting id requested = .ok (reply, w)) : Accounted cancelled w := by
  obtain ⟨sound, later, nothing | fills⟩ := sound_fillResting accounted.sound done
  · exact nothing.2 ▸ accounted
  obtain ⟨order, fill, remaining, found, rfl, amount, rfl, subtracted, backs, outbox, resting,
    quantities⟩ := fills
  obtain ⟨member, sameId⟩ := mem_of_lookup found
  obtain ⟨entry, inLog, entryId, isLimit, samePrice⟩ := accounted.resting order member
  have log := fillResting_log done
  refine ⟨sound, ?_, ?_, ?_, accounted.once, ?_, ?_⟩
  · intro after inAfter
    obtain ⟨before, inBefore, beforeId, -, -, beforePrice, -⟩ := mem_afterFill (resting ▸ inAfter)
    obtain ⟨other, inLog, otherId, isLimit, otherPrice⟩ := accounted.resting before inBefore
    exact ⟨other, log ▸ inLog, otherId.trans beforeId, isLimit, otherPrice.trans beforePrice⟩
  · intro other inOutbox
    rw [outbox, List.mem_append, List.mem_singleton] at inOutbox
    rcases inOutbox with old | rfl
    · exact log ▸ accounted.reported other old
    · have price := fillResting_price found done
      obtain ⟨samePair, sameSide⟩ :=
        accounted.sound.entry_of_accepted backs.1 inLog (entryId.trans sameId)
      exact ⟨entry, log ▸ inLog, entryId.trans sameId, samePair, sameSide,
        fun _ => by rw [price, samePrice]⟩
  · intro other member
    obtain ⟨absent, accepted⟩ := accounted.gone other member
    exact ⟨resting ▸ lookup_afterFill_none absent, accepted.mono later⟩
  · intro other inLog isLimit
    rw [log] at inLog
    rw [filled_concat outbox, quantities, accounted.limit other inLog isLimit]
    by_cases same : other.id = fill.orderId
    · have quantity : quantityOf v.resting fill.orderId = order.quantity.value := by
        rw [← sameId, quantityOf_of_mem accounted.sound.distinct member]
      have most : fill.amount.value ≤ order.quantity.value := by
        rw [amount, value_min]
        exact min_le_right _ _
      rw [if_pos same.symm, if_pos same, same, quantity, exact.sub subtracted,
        max_eq_left (sub_nonneg.2 most)]
      ring
    · rw [if_neg (Ne.symm same), if_neg same, add_zero]
  · intro other inLog isMarket
    rw [log] at inLog
    have different : fill.orderId ≠ other.id := by
      intro same
      have one := accounted.sound.entry_unique inLog ‹entry ∈ v.log›
        (same.symm.trans (sameId.symm.trans entryId.symm))
      rw [one, isLimit] at isMarket
      cases isMarket
    rw [filled_concat outbox, if_neg different, add_zero]
    exact accounted.market other inLog isMarket

theorem accounted_fillAll (exact : Arithmetic.ExactSums) (accounted : Accounted cancelled v)
    {ids : List OrderId} {fills : List Fill} (done : v.fillAll ids = .ok (fills, w)) :
    Accounted cancelled w :=
  fillAll_preserves (Accounted cancelled)
    (fun accounted done => accounted_fillResting exact accounted done) accounted done

/-! ### Placing -/

/-- A new order is filled as far as it executed at once, and no other by it. -/
theorem filled_accept (accounted : Accounted cancelled v) (nonneg : 0 ≤ t.execution.filled.value)
    (done : v.accept pair side amount type price t = .ok (id, w)) (other : OrderId) :
    w.filled other = if other = v.nextId then t.execution.filled.value else v.filled other := by
  obtain ⟨-, -, rfl, -, -, reports, outbox, -, amounts⟩ := sound_accept accounted.sound done
  rw [filled_append outbox, amounts]
  by_cases same : other = v.nextId
  · rw [if_pos same, same, (accounted.unused fun _ _ => accounted.sound.nextId_fresh).1, zero_add]
    split
    next => simp
    next none =>
      have unexecuted : t.execution.filled.value ≤ 0 := by simpa using none
      rw [List.sum_nil]
      exact (unexecuted.antisymm nonneg).symm
  · rw [if_neg same, if_neg fun both => same both.1, List.sum_nil, add_zero]

/-- What an accepted order executes it reports, and the remainder of a limit order rests. -/
theorem accounted_accept (rounds : Arithmetic.Rounds) (exact : Arithmetic.ExactSums)
    (products : Arithmetic.ExactProducts) (accounted : Accounted cancelled v) (fair : book.Fair)
    (positive : 0 < amount.value) (terms : v.terms book side amount type price = .ok t)
    (done : v.accept pair side amount type price t = .ok (id, w)) : Accounted cancelled w := by
  obtain ⟨executed, limitRest, marketRest, -⟩ := terms_ok terms
  have nonneg := OrderBook.execute_nonneg exact.signed fair executed
  have most := OrderBook.execute_le exact positive executed
  have filledOf := filled_accept accounted nonneg done
  obtain ⟨sound, later, rfl, -, quantities, -⟩ := sound_accept accounted.sound done
  obtain ⟨s, fills, trades, -, -, -, updated⟩ := accept_ok done
  have log : w.log =
      v.log ++ [⟨v.nextId, pair, side, type, amount, price, t.execution.filled⟩] := by rw [updated]
  have resting : w.resting =
      v.resting ++ restOf ⟨v.nextId, pair, side, price, t.remaining, v.clock⟩ := by rw [updated]
  have fresh : ∀ {pair side}, ¬ v.Accepted v.nextId pair side := accounted.sound.nextId_fresh
  have marketless : type = .market → t.remaining.value = 0 := by
    intro isMarket
    rw [marketRest isMarket, value_zero]
  have different : ∀ entry ∈ v.log, entry.id ≠ v.nextId := fun entry member same =>
    fresh ⟨entry, member, same, rfl, rfl⟩
  refine ⟨sound, ?_, ?_, ?_, accounted.once, ?_, ?_⟩
  · intro order member
    rw [resting, List.mem_append] at member
    rcases member with old | new'
    · obtain ⟨entry, inLog, rest⟩ := accounted.resting order old
      exact ⟨entry, later.log inLog, rest⟩
    · obtain ⟨rfl, rests⟩ := mem_restOf.1 new'
      refine ⟨_, log ▸ List.mem_append_right _ (List.mem_singleton.2 rfl), rfl, ?_, rfl⟩
      cases type with
      | limit => rfl
      | market => exact absurd (pos_iff_value.1 rests) (marketless rfl).not_gt
  · intro fill member
    rcases accept_average done with ⟨-, same⟩ | ⟨average, some', divided, same⟩
    · obtain ⟨entry, inLog, rest⟩ := accounted.reported fill (same ▸ member)
      exact ⟨entry, later.log inLog, rest⟩
    · rw [same, List.mem_append, List.mem_singleton] at member
      rcases member with old | rfl
      · obtain ⟨entry, inLog, rest⟩ := accounted.reported fill old
        exact ⟨entry, later.log inLog, rest⟩
      · refine ⟨_, log ▸ List.mem_append_right _ (List.mem_singleton.2 rfl), rfl, rfl, rfl, ?_⟩
        rintro rfl
        exact average_within rounds exact products fair executed (pos_iff_value.1 some') divided
  · intro order member
    obtain ⟨absent, accepted⟩ := accounted.gone order member
    refine ⟨?_, accepted.mono later⟩
    rw [resting, lookup_append, absent, Option.none_or, lookup_eq_none]
    intro new' inRest same
    obtain ⟨rfl, -⟩ := mem_restOf.1 inRest
    exact fresh (same ▸ accepted)
  · intro entry member isLimit
    rw [log, List.mem_append, List.mem_singleton] at member
    rcases member with old | rfl
    · rw [filledOf, quantities, if_neg (different entry old), if_neg (different entry old)]
      exact accounted.limit entry old isLimit
    · obtain rfl : type = .limit := isLimit
      obtain ⟨-, -, uncancelled⟩ := accounted.unused fun _ _ => fresh
      rw [filledOf, quantities, if_pos rfl, if_pos rfl, uncancelled, exact.sub (limitRest rfl),
        max_eq_left (sub_nonneg.2 most)]
      ring
  · intro entry member isMarket
    rw [log, List.mem_append, List.mem_singleton] at member
    rcases member with old | rfl
    · rw [filledOf, if_neg (different entry old)]
      exact accounted.market entry old isMarket
    · exact ⟨(filledOf _).trans (if_pos rfl), most⟩

/-! ### Cancelling -/

/-- What rested of a cancelled order is what was cancelled of it. -/
theorem accounted_cancelOrder (accounted : Accounted cancelled v)
    (done : v.cancelOrder pair id = .ok (.ok (), w)) : ∃ order, v.find? id = some order ∧
      Accounted (cancelled ++ [order]) w := by
  obtain ⟨sound, later, outbox, resting, quantities⟩ := sound_cancel accounted.sound done
  rcases cancelOrder_cases done with ⟨_, impossible, -⟩ | ⟨order, -, found, -, refunded⟩
  · cases impossible
  obtain ⟨member, rfl⟩ := mem_of_lookup found
  have log : w.log = v.log := by
    obtain ⟨held, sum, -, -, -, rfl⟩ := refund_ok refunded
    rfl
  have filledOf : ∀ other, w.filled other = v.filled other := by
    intro other
    rw [filled, outbox, filled]
  have first : lookup order.id cancelled = none := by
    rw [lookup_eq_none]
    intro other inCancelled same
    have absent := (accounted.gone other inCancelled).1
    rw [same] at absent
    exact absurd (absent.symm.trans found) (by simp)
  refine ⟨order, found, sound, ?_, ?_, ?_, ?_, ?_, ?_⟩
  · intro other inAfter
    rw [log]
    exact accounted.resting other (List.mem_filter.1 (resting ▸ inAfter)).1
  · rw [outbox, log]
    exact accounted.reported
  · intro other inCancelled
    rw [resting, remove, lookup_remove]
    rcases List.mem_append.1 inCancelled with old | new'
    · obtain ⟨absent, accepted⟩ := accounted.gone other old
      refine ⟨?_, accepted.mono later⟩
      rw [absent]
      split <;> rfl
    · obtain rfl := List.mem_singleton.1 new'
      exact ⟨if_pos rfl, (accounted.sound.accepted other member).mono later⟩
  · rw [List.map_append, List.map_singleton, List.nodup_append]
    refine ⟨accounted.once, List.nodup_singleton _, ?_⟩
    rintro a old b new' rfl
    obtain ⟨other, inCancelled, same⟩ := List.mem_map.1 old
    rw [List.mem_singleton.1 new'] at same
    exact lookup_eq_none.1 first other inCancelled same
  · intro entry inLog isLimit
    rw [log] at inLog
    rw [filledOf, quantities, accounted.limit entry inLog isLimit]
    by_cases same : entry.id = order.id
    · rw [if_pos same, same, quantityOf_of_absent first, quantityOf_append_new first,
        quantityOf_of_mem accounted.sound.distinct member]
      ring
    · rw [if_neg same, quantityOf_append_other (Ne.symm same)]
  · intro entry inLog isMarket
    rw [log] at inLog
    rw [filledOf]
    exact accounted.market entry inLog isMarket

/-! ### Runs -/

/-- Each accepted order is entered in the log. -/
theorem order_perform (done : v.perform operation = .ok (exchanges, w)) :
    w.log.map OrderEntry.order = v.log.map OrderEntry.order ++ (v.accepted? operation).toList := by
  cases operation with
  | place pair side amount type price =>
    obtain ⟨reply, placed, rfl⟩ := perform_place done
    rcases placeOrder_cases placed with ⟨_, n, rfl, rfl⟩ | ⟨book, t, id, rfl, -, -, -, -, accepted⟩
    · simp [accepted?, placed]
    · obtain ⟨s, fills, trades, -, -, rfl, rfl⟩ := accept_ok accepted
      simp [accepted?, placed, OrderEntry.order]
  | cancel pair id =>
    obtain ⟨reply, cancelled, rfl⟩ := perform_cancel done
    rcases cancelOrder_cases cancelled with ⟨_, -, rfl⟩ | ⟨order, -, -, -, refunded⟩
    · simp [accepted?]
    · obtain ⟨held, sum, -, -, -, rfl⟩ := refund_ok refunded
      simp [accepted?, remove, setBalance]
  | fill id amount =>
    obtain ⟨reply, filled, rfl⟩ := perform_fill done
    simp [accepted?, fillResting_log filled]
  | setBook book =>
    obtain ⟨fills, set, rfl⟩ := perform_setBook done
    simp [accepted?, setBook_log set]
  | settings clock rejections rejectsCancels =>
    cases done
    simp [accepted?]

/-- What an operation cancels joins the cancelled orders. -/
theorem accounted_perform (rounds : Arithmetic.Rounds) (exact : Arithmetic.ExactSums)
    (products : Arithmetic.ExactProducts) (accounted : Accounted cancelled v) (fair : v.FairBooks)
    (done : v.perform operation = .ok (exchanges, w)) :
    Accounted (cancelled ++ (v.cancelled? operation).toList) w := by
  have keeps : ∀ {u : SimulatedVenue}, Accounted cancelled u → Accounted (cancelled ++ []) u :=
    fun accounted => (List.append_nil cancelled).symm ▸ accounted
  cases operation with
  | place pair side amount type price =>
    obtain ⟨reply, placed, rfl⟩ := perform_place done
    rcases placeOrder_cases placed with
      ⟨_, n, rfl, rfl⟩ | ⟨book, t, id, rfl, positive, found, terms, -, accepted⟩
    · exact keeps (accounted.congr rfl rfl rfl rfl rfl)
    · exact keeps
        (accounted_accept rounds exact products accounted (fair found) positive terms accepted)
  | cancel pair id =>
    obtain ⟨reply, cancels, rfl⟩ := perform_cancel done
    rcases cancelOrder_cases cancels with ⟨_, rfl, rfl⟩ | ⟨_, rfl, -⟩
    · simpa [cancelled?, cancels] using accounted
    · obtain ⟨order, found, accounted'⟩ := accounted_cancelOrder accounted cancels
      simpa [cancelled?, cancels, found] using accounted'
  | fill id amount =>
    obtain ⟨reply, filled, rfl⟩ := perform_fill done
    exact keeps (accounted_fillResting exact accounted filled)
  | setBook book =>
    obtain ⟨fills, set, rfl⟩ := perform_setBook done
    obtain ⟨ids, filled⟩ := setBook_ok set
    have booked : Accounted cancelled { v with books := Table.put book.pair book v.books } :=
      accounted.congr rfl rfl rfl rfl rfl
    exact keeps (accounted_fillAll exact booked filled)
  | settings clock rejections rejectsCancels =>
    cases done
    exact keeps (accounted.congr rfl rfl rfl rfl rfl)

theorem accounted_run (rounds : Arithmetic.Rounds) (exact : Arithmetic.ExactSums)
    (products : Arithmetic.ExactProducts) {operations : List Operation}
    (accounted : Accounted cancelled v) (fair : v.FairBooks)
    (allowed : ∀ operation ∈ operations, operation.Fair)
    (ran : v.run operations = .ok (exchanges, w)) :
    Accounted (cancelled ++ v.gather cancelled? operations) w ∧
      w.log.map OrderEntry.order = v.log.map OrderEntry.order ++ v.gather accepted? operations := by
  induction operations generalizing v cancelled exchanges with
  | nil =>
    cases ran
    simpa [gather] using accounted
  | cons operation operations ih =>
    obtain ⟨first, u, later, performed, ran, -⟩ := run_cons ran
    obtain ⟨here, others⟩ := List.forall_mem_cons.1 allowed
    obtain ⟨accounted', log⟩ := ih (accounted_perform rounds exact products accounted fair performed)
      (perform_fair fair here performed) others ran
    rw [List.append_assoc] at accounted'
    rw [order_perform performed, List.append_assoc] at log
    simpa only [gather, performed] using And.intro accounted' log

/-- In every run the accepted orders have ids of their own, and all of each is filled, rests or was
cancelled; a market order is filled as far as it executed at once. -/
theorem orders_accounted (rounds : Arithmetic.Rounds) (exact : Arithmetic.ExactSums)
    (products : Arithmetic.ExactProducts) {name : String} {feeRate : Decimal} {clock : Instant}
    {deposits : List (String × Decimal)} {operations : List Operation}
    (allowed : ∀ operation ∈ operations, operation.Fair)
    (ran : (funded name feeRate clock deposits).run operations = .ok (exchanges, w)) :
    let accepted := (funded name feeRate clock deposits).gather accepted? operations
    (accepted.map Prod.fst).Nodup ∧ accepted = w.log.map OrderEntry.order ∧
      Accounted ((funded name feeRate clock deposits).gather cancelled? operations) w := by
  obtain ⟨balances, start⟩ := funded_eq name feeRate clock deposits
  rw [start] at ran ⊢
  have begins : Accounted [] { new name feeRate clock with balances } := by
    refine ⟨(sound_new name feeRate clock).congr rfl rfl rfl rfl, ?_, ?_, ?_, List.nodup_nil, ?_, ?_⟩
    all_goals simp [new]
  have books : FairBooks { new name feeRate clock with balances } := by
    intro pair book found
    cases found
  obtain ⟨accounted, log⟩ := accounted_run rounds exact products begins books allowed ran
  refine ⟨?_, log.symm, accounted⟩
  have ids := accounted.sound.ids_nodup
  rwa [show w.log.map OrderEntry.id = (w.log.map OrderEntry.order).map Prod.fst by
    rw [List.map_map]; rfl, log] at ids

/-- The bid that still rests in the trial is filled by a book that crosses it, and a last ask rests. -/
def accountOperations : List Operation :=
  let pair : Pair := ⟨"DOGE", "USDT"⟩
  trialOperations ++
    [.setBook ⟨pair, ⟨0⟩, [⟨.of 98 0, .of 5 0⟩], [⟨.of 101 0, .of 4 0⟩]⟩,
      .place pair .sell (.of 3 0) .limit (.of 102 0), .fill "okx-4" 1]

omit [Arithmetic] in
theorem orders_accounted_trial : ∃ exchanges w,
    @run .precise (funded "okx" (.of 1 3) ⟨0⟩ trialDeposits) accountOperations = .ok (exchanges, w) ∧
    (w.log.map OrderEntry.id = ["okx-1", "okx-2", "okx-3", "okx-4"] ∧
      w.outbox.map Fill.amount = [.of 4 0, .of 2 0, .of 5 0, .of 1 0, .of 1 0] ∧
      w.resting.map RestingOrder.quantity = [.of 2 0]) ∧
    Accounted (@gather .precise _ (@cancelled? .precise) (funded "okx" (.of 1 3) ⟨0⟩ trialDeposits)
      accountOperations) w := by
  have works : (@run .precise (funded "okx" (.of 1 3) ⟨0⟩ trialDeposits)
      accountOperations).toOption.any (fun ran => decide
        (ran.2.log.map OrderEntry.id = ["okx-1", "okx-2", "okx-3", "okx-4"] ∧
          ran.2.outbox.map Fill.amount = [.of 4 0, .of 2 0, .of 5 0, .of 1 0, .of 1 0] ∧
          ran.2.resting.map RestingOrder.quantity = [.of 2 0])) = true := by
    decide +kernel
  obtain ⟨⟨exchanges, w⟩, ran, works⟩ := Checked.toOption_any works
  exact ⟨exchanges, w, ran, of_decide_eq_true works,
    (@orders_accounted w exchanges .precise Arithmetic.precise_rounds Arithmetic.precise_exact
      Arithmetic.precise_exactProducts _ _ _ _ accountOperations (by decide +kernel) ran).2.2⟩

end SimulatedVenue

end MarketMaker
