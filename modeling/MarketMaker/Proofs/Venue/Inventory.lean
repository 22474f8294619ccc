import MarketMaker.Proofs.Venue.Soundness
/-!
What a venue holds of an asset, if all its orders are of one market that has this asset for its base
and another one for its quote. What is free and what the asks hold back changes as fills are
reported, and in no other way. With what the bids will bring it changes as orders are accepted.
-/

namespace MarketMaker

open Decimal

/-- An amount with the sign of what an order of this side does to the base. -/
def Side.signed : Side → ℚ → ℚ
  | .buy, x => x
  | .sell, x => -x

/-- What fills do to the base. -/
def Fill.flow (fills : List Fill) : ℚ :=
  (fills.map fun fill => fill.side.signed fill.amount.value).sum

theorem Fill.flow_append (fills more : List Fill) :
    Fill.flow (fills ++ more) = Fill.flow fills + Fill.flow more := by
  simp [Fill.flow]

theorem Fill.flow_cons (fill : Fill) (fills : List Fill) :
    Fill.flow (fill :: fills) = fill.side.signed fill.amount.value + Fill.flow fills :=
  List.sum_cons

namespace RestingOrder

/-! ### What rests on a side -/

/-- The quantities that rest on a side. -/
def restingOn (side : Side) (orders : List RestingOrder) : ℚ :=
  (orders.map fun order => if order.side = side then order.quantity.value else 0).sum

variable {side : Side} {orders more : List RestingOrder} {order : RestingOrder} {id : OrderId}

theorem restingOn_append (side : Side) (orders more : List RestingOrder) :
    restingOn side (orders ++ more) = restingOn side orders + restingOn side more := by
  simp [restingOn]

theorem restingOn_cons (side : Side) (order : RestingOrder) (orders : List RestingOrder) :
    restingOn side (order :: orders) =
      (if order.side = side then order.quantity.value else 0) + restingOn side orders :=
  List.sum_cons

/-- An order that is found stands among orders of other ids. -/
theorem append_of_lookup (distinct : (orders.map RestingOrder.id).Nodup)
    (found : lookup id orders = some order) :
    ∃ before after, orders = before ++ order :: after ∧
      ∀ other ∈ before ++ after, other.id ≠ id := by
  obtain ⟨member, rfl⟩ := mem_of_lookup found
  obtain ⟨before, after, rfl⟩ := List.append_of_mem member
  refine ⟨before, after, rfl, fun other inRest same => ?_⟩
  rw [(List.perm_middle.map _).nodup_iff, List.map_cons, List.nodup_cons] at distinct
  exact distinct.1 (same ▸ List.mem_map_of_mem inRest)

theorem remove_eq_append {before after : List RestingOrder} (same : order.id = id)
    (others : ∀ other ∈ before ++ after, other.id ≠ id) :
    ((before ++ order :: after).filter fun order => order.id ≠ id) = before ++ after := by
  rw [List.filter_append, List.filter_cons_of_neg (by simpa using same), ← List.filter_append,
    List.filter_eq_self]
  simpa using others

/-- Without an order that was found, a sum over the orders is less by the order's share. -/
theorem sum_remove (share : RestingOrder → ℚ) (distinct : (orders.map RestingOrder.id).Nodup)
    (found : lookup id orders = some order) :
    ((orders.filter fun order => order.id ≠ id).map share).sum =
      (orders.map share).sum - share order := by
  obtain ⟨before, after, rfl, others⟩ := append_of_lookup distinct found
  rw [remove_eq_append (mem_of_lookup found).2 others]
  simp only [List.map_append, List.map_cons, List.sum_append, List.sum_cons]
  ring

open SimulatedVenue in
/-- A fill changes a sum over the orders by what it does to the share of the order. -/
theorem sum_afterFill (share : RestingOrder → ℚ) (distinct : (orders.map RestingOrder.id).Nodup)
    (found : lookup id orders = some order) (remaining : Decimal) :
    ((afterFill orders id remaining).map share).sum = (orders.map share).sum - share order +
      if 0 < remaining then share { order with quantity := remaining } else 0 := by
  rw [afterFill]
  split
  next positive =>
    obtain ⟨before, after, rfl, others⟩ := append_of_lookup distinct found
    have kept : ∀ rest : List RestingOrder, (∀ other ∈ rest, other.id ≠ id) →
        rest.map (fun order =>
          if order.id = id then { order with quantity := remaining } else order) = rest := by
      intro rest others
      rw [List.map_congr_left (g := fun order => order)
        fun other member => if_neg (others other member), List.map_id']
    rw [List.map_append, List.map_cons, if_pos (mem_of_lookup found).2,
      kept before fun other member => others other (List.mem_append_left _ member),
      kept after fun other member => others other (List.mem_append_right _ member)]
    simp only [List.map_append, List.map_cons, List.sum_append, List.sum_cons]
    ring
  next => rw [sum_remove share distinct found, add_zero]

theorem restingOn_remove (side : Side) (distinct : (orders.map RestingOrder.id).Nodup)
    (found : lookup id orders = some order) :
    restingOn side (orders.filter fun order => order.id ≠ id) =
      restingOn side orders - if order.side = side then order.quantity.value else 0 :=
  sum_remove _ distinct found

open SimulatedVenue in
theorem restingOn_afterFill (side : Side) (distinct : (orders.map RestingOrder.id).Nodup)
    (found : lookup id orders = some order) {remaining amount : Decimal}
    (left : remaining.value = order.quantity.value - amount.value) (nonneg : 0 ≤ remaining.value) :
    restingOn side (afterFill orders id remaining) =
      restingOn side orders - if order.side = side then amount.value else 0 := by
  have none : ¬ 0 < remaining → remaining.value = 0 := by
    rw [pos_iff_value, not_lt]
    exact fun notPositive => notPositive.antisymm nonneg
  rw [restingOn, sum_afterFill _ distinct found, ← restingOn]
  by_cases positive : 0 < remaining
  · simp only [positive, if_true, left]
    split <;> ring
  · simp only [positive, if_false]
    have filled : order.quantity.value = amount.value := by linarith [none positive]
    rw [filled]
    ring

theorem quantityOf_cons (order : RestingOrder) (orders : List RestingOrder) (id : OrderId) :
    quantityOf (order :: orders) id =
      if order.id = id then order.quantity.value else quantityOf orders id := by
  by_cases same : order.id = id <;> simp [quantityOf, lookup, same]

/-- The rests of orders add up to what rests. -/
theorem sum_quantityOf {log : List OrderEntry} (unique : (log.map OrderEntry.id).Nodup)
    (distinct : (orders.map RestingOrder.id).Nodup)
    (known : ∀ order ∈ orders, ∃ entry ∈ log, entry.id = order.id ∧ entry.side = order.side) :
    (log.map fun entry => entry.side.signed (quantityOf orders entry.id)).sum =
      restingOn .buy orders - restingOn .sell orders := by
  induction orders with
  | nil =>
    have none : ∀ side : Side, side.signed 0 = 0 := by
      intro side
      cases side <;> simp [Side.signed]
    simp [quantityOf, lookup, restingOn, none]
  | cons order orders ih =>
    rw [List.map_cons, List.nodup_cons] at distinct
    obtain ⟨entry, inLog, sameId, sameSide⟩ := known order List.mem_cons_self
    have absent : quantityOf orders order.id = 0 := by
      refine quantityOf_of_absent (lookup_eq_none.2 fun other member same => distinct.1 ?_)
      exact same ▸ List.mem_map_of_mem member
    have each : ∀ other ∈ log, other.side.signed (quantityOf (order :: orders) other.id) =
        other.side.signed (quantityOf orders other.id) +
          if other = entry then order.side.signed order.quantity.value else 0 := by
      intro other member
      rw [quantityOf_cons]
      by_cases same : other = entry
      · rw [same, if_pos sameId.symm, if_pos rfl, sameId, absent, sameSide]
        cases order.side <;> simp [Side.signed]
      · have different : order.id ≠ other.id := fun equal =>
          same (List.inj_on_of_nodup_map unique member inLog (equal.symm.trans sameId.symm))
        rw [if_neg different, if_neg same, add_zero]
    have once : log.count entry = 1 :=
      List.count_eq_one_of_mem unique.of_map inLog
    rw [List.map_congr_left each, List.sum_map_add,
      ih distinct.2 fun other member => known other (List.mem_cons_of_mem _ member),
      List.sum_map_eq_nsmul_single entry _ fun other different _ => if_neg different, once,
      restingOn_cons, restingOn_cons, if_pos rfl]
    cases order.side <;> simp [Side.signed] <;> ring

theorem restingOn_restOf {remaining : Decimal} (side : Side) (nonneg : 0 ≤ remaining.value)
    (rests : order.quantity = remaining) :
    restingOn side (SimulatedVenue.restOf order) =
      if order.side = side then remaining.value else 0 := by
  rw [SimulatedVenue.restOf]
  split
  next => simp [restingOn, rests]
  next notPositive =>
    rw [rests, pos_iff_value, not_lt] at notPositive
    simp [restingOn, notPositive.antisymm nonneg]

end RestingOrder

namespace SimulatedVenue

open RestingOrder

variable {v w : SimulatedVenue} {pair : Pair} {side : Side} {amount price : Decimal} {id : OrderId}

/-! ### Holdings -/

/-- What the venue holds of an asset, the asks included. -/
def inventory (v : SimulatedVenue) (asset : String) : ℚ :=
  (v.free asset).value + restingOn .sell v.resting

/-- What it will hold of the asset once all resting orders are filled. -/
def prospect (v : SimulatedVenue) (asset : String) : ℚ :=
  (v.free asset).value + restingOn .buy v.resting

/-- All its orders are of one market. -/
def Trades (v : SimulatedVenue) (pair : Pair) : Prop :=
  ∀ entry ∈ v.log, entry.pair = pair

theorem Trades.congr (trades : v.Trades pair) (log : w.log = v.log) : w.Trades pair := by
  rw [Trades, log]
  exact trades

theorem Trades.append (trades : v.Trades pair) {entry : OrderEntry} (traded : entry.pair = pair)
    (log : w.log = v.log ++ [entry]) : w.Trades pair := by
  intro other member
  rw [log, List.mem_append, List.mem_singleton] at member
  rcases member with old | rfl
  · exact trades other old
  · exact traded

theorem Trades.pair_eq (trades : v.Trades pair) (sound : v.Sound) {order : RestingOrder}
    (member : order ∈ v.resting) : order.pair = pair := by
  obtain ⟨entry, inLog, -, same, -⟩ := sound.accepted order member
  exact same ▸ trades entry inLog

theorem inventory_congr (balances : w.balances = v.balances) (resting : w.resting = v.resting)
    (asset : String) : w.inventory asset = v.inventory asset := by
  unfold inventory free
  rw [balances, resting]

theorem prospect_congr (balances : w.balances = v.balances) (resting : w.resting = v.resting)
    (asset : String) : w.prospect asset = v.prospect asset := by
  unfold prospect free
  rw [balances, resting]

theorem prospect_eq (sound : v.Sound) (asset : String) :
    v.prospect asset = v.inventory asset +
      (v.log.map fun entry => entry.side.signed (quantityOf v.resting entry.id)).sum := by
  have known : ∀ order ∈ v.resting, ∃ entry ∈ v.log,
      entry.id = order.id ∧ entry.side = order.side := by
    intro order member
    obtain ⟨entry, inLog, id, -, side⟩ := sound.accepted order member
    exact ⟨entry, inLog, id, side⟩
  rw [sum_quantityOf sound.ids_nodup sound.distinct known, prospect, inventory]
  ring

/-- From one time to the other the holdings changed by the fills that were reported. -/
def Accrues (asset : String) (v w : SimulatedVenue) : Prop :=
  ∃ fills, w.outbox = v.outbox ++ fills ∧
    w.inventory asset = v.inventory asset + Fill.flow fills

theorem Accrues.of_eq {asset : String} (outbox : w.outbox = v.outbox)
    (same : w.inventory asset = v.inventory asset) : Accrues asset v w :=
  ⟨[], by rw [outbox, List.append_nil], by rw [same]; exact (add_zero _).symm⟩

theorem Accrues.trans {u : SimulatedVenue} {asset : String} (first : Accrues asset u v)
    (second : Accrues asset v w) : Accrues asset u w := by
  obtain ⟨fills, outbox, change⟩ := first
  obtain ⟨more, outbox', change'⟩ := second
  refine ⟨fills ++ more, ?_, ?_⟩
  · rw [outbox', outbox, List.append_assoc]
  · rw [change', change, Fill.flow_append]
    ring

/-! ### Operations -/

variable [Arithmetic]

/-- Buying brings the base that executed, and selling takes the base that it costs. -/
theorem settle_base (exact : Arithmetic.ExactSums) (separate : pair.quote ≠ pair.base) {t : Terms}
    (done : v.settle pair side t = .ok w) :
    (side = .buy → (w.free pair.base).value =
        (v.free pair.base).value + t.execution.filled.value) ∧
      (side = .sell → (w.free pair.base).value = (v.free pair.base).value - t.cost.value) := by
  obtain ⟨left, proceeds, sum, fees, subtracted, executed, -, added, -, rfl⟩ := settle_ok done
  refine ⟨?_, ?_⟩ <;> rintro rfl
  · change (((v.setBalance pair.quote left).setBalance pair.base sum).free pair.base).value = _
    change ((v.setBalance pair.quote left).free pair.base).add proceeds = _ at added
    rw [free_setBalance, if_neg separate] at added
    rw [free_setBalance, if_pos rfl, exact.add added, executed rfl]
  · change (((v.setBalance pair.base left).setBalance pair.quote sum).free pair.base).value = _
    change (v.free pair.base).sub t.cost = _ at subtracted
    rw [free_setBalance, if_neg separate, free_setBalance, if_pos rfl, exact.sub subtracted]

/-- What a new limit order does: what executes of it is reported, and what is left rests. -/
theorem inventory_placeOrder (exact : Arithmetic.ExactSums) (separate : pair.quote ≠ pair.base)
    (fair : v.FairBooks)
    (done : v.placeOrder pair side amount .limit price = .ok (.ok id, w)) :
    Accrues pair.base v w ∧ w.prospect pair.base = v.prospect pair.base + side.signed amount.value ∧
    ∃ entry, entry.id = id ∧ entry.pair = pair ∧ entry.side = side ∧ w.log = v.log ++ [entry] := by
  rcases placeOrder_cases done with
    ⟨_, _, impossible, -⟩ | ⟨book, t, _, same, positive, found, terms, -, accepts⟩
  · cases impossible
  obtain rfl := Except.ok.inj same
  obtain ⟨s, fills, trades, settled, reported, rfl, updated⟩ := accept_ok accepts
  obtain ⟨executed, left, costs⟩ := terms_limit terms
  have least := OrderBook.execute_nonneg exact.signed (fair found) executed
  have most := OrderBook.execute_le exact positive executed
  have remaining := exact.sub left
  obtain ⟨buys, sells⟩ := settle_base exact separate settled
  have free : w.free pair.base = s.free pair.base := by rw [updated]; rfl
  have rests : ∀ other : Side, restingOn other w.resting =
      restingOn other v.resting + if side = other then t.remaining.value else 0 := by
    intro other
    rw [updated, restingOn_append, restingOn_restOf other (by rw [remaining]; linarith) rfl]
  have flow : Fill.flow fills = side.signed t.execution.filled.value := by
    rcases reportOf_cases reported with ⟨rfl, unfilled⟩ | ⟨average, -, rfl⟩
    · rw [pos_iff_value, not_lt] at unfilled
      rw [unfilled.antisymm least]
      cases side <;> simp [Fill.flow, Side.signed]
    · simp [Fill.flow]
  have held : w.inventory pair.base =
        v.inventory pair.base + side.signed t.execution.filled.value ∧
      w.prospect pair.base = v.prospect pair.base + side.signed amount.value := by
    cases side with
    | buy =>
      unfold inventory prospect
      rw [free, buys rfl, rests, rests]
      simp only [Side.signed, if_true, reduceCtorEq, if_false, remaining]
      constructor <;> ring
    | sell =>
      unfold inventory prospect
      rw [free, sells rfl, rests, rests, exact.add (costs rfl)]
      simp only [Side.signed, if_true, reduceCtorEq, if_false, remaining]
      constructor <;> ring
  exact ⟨⟨fills, by rw [updated], flow ▸ held.1⟩, held.2, _, rfl, rfl, rfl, by rw [updated]⟩

/-- A cancelled ask gives its base back. -/
theorem inventory_cancelOrder (exact : Arithmetic.ExactSums) (separate : pair.quote ≠ pair.base)
    (sound : v.Sound) {reply : Except VenueError Unit}
    (done : v.cancelOrder pair id = .ok (reply, w)) :
    Accrues pair.base v w ∧ w.log = v.log := by
  rcases cancelOrder_cases done with ⟨_, -, rfl⟩ | ⟨order, -, found, rfl, refunded⟩
  · exact ⟨.of_eq rfl rfl, rfl⟩
  obtain ⟨held, sum, -, asks, added, rfl⟩ := refund_ok refunded
  refine ⟨.of_eq rfl ?_, rfl⟩
  have rests : restingOn .sell (v.remove id).resting =
      restingOn .sell v.resting - if order.side = .sell then order.quantity.value else 0 :=
    restingOn_remove .sell sound.distinct found
  change (((v.remove id).setBalance _ sum).free order.pair.base).value +
    restingOn .sell (v.remove id).resting = _
  rw [rests, free_setBalance, inventory]
  cases side : order.side with
  | buy =>
    rw [Pair.spent, if_neg separate]
    simp [free, remove]
  | sell =>
    rw [side] at added
    rw [Pair.spent, if_pos rfl, exact.add added, asks side]
    simp [free, remove, Pair.spent]

/-- A bid that is filled brings base, and an ask gives some of what it holds back. -/
theorem inventory_fillResting (exact : Arithmetic.ExactSums) (separate : pair.quote ≠ pair.base)
    (sound : v.Sound) (trades : v.Trades pair) {requested : Option Decimal} {reply : Option Fill}
    (done : v.fillResting id requested = .ok (reply, w)) :
    Accrues pair.base v w ∧ w.prospect pair.base = v.prospect pair.base ∧ w.log = v.log := by
  rcases fillResting_cases done with
    ⟨-, rfl⟩ | ⟨order, amount, s, remaining, tape, found, bounded, -, settled, left, -, updated⟩
  · exact ⟨.of_eq rfl rfl, rfl, rfl⟩
  obtain rfl := trades.pair_eq sound (mem_of_lookup found).1
  obtain ⟨_, _, fees, -, -, -, buys, sells⟩ := settleResting_ok settled
  have most : amount.value ≤ order.quantity.value := by
    rw [bounded, value_min]
    exact min_le_right _ _
  have rest := exact.sub left
  have rests : ∀ side, restingOn side w.resting =
      restingOn side v.resting - if order.side = side then amount.value else 0 := by
    intro side
    rw [updated]
    exact restingOn_afterFill side sound.distinct found rest (by rw [rest]; linarith)
  have free : w.free order.pair.base = s.free order.pair.base := by rw [updated]; rfl
  have held : w.inventory order.pair.base =
        v.inventory order.pair.base + order.side.signed amount.value ∧
      w.prospect order.pair.base = v.prospect order.pair.base := by
    unfold inventory prospect
    rw [free, rests, rests]
    cases side : order.side with
    | buy =>
      obtain ⟨sum, paid, added, -, rfl⟩ := buys side
      have base : (({ (v.setBalance order.pair.base sum).setBalance order.pair.quote paid with
          totalFees := fees } : SimulatedVenue).free order.pair.base) = sum := by
        change ((v.setBalance order.pair.base sum).setBalance order.pair.quote paid).free _ = _
        rw [free_setBalance, if_neg separate, free_setBalance, if_pos rfl]
      rw [base, exact.add added]
      simp only [Side.signed, if_true, reduceCtorEq, if_false]
      constructor <;> ring
    | sell =>
      obtain ⟨_, sum, -, -, rfl⟩ := sells side
      have base : (({ v.setBalance order.pair.quote sum with
          totalFees := fees } : SimulatedVenue).free order.pair.base) = v.free order.pair.base := by
        change (v.setBalance order.pair.quote sum).free _ = _
        rw [free_setBalance, if_neg separate]
      rw [base]
      simp only [Side.signed, if_true, reduceCtorEq, if_false]
      constructor <;> ring
  refine ⟨⟨_, by rw [updated], ?_⟩, held.2, by rw [updated]⟩
  rw [held.1]
  simp [Fill.flow]

theorem inventory_setBook (exact : Arithmetic.ExactSums) (separate : pair.quote ≠ pair.base)
    (sound : v.Sound) (trades : v.Trades pair) {book : OrderBook} {fills : List Fill}
    (done : v.setBook book = .ok (fills, w)) :
    Accrues pair.base v w ∧ w.prospect pair.base = v.prospect pair.base ∧ w.log = v.log := by
  obtain ⟨ids, filled⟩ := setBook_ok done
  refine (fillAll_preserves (fun u => u.Sound ∧ Accrues pair.base v u ∧
    u.prospect pair.base = v.prospect pair.base ∧ u.log = v.log) ?_ ?_ filled).2
  · rintro u w id reply ⟨sound, accrues, prospect, log⟩ done
    obtain ⟨accrues', prospect', log'⟩ :=
      inventory_fillResting exact separate sound (trades.congr log) done
    exact ⟨(sound_fillResting sound done).1, accrues.trans accrues', prospect'.trans prospect,
      log'.trans log⟩
  · exact ⟨sound.congr rfl rfl rfl rfl, .of_eq rfl rfl, rfl, rfl⟩

end SimulatedVenue

end MarketMaker
