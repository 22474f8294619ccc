import MarketMaker.Proofs.Venue.Inventory
/-!
Funds are conserved. Whatever is asked of a venue, an asset's free balance and what resting orders set
aside of it change together by what is exchanged, fees included. Nothing else creates or destroys
money.
-/

namespace MarketMaker

open Decimal RestingOrder

/-- An amount of the base changes hands for its price in the quote, before fees. -/
structure Exchange where
  pair : Pair
  side : Side
  quantity : ℚ
  notional : ℚ
deriving DecidableEq

namespace Exchange

/-- What executes of an order at once. -/
def ofExecution (pair : Pair) (side : Side) (x : Execution) : Exchange :=
  ⟨pair, side, x.filled.value, x.notional.value⟩

/-- A fill of a resting order, at the order's price. -/
def ofFill (fill : Fill) : Exchange :=
  ⟨fill.pair, fill.side, fill.amount.value, fill.amount.value * fill.price.value⟩

def fee (rate : ℚ) (x : Exchange) : ℚ :=
  rate * x.notional

/-- What the exchange and its fee do to the holdings of an asset. -/
def flow (rate : ℚ) (asset : String) (x : Exchange) : ℚ :=
  match x.side with
  | .buy => (if x.pair.base = asset then x.quantity else 0) -
      if x.pair.quote = asset then x.notional + x.fee rate else 0
  | .sell => (if x.pair.quote = asset then x.notional - x.fee rate else 0) -
      if x.pair.base = asset then x.quantity else 0

end Exchange

namespace Pair

theorem spent_buy (pair : Pair) : pair.spent .buy = pair.quote := rfl

theorem spent_sell (pair : Pair) : pair.spent .sell = pair.base := rfl

theorem received_buy (pair : Pair) : pair.received .buy = pair.base := rfl

theorem received_sell (pair : Pair) : pair.received .sell = pair.quote := rfl

end Pair

/-- What a resting order sets aside of an asset: a bid its quote, an ask its base. -/
def RestingOrder.heldIn (asset : String) (order : RestingOrder) : ℚ :=
  match order.side with
  | .buy => if order.pair.quote = asset then order.quantity.value * order.price.value else 0
  | .sell => if order.pair.base = asset then order.quantity.value else 0

namespace SimulatedVenue

/-- What is asked of a venue, and its settings in between. -/
inductive Operation
  | place (pair : Pair) (side : Side) (amount : Decimal) (type : OrderType) (price : Decimal)
  | cancel (pair : Pair) (id : OrderId)
  | fill (id : OrderId) (amount : Decimal)
  | setBook (book : OrderBook)
  | settings (clock : Instant) (rejections : Nat) (rejectsCancels : Bool)
deriving DecidableEq

/-- A new venue that was given these balances. -/
def funded (id : String) (feeRate : Decimal) (clock : Instant) (deposits : List (String × Decimal)) :
    SimulatedVenue :=
  deposits.foldl (fun v (asset, amount) => v.setBalance asset amount) (.new id feeRate clock)

/-- What the venue has of an asset, free or set aside. -/
def holdings (v : SimulatedVenue) (asset : String) : ℚ :=
  (v.free asset).value + (v.resting.map (heldIn asset)).sum

section Operations

variable [Arithmetic]

/-- What an order executes at once if it is accepted. -/
def immediate (v : SimulatedVenue) (pair : Pair) (side : Side) (amount : Decimal) (type : OrderType)
    (price : Decimal) : List Exchange :=
  match v.bookOf pair with
  | .error _ => []
  | .ok book =>
    (book.execute side (type.limit? price) amount).toOption.toList.map (.ofExecution pair side)

/-- What is exchanged with an operation, and the venue after it. -/
def perform (v : SimulatedVenue) : Operation → Checked (List Exchange × SimulatedVenue)
  | .place pair side amount type price => do
    let (reply, w) ← v.placeOrder pair side amount type price
    match reply with
    | .ok _ => return (v.immediate pair side amount type price, w)
    | .error _ => return ([], w)
  | .cancel pair id => do
    let (_, w) ← v.cancelOrder pair id
    return ([], w)
  | .fill id amount => do
    let (fill, w) ← v.fillResting id (some amount)
    return (fill.toList.map .ofFill, w)
  | .setBook book => do
    let (fills, w) ← v.setBook book
    return (fills.map .ofFill, w)
  | .settings clock rejections rejectsCancels =>
    .ok ([], { v with clock, rejections, rejectsCancels })

/-- The operations one after the other. -/
def run : SimulatedVenue → List Operation → Checked (List Exchange × SimulatedVenue)
  | v, [] => .ok ([], v)
  | v, operation :: operations => do
    let (first, w) ← v.perform operation
    let (later, u) ← w.run operations
    return (first ++ later, u)

variable {v w : SimulatedVenue} {pair : Pair} {side : Side} {amount price : Decimal}
  {type : OrderType} {id : OrderId} {exchanges : List Exchange}

theorem perform_place (done : v.perform (.place pair side amount type price) = .ok (exchanges, w)) :
    ∃ reply, v.placeOrder pair side amount type price = .ok (reply, w) ∧
      exchanges = if reply.isOk then v.immediate pair side amount type price else [] := by
  simp only [perform, Checked.bind_ok, Prod.exists] at done
  obtain ⟨reply, u, placed, done⟩ := done
  cases reply <;> cases done <;> exact ⟨_, placed, rfl⟩

theorem perform_cancel (done : v.perform (.cancel pair id) = .ok (exchanges, w)) :
    ∃ reply, v.cancelOrder pair id = .ok (reply, w) ∧ exchanges = [] := by
  simp only [perform, Checked.bind_ok, Prod.exists] at done
  obtain ⟨reply, u, cancelled, done⟩ := done
  cases done
  exact ⟨reply, cancelled, rfl⟩

theorem perform_fill (done : v.perform (.fill id amount) = .ok (exchanges, w)) :
    ∃ fill, v.fillResting id (some amount) = .ok (fill, w) ∧
      exchanges = fill.toList.map .ofFill := by
  simp only [perform, Checked.bind_ok, Prod.exists] at done
  obtain ⟨fill, u, filled, done⟩ := done
  cases done
  exact ⟨fill, filled, rfl⟩

theorem perform_setBook {book : OrderBook} (done : v.perform (.setBook book) = .ok (exchanges, w)) :
    ∃ fills, v.setBook book = .ok (fills, w) ∧ exchanges = fills.map .ofFill := by
  simp only [perform, Checked.bind_ok, Prod.exists] at done
  obtain ⟨fills, u, opened, done⟩ := done
  cases done
  exact ⟨fills, opened, rfl⟩

theorem run_cons {operation : Operation} {operations : List Operation}
    (ran : v.run (operation :: operations) = .ok (exchanges, w)) : ∃ first u later,
      v.perform operation = .ok (first, u) ∧ u.run operations = .ok (later, w) ∧
        exchanges = first ++ later := by
  simp only [run, Checked.bind_ok, Checked.pure_ok, Prod.exists, Prod.mk.injEq] at ran
  obtain ⟨first, u, performed, later, _, others, rfl, rfl⟩ := ran
  exact ⟨first, u, later, performed, others, rfl⟩

end Operations

/-! ### New venues -/

theorem funded_eq (id : String) (feeRate : Decimal) (clock : Instant)
    (deposits : List (String × Decimal)) : ∃ balances,
      funded id feeRate clock deposits = { new id feeRate clock with balances } := by
  have deposited : ∀ v : SimulatedVenue, ∃ balances,
      deposits.foldl (fun v (asset, amount) => v.setBalance asset amount) v = { v with balances } := by
    induction deposits with
    | nil => exact fun v => ⟨v.balances, rfl⟩
    | cons deposit deposits ih =>
      intro v
      obtain ⟨balances, same⟩ := ih (v.setBalance deposit.1 deposit.2)
      exact ⟨balances, same⟩
  exact deposited _

variable {v w u : SimulatedVenue} {pair : Pair} {side : Side} {type : OrderType}
  {amount price : Decimal} {t : Terms} {id : OrderId} {asset : String}

variable [Arithmetic]

theorem reached_funded (id : String) (feeRate : Decimal) (clock : Instant)
    (deposits : List (String × Decimal)) : Reached (funded id feeRate clock deposits) := by
  have deposited : ∀ v : SimulatedVenue, Reached v →
      Reached (deposits.foldl (fun v (asset, amount) => v.setBalance asset amount) v) := by
    induction deposits with
    | nil => exact fun v reached => reached
    | cons deposit deposits ih => exact fun v reached => ih _ (reached.setBalance _ _)
  exact deposited _ (.new id feeRate clock)

theorem perform_reached {operation : Operation} {exchanges : List Exchange} (reached : Reached v)
    (done : v.perform operation = .ok (exchanges, w)) : Reached w := by
  cases operation with
  | place pair side amount type price =>
    obtain ⟨reply, placed, rfl⟩ := perform_place done
    exact reached.placeOrder placed
  | cancel pair id =>
    obtain ⟨reply, cancelled, rfl⟩ := perform_cancel done
    exact reached.cancelOrder cancelled
  | fill id amount =>
    obtain ⟨reply, filled, rfl⟩ := perform_fill done
    exact reached.fillResting filled
  | setBook book =>
    obtain ⟨fills, set, rfl⟩ := perform_setBook done
    exact reached.setBook set
  | settings clock rejections rejectsCancels =>
    cases done
    exact reached.settings clock rejections rejectsCancels

/-! ### Balances -/

omit [Arithmetic] in
/-- A new balance of one asset is no change of another. -/
theorem free_moved {after : Decimal} {change : ℚ}
    (moved : after.value = (v.free asset).value + change) (other : String) :
    ((v.setBalance asset after).free other).value =
      (v.free other).value + if asset = other then change else 0 := by
  rw [free_setBalance]
  split
  next same => rw [← same, moved]
  next => rw [add_zero]

theorem free_credited (exact : Arithmetic.ExactSums) {sum : Decimal}
    (added : (v.free asset).add amount = .ok sum) (other : String) :
    ((v.setBalance asset sum).free other).value =
      (v.free other).value + if asset = other then amount.value else 0 :=
  free_moved (exact.add added) other

theorem free_debited (exact : Arithmetic.ExactSums) {rest : Decimal}
    (subtracted : (v.free asset).sub amount = .ok rest) (other : String) :
    ((v.setBalance asset rest).free other).value =
      (v.free other).value - if asset = other then amount.value else 0 := by
  have moved : rest.value = (v.free asset).value + -amount.value := by
    rw [exact.sub subtracted, sub_eq_add_neg]
  rw [free_moved moved]
  split <;> ring

/-- From one venue to the other, holdings and fees changed by these exchanges. -/
structure Balanced (exchanges : List Exchange) (v w : SimulatedVenue) : Prop where
  rate : w.feeRate = v.feeRate
  holdings : ∀ asset, w.holdings asset =
    v.holdings asset + (exchanges.map (Exchange.flow v.feeRate.value asset)).sum
  fees : w.totalFees.value =
    v.totalFees.value + (exchanges.map (Exchange.fee v.feeRate.value)).sum

omit [Arithmetic] in
theorem Balanced.of_eq (rate : w.feeRate = v.feeRate) (balances : w.balances = v.balances)
    (resting : w.resting = v.resting) (fees : w.totalFees = v.totalFees) : Balanced [] v w where
  rate := rate
  holdings asset := by
    unfold SimulatedVenue.holdings
    rw [free_congr balances, resting]
    exact (add_zero _).symm
  fees := by
    rw [fees]
    exact (add_zero _).symm

omit [Arithmetic] in
theorem Balanced.trans {exchanges more : List Exchange} (first : Balanced exchanges v w)
    (second : Balanced more w u) : Balanced (exchanges ++ more) v u where
  rate := second.rate.trans first.rate
  holdings asset := by
    rw [second.holdings, first.holdings, first.rate, List.map_append, List.sum_append, add_assoc]
  fees := by
    rw [second.fees, first.fees, first.rate, List.map_append, List.sum_append, add_assoc]

/-! ### What each operation exchanges -/

omit [Arithmetic] in
theorem heldIn_of_zero (order : RestingOrder) (none : order.quantity.value = 0) (asset : String) :
    heldIn asset order = 0 := by
  unfold heldIn
  split <;> simp [none]

omit [Arithmetic] in
/-- What is left of an order rests, unless it is nothing. -/
theorem heldIn_restOf (order : RestingOrder) (nonneg : 0 ≤ order.quantity.value) (asset : String) :
    ((restOf order).map (heldIn asset)).sum = heldIn asset order := by
  rw [restOf]
  split
  next => simp
  next notPositive =>
    rw [pos_iff_value, not_lt] at notPositive
    rw [heldIn_of_zero order (notPositive.antisymm nonneg)]
    rfl

/-- What an order executes never exceeds its amount, so what is left of it is not negative. -/
theorem remaining_nonneg (exact : Arithmetic.ExactSums) {book : OrderBook}
    (positive : 0 < amount.value) (terms : v.terms book side amount type price = .ok t) :
    0 ≤ t.remaining.value := by
  obtain ⟨executed, left, none, -⟩ := terms_ok terms
  cases type with
  | limit =>
    rw [exact.sub (left rfl), sub_nonneg]
    exact OrderBook.execute_le exact positive executed
  | market => rw [none rfl, value_zero]

/-- An accepted order pays for what it executes, and the rest of its cost is set aside. -/
theorem balanced_accept (exact : Arithmetic.ExactSums) (products : Arithmetic.ExactProducts)
    {book : OrderBook} (positive : 0 < amount.value)
    (terms : v.terms book side amount type price = .ok t)
    (accepted : v.accept pair side amount type price t = .ok (id, w)) :
    Balanced [.ofExecution pair side t.execution] v w := by
  have nonneg := remaining_nonneg exact positive terms
  obtain ⟨-, -, -, charged, buys, sells⟩ := terms_ok terms
  obtain ⟨s, fills, trades, settled, -, -, updated⟩ := accept_ok accepted
  obtain ⟨left, proceeds, sum, fees, subtracted, bought, sold, added, counted, paid⟩ :=
    settle_ok settled
  have fee := products charged
  have balances : w.balances =
      ((v.setBalance (pair.spent side) left).setBalance (pair.received side) sum).balances := by
    rw [updated, paid]
  have resting : w.resting =
      v.resting ++ restOf ⟨v.nextId, pair, side, price, t.remaining, v.clock⟩ := by rw [updated]
  have rests := heldIn_restOf ⟨v.nextId, pair, side, price, t.remaining, v.clock⟩ nonneg
  refine ⟨by rw [updated], fun asset => ?_, ?_⟩
  · rw [holdings, free_congr balances, resting, free_credited exact added,
      free_debited exact subtracted, List.map_append, List.sum_append, rests, holdings]
    cases side with
    | buy =>
      obtain ⟨paid, reserved, total, held, cost⟩ := buys rfl
      rw [exact.add cost, exact.add total, products held, bought rfl, fee, Pair.spent_buy,
        Pair.received_buy]
      simp only [heldIn, Exchange.ofExecution,
        Exchange.flow, Exchange.fee, List.map_cons, List.map_nil, List.sum_cons, List.sum_nil]
      split_ifs <;> ring
    | sell =>
      rw [exact.add (sells rfl), exact.sub (sold rfl), fee, Pair.spent_sell, Pair.received_sell]
      simp only [heldIn, Exchange.ofExecution,
        Exchange.flow, Exchange.fee, List.map_cons, List.map_nil, List.sum_cons, List.sum_nil]
      split_ifs <;> ring
  · rw [updated, paid, exact.add counted, fee]
    simp only [Exchange.ofExecution, Exchange.fee, List.map_cons, List.map_nil, List.sum_cons,
      List.sum_nil]
    ring

/-- A cancelled order gives back what it set aside. -/
theorem balanced_cancelOrder (exact : Arithmetic.ExactSums) (products : Arithmetic.ExactProducts)
    (sound : v.Sound) {reply : Except VenueError Unit}
    (done : v.cancelOrder pair id = .ok (reply, w)) : Balanced [] v w := by
  rcases cancelOrder_cases done with ⟨_, -, rfl⟩ | ⟨order, -, found, rfl, refunded⟩
  · exact .of_eq rfl rfl rfl rfl
  obtain ⟨held, sum, bids, asks, added, rfl⟩ := refund_ok refunded
  refine ⟨rfl, fun asset => ?_, (add_zero _).symm⟩
  change (((v.remove id).setBalance _ sum).free asset).value +
    ((v.resting.filter fun order => order.id ≠ id).map (heldIn asset)).sum = _
  rw [free_credited exact added, sum_remove _ sound.distinct found,
    free_congr (show (v.remove id).balances = v.balances from rfl), holdings, List.map_nil,
    List.sum_nil, heldIn]
  cases side : order.side with
  | buy =>
    rw [products (bids side), Pair.spent_buy]
    ring
  | sell =>
    rw [asks side, Pair.spent_sell]
    ring

/-- A filled bid turns what it set aside into base, and a filled ask into quote. -/
theorem balanced_fillResting (exact : Arithmetic.ExactSums) (products : Arithmetic.ExactProducts)
    (sound : v.Sound) {requested : Option Decimal} {reply : Option Fill}
    (done : v.fillResting id requested = .ok (reply, w)) :
    Balanced (reply.toList.map .ofFill) v w := by
  rcases fillResting_cases done with
    ⟨rfl, rfl⟩ | ⟨order, amount, s, remaining, tape, found, bounded, -, settled, left, rfl, rfl⟩
  · exact .of_eq rfl rfl rfl rfl
  obtain ⟨notional, fee, fees, costs, charged, counted, buys, sells⟩ := settleResting_ok settled
  have most : amount.value ≤ order.quantity.value := by
    rw [bounded, value_min]
    exact min_le_right _ _
  have rest := exact.sub left
  -- A remainder of nothing is the same as an order that is gone.
  have resting : ∀ asset, ((afterFill v.resting id remaining).map (heldIn asset)).sum =
      (v.resting.map (heldIn asset)).sum - heldIn asset order +
        heldIn asset { order with quantity := remaining } := by
    intro asset
    rw [sum_afterFill _ sound.distinct found]
    split
    next => rfl
    next notPositive =>
      have none : remaining.value = 0 := by
        rw [pos_iff_value, not_lt] at notPositive
        exact notPositive.antisymm (by rw [rest]; linarith)
      rw [heldIn_of_zero { order with quantity := remaining } none]
  have total : fees.value =
      v.totalFees.value + (v.feeRate.value * (amount.value * order.price.value) + 0) := by
    rw [exact.add counted, products charged, products costs]
    ring
  cases side : order.side with
  | buy =>
    obtain ⟨sum, paid, added, subtracted, rfl⟩ := buys side
    refine ⟨rfl, fun asset => ?_, ?_⟩
    · change (((v.setBalance _ sum).setBalance _ paid).free asset).value +
        ((afterFill v.resting id remaining).map (heldIn asset)).sum = _
      rw [free_debited exact subtracted, free_credited exact added, resting, holdings,
        products charged, products costs]
      simp only [heldIn, side, rest, Option.toList_some, Exchange.ofFill, Exchange.flow, Exchange.fee,
        List.map_cons, List.map_nil, List.sum_cons, List.sum_nil]
      split_ifs <;> ring
    · exact total
  | sell =>
    obtain ⟨proceeds, sum, earned, added, rfl⟩ := sells side
    refine ⟨rfl, fun asset => ?_, ?_⟩
    · change ((v.setBalance _ sum).free asset).value +
        ((afterFill v.resting id remaining).map (heldIn asset)).sum = _
      rw [free_credited exact added, exact.sub earned, resting, holdings, products charged,
        products costs]
      simp only [heldIn, side, rest, Option.toList_some, Exchange.ofFill, Exchange.flow, Exchange.fee,
        List.map_cons, List.map_nil, List.sum_cons, List.sum_nil]
      split_ifs <;> ring
    · exact total

theorem balanced_fillAll (exact : Arithmetic.ExactSums) (products : Arithmetic.ExactProducts)
    {ids : List OrderId} {fills : List Fill} (sound : v.Sound)
    (done : v.fillAll ids = .ok (fills, w)) : Balanced (fills.map .ofFill) v w := by
  induction ids generalizing v fills with
  | nil =>
    cases done
    exact .of_eq rfl rfl rfl rfl
  | cons id ids ih =>
    obtain ⟨fill, u, others, filled, later, rfl⟩ := fillAll_cons done
    rw [List.map_append]
    exact (balanced_fillResting exact products sound filled).trans
      (ih (sound_fillResting sound filled).1 later)

theorem perform_balanced (exact : Arithmetic.ExactSums) (products : Arithmetic.ExactProducts)
    {operation : Operation} {exchanges : List Exchange} (sound : v.Sound)
    (done : v.perform operation = .ok (exchanges, w)) : Balanced exchanges v w := by
  cases operation with
  | place pair side amount type price =>
    obtain ⟨reply, placed, rfl⟩ := perform_place done
    rcases placeOrder_cases placed with
      ⟨_, n, rfl, rfl⟩ | ⟨book, t, id, rfl, positive, found, terms, -, accepted⟩
    · exact .of_eq rfl rfl rfl rfl
    · have executed : v.immediate pair side amount type price =
          [.ofExecution pair side t.execution] := by
        simp [immediate, found, (terms_ok terms).1, Except.toOption]
      rw [executed]
      exact balanced_accept exact products positive terms accepted
  | cancel pair id =>
    obtain ⟨reply, cancelled, rfl⟩ := perform_cancel done
    exact balanced_cancelOrder exact products sound cancelled
  | fill id amount =>
    obtain ⟨reply, filled, rfl⟩ := perform_fill done
    exact balanced_fillResting exact products sound filled
  | setBook book =>
    obtain ⟨fills, set, rfl⟩ := perform_setBook done
    have opened : Balanced [] v { v with books := Table.put book.pair book v.books } :=
      .of_eq rfl rfl rfl rfl
    exact opened.trans (balanced_fillAll exact products (sound.congr rfl rfl rfl rfl) set)
  | settings clock rejections rejectsCancels =>
    cases done
    exact .of_eq rfl rfl rfl rfl

theorem run_balanced (exact : Arithmetic.ExactSums) (products : Arithmetic.ExactProducts)
    {operations : List Operation} {exchanges : List Exchange} (reached : Reached v)
    (ran : v.run operations = .ok (exchanges, w)) : Balanced exchanges v w := by
  induction operations generalizing v exchanges with
  | nil =>
    cases ran
    exact .of_eq rfl rfl rfl rfl
  | cons operation operations ih =>
    obtain ⟨first, u, later, performed, others, rfl⟩ := run_cons ran
    exact (perform_balanced exact products reached.healthy.sound performed).trans
      (ih (perform_reached reached performed) others)

/-- Each asset's holdings are the deposits and what was exchanged, and the fees are those of the
exchanges. -/
theorem funds_conserved (exact : Arithmetic.ExactSums) (products : Arithmetic.ExactProducts)
    {feeRate : Decimal} {clock : Instant} {deposits : List (String × Decimal)} {name : String}
    {operations : List Operation} {exchanges : List Exchange}
    (ran : (funded name feeRate clock deposits).run operations = .ok (exchanges, v)) :
    (∀ asset, v.holdings asset = ((funded name feeRate clock deposits).free asset).value +
      (exchanges.map (Exchange.flow feeRate.value asset)).sum) ∧
    v.totalFees.value = (exchanges.map (Exchange.fee feeRate.value)).sum := by
  have balanced := run_balanced exact products (reached_funded name feeRate clock deposits) ran
  obtain ⟨balances, start⟩ := funded_eq name feeRate clock deposits
  rw [start] at balanced ⊢
  refine ⟨fun asset => ?_, ?_⟩
  · rw [balanced.holdings, holdings]
    change _ + 0 + _ = _
    rw [add_zero]
    rfl
  · rw [balanced.fees]
    change (0 : Decimal).value + _ = _
    rw [value_zero, zero_add]
    rfl

/-- Deposits on a venue that charges a thousandth. -/
def trialDeposits : List (String × Decimal) :=
  [("USDT", .of 1000 0), ("DOGE", .of 50 0)]

/-- A bid executes in part, and part of its rest is filled; an ask is sold off as far as the book goes,
another one is cancelled, and a last bid is refused. -/
def trialOperations : List Operation :=
  let pair : Pair := ⟨"DOGE", "USDT"⟩
  [.setBook ⟨pair, ⟨0⟩, [⟨.of 99 0, .of 5 0⟩], [⟨.of 101 0, .of 4 0⟩]⟩,
    .place pair .buy (.of 7 0) .limit (.of 1015 1), .fill "okx-1" (.of 2 0),
    .place pair .sell (.of 6 0) .market 0, .place pair .sell (.of 8 0) .limit (.of 103 0),
    .cancel pair "okx-3", .place pair .buy (.of 70 0) .limit (.of 101 0)]

omit [Arithmetic] in
theorem funds_conserved_trial : ∃ exchanges v,
    @run .precise (funded "okx" (.of 1 3) ⟨0⟩ trialDeposits) trialOperations = .ok (exchanges, v) ∧
    exchanges.map Exchange.quantity = [4, 2, 5, 0] ∧ v.resting.length = 1 ∧
    (∀ asset, v.holdings asset = ((funded "okx" (.of 1 3) ⟨0⟩ trialDeposits).free asset).value +
      (exchanges.map (Exchange.flow (Decimal.of 1 3).value asset)).sum) ∧
    v.totalFees.value = (exchanges.map (Exchange.fee (Decimal.of 1 3).value)).sum := by
  have works : (@run .precise (funded "okx" (.of 1 3) ⟨0⟩ trialDeposits) trialOperations).toOption.any
      (fun (exchanges, v) => decide (exchanges.map Exchange.quantity = [4, 2, 5, 0] ∧
        v.resting.length = 1)) = true := by
    decide +kernel
  obtain ⟨⟨exchanges, v⟩, ran, works⟩ := Checked.toOption_any works
  obtain ⟨quantities, rests⟩ := of_decide_eq_true works
  exact ⟨exchanges, v, ran, quantities, rests,
    @funds_conserved v .precise Arithmetic.precise_exact Arithmetic.precise_exactProducts _ _ _ _ _ _ ran⟩

end SimulatedVenue

end MarketMaker
