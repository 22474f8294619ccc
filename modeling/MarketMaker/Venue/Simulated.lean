import MarketMaker.BasisPoints
import MarketMaker.OrderBook
import MarketMaker.Table
import MarketMaker.Venue.Adapter
/-!
A venue held in memory. Orders execute against its books without using them up; what is left of a
limit order rests, its funds set aside, until a new book crosses its price. Fills wait in an
outbox until they are collected.
-/

namespace MarketMaker

/-- An accepted order and what of it executed at once. -/
structure OrderEntry where
  id : OrderId
  pair : Pair
  side : Side
  orderType : OrderType
  amount : Decimal
  price : Decimal
  executed : Decimal
deriving DecidableEq

/-- The balances are the free ones; what resting orders hold back is not among them. -/
structure SimulatedVenue where
  id : String
  feeRate : Decimal
  clock : Instant
  books : Table Pair OrderBook
  balances : Table String Decimal
  resting : List RestingOrder
  log : List OrderEntry
  tape : List Trade
  totalFees : Decimal
  orderCount : Nat
  /-- How many of the next orders are refused. -/
  rejections : Nat
  rejectsCancels : Bool
  outbox : List Fill
deriving DecidableEq

namespace SimulatedVenue

def new (id : String) (feeRate : Decimal) (clock : Instant) : SimulatedVenue :=
  { id, feeRate, clock, books := [], balances := [], resting := [], log := [], tape := [],
    totalFees := 0, orderCount := 0, rejections := 0, rejectsCancels := false, outbox := [] }

/-! ### Balances -/

def free (v : SimulatedVenue) (asset : String) : Decimal :=
  (Table.get? asset v.balances).getD 0

def setBalance (v : SimulatedVenue) (asset : String) (amount : Decimal) : SimulatedVenue :=
  { v with balances := Table.put asset amount v.balances }

theorem free_setBalance (v : SimulatedVenue) (asset other : String) (amount : Decimal) :
    (v.setBalance asset amount).free other = if asset = other then amount else v.free other := by
  by_cases same : asset = other <;> simp [free, setBalance, Table.get?_put, same]

variable [Arithmetic]

def credit (v : SimulatedVenue) (asset : String) (amount : Decimal) : Checked SimulatedVenue := do
  return v.setBalance asset (← (v.free asset).add amount)

def debit (v : SimulatedVenue) (asset : String) (amount : Decimal) : Checked SimulatedVenue := do
  return v.setBalance asset (← (v.free asset).sub amount)

/-! ### Prices -/

def bookOf (v : SimulatedVenue) (pair : Pair) : Except VenueError OrderBook :=
  match Table.get? pair v.books with
  | some book => .ok book
  | none => .error (.unknownPair pair.toText)

/-- The price of a size that the book covers; the best price for no size. -/
def executablePrice (v : SimulatedVenue) (pair : Pair) (side : Side) (amount : Decimal) :
    Checked (Except VenueError Decimal) :=
  match v.bookOf pair with
  | .error e => .ok (.error e)
  | .ok book =>
    if amount ≤ 0 then
      match book.best? side with
      | some price => .ok (.ok price)
      | none => .ok (.error (.unavailable (.emptyBook pair)))
    else do
      let x ← book.execute side none amount
      if x.filled < amount then
        return .error (.insufficientDepth pair.toText amount x.filled)
      else return .ok (← x.notional.div amount)

def midPrice (v : SimulatedVenue) (pair : Pair) : Checked (Except VenueError Decimal) :=
  match v.bookOf pair with
  | .error e => .ok (.error e)
  | .ok book =>
    match book.bestBid?, book.bestAsk? with
    | some bid, some ask => do
      let sum ← bid.add ask
      return .ok (← sum.div (Decimal.ofWord 2))
    | _, _ => .ok (.error (.unavailable (.oneSidedBook pair)))

def snapshot (v : SimulatedVenue) (pair : Pair) (depth : Nat) : Except VenueError OrderBook :=
  (v.bookOf pair).map fun book => book.truncate depth

/-! ### Budgets -/

/-- The most that the free balances allow at this price, fees included. -/
def budget (v : SimulatedVenue) (candidate : Candidate) : Checked Decimal := do
  let affordable ← match candidate.side with
    | .buy => do
      let cost ← candidate.price.mul (← (1 : Decimal).add v.feeRate)
      (v.free (candidate.pair.spent .buy)).div cost
    | .sell => pure (v.free (candidate.pair.spent .sell))
  return max affordable 0

def adjustCandidate (v : SimulatedVenue) (candidate : Candidate) (allOrNone : Bool) :
    Checked (Except VenueError Candidate) :=
  if candidate.price ≤ 0 then .ok (.error (.rejected (.price candidate.price)))
  else do
    let budget ← v.budget candidate
    if candidate.amount ≤ budget then return .ok candidate
    else if allOrNone then return .ok { candidate with amount := 0 }
    else return .ok { candidate with amount := budget.round .towardZero 8 }

/-! ### Orders -/

/-- What accepting an order means: its execution, what is left to rest, the fee, and the sum taken
from the free balance of the asset it pays with. -/
structure Terms where
  execution : Execution
  remaining : Decimal
  fee : Decimal
  cost : Decimal
deriving DecidableEq

def terms (v : SimulatedVenue) (book : OrderBook) (side : Side) (amount : Decimal)
    (type : OrderType) (price : Decimal) : Checked Terms := do
  let limit := match type with
    | .limit => some price
    | .market => none
  let x ← book.execute side limit amount
  let remaining ← match type with
    | .limit => amount.sub x.filled
    | .market => pure 0
  let fee ← x.notional.mul v.feeRate
  let cost ← match side with
    | .buy => do
      let paid ← x.notional.add fee
      paid.add (← remaining.mul price)
    | .sell => x.filled.add remaining
  return ⟨x, remaining, fee, cost⟩

/-- The id of the next order that is accepted. -/
def nextId (v : SimulatedVenue) : OrderId :=
  v.id ++ "-" ++ toString (v.orderCount + 1)

/-- Money and goods change hands for an order's immediate execution. -/
def settle (v : SimulatedVenue) (pair : Pair) (side : Side) (t : Terms) :
    Checked SimulatedVenue := do
  let v ← v.debit (pair.spent side) t.cost
  let proceeds ← match side with
    | .buy => pure t.execution.filled
    | .sell => t.execution.notional.sub t.fee
  let v ← v.credit (pair.received side) proceeds
  return { v with totalFees := ← v.totalFees.add t.fee }

/-- The remainder of an order goes to the resting ones. -/
def rest (v : SimulatedVenue) (order : RestingOrder) : SimulatedVenue :=
  if 0 < order.quantity then { v with resting := v.resting ++ [order] } else v

/-- A trade goes to the tape and its fill to the outbox. -/
def report (v : SimulatedVenue) (fill : Fill) (aggressive : Bool) : SimulatedVenue :=
  { v with
    tape := v.tape ++ [⟨fill.pair, fill.time, fill.price, fill.amount, fill.side, aggressive⟩]
    outbox := v.outbox ++ [fill] }

/-- The order is entered and, as far as it executes, reported at its average price. -/
def accept (v : SimulatedVenue) (pair : Pair) (side : Side) (amount : Decimal)
    (type : OrderType) (price : Decimal) (t : Terms) : Checked (OrderId × SimulatedVenue) := do
  let id := v.nextId
  let v ← v.settle pair side t
  let v := { v with orderCount := v.orderCount + 1 }
  let v := v.rest ⟨id, pair, side, price, t.remaining, v.clock⟩
  let v := { v with log := v.log ++ [⟨id, pair, side, type, amount, price, t.execution.filled⟩] }
  if 0 < t.execution.filled then
    let average ← t.execution.notional.div t.execution.filled
    return (id, v.report ⟨id, pair, side, average, t.execution.filled, v.clock⟩ true)
  else return (id, v)

def placeOrder (v : SimulatedVenue) (pair : Pair) (side : Side) (amount : Decimal)
    (type : OrderType) (price : Decimal) :
    Checked (Except VenueError OrderId × SimulatedVenue) :=
  if amount ≤ 0 then .ok (.error (.rejected (.amount amount)), v)
  else if 0 < v.rejections then
    .ok (.error (.rejected .injected), { v with rejections := v.rejections - 1 })
  else
    match v.bookOf pair with
    | .error e => .ok (.error e, v)
    | .ok book => do
      let t ← v.terms book side amount type price
      if v.free (pair.spent side) < t.cost then
        return (.error (.rejected (.funds side amount pair)), v)
      else
        let (id, v) ← v.accept pair side amount type price t
        return (.ok id, v)

def find? (v : SimulatedVenue) (id : OrderId) : Option RestingOrder :=
  v.resting.find? fun order => order.id = id

def remove (v : SimulatedVenue) (id : OrderId) : SimulatedVenue :=
  { v with resting := v.resting.filter fun order => order.id ≠ id }

def setQuantity (v : SimulatedVenue) (id : OrderId) (quantity : Decimal) : SimulatedVenue :=
  { v with
    resting := v.resting.map fun order => if order.id = id then { order with quantity } else order }

/-- What a resting order holds back, given back. -/
def refund (v : SimulatedVenue) (order : RestingOrder) : Checked SimulatedVenue := do
  let held ← match order.side with
    | .buy => order.quantity.mul order.price
    | .sell => pure order.quantity
  v.credit (order.pair.spent order.side) held

def cancelOrder (v : SimulatedVenue) (pair : Pair) (id : OrderId) :
    Checked (Except VenueError Unit × SimulatedVenue) :=
  if v.rejectsCancels then .ok (.error (.unavailable .cancelsRefused), v)
  else
    match v.find? id with
    | none => .ok (.error (.orderNotFound id), v)
    | some order =>
      if order.pair = pair then do
        return (.ok (), ← (v.remove id).refund order)
      else .ok (.error (.orderNotFound id), v)

/-- Puts an order in its place among orders by age, those of one age by id. -/
def insertByAge (order : RestingOrder) : List RestingOrder → List RestingOrder
  | [] => [order]
  | first :: rest =>
    let comparison := (compare order.createdAt first.createdAt).then (compare order.id first.id)
    if comparison.isLE then order :: first :: rest else first :: insertByAge order rest

/-- Our orders by age, those of one age by id. -/
def activeOrders (v : SimulatedVenue) : List RestingOrder :=
  v.resting.foldr insertByAge []

/-! ### Fills of resting orders -/

/-- What a fill of a resting order pays out. The buyer's price was set aside before, so only the
fee is still due. -/
def settleResting (v : SimulatedVenue) (order : RestingOrder) (amount : Decimal) :
    Checked SimulatedVenue := do
  let notional ← amount.mul order.price
  let fee ← notional.mul v.feeRate
  let v ← match order.side with
    | .buy => do
      let v ← v.credit order.pair.base amount
      v.debit order.pair.quote fee
    | .sell => do v.credit order.pair.quote (← notional.sub fee)
  return { v with totalFees := ← v.totalFees.add fee }

/-- Fills a resting order at its price, up to its quantity; `none` is all of it. There is no fill
of an order that does not rest or of no positive amount. -/
def fillResting (v : SimulatedVenue) (id : OrderId) (requested : Option Decimal) :
    Checked (Option Fill × SimulatedVenue) :=
  match v.find? id with
  | none => .ok (none, v)
  | some order =>
    let amount := min (requested.getD order.quantity) order.quantity
    if amount ≤ 0 then .ok (none, v)
    else do
      let v ← v.settleResting order amount
      let remaining ← order.quantity.sub amount
      let v := if 0 < remaining then v.setQuantity id remaining else v.remove id
      let fill : Fill := ⟨id, order.pair, order.side, order.price, amount, v.clock⟩
      return (some fill, v.report fill false)

/-- Fills these orders one after the other. -/
def fillAll : SimulatedVenue → List OrderId → Checked (List Fill × SimulatedVenue)
  | v, [] => .ok ([], v)
  | v, id :: ids => do
    let (fill, v) ← v.fillResting id none
    let (fills, v) ← v.fillAll ids
    return (fill.toList ++ fills, v)

/-- A new book for its pair; the resting orders that it crosses are filled. -/
def setBook (v : SimulatedVenue) (book : OrderBook) : Checked (List Fill × SimulatedVenue) :=
  let v := { v with books := Table.put book.pair book v.books }
  let crossed := v.resting.filter fun order =>
    order.pair = book.pair ∧ book.crosses order.side order.price
  v.fillAll (crossed.map RestingOrder.id)

/-! ### As an adapter -/

/-- A question that changes nothing. -/
def ask {α : Type} (f : SimulatedVenue → Checked (Except VenueError α)) : Call SimulatedVenue α :=
  ExceptT.mk fun v => do return (← f v, v)

def adapter : Adapter SimulatedVenue where
  executablePrice pair side amount := ask fun v => v.executablePrice pair side amount
  midPrice pair := ask fun v => v.midPrice pair
  availableBalance asset := ask fun v => .ok (.ok (v.free asset))
  adjustCandidate candidate allOrNone := ask fun v => v.adjustCandidate candidate allOrNone
  placeOrder pair side amount type price :=
    ExceptT.mk fun v => v.placeOrder pair side amount type price
  cancelOrder pair id := ExceptT.mk fun v => v.cancelOrder pair id
  activeOrders := ask fun v => .ok (.ok v.activeOrders)

end SimulatedVenue

end MarketMaker
