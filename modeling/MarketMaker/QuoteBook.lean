import MarketMaker.Order
/-!
The quotes that the engine answers for: at most one resting order per side, and the last orders
that were let go while a fill of theirs may still be under way.
-/

namespace MarketMaker

structure TrackedOrder where
  id : OrderId
  side : Side
  price : Decimal
  initialQuantity : Decimal
  remaining : Decimal
  createdAt : Instant
deriving DecidableEq

namespace TrackedOrder

def new (id : OrderId) (side : Side) (price quantity : Decimal) (createdAt : Instant) :
    TrackedOrder :=
  ⟨id, side, price, quantity, quantity, createdAt⟩

def age (order : TrackedOrder) (now : Instant) : Span :=
  now.since order.createdAt

def filled [Arithmetic] (order : TrackedOrder) : Checked Decimal :=
  order.initialQuantity.sub order.remaining

/-- The order after a fill; what remains never goes below zero. -/
def reduce [Arithmetic] (order : TrackedOrder) (amount : Decimal) : Checked TrackedOrder := do
  return { order with remaining := max (← order.remaining.sub amount) 0 }

end TrackedOrder

/-- What a fill did to the tracked order. -/
inductive FillProgress
  | complete (order : TrackedOrder)
  | partly (remaining : Decimal)
deriving DecidableEq

namespace FillProgress

def remaining : FillProgress → Decimal
  | complete _ => 0
  | partly remaining => remaining

end FillProgress

/-- `released` is in order of release. -/
structure QuoteBook where
  buy : Option TrackedOrder
  sell : Option TrackedOrder
  released : List TrackedOrder
deriving DecidableEq

namespace QuoteBook

/-- How many released orders are remembered. -/
def releasedCapacity : Nat := 8

def empty : QuoteBook := ⟨none, none, []⟩

def tracked (book : QuoteBook) : Side → Option TrackedOrder
  | .buy => book.buy
  | .sell => book.sell

def setTracked (book : QuoteBook) : Side → Option TrackedOrder → QuoteBook
  | .buy, order => { book with buy := order }
  | .sell, order => { book with sell := order }

theorem tracked_setTracked (book : QuoteBook) (side other : Side) (order : Option TrackedOrder) :
    (book.setTracked side order).tracked other =
      if side = other then order else book.tracked other := by
  cases side <;> cases other <;> rfl

theorem released_setTracked (book : QuoteBook) (side : Side) (order : Option TrackedOrder) :
    (book.setTracked side order).released = book.released := by
  cases side <;> rfl

def isIdle (book : QuoteBook) (side : Side) : Bool :=
  (book.tracked side).isNone

def isTracked (book : QuoteBook) (side : Side) (id : OrderId) : Bool :=
  (book.tracked side).any fun order => order.id == id

/-- Tracked on either side. -/
def contains (book : QuoteBook) (id : OrderId) : Bool :=
  book.isTracked .buy id || book.isTracked .sell id

/-- The tracked orders, the bid first. -/
def resting (book : QuoteBook) : List TrackedOrder :=
  book.buy.toList ++ book.sell.toList

/-- Tracks a new order if its side is idle; says whether it does. -/
def markResting (book : QuoteBook) (order : TrackedOrder) : Bool × QuoteBook :=
  if book.isIdle order.side then (true, book.setTracked order.side (some order)) else (false, book)

/-- Stops tracking the side's order. -/
def release (book : QuoteBook) (side : Side) : Option TrackedOrder × QuoteBook :=
  (book.tracked side, book.setTracked side none)

/-- The order joins the released ones; if there is no room, the oldest of them goes. -/
def remember (book : QuoteBook) (order : TrackedOrder) : QuoteBook :=
  let kept := if book.released.length = releasedCapacity then book.released.tail else book.released
  { book with released := kept ++ [order] }

/-- Stops tracking the side's order, but remembers it. -/
def forget (book : QuoteBook) (side : Side) : Option TrackedOrder × QuoteBook :=
  match book.tracked side with
  | none => (none, book)
  | some order => (some order, (book.setTracked side none).remember order)

def isReleased (book : QuoteBook) (side : Side) (id : OrderId) : Bool :=
  book.released.any fun order => order.side == side && order.id == id

variable [Arithmetic]

/-- A fill of the first released order of this side and id, if there is one: what remains of it,
and the orders that are still remembered. One that is fully filled is no longer. -/
def fillFirst (side : Side) (id : OrderId) (amount : Decimal) :
    List TrackedOrder → Checked (Option (Decimal × List TrackedOrder))
  | [] => .ok none
  | order :: rest =>
    if order.side = side ∧ order.id = id then do
      let order ← order.reduce amount
      let kept := if order.remaining.mantissa = 0 then rest else order :: rest
      return some (order.remaining, kept)
    else do
      let found ← fillFirst side id amount rest
      return found.map fun (remaining, kept) => (remaining, order :: kept)

/-- A fill of a released order; what remains of it, if it is remembered. -/
def applyReleasedFill (book : QuoteBook) (side : Side) (id : OrderId) (amount : Decimal) :
    Checked (Option Decimal × QuoteBook) := do
  match ← fillFirst side id amount book.released with
  | none => return (none, book)
  | some (remaining, released) => return (some remaining, { book with released })

/-- A fill of the side's order, if it has one; a full fill leaves the side idle. -/
def applyFill (book : QuoteBook) (side : Side) (amount : Decimal) :
    Checked (Option FillProgress × QuoteBook) :=
  match book.tracked side with
  | none => .ok (none, book)
  | some order => do
    let order ← order.reduce amount
    if 0 < order.remaining then
      return (some (.partly order.remaining), book.setTracked side (some order))
    else return (some (.complete order), book.setTracked side none)

/-- A fill of whatever order it belongs to: what remains of it, or none if it belongs to none. -/
def settle (book : QuoteBook) (side : Side) (id : OrderId) (amount : Decimal) :
    Checked (Option Decimal × QuoteBook) :=
  if book.isTracked side id then do
    let (progress, book) ← book.applyFill side amount
    return (progress.map FillProgress.remaining, book)
  else book.applyReleasedFill side id amount

end QuoteBook

end MarketMaker
