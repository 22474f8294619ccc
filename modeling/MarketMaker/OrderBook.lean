import MarketMaker.Order
/-!
Order books, best prices first, and the walk through the levels that an order of a given size
executes against.
-/

namespace MarketMaker

structure Level where
  price : Decimal
  amount : Decimal
deriving DecidableEq

structure OrderBook where
  pair : Pair
  time : Instant
  bids : List Level
  asks : List Level
deriving DecidableEq

/-- An amount and what it costs. -/
structure Execution where
  filled : Decimal
  notional : Decimal
deriving DecidableEq

namespace Execution

def none : Execution := ⟨0, 0⟩

end Execution

namespace Level

/-- Whether an order of this side and limit may trade at the level. -/
def isWithin (level : Level) (side : Side) : Option Decimal → Bool
  | .none => true
  | some limit =>
    match side with
    | .buy => decide (level.price ≤ limit)
    | .sell => decide (limit ≤ level.price)

/-- What an order of `amount` has executed after the levels it may trade at, given what it has
executed before them. It stops at the first level it may not trade at. -/
def sweep [Arithmetic] (side : Side) (limit : Option Decimal) (amount : Decimal) :
    Execution → List Level → Checked Execution
  | x, [] => .ok x
  | x, level :: levels =>
    if amount ≤ x.filled ∨ ¬ level.isWithin side limit then .ok x
    else do
      let take := min level.amount (← amount.sub x.filled)
      let filled ← x.filled.add take
      let notional ← x.notional.add (← take.mul level.price)
      sweep side limit amount ⟨filled, notional⟩ levels

end Level

namespace OrderBook

def bestBid? (book : OrderBook) : Option Decimal :=
  book.bids.head?.map Level.price

def bestAsk? (book : OrderBook) : Option Decimal :=
  book.asks.head?.map Level.price

/-- The levels that an order of this side trades at. -/
def facing (book : OrderBook) : Side → List Level
  | .buy => book.asks
  | .sell => book.bids

/-- The best price that an order of this side meets. -/
def best? (book : OrderBook) : Side → Option Decimal
  | .buy => book.bestAsk?
  | .sell => book.bestBid?

/-- At most `depth` levels on either side. -/
def truncate (book : OrderBook) (depth : Nat) : OrderBook :=
  { book with bids := book.bids.take depth, asks := book.asks.take depth }

/-- What an order that has not executed yet executes at once. -/
def execute [Arithmetic] (book : OrderBook) (side : Side) (limit : Option Decimal) (amount : Decimal) :
    Checked Execution :=
  Level.sweep side limit amount Execution.none (book.facing side)

/-- Whether a waiting order of this side and price trades against the book. -/
def crosses (book : OrderBook) (side : Side) (price : Decimal) : Bool :=
  match side, book.best? side with
  | _, none => false
  | .buy, some ask => decide (ask ≤ price)
  | .sell, some bid => decide (price ≤ bid)

end OrderBook

end MarketMaker
