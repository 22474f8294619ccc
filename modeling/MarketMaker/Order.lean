import MarketMaker.Decimal.Text
import MarketMaker.Instant.Basic
import MarketMaker.Pair
/-!
Orders and what comes of them: candidates before they are placed, orders resting on a venue, the
fills reported for them, and trades on the public tape.
-/

namespace MarketMaker

inductive Side
  | buy
  | sell
deriving DecidableEq, Inhabited

namespace Side

def opposite : Side → Side
  | buy => sell
  | sell => buy

def text : Side → String
  | buy => "buy"
  | sell => "sell"

instance : ToString Side := ⟨text⟩

def ofText? : String → Option Side
  | "buy" => some buy
  | "sell" => some sell
  | _ => none

end Side

namespace Pair

/-- The asset that an order of this side pays with. -/
def spent (pair : Pair) : Side → String
  | .buy => pair.quote
  | .sell => pair.base

/-- The asset that an order of this side is paid in. -/
def received (pair : Pair) (side : Side) : String :=
  pair.spent side.opposite

end Pair

inductive OrderType
  | limit
  | market
deriving DecidableEq, Inhabited

namespace OrderType

def text : OrderType → String
  | limit => "LIMIT"
  | market => "MARKET"

def ofText? : String → Option OrderType
  | "LIMIT" => some limit
  | "MARKET" => some market
  | _ => none

end OrderType

abbrev OrderId := String

/-- An order on its way to a venue's budget check. -/
structure Candidate where
  pair : Pair
  isMaker : Bool
  orderType : OrderType
  side : Side
  amount : Decimal
  price : Decimal
deriving DecidableEq

/-- An order that waits on a venue for its price. -/
structure RestingOrder where
  id : OrderId
  pair : Pair
  side : Side
  price : Decimal
  quantity : Decimal
  createdAt : Instant
deriving DecidableEq

/-- A report that one of our orders traded. -/
structure Fill where
  orderId : OrderId
  pair : Pair
  side : Side
  price : Decimal
  amount : Decimal
  time : Instant
deriving DecidableEq

/-- A trade on the public tape; `aggressive` if the order did not wait for it. -/
structure Trade where
  pair : Pair
  time : Instant
  price : Decimal
  amount : Decimal
  side : Side
  aggressive : Bool
deriving DecidableEq

end MarketMaker
