import MarketMaker.Order
/-!
Why a venue refuses a request, and the words for it.
-/

namespace MarketMaker

/-- Why a venue does not accept an order. -/
inductive Rejection
  | amount (amount : Decimal)
  | price (price : Decimal)
  | funds (side : Side) (amount : Decimal) (pair : Pair)
  | injected
  | other (reason : String)
deriving DecidableEq

namespace Rejection

def message : Rejection → String
  | amount a => s!"non-positive amount {a}"
  | price p => s!"non-positive candidate price {p}"
  | funds side a pair => s!"insufficient balance for {side} {a} {pair}"
  | injected => "injected rejection"
  | other reason => reason

end Rejection

/-- Why a venue cannot answer. -/
inductive Outage
  | emptyBook (pair : Pair)
  | oneSidedBook (pair : Pair)
  | cancelsRefused
  | other (reason : String)
deriving DecidableEq

namespace Outage

def message : Outage → String
  | emptyBook pair => s!"empty book for {pair}"
  | oneSidedBook pair => s!"one-sided book for {pair}"
  | cancelsRefused => "injected cancel failure"
  | other reason => reason

end Outage

inductive VenueError
  | insufficientDepth (pair : String) (requested available : Decimal)
  | unknownAsset (asset : String)
  | unknownPair (pair : String)
  | orderNotFound (id : OrderId)
  | rejected (why : Rejection)
  | unavailable (why : Outage)
deriving DecidableEq

namespace VenueError

def message : VenueError → String
  | insufficientDepth pair requested available =>
    s!"Insufficient depth on {pair}: requested {requested}, available {available}"
  | unknownAsset asset => "Unknown asset: " ++ asset
  | unknownPair pair => "Unknown trading pair: " ++ pair
  | orderNotFound id => "Order not found: " ++ id
  | rejected why => "Order rejected: " ++ why.message
  | unavailable why => "Venue unavailable: " ++ why.message

end VenueError

end MarketMaker
