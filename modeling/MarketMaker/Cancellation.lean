import MarketMaker.QuoteBook
import MarketMaker.Quotes
/-!
Pulling quotes: every order resting on the maker pair, tracked or not, is checked once against the
current prices and its age.
-/

namespace MarketMaker

/-- Why a quote is pulled. -/
inductive CancelReason
  | priceDrift (price threshold : Decimal)
  | expired (age : Span)
deriving DecidableEq

namespace CancelReason

def message : CancelReason → String
  | priceDrift price threshold => s!"price {price} beyond threshold {threshold}"
  | expired age => "age " ++ toString age.seconds ++ "s"

end CancelReason

/-- What a check led to. A released order was gone from the venue for too long; an orphan is an
order that nobody tracks. -/
inductive CancelOutcome
  | cancelled (id : OrderId) (side : Side) (reason : CancelReason)
  | cancelFailed (id : OrderId) (side : Side) (message : String)
  | released (id : OrderId) (side : Side)
  | orphanCancelled (id : OrderId) (side : Side) (reason : CancelReason)
deriving DecidableEq

namespace Cancellation

variable {σ : Type} [Arithmetic]

def isBeyond (side : Side) (price threshold : Decimal) : Bool :=
  match side with
  | .buy => decide (threshold < price)
  | .sell => decide (price < threshold)

/-- Why an order of this side, price and age has to go, if it has to. -/
def reason? (p : Parameters) (quotes : MarketQuotes) (now : Instant) (side : Side)
    (price : Decimal) (createdAt : Instant) : Checked (Option CancelReason) := do
  let threshold ← p.threshold quotes side
  if isBeyond side price threshold then return some (.priceDrift price threshold)
  else
    let age := now.since createdAt
    if p.maxOrderAge < age then return some (.expired age) else return none

/-- One tracked order, looked up among the venue's orders. -/
def checkTracked (desk : Desk σ) (p : Parameters) (quotes : MarketQuotes) (now : Instant)
    (live : List RestingOrder) (order : TrackedOrder) (book : QuoteBook) :
    Act σ (List CancelOutcome × QuoteBook) := do
  match live.find? fun other => other.id = order.id with
  | none =>
    if p.maxOrderAge < order.age now then
      return ([.released order.id order.side], (book.forget order.side).2)
    else return ([], book)
  | some found =>
    match ← reason? p quotes now order.side found.price found.createdAt with
    | none => return ([], book)
    | some reason =>
      match ← (desk.maker.cancelOrder p.maker.pair order.id).answer with
      | .ok () =>
        return ([.cancelled order.id order.side reason], (book.release order.side).2)
      | .error e => return ([.cancelFailed order.id order.side e.message], book)

/-- The tracked orders one after the other. -/
def checkAllTracked (desk : Desk σ) (p : Parameters) (quotes : MarketQuotes) (now : Instant)
    (live : List RestingOrder) :
    List TrackedOrder → QuoteBook → Act σ (List CancelOutcome × QuoteBook)
  | [], book => return ([], book)
  | order :: orders, book => do
    let (first, book) ← checkTracked desk p quotes now live order book
    let (others, book) ← checkAllTracked desk p quotes now live orders book
    return (first ++ others, book)

/-- Orders that nobody tracks. One that cannot be cancelled is passed over. -/
def checkOrphans (desk : Desk σ) (p : Parameters) (quotes : MarketQuotes) (now : Instant) :
    List RestingOrder → Act σ (List CancelOutcome)
  | [] => return []
  | order :: orders => do
    let first ← match ← reason? p quotes now order.side order.price order.createdAt with
      | none => pure []
      | some reason =>
        match ← (desk.maker.cancelOrder p.maker.pair order.id).answer with
        | .ok () => pure [.orphanCancelled order.id order.side reason]
        | .error _ => pure []
    let others ← checkOrphans desk p quotes now orders
    return first ++ others

/-- One pass over the orders resting on the maker; nothing happens if they cannot be listed. -/
def run (desk : Desk σ) (p : Parameters) (quotes : MarketQuotes) (now : Instant)
    (book : QuoteBook) : Act σ (List CancelOutcome × QuoteBook) := do
  match ← desk.maker.activeOrders.answer with
  | .error _ => return ([], book)
  | .ok live =>
    let orphans := live.filter fun order => order.pair = p.maker.pair ∧ ¬ book.contains order.id
    let (tracked, after) ← checkAllTracked desk p quotes now live book.resting book
    let others ← checkOrphans desk p quotes now orphans
    return (tracked ++ others, after)

end Cancellation

end MarketMaker
