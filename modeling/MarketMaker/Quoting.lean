import MarketMaker.QuoteBook
import MarketMaker.Quotes
/-!
Placing quotes: for every idle side an order on the maker venue, no larger than what the maker holds
for it and what the taker holds for its hedge.
-/

namespace MarketMaker

/-- What came of trying to quote a side. -/
inductive Placement
  | placed (id : OrderId) (price amount : Decimal)
  | alreadyResting
  | positionLimit
  | zeroAmount
  | failed (message : String)
deriving DecidableEq

namespace Placement

def isPlaced : Placement → Bool
  | placed .. => true
  | _ => false

end Placement

namespace Quoting

variable {σ : Type} [Arithmetic]

/-- Whether the maker holds what a quote spends, and the taker what its hedge spends at our price to
buy there. -/
def checkPositionLimit (desk : Desk σ) (p : Parameters) (quotes : MarketQuotes) (side : Side)
    (amount price : Decimal) : Call σ Bool := do
  let makerBalance ← desk.maker.availableBalance (p.maker.pair.spent side)
  let makerNeeded ← match side with
    | .buy => amount.mul price
    | .sell => pure amount
  let takerBalance ← desk.taker.availableBalance (p.taker.pair.spent side.opposite)
  let takerNeeded ← match side with
    | .buy => pure amount
    | .sell => amount.mul quotes.takerBuy
  return decide (makerNeeded ≤ makerBalance ∧ takerNeeded ≤ takerBalance)

/-- What the taker holds for the hedge of this side, in the base asset. Its quote counts at our price
to buy there, without the slippage buffer and the fee of a hedge. -/
def hedgingBudget (desk : Desk σ) (p : Parameters) (quotes : MarketQuotes) (side : Side) :
    Call σ Decimal := do
  let balance ← desk.taker.availableBalance (p.taker.pair.spent side.opposite)
  match side with
  | .buy => return balance
  | .sell => balance.divOrZero quotes.takerBuy

/-- Sizes a quote for one side and places it. -/
def attempt (desk : Desk σ) (p : Parameters) (quotes : MarketQuotes) (side : Side) :
    Call σ Placement := do
  let price ← p.targetPrice quotes side
  if ← checkPositionLimit desk p quotes side p.orderAmount price then
    let budget ← hedgingBudget desk p quotes side
    let wanted ← Lot.down (min p.orderAmount budget) p.maker.lotSize
    let adjusted ← desk.maker.adjustCandidate
      ⟨p.maker.pair, true, .limit, side, wanted, price⟩ false
    let amount ← Lot.down adjusted.amount p.maker.lotSize
    if amount ≤ 0 ∨ amount < p.minOrderAmount then return .zeroAmount
    else
      let id ← desk.maker.placeOrder p.maker.pair side amount .limit price
      return .placed id price amount
  else return .positionLimit

/-- A side's placement and the book that tracks it. A request that fails leaves the side idle. -/
def placeSide (desk : Desk σ) (p : Parameters) (quotes : MarketQuotes) (now : Instant)
    (side : Side) (book : QuoteBook) : Act σ (Placement × QuoteBook) := do
  if book.isIdle side then
    match ← (attempt desk p quotes side).answer with
    | .ok (.placed id price amount) =>
      let (_, book) := book.markResting (.new id side price amount now)
      return (.placed id price amount, book)
    | .ok other => return (other, book)
    | .error e => return (.failed e.message, book)
  else return (.alreadyResting, book)

/-- Both sides, the bid first. -/
def placeQuotes (desk : Desk σ) (p : Parameters) (quotes : MarketQuotes) (now : Instant)
    (book : QuoteBook) : Act σ (List (Side × Placement) × QuoteBook) := do
  let (bid, book) ← placeSide desk p quotes now .buy book
  let (ask, book) ← placeSide desk p quotes now .sell book
  return ([(.buy, bid), (.sell, ask)], book)

end Quoting

end MarketMaker
