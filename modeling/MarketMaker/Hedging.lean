import MarketMaker.QuoteBook
import MarketMaker.Quotes
/-!
Hedging: a fill of a quote is offset on the taker venue by one limit order, sent once. A fill that
belongs to no known quote is ignored.
-/

namespace MarketMaker

/-- What a fill and its hedge earn together, fees included. -/
def potentialProfit [Arithmetic] (fillSide : Side) (fillPrice hedgePrice hedgeAmount makerFee takerFee : Decimal) :
    Checked Decimal := do
  let perUnit ← match fillSide with
    | .buy => do
      let received ← hedgePrice.mul (← (1 : Decimal).sub takerFee)
      received.sub (← fillPrice.mul (← (1 : Decimal).add makerFee))
    | .sell => do
      let received ← fillPrice.mul (← (1 : Decimal).sub makerFee)
      received.sub (← hedgePrice.mul (← (1 : Decimal).add takerFee))
  perUnit.mul hedgeAmount

/-- A hedge that was sent. The residual is the part of the fill that it leaves open. -/
structure HedgeRecord where
  fillOrderId : OrderId
  fillSide : Side
  fillPrice : Decimal
  fillAmount : Decimal
  hedgeOrderId : OrderId
  hedgeSide : Side
  hedgePrice : Decimal
  hedgeAmount : Decimal
  profit : Decimal
  makerRemaining : Decimal
  unhedgedResidual : Decimal
  time : Instant
deriving DecidableEq

/-- Why a fill stays open. -/
inductive UnhedgedReason
  | priceUnavailable (message : String)
  | budgetCheckFailed (message : String)
  | zeroAmount
  | submitFailed (message : String)
deriving DecidableEq

namespace UnhedgedReason

def message : UnhedgedReason → String
  | priceUnavailable message => "taker price unavailable: " ++ message
  | budgetCheckFailed message => "taker budget check failed: " ++ message
  | zeroAmount => "no taker budget for hedge"
  | submitFailed message => "taker submission failed: " ++ message

end UnhedgedReason

structure UnhedgedFill where
  fill : Fill
  reason : UnhedgedReason
  makerRemaining : Decimal
deriving DecidableEq

inductive HedgeOutcome
  | ignored
  | hedged (record : HedgeRecord)
  | unhedged (fill : UnhedgedFill)
deriving DecidableEq

namespace Hedging

variable {σ : Type} [Arithmetic]

/-- Steps of a hedge; a reason to leave the fill open ends them. -/
abbrev Attempt (σ : Type) := ExceptT UnhedgedReason (Act σ)

/-- A request whose refusal leaves the fill open. -/
def require {α : Type} (reason : String → UnhedgedReason) (call : Call σ α) : Attempt σ α := do
  match ← (call.answer : Act σ (Except VenueError α)) with
  | .ok x => return x
  | .error e => throw (reason e.message)

/-- Sizes and sends the hedge of a fill. -/
def attempt (desk : Desk σ) (p : Parameters) (fill : Fill) (makerRemaining : Decimal) :
    Attempt σ HedgeRecord := do
  let side := fill.side.opposite
  let pair := p.taker.pair
  let executable ← require .priceUnavailable (desk.taker.executablePrice pair side fill.amount)
  let price ← p.protectivePrice executable side
  let wanted ← Lot.down fill.amount p.taker.lotSize
  let adjusted ← require .budgetCheckFailed
    (desk.taker.adjustCandidate ⟨pair, false, .limit, side, wanted, price⟩ false)
  let amount ← Lot.down adjusted.amount p.taker.lotSize
  if amount ≤ 0 then throw .zeroAmount
  else
    let unhedgedResidual ← fill.amount.sub amount
    let profit ← potentialProfit fill.side fill.price adjusted.price amount p.makerFee p.takerFee
    let id ← require .submitFailed
      (desk.taker.placeOrder pair side amount adjusted.orderType adjusted.price)
    return {
      fillOrderId := fill.orderId
      fillSide := fill.side
      fillPrice := fill.price
      fillAmount := fill.amount
      hedgeOrderId := id
      hedgeSide := side
      hedgePrice := adjusted.price
      hedgeAmount := amount
      profit
      makerRemaining
      unhedgedResidual
      time := fill.time }

/-- One fill: its order is reduced, then the fill is hedged. -/
def handle (desk : Desk σ) (p : Parameters) (fill : Fill) (book : QuoteBook) :
    Act σ (HedgeOutcome × QuoteBook) := do
  let (settled, book) ← book.settle fill.side fill.orderId fill.amount
  match settled with
  | none => return (.ignored, book)
  | some makerRemaining =>
    match ← (attempt desk p fill makerRemaining).run with
    | .ok record => return (.hedged record, book)
    | .error reason => return (.unhedged ⟨fill, reason, makerRemaining⟩, book)

end Hedging

end MarketMaker
