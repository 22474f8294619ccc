import MarketMaker.Cancellation
import MarketMaker.Hedging
import MarketMaker.Profit
import MarketMaker.Quoting
/-!
The engine: it keeps quotes resting on the maker venue, hedges their fills on the taker venue and
keeps count. Ticks and fills come one at a time.
-/

namespace MarketMaker

/-- What a tick did; without quotes it did nothing, for the reason given. -/
structure TickReport where
  skipped : Option String
  quotes : Option MarketQuotes
  placements : List (Side × Placement)
  cancellations : List CancelOutcome
deriving DecidableEq

namespace TickReport

def placed (report : TickReport) : Nat :=
  report.placements.countP fun entry => entry.2.isPlaced

end TickReport

/-- A halted engine places no more quotes. -/
structure Engine where
  params : Parameters
  book : QuoteBook
  profit : Profit
  halted : Bool
deriving DecidableEq

namespace Engine

variable {σ : Type} [Arithmetic]

def new (params : Parameters) : Engine :=
  ⟨params, .empty, .none, false⟩

/-- Quotes the idle sides, then checks the orders that rest. -/
def onTick (desk : Desk σ) (now : Instant) (e : Engine) : Act σ (TickReport × Engine) := do
  match ← (MarketQuotes.fetch desk e.params).answer with
  | .error error => return (⟨some error.message, none, [], []⟩, e)
  | .ok quotes =>
    let (placements, book) ←
      if e.halted then pure ([], e.book)
      else Quoting.placeQuotes desk e.params quotes now e.book
    let (cancellations, book) ← Cancellation.run desk e.params quotes now book
    return (⟨none, some quotes, placements, cancellations⟩, { e with book })

/-- The count after a fill, and whether to halt because of it. -/
def account (e : Engine) : HedgeOutcome → Checked Engine
  | .ignored => .ok e
  | .hedged record => do return { e with profit := ← e.profit.recordHedge record.profit }
  | .unhedged _ =>
    .ok { e with
      profit := e.profit.recordUnhedged
      halted := e.halted || e.params.haltOnUnhedgedFill }

/-- Hedges a fill and counts it. -/
def onFill (desk : Desk σ) (fill : Fill) (e : Engine) : Act σ (HedgeOutcome × Engine) := do
  let (outcome, book) ← Hedging.handle desk e.params fill e.book
  let e ← { e with book }.account outcome
  return (outcome, e)

/-- Cancels a side's quote; says how many cancels succeeded. -/
def stopSide (desk : Desk σ) (side : Side) (e : Engine) : Act σ (Nat × Engine) := do
  match e.book.tracked side with
  | none => return (0, e)
  | some order =>
    match ← (desk.maker.cancelOrder e.params.maker.pair order.id).answer with
    | .ok () => return (1, { e with book := (e.book.release side).2 })
    | .error _ => return (0, e)

/-- Cancels every tracked quote; says how many cancels succeeded. -/
def onStop (desk : Desk σ) (e : Engine) : Act σ (Nat × Engine) := do
  let (bids, e) ← e.stopSide desk .buy
  let (asks, e) ← e.stopSide desk .sell
  return (bids + asks, e)

end Engine

end MarketMaker
