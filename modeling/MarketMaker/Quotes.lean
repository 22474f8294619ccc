import MarketMaker.BasisPoints
import MarketMaker.Parameters
import MarketMaker.Tick
import MarketMaker.Venue.Adapter
/-!
The prices at which the order size executes on both venues, and the prices that follow from them:
where quotes go, and the thresholds that they may not cross later.
-/

namespace MarketMaker

/-- Our average prices to buy and to sell the order size on each venue. -/
structure MarketQuotes where
  takerBuy : Decimal
  takerSell : Decimal
  makerBuy : Decimal
  makerSell : Decimal
deriving DecidableEq

namespace MarketQuotes

/-- All four prices; the first request that fails fails the whole. -/
def fetch {σ : Type} (desk : Desk σ) (p : Parameters) : Call σ MarketQuotes := do
  let takerBuy ← desk.taker.executablePrice p.taker.pair .buy p.orderAmount
  let takerSell ← desk.taker.executablePrice p.taker.pair .sell p.orderAmount
  let makerBuy ← desk.maker.executablePrice p.maker.pair .buy p.orderAmount
  let makerSell ← desk.maker.executablePrice p.maker.pair .sell p.orderAmount
  return { takerBuy, takerSell, makerBuy, makerSell }

end MarketQuotes

namespace Parameters

variable [Arithmetic]

/-- The spread under our price to sell on the taker, and not above our price to buy on the maker. -/
def targetBid (p : Parameters) (quotes : MarketQuotes) : Checked Decimal := do
  let shifted ← BasisPoints.below quotes.takerSell p.spread
  Tick.down (min shifted quotes.makerBuy) p.maker.tickSize

/-- The spread over our price to buy on the taker, and not below our price to sell on the maker. -/
def targetAsk (p : Parameters) (quotes : MarketQuotes) : Checked Decimal := do
  let shifted ← BasisPoints.above quotes.takerBuy p.spread
  Tick.up (max shifted quotes.makerSell) p.maker.tickSize

def targetPrice (p : Parameters) (quotes : MarketQuotes) : Side → Checked Decimal
  | .buy => p.targetBid quotes
  | .sell => p.targetAsk quotes

/-- The price that a resting order may not be beyond: above it for a bid, below it for an ask. -/
def threshold (p : Parameters) (quotes : MarketQuotes) : Side → Checked Decimal
  | .buy => BasisPoints.below quotes.takerSell p.minSpread
  | .sell => BasisPoints.above quotes.takerBuy p.minSpread

/-- The limit of a hedge: the executable price and the slippage buffer on top, rounded the same
way. -/
def protectivePrice (p : Parameters) (executable : Decimal) : Side → Checked Decimal
  | .sell => do Tick.down (← BasisPoints.below executable p.slippageBuffer) p.taker.tickSize
  | .buy => do Tick.up (← BasisPoints.above executable p.slippageBuffer) p.taker.tickSize

end Parameters

end MarketMaker
