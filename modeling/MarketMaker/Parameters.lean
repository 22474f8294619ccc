import MarketMaker.Order
/-!
What a strategy runs with: the two markets, its size, spreads, fees and limits.
-/

namespace MarketMaker

/-- A pair on a venue, with the steps of its prices and quantities; zero is no step. -/
structure Market where
  venue : String
  pair : Pair
  tickSize : Decimal
  lotSize : Decimal
deriving DecidableEq

structure Parameters where
  maker : Market
  taker : Market
  /-- The size of a quote. -/
  orderAmount : Decimal
  /-- How far quotes keep from the taker's price, in basis points. -/
  spread : Decimal
  /-- Quotes that came closer than this to the taker's price are cancelled. -/
  minSpread : Decimal
  /-- How much worse than the taker's price a hedge may be, in basis points. -/
  slippageBuffer : Decimal
  maxOrderAge : Span
  makerFee : Decimal
  takerFee : Decimal
  minOrderAmount : Decimal
  haltOnUnhedgedFill : Bool
deriving DecidableEq

end MarketMaker
