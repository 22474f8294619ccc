import MarketMaker.Config.Basic
import MarketMaker.Parameters
import MarketMaker.Tick
import MarketMaker.Venue.Simulated
/-!
A market made up for paper trading. The taker's mid price drifts up for some ticks, then down for
as many; the maker's mid price repeats the taker's from some ticks ago. Both books are laid out
evenly around their mid.
-/

namespace MarketMaker

structure PaperMids where
  maker : Decimal
  taker : Decimal
deriving DecidableEq

structure PaperMarket where
  config : PaperConfig
  maker : Market
  taker : Market
  tick : UInt64
  takerMid : Decimal
  /-- The taker's last mid prices, oldest first. -/
  history : List Decimal
deriving DecidableEq

namespace PaperMarket

variable [Arithmetic]

def new (config : PaperConfig) (maker taker : Market) : PaperMarket :=
  ⟨config, maker, taker, 0, config.startMid, []⟩

/-- Whether the taker's mid price rises with this tick. -/
def isRising (m : PaperMarket) : Bool :=
  (m.tick - 1) / max m.config.swingTicks 1 % 2 == 0

/-- The taker's mid price at the next tick; the first is the configured one. -/
def nextTakerMid (m : PaperMarket) : Checked Decimal :=
  if m.tick = 0 then .ok m.takerMid
  else if m.isRising then BasisPoints.above m.takerMid m.config.driftBps
  else BasisPoints.below m.takerMid m.config.driftBps

/-- How many mid prices are kept. -/
def window (m : PaperMarket) : Nat :=
  (m.config.makerLagTicks + 1).toNat

def nextMids (m : PaperMarket) : Checked (PaperMids × PaperMarket) := do
  let takerMid ← m.nextTakerMid
  let all := m.history ++ [takerMid]
  let history := all.drop (all.length - m.window)
  return (⟨history.headD takerMid, takerMid⟩, { m with tick := m.tick + 1, takerMid, history })

/-- How far the `i`-th level is from the mid price, in basis points. -/
def offset (m : PaperMarket) (i : Nat) : Checked Decimal := do
  let steps ← m.config.levelStepBps.mul (Decimal.ofWord i.toUInt64)
  m.config.halfSpreadBps.add steps

/-- One side's levels, their prices moved from the mid price by `shift`. -/
def buildSide (m : PaperMarket) (shift : Decimal → Decimal → Checked Decimal)
    (mid tickSize : Decimal) : Checked (List Level) :=
  (List.range (max m.config.levels 1).toNat).mapM fun i => do
    let price ← shift mid (← m.offset i)
    return ⟨← Tick.nearest price tickSize, m.config.levelAmount⟩

def buildBook (m : PaperMarket) (pair : Pair) (mid tickSize : Decimal) (now : Instant) :
    Checked OrderBook := do
  let bids ← m.buildSide BasisPoints.below mid tickSize
  let asks ← m.buildSide BasisPoints.above mid tickSize
  return ⟨pair, now, bids, asks⟩

/-- Gives a venue the starting balances of its pair. -/
def seed (m : PaperMarket) (market : Market) (v : SimulatedVenue) : SimulatedVenue :=
  (v.setBalance market.pair.base m.config.baseBalance).setBalance market.pair.quote
    m.config.quoteBalance

/-- Both venues with their starting balances. -/
def seedBoth (m : PaperMarket) (venues : SimulatedVenue × SimulatedVenue) :
    SimulatedVenue × SimulatedVenue :=
  (m.seed m.maker venues.1, m.seed m.taker venues.2)

/-- Both venues get the next books, the taker first. The fills are those of the orders that the
books cross. -/
def step (now : Instant) (m : PaperMarket) (venues : SimulatedVenue × SimulatedVenue) :
    Checked (List Fill × PaperMarket × SimulatedVenue × SimulatedVenue) := do
  let (mids, m) ← m.nextMids
  let takerBook ← m.buildBook m.taker.pair mids.taker m.taker.tickSize now
  let (takerFills, taker) ← { venues.2 with clock := now }.setBook takerBook
  let makerBook ← m.buildBook m.maker.pair mids.maker m.maker.tickSize now
  let (makerFills, maker) ← { venues.1 with clock := now }.setBook makerBook
  return (takerFills ++ makerFills, m, maker, taker)

end PaperMarket

end MarketMaker
