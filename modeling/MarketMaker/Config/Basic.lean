import MarketMaker.Decimal.Text
/-!
The configuration and its named presets. Counts are words of 64 bits.
-/

namespace MarketMaker

structure MarketConfig where
  venue : String
  pair : String
  tickSize : Decimal := 0
  lotSize : Decimal := 0
deriving DecidableEq

structure StrategyConfig where
  orderAmount : Decimal := .of 500 0
  spreadBps : Decimal := .of 32 0
  minSpreadBps : Decimal := .of 22 0
  slippageBufferBps : Decimal := .of 2 0
  maxOrderAgeSecs : UInt64 := 30
  makerFee : Decimal := .of 1 3
  takerFee : Decimal := .of 1 3
  minOrderAmount : Decimal := 0
  haltOnUnhedgedFill : Bool := false
deriving DecidableEq

structure RuntimeConfig where
  tickIntervalMs : UInt64 := 1000
  ledgerPath : String := "data/xemm_ledger.db"
  /-- A status report every so many ticks; zero for none. -/
  statusEveryTicks : UInt64 := 30
deriving DecidableEq

structure ArchiveConfig where
  enabled : Bool := false
  path : String := "data/archive.db"
  /-- Levels kept per side of a book. -/
  depth : UInt64 := 10
  flushIntervalSecs : UInt64 := 10
deriving DecidableEq

/-- The paper market: the first mid price, the shape of the books around it, the drift per tick
and when it turns, and how many ticks the maker is behind. -/
structure PaperConfig where
  startMid : Decimal := .of 1 1
  halfSpreadBps : Decimal := .of 5 0
  levelStepBps : Decimal := .of 2 0
  levels : UInt64 := 10
  levelAmount : Decimal := .of 2000 0
  driftBps : Decimal := .of 4 0
  swingTicks : UInt64 := 40
  makerLagTicks : UInt64 := 15
  baseBalance : Decimal := .of 5000 0
  quoteBalance : Decimal := .of 500 0
deriving DecidableEq

structure Config where
  maker : MarketConfig := { venue := "okx", pair := "DOGE-USDT" }
  taker : MarketConfig := { venue := "binance", pair := "DOGE-USDT" }
  strategy : StrategyConfig := {}
  runtime : RuntimeConfig := {}
  archive : ArchiveConfig := {}
  paper : PaperConfig := {}
deriving DecidableEq

/-- A named configuration to start from. -/
inductive Preset
  | standard
  | krakenBinanceUs
deriving DecidableEq

namespace Preset

/-- Lower case, with an underscore for every dash. -/
def normalizeName (name : String) : String :=
  name.map fun c => if c = '-' then '_' else c.toLower

/-- Names are read in any case, with dashes or underscores. -/
def ofName? (name : String) : Option Preset :=
  match normalizeName name with
  | "default" => some standard
  | "kraken_binance_us" => some krakenBinanceUs
  | _ => none

def unknownMessage (name : String) : String :=
  "Unknown preset '" ++ normalizeName name ++ "' (expected 'default' or 'kraken_binance_us')"

def config : Preset → Config
  | standard => {}
  | krakenBinanceUs =>
    { maker := { venue := "binance_us", pair := "DOGE-USDT" }
      taker := { venue := "kraken", pair := "DOGE-USD" }
      strategy :=
        { orderAmount := .of 60 0
          spreadBps := .of 20 0
          minSpreadBps := .of 18 0
          slippageBufferBps := .of 1 0
          maxOrderAgeSecs := 60
          makerFee := 0
          takerFee := .of 75 5
          minOrderAmount := .of 1 4
          haltOnUnhedgedFill := false } }

end Preset

end MarketMaker
