import MarketMaker.Config.Basic
import MarketMaker.Json.Record
/-!
Configurations as JSON. Every key has a default but the venue and pair of a market; writing shows
all keys, decimals as texts.
-/

namespace MarketMaker

namespace MarketConfig

def names : List String := ["venue", "pair", "tick_size", "lot_size"]

def ofJson? (r : Json.Reader) (value : Json) : Option MarketConfig := do
  let found ← Json.record? r names value
  let field := Json.fieldAt found
  return {
    venue := ← Json.required? r.text? (field 0)
    pair := ← Json.required? r.text? (field 1)
    tickSize := ← Json.optional? 0 r.decimal? (field 2)
    lotSize := ← Json.optional? 0 r.decimal? (field 3) }

def toJson (m : MarketConfig) : Json :=
  .obj [("venue", .str m.venue), ("pair", .str m.pair), ("tick_size", .ofDecimal m.tickSize),
    ("lot_size", .ofDecimal m.lotSize)]

end MarketConfig

namespace StrategyConfig

def names : List String :=
  ["order_amount", "spread_bps", "min_spread_bps", "slippage_buffer_bps", "max_order_age_secs",
   "maker_fee", "taker_fee", "min_order_amount", "halt_on_unhedged_fill"]

def ofJson? (r : Json.Reader) (value : Json) : Option StrategyConfig := do
  let found ← Json.record? r names value
  let field := Json.fieldAt found
  let usual : StrategyConfig := {}
  return {
    orderAmount := ← Json.optional? usual.orderAmount r.decimal? (field 0)
    spreadBps := ← Json.optional? usual.spreadBps r.decimal? (field 1)
    minSpreadBps := ← Json.optional? usual.minSpreadBps r.decimal? (field 2)
    slippageBufferBps := ← Json.optional? usual.slippageBufferBps r.decimal? (field 3)
    maxOrderAgeSecs := ← Json.optional? usual.maxOrderAgeSecs r.word? (field 4)
    makerFee := ← Json.optional? usual.makerFee r.decimal? (field 5)
    takerFee := ← Json.optional? usual.takerFee r.decimal? (field 6)
    minOrderAmount := ← Json.optional? usual.minOrderAmount r.decimal? (field 7)
    haltOnUnhedgedFill := ← Json.optional? usual.haltOnUnhedgedFill r.truth? (field 8) }

def toJson (s : StrategyConfig) : Json :=
  .obj [("order_amount", .ofDecimal s.orderAmount), ("spread_bps", .ofDecimal s.spreadBps),
    ("min_spread_bps", .ofDecimal s.minSpreadBps),
    ("slippage_buffer_bps", .ofDecimal s.slippageBufferBps),
    ("max_order_age_secs", .ofWord s.maxOrderAgeSecs), ("maker_fee", .ofDecimal s.makerFee),
    ("taker_fee", .ofDecimal s.takerFee), ("min_order_amount", .ofDecimal s.minOrderAmount),
    ("halt_on_unhedged_fill", .bool s.haltOnUnhedgedFill)]

end StrategyConfig

namespace RuntimeConfig

def names : List String := ["tick_interval_ms", "ledger_path", "status_every_ticks"]

def ofJson? (r : Json.Reader) (value : Json) : Option RuntimeConfig := do
  let found ← Json.record? r names value
  let field := Json.fieldAt found
  let usual : RuntimeConfig := {}
  return {
    tickIntervalMs := ← Json.optional? usual.tickIntervalMs r.word? (field 0)
    ledgerPath := ← Json.optional? usual.ledgerPath r.text? (field 1)
    statusEveryTicks := ← Json.optional? usual.statusEveryTicks r.word? (field 2) }

def toJson (c : RuntimeConfig) : Json :=
  .obj [("tick_interval_ms", .ofWord c.tickIntervalMs), ("ledger_path", .str c.ledgerPath),
    ("status_every_ticks", .ofWord c.statusEveryTicks)]

end RuntimeConfig

namespace ArchiveConfig

def names : List String := ["enabled", "path", "depth", "flush_interval_secs"]

def ofJson? (r : Json.Reader) (value : Json) : Option ArchiveConfig := do
  let found ← Json.record? r names value
  let field := Json.fieldAt found
  let usual : ArchiveConfig := {}
  return {
    enabled := ← Json.optional? usual.enabled r.truth? (field 0)
    path := ← Json.optional? usual.path r.text? (field 1)
    depth := ← Json.optional? usual.depth r.word? (field 2)
    flushIntervalSecs := ← Json.optional? usual.flushIntervalSecs r.word? (field 3) }

def toJson (a : ArchiveConfig) : Json :=
  .obj [("enabled", .bool a.enabled), ("path", .str a.path), ("depth", .ofWord a.depth),
    ("flush_interval_secs", .ofWord a.flushIntervalSecs)]

end ArchiveConfig

namespace PaperConfig

def names : List String :=
  ["start_mid", "half_spread_bps", "level_step_bps", "levels", "level_amount", "drift_bps",
   "swing_ticks", "maker_lag_ticks", "base_balance", "quote_balance"]

def ofJson? (r : Json.Reader) (value : Json) : Option PaperConfig := do
  let found ← Json.record? r names value
  let field := Json.fieldAt found
  let usual : PaperConfig := {}
  return {
    startMid := ← Json.optional? usual.startMid r.decimal? (field 0)
    halfSpreadBps := ← Json.optional? usual.halfSpreadBps r.decimal? (field 1)
    levelStepBps := ← Json.optional? usual.levelStepBps r.decimal? (field 2)
    levels := ← Json.optional? usual.levels r.word? (field 3)
    levelAmount := ← Json.optional? usual.levelAmount r.decimal? (field 4)
    driftBps := ← Json.optional? usual.driftBps r.decimal? (field 5)
    swingTicks := ← Json.optional? usual.swingTicks r.word? (field 6)
    makerLagTicks := ← Json.optional? usual.makerLagTicks r.word? (field 7)
    baseBalance := ← Json.optional? usual.baseBalance r.decimal? (field 8)
    quoteBalance := ← Json.optional? usual.quoteBalance r.decimal? (field 9) }

def toJson (p : PaperConfig) : Json :=
  .obj [("start_mid", .ofDecimal p.startMid), ("half_spread_bps", .ofDecimal p.halfSpreadBps),
    ("level_step_bps", .ofDecimal p.levelStepBps), ("levels", .ofWord p.levels),
    ("level_amount", .ofDecimal p.levelAmount), ("drift_bps", .ofDecimal p.driftBps),
    ("swing_ticks", .ofWord p.swingTicks), ("maker_lag_ticks", .ofWord p.makerLagTicks),
    ("base_balance", .ofDecimal p.baseBalance), ("quote_balance", .ofDecimal p.quoteBalance)]

end PaperConfig

namespace Config

def names : List String := ["maker", "taker", "strategy", "runtime", "archive", "paper"]

def ofJson? (r : Json.Reader) (value : Json) : Option Config := do
  let found ← Json.record? r names value
  let field := Json.fieldAt found
  let usual : Config := {}
  return {
    maker := ← Json.optional? usual.maker (MarketConfig.ofJson? r) (field 0)
    taker := ← Json.optional? usual.taker (MarketConfig.ofJson? r) (field 1)
    strategy := ← Json.optional? usual.strategy (StrategyConfig.ofJson? r) (field 2)
    runtime := ← Json.optional? usual.runtime (RuntimeConfig.ofJson? r) (field 3)
    archive := ← Json.optional? usual.archive (ArchiveConfig.ofJson? r) (field 4)
    paper := ← Json.optional? usual.paper (PaperConfig.ofJson? r) (field 5) }

def toJson (c : Config) : Json :=
  .obj [("maker", c.maker.toJson), ("taker", c.taker.toJson), ("strategy", c.strategy.toJson),
    ("runtime", c.runtime.toJson), ("archive", c.archive.toJson), ("paper", c.paper.toJson)]

end Config

end MarketMaker
