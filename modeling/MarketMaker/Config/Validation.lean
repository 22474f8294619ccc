import MarketMaker.Config.Basic
import MarketMaker.Parameters
/-!
The rules a configuration has to keep, and the parameters that come of one that keeps them. Of
several broken rules the first is reported.
-/

namespace MarketMaker

/-- What is wrong with a configuration. -/
inductive ConfigError
  | orderAmount
  | negativeMinSpread
  | spreadOrder (minSpread spread : Decimal)
  | spreadTooWide
  | slippageBuffer
  | maxOrderAge
  | makerFee
  | takerFee
  | minOrderAmount
  | sameVenue (venue : String)
  | negativeStep (venue : String)
  | pair (venue text : String)
  | tickInterval
  | archiveDepth
  | flushIntervalTooLong
  | flushInterval
deriving DecidableEq

/-- The longest time that may be configured, one year in seconds. -/
def maxDurationSecs : UInt64 := 365 * 24 * 60 * 60

namespace ConfigError

/-- The message, and under it the cause if there is one. -/
def messages : ConfigError → List String
  | orderAmount => ["order_amount must be positive"]
  | negativeMinSpread => ["min_spread_bps must not be negative"]
  | spreadOrder minSpread spread =>
    [s!"min_spread_bps ({minSpread}) must be below spread_bps ({spread})"]
  | spreadTooWide => ["spread_bps must be below 10000"]
  | slippageBuffer => ["slippage_buffer_bps must be between 0 and 10000"]
  | maxOrderAge => [s!"max_order_age_secs must be between 1 and {maxDurationSecs}"]
  | makerFee => ["maker_fee must be in [0, 1)"]
  | takerFee => ["taker_fee must be in [0, 1)"]
  | minOrderAmount => ["min_order_amount must not be negative"]
  | sameVenue venue => ["maker and taker venues must differ (both '" ++ venue ++ "')"]
  | negativeStep venue => ["tick_size and lot_size must not be negative for " ++ venue]
  | .pair venue text => ["Invalid pair for venue " ++ venue, "Unknown trading pair: " ++ text]
  | tickInterval => ["tick_interval_ms must be positive"]
  | archiveDepth => ["archive depth must be positive"]
  | flushIntervalTooLong => [s!"archive flush_interval_secs must not exceed {maxDurationSecs}"]
  | flushInterval => ["Invalid archive flush_interval_secs"]

/-- The whole chain. -/
def message (e : ConfigError) : String :=
  ": ".intercalate e.messages

/-- The message without its cause. -/
def summary (e : ConfigError) : String :=
  e.messages.headD ""

end ConfigError

namespace Config

/-- A condition and the error of breaking it. -/
abbrev Rule := Bool × ConfigError

def strategyRules (s : StrategyConfig) : List Rule :=
  let rate (fee : Decimal) : Bool := decide (0 ≤ fee ∧ fee < 1)
  [ (decide (0 < s.orderAmount), .orderAmount),
    (decide (0 ≤ s.minSpreadBps), .negativeMinSpread),
    (decide (s.minSpreadBps < s.spreadBps), .spreadOrder s.minSpreadBps s.spreadBps),
    (decide (s.spreadBps < .of 10000 0), .spreadTooWide),
    (decide (0 ≤ s.slippageBufferBps ∧ s.slippageBufferBps < .of 10000 0), .slippageBuffer),
    (decide (0 < s.maxOrderAgeSecs ∧ s.maxOrderAgeSecs ≤ maxDurationSecs), .maxOrderAge),
    (rate s.makerFee, .makerFee),
    (rate s.takerFee, .takerFee),
    (decide (0 ≤ s.minOrderAmount), .minOrderAmount) ]

def marketRules (m : MarketConfig) : List Rule :=
  [ (decide (0 ≤ m.tickSize ∧ 0 ≤ m.lotSize), .negativeStep m.venue),
    ((Pair.ofText? m.pair).isSome, .pair m.venue m.pair) ]

/-- All rules, in the order in which they are checked. -/
def rules (c : Config) : List Rule :=
  strategyRules c.strategy ++
    (decide (c.maker.venue ≠ c.taker.venue), .sameVenue c.maker.venue) ::
    marketRules c.maker ++ marketRules c.taker ++
    [ (decide (0 < c.runtime.tickIntervalMs), .tickInterval),
      (decide (0 < c.archive.depth), .archiveDepth),
      (decide (c.archive.flushIntervalSecs ≤ maxDurationSecs), .flushIntervalTooLong) ]

def validate (c : Config) : Except ConfigError Unit :=
  match c.rules.find? fun rule => !rule.1 with
  | some (_, e) => .error e
  | none => .ok ()

/-- The market of a section. -/
def market (m : MarketConfig) : Except ConfigError Market :=
  match Pair.ofText? m.pair with
  | some pair => .ok ⟨m.venue, pair, m.tickSize, m.lotSize⟩
  | none => .error (.pair m.venue m.pair)

/-- The seconds as a span, if they are few enough to be counted in milliseconds of a signed
word. -/
def span? (seconds : UInt64) : Option Span :=
  if seconds.toNat ≤ (twoTo 63 - 1) / 1000 then some (Span.ofSeconds seconds.toNat) else none

/-- What the strategy runs with. -/
def parameters (c : Config) : Except ConfigError Parameters := do
  c.validate
  let s := c.strategy
  let maker ← market c.maker
  let taker ← market c.taker
  let maxOrderAge ← match span? s.maxOrderAgeSecs with
    | some span => pure span
    | none => throw .maxOrderAge
  return {
    maker
    taker
    orderAmount := s.orderAmount
    spread := s.spreadBps
    minSpread := s.minSpreadBps
    slippageBuffer := s.slippageBufferBps
    maxOrderAge
    makerFee := s.makerFee
    takerFee := s.takerFee
    minOrderAmount := s.minOrderAmount
    haltOnUnhedgedFill := s.haltOnUnhedgedFill }

end Config

namespace ArchiveConfig

def flushInterval (a : ArchiveConfig) : Except ConfigError Span :=
  match Config.span? a.flushIntervalSecs with
  | some span => .ok span
  | none => .error .flushInterval

end ArchiveConfig

end MarketMaker
