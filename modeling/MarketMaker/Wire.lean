import MarketMaker.Instant.Text
import MarketMaker.Json.Record
import MarketMaker.OrderBook
import MarketMaker.Profit
/-!
The JSON forms of market data: sides, order types, pairs, levels, books, trades and profit totals.
Reading is strict. Times are texts in UTC.
-/

namespace MarketMaker

namespace Json

/-- The name of a choice without data: a text, or an object with that name as its only key and
null as its value. -/
def choice? : Json → Option String
  | str name => some name
  | obj [(name, null)] => some name
  | _ => none

def list? {α : Type} (read : Json → Option α) : Json → Option (List α)
  | arr items => items.mapM read
  | _ => none

end Json

namespace Side

def ofJson? (value : Json) : Option Side := do
  ofText? (← value.choice?)

def toJson (side : Side) : Json := .str side.text

end Side

namespace OrderType

def ofJson? (value : Json) : Option OrderType := do
  ofText? (← value.choice?)

def toJson (type : OrderType) : Json := .str type.text

end OrderType

namespace Instant

def ofJson? : Json → Option Instant
  | .str text => ofLenientText? text
  | _ => none

def toJson (t : Instant) : Json := .str t.toZuluText

end Instant

namespace Pair

def ofJson? (value : Json) : Option Pair := do
  let found ← Json.record? .strict ["base", "quote"] value
  let field := Json.fieldAt found
  return {
    base := ← Json.required? Json.Reader.strict.text? (field 0)
    quote := ← Json.required? Json.Reader.strict.text? (field 1) }

def toJson (pair : Pair) : Json :=
  .obj [("base", .str pair.base), ("quote", .str pair.quote)]

end Pair

namespace Level

def ofJson? (value : Json) : Option Level := do
  let found ← Json.record? .strict ["price", "amount"] value
  let field := Json.fieldAt found
  return {
    price := ← Json.required? Json.Reader.strict.decimal? (field 0)
    amount := ← Json.required? Json.Reader.strict.decimal? (field 1) }

def toJson (level : Level) : Json :=
  .obj [("price", .ofDecimal level.price), ("amount", .ofDecimal level.amount)]

end Level

namespace OrderBook

def ofJson? (value : Json) : Option OrderBook := do
  let found ← Json.record? .strict ["pair", "timestamp", "bids", "asks"] value
  let field := Json.fieldAt found
  return {
    pair := ← Json.required? Pair.ofJson? (field 0)
    time := ← Json.required? Instant.ofJson? (field 1)
    bids := ← Json.required? (Json.list? Level.ofJson?) (field 2)
    asks := ← Json.required? (Json.list? Level.ofJson?) (field 3) }

def toJson (book : OrderBook) : Json :=
  .obj [("pair", book.pair.toJson), ("timestamp", book.time.toJson),
    ("bids", .arr (book.bids.map Level.toJson)), ("asks", .arr (book.asks.map Level.toJson))]

end OrderBook

namespace Trade

def ofJson? (value : Json) : Option Trade := do
  let found ← Json.record? .strict
    ["pair", "timestamp", "price", "amount", "side", "is_aggressive"] value
  let field := Json.fieldAt found
  return {
    pair := ← Json.required? Pair.ofJson? (field 0)
    time := ← Json.required? Instant.ofJson? (field 1)
    price := ← Json.required? Json.Reader.strict.decimal? (field 2)
    amount := ← Json.required? Json.Reader.strict.decimal? (field 3)
    side := ← Json.required? Side.ofJson? (field 4)
    aggressive := ← Json.required? Json.Reader.strict.truth? (field 5) }

def toJson (trade : Trade) : Json :=
  .obj [("pair", trade.pair.toJson), ("timestamp", trade.time.toJson),
    ("price", .ofDecimal trade.price), ("amount", .ofDecimal trade.amount),
    ("side", trade.side.toJson), ("is_aggressive", .bool trade.aggressive)]

end Trade

namespace Profit

def ofJson? (value : Json) : Option Profit := do
  let found ← Json.record? .strict ["total", "hedge_count", "unhedged_count"] value
  let field := Json.fieldAt found
  return {
    total := ← Json.required? Json.Reader.strict.decimal? (field 0)
    hedgeCount := ← Json.required? Json.Reader.strict.word? (field 1)
    unhedgedCount := ← Json.required? Json.Reader.strict.word? (field 2) }

def toJson (tally : Profit) : Json :=
  .obj [("total", .ofDecimal tally.total), ("hedge_count", .ofWord tally.hedgeCount),
    ("unhedged_count", .ofWord tally.unhedgedCount)]

end Profit

end MarketMaker
