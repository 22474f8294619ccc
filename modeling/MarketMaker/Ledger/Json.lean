import MarketMaker.Json.Record
import MarketMaker.Ledger.Basic
/-!
The ledger as a JSON text, the form in which it is kept on disk.
-/

namespace MarketMaker

namespace Ledger

def ofOption : Option String → Json
  | some text => .str text
  | none => .null

def optionalText? : Json → Option (Option String)
  | .null => some none
  | .str text => some (some text)
  | _ => none

def totalsToJson (row : TotalsRow) : Json :=
  .arr [.str row.total, .ofWord row.hedgeCount, .ofWord row.unhedgedCount, .bool row.halted,
    .str row.lastSaved]

def totalsOfJson? : Json → Option (Option TotalsRow)
  | .null => some none
  | .arr [.str total, hedgeCount, unhedgedCount, .bool halted, .str lastSaved] => do
    let hedgeCount ← Json.Reader.strict.word? hedgeCount
    let unhedgedCount ← Json.Reader.strict.word? unhedgedCount
    some (some ⟨total, hedgeCount, unhedgedCount, halted, lastSaved⟩)
  | _ => none

def eventToJson (row : QuoteEvent) : Json :=
  .arr [.str row.time, .str row.venue, .str row.pair, .str row.event, .str row.side,
    .str row.orderId, ofOption row.price, ofOption row.amount, ofOption row.reason]

def eventOfJson? : Json → Option QuoteEvent
  | .arr [.str time, .str venue, .str pair, .str event, .str side, .str orderId, price, amount,
      reason] => do
    let price ← optionalText? price
    let amount ← optionalText? amount
    let reason ← optionalText? reason
    some ⟨time, venue, pair, event, side, orderId, price, amount, reason⟩
  | _ => none

def hedgeToJson (row : HedgeRow) : Json :=
  .arr [.str row.time, .str row.status, .str row.fillOrderId, .str row.fillSide,
    .str row.fillPrice, .str row.fillAmount, ofOption row.hedgeOrderId, .str row.hedgeSide,
    ofOption row.hedgePrice, ofOption row.hedgeAmount, .str row.profit, ofOption row.reason]

def hedgeOfJson? : Json → Option HedgeRow
  | .arr [.str time, .str status, .str fillOrderId, .str fillSide, .str fillPrice,
      .str fillAmount, hedgeOrderId, .str hedgeSide, hedgePrice, hedgeAmount, .str profit,
      reason] => do
    let hedgeOrderId ← optionalText? hedgeOrderId
    let hedgePrice ← optionalText? hedgePrice
    let hedgeAmount ← optionalText? hedgeAmount
    let reason ← optionalText? reason
    some ⟨time, status, fillOrderId, fillSide, fillPrice, fillAmount, hedgeOrderId, hedgeSide,
      hedgePrice, hedgeAmount, profit, reason⟩
  | _ => none

def toJson (ledger : Ledger) : Json :=
  .obj [("totals", (ledger.totals.map totalsToJson).getD .null),
    ("events", .arr (ledger.events.map eventToJson)),
    ("hedges", .arr (ledger.hedges.map hedgeToJson))]

def ofJson? (value : Json) : Option Ledger := do
  let totals ← totalsOfJson? (← value.field? "totals")
  let .arr events ← value.field? "events" | none
  let .arr hedges ← value.field? "hedges" | none
  let events ← events.mapM eventOfJson?
  let hedges ← hedges.mapM hedgeOfJson?
  some ⟨totals, events, hedges⟩

end Ledger

end MarketMaker
