import MarketMaker.Engine
import MarketMaker.Instant.Text
/-!
The ledger: what became of quotes and fills, and the totals to resume from. It keeps texts, as a
file does: numbers and times are written when they are recorded and read back when asked for.
-/

namespace MarketMaker

/-- A count that is too large to be kept. -/
inductive StoreError
  | countTooLarge
deriving DecidableEq

structure QuoteEvent where
  time : String
  venue : String
  pair : String
  event : String
  side : String
  orderId : OrderId
  price : Option String
  amount : Option String
  reason : Option String
deriving DecidableEq

structure HedgeRow where
  time : String
  status : String
  fillOrderId : OrderId
  fillSide : String
  fillPrice : String
  fillAmount : String
  hedgeOrderId : Option OrderId
  hedgeSide : String
  hedgePrice : Option String
  hedgeAmount : Option String
  profit : String
  reason : Option String
deriving DecidableEq

structure TotalsRow where
  total : String
  hedgeCount : UInt64
  unhedgedCount : UInt64
  halted : Bool
  lastSaved : String
deriving DecidableEq

/-- Rows are in the order in which they were recorded. -/
structure Ledger where
  totals : Option TotalsRow
  events : List QuoteEvent
  hedges : List HedgeRow
deriving DecidableEq

/-- The totals of a run. -/
structure SavedState where
  profit : Profit
  halted : Bool
  lastSaved : Instant
deriving DecidableEq

/-- A row of the hedge history as it is shown. -/
structure HedgeEntry where
  time : Instant
  status : String
  fillOrderId : OrderId
  fillSide : String
  fillPrice : Decimal
  fillAmount : Decimal
  hedgeOrderId : Option OrderId
  hedgePrice : Option Decimal
  hedgeAmount : Option Decimal
  profit : Decimal
  reason : Option String
deriving DecidableEq

namespace Ledger

def empty : Ledger := ⟨none, [], []⟩

/-- Counts are kept as signed words. -/
def fits (n : Nat) : Bool :=
  decide (n < twoTo 63)

/-- A number that cannot be read is zero. -/
def readDecimal (text : String) : Decimal :=
  (Decimal.ofText? text).getD 0

/-- A time that cannot be read is the time of reading. -/
def readTime (now : Instant) (text : String) : Instant :=
  (Instant.ofText? text).getD now

/-! ### Totals -/

/-- The totals in place of those saved before. -/
def save (ledger : Ledger) (state : SavedState) : Except StoreError Ledger :=
  if fits state.profit.hedgeCount.toNat ∧ fits state.profit.unhedgedCount.toNat then
    .ok { ledger with
      totals := some
        { total := state.profit.total.toText
          hedgeCount := state.profit.hedgeCount
          unhedgedCount := state.profit.unhedgedCount
          halted := state.halted
          lastSaved := state.lastSaved.toText } }
  else .error .countTooLarge

/-- The totals saved last, if any were. -/
def load? (ledger : Ledger) (now : Instant) : Option SavedState :=
  ledger.totals.map fun row =>
    { profit := ⟨readDecimal row.total, row.hedgeCount, row.unhedgedCount⟩
      halted := row.halted
      lastSaved := readTime now row.lastSaved }

/-! ### Quotes -/

/-- The event of a placement; only quotes that were placed are recorded. -/
def placementEvent? (venue : String) (pair : Pair) (now : Instant) :
    Side × Placement → Option QuoteEvent
  | (side, .placed id price amount) =>
    some
      { time := now.toText, venue, pair := pair.toText, event := "placed", side := side.text
        orderId := id, price := some price.toText, amount := some amount.toText, reason := none }
  | _ => none

/-- The events of quotes, in the order in which they are shown. -/
def eventNames : List String :=
  ["placed", "cancelled", "cancel_failed", "released", "orphan_cancelled"]

/-- The name of a cancellation's event. -/
def eventName : CancelOutcome → String
  | .cancelled .. => "cancelled"
  | .cancelFailed .. => "cancel_failed"
  | .released .. => "released"
  | .orphanCancelled .. => "orphan_cancelled"

def cancellationEvent (venue : String) (pair : Pair) (now : Instant) (outcome : CancelOutcome) :
    QuoteEvent :=
  let (id, side, reason) := match outcome with
    | .cancelled id side reason => (id, side, some reason.message)
    | .cancelFailed id side message => (id, side, some message)
    | .released id side => (id, side, none)
    | .orphanCancelled id side reason => (id, side, some reason.message)
  { time := now.toText, venue, pair := pair.toText, event := eventName outcome, side := side.text
    orderId := id, price := none, amount := none, reason }

/-- The events of one tick on the maker market. -/
def recordTick (ledger : Ledger) (venue : String) (pair : Pair) (report : TickReport)
    (now : Instant) : Ledger :=
  { ledger with
    events := ledger.events ++ report.placements.filterMap (placementEvent? venue pair now) ++
      report.cancellations.map (cancellationEvent venue pair now) }

/-- How many events of this name were recorded. -/
def eventCount (ledger : Ledger) (event : String) : Nat :=
  ledger.events.countP fun row => row.event == event

/-! ### Hedges -/

def hedgedRow (record : HedgeRecord) : HedgeRow :=
  { time := record.time.toText
    status := "hedged"
    fillOrderId := record.fillOrderId
    fillSide := record.fillSide.text
    fillPrice := record.fillPrice.toText
    fillAmount := record.fillAmount.toText
    hedgeOrderId := some record.hedgeOrderId
    hedgeSide := record.hedgeSide.text
    hedgePrice := some record.hedgePrice.toText
    hedgeAmount := some record.hedgeAmount.toText
    profit := record.profit.toText
    reason :=
      if 0 < record.unhedgedResidual then
        some ("unhedged residual " ++ record.unhedgedResidual.toText)
      else none }

def unhedgedRow (gap : UnhedgedFill) : HedgeRow :=
  { time := gap.fill.time.toText
    status := "unhedged"
    fillOrderId := gap.fill.orderId
    fillSide := gap.fill.side.text
    fillPrice := gap.fill.price.toText
    fillAmount := gap.fill.amount.toText
    hedgeOrderId := none
    hedgeSide := gap.fill.side.opposite.text
    hedgePrice := none
    hedgeAmount := none
    profit := "0"
    reason := some gap.reason.message }

/-- The row of an outcome; ignored fills leave none. -/
def outcomeRow? : HedgeOutcome → Option HedgeRow
  | .ignored => none
  | .hedged record => some (hedgedRow record)
  | .unhedged fill => some (unhedgedRow fill)

def recordOutcome (ledger : Ledger) (outcome : HedgeOutcome) : Ledger :=
  { ledger with hedges := ledger.hedges ++ (outcomeRow? outcome).toList }

def entry (now : Instant) (row : HedgeRow) : HedgeEntry :=
  { time := readTime now row.time
    status := row.status
    fillOrderId := row.fillOrderId
    fillSide := row.fillSide
    fillPrice := readDecimal row.fillPrice
    fillAmount := readDecimal row.fillAmount
    hedgeOrderId := row.hedgeOrderId
    hedgePrice := row.hedgePrice.map readDecimal
    hedgeAmount := row.hedgeAmount.map readDecimal
    profit := readDecimal row.profit
    reason := row.reason }

/-- The last rows of the hedge history, newest first. -/
def recentHedges (ledger : Ledger) (limit : Nat) (now : Instant) :
    Except StoreError (List HedgeEntry) :=
  if fits limit then .ok ((ledger.hedges.reverse.take limit).map (entry now))
  else .error .countTooLarge

end Ledger

end MarketMaker
