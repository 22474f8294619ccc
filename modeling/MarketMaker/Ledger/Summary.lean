import MarketMaker.Ledger.Basic
import MarketMaker.Text.Column
/-!
The ledger for people: totals, counts of quote events, and the last hedges.
-/

namespace MarketMaker

namespace Ledger

def banner : List String :=
  ["╔════════════════════════════════════════════════════════════╗",
   "║                    XEMM LEDGER STATUS                      ║",
   "╚════════════════════════════════════════════════════════════╝"]

def totalsLines (state : SavedState) : List String :=
  ["",
   "💰 Profit",
   "   ├─ Total Profit:     " ++ state.profit.total.toText,
   "   ├─ Hedged Fills:     " ++ toString state.profit.hedgeCount,
   "   ├─ Unhedged Fills:   " ++ toString state.profit.unhedgedCount,
   "   ├─ Halted:           " ++ (if state.halted then "true" else "false"),
   "   └─ Last Updated:     " ++ state.lastSaved.toPlainText ++ " UTC"]

def activityLines (ledger : Ledger) : List String :=
  "" :: "📈 Quote Activity" ::
    eventNames.map fun name =>
      "   ├─ " ++ Text.left 17 (name ++ ":") ++ " " ++ toString (ledger.eventCount name)

/-- How a fill was hedged or, if a part of that is missing, why it was not. -/
def hedgeLine (h : HedgeEntry) : String :=
  match h.hedgeOrderId, h.hedgePrice, h.hedgeAmount with
  | some id, some price, some amount => s!"   ├─ Hedge: {amount} @ {price} ({id})"
  | _, _, _ => "   ├─ Reason: " ++ h.reason.getD "unknown"

def entryLines (h : HedgeEntry) : List String :=
  ["   ┌─ " ++ h.time.toPlainText ++ s!" {h.status} {h.fillSide} {h.fillAmount} @ {h.fillPrice}",
   hedgeLine h,
   "   └─ Profit: " ++ h.profit.toText]

def historyLines (entries : List HedgeEntry) : List String :=
  if entries.isEmpty then []
  else "" :: "🔁 Recent Hedges" :: entries.flatMap entryLines

def missingLines (path : String) : List String :=
  ["",
   "❌ Database not found: " ++ path,
   "   The engine has not been started yet, or the database path is incorrect."]

def unsavedLines : List String :=
  ["", "❌ No saved state found in database."]

def asText (lines : List String) : String :=
  String.join (lines.map (· ++ "\n"))

/-- What is shown of the ledger kept at `path`, if there is one, with its last `limit` hedges. -/
def summary (path : String) (ledger : Option Ledger) (limit : Nat) (now : Instant) :
    Except StoreError String :=
  match ledger with
  | none => .ok (asText (banner ++ missingLines path))
  | some ledger =>
    match ledger.load? now with
    | none => .ok (asText (banner ++ unsavedLines))
    | some state => do
      let entries ← ledger.recentHedges limit now
      return asText (banner ++ totalsLines state ++ ledger.activityLines ++ historyLines entries ++
        [""])

end Ledger

end MarketMaker
