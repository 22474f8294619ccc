import MarketMaker.Decimal.Checked
/-!
The running total of potential profit, with counts of hedged and unhedged fills. Counts are words
of 64 bits.
-/

namespace MarketMaker

structure Profit where
  total : Decimal
  hedgeCount : UInt64
  unhedgedCount : UInt64
deriving DecidableEq

namespace Profit

def none : Profit := ⟨0, 0, 0⟩

def recordHedge [Arithmetic] (tally : Profit) (profit : Decimal) : Checked Profit := do
  return { tally with total := ← tally.total.add profit, hedgeCount := tally.hedgeCount + 1 }

def recordUnhedged (tally : Profit) : Profit :=
  { tally with unhedgedCount := tally.unhedgedCount + 1 }

end Profit

end MarketMaker
