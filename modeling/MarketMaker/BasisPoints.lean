import MarketMaker.Decimal.Checked
/-!
Basis points: hundredths of a percent, used to shift prices and to measure distances between them.
-/

namespace MarketMaker

namespace Decimal

def tenThousand : Decimal := ofWord 10000

end Decimal

namespace BasisPoints

open Decimal (tenThousand)

variable [Arithmetic]

/-- 32 basis points are the rate 0.0032. -/
def toRate (bps : Decimal) : Checked Decimal :=
  bps.div tenThousand

def ofRate (rate : Decimal) : Checked Decimal :=
  rate.mul tenThousand

/-- `price * (1 - bps / 10000)` -/
def below (price bps : Decimal) : Checked Decimal := do
  let factor ← (1 : Decimal).sub (← toRate bps)
  price.mul factor

/-- `price * (1 + bps / 10000)` -/
def above (price bps : Decimal) : Checked Decimal := do
  let factor ← (1 : Decimal).add (← toRate bps)
  price.mul factor

/-- How far `a` is over `b`, in basis points of `reference`. -/
def spread (a b reference : Decimal) : Checked Decimal := do
  let distance ← a.sub b
  ofRate (← distance.divOrZero reference)

end BasisPoints

end MarketMaker
