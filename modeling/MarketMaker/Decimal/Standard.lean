import MarketMaker.Decimal.Arithmetic
/-!
The arithmetic of programs: results are rounded half-even to as many places as fit.
-/

namespace MarketMaker

instance : Arithmetic := .rounding

end MarketMaker
