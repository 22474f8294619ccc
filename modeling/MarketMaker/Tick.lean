import MarketMaker.Decimal.Checked
import MarketMaker.Decimal.Rounding
/-!
Multiples of a step: the tick of a price or the lot of a quantity. A step that is not positive
leaves every value as it is.
-/

namespace MarketMaker

variable [Arithmetic]

namespace Tick

/-- `value` in steps, made whole by `whole`, and back. -/
def roundWith (whole : Decimal → Decimal) (value step : Decimal) : Checked Decimal :=
  if step ≤ 0 then .ok value
  else do
    let steps ← value.div step
    (whole steps).mul step

/-- The nearest multiple; a half goes away from zero. -/
def nearest : Decimal → Decimal → Checked Decimal :=
  roundWith fun steps => steps.round .halfAwayFromZero 0

/-- The nearest multiple that is not above, as far as the division shows. -/
def down : Decimal → Decimal → Checked Decimal :=
  roundWith Decimal.floor

/-- The nearest multiple that is not below, as far as the division shows. -/
def up : Decimal → Decimal → Checked Decimal :=
  roundWith Decimal.ceil

end Tick

namespace Lot

/-- Quantities are only ever rounded down. -/
def down (quantity lot : Decimal) : Checked Decimal :=
  Tick.down quantity lot

end Lot

end MarketMaker
