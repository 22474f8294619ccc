import MarketMaker.Decimal.Basic
/-!
Sums, products and quotients as far as the rest of the library knows them: a result or an overflow.
What is built on decimals takes the arithmetic as a parameter; the standard one is chosen where a
program is put together.
-/

namespace MarketMaker

/-- The operation whose result was out of range. -/
inductive Overflow
  | addition
  | subtraction
  | multiplication
  | division
deriving DecidableEq

namespace Overflow

def message : Overflow → String
  | addition => "Addition overflowed"
  | subtraction => "Subtraction overflowed"
  | multiplication => "Multiplication overflowed"
  | division => "Division overflowed"

end Overflow

/-- A computation that stops at the first overflow. -/
abbrev Checked := Except Overflow

/-- How sums, differences, products and quotients of decimals come about. -/
class Arithmetic where
  add : Decimal → Decimal → Checked Decimal
  sub : Decimal → Decimal → Checked Decimal
  mul : Decimal → Decimal → Checked Decimal
  div : Decimal → Decimal → Checked Decimal

namespace Decimal

variable [Arithmetic]

def add (a b : Decimal) : Checked Decimal := Arithmetic.add a b

def sub (a b : Decimal) : Checked Decimal := Arithmetic.sub a b

def mul (a b : Decimal) : Checked Decimal := Arithmetic.mul a b

/-- Division; the callers see to it that the divisor is not zero. -/
def div (a b : Decimal) : Checked Decimal := Arithmetic.div a b

/-- Zero where the divisor is zero. -/
def divOrZero (a b : Decimal) : Checked Decimal :=
  if b.mantissa = 0 then .ok 0 else a.div b

end Decimal

end MarketMaker
