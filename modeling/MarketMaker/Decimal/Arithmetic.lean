import MarketMaker.Decimal.Checked
import MarketMaker.Decimal.Rounding
/-!
Rounding arithmetic. A result that is too long for the mantissa is rounded half-even to as many
places as fit; one whose whole part does not fit is an overflow.
-/

namespace MarketMaker

namespace Decimal

/-- The result, or the overflow if there is none. -/
def orOverflow (operation : Overflow) : Option Decimal → Checked Decimal
  | some a => .ok a
  | none => .error operation

/-- The least number of digits to drop so that `mantissa / 10 ^ scale` has at most 28 places and
its truncated mantissa fits. -/
def excess? (mantissa scale : Nat) : Option Nat :=
  (List.range' (scale - 28) (scale + 1 - (scale - 28))).find? fun n =>
    decide (mantissa / tenTo n < twoTo 96)

/-- `mantissa / 10 ^ scale` with as many places as fit, rounded half-even. Rounding up may make
the mantissa one digit too long; then one more is dropped. -/
def fit? (negative : Bool) (mantissa scale : Nat) : Option Decimal := do
  let n ← excess? mantissa scale
  let q := roundHalfEven mantissa (tenTo n)
  if q < twoTo 96 then ofParts? negative q (scale - n)
  else if scale = n then none
  else ofParts? negative (roundHalfEven q 10) (scale - n - 1)

/-- The signed sum of two coefficients at their common scale. -/
def fitSum? (a b : Int) (scale : Nat) : Option Decimal :=
  fit? (decide (a + b < 0)) (a + b).natAbs scale

/-- Adding zero gives the other summand with its own places. -/
def Rounded.add (a b : Decimal) : Checked Decimal :=
  if a.mantissa = 0 then .ok b
  else if b.mantissa = 0 then .ok a
  else
    let scale := max a.scale b.scale
    orOverflow .addition <| fitSum? (a.coefficient * tenTo (scale - a.scale))
      (b.coefficient * tenTo (scale - b.scale)) scale

def Rounded.sub (a b : Decimal) : Checked Decimal :=
  if a.mantissa = 0 then .ok (if b.mantissa = 0 then b else -b)
  else if b.mantissa = 0 then .ok a
  else
    let scale := max a.scale b.scale
    orOverflow .subtraction <| fitSum? (a.coefficient * tenTo (scale - a.scale))
      (-b.coefficient * tenTo (scale - b.scale)) scale

/-- Both mantissas fit in 32 bits. -/
def Short (a b : Decimal) : Prop :=
  a.mantissa < twoTo 32 ∧ b.mantissa < twoTo 32

instance (a b : Decimal) : Decidable (Short a b) :=
  inferInstanceAs (Decidable (_ ∧ _))

/-- A zero factor gives zero without places. A product of short factors with over 47 places is
zero, and a short product that rounds to zero is positive. -/
def Rounded.mul (a b : Decimal) : Checked Decimal :=
  if a.mantissa = 0 ∨ b.mantissa = 0 then .ok 0
  else if Short a b ∧ 47 < a.scale + b.scale then .ok 0
  else
    orOverflow .multiplication <|
      (fit? (a.negative != b.negative) (a.mantissa * b.mantissa) (a.scale + b.scale)).map
        fun p => if p.mantissa = 0 ∧ Short a b then { p with negative := false } else p

/-- A long division under way: digits of the quotient so far, remainder, places, and whether a
remainder other than zero was met. -/
structure Quotient where
  digits : Nat
  rest : Nat
  scale : Int
  inexact : Bool
deriving DecidableEq

namespace Quotient

/-- How many further digits the quotient has room for, at most nine. -/
def room (x : Quotient) : Nat :=
  let most := min 9 (28 - x.scale).toNat
  ((List.range (most + 1)).reverse.find? fun p => decide (x.digits * tenTo p < twoTo 96)).getD 0

/-- The last digit, rounded half-even on the remainder. -/
def roundLast? (divisor : Nat) (x : Quotient) : Option Quotient :=
  if 2 * x.rest < divisor ∨ (2 * x.rest = divisor ∧ x.digits % 2 = 0) then some x
  else if x.digits + 1 < twoTo 96 then some { x with digits := x.digits + 1 }
  else if x.scale ≤ 0 then none
  else some { x with digits := twoTo 96 / 10 + 1, scale := x.scale - 1 }

/-- One digit too many: it is rounded away, a half going to the even neighbour. -/
def dropLast? (x : Quotient) : Option Quotient :=
  if x.scale ≤ 0 then none
  else
    let q := x.digits / 10
    let last := x.digits % 10
    let up := 5 < last ∨ (last = 5 ∧ (x.rest ≠ 0 ∨ q % 2 = 1))
    some { x with digits := if up then q + 1 else q, scale := x.scale - 1 }

/-- The division continued until it is exact or no digit fits any more. Every round adds a place,
and there are at most 28, so the number of rounds is bounded. -/
def continue? (divisor : Nat) : Nat → Quotient → Option Quotient
  | 0, _ => none
  | rounds + 1, x =>
    if x.rest = 0 ∧ 0 ≤ x.scale then some x
    else
      let inexact := x.inexact || x.rest != 0
      let p := if x.rest = 0 then min 9 (-x.scale).toNat else x.room
      if x.rest ≠ 0 ∧ p < 9 ∧ p + x.scale < 0 then none
      else if p = 0 then roundLast? divisor { x with inexact }
      else
        let digits := x.digits * tenTo p
        if twoTo 96 ≤ digits then none
        else
          let grown := x.rest * tenTo p
          let next : Quotient :=
            { digits := digits + grown / divisor
              rest := grown % divisor
              scale := x.scale + p
              inexact }
          if next.digits < twoTo 96 then continue? divisor rounds next
          else dropLast? next

/-- Trailing zeros go eight at a time while the mantissa shows 32 zero bits. -/
def dropEights : Nat → Nat → Nat → Nat × Nat
  | 0, m, s => (m, s)
  | rounds + 1, m, s =>
    if m % twoTo 32 = 0 ∧ 8 ≤ s ∧ m % tenTo 8 = 0 then dropEights rounds (m / tenTo 8) (s - 8)
    else (m, s)

/-- Drops `k` trailing zeros if they are there and as many low bits are zero. -/
def dropZeros (k : Nat) (x : Nat × Nat) : Nat × Nat :=
  if x.1 % twoTo k = 0 ∧ k ≤ x.2 ∧ x.1 % tenTo k = 0 then (x.1 / tenTo k, x.2 - k) else x

/-- Mantissa and places of the finished quotient: an inexact one loses trailing zeros in groups
of eight, then at most once four, two and one. -/
def parts (x : Quotient) : Nat × Nat :=
  let places := x.scale.toNat
  if x.inexact then
    dropZeros 1 (dropZeros 2 (dropZeros 4 (dropEights 4 x.digits places)))
  else (x.digits, places)

end Quotient

/-- The quotient by a divisor other than zero. -/
def quotient? (a b : Decimal) : Option Decimal := do
  let start : Quotient :=
    { digits := a.mantissa / b.mantissa
      rest := a.mantissa % b.mantissa
      scale := (a.scale : Int) - b.scale
      inexact := false }
  let x ← start.continue? b.mantissa 58
  let (m, s) := x.parts
  ofParts? (m != 0 && a.negative != b.negative) m s

/-- Division; the callers see to it that the divisor is not zero. -/
def Rounded.div (a b : Decimal) : Checked Decimal :=
  if b.mantissa = 0 then .error .division
  else if a.mantissa = 0 then .ok 0
  else orOverflow .division (quotient? a b)

end Decimal

/-- The arithmetic that rounds where a result does not fit. -/
@[reducible] def Arithmetic.rounding : Arithmetic where
  add := Decimal.Rounded.add
  sub := Decimal.Rounded.sub
  mul := Decimal.Rounded.mul
  div := Decimal.Rounded.div

end MarketMaker
