import MarketMaker.Decimal.Basic
/-!
Rounding to fewer places. Dropping digits cannot leave the range, so these functions are total.
-/

namespace MarketMaker

/-- The quotient rounded to nearest, a half going to the even neighbour. -/
def roundHalfEven (n d : Nat) : Nat :=
  let q := n / d
  let r := n % d
  if 2 * r < d ∨ (2 * r = d ∧ q % 2 = 0) then q else q + 1

/-- The quotient rounded to nearest, a half going up. -/
def roundHalfUp (n d : Nat) : Nat :=
  if 2 * (n % d) < d then n / d else n / d + 1

/-- How the digits beyond the last kept place are dropped; each acts on the magnitude. -/
inductive Rounding
  | halfEven
  | halfAwayFromZero
  | towardZero
deriving DecidableEq

namespace Rounding

/-- The rounded quotient of a magnitude. -/
def quotient : Rounding → Nat → Nat → Nat
  | halfEven, n, d => roundHalfEven n d
  | halfAwayFromZero, n, d => roundHalfUp n d
  | towardZero, n, d => n / d

theorem quotient_le (mode : Rounding) (n d : Nat) : mode.quotient n d ≤ n / d + 1 := by
  cases mode <;> simp only [quotient, roundHalfEven, roundHalfUp] <;> (try split) <;> omega

end Rounding

namespace Decimal

theorem quotient_lt (mode : Rounding) {n d : Nat} (small : n < twoTo 96) (large : 2 ≤ d) :
    mode.quotient n d < twoTo 96 := by
  have bound := mode.quotient_le n d
  have half : n / d ≤ n / 2 := Nat.div_le_div_left large (by decide)
  have room := one_lt_bound
  omega

/-- At most `places` places. A decimal that has no more is unchanged; a zero keeps its sign, but a
number that rounds to zero loses it. -/
def round (a : Decimal) (mode : Rounding) (places : Nat) : Decimal :=
  if more : places < a.scale then
    let m := mode.quotient a.mantissa (tenTo (a.scale - places))
    { negative := a.negative && (a.mantissa == 0 || m != 0)
      mantissa := m
      scale := places
      mantissa_lt := quotient_lt mode a.mantissa_lt (two_le_tenTo (by omega))
      scale_le := by have := a.scale_le; omega }
  else a

/-- The fraction is dropped; the sign stays, that of a zero too. -/
def trunc (a : Decimal) : Decimal :=
  { negative := a.negative
    mantissa := a.mantissa / tenTo a.scale
    scale := 0
    mantissa_lt := Nat.lt_of_le_of_lt (Nat.div_le_self _ _) a.mantissa_lt
    scale_le := zero_le_places }

/-- Whether there are digits other than zero behind the point. -/
def hasFraction (a : Decimal) : Bool :=
  a.mantissa % tenTo a.scale != 0

/-- One further from zero than the whole part; used where there is a fraction. -/
def beyond (a : Decimal) (fraction : a.hasFraction = true) : Decimal :=
  { negative := a.negative
    mantissa := a.mantissa / tenTo a.scale + 1
    scale := 0
    mantissa_lt := by
      have small := a.mantissa_lt
      have places : 0 < a.scale := by
        rcases Nat.eq_zero_or_pos a.scale with none | some
        · simp [hasFraction, none, tenTo_zero, Nat.mod_one] at fraction
        · exact some
      have half : a.mantissa / tenTo a.scale ≤ a.mantissa / 2 :=
        Nat.div_le_div_left (two_le_tenTo places) (by decide)
      have room := one_lt_bound
      omega
    scale_le := zero_le_places }

/-- The greatest whole number that is not above. -/
def floor (a : Decimal) : Decimal :=
  if fraction : a.hasFraction = true then
    if a.negative then a.beyond fraction else a.trunc
  else a.trunc

/-- The least whole number that is not below. -/
def ceil (a : Decimal) : Decimal :=
  if fraction : a.hasFraction = true then
    if a.negative then a.trunc else a.beyond fraction
  else a.trunc

end Decimal

end MarketMaker
