import MarketMaker.Decimal.Rounding
import Mathlib.Tactic
import Mathlib.Data.Rat.Floor
/-!
The number that a decimal stands for. Order, extrema, sign and whole parts of decimals are those of
their values, so that statements about amounts and prices are statements about rational numbers.
-/

namespace MarketMaker

theorem tenTo_eq_pow (n : ℕ) : tenTo n = 10 ^ n := rfl

theorem twoTo_eq_pow (n : ℕ) : twoTo n = 2 ^ n := rfl

namespace Decimal

theorem value_eq (a : Decimal) : a.value = (a.coefficient : ℚ) / 10 ^ a.scale := by
  simp only [value, tenTo_eq_pow, Nat.cast_pow, Nat.cast_ofNat]

theorem pow_ten_pos (n : ℕ) : (0 : ℚ) < 10 ^ n := by positivity

theorem coefficient_natAbs (a : Decimal) : a.coefficient.natAbs = a.mantissa := by
  unfold coefficient
  split <;> simp

@[simp] theorem value_zero : (0 : Decimal).value = 0 := by
  change ((0 : Int) : ℚ) / _ = 0
  simp

@[simp] theorem value_one : (1 : Decimal).value = 1 := by
  change ((1 : Int) : ℚ) / ((1 : ℕ) : ℚ) = 1
  simp

@[simp] theorem value_neg (a : Decimal) : (-a).value = -a.value := by
  rw [value_eq, value_eq, coefficient_neg]
  change ((-a.coefficient : Int) : ℚ) / 10 ^ a.scale = _
  push_cast
  ring

theorem value_ofWord (n : UInt64) : (ofWord n).value = n.toNat := by
  change (((n.toNat : ℕ) : ℤ) : ℚ) / ((1 : ℕ) : ℚ) = _
  simp

theorem value_eq_zero_iff (a : Decimal) : a.value = 0 ↔ a.mantissa = 0 := by
  rw [value_eq, div_eq_zero_iff, ← coefficient_natAbs]
  have := pow_ten_pos a.scale
  constructor
  · intro given
    rcases given with zero | zero
    · simpa using zero
    · linarith
  · intro zero
    left
    simpa using zero

/-- The values at a common scale. -/
theorem cross_le_iff (a b : Decimal) :
    a.coefficient * tenTo b.scale ≤ b.coefficient * tenTo a.scale ↔ a.value ≤ b.value := by
  rw [value_eq, value_eq, div_le_div_iff₀ (pow_ten_pos _) (pow_ten_pos _), tenTo_eq_pow,
    tenTo_eq_pow]
  exact_mod_cast Iff.rfl

theorem le_iff_value {a b : Decimal} : a ≤ b ↔ a.value ≤ b.value :=
  cross_le_iff a b

theorem lt_iff_value {a b : Decimal} : a < b ↔ a.value < b.value := by
  rw [← not_le, ← cross_le_iff, not_le]
  rfl

theorem not_lt_iff_value {a b : Decimal} : ¬ a < b ↔ b.value ≤ a.value := by
  rw [lt_iff_value, not_lt]

theorem not_le_iff_value {a b : Decimal} : ¬ a ≤ b ↔ b.value < a.value := by
  rw [le_iff_value, not_le]

theorem pos_iff_value {a : Decimal} : 0 < a ↔ 0 < a.value := by
  rw [lt_iff_value, value_zero]

theorem nonneg_iff_value {a : Decimal} : 0 ≤ a ↔ 0 ≤ a.value := by
  rw [le_iff_value, value_zero]

theorem nonpos_iff_value {a : Decimal} : a ≤ 0 ↔ a.value ≤ 0 := by
  rw [le_iff_value, value_zero]

theorem not_nonpos_iff_value {a : Decimal} : ¬ a ≤ 0 ↔ 0 < a.value := by
  rw [nonpos_iff_value, not_le]

theorem value_min (a b : Decimal) : (min a b).value = min a.value b.value := by
  change (if b < a then b else a).value = _
  split
  next less => rw [min_eq_right (lt_iff_value.1 less).le]
  next notLess => rw [min_eq_left (not_lt_iff_value.1 notLess)]

theorem value_max (a b : Decimal) : (max a b).value = max a.value b.value := by
  change (if a < b then b else a).value = _
  split
  next less => rw [max_eq_right (lt_iff_value.1 less).le]
  next notLess => rw [max_eq_left (not_lt_iff_value.1 notLess)]

theorem value_eq_signed (a : Decimal) :
    a.value = if a.negative then -((a.mantissa : ℚ) / 10 ^ a.scale)
      else (a.mantissa : ℚ) / 10 ^ a.scale := by
  rw [value_eq, coefficient]
  split <;> push_cast <;> ring

/-! ### Whole parts -/

/-- The whole part of the magnitude. -/
def whole (a : Decimal) : ℕ := a.mantissa / tenTo a.scale

theorem value_trunc (a : Decimal) :
    a.trunc.value = if a.negative then -(a.whole : ℚ) else a.whole := by
  rw [value_eq_signed]
  simp [trunc, whole]

theorem value_beyond (a : Decimal) (fraction : a.hasFraction = true) :
    (a.beyond fraction).value = if a.negative then -((a.whole : ℚ) + 1) else a.whole + 1 := by
  rw [value_eq_signed]
  simp [beyond, whole]

theorem whole_mul_add_mod (a : Decimal) :
    a.whole * 10 ^ a.scale + a.mantissa % 10 ^ a.scale = a.mantissa :=
  Nat.div_add_mod' a.mantissa (10 ^ a.scale)

theorem floor_magnitude (a : Decimal) : ⌊(a.mantissa : ℚ) / 10 ^ a.scale⌋ = a.whole := by
  have unit := pow_ten_pos a.scale
  have parts := a.whole_mul_add_mod
  have rest := Nat.mod_lt a.mantissa (tenTo_pos a.scale)
  rw [tenTo_eq_pow] at rest
  rw [Int.floor_eq_iff, Int.cast_natCast, le_div_iff₀ unit, div_lt_iff₀ unit, add_mul, one_mul]
  constructor
  · have lower : a.whole * 10 ^ a.scale ≤ a.mantissa := by omega
    exact_mod_cast lower
  · have upper : a.mantissa < a.whole * 10 ^ a.scale + 10 ^ a.scale := by omega
    exact_mod_cast upper

theorem ceil_magnitude (a : Decimal) :
    ⌈(a.mantissa : ℚ) / 10 ^ a.scale⌉ = if a.hasFraction then (a.whole : ℤ) + 1 else a.whole := by
  have unit := pow_ten_pos a.scale
  have parts := a.whole_mul_add_mod
  have rest := Nat.mod_lt a.mantissa (tenTo_pos a.scale)
  have fractional : a.hasFraction = true ↔ a.mantissa % 10 ^ a.scale ≠ 0 := bne_iff_ne
  rw [tenTo_eq_pow] at rest
  rw [Int.ceil_eq_iff, lt_div_iff₀ unit, div_le_iff₀ unit]
  by_cases fraction : a.hasFraction = true
  · have tail := fractional.1 fraction
    have lower : a.whole * 10 ^ a.scale < a.mantissa := by omega
    have upper : a.mantissa ≤ (a.whole + 1) * 10 ^ a.scale := by
      rw [add_mul, one_mul]
      omega
    simp only [if_pos fraction, Int.cast_add, Int.cast_natCast, Int.cast_one, add_sub_cancel_right]
    exact ⟨by exact_mod_cast lower, by exact_mod_cast upper⟩
  · have noTail : a.mantissa % 10 ^ a.scale = 0 := not_not.1 (mt fractional.2 fraction)
    have exact : a.mantissa = a.whole * 10 ^ a.scale := by omega
    have value : (a.mantissa : ℚ) = a.whole * 10 ^ a.scale := by exact_mod_cast exact
    simp only [if_neg fraction, Int.cast_natCast, value]
    constructor <;> nlinarith

theorem value_floor (a : Decimal) : a.floor.value = ⌊a.value⌋ := by
  rw [value_eq_signed a]
  cases sign : a.negative with
  | true =>
    simp only [if_true, Int.floor_neg, ceil_magnitude]
    by_cases fraction : a.hasFraction = true
    · simp [floor, fraction, sign, value_beyond]
    · simp [floor, fraction, sign, value_trunc]
  | false =>
    simp only [Bool.false_eq_true, if_false, floor_magnitude]
    by_cases fraction : a.hasFraction = true
    · simp [floor, fraction, sign, value_trunc]
    · simp [floor, fraction, sign, value_trunc]

theorem value_ceil (a : Decimal) : a.ceil.value = ⌈a.value⌉ := by
  rw [value_eq_signed a]
  cases sign : a.negative with
  | true =>
    simp only [if_true, Int.ceil_neg, floor_magnitude]
    by_cases fraction : a.hasFraction = true
    · simp [ceil, fraction, sign, value_trunc]
    · simp [ceil, fraction, sign, value_trunc]
  | false =>
    simp only [Bool.false_eq_true, if_false, ceil_magnitude]
    by_cases fraction : a.hasFraction = true
    · simp [ceil, fraction, sign, value_beyond]
    · simp [ceil, fraction, sign, value_trunc]

end Decimal

end MarketMaker
