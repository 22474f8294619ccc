import MarketMaker.Proofs.Decimal.Magnitude
import MarketMaker.Tick
/-!
Values between two multiples of a step. The quotient by the step is rounded before it is made whole, and
the multiple is rounded once more. So a result is the decimal nearest to a whole number of steps, and it
lies on the wrong side of the value exactly where the quotient was rounded to a whole number, or to a half.
-/

namespace MarketMaker

namespace Decimal

variable {a : Decimal} {x : ℚ}

/-- The number is that of a decimal, so that rounding does not change it. -/
def IsValue (x : ℚ) : Prop :=
  ∃ a : Decimal, a.value = x

theorem IsValue.nearest (given : IsValue x) : nearest x = x := by
  obtain ⟨a, rfl⟩ := given
  exact nearest_value a

theorem isValue_intCast {n : ℤ} (small : n.natAbs < twoTo 96) : IsValue n := by
  refine ⟨⟨decide (n < 0), n.natAbs, 0, small, zero_le_places⟩, ?_⟩
  rw [value_eq_signed]
  rcases lt_or_ge n 0 with negative | nonneg
  · have magnitude : ((n.natAbs : ℕ) : ℚ) = -n := by
      rw [← Int.cast_natCast, Int.ofNat_natAbs_of_nonpos negative.le, Int.cast_neg]
    simp [negative, magnitude]
  · have magnitude : ((n.natAbs : ℕ) : ℚ) = n := by
      rw [← Int.cast_natCast, Int.natAbs_of_nonneg nonneg]
    simp [nonneg, magnitude]

theorem isValue_half {n : ℕ} (small : 10 * (n : ℚ) < 2 ^ 96) : IsValue (n + 1 / 2) := by
  have fits : 10 * n + 5 < twoTo 96 := by
    have small' : 10 * n < 2 ^ 96 := by exact_mod_cast small
    rw [twoTo_eq_pow]
    omega
  refine ⟨⟨false, 10 * n + 5, 1, fits, by decide⟩, ?_⟩
  rw [value_eq_signed]
  push_cast
  ring

/-! ### Marks that rounding does not pass -/

theorem IsValue.le_of_rounded {mark : ℚ} (given : IsValue mark) (rounded : a.value = Decimal.nearest x)
    (le : mark ≤ x) : mark ≤ a.value := by
  obtain ⟨d, rfl⟩ := given
  exact rounded ▸ le_nearest le

theorem IsValue.of_rounded_le {mark : ℚ} (given : IsValue mark) (rounded : a.value = Decimal.nearest x)
    (le : x ≤ mark) : a.value ≤ mark := by
  obtain ⟨d, rfl⟩ := given
  exact rounded ▸ nearest_le le

/-- A number that was rounded to a decimal stays above the whole numbers it was above. -/
theorem intCast_le_of_rounded (rounded : a.value = nearest x) {n : ℤ} (le : (n : ℚ) ≤ x) :
    (n : ℚ) ≤ a.value := by
  by_cases small : n.natAbs < twoTo 96
  · exact (isValue_intCast small).le_of_rounded rounded le
  · have bounds := abs_le.1 a.abs_value_le_greatest
    rw [greatest] at bounds
    rcases le_total n 0 with negative | positive
    · have far : n ≤ -2 ^ 96 := by
        rw [twoTo_eq_pow] at small
        omega
      have far' : (n : ℚ) ≤ -2 ^ 96 := by exact_mod_cast far
      linarith
    · -- Half a unit below such a number there is no decimal any more.
      have far : 2 ^ 96 ≤ n := by
        rw [twoTo_eq_pow] at small
        omega
      have far' : (2 : ℚ) ^ 96 ≤ n := by exact_mod_cast far
      have near := abs_le.1 (abs_nearest_sub_le x)
      rw [← rounded] at near
      linarith

theorem le_intCast_of_rounded (rounded : a.value = nearest x) {n : ℤ} (le : x ≤ n) :
    a.value ≤ n := by
  have flipped : (-a).value = nearest (-x) := by rw [value_neg, rounded, nearest_neg]
  have above := intCast_le_of_rounded flipped (n := -n) (by push_cast; linarith)
  rw [value_neg] at above
  push_cast at above
  linarith

/-- A decimal with a fraction has a place for it, and less room for its whole part. -/
theorem lt_of_fraction (fraction : ∀ n : ℤ, a.value ≠ n) : 10 * |a.value| < (2 : ℚ) ^ 96 := by
  have placed : 1 ≤ a.scale := by
    by_contra none
    refine fraction a.coefficient ?_
    rw [value_eq, show a.scale = 0 by omega, pow_zero, div_one]
  have fits : (a.mantissa : ℚ) < 2 ^ 96 := by
    have := a.mantissa_lt
    rw [twoTo_eq_pow] at this
    exact_mod_cast this
  have tens : (10 : ℚ) ≤ 10 ^ a.scale := le_self_pow₀ (by norm_num) (by omega)
  rw [abs_value, ← mul_div_assoc, div_lt_iff₀ (pow_ten_pos _), mul_comm]
  exact mul_lt_mul fits tens (by norm_num) (by norm_num)

/-! ### The nearest whole number -/

/-- The nearest whole number, a half going away from zero. -/
def roundAway (x : ℚ) : ℤ :=
  if 0 ≤ x then ⌊x + 1 / 2⌋ else -⌊-x + 1 / 2⌋

theorem roundAway_of_nonneg (nonneg : 0 ≤ x) : roundAway x = ⌊x + 1 / 2⌋ :=
  if_pos nonneg

theorem roundAway_neg (x : ℚ) : roundAway (-x) = -roundAway x := by
  rcases lt_trichotomy x 0 with negative | rfl | positive
  · rw [roundAway_of_nonneg (by linarith), roundAway, if_neg (not_le.2 negative), neg_neg]
  · norm_num [roundAway]
  · rw [roundAway_of_nonneg positive.le, roundAway, if_neg (by linarith), neg_neg]

/-- The sign that a rounded number keeps is lost on a zero only. -/
theorem value_round_signed (a : Decimal) (mode : Rounding) {k : ℕ} (more : k < a.scale) :
    (a.round mode k).value = signed a.negative
      ((mode.quotient a.mantissa (tenTo (a.scale - k)) : ℚ) / 10 ^ k) := by
  rw [round, dif_pos more, value_eq_signed, signed]
  by_cases none : mode.quotient a.mantissa (tenTo (a.scale - k)) = 0 <;>
    cases sign : a.negative <;> simp [none]

theorem value_round_neg (a : Decimal) (mode : Rounding) (k : ℕ) :
    ((-a).round mode k).value = -(a.round mode k).value := by
  by_cases more : k < a.scale
  · have flipped := value_round_signed (-a) mode (k := k) more
    change _ = signed (!a.negative) ((mode.quotient a.mantissa (tenTo (a.scale - k)) : ℚ) / 10 ^ k) at flipped
    rw [flipped, value_round_signed a mode more]
    cases a.negative <;> simp [signed]
  · have same : (-a).round mode k = -a := dif_neg more
    rw [same, value_neg, round, dif_neg more]

theorem value_round_whole (a : Decimal) : (a.round .halfAwayFromZero 0).value = roundAway a.value := by
  have upward {b : Decimal} (nonneg : 0 ≤ b.value) :
      (b.round .halfAwayFromZero 0).value = roundAway b.value := by
    rw [value_round_halfAwayFromZero nonneg, roundAway_of_nonneg nonneg, pow_zero, mul_one, div_one]
  rcases le_total 0 a.value with nonneg | nonpos
  · exact upward nonneg
  · have flipped : 0 ≤ (-a).value := by rwa [value_neg, neg_nonneg]
    have result := upward flipped
    rw [value_round_neg, value_neg, roundAway_neg, Int.cast_neg] at result
    exact neg_inj.1 result

/-- The nearest whole number to a rounded number is nearest to the number itself, unless rounding took
it up to a half. -/
theorem near_floor_of_rounded (nonneg : 0 ≤ x) (rounded : a.value = nearest x) :
    |(⌊a.value + 1 / 2⌋ : ℚ) - x| ≤ 1 / 2 ↔ ¬ ∃ n : ℕ, x < n + 1 / 2 ∧ nearest x = n + 1 / 2 := by
  rw [← rounded]
  have near := abs_le.1 (abs_nearest_sub_le x)
  rw [← rounded] at near
  constructor
  · rintro close ⟨n, short, reached⟩
    rw [reached, show (n : ℚ) + 1 / 2 + 1 / 2 = ((n + 1 : ℕ) : ℚ) by push_cast; ring,
      Int.floor_natCast] at close
    push_cast at close
    have := (abs_le.1 close).2
    linarith
  intro unmet
  by_cases whole : ∃ n : ℤ, a.value = n
  · obtain ⟨n, same⟩ := whole
    have half : ⌊(n : ℚ) + 1 / 2⌋ = n := by
      rw [Int.floor_intCast_add]
      norm_num
    rw [same, half, ← same]
    exact abs_le.2 near
  have positive : 0 ≤ a.value := rounded ▸ nearest_nonneg nonneg
  have room := lt_of_fraction (fun n same => whole ⟨n, same⟩)
  rw [abs_of_nonneg positive] at room
  have lower := Int.floor_le (a.value + 1 / 2)
  have upper := Int.lt_floor_add_one (a.value + 1 / 2)
  obtain ⟨m, same⟩ := Int.eq_ofNat_of_zero_le (Int.floor_nonneg.2 (by linarith : 0 ≤ a.value + 1 / 2))
  rw [same, Int.cast_natCast] at lower upper ⊢
  -- The halves on both sides of the whole number are decimals, and rounding does not pass them.
  rw [abs_le]
  constructor
  · by_contra far
    rw [not_le] at far
    rcases le_or_gt a.value m with below | above
    · linarith
    · have kept := (isValue_half (n := m) (by linarith)).le_of_rounded rounded (by linarith)
      linarith
  · by_contra far
    rw [not_le] at far
    obtain ⟨n, rfl⟩ : ∃ n, m = n + 1 := by
      refine ⟨m - 1, ?_⟩
      have some' : (0 : ℚ) < m := by linarith
      have : 0 < m := by exact_mod_cast some'
      omega
    push_cast at far lower
    have kept := (isValue_half (n := n) (by linarith)).of_rounded_le rounded (by linarith)
    exact unmet ⟨n, by linarith, by linarith⟩

/-! ### Marks that rounding reaches -/

/-- Rounding takes the number up to a whole one. -/
def RisesToWhole (x : ℚ) : Prop :=
  ∃ n : ℤ, x < n ∧ nearest x = n

/-- Rounding takes the number down to a whole one. -/
def FallsToWhole (x : ℚ) : Prop :=
  ∃ n : ℤ, n < x ∧ nearest x = n

/-- Rounding takes the number away from zero to the half between two whole ones. -/
def GrowsToHalf (x : ℚ) : Prop :=
  ∃ n : ℤ, |x| < |(n : ℚ) + 1 / 2| ∧ nearest x = n + 1 / 2

theorem risesToWhole_neg : RisesToWhole (-x) ↔ FallsToWhole x := by
  constructor
  · rintro ⟨n, short, reached⟩
    rw [nearest_neg] at reached
    refine ⟨-n, ?_, ?_⟩ <;> push_cast <;> linarith
  · rintro ⟨n, short, reached⟩
    refine ⟨-n, ?_, ?_⟩
    · push_cast
      linarith
    · rw [nearest_neg, reached, Int.cast_neg]

/-- The whole number below a rounded number is below the exact one as well, unless rounding reached it. -/
theorem floor_of_rounded (rounded : a.value = nearest x) :
    x < ⌊a.value⌋ + 1 ∧ (⌊a.value⌋ ≤ x ↔ ¬ RisesToWhole x) := by
  refine ⟨?_, ?_, ?_⟩
  · by_contra more
    have kept := intCast_le_of_rounded rounded (n := ⌊a.value⌋ + 1) (by push_cast; linarith)
    push_cast at kept
    linarith [Int.lt_floor_add_one a.value]
  · rintro le ⟨n, short, reached⟩
    rw [← rounded] at reached
    rw [reached, Int.floor_intCast] at le
    linarith
  · intro unmoved
    by_contra less
    rw [not_le] at less
    have kept := le_intCast_of_rounded rounded less.le
    have same := le_antisymm kept (Int.floor_le a.value)
    exact unmoved ⟨⌊a.value⌋, less, rounded ▸ same⟩

theorem ceil_of_rounded (rounded : a.value = nearest x) :
    ⌈a.value⌉ - 1 < x ∧ (x ≤ ⌈a.value⌉ ↔ ¬ FallsToWhole x) := by
  have flipped : (-a).value = nearest (-x) := by rw [value_neg, rounded, nearest_neg]
  obtain ⟨below, side⟩ := floor_of_rounded flipped
  rw [value_neg, Int.floor_neg, Int.cast_neg] at below side
  rw [risesToWhole_neg, neg_le_neg_iff] at side
  exact ⟨by linarith, side⟩

theorem growsToHalf_neg : GrowsToHalf (-x) ↔ GrowsToHalf x := by
  have mirrored {y : ℚ} (grows : GrowsToHalf y) : GrowsToHalf (-y) := by
    obtain ⟨n, short, reached⟩ := grows
    have mirror : ((-n - 1 : ℤ) : ℚ) + 1 / 2 = -(n + 1 / 2) := by
      push_cast
      ring
    refine ⟨-n - 1, ?_, ?_⟩
    · rwa [mirror, abs_neg, abs_neg]
    · rw [mirror, nearest_neg, reached]
  exact ⟨fun grows => neg_neg x ▸ mirrored grows, mirrored⟩

theorem near_roundAway_of_rounded (rounded : a.value = nearest x) :
    |(roundAway a.value : ℚ) - x| ≤ 1 / 2 ↔ ¬ GrowsToHalf x := by
  have upward {b : Decimal} {y : ℚ} (nonneg : 0 ≤ y) (rounded : b.value = nearest y) :
      |(roundAway b.value : ℚ) - y| ≤ 1 / 2 ↔ ¬ GrowsToHalf y := by
    rw [roundAway_of_nonneg (rounded ▸ nearest_nonneg nonneg), near_floor_of_rounded nonneg rounded,
      not_iff_not]
    constructor
    · rintro ⟨n, short, reached⟩
      refine ⟨n, ?_, by exact_mod_cast reached⟩
      rw [abs_of_nonneg nonneg, Int.cast_natCast]
      exact short.trans_le (le_abs_self _)
    · rintro ⟨n, short, reached⟩
      have bound := nearest_nonneg nonneg
      rw [reached] at bound
      have least : (-1 : ℤ) < n := by
        have : ((-1 : ℤ) : ℚ) < n := by
          push_cast
          linarith
        exact_mod_cast this
      obtain ⟨n, rfl⟩ := Int.eq_ofNat_of_zero_le (by omega : 0 ≤ n)
      rw [abs_of_nonneg nonneg, abs_of_nonneg bound, Int.cast_natCast] at short
      exact ⟨n, short, by exact_mod_cast reached⟩
  rcases le_total 0 x with nonneg | nonpos
  · exact upward nonneg rounded
  · have flipped := upward (b := -a) (neg_nonneg.2 nonpos) (by rw [value_neg, rounded, nearest_neg])
    rwa [value_neg, roundAway_neg, Int.cast_neg, growsToHalf_neg, neg_sub_neg, abs_sub_comm] at flipped

/-- A number that is not rounded reaches nothing. -/
theorem IsValue.unmoved (given : IsValue x) :
    ¬ RisesToWhole x ∧ ¬ FallsToWhole x ∧ ¬ GrowsToHalf x := by
  rw [RisesToWhole, FallsToWhole, GrowsToHalf, given.nearest]
  refine ⟨?_, ?_, ?_⟩
  · rintro ⟨n, short, same⟩
    exact short.ne same
  · rintro ⟨n, short, same⟩
    exact short.ne' same
  · rintro ⟨n, short, same⟩
    exact short.ne (congrArg abs same)

end Decimal

namespace Tick

open Decimal (IsValue RisesToWhole FallsToWhole GrowsToHalf)

variable [Arithmetic] {value step result : Decimal}

/-- The steps in a value, as the division shows them. -/
def stepsIn (value step : Decimal) : ℚ :=
  Decimal.nearest (value.value / step.value)

/-- Two roundings lie between a value and a multiple: that of the quotient and that of the product. -/
theorem roundWith_value (rounds : Arithmetic.Rounds) (unit : 0 < step.value) {whole : Decimal → Decimal}
    (done : roundWith whole value step = .ok result) :
    ∃ steps, value.div step = .ok steps ∧ steps.value = stepsIn value step ∧
      result.value = Decimal.nearest ((whole steps).value * step.value) := by
  rw [roundWith, if_neg (Decimal.not_nonpos_iff_value.2 unit)] at done
  obtain ⟨steps, divided, multiplied⟩ := Checked.bind_ok.1 done
  exact ⟨steps, divided, rounds.div unit.ne' divided, rounds.mul multiplied⟩

/-- Rounding down finds the whole steps, and one more where the quotient rises to it. -/
theorem down_count (rounds : Arithmetic.Rounds) (unit : 0 < step.value)
    (done : Tick.down value step = .ok result) :
    result.value = Decimal.nearest (⌊stepsIn value step⌋ * step.value) ∧
      value.value / step.value < ⌊stepsIn value step⌋ + 1 ∧
      (⌊stepsIn value step⌋ ≤ value.value / step.value ↔
        ¬ RisesToWhole (value.value / step.value)) := by
  obtain ⟨steps, -, rounded, found⟩ := roundWith_value rounds unit done
  rw [Decimal.value_floor] at found
  rw [← rounded]
  exact ⟨found, Decimal.floor_of_rounded rounded⟩

/-- Rounding up finds the steps begun, and one less where the quotient falls to it. -/
theorem up_count (rounds : Arithmetic.Rounds) (unit : 0 < step.value)
    (done : Tick.up value step = .ok result) :
    result.value = Decimal.nearest (⌈stepsIn value step⌉ * step.value) ∧
      ⌈stepsIn value step⌉ - 1 < value.value / step.value ∧
      (value.value / step.value ≤ ⌈stepsIn value step⌉ ↔
        ¬ FallsToWhole (value.value / step.value)) := by
  obtain ⟨steps, -, rounded, found⟩ := roundWith_value rounds unit done
  rw [Decimal.value_ceil] at found
  rw [← rounded]
  exact ⟨found, Decimal.ceil_of_rounded rounded⟩

theorem nearest_count (rounds : Arithmetic.Rounds) (unit : 0 < step.value)
    (done : Tick.nearest value step = .ok result) :
    result.value = Decimal.nearest (Decimal.roundAway (stepsIn value step) * step.value) ∧
      (|(Decimal.roundAway (stepsIn value step) : ℚ) - value.value / step.value| ≤ 1 / 2 ↔
        ¬ GrowsToHalf (value.value / step.value)) := by
  obtain ⟨steps, -, rounded, found⟩ := roundWith_value rounds unit done
  rw [Decimal.value_round_whole] at found
  rw [← rounded]
  exact ⟨found, Decimal.near_roundAway_of_rounded rounded⟩

/-- Each rounding leads to the decimal that is nearest to a whole number of steps. If the quotient reaches
no whole number by being rounded, down is down and up is up. If moreover that many steps are a decimal, the
result is the next multiple on its side, and the nearest one if the quotient reaches no half; if the
quotient does reach one, the result is beyond it. -/
theorem multiples_bracket (rounds : Arithmetic.Rounds) (unit : 0 < step.value) :
    (∀ low, Tick.down value step = .ok low →
      low.value = Decimal.nearest (⌊stepsIn value step⌋ * step.value) ∧
      (¬ RisesToWhole (value.value / step.value) → low.value ≤ value.value) ∧
      (IsValue (⌊stepsIn value step⌋ * step.value) → low.value = ⌊stepsIn value step⌋ * step.value ∧
        value.value < low.value + step.value ∧
        (RisesToWhole (value.value / step.value) → value.value < low.value))) ∧
    (∀ high, Tick.up value step = .ok high →
      high.value = Decimal.nearest (⌈stepsIn value step⌉ * step.value) ∧
      (¬ FallsToWhole (value.value / step.value) → value.value ≤ high.value) ∧
      (IsValue (⌈stepsIn value step⌉ * step.value) → high.value = ⌈stepsIn value step⌉ * step.value ∧
        high.value - step.value < value.value ∧
        (FallsToWhole (value.value / step.value) → high.value < value.value))) ∧
    ∀ near, Tick.nearest value step = .ok near →
      near.value = Decimal.nearest (Decimal.roundAway (stepsIn value step) * step.value) ∧
      (IsValue (Decimal.roundAway (stepsIn value step) * step.value) →
        near.value = Decimal.roundAway (stepsIn value step) * step.value ∧
        (|near.value - value.value| ≤ step.value / 2 ↔
          ¬ GrowsToHalf (value.value / step.value))) := by
  refine ⟨fun low done => ?_, fun high done => ?_, fun near done => ?_⟩
  · obtain ⟨found, below, side⟩ := down_count rounds unit done
    rw [div_lt_iff₀ unit] at below
    rw [le_div_iff₀ unit] at side
    refine ⟨found, fun unmoved => ?_, fun given => ?_⟩
    · rw [found]
      exact Decimal.nearest_le (side.2 unmoved)
    · rw [given.nearest] at found
      refine ⟨found, by rw [found]; linarith, fun rises => ?_⟩
      rw [found]
      exact not_le.1 fun le => side.1 le rises
  · obtain ⟨found, above, side⟩ := up_count rounds unit done
    rw [lt_div_iff₀ unit] at above
    rw [div_le_iff₀ unit] at side
    refine ⟨found, fun unmoved => ?_, fun given => ?_⟩
    · rw [found]
      exact Decimal.le_nearest (side.2 unmoved)
    · rw [given.nearest] at found
      refine ⟨found, by rw [found]; linarith, fun falls => ?_⟩
      rw [found]
      exact not_le.1 fun le => side.1 le falls
  · obtain ⟨found, close⟩ := nearest_count rounds unit done
    refine ⟨found, fun given => ?_⟩
    rw [given.nearest] at found
    have scaled : near.value - value.value =
        (Decimal.roundAway (stepsIn value step) - value.value / step.value) * step.value := by
      rw [found, sub_mul, div_mul_cancel₀ _ unit.ne']
    have half : step.value / 2 = 1 / 2 * step.value := by ring
    refine ⟨found, ?_⟩
    rw [← close, scaled, abs_mul, abs_of_pos unit, half, mul_le_mul_iff_left₀ unit]

omit [Arithmetic] in
/-- The quotient -28.2 is a decimal, and so are the multiples next to it. -/
theorem multiples_bracket_quarter : ∃ value step low high near : Decimal,
    value.value = -7.05 ∧ step.value = 0.25 ∧ 0 < step.value ∧
    @Tick.down .rounding value step = .ok low ∧ low.value ≤ value.value ∧
    value.value < low.value + step.value ∧
    @Tick.up .rounding value step = .ok high ∧ value.value ≤ high.value ∧
    high.value - step.value < value.value ∧
    @Tick.nearest .rounding value step = .ok near ∧ |near.value - value.value| ≤ step.value / 2 := by
  let value : Decimal := ⟨true, 705, 2, by decide, by decide⟩
  let step : Decimal := ⟨false, 25, 2, by decide, by decide⟩
  have price : value.value = -7.05 := by norm_num [value, Decimal.value_eq, Decimal.coefficient]
  have width : step.value = 0.25 := by norm_num [step, Decimal.value_eq, Decimal.coefficient]
  have unit : 0 < step.value := by norm_num [width]
  have quotient : value.value / step.value = -28.2 := by norm_num [price, width]
  have given : IsValue (value.value / step.value) := by
    refine ⟨⟨true, 282, 1, by decide, by decide⟩, ?_⟩
    rw [quotient]
    norm_num [Decimal.value_eq, Decimal.coefficient]
  have steps : stepsIn value step = -28.2 := by rw [stepsIn, given.nearest, quotient]
  have floored : IsValue (⌊stepsIn value step⌋ * step.value) := by
    refine ⟨⟨true, 725, 2, by decide, by decide⟩, ?_⟩
    rw [steps, width]
    norm_num [Decimal.value_eq, Decimal.coefficient]
  have ceiled : IsValue (⌈stepsIn value step⌉ * step.value) := by
    refine ⟨⟨true, 700, 2, by decide, by decide⟩, ?_⟩
    rw [steps, width]
    norm_num [Decimal.value_eq, Decimal.coefficient]
  have rounded : IsValue (Decimal.roundAway (stepsIn value step) * step.value) := by
    refine ⟨⟨true, 700, 2, by decide, by decide⟩, ?_⟩
    rw [steps, width]
    norm_num [Decimal.roundAway, Decimal.value_eq, Decimal.coefficient]
  obtain ⟨down, up, nearest⟩ :=
    @multiples_bracket .rounding value step Arithmetic.rounding_rounds unit
  have runs : @Tick.down .rounding value step = .ok ⟨true, 725, 2, by decide, by decide⟩ ∧
      @Tick.up .rounding value step = .ok ⟨true, 700, 2, by decide, by decide⟩ ∧
      @Tick.nearest .rounding value step = .ok ⟨true, 700, 2, by decide, by decide⟩ := by
    decide +kernel
  have low := down _ runs.1
  have high := up _ runs.2.1
  have near := nearest _ runs.2.2
  exact ⟨value, step, _, _, _, price, width, unit,
    runs.1, low.2.1 given.unmoved.1, (low.2.2 floored).2.1,
    runs.2.1, high.2.1 given.unmoved.2.1, (high.2.2 ceiled).2.1,
    runs.2.2, (near.2 rounded).2.2 given.unmoved.2.2⟩

omit [Arithmetic] in
/-- Quotients that are rounded to a whole number or a half, and a multiple that is no decimal. -/
theorem multiples_missed : ∃ low high near beside : Decimal,
    @Tick.down .rounding (.of 29999999999999999999999999999 28) (.of 3 0) = .ok low ∧
    (Decimal.of 29999999999999999999999999999 28).value < low.value ∧
    @Tick.up .rounding (.of 30000000000000000000000000001 28) (.of 3 0) = .ok high ∧
    high.value < (Decimal.of 30000000000000000000000000001 28).value ∧
    @Tick.nearest .rounding (.of 14999999999999999999999999999 28) (.of 3 0) = .ok near ∧
    (Decimal.of 3 0).value / 2 < |near.value - (Decimal.of 14999999999999999999999999999 28).value| ∧
    @Tick.down .rounding (.of 19000000000000000000000000008 27) (.of 25 28) = .ok beside ∧
    ∀ n : ℤ, beside.value ≠ n * (Decimal.of 25 28).value := by
  have runs : @Tick.down .rounding (.of 29999999999999999999999999999 28) (.of 3 0) = .ok (.of 3 0) ∧
      @Tick.up .rounding (.of 30000000000000000000000000001 28) (.of 3 0) = .ok (.of 3 0) ∧
      @Tick.nearest .rounding (.of 14999999999999999999999999999 28) (.of 3 0) = .ok (.of 3 0) ∧
      @Tick.down .rounding (.of 19000000000000000000000000008 27) (.of 25 28) =
        .ok (.of 19000000000000000000000000008 27) := by
    decide +kernel
  have short : (Decimal.of 29999999999999999999999999999 28).value < (Decimal.of 3 0).value := by
    decide +kernel
  have beyond : (Decimal.of 3 0).value < (Decimal.of 30000000000000000000000000001 28).value := by
    decide +kernel
  have far : (Decimal.of 3 0).value / 2 <
      |(Decimal.of 3 0).value - (Decimal.of 14999999999999999999999999999 28).value| := by
    decide +kernel
  refine ⟨_, _, _, _, runs.1, short, runs.2.1, beyond, runs.2.2.1, far, runs.2.2.2, fun n same => ?_⟩
  have width : (Decimal.of 25 28).value = 25 / 10 ^ 28 := by decide +kernel
  have amount : (Decimal.of 19000000000000000000000000008 27).value =
      190000000000000000000000000080 / 10 ^ 28 := by decide +kernel
  -- The amount is 7600000000000000000000000003.2 steps.
  rw [width, amount, ← mul_div_assoc, div_left_inj' (by positivity)] at same
  have whole : (190000000000000000000000000080 : ℤ) = n * 25 := by exact_mod_cast same
  omega

end Tick

end MarketMaker
