import MarketMaker.Proofs.Decimal.Value
/-!
Rounding as a function on rational numbers: half-even, to as many of 28 places as leave the
mantissa within 96 bits. It fixes the values of decimals, keeps order and is odd.
-/

namespace MarketMaker

/-! ### To whole numbers -/

/-- The nearest whole number, a half going to the even one. -/
def roundEven (x : ℚ) : ℤ :=
  if x - ⌊x⌋ < 1 / 2 then ⌊x⌋
  else if 1 / 2 < x - ⌊x⌋ then ⌊x⌋ + 1
  else if Even ⌊x⌋ then ⌊x⌋
  else ⌊x⌋ + 1

theorem floor_le_roundEven (x : ℚ) : ⌊x⌋ ≤ roundEven x := by
  unfold roundEven
  split_ifs <;> omega

theorem roundEven_le_floor_succ (x : ℚ) : roundEven x ≤ ⌊x⌋ + 1 := by
  unfold roundEven
  split_ifs <;> omega

@[simp] theorem roundEven_intCast (n : ℤ) : roundEven n = n := by
  simp [roundEven]

@[simp] theorem roundEven_zero : roundEven 0 = 0 := by
  simpa using roundEven_intCast 0

theorem le_roundEven_add_half (x : ℚ) : x ≤ roundEven x + 1 / 2 := by
  have upper := Int.lt_floor_add_one x
  unfold roundEven
  split_ifs <;> push_cast <;> linarith

theorem roundEven_sub_half_le (x : ℚ) : (roundEven x : ℚ) - 1 / 2 ≤ x := by
  have lower := Int.floor_le x
  unfold roundEven
  split_ifs <;> push_cast <;> linarith

theorem roundEven_eq_of_near {x : ℚ} {n : ℤ} (lower : (n : ℚ) - 1 / 2 < x) (upper : x < n + 1 / 2) :
    roundEven x = n := by
  have below := le_roundEven_add_half x
  have above := roundEven_sub_half_le x
  have less : (roundEven x : ℚ) < (n + 1 : ℤ) := by
    push_cast
    linarith
  have more : ((n - 1 : ℤ) : ℚ) < roundEven x := by
    push_cast
    linarith
  have less' := Int.cast_lt.1 less
  have more' := Int.cast_lt.1 more
  omega

theorem roundEven_mono {x y : ℚ} (le : x ≤ y) : roundEven x ≤ roundEven y := by
  rcases (Int.floor_le_floor le).lt_or_eq with less | same
  · calc
      roundEven x ≤ ⌊x⌋ + 1 := roundEven_le_floor_succ x
      _ ≤ ⌊y⌋ := less
      _ ≤ roundEven y := floor_le_roundEven y
  · unfold roundEven
    rw [← same]
    split_ifs <;> first | omega | linarith

theorem roundEven_neg (x : ℚ) : roundEven (-x) = -roundEven x := by
  by_cases whole : (⌊x⌋ : ℚ) = x
  · rw [← whole, ← Int.cast_neg, roundEven_intCast, roundEven_intCast]
  · have lower : (⌊x⌋ : ℚ) < x := lt_of_le_of_ne (Int.floor_le x) whole
    have upper := Int.lt_floor_add_one x
    have below : ⌊-x⌋ = -⌊x⌋ - 1 := by
      rw [Int.floor_eq_iff]
      push_cast
      constructor <;> linarith
    have parity : Even (-⌊x⌋ - 1) ↔ ¬ Even ⌊x⌋ := by
      rw [Int.even_sub_one, even_neg]
    unfold roundEven
    rw [below]
    push_cast
    simp only [parity]
    split_ifs <;> first | omega | (exfalso; linarith)

/-- Rounding a quotient of natural numbers. -/
theorem roundHalfEven_eq (n : ℕ) {d : ℕ} (positive : 0 < d) :
    (roundHalfEven n d : ℤ) = roundEven ((n : ℚ) / d) := by
  have unit : (0 : ℚ) < d := by exact_mod_cast positive
  have floor : ⌊(n : ℚ) / d⌋ = ((n / d : ℕ) : ℤ) := by
    exact Rat.floor_natCast_div_natCast n d
  have parts : (n : ℚ) / d - ((n / d : ℕ) : ℤ) = ((n % d : ℕ) : ℚ) / d := by
    have whole : ((n / d : ℕ) : ℚ) * d + (n % d : ℕ) = n := by
      exact_mod_cast Nat.div_add_mod' n d
    rw [eq_div_iff unit.ne', sub_mul, div_mul_cancel₀ _ unit.ne', Int.cast_natCast]
    linarith
  have less : ((n % d : ℕ) : ℚ) / d < 1 / 2 ↔ 2 * (n % d) < d := by
    rw [div_lt_div_iff₀ unit two_pos, one_mul, mul_comm]
    exact_mod_cast Iff.rfl
  have more : 1 / 2 < ((n % d : ℕ) : ℚ) / d ↔ d < 2 * (n % d) := by
    rw [div_lt_div_iff₀ two_pos unit, one_mul, mul_comm]
    exact_mod_cast Iff.rfl
  have even : Even ((n / d : ℕ) : ℤ) ↔ n / d % 2 = 0 := by
    rw [Int.even_coe_nat, Nat.even_iff]
  unfold roundEven roundHalfEven
  rw [floor, parts]
  simp only [less, more, even]
  generalize n / d = q
  generalize n % d = r
  split_ifs <;> push_cast <;> omega

/-! ### To decimals -/

namespace Decimal

/-- Whether a number that is rounded to so many places has a mantissa of 96 bits. -/
def FitsAt (x : ℚ) (k : ℕ) : Prop :=
  (roundEven (x * 10 ^ k)).natAbs < twoTo 96

instance (x : ℚ) : DecidablePred (FitsAt x) :=
  fun k => inferInstanceAs (Decidable ((roundEven (x * 10 ^ k)).natAbs < twoTo 96))

/-- The most places that fit. -/
def places (x : ℚ) : ℕ :=
  Nat.findGreatest (FitsAt x) 28

/-- The number rounded to as many places as fit. -/
def nearest (x : ℚ) : ℚ :=
  roundEven (x * 10 ^ places x) / 10 ^ places x

theorem fitsAt_neg (x : ℚ) : FitsAt (-x) = FitsAt x := by
  funext k
  rw [FitsAt, neg_mul, roundEven_neg, Int.natAbs_neg, FitsAt]

theorem nearest_neg (x : ℚ) : nearest (-x) = -nearest x := by
  have same : places (-x) = places x := by
    simp only [places, fitsAt_neg]
  rw [nearest, nearest, same, neg_mul, roundEven_neg, Int.cast_neg, neg_div]

theorem roundEven_nonneg {x : ℚ} (nonneg : 0 ≤ x) : 0 ≤ roundEven x := by
  simpa using roundEven_mono nonneg

theorem fitsAt_iff {x : ℚ} (nonneg : 0 ≤ x) (k : ℕ) :
    FitsAt x k ↔ roundEven (x * 10 ^ k) < (twoTo 96 : ℕ) := by
  have positive := roundEven_nonneg (mul_nonneg nonneg (pow_ten_pos k).le)
  rw [FitsAt]
  omega

theorem fitsAt_of_le {x : ℚ} (nonneg : 0 ≤ x) {j k : ℕ} (le : j ≤ k) (fits : FitsAt x k) :
    FitsAt x j := by
  rw [fitsAt_iff nonneg] at fits ⊢
  have scaled : x * 10 ^ j ≤ x * 10 ^ k :=
    mul_le_mul_of_nonneg_left (pow_le_pow_right₀ (by norm_num) le) nonneg
  exact (roundEven_mono scaled).trans_lt fits

theorem places_le (x : ℚ) : places x ≤ 28 :=
  Nat.findGreatest_le 28

/-- The places are known where one more would not fit. -/
theorem places_eq {x : ℚ} (nonneg : 0 ≤ x) {k : ℕ} (few : k ≤ 28) (fits : FitsAt x k)
    (last : k = 28 ∨ ¬ FitsAt x (k + 1)) : places x = k := by
  apply le_antisymm
  · by_contra more
    rcases last with most | tight
    · have := places_le x
      omega
    · have found : FitsAt x (places x) :=
        Nat.findGreatest_of_ne_zero (m := places x) rfl (by omega)
      exact tight (fitsAt_of_le nonneg (by omega) found)
  · exact Nat.le_findGreatest few fits

/-- A number that is whole at a scale that fits is not changed. -/
theorem nearest_of_whole {x : ℚ} {n : ℤ} {k : ℕ} (few : k ≤ 28) (whole : x * 10 ^ k = n)
    (small : n.natAbs < twoTo 96) : nearest x = x := by
  have fits : FitsAt x k := by
    rw [FitsAt, whole, roundEven_intCast]
    exact small
  have le : k ≤ places x := Nat.le_findGreatest few fits
  have scaled : x * 10 ^ places x = ((n * 10 ^ (places x - k) : ℤ) : ℚ) := by
    push_cast
    rw [← whole, mul_assoc, ← pow_add, Nat.add_sub_cancel' le]
  rw [nearest, scaled, roundEven_intCast, ← scaled, mul_div_cancel_right₀ _ (pow_ten_pos _).ne']

/-- Decimals are not rounded. -/
@[simp] theorem nearest_value (a : Decimal) : nearest a.value = a.value := by
  apply nearest_of_whole a.scale_le (n := a.coefficient)
  · rw [value_eq, div_mul_cancel₀ _ (pow_ten_pos _).ne']
  · rw [coefficient_natAbs]
    exact a.mantissa_lt

@[simp] theorem nearest_zero : nearest 0 = 0 := by
  simpa using nearest_value 0

/-- What a mantissa of 96 bits becomes when it is rounded up beyond them. -/
theorem carry_eq : roundHalfEven (twoTo 96) 10 = 7922816251426433759354395034 := by
  decide

/-- Where one more place would not fit, the mantissa is at least a tenth of the bound. -/
theorem le_roundEven_of_not_fitsAt {x : ℚ} (nonneg : 0 ≤ x) {k : ℕ} (tight : ¬ FitsAt x (k + 1)) :
    7922816251426433759354395034 ≤ roundEven (x * 10 ^ k) := by
  rw [fitsAt_iff nonneg, not_lt] at tight
  have large : ((twoTo 96 : ℕ) : ℚ) ≤ roundEven (x * 10 ^ (k + 1)) := by
    exact_mod_cast tight
  have near := roundEven_sub_half_le (x * 10 ^ (k + 1))
  have bound : ((twoTo 96 : ℕ) : ℚ) = 79228162514264337593543950336 := by
    norm_num [twoTo_eq_pow]
  rw [pow_succ] at near large
  have scaled : (79228162514264337593543950335.5 : ℚ) / 10 ≤ x * 10 ^ k := by
    rw [div_le_iff₀ (by norm_num)]
    rw [bound] at large
    calc
      (79228162514264337593543950335.5 : ℚ) = 79228162514264337593543950336 - 1 / 2 := by norm_num
      _ ≤ roundEven (x * (10 ^ k * 10)) - 1 / 2 := by linarith
      _ ≤ x * (10 ^ k * 10) := near
      _ = x * 10 ^ k * 10 := by ring
  have rounded := roundEven_mono scaled
  have value : roundEven ((79228162514264337593543950335.5 : ℚ) / 10) =
      7922816251426433759354395034 :=
    roundEven_eq_of_near (by norm_num) (by norm_num)
  omega

/-- A mantissa that rounds up to the bound loses one more digit. -/
theorem nearest_of_carry {x : ℚ} (nonneg : 0 ≤ x) {k : ℕ} (few : k ≤ 28)
    (carried : roundEven (x * 10 ^ (k + 1)) = (twoTo 96 : ℕ)) :
    nearest x = (7922816251426433759354395034 : ℕ) / 10 ^ k := by
  have tight : ¬ FitsAt x (k + 1) := by
    rw [FitsAt, carried]
    simp
  have rounded : roundEven (x * 10 ^ k) = 7922816251426433759354395034 := by
    apply le_antisymm _ (le_roundEven_of_not_fitsAt nonneg tight)
    have near := le_roundEven_add_half (x * 10 ^ (k + 1))
    have bound : (((twoTo 96 : ℕ) : ℤ) : ℚ) = 79228162514264337593543950336 := by
      norm_num [twoTo_eq_pow]
    rw [carried, bound, pow_succ] at near
    have upper : x * 10 ^ k ≤ 79228162514264337593543950336.5 / 10 := by
      rw [le_div_iff₀ (by norm_num)]
      linarith
    refine (roundEven_mono upper).trans_eq ?_
    exact roundEven_eq_of_near (by norm_num) (by norm_num)
  have last : places x = k := by
    apply places_eq nonneg few _ (Or.inr tight)
    rw [FitsAt, rounded]
    decide
  rw [nearest, last, rounded]
  norm_num

theorem nearest_mono_of_nonneg {x y : ℚ} (nonneg : 0 ≤ x) (le : x ≤ y) : nearest x ≤ nearest y := by
  have nonneg' : 0 ≤ y := nonneg.trans le
  have scaled (k : ℕ) : roundEven (x * 10 ^ k) ≤ roundEven (y * 10 ^ k) :=
    roundEven_mono (mul_le_mul_of_nonneg_right le (pow_ten_pos k).le)
  have fewer : places y ≤ places x := by
    rcases Nat.eq_zero_or_pos (places y) with none | some
    · omega
    · have fits : FitsAt y (places y) := Nat.findGreatest_of_ne_zero (m := places y) rfl (by omega)
      apply Nat.le_findGreatest (places_le y)
      rw [fitsAt_iff nonneg'] at fits
      rw [fitsAt_iff nonneg]
      exact (scaled _).trans_lt fits
  rcases fewer.eq_or_lt with same | fewer
  · rw [nearest, nearest, same]
    exact div_le_div_of_nonneg_right (by exact_mod_cast scaled _) (pow_ten_pos _).le
  · -- `y` has fewer places because its mantissa is too long; that of `x` is not.
    have fits : FitsAt x (places x) := Nat.findGreatest_of_ne_zero (m := places x) rfl (by omega)
    have tight : ¬ FitsAt y (places y + 1) := by
      intro more
      have := Nat.le_findGreatest (P := FitsAt y) (n := 28) (by have := places_le x; omega) more
      have : places y + 1 ≤ places y := this
      omega
    have small : (roundEven (x * 10 ^ places x) : ℚ) ≤ 79228162514264337593543950340 := by
      rw [fitsAt_iff nonneg] at fits
      have bound : ((twoTo 96 : ℕ) : ℤ) = 79228162514264337593543950336 := by decide
      rw [bound] at fits
      exact_mod_cast (by omega : roundEven (x * 10 ^ places x) ≤ 79228162514264337593543950340)
    have large : (7922816251426433759354395034 : ℚ) ≤ roundEven (y * 10 ^ places y) := by
      exact_mod_cast le_roundEven_of_not_fitsAt nonneg' tight
    calc
      nearest x ≤ 79228162514264337593543950340 / 10 ^ places x :=
        div_le_div_of_nonneg_right small (pow_ten_pos _).le
      _ ≤ 79228162514264337593543950340 / 10 ^ (places y + 1) :=
        div_le_div_of_nonneg_left (by norm_num) (pow_ten_pos _)
          (pow_le_pow_right₀ (by norm_num) fewer)
      _ = 7922816251426433759354395034 / 10 ^ places y := by
        rw [pow_succ, div_eq_div_iff (by positivity) (by positivity)]
        ring
      _ ≤ nearest y := div_le_div_of_nonneg_right large (pow_ten_pos _).le

theorem nearest_nonneg {x : ℚ} (nonneg : 0 ≤ x) : 0 ≤ nearest x := by
  simpa using nearest_mono_of_nonneg le_rfl nonneg

theorem nearest_nonpos {x : ℚ} (nonpos : x ≤ 0) : nearest x ≤ 0 := by
  have := nearest_nonneg (neg_nonneg.2 nonpos)
  rw [nearest_neg] at this
  linarith

theorem nearest_mono {x y : ℚ} (le : x ≤ y) : nearest x ≤ nearest y := by
  rcases le_total 0 x with nonneg | nonpos
  · exact nearest_mono_of_nonneg nonneg le
  · rcases le_total 0 y with nonneg' | nonpos'
    · exact (nearest_nonpos nonpos).trans (nearest_nonneg nonneg')
    · have flipped := nearest_mono_of_nonneg (neg_nonneg.2 nonpos') (neg_le_neg le)
      rw [nearest_neg, nearest_neg] at flipped
      linarith

/-- A number above a decimal is not rounded below it. -/
theorem le_nearest {a : Decimal} {x : ℚ} (le : a.value ≤ x) : a.value ≤ nearest x := by
  simpa using nearest_mono le

/-- A number below a decimal is not rounded above it. -/
theorem nearest_le {a : Decimal} {x : ℚ} (le : x ≤ a.value) : nearest x ≤ a.value := by
  simpa using nearest_mono le

end Decimal

end MarketMaker
