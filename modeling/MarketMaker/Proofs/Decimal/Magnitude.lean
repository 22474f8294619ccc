import MarketMaker.Proofs.Completion
import MarketMaker.Proofs.Decimal.Totality
/-!
Magnitudes of results. Where the operands keep within bounds a result is there and keeps within bounds
itself: rounding takes no result past a bound that is a decimal.
-/

namespace MarketMaker

namespace Decimal

/-! ### Rounding between bounds -/

theorem exists_natCast {n : ℕ} (small : n < twoTo 96) : ∃ a : Decimal, a.value = n :=
  ⟨⟨false, n, 0, small, zero_le_places⟩, by simp [value_eq, coefficient]⟩

theorem exists_place {k : ℕ} (few : k ≤ 28) : ∃ a : Decimal, a.value = 1 / 10 ^ k :=
  ⟨⟨false, 1, k, one_lt_bound, few⟩, by simp [value_eq, coefficient]⟩

theorem natCast_le_greatest {n : ℕ} (small : n < twoTo 96) : (n : ℚ) ≤ greatest := by
  rw [twoTo_eq_pow] at small
  have le : (n : ℚ) + 1 ≤ 2 ^ 96 := by exact_mod_cast small
  rw [greatest]
  linarith

theorem nearest_le_natCast {x : ℚ} {n : ℕ} (small : n < twoTo 96) (le : x ≤ n) : nearest x ≤ n := by
  obtain ⟨a, same⟩ := exists_natCast small
  rw [← same] at le ⊢
  exact nearest_le le

theorem abs_nearest_le {x : ℚ} {n : ℕ} (small : n < twoTo 96) (le : |x| ≤ n) : |nearest x| ≤ n := by
  obtain ⟨lower, upper⟩ := abs_le.1 le
  have negated := nearest_le_natCast small (neg_le.1 lower)
  rw [nearest_neg] at negated
  exact abs_le.2 ⟨neg_le.1 negated, nearest_le_natCast small upper⟩

theorem place_le_nearest {x : ℚ} {k : ℕ} (few : k ≤ 28) (le : 1 / 10 ^ k ≤ x) :
    1 / 10 ^ k ≤ nearest x := by
  obtain ⟨a, same⟩ := exists_place few
  rw [← same] at le ⊢
  exact le_nearest le

theorem abs_nearest_sub_le (x : ℚ) : |nearest x - x| ≤ 1 / 2 := by
  have unit := pow_ten_pos (places x)
  have one : (1 : ℚ) ≤ 10 ^ places x := one_le_pow₀ (by norm_num)
  have upper := le_roundEven_add_half (x * 10 ^ places x)
  have lower := roundEven_sub_half_le (x * 10 ^ places x)
  have scaled : nearest x - x =
      (roundEven (x * 10 ^ places x) - x * 10 ^ places x) / 10 ^ places x := by
    rw [nearest]
    field_simp
  rw [scaled, abs_div, abs_of_pos unit, div_le_iff₀ unit]
  refine le_trans (b := 1 / 2) (abs_le.2 ⟨by linarith, by linarith⟩) ?_
  linarith

theorem fitsAt_shift (x : ℚ) (j k : ℕ) : FitsAt (10 ^ j * x) k ↔ FitsAt x (j + k) := by
  rw [FitsAt, FitsAt, pow_add, mul_assoc, mul_left_comm, mul_comm x, mul_assoc, mul_comm (10 ^ k : ℚ),
    mul_left_comm]

/-- Where a number is rounded, a shift of the point that stays in range takes as many places away. -/
theorem places_shift {x : ℚ} (nonneg : 0 ≤ x) (long : ¬ FitsAt x 28) {j : ℕ}
    (small : 10 ^ j * x ≤ greatest) : j ≤ places x ∧ places (10 ^ j * x) = places x - j := by
  obtain ⟨k, last⟩ : ∃ k, places x = k := ⟨_, rfl⟩
  rw [last]
  have fits (positive : 0 < k) : FitsAt x k :=
    Nat.findGreatest_of_ne_zero (m := k) last positive.ne'
  have more : k < 28 := by
    refine lt_of_le_of_ne (last ▸ places_le x) fun most => long ?_
    subst most
    exact fits (by decide)
  have tight : ¬ FitsAt x (k + 1) := fun next => by
    have : k + 1 ≤ places x := Nat.le_findGreatest more next
    omega
  have le : j ≤ k := by
    by_contra beyond
    refine tight ((fitsAt_iff nonneg _).2 ?_)
    have less : x * 10 ^ (k + 1) ≤ greatest := by
      refine le_trans ?_ small
      rw [mul_comm]
      exact mul_le_mul_of_nonneg_right (pow_le_pow_right₀ (by norm_num) (by omega)) nonneg
    have bound := roundEven_mono less
    rw [show greatest = ((2 ^ 96 - 1 : ℤ) : ℚ) by norm_num [greatest], roundEven_intCast] at bound
    exact bound.trans_lt (by decide)
  refine ⟨le, ?_⟩
  rcases Nat.eq_zero_or_pos j with rfl | some'
  · rw [pow_zero, one_mul, last, Nat.sub_zero]
  refine places_eq (by positivity) (by omega) ?_ (.inr ?_)
  · rw [fitsAt_shift, Nat.add_sub_cancel' le]
    exact fits (some'.trans_le le)
  · rwa [fitsAt_shift, ← add_assoc, Nat.add_sub_cancel' le]

/-- With at most 28 places, rounding commutes with a shift of the point that stays in range. -/
theorem nearest_shift {x : ℚ} (nonneg : 0 ≤ x) {n : ℤ} (whole : x * 10 ^ 28 = n) {j : ℕ}
    (few : j ≤ 28) (small : 10 ^ j * x ≤ greatest) : nearest (10 ^ j * x) = 10 ^ j * nearest x := by
  by_cases full : FitsAt x 28
  · -- neither number is rounded
    have short : n.natAbs < twoTo 96 := by rwa [FitsAt, whole, roundEven_intCast] at full
    rw [nearest_of_whole le_rfl whole short]
    refine nearest_of_whole (k := 28 - j) (by omega) ?_ short
    rw [← whole, mul_comm, ← mul_assoc, ← pow_add, Nat.sub_add_cancel few, mul_comm]
  · obtain ⟨le, moved⟩ := places_shift nonneg full small
    have same : 10 ^ j * x * 10 ^ (places x - j) = x * 10 ^ places x := by
      rw [mul_right_comm, ← pow_add, Nat.add_sub_cancel' le, mul_comm]
    rw [nearest, nearest, moved, same, ← mul_div_assoc,
      div_eq_div_iff (by positivity) (by positivity), mul_right_comm, ← pow_add,
      Nat.add_sub_cancel' le, mul_comm]

theorem exists_whole (a : Decimal) : ∃ n : ℤ, a.value * 10 ^ 28 = n :=
  ⟨_, a.value_mul_pow⟩

/-- One is added without rounding to a number below it that is not negative. -/
theorem nearest_one_add {a : Decimal} (nonneg : 0 ≤ a.value) (proper : a.value < 1) :
    nearest (1 + a.value) = 1 + a.value := by
  obtain ⟨n, whole⟩ := a.exists_whole
  have lower : (0 : ℚ) ≤ n := by
    rw [← whole]
    exact mul_nonneg nonneg (pow_ten_pos 28).le
  have upper : (n : ℚ) < 10 ^ 28 := by
    rw [← whole]
    exact mul_lt_of_lt_one_left (pow_ten_pos 28) proper
  have lower' : 0 ≤ n := by exact_mod_cast lower
  have upper' : n < 10 ^ 28 := by exact_mod_cast upper
  apply nearest_of_whole (n := 10 ^ 28 + n) le_rfl
  · rw [add_mul, one_mul, whole]
    norm_num
  · rw [twoTo_eq_pow]
    omega

theorem nearest_shift_value {a : Decimal} (nonneg : 0 ≤ a.value) {j : ℕ} (few : j ≤ 28)
    (small : 10 ^ j * a.value ≤ greatest) : nearest (10 ^ j * a.value) = 10 ^ j * a.value := by
  obtain ⟨n, whole⟩ := a.exists_whole
  rw [nearest_shift nonneg whole few small, nearest_value]

theorem nearest_shift_sum {a b : Decimal} (nonneg : 0 ≤ a.value + b.value) {j : ℕ} (few : j ≤ 28)
    (small : 10 ^ j * (a.value + b.value) ≤ greatest) :
    nearest (10 ^ j * (a.value + b.value)) = 10 ^ j * nearest (a.value + b.value) := by
  obtain ⟨m, first⟩ := a.exists_whole
  obtain ⟨n, second⟩ := b.exists_whole
  refine nearest_shift nonneg (n := m + n) ?_ few small
  push_cast
  rw [add_mul, first, second]

theorem abs_value (a : Decimal) : |a.value| = (a.mantissa : ℚ) / 10 ^ a.scale := by
  rw [value_eq, abs_div, abs_of_pos (pow_ten_pos _), ← Int.cast_abs, ← Int.natCast_natAbs,
    coefficient_natAbs, Int.cast_natCast]

theorem abs_value_le_greatest (a : Decimal) : |a.value| ≤ greatest := by
  rw [abs_value, div_le_iff₀ (pow_ten_pos _)]
  calc (a.mantissa : ℚ) ≤ greatest := natCast_le_greatest a.mantissa_lt
    _ ≤ greatest * 10 ^ a.scale :=
      le_mul_of_one_le_right (by norm_num [greatest]) (one_le_pow₀ (by norm_num))

/-! ### Dropping digits -/

theorem value_of_nonneg {a : Decimal} (nonneg : 0 ≤ a.value) :
    a.value = (a.mantissa : ℚ) / 10 ^ a.scale := by
  rw [← abs_value, abs_of_nonneg nonneg]

theorem roundHalfUp_eq (n : ℕ) {d : ℕ} (positive : 0 < d) :
    (roundHalfUp n d : ℤ) = ⌊(n : ℚ) / d + 1 / 2⌋ := by
  have unit : (d : ℚ) ≠ 0 := by exact_mod_cast positive.ne'
  have doubled : (n : ℚ) / d + 1 / 2 = ((2 * n + d : ℕ) : ℚ) / ((2 * d : ℕ) : ℚ) := by
    push_cast
    field_simp
  have parts := Nat.div_add_mod n d
  have rest := Nat.mod_lt n positive
  rw [doubled, Rat.floor_natCast_div_natCast, ← Int.natCast_div, Nat.cast_inj, roundHalfUp, eq_comm]
  generalize n / d = q at *
  generalize n % d = r at *
  split
  next less => exact Nat.div_eq_of_lt_le (by linarith) (by linarith)
  next more => exact Nat.div_eq_of_lt_le (by linarith) (by linarith)

/-- Where a number that is not negative has digits to drop, its magnitude becomes a rounded quotient. -/
theorem value_round_of_lt {a : Decimal} (nonneg : 0 ≤ a.value) (mode : Rounding) {k : ℕ}
    (more : k < a.scale) :
    a.value * 10 ^ k = (a.mantissa : ℚ) / (tenTo (a.scale - k) : ℕ) ∧
      (a.round mode k).value = (mode.quotient a.mantissa (tenTo (a.scale - k)) : ℚ) / 10 ^ k := by
  have split' : (10 : ℚ) ^ a.scale = 10 ^ (a.scale - k) * 10 ^ k := by
    rw [← pow_add, Nat.sub_add_cancel more.le]
  constructor
  · rw [value_of_nonneg nonneg, split', tenTo_eq_pow, Nat.cast_pow, Nat.cast_ofNat,
      div_mul_eq_mul_div, mul_div_mul_right _ _ (pow_ten_pos k).ne']
  · have sign : a.negative = true → a.mantissa = 0 := by
      intro negative
      rw [← value_eq_zero_iff]
      refine le_antisymm ?_ nonneg
      rw [value_eq_signed, if_pos negative]
      exact neg_nonpos.2 (by positivity)
    have zero : mode.quotient 0 (tenTo (a.scale - k)) = 0 := by
      have unit := tenTo_pos (a.scale - k)
      cases mode <;> simp [Rounding.quotient, roundHalfEven, roundHalfUp, unit]
    rw [round, dif_pos more, value_eq_signed]
    cases negative : a.negative with
    | true => simp [sign negative, zero]
    | false => simp

/-- Dropping digits takes a number that is not negative down to a whole number of units. -/
theorem value_round_towardZero {a : Decimal} (nonneg : 0 ≤ a.value) (k : ℕ) :
    (a.round .towardZero k).value = ⌊a.value * 10 ^ k⌋ / 10 ^ k := by
  rcases lt_or_ge k a.scale with more | few
  · obtain ⟨moved, rounded⟩ := value_round_of_lt nonneg .towardZero more
    rw [rounded, moved, Rat.floor_natCast_div_natCast, ← Int.natCast_div, Rounding.quotient,
      Int.cast_natCast]
  · rw [round, dif_neg (not_lt.2 few), a.value_eq_at few, div_mul_cancel₀ _ (pow_ten_pos k).ne',
      Int.floor_intCast]

/-- Rounding halves up takes a number that is not negative to the nearest whole number of units. -/
theorem value_round_halfAwayFromZero {a : Decimal} (nonneg : 0 ≤ a.value) (k : ℕ) :
    (a.round .halfAwayFromZero k).value = ⌊a.value * 10 ^ k + 1 / 2⌋ / 10 ^ k := by
  rcases lt_or_ge k a.scale with more | few
  · obtain ⟨moved, rounded⟩ := value_round_of_lt nonneg .halfAwayFromZero more
    rw [rounded, moved, ← roundHalfUp_eq _ (tenTo_pos _), Rounding.quotient, Int.cast_natCast]
  · have half : ⌊(1 / 2 : ℚ)⌋ = 0 := by norm_num
    rw [round, dif_neg (not_lt.2 few), a.value_eq_at few, div_mul_cancel₀ _ (pow_ten_pos k).ne',
      Int.floor_intCast_add, half, add_zero]

/-- Dropping digits leaves the greatest number with so many places that is not above. -/
theorem isGreatest_round_towardZero {a : Decimal} (nonneg : 0 ≤ a.value) (k : ℕ) :
    IsGreatest {x : ℚ | (∃ n : ℤ, x = n / 10 ^ k) ∧ x ≤ a.value} (a.round .towardZero k).value := by
  have unit := pow_ten_pos k
  rw [value_round_towardZero nonneg k]
  refine ⟨⟨⟨_, rfl⟩, ?_⟩, ?_⟩
  · rw [div_le_iff₀ unit]
    exact Int.floor_le _
  · rintro x ⟨⟨n, rfl⟩, le⟩
    apply div_le_div_of_nonneg_right _ unit.le
    rw [div_le_iff₀ unit] at le
    exact_mod_cast Int.le_floor.2 le

/-! ### Bounds -/

/-- No further from zero than a whole number. -/
def AtMost (a : Decimal) (n : ℕ) : Prop :=
  |a.value| ≤ n

/-- No less than a unit of the `k`-th place. -/
def AtLeast (a : Decimal) (k : ℕ) : Prop :=
  1 / 10 ^ k ≤ a.value

instance (a : Decimal) (n : ℕ) : Decidable (a.AtMost n) :=
  inferInstanceAs (Decidable ((_ : ℚ) ≤ _))

instance (a : Decimal) (k : ℕ) : Decidable (a.AtLeast k) :=
  inferInstanceAs (Decidable ((_ : ℚ) ≤ _))

variable {a b : Decimal} {m n k : ℕ}

theorem zero_atMost (n : ℕ) : (0 : Decimal).AtMost n := by
  simp [AtMost]

theorem one_atMost : (1 : Decimal).AtMost 1 := by
  simp [AtMost]

theorem AtMost.mono (bounded : a.AtMost m) (le : m ≤ n) : a.AtMost n :=
  le_trans bounded (by exact_mod_cast le)

theorem atMost_of_between (nonneg : 0 ≤ a.value) (le : a.value ≤ n) : a.AtMost n :=
  (abs_of_nonneg nonneg).trans_le le

theorem AtMost.le (bounded : a.AtMost n) : a.value ≤ n :=
  (le_abs_self _).trans bounded

theorem AtLeast.pos (above : a.AtLeast k) : 0 < a.value :=
  lt_of_lt_of_le (by positivity) above

theorem AtLeast.mono {j : ℕ} (above : a.AtLeast j) (le : j ≤ k) : a.AtLeast k :=
  le_trans (one_div_le_one_div_of_le (pow_ten_pos j) (pow_le_pow_right₀ (by norm_num) le)) above

theorem AtMost.min (first : a.AtMost n) (second : b.AtMost n) : (min a b).AtMost n := by
  rw [AtMost, value_min]
  rcases min_choice a.value b.value with same | same <;> rw [same] <;> assumption

theorem AtMost.max (first : a.AtMost n) (second : b.AtMost n) : (max a b).AtMost n := by
  rw [AtMost, value_max]
  rcases max_choice a.value b.value with same | same <;> rw [same] <;> assumption

theorem AtLeast.min (first : a.AtLeast k) (second : b.AtLeast k) : (min a b).AtLeast k := by
  rw [AtLeast, value_min]
  exact le_min first second

theorem AtLeast.max (first : a.AtLeast k) : (max a b).AtLeast k := by
  rw [AtLeast, value_max]
  exact le_trans first (le_max_left _ _)

end Decimal

namespace Arithmetic

open Decimal

variable [Arithmetic] {a b : Decimal} {m n j k : ℕ}

omit [Arithmetic] in
/-- A result that is there wherever it is in range is there within a bound in range, and keeps to it. -/
theorem gives_nearest {x : ℚ} {result : Checked Decimal} {bound : ℕ} (small : bound < twoTo 96)
    (within : |x| ≤ bound) (done : |x| ≤ greatest → ∃ c, result = .ok c ∧ c.value = nearest x) :
    Checked.Gives result fun c => c.value = nearest x ∧ c.AtMost bound := by
  obtain ⟨c, done, same⟩ := done (within.trans (natCast_le_greatest small))
  exact ⟨c, done, same, by rw [AtMost, same]; exact abs_nearest_le small within⟩

theorem Total.gives_add (total : Total) (first : a.AtMost m) (second : b.AtMost n)
    (small : m + n < twoTo 96) :
    Checked.Gives (a.add b) fun c => c.value = nearest (a.value + b.value) ∧ c.AtMost (m + n) := by
  refine gives_nearest small ?_ total.add
  push_cast
  exact (abs_add_le _ _).trans (add_le_add first second)

theorem Total.gives_sub (total : Total) (first : a.AtMost m) (second : b.AtMost n)
    (small : m + n < twoTo 96) :
    Checked.Gives (a.sub b) fun c => c.value = nearest (a.value - b.value) ∧ c.AtMost (m + n) := by
  refine gives_nearest small ?_ total.sub
  push_cast
  exact (abs_sub _ _).trans (add_le_add first second)

theorem Total.gives_mul (total : Total) (first : a.AtMost m) (second : b.AtMost n)
    (small : m * n < twoTo 96) :
    Checked.Gives (a.mul b) fun c => c.value = nearest (a.value * b.value) ∧ c.AtMost (m * n) := by
  refine gives_nearest small ?_ total.mul
  push_cast
  rw [abs_mul]
  exact mul_le_mul first second (abs_nonneg _) (Nat.cast_nonneg _)

theorem Total.gives_div (total : Total) (first : a.AtMost m) (second : b.AtLeast k)
    (small : m * 10 ^ k < twoTo 96) :
    Checked.Gives (a.div b) fun c => c.value = nearest (a.value / b.value) ∧ c.AtMost (m * 10 ^ k) := by
  refine gives_nearest small ?_ (total.div second.pos.ne')
  push_cast
  rw [abs_div, abs_of_pos second.pos, div_le_iff₀ second.pos]
  calc |a.value| ≤ m * 1 := by rw [mul_one]; exact first
    _ = m * (10 ^ k * (1 / 10 ^ k)) := by rw [mul_one_div_cancel (pow_ten_pos k).ne']
    _ ≤ m * (10 ^ k * b.value) := by
        gcongr
        exact second
    _ = m * 10 ^ k * b.value := (mul_assoc _ _ _).symm

/-! ### Quotients in order -/

/-- Quotients are in the order of the exact ones and differ from none that is a decimal; only one beyond
the greatest decimal is missing. -/
structure OrderedQuotients [Arithmetic] : Prop where
  mono : ∀ {a b c a' b' c' : Decimal}, b.value ≠ 0 → b'.value ≠ 0 → a.div b = .ok c →
    a'.div b' = .ok c' → a.value / b.value ≤ a'.value / b'.value → c.value ≤ c'.value
  exact : ∀ {a b c d : Decimal}, b.value ≠ 0 → a.div b = .ok c → a.value / b.value = d.value →
    c.value = d.value
  total : ∀ {a b : Decimal}, b.value ≠ 0 → |a.value / b.value| ≤ greatest → ∃ c, a.div b = .ok c

omit [Arithmetic] in
theorem precise_ordered : @OrderedQuotients .precise :=
  @OrderedQuotients.mk .precise
    (fun nonzero nonzero' done done' le => by
      rw [Rounded.value_div nonzero done, Rounded.value_div nonzero' done']
      exact nearest_mono le)
    (fun nonzero done same => by rw [Rounded.value_div nonzero done, same, nearest_value])
    Rounded.exists_div

namespace OrderedQuotients

variable (quotients : OrderedQuotients) {c d : Decimal} (nonzero : b.value ≠ 0)

include quotients

/-- A decimal is its own quotient by one. -/
theorem exists_div_one (d : Decimal) : ∃ e, d.div 1 = .ok e ∧ e.value = d.value := by
  have one : (1 : Decimal).value ≠ 0 := by rw [value_one]; exact one_ne_zero
  have same : d.value / (1 : Decimal).value = d.value := by rw [value_one, div_one]
  obtain ⟨e, done⟩ := quotients.total one (by rw [same]; exact d.abs_value_le_greatest)
  exact ⟨e, done, quotients.exact one done same⟩

include nonzero

theorem le_div (done : a.div b = .ok c) (le : d.value ≤ a.value / b.value) : d.value ≤ c.value := by
  obtain ⟨e, unit, same⟩ := quotients.exists_div_one d
  rw [← same]
  exact quotients.mono (by simp) nonzero unit done (by rwa [value_one, div_one])

theorem div_le (done : a.div b = .ok c) (le : a.value / b.value ≤ d.value) : c.value ≤ d.value := by
  obtain ⟨e, unit, same⟩ := quotients.exists_div_one d
  rw [← same]
  exact quotients.mono nonzero (by simp) done unit (by rwa [value_one, div_one])

end OrderedQuotients

end Arithmetic

end MarketMaker
