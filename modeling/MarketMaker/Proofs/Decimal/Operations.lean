import MarketMaker.Decimal.Arithmetic
import MarketMaker.Proofs.Decimal.Nearest
/-!
Sums, differences and products as the standard arithmetic makes them are the exact ones rounded to
the nearest decimal.
-/

namespace MarketMaker

namespace Decimal

/-- A number of this sign. -/
def signed (negative : Bool) (x : ℚ) : ℚ :=
  if negative then -x else x

theorem nearest_signed (negative : Bool) (x : ℚ) : nearest (signed negative x) = signed negative (nearest x) := by
  cases negative <;> simp [signed, nearest_neg]

theorem value_ofParts {negative : Bool} {m s : ℕ} {c : Decimal} (made : ofParts? negative m s = some c) :
    c.value = signed negative ((m : ℚ) / 10 ^ s) := by
  unfold ofParts? at made
  split at made
  · obtain rfl := Option.some.inj made
    exact value_eq_signed _
  · exact absurd made (by simp)

/-! ### Fitting a long mantissa -/

theorem excess_spec {m s n : ℕ} (found : excess? m s = some n) :
    s - 28 ≤ n ∧ n ≤ s ∧ m / tenTo n < twoTo 96 ∧
      ∀ k, s - 28 ≤ k → k < n → twoTo 96 ≤ m / tenTo k := by
  unfold excess? at found
  rw [List.find?_range'_eq_some] at found
  obtain ⟨fits, member, before⟩ := found
  simp only [decide_eq_true_eq] at fits
  rw [List.mem_range'_1] at member
  refine ⟨member.1, by omega, fits, ?_⟩
  intro k lower less
  have := before k lower less
  simpa using this

theorem roundEven_scaled (m s n : ℕ) (le : n ≤ s) :
    roundEven ((m : ℚ) / 10 ^ s * 10 ^ (s - n)) = (roundHalfEven m (tenTo n) : ℤ) := by
  rw [roundHalfEven_eq m (tenTo_pos n), tenTo_eq_pow]
  congr 1
  push_cast
  rw [div_mul_eq_mul_div, div_eq_div_iff (pow_ten_pos s).ne' (pow_ten_pos n).ne', mul_assoc,
    ← pow_add, Nat.sub_add_cancel le]

/-- A mantissa that is too long without its last `n` digits does not fit. -/
theorem not_fitsAt_of_long {m s n : ℕ} (le : n ≤ s) (long : twoTo 96 ≤ m / tenTo n) :
    ¬ FitsAt ((m : ℚ) / 10 ^ s) (s - n) := by
  rw [FitsAt, roundEven_scaled m s n le, Int.natAbs_natCast, not_lt]
  have lower : m / tenTo n ≤ roundHalfEven m (tenTo n) := by
    simp only [roundHalfEven]
    split <;> omega
  omega

theorem fit_value {negative : Bool} {m s : ℕ} {c : Decimal} (made : fit? negative m s = some c) :
    c.value = signed negative (nearest ((m : ℚ) / 10 ^ s)) := by
  have nonneg : (0 : ℚ) ≤ (m : ℚ) / 10 ^ s := by positivity
  unfold fit? at made
  rw [Option.bind_eq_bind, Option.bind_eq_some_iff] at made
  obtain ⟨n, found, made⟩ := made
  obtain ⟨few, le, short, long⟩ := excess_spec found
  have scaled := roundEven_scaled m s n le
  by_cases fits : roundHalfEven m (tenTo n) < twoTo 96
  · rw [if_pos fits] at made
    rw [value_ofParts made]
    congr 1
    rcases Nat.eq_zero_or_pos n with none | some
    · -- All digits are kept.
      subst none
      have exact : roundHalfEven m (tenTo 0) = m := by
        simp [roundHalfEven, tenTo_zero, Nat.mod_one]
      rw [exact] at fits ⊢
      rw [Nat.sub_zero, nearest_of_whole (n := m) (k := s) (by omega)]
      · rw [div_mul_cancel₀ _ (pow_ten_pos s).ne', Int.cast_natCast]
      · simpa using fits
    · have at' : places ((m : ℚ) / 10 ^ s) = s - n := by
        apply places_eq nonneg (by omega)
        · rw [FitsAt, scaled, Int.natAbs_natCast]
          exact fits
        · by_cases most : s - n = 28
          · exact Or.inl most
          · right
            have tight := not_fitsAt_of_long (s := s) (by omega : n - 1 ≤ s)
              (long (n - 1) (by omega) (by omega))
            rwa [show s - (n - 1) = s - n + 1 by omega] at tight
      rw [nearest, at', scaled, Int.cast_natCast]
  · rw [if_neg fits] at made
    split at made
    · exact absurd made (by simp)
    next more =>
    -- Rounding up makes the mantissa one digit too long.
    have carried : roundHalfEven m (tenTo n) = twoTo 96 := by
      have upper : roundHalfEven m (tenTo n) ≤ m / tenTo n + 1 := by
        simp only [roundHalfEven]
        split <;> omega
      omega
    rw [carried, carry_eq] at made
    rw [value_ofParts made, nearest_of_carry nonneg (k := s - n - 1) (by omega)]
    rw [show s - n - 1 + 1 = s - n by omega, scaled, carried]

/-! ### Sums -/

theorem fitSum_value {x y : ℤ} {s : ℕ} {c : Decimal} (made : fitSum? x y s = some c) :
    c.value = nearest (((x + y : ℤ) : ℚ) / 10 ^ s) := by
  rw [fit_value made, ← nearest_signed]
  congr 1
  by_cases negative : x + y < 0
  · have flipped : (((x + y).natAbs : ℕ) : ℤ) = -(x + y) := by omega
    have cast : (((x + y).natAbs : ℕ) : ℚ) = -((x + y : ℤ) : ℚ) := by
      rw [← Int.cast_natCast, flipped, Int.cast_neg]
    simp only [signed, negative, decide_true, if_true, cast]
    ring
  · have kept : (((x + y).natAbs : ℕ) : ℤ) = x + y := by omega
    have cast : (((x + y).natAbs : ℕ) : ℚ) = ((x + y : ℤ) : ℚ) := by
      rw [← Int.cast_natCast, kept]
    simp only [signed, negative, decide_false, Bool.false_eq_true, if_false, cast]

/-- A coefficient at a larger scale. -/
theorem value_eq_at (a : Decimal) {s : ℕ} (le : a.scale ≤ s) :
    a.value = ((a.coefficient * tenTo (s - a.scale) : ℤ) : ℚ) / 10 ^ s := by
  have split : (10 : ℚ) ^ s = 10 ^ (s - a.scale) * 10 ^ a.scale := by
    rw [← pow_add, Nat.sub_add_cancel le]
  rw [value_eq, tenTo_eq_pow, split]
  push_cast
  rw [mul_comm (10 ^ (s - a.scale) : ℚ), ← div_div, mul_div_right_comm, mul_div_assoc,
    div_self (pow_ten_pos _).ne', mul_one]

theorem orOverflow_eq_ok {operation : Overflow} {x : Option Decimal} {c : Decimal}
    (done : orOverflow operation x = .ok c) : x = some c := by
  cases x with
  | none => exact absurd done (by simp [orOverflow])
  | some a =>
    obtain rfl : a = c := by simpa [orOverflow] using done
    rfl

namespace Rounded

theorem value_add {a b c : Decimal} (done : add a b = .ok c) :
    c.value = nearest (a.value + b.value) := by
  unfold add at done
  split at done
  next zero =>
    obtain rfl := Except.ok.inj done
    simp [(value_eq_zero_iff a).2 zero]
  next =>
  split at done
  next zero =>
    obtain rfl := Except.ok.inj done
    simp [(value_eq_zero_iff b).2 zero]
  next =>
    rw [fitSum_value (orOverflow_eq_ok done), a.value_eq_at (le_max_left a.scale b.scale),
      b.value_eq_at (le_max_right a.scale b.scale)]
    push_cast
    rw [← add_div]

theorem value_sub {a b c : Decimal} (done : sub a b = .ok c) :
    c.value = nearest (a.value - b.value) := by
  unfold sub at done
  split at done
  next zero =>
    obtain rfl := Except.ok.inj done
    rw [(value_eq_zero_iff a).2 zero, zero_sub, nearest_neg, nearest_value]
    split
    next zero' => rw [(value_eq_zero_iff b).2 zero', neg_zero]
    next => exact value_neg b
  next =>
  split at done
  next zero =>
    obtain rfl := Except.ok.inj done
    simp [(value_eq_zero_iff b).2 zero]
  next =>
    rw [fitSum_value (orOverflow_eq_ok done), a.value_eq_at (le_max_left a.scale b.scale),
      b.value_eq_at (le_max_right a.scale b.scale)]
    push_cast
    rw [neg_mul, ← sub_eq_add_neg, ← sub_div]

/-! ### Products -/

theorem value_mul_magnitude (a b : Decimal) :
    a.value * b.value = signed (a.negative != b.negative)
      (((a.mantissa * b.mantissa : ℕ) : ℚ) / 10 ^ (a.scale + b.scale)) := by
  have magnitude : ((a.mantissa * b.mantissa : ℕ) : ℚ) / 10 ^ (a.scale + b.scale) =
      a.mantissa / 10 ^ a.scale * (b.mantissa / 10 ^ b.scale) := by
    rw [Nat.cast_mul, pow_add, mul_div_mul_comm]
  rw [value_eq_signed a, value_eq_signed b, magnitude]
  cases a.negative <;> cases b.negative <;> simp [signed]

/-- Short mantissas with over 47 places make less than half of the last place. -/
theorem nearest_short {a b : Decimal} (short : Short a b) (small : 47 < a.scale + b.scale) :
    nearest (a.value * b.value) = 0 := by
  have product : a.mantissa * b.mantissa < 2 ^ 64 := by
    obtain ⟨first, second⟩ := short
    rw [twoTo_eq_pow] at first second
    calc
      a.mantissa * b.mantissa < 2 ^ 32 * 2 ^ 32 := Nat.mul_lt_mul'' first second
      _ = 2 ^ 64 := by norm_num
  have shrunk : ((a.mantissa * b.mantissa : ℕ) : ℚ) / 10 ^ (a.scale + b.scale) ≤ 2 ^ 64 / 10 ^ 48 :=
    div_le_div₀ (by positivity) (by exact_mod_cast product.le) (by positivity)
      (pow_le_pow_right₀ (by norm_num) (by omega))
  have nonneg : (0 : ℚ) ≤ ((a.mantissa * b.mantissa : ℕ) : ℚ) / 10 ^ (a.scale + b.scale) := by
    positivity
  rw [value_mul_magnitude, nearest_signed]
  generalize ((a.mantissa * b.mantissa : ℕ) : ℚ) / 10 ^ (a.scale + b.scale) = x at shrunk nonneg
  have rounded : roundEven (x * 10 ^ 28) = 0 := by
    apply roundEven_eq_of_near
    · have : 0 ≤ x * 10 ^ 28 := by positivity
      push_cast
      linarith
    · have : x * 10 ^ 28 ≤ 2 ^ 64 / 10 ^ 48 * 10 ^ 28 := by gcongr
      have : (2 : ℚ) ^ 64 / 10 ^ 48 * 10 ^ 28 < 1 / 2 := by norm_num
      push_cast
      linarith
  have all : places x = 28 := by
    apply places_eq nonneg le_rfl _ (Or.inl rfl)
    rw [FitsAt, rounded]
    decide
  rw [nearest, all, rounded]
  cases (a.negative != b.negative) <;> simp [signed]

theorem value_mul {a b c : Decimal} (done : mul a b = .ok c) :
    c.value = nearest (a.value * b.value) := by
  unfold mul at done
  split at done
  next zero =>
    obtain rfl := Except.ok.inj done
    rcases zero with zero | zero
    · simp [(value_eq_zero_iff a).2 zero]
    · simp [(value_eq_zero_iff b).2 zero]
  next =>
  split at done
  next tiny =>
    obtain rfl := Except.ok.inj done
    rw [nearest_short tiny.1 tiny.2, value_zero]
  next =>
    have made := orOverflow_eq_ok done
    rw [Option.map_eq_some_iff] at made
    obtain ⟨p, made, rfl⟩ := made
    have value : p.value = nearest (a.value * b.value) := by
      rw [fit_value made, value_mul_magnitude, nearest_signed]
    rw [← value]
    split
    next zero =>
      rw [(value_eq_zero_iff p).2 zero.1]
      exact (value_eq_zero_iff _).2 zero.1
    next => rfl

end Rounded

end Decimal

end MarketMaker
