import MarketMaker.Proofs.Decimal.Operations
/-!
The long division of the standard arithmetic. While it runs, the digits found so far and the
remainder stand for the exact quotient; where it ends, the quotient is rounded to the nearest decimal.
-/

namespace MarketMaker

namespace Decimal

namespace Quotient

/-- The digits and the remainder make up the number, moved by the places found so far. -/
structure Tracks (divisor : ℕ) (v : ℚ) (x : Quotient) : Prop where
  rest_lt : x.rest < divisor
  exact : v * (10 : ℚ) ^ x.scale = x.digits + x.rest / divisor

/-- The division ended in the nearest decimal. -/
def Ends (v : ℚ) (x : Quotient) : Prop :=
  0 ≤ x.scale ∧ (x.digits : ℚ) / 10 ^ x.scale.toNat = nearest v

variable {divisor : ℕ} {v : ℚ} {x y : Quotient}

theorem zpow_scale (n : ℤ) (nonneg : 0 ≤ n) : (10 : ℚ) ^ n = 10 ^ n.toNat := by
  conv_lhs => rw [← Int.toNat_of_nonneg nonneg]
  exact zpow_natCast _ _

theorem joined_div (rest_lt : x.rest < divisor) : (x.digits * divisor + x.rest) / divisor = x.digits := by
  rw [Nat.add_comm, Nat.add_mul_div_right _ _ (by omega), Nat.div_eq_of_lt rest_lt, Nat.zero_add]

theorem joined_mod (rest_lt : x.rest < divisor) : (x.digits * divisor + x.rest) % divisor = x.rest := by
  rw [Nat.add_comm, Nat.add_mul_mod_self_right, Nat.mod_eq_of_lt rest_lt]

/-- The number as one quotient of whole numbers. -/
theorem Tracks.joined (tracks : Tracks divisor v x) (nonneg : 0 ≤ x.scale) :
    v * 10 ^ x.scale.toNat = ((x.digits * divisor + x.rest : ℕ) : ℚ) / divisor := by
  have positive : (0 : ℚ) < divisor := by exact_mod_cast (Nat.zero_le _).trans_lt tracks.rest_lt
  rw [← zpow_scale _ nonneg, tracks.exact, Nat.cast_add, Nat.cast_mul, add_div,
    mul_div_cancel_right₀ _ positive.ne']

theorem Tracks.long (tracks : Tracks divisor v x) (nonneg : 0 ≤ x.scale) {k : ℕ}
    (large : twoTo 96 ≤ x.digits * 10 ^ k) : ¬ FitsAt v (x.scale.toNat + k) := by
  have floor : ((x.digits * 10 ^ k : ℕ) : ℚ) ≤ v * 10 ^ (x.scale.toNat + k) := by
    have rest : (0 : ℚ) ≤ (x.rest : ℚ) / divisor := by positivity
    have lower : (x.digits : ℚ) ≤ v * 10 ^ x.scale.toNat := by
      rw [← zpow_scale _ nonneg, tracks.exact]
      linarith
    rw [pow_add, ← mul_assoc]
    push_cast
    exact mul_le_mul_of_nonneg_right lower (pow_ten_pos k).le
  have rounded := roundEven_mono floor
  rw [← Int.cast_natCast, roundEven_intCast] at rounded
  rw [FitsAt]
  omega

/-! ### Room for digits -/

/-- The greatest number that fits comes first in the descending list, so the next one does not fit. -/
theorem find?_descending {fits : ℕ → Bool} {most p : ℕ}
    (found : (List.range (most + 1)).reverse.find? fits = some p) :
    fits p = true ∧ p ≤ most ∧ (p < most → fits (p + 1) = false) := by
  induction most with
  | zero =>
    obtain rfl : p = 0 := by simpa using List.mem_of_find?_eq_some found
    exact ⟨List.find?_some found, le_rfl, fun more => absurd more (lt_irrefl 0)⟩
  | succ most ih =>
    rw [List.range_succ, List.reverse_append, List.reverse_singleton, List.singleton_append,
      List.find?_cons] at found
    cases top : fits (most + 1) with
    | true =>
      simp only [top, Option.some.injEq] at found
      subst found
      exact ⟨top, le_rfl, fun more => absurd more (lt_irrefl _)⟩
    | false =>
      simp only [top] at found
      obtain ⟨here, within, next⟩ := ih found
      refine ⟨here, within.trans most.le_succ, fun more => ?_⟩
      rcases (Nat.lt_succ_iff.1 more).eq_or_lt with rfl | less
      · exact top
      · exact next less

/-- The last digit is rounded only where there is no room for another. -/
theorem room_spec (x : Quotient) :
    x.room ≤ (28 - x.scale).toNat ∧ x.room ≤ 9 ∧
      (x.room = 0 → x.scale < 28 → twoTo 96 ≤ x.digits * 10) := by
  unfold room
  dsimp only
  generalize bound : min 9 (28 - x.scale).toNat = most
  have one : tenTo 1 = 10 := rfl
  cases found : (List.range (most + 1)).reverse.find?
      fun p => decide (x.digits * tenTo p < twoTo 96) with
  | none =>
    rw [List.find?_eq_none] at found
    refine ⟨Nat.zero_le _, Nat.zero_le _, fun _ more => ?_⟩
    have := found 1 (by rw [List.mem_reverse, List.mem_range]; omega)
    simpa [one] using this
  | some p =>
    obtain ⟨-, within, next⟩ := find?_descending found
    rw [Option.getD_some]
    refine ⟨by omega, by omega, ?_⟩
    rintro rfl more
    simpa [one] using next (by omega)

/-! ### The last digit -/

theorem roundLast_ends (nonneg : 0 ≤ v) (tracks : Tracks divisor v x) (placed : 0 ≤ x.scale)
    (few : x.scale ≤ 28) (small : x.digits < twoTo 96)
    (full : x.scale < 28 → twoTo 96 ≤ x.digits * 10) (done : roundLast? divisor x = some y) :
    Ends v y := by
  have positive : 0 < divisor := (Nat.zero_le _).trans_lt tracks.rest_lt
  have rounded : roundEven (v * 10 ^ x.scale.toNat) =
      (roundHalfEven (x.digits * divisor + x.rest) divisor : ℤ) := by
    rw [tracks.joined placed, roundHalfEven_eq _ positive]
  simp only [roundHalfEven, joined_div tracks.rest_lt, joined_mod tracks.rest_lt] at rounded
  have last : x.scale.toNat = 28 ∨ ¬ FitsAt v (x.scale.toNat + 1) := by
    by_cases more : x.scale < 28
    · right
      apply tracks.long placed
      simpa using full more
    · left
      omega
  have ends {n : ℕ} (short : n < twoTo 96) (at' : roundEven (v * 10 ^ x.scale.toNat) = n) :
      nearest v = (n : ℚ) / 10 ^ x.scale.toNat := by
    have here : places v = x.scale.toNat := by
      apply places_eq nonneg (by omega) _ last
      rw [FitsAt, at', Int.natAbs_natCast]
      exact short
    rw [nearest, here, at', Int.cast_natCast]
  unfold roundLast? at done
  split at done
  next down =>
    obtain rfl := Option.some.inj done
    rw [if_pos down] at rounded
    exact ⟨placed, (ends small rounded).symm⟩
  next up =>
  rw [if_neg up] at rounded
  split at done
  next short =>
    obtain rfl := Option.some.inj done
    exact ⟨placed, (ends short rounded).symm⟩
  next carried =>
  split at done
  · exact absurd done (by simp)
  next more =>
    obtain rfl := Option.some.inj done
    have atBound : x.digits + 1 = twoTo 96 := by omega
    have shift : x.scale.toNat = (x.scale - 1).toNat + 1 := by omega
    refine ⟨show 0 ≤ x.scale - 1 by omega, ?_⟩
    rw [shift, atBound] at rounded
    rw [nearest_of_carry nonneg (by omega) rounded]
    rfl

/-- Rounding away the last digit is rounding the quotient by ten times the divisor. -/
theorem roundHalfEven_dropped (digits rest : ℕ) (rest_lt : rest < divisor) :
    roundHalfEven (digits * divisor + rest) (10 * divisor) =
      if 5 < digits % 10 ∨ (digits % 10 = 5 ∧ (rest ≠ 0 ∨ digits / 10 % 2 = 1)) then
        digits / 10 + 1
      else digits / 10 := by
  have quotient : (digits * divisor + rest) / (10 * divisor) = digits / 10 := by
    rw [Nat.mul_comm 10, ← Nat.div_div_eq_div_mul, Nat.add_comm,
      Nat.add_mul_div_right _ _ (by omega), Nat.div_eq_of_lt rest_lt, Nat.zero_add]
  have remainder : (digits * divisor + rest) % (10 * divisor) = digits % 10 * divisor + rest := by
    have parts := Nat.div_add_mod (digits * divisor + rest) (10 * divisor)
    have tens := Nat.div_add_mod digits 10
    rw [quotient] at parts
    have expand : digits * divisor = 10 * divisor * (digits / 10) + digits % 10 * divisor := by
      conv_lhs => rw [← tens]
      ring
    rw [expand, Nat.add_assoc] at parts
    rw [expand, Nat.add_assoc]
    exact Nat.add_left_cancel parts
  simp only [roundHalfEven, quotient, remainder]
  generalize digits % 10 = d
  generalize digits / 10 = q
  rcases lt_trichotomy d 5 with below | rfl | above
  · have less : d * divisor ≤ 4 * divisor := Nat.mul_le_mul_right _ (by omega)
    rw [if_pos (by omega), if_neg (by omega)]
  · split_ifs <;> omega
  · have more : 6 * divisor ≤ d * divisor := Nat.mul_le_mul_right _ (by omega)
    rw [if_neg (by omega), if_pos (by omega)]

theorem dropLast_ends (nonneg : 0 ≤ v) (tracks : Tracks divisor v x) (few : x.scale ≤ 28)
    (long : twoTo 96 ≤ x.digits) (bounded : x.digits < twoTo 96 + tenTo 9)
    (done : dropLast? x = some y) : Ends v y := by
  unfold dropLast? at done
  split at done
  · exact absurd done (by simp)
  next more =>
  obtain rfl := Option.some.inj done
  have positive : 0 < divisor := (Nat.zero_le _).trans_lt tracks.rest_lt
  have shift : x.scale.toNat = (x.scale - 1).toNat + 1 := by omega
  have scaled : v * 10 ^ (x.scale - 1).toNat =
      ((x.digits * divisor + x.rest : ℕ) : ℚ) / (10 * divisor : ℕ) := by
    have joined := tracks.joined (by omega)
    rw [shift, pow_succ, ← mul_assoc] at joined
    rw [Nat.cast_mul, mul_comm ((10 : ℕ) : ℚ), ← div_div, ← joined]
    norm_num
  have rounded := congrArg roundEven scaled
  rw [← roundHalfEven_eq _ (by omega), roundHalfEven_dropped _ _ tracks.rest_lt] at rounded
  have tight : ¬ FitsAt v ((x.scale - 1).toNat + 1) := by
    rw [← shift]
    exact tracks.long (k := 0) (by omega) (by simpa using long)
  have bounds : twoTo 96 = 79228162514264337593543950336 ∧ tenTo 9 = 1000000000 := by decide
  refine ⟨show 0 ≤ x.scale - 1 by omega, ?_⟩
  have here : places v = (x.scale - 1).toNat := by
    apply places_eq nonneg (by omega) _ (Or.inr tight)
    rw [FitsAt, rounded, Int.natAbs_natCast]
    split <;> omega
  rw [nearest, here, rounded, Int.cast_natCast]

/-! ### The whole division -/

theorem Tracks.step (tracks : Tracks divisor v x) (p : ℕ) (inexact : Bool) :
    Tracks divisor v
      { digits := x.digits * tenTo p + x.rest * tenTo p / divisor
        rest := x.rest * tenTo p % divisor
        scale := x.scale + p
        inexact } := by
  have positive : 0 < divisor := (Nat.zero_le _).trans_lt tracks.rest_lt
  have unit : (0 : ℚ) < divisor := by exact_mod_cast positive
  refine ⟨Nat.mod_lt _ positive, ?_⟩
  have parts : ((x.rest * tenTo p / divisor : ℕ) : ℚ) * divisor +
      ((x.rest * tenTo p % divisor : ℕ) : ℚ) = x.rest * 10 ^ p := by
    have := Nat.div_add_mod' (x.rest * tenTo p) divisor
    rw [tenTo_eq_pow] at this ⊢
    exact_mod_cast this
  change v * (10 : ℚ) ^ (x.scale + (p : ℤ)) = _
  rw [zpow_add₀ (by norm_num), ← mul_assoc, tracks.exact, zpow_natCast, add_mul,
    div_mul_eq_mul_div, ← parts, add_div, mul_div_cancel_right₀ _ unit.ne']
  push_cast [tenTo_eq_pow]
  ring

theorem continue_ends (nonneg : 0 ≤ v) (rounds : ℕ) (tracks : Tracks divisor v x)
    (few : x.scale ≤ 28) (small : x.digits < twoTo 96)
    (done : continue? divisor rounds x = some y) : Ends v y := by
  induction rounds generalizing x with
  | zero => exact absurd done (by simp [continue?])
  | succ rounds ih =>
    have positive : 0 < divisor := (Nat.zero_le _).trans_lt tracks.rest_lt
    obtain ⟨places, nine, full⟩ := x.room_spec
    unfold continue? at done
    by_cases finished : x.rest = 0 ∧ 0 ≤ x.scale
    · rw [if_pos finished] at done
      obtain rfl := Option.some.inj done
      refine ⟨finished.2, ?_⟩
      have whole : v * 10 ^ x.scale.toNat = ((x.digits : ℤ) : ℚ) := by
        rw [← zpow_scale _ finished.2, tracks.exact, finished.1]
        simp
      rw [nearest_of_whole (by omega) whole (by simpa using small), ← Int.cast_natCast, ← whole,
        mul_div_cancel_right₀ _ (pow_ten_pos _).ne']
    · rw [if_neg finished] at done
      dsimp only at done
      generalize count : (if x.rest = 0 then min 9 (-x.scale).toNat else x.room) = p at done
      split at done
      · exact absurd done (by simp)
      next room =>
      split at done
      next none =>
        -- Only a division with a remainder runs out of room.
        have open' : x.rest ≠ 0 := by
          intro zero
          rw [if_pos zero] at count
          omega
        rw [if_neg open'] at count
        have placed : 0 ≤ x.scale := by omega
        exact roundLast_ends (x := { x with inexact := x.inexact || x.rest != 0 }) nonneg
          ⟨tracks.rest_lt, tracks.exact⟩ placed few small (fun more => full (by omega) more) done
      next some' =>
      split at done
      · exact absurd done (by simp)
      next short =>
      have next' := tracks.step p (x.inexact || x.rest != 0)
      have scale : x.scale + p ≤ 28 := by
        split at count <;> omega
      split at done
      next fits => exact ih next' scale fits done
      next long =>
        apply dropLast_ends nonneg next' scale (not_lt.1 long) _ done
        have digit : x.rest * tenTo p / divisor < tenTo 9 := by
          have powers : tenTo p ≤ tenTo 9 := by
            rw [tenTo_eq_pow, tenTo_eq_pow]
            exact Nat.pow_le_pow_right (by decide) (by split at count <;> omega)
          have unit := tenTo_pos p
          refine lt_of_lt_of_le ?_ powers
          rw [Nat.div_lt_iff_lt_mul positive, Nat.mul_comm]
          exact Nat.mul_lt_mul_of_pos_left tracks.rest_lt unit
        dsimp only
        omega

/-! ### Trailing zeros -/

theorem value_dropped {m s k : ℕ} (le : k ≤ s) (zeros : m % tenTo k = 0) :
    ((m / tenTo k : ℕ) : ℚ) / 10 ^ (s - k) = (m : ℚ) / 10 ^ s := by
  have whole : m / tenTo k * tenTo k = m := Nat.div_mul_cancel (Nat.dvd_of_mod_eq_zero zeros)
  have cast : ((m / tenTo k : ℕ) : ℚ) * 10 ^ k = m := by
    rw [tenTo_eq_pow] at whole ⊢
    exact_mod_cast whole
  have split : (10 : ℚ) ^ s = 10 ^ k * 10 ^ (s - k) := by
    rw [← pow_add, Nat.add_sub_cancel' le]
  rw [split, ← cast, mul_comm (10 ^ k : ℚ), mul_div_mul_right _ _ (pow_ten_pos k).ne']

theorem value_dropEights (rounds m s : ℕ) :
    ((dropEights rounds m s).1 : ℚ) / 10 ^ (dropEights rounds m s).2 = (m : ℚ) / 10 ^ s := by
  induction rounds generalizing m s with
  | zero => rfl
  | succ rounds ih =>
    unfold dropEights
    split
    next zeros => rw [ih, value_dropped zeros.2.1 zeros.2.2]
    next => rfl

theorem value_dropZeros (k : ℕ) (x : ℕ × ℕ) :
    ((dropZeros k x).1 : ℚ) / 10 ^ (dropZeros k x).2 = (x.1 : ℚ) / 10 ^ x.2 := by
  unfold dropZeros
  split
  next zeros => exact value_dropped zeros.2.1 zeros.2.2
  next => rfl

theorem value_parts (x : Quotient) :
    (x.parts.1 : ℚ) / 10 ^ x.parts.2 = (x.digits : ℚ) / 10 ^ x.scale.toNat := by
  unfold parts
  dsimp only
  split
  · rw [value_dropZeros, value_dropZeros, value_dropZeros, value_dropEights]
  · rfl

end Quotient

namespace Rounded

theorem value_div_magnitude (a b : Decimal) :
    a.value / b.value = signed (a.negative != b.negative)
      ((a.mantissa / 10 ^ a.scale) / (b.mantissa / 10 ^ b.scale)) := by
  rw [value_eq_signed a, value_eq_signed b]
  cases a.negative <;> cases b.negative <;> simp [signed, neg_div, div_neg]

/-- The division starts with the quotient of the mantissas. -/
theorem tracks_start (a : Decimal) {b : Decimal} (nonzero : b.mantissa ≠ 0) :
    Quotient.Tracks b.mantissa ((a.mantissa / 10 ^ a.scale) / (b.mantissa / 10 ^ b.scale))
      ⟨a.mantissa / b.mantissa, a.mantissa % b.mantissa, a.scale - b.scale, false⟩ := by
  have positive : 0 < b.mantissa := Nat.pos_of_ne_zero nonzero
  have unit : (0 : ℚ) < b.mantissa := by exact_mod_cast positive
  refine ⟨Nat.mod_lt _ positive, ?_⟩
  have parts : ((a.mantissa / b.mantissa : ℕ) : ℚ) * b.mantissa +
      ((a.mantissa % b.mantissa : ℕ) : ℚ) = a.mantissa := by
    exact_mod_cast Nat.div_add_mod' a.mantissa b.mantissa
  have scales : (10 : ℚ) ^ ((a.scale : ℤ) - b.scale) = 10 ^ a.scale / 10 ^ b.scale := by
    rw [zpow_sub₀ (by norm_num), zpow_natCast, zpow_natCast]
  dsimp only
  rw [scales, ← parts]
  field_simp

theorem quotient_value {a b c : Decimal} (nonzero : b.mantissa ≠ 0)
    (made : quotient? a b = some c) : c.value = nearest (a.value / b.value) := by
  unfold quotient? at made
  simp only [Option.bind_eq_bind, Option.bind_eq_some_iff] at made
  obtain ⟨x, done, made⟩ := made
  have nonneg : (0 : ℚ) ≤ (a.mantissa / 10 ^ a.scale) / (b.mantissa / 10 ^ b.scale) := by positivity
  have ends := Quotient.continue_ends nonneg 58 (tracks_start a nonzero)
    (by have := a.scale_le; dsimp only; omega)
    ((Nat.div_le_self _ _).trans_lt a.mantissa_lt) done
  rw [value_ofParts made, Quotient.value_parts, ends.2, value_div_magnitude, nearest_signed]
  by_cases zero : x.parts.1 = 0
  · have none : nearest ((a.mantissa / 10 ^ a.scale) / (b.mantissa / 10 ^ b.scale)) = 0 := by
      rw [← ends.2, ← Quotient.value_parts, zero]
      simp
    rw [none]
    simp [signed]
  · rw [bne_iff_ne.2 zero, Bool.true_and]

theorem value_div {a b c : Decimal} (nonzero : b.value ≠ 0) (done : div a b = .ok c) :
    c.value = nearest (a.value / b.value) := by
  have divisor : b.mantissa ≠ 0 := mt (value_eq_zero_iff b).2 nonzero
  unfold div at done
  rw [if_neg divisor] at done
  split at done
  next zero =>
    obtain rfl := Except.ok.inj done
    simp [(value_eq_zero_iff a).2 zero]
  next => exact quotient_value divisor (orOverflow_eq_ok done)

end Rounded

end Decimal

end MarketMaker
