import MarketMaker.Proofs.Decimal.Laws
/-!
Overflow is all that keeps the standard arithmetic from a result: an exact result that is not beyond the
greatest decimal is rounded to a decimal, however long it is.
-/

namespace MarketMaker

namespace Decimal

/-- The greatest decimal. -/
def greatest : ℚ := 2 ^ 96 - 1

theorem lt_of_le_greatest {n : ℕ} (small : (n : ℚ) ≤ greatest) : n < twoTo 96 := by
  have less : (n : ℚ) < (2 ^ 96 : ℕ) := by
    push_cast
    linarith [show greatest = 2 ^ 96 - 1 from rfl]
  exact_mod_cast less

theorem exists_ofParts (negative : Bool) {m s : ℕ} (fits : m < twoTo 96) (few : s ≤ 28) :
    ∃ c, ofParts? negative m s = some c :=
  ⟨_, dif_pos ⟨fits, few⟩⟩

/-! ### Fitting a long mantissa -/

theorem exists_excess {m s : ℕ} (small : (m : ℚ) / 10 ^ s ≤ greatest) :
    ∃ n, excess? m s = some n := by
  rw [← Option.isSome_iff_exists, excess?, List.find?_isSome]
  refine ⟨s, List.mem_range'_1.2 (by omega), decide_eq_true ?_⟩
  refine lt_of_le_greatest (le_trans ?_ small)
  rw [tenTo_eq_pow]
  exact_mod_cast Nat.cast_div_le (α := ℚ) (m := m) (n := 10 ^ s)

theorem exists_fit (negative : Bool) {m s : ℕ} (small : (m : ℚ) / 10 ^ s ≤ greatest) :
    ∃ c, fit? negative m s = some c := by
  obtain ⟨n, found⟩ := exists_excess small
  obtain ⟨few, le, short, -⟩ := excess_spec found
  rw [fit?, found, Option.bind_eq_bind, Option.bind_some]
  by_cases fits : roundHalfEven m (tenTo n) < twoTo 96
  · rw [if_pos fits]
    exact exists_ofParts negative fits (by omega)
  · rw [if_neg fits]
    have carried : roundHalfEven m (tenTo n) = twoTo 96 := by
      have upper : roundHalfEven m (tenTo n) ≤ m / tenTo n + 1 :=
        Rounding.quotient_le .halfEven m (tenTo n)
      omega
    have more : s ≠ n := by
      rintro rfl
      have scaled := roundEven_scaled m s s le_rfl
      rw [Nat.sub_self, pow_zero, mul_one] at scaled
      have bound := roundEven_mono small
      rw [scaled, carried, show greatest = ((2 ^ 96 - 1 : ℤ) : ℚ) by norm_num [greatest],
        roundEven_intCast] at bound
      exact absurd bound (by decide)
    rw [if_neg more, carried, carry_eq]
    exact exists_ofParts negative (by decide) (by omega)

/-! ### Sums and products -/

theorem exists_fitSum {x y : ℤ} {s : ℕ} (small : |((x + y : ℤ) : ℚ) / 10 ^ s| ≤ greatest) :
    ∃ c, fitSum? x y s = some c := by
  refine exists_fit _ (le_trans (le_of_eq ?_) small)
  rw [abs_div, abs_of_pos (pow_ten_pos s), ← Int.cast_natCast, Int.natCast_natAbs, Int.cast_abs]

namespace Rounded

variable {a b : Decimal}

theorem exists_add (small : |a.value + b.value| ≤ greatest) : ∃ c, add a b = .ok c := by
  unfold add
  split
  · exact ⟨b, rfl⟩
  · split
    · exact ⟨a, rfl⟩
    · rw [a.value_eq_at (le_max_left a.scale b.scale), b.value_eq_at (le_max_right a.scale b.scale),
        ← add_div, ← Int.cast_add] at small
      obtain ⟨c, made⟩ := exists_fitSum small
      exact ⟨c, congrArg (orOverflow .addition) made⟩

theorem exists_sub (small : |a.value - b.value| ≤ greatest) : ∃ c, sub a b = .ok c := by
  unfold sub
  split
  · exact ⟨_, rfl⟩
  · split
    · exact ⟨a, rfl⟩
    · rw [a.value_eq_at (le_max_left a.scale b.scale), b.value_eq_at (le_max_right a.scale b.scale),
        ← sub_div, ← Int.cast_sub, sub_eq_add_neg, ← neg_mul] at small
      obtain ⟨c, made⟩ := exists_fitSum small
      exact ⟨c, congrArg (orOverflow .subtraction) made⟩

theorem exists_mul (small : |a.value * b.value| ≤ greatest) : ∃ c, mul a b = .ok c := by
  unfold mul
  split
  · exact ⟨0, rfl⟩
  · split
    · exact ⟨0, rfl⟩
    · have magnitude : ((a.mantissa * b.mantissa : ℕ) : ℚ) / 10 ^ (a.scale + b.scale) ≤ greatest := by
        rw [value_mul_magnitude] at small
        refine le_trans (le_abs_self _) ?_
        cases same : (a.negative != b.negative) <;> simpa [same, signed, abs_neg] using small
      obtain ⟨c, made⟩ := exists_fit (a.negative != b.negative) magnitude
      exact ⟨_, by rw [made]; rfl⟩

end Rounded

/-! ### Quotients -/

namespace Quotient

variable {divisor : ℕ} {v : ℚ} {x : Quotient}

/-- There is room for as many digits as were counted, and for no more, unless nine or all places are
taken. -/
theorem room_full (x : Quotient) (small : x.digits < twoTo 96) :
    x.digits * tenTo x.room < twoTo 96 ∧
      (x.room < 9 → (x.room : ℤ) < 28 - x.scale → twoTo 96 ≤ x.digits * tenTo (x.room + 1)) := by
  unfold room
  dsimp only
  generalize bound : min 9 (28 - x.scale).toNat = most
  have none' : x.digits * tenTo 0 < twoTo 96 := by simpa [tenTo_zero] using small
  cases found : (List.range (most + 1)).reverse.find?
      fun p => decide (x.digits * tenTo p < twoTo 96) with
  | none =>
    rw [List.find?_eq_none] at found
    have := found 0 (by rw [List.mem_reverse, List.mem_range]; omega)
    exact absurd none' (by simpa using this)
  | some p =>
    obtain ⟨fits, -, next⟩ := find?_descending found
    rw [Option.getD_some]
    refine ⟨of_decide_eq_true fits, fun few more => ?_⟩
    simpa using next (by omega)

/-- Where no place was found yet, the digits with the missing zeros are within the number. -/
theorem Tracks.digits_le (tracks : Tracks divisor v x) {p : ℕ} (open' : x.scale + p ≤ 0) :
    ((x.digits * tenTo p : ℕ) : ℚ) ≤ v := by
  have rest : (0 : ℚ) ≤ (x.rest : ℚ) / divisor := by positivity
  have whole : (x.digits : ℚ) ≤ v * 10 ^ x.scale := by
    rw [tracks.exact]
    linarith
  have shift : (10 : ℚ) ^ x.scale * 10 ^ p ≤ 1 := by
    rw [← zpow_natCast, ← zpow_add₀ (by norm_num)]
    exact zpow_le_one_of_nonpos₀ (by norm_num) open'
  have nonneg : 0 ≤ v := by
    by_contra negative
    have := mul_neg_of_neg_of_pos (not_le.1 negative) (zpow_pos (show (0 : ℚ) < 10 by norm_num) x.scale)
    have : (0 : ℚ) ≤ x.digits := by positivity
    linarith
  rw [tenTo_eq_pow]
  push_cast
  calc (x.digits : ℚ) * 10 ^ p ≤ v * 10 ^ x.scale * 10 ^ p := by gcongr
    _ = v * (10 ^ x.scale * 10 ^ p) := mul_assoc _ _ _
    _ ≤ v * 1 := mul_le_mul_of_nonneg_left shift nonneg
    _ = v := mul_one v

/-- The division ended in parts that are those of a decimal. -/
def Fits (x : Quotient) : Prop :=
  x.digits < twoTo 96 ∧ x.scale ≤ 28

theorem exists_roundLast (tracks : Tracks divisor v x) (small : v ≤ greatest) (placed : 0 ≤ x.scale)
    (fits : x.Fits) : ∃ y, roundLast? divisor x = some y ∧ y.Fits := by
  unfold roundLast?
  split
  · exact ⟨x, rfl, fits⟩
  next up =>
  split
  next short => exact ⟨_, rfl, short, fits.2⟩
  next carried =>
  split
  next whole =>
    exfalso
    have same : x.scale = 0 := le_antisymm whole placed
    have exact' := tracks.exact
    rw [same, zpow_zero, mul_one] at exact'
    have positive : (0 : ℚ) < divisor := by
      exact_mod_cast (Nat.zero_le _).trans_lt tracks.rest_lt
    have half : (1 : ℚ) / 2 ≤ (x.rest : ℚ) / divisor := by
      rw [div_le_div_iff₀ two_pos positive, one_mul, mul_comm]
      exact_mod_cast not_lt.1 (not_or.1 up).1
    have digits : (x.digits : ℚ) = 2 ^ 96 - 1 := by
      have := fits.1
      have last : x.digits + 1 = twoTo 96 := by omega
      rw [eq_sub_iff_add_eq]
      exact_mod_cast last
    rw [digits] at exact'
    have := show greatest = 2 ^ 96 - 1 from rfl
    linarith
  next more =>
    have few := fits.2
    exact ⟨_, rfl, show twoTo 96 / 10 + 1 < twoTo 96 by decide, show x.scale - 1 ≤ 28 by omega⟩

theorem exists_dropLast (small : v ≤ greatest) (tracks : Tracks divisor v x)
    (few : x.scale ≤ 28) (long : twoTo 96 ≤ x.digits) (bounded : x.digits < twoTo 96 + tenTo 9) :
    ∃ y, dropLast? x = some y ∧ y.Fits := by
  unfold dropLast?
  split
  next whole =>
    exfalso
    have within := (tracks.digits_le (p := 0) (by simpa using whole)).trans small
    rw [tenTo_zero, mul_one] at within
    exact absurd (lt_of_le_greatest within) (not_lt.2 long)
  next placed =>
    have bounds : twoTo 96 = 79228162514264337593543950336 ∧ tenTo 9 = 1000000000 := by decide
    refine ⟨_, rfl, ?_, show x.scale - 1 ≤ 28 by omega⟩
    dsimp only
    split <;> omega

/-- As long as no place was found, another round's digits without its own are in range. -/
theorem Tracks.digits_lt (tracks : Tracks divisor v x) (small : v ≤ greatest) {p : ℕ}
    (open' : x.scale + p ≤ 0) : x.digits * tenTo p < twoTo 96 :=
  lt_of_le_greatest ((tracks.digits_le open').trans small)

/-- The digits that a round of nine places or fewer adds. -/
theorem Tracks.added_lt (tracks : Tracks divisor v x) {p : ℕ} (nine : p ≤ 9) :
    x.rest * tenTo p / divisor < tenTo 9 := by
  have positive : 0 < divisor := (Nat.zero_le _).trans_lt tracks.rest_lt
  have powers : tenTo p ≤ tenTo 9 := by
    rw [tenTo_eq_pow, tenTo_eq_pow]
    exact Nat.pow_le_pow_right (by decide) nine
  refine lt_of_lt_of_le ?_ powers
  rw [Nat.div_lt_iff_lt_mul positive, Nat.mul_comm]
  exact Nat.mul_lt_mul_of_pos_left tracks.rest_lt (tenTo_pos p)

/-- Every round finds a place, so that as many rounds are enough as places may be missing. -/
theorem exists_continue (rounds : ℕ) (tracks : Tracks divisor v x) (small : v ≤ greatest)
    (fits : x.Fits) (enough : 28 - x.scale < rounds) :
    ∃ y, continue? divisor rounds x = some y ∧ y.Fits := by
  induction rounds generalizing x with
  | zero =>
    have := fits.2
    omega
  | succ rounds ih =>
    obtain ⟨places, nine, -⟩ := x.room_spec
    obtain ⟨short, full⟩ := x.room_full fits.1
    have few := fits.2
    unfold continue?
    by_cases finished : x.rest = 0 ∧ 0 ≤ x.scale
    · rw [if_pos finished]
      exact ⟨x, rfl, fits⟩
    · rw [if_neg finished]
      dsimp only
      obtain ⟨p, count⟩ : ∃ p, p = if x.rest = 0 then min 9 (-x.scale).toNat else x.room := ⟨_, rfl⟩
      rw [← count]
      have room : ¬ (x.rest ≠ 0 ∧ p < 9 ∧ p + x.scale < 0) := by
        rintro ⟨some, less, open'⟩
        rw [if_neg some] at count
        subst count
        exact absurd (tracks.digits_lt small (by push_cast; omega)) (not_lt.2 (full less (by omega)))
      rw [if_neg room]
      by_cases none : p = 0
      · rw [if_pos none]
        have open' : x.rest ≠ 0 := by
          intro zero
          rw [if_pos zero] at count
          omega
        exact exists_roundLast (x := { x with inexact := x.inexact || x.rest != 0 })
          ⟨tracks.rest_lt, tracks.exact⟩ small (by dsimp only; omega) fits
      · rw [if_neg none]
        have digits : x.digits * tenTo p < twoTo 96 := by
          by_cases zero : x.rest = 0
          · rw [if_pos zero] at count
            exact tracks.digits_lt small (by omega)
          · rw [if_neg zero] at count
            rwa [count]
        rw [if_neg (not_le.2 digits)]
        have next' := tracks.step p (x.inexact || x.rest != 0)
        have scale : x.scale + p ≤ 28 := by
          split at count <;> omega
        split
        next fits' => exact ih next' ⟨fits', scale⟩ (by dsimp only; omega)
        next long =>
          refine exists_dropLast small next' scale (not_lt.1 long) ?_
          have added := tracks.added_lt (p := p) (by split at count <;> omega)
          dsimp only
          omega

/-! ### Trailing zeros -/

theorem dropEights_le (rounds m s : ℕ) :
    (dropEights rounds m s).1 ≤ m ∧ (dropEights rounds m s).2 ≤ s := by
  induction rounds generalizing m s with
  | zero => exact ⟨le_rfl, le_rfl⟩
  | succ rounds ih =>
    unfold dropEights
    split
    · exact ⟨(ih _ _).1.trans (Nat.div_le_self _ _), (ih _ _).2.trans (Nat.sub_le _ _)⟩
    · exact ⟨le_rfl, le_rfl⟩

theorem dropZeros_le (k : ℕ) (x : ℕ × ℕ) : (dropZeros k x).1 ≤ x.1 ∧ (dropZeros k x).2 ≤ x.2 := by
  unfold dropZeros
  split
  · exact ⟨Nat.div_le_self _ _, Nat.sub_le _ _⟩
  · exact ⟨le_rfl, le_rfl⟩

theorem parts_le (x : Quotient) : x.parts.1 ≤ x.digits ∧ x.parts.2 ≤ x.scale.toNat := by
  unfold parts
  dsimp only
  split
  · have eights := dropEights_le 4 x.digits x.scale.toNat
    have fours := dropZeros_le 4 (dropEights 4 x.digits x.scale.toNat)
    have twos := dropZeros_le 2 (dropZeros 4 (dropEights 4 x.digits x.scale.toNat))
    have ones := dropZeros_le 1 (dropZeros 2 (dropZeros 4 (dropEights 4 x.digits x.scale.toNat)))
    exact ⟨ones.1.trans (twos.1.trans (fours.1.trans eights.1)),
      ones.2.trans (twos.2.trans (fours.2.trans eights.2))⟩
  · exact ⟨le_rfl, le_rfl⟩

end Quotient

namespace Rounded

variable {a b : Decimal}

theorem exists_quotient (nonzero : b.mantissa ≠ 0) (small : |a.value / b.value| ≤ greatest) :
    ∃ c, quotient? a b = some c := by
  have magnitude : ((a.mantissa : ℚ) / 10 ^ a.scale) / (b.mantissa / 10 ^ b.scale) ≤ greatest := by
    rw [value_div_magnitude] at small
    refine le_trans (le_abs_self _) ?_
    cases same : (a.negative != b.negative) <;> simpa [same, signed, abs_neg] using small
  have few := a.scale_le
  have few' := b.scale_le
  obtain ⟨x, done, short, places⟩ := Quotient.exists_continue 58 (tracks_start a nonzero) magnitude
    ⟨(Nat.div_le_self _ _).trans_lt a.mantissa_lt, by dsimp only; omega⟩ (by dsimp only; omega)
  obtain ⟨digits, scale⟩ := x.parts_le
  rw [quotient?, Option.bind_eq_bind, done, Option.bind_some]
  exact exists_ofParts _ (digits.trans_lt short) (scale.trans (Int.toNat_le.2 places))

theorem exists_div (nonzero : b.value ≠ 0) (small : |a.value / b.value| ≤ greatest) :
    ∃ c, div a b = .ok c := by
  have divisor : b.mantissa ≠ 0 := mt (value_eq_zero_iff b).2 nonzero
  unfold div
  rw [if_neg divisor]
  split
  · exact ⟨0, rfl⟩
  · obtain ⟨c, made⟩ := exists_quotient divisor small
    exact ⟨c, congrArg (orOverflow .division) made⟩

end Rounded

end Decimal

namespace Arithmetic

open Decimal (greatest nearest)

/-- Every result is there, rounded to the nearest decimal, unless it is beyond the greatest decimal. -/
structure Total [Arithmetic] : Prop where
  add : ∀ {a b : Decimal}, |a.value + b.value| ≤ greatest →
    ∃ c, a.add b = .ok c ∧ c.value = nearest (a.value + b.value)
  sub : ∀ {a b : Decimal}, |a.value - b.value| ≤ greatest →
    ∃ c, a.sub b = .ok c ∧ c.value = nearest (a.value - b.value)
  mul : ∀ {a b : Decimal}, |a.value * b.value| ≤ greatest →
    ∃ c, a.mul b = .ok c ∧ c.value = nearest (a.value * b.value)
  div : ∀ {a b : Decimal}, b.value ≠ 0 → |a.value / b.value| ≤ greatest →
    ∃ c, a.div b = .ok c ∧ c.value = nearest (a.value / b.value)

theorem rounding_total : @Total .rounding :=
  @Total.mk .rounding
    (fun small => (Decimal.Rounded.exists_add small).imp fun _ done =>
      ⟨done, Decimal.Rounded.value_add done⟩)
    (fun small => (Decimal.Rounded.exists_sub small).imp fun _ done =>
      ⟨done, Decimal.Rounded.value_sub done⟩)
    (fun small => (Decimal.Rounded.exists_mul small).imp fun _ done =>
      ⟨done, Decimal.Rounded.value_mul done⟩)
    (fun nonzero small => (Decimal.Rounded.exists_div nonzero small).imp fun _ done =>
      ⟨done, Decimal.Rounded.value_div nonzero done⟩)

end Arithmetic

end MarketMaker
