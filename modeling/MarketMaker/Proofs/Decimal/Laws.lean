import MarketMaker.Proofs.Decimal.Quotient
/-!
Laws of arithmetics. The standard one rounds every exact result to the nearest decimal. An
arithmetic may also be assumed never to round sums, or products, or anything; the strict one, which stops
where the standard one would round a sum, is an example, and so are the precise one, which stops at
products too, and the faithful one, which stops at quotients as well.
-/

namespace MarketMaker

open Decimal (nearest nearest_mono nearest_nonneg nearest_nonpos nearest_value le_nearest)

namespace Decimal

/-- The least positive decimal. -/
def tiny : Decimal := ⟨false, 1, 28, one_lt_bound, le_rfl⟩

theorem value_tiny : tiny.value = 1 / 10 ^ 28 := by
  rw [value_eq_signed]
  norm_num [tiny]

/-- Values of decimals are whole at 28 places. -/
theorem value_mul_pow (a : Decimal) :
    a.value * 10 ^ 28 = ((a.coefficient * 10 ^ (28 - a.scale) : ℤ) : ℚ) := by
  have split : (10 : ℚ) ^ 28 = 10 ^ a.scale * 10 ^ (28 - a.scale) := by
    rw [← pow_add, Nat.add_sub_cancel' a.scale_le]
  rw [value_eq, split, ← mul_assoc, div_mul_cancel₀ _ (pow_ten_pos _).ne']
  push_cast
  rfl

theorem tiny_le_sub {a b : Decimal} (less : b.value < a.value) : tiny.value ≤ a.value - b.value := by
  have scaled : b.value * 10 ^ 28 < a.value * 10 ^ 28 :=
    mul_lt_mul_of_pos_right less (pow_ten_pos 28)
  rw [value_mul_pow, value_mul_pow, Int.cast_lt] at scaled
  have gap : ((b.coefficient * 10 ^ (28 - b.scale) + 1 : ℤ) : ℚ) ≤
      ((a.coefficient * 10 ^ (28 - a.scale) : ℤ) : ℚ) := by
    exact_mod_cast scaled
  rw [Int.cast_add, ← value_mul_pow, ← value_mul_pow, Int.cast_one] at gap
  rw [value_tiny, div_le_iff₀ (pow_ten_pos 28)]
  linarith

theorem nearest_sub_pos {a b : Decimal} (less : b.value < a.value) :
    0 < nearest (a.value - b.value) :=
  lt_of_lt_of_le (by rw [value_tiny]; positivity) (le_nearest (tiny_le_sub less))

end Decimal

namespace Arithmetic

/-- Every result is the exact one, rounded to the nearest decimal. -/
structure Rounds [Arithmetic] : Prop where
  add : ∀ {a b c : Decimal}, a.add b = .ok c → c.value = nearest (a.value + b.value)
  sub : ∀ {a b c : Decimal}, a.sub b = .ok c → c.value = nearest (a.value - b.value)
  mul : ∀ {a b c : Decimal}, a.mul b = .ok c → c.value = nearest (a.value * b.value)
  div : ∀ {a b c : Decimal}, b.value ≠ 0 → a.div b = .ok c → c.value = nearest (a.value / b.value)

/-- Sums and differences are not rounded. -/
structure ExactSums [Arithmetic] : Prop where
  add : ∀ {a b c : Decimal}, a.add b = .ok c → c.value = a.value + b.value
  sub : ∀ {a b c : Decimal}, a.sub b = .ok c → c.value = a.value - b.value

/-- Products are not rounded. -/
def ExactProducts [Arithmetic] : Prop :=
  ∀ {a b c : Decimal}, a.mul b = .ok c → c.value = a.value * b.value

/-- No result is rounded. -/
structure Exact [Arithmetic] : Prop where
  sums : ExactSums
  products : ExactProducts
  div : ∀ {a b c : Decimal}, b.value ≠ 0 → a.div b = .ok c → c.value = a.value / b.value

/-- Sums and differences have the sign that the exact ones have. -/
structure SignedSums [Arithmetic] : Prop where
  add_nonneg : ∀ {a b c : Decimal}, a.add b = .ok c → 0 ≤ a.value → 0 ≤ b.value → 0 ≤ c.value
  sub_pos : ∀ {a b c : Decimal}, a.sub b = .ok c → (0 < c.value ↔ b.value < a.value)

section Laws

variable [Arithmetic]

theorem Rounds.signed (rounds : Rounds) : SignedSums where
  add_nonneg done left right := by
    rw [rounds.add done]
    exact nearest_nonneg (add_nonneg left right)
  sub_pos {a b c} done := by
    rw [rounds.sub done]
    constructor
    · intro positive
      by_contra notLess
      exact absurd positive (not_lt.2 (nearest_nonpos (by linarith)))
    · exact Decimal.nearest_sub_pos

/-- A result that is a decimal is the nearest one. -/
theorem Exact.rounds (exact : Exact) : Rounds where
  add done := by rw [← exact.sums.add done, nearest_value]
  sub done := by rw [← exact.sums.sub done, nearest_value]
  mul done := by rw [← exact.products done, nearest_value]
  div nonzero done := by rw [← exact.div nonzero done, nearest_value]

theorem ExactSums.signed (exact : ExactSums) : SignedSums where
  add_nonneg done left right := by
    rw [exact.add done]
    exact add_nonneg left right
  sub_pos {a b c} done := by
    rw [exact.sub done]
    constructor <;> intro less <;> linarith

end Laws

theorem rounding_rounds : @Rounds .rounding :=
  @Rounds.mk .rounding Decimal.Rounded.value_add Decimal.Rounded.value_sub
    Decimal.Rounded.value_mul Decimal.Rounded.value_div

/-- The result, unless it differs from the exact one. -/
def unlessRounded (operation : Overflow) (exact : ℚ) (result : Checked Decimal) : Checked Decimal :=
  match result with
  | .ok c => if c.value = exact then .ok c else .error operation
  | .error e => .error e

/-- The standard arithmetic, stopped where it would round a sum or a difference. -/
@[reducible] def strict : Arithmetic where
  add a b := unlessRounded .addition (a.value + b.value) (Decimal.Rounded.add a b)
  sub a b := unlessRounded .subtraction (a.value - b.value) (Decimal.Rounded.sub a b)
  mul := Decimal.Rounded.mul
  div := Decimal.Rounded.div

theorem unlessRounded_eq_ok {operation : Overflow} {exact : ℚ} {result : Checked Decimal}
    {c : Decimal} (done : unlessRounded operation exact result = .ok c) :
    result = .ok c ∧ c.value = exact := by
  unfold unlessRounded at done
  split at done
  · split at done
    next same =>
      obtain rfl := Except.ok.inj done
      exact ⟨rfl, same⟩
    next => exact absurd done (by simp)
  · exact absurd done (by simp)

theorem strict_exact : @ExactSums .strict :=
  @ExactSums.mk .strict (fun done => (unlessRounded_eq_ok done).2)
    (fun done => (unlessRounded_eq_ok done).2)

theorem strict_rounds : @Rounds .strict :=
  @Rounds.mk .strict (fun done => Decimal.Rounded.value_add (unlessRounded_eq_ok done).1)
    (fun done => Decimal.Rounded.value_sub (unlessRounded_eq_ok done).1)
    Decimal.Rounded.value_mul Decimal.Rounded.value_div

/-- The strict arithmetic, stopped where it would round a product. -/
@[reducible] def precise : Arithmetic :=
  { strict with
    mul := fun a b => unlessRounded .multiplication (a.value * b.value) (Decimal.Rounded.mul a b) }

theorem precise_exact : @ExactSums .precise :=
  @ExactSums.mk .precise (fun done => (unlessRounded_eq_ok done).2)
    (fun done => (unlessRounded_eq_ok done).2)

theorem precise_exactProducts : @ExactProducts .precise :=
  fun done => (unlessRounded_eq_ok done).2

theorem precise_rounds : @Rounds .precise :=
  @Rounds.mk .precise (fun done => Decimal.Rounded.value_add (unlessRounded_eq_ok done).1)
    (fun done => Decimal.Rounded.value_sub (unlessRounded_eq_ok done).1)
    (fun done => Decimal.Rounded.value_mul (unlessRounded_eq_ok done).1) Decimal.Rounded.value_div

/-- Every result of the one arithmetic is a result of the other. -/
structure Refines (stopping going : Arithmetic) : Prop where
  add : ∀ {a b c : Decimal}, stopping.add a b = .ok c → going.add a b = .ok c
  sub : ∀ {a b c : Decimal}, stopping.sub a b = .ok c → going.sub a b = .ok c
  mul : ∀ {a b c : Decimal}, stopping.mul a b = .ok c → going.mul a b = .ok c
  div : ∀ {a b c : Decimal}, stopping.div a b = .ok c → going.div a b = .ok c

theorem precise_refines : Refines .precise .rounding where
  add done := (unlessRounded_eq_ok done).1
  sub done := (unlessRounded_eq_ok done).1
  mul done := (unlessRounded_eq_ok done).1
  div done := done

/-- The precise arithmetic, stopped where it would round a quotient. -/
@[reducible] def faithful : Arithmetic :=
  { precise with
    div := fun a b => unlessRounded .division (a.value / b.value) (Decimal.Rounded.div a b) }

theorem faithful_exact : @Exact .faithful :=
  @Exact.mk .faithful
    (@ExactSums.mk .faithful (fun done => (unlessRounded_eq_ok done).2)
      (fun done => (unlessRounded_eq_ok done).2))
    (fun done => (unlessRounded_eq_ok done).2) (fun _ done => (unlessRounded_eq_ok done).2)

end Arithmetic

end MarketMaker
