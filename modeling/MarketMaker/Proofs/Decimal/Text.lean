import MarketMaker.Decimal.Text
import MarketMaker.Proofs.Decimal.Value
/-!
A decimal that is written and read back is the same decimal: its digits and its places are kept, and
so is its sign, unless it is zero. Sums do not depend on the sign of a zero.
-/

namespace MarketMaker

namespace Decimal

/-- Without the sign that a zero may have. -/
def unsignedZero (a : Decimal) : Decimal :=
  { a with negative := a.negative && a.mantissa != 0 }

theorem unsignedZero_of_ne {a : Decimal} (some : a.mantissa ≠ 0) : a.unsignedZero = a := by
  cases a
  simp_all [unsignedZero]

theorem unsignedZero_unsignedZero (a : Decimal) : a.unsignedZero.unsignedZero = a.unsignedZero := by
  simp [unsignedZero]

theorem value_unsignedZero (a : Decimal) : a.unsignedZero.value = a.value := by
  by_cases zero : a.mantissa = 0
  · rw [(value_eq_zero_iff a).2 zero, value_eq_zero_iff]
    exact zero
  · rw [unsignedZero_of_ne zero]

theorem mantissa_eq {a b : Decimal} (same : a.unsignedZero = b.unsignedZero) :
    a.mantissa = b.mantissa :=
  show a.unsignedZero.mantissa = b.unsignedZero.mantissa from congrArg mantissa same

/-! ### Digits -/

theorem digit_eq {c : Char} (digit : c.isDigit = true) : digit? c = some (c.toNat - '0'.toNat) := by
  simp only [Char.isDigit, Bool.and_eq_true, decide_eq_true_eq] at digit
  exact if_pos digit

theorem isDigit_digitChar {n : ℕ} (small : n < 10) : (Nat.digitChar n).isDigit = true := by
  interval_cases n <;> rfl

theorem length_lastDigits (width n : ℕ) : (lastDigits width n).length = width := by
  induction width generalizing n with
  | zero => rfl
  | succ width ih => rw [lastDigits, List.length_append, ih, List.length_singleton]

theorem isDigit_lastDigits (width n : ℕ) : ∀ c ∈ lastDigits width n, c.isDigit = true := by
  induction width generalizing n with
  | zero => exact fun c member => absurd member List.not_mem_nil
  | succ width ih =>
    intro c member
    rcases List.mem_append.1 member with earlier | last
    · exact ih _ c earlier
    · rw [List.mem_singleton.1 last]
      exact isDigit_digitChar (Nat.mod_lt n (by decide))

/-- The digits written behind what was read before. -/
theorem ofDigitChars_lastDigits (width n init : ℕ) :
    Nat.ofDigitChars 10 (lastDigits width n) init = init * 10 ^ width + n % 10 ^ width := by
  induction width generalizing n with
  | zero => simp [lastDigits, Nat.mod_one]
  | succ width ih =>
    have shifted := Nat.mod_mul (x := n) (a := 10) (b := 10 ^ width)
    rw [lastDigits, Nat.ofDigitChars_append, ih,
      Nat.ofDigitChars_cons_digitChar_of_lt_ten (Nat.mod_lt n (by decide)), Nat.ofDigitChars_nil,
      Nat.pow_succ', shifted]
    ring

/-! ### Reading -/

namespace Reading

theorem le_ofDigitChars (digits : List Char) (init : ℕ) : init ≤ Nat.ofDigitChars 10 digits init := by
  induction digits generalizing init with
  | nil => exact le_rfl
  | cons c digits ih =>
    rw [Nat.ofDigitChars_cons]
    exact le_trans (by omega) (ih _)

/-- Digits for which there is room are read one after the other. Before the point no place is
counted, behind it each digit takes one. -/
theorem finish_digits (x : Reading) {digits : List Char} (rest : List Char)
    (all : ∀ c ∈ digits, c.isDigit = true)
    (fits : Nat.ofDigitChars 10 digits x.mantissa < twoTo 96)
    (room : if x.point then x.places + digits.length ≤ 28 else x.places = 0) :
    finish? x (digits ++ rest) = finish?
      ⟨Nat.ofDigitChars 10 digits x.mantissa, if x.point then x.places + digits.length else 0,
        x.point, x.digit || !digits.isEmpty⟩ rest := by
  induction digits generalizing x with
  | nil =>
    obtain ⟨mantissa, places, point, digit⟩ := x
    cases point <;> simp_all
  | cons c digits ih =>
    obtain ⟨mantissa, places, point, digit⟩ := x
    rw [Nat.ofDigitChars_cons, mul_comm] at fits
    have open' : ¬ 28 ≤ places := by
      cases point <;> simp at room <;> omega
    have short := lt_of_le_of_lt (le_ofDigitChars _ _) fits
    rw [List.cons_append, finish?, if_neg open', digit_eq (all c List.mem_cons_self)]
    dsimp only
    rw [if_pos short, ih _ (fun d member => all d (List.mem_cons_of_mem c member)) fits]
    · rw [Nat.ofDigitChars_cons, mul_comm mantissa]
      cases point <;> simp [Nat.add_comm, Nat.add_left_comm]
    · cases point with
      | false => rfl
      | true =>
        simp only [if_true, List.length_cons] at room ⊢
        omega

end Reading

/-- Whole part and places are read as they were written. -/
theorem magnitude_chars (m s : ℕ) (fits : m < twoTo 96) (few : s ≤ 28) :
    magnitude? (Nat.toDigits 10 (m / tenTo s) ++
      if s = 0 then [] else '.' :: lastDigits s (m % tenTo s)) = some (m, s) := by
  have whole : Nat.ofDigitChars 10 (Nat.toDigits 10 (m / tenTo s)) 0 = m / tenTo s :=
    Nat.ofDigitChars_toDigits (by decide) (by decide)
  have smaller : m / tenTo s < twoTo 96 := lt_of_le_of_lt (Nat.div_le_self _ _) fits
  have written : (Nat.toDigits 10 (m / tenTo s)).isEmpty = false := by
    simp [Nat.toDigits_ne_nil]
  have before := Reading.finish_digits ⟨0, 0, false, false⟩
    (if s = 0 then [] else '.' :: lastDigits s (m % tenTo s))
    (fun c member => Nat.isDigit_of_mem_toDigits (by decide) (by decide) member)
    (lt_of_eq_of_lt whole smaller) rfl
  rw [magnitude?, before, whole, written]
  by_cases none : s = 0
  · subst none
    simp [Reading.finish?, tenTo_zero]
  · have joined : Nat.ofDigitChars 10 (lastDigits s (m % tenTo s)) (m / tenTo s) = m := by
      rw [ofDigitChars_lastDigits, tenTo_eq_pow, Nat.mod_mod]
      exact Nat.div_add_mod' m (10 ^ s)
    have some : (lastDigits s (m % tenTo s)).isEmpty = false := by
      rw [List.isEmpty_eq_false_iff, ← List.length_pos_iff, length_lastDigits]
      omega
    have behind := Reading.finish_digits ⟨m / tenTo s, 0, true, true⟩ []
      (isDigit_lastDigits s (m % tenTo s)) (lt_of_eq_of_lt joined fits)
      (by simpa [length_lastDigits] using few)
    rw [joined, length_lastDigits, List.append_nil] at behind
    rw [if_neg none, Reading.finish?]
    simpa [digit?, Reading.finish?] using behind

theorem ofChars_minus (rest : List Char) : ofChars? ('-' :: rest) =
    (magnitude? rest).bind fun (m, s) => ofParts? (m != 0) m s := by
  cases read : magnitude? rest <;> simp [ofChars?, read]

theorem ofChars_digit {c : Char} (digit : c.isDigit = true) (rest : List Char) :
    ofChars? (c :: rest) = (magnitude? (c :: rest)).bind fun (m, s) => ofParts? false m s := by
  have noMinus : c ≠ '-' := by rintro rfl; cases digit
  have noPlus : c ≠ '+' := by rintro rfl; cases digit
  cases read : magnitude? (c :: rest) <;> simp [ofChars?, noMinus, noPlus, read]

theorem ofChars_toChars (a : Decimal) : ofChars? a.toChars = some a.unsignedZero := by
  have read := magnitude_chars a.mantissa a.scale a.mantissa_lt a.scale_le
  have parts : ofParts? (a.negative && a.mantissa != 0) a.mantissa a.scale =
      some a.unsignedZero := dif_pos ⟨a.mantissa_lt, a.scale_le⟩
  rw [toChars, List.append_assoc]
  cases sign : a.negative with
  | true =>
    rw [if_pos rfl, List.singleton_append, ofChars_minus, read, ← parts, sign]
    rfl
  | false =>
    obtain ⟨c, digits, written⟩ := List.exists_cons_of_ne_nil
      (Nat.toDigits_ne_nil (b := 10) (n := a.mantissa / tenTo a.scale))
    have digit : c.isDigit = true := by
      refine Nat.isDigit_of_mem_toDigits (b := 10) (n := a.mantissa / tenTo a.scale)
        (by decide) (by decide) ?_
      rw [written]
      exact List.mem_cons_self
    rw [written, List.cons_append] at read ⊢
    rw [if_neg Bool.false_ne_true, List.nil_append, ofChars_digit digit, read, ← parts, sign]
    rfl

/-- What is written of a decimal is read as that decimal. -/
theorem ofText_toText (a : Decimal) : ofText? a.toText = some a.unsignedZero := by
  rw [ofText?, toText, String.toList_ofList, ofChars_toChars]

/-- A zero loses its sign, but not its places. -/
example : ofText? "-0.00" = some ⟨false, 0, 2, zero_lt_bound, by decide⟩ := by decide

end Decimal

/-- The sign that a zero has in a sum makes no difference, except in the sign of a zero. -/
def Arithmetic.IgnoresSignedZeros [Arithmetic] : Prop :=
  ∀ {a b c : Decimal}, a.add b = .ok c → ∀ a' b' : Decimal, a'.unsignedZero = a.unsignedZero →
    b'.unsignedZero = b.unsignedZero → ∃ c', a'.add b' = .ok c' ∧ c'.unsignedZero = c.unsignedZero

theorem Arithmetic.rounding_ignoresSignedZeros : @IgnoresSignedZeros .rounding := by
  intro a b c done a' b' left right
  change Decimal.Rounded.add a b = .ok c at done
  change ∃ c', Decimal.Rounded.add a' b' = .ok c' ∧ _
  have mantissa := Decimal.mantissa_eq left
  have mantissa' := Decimal.mantissa_eq right
  unfold Decimal.Rounded.add at done ⊢
  rw [mantissa, mantissa']
  split at done
  next zero =>
    obtain rfl := Except.ok.inj done
    exact ⟨b', if_pos zero, right⟩
  next some =>
    rw [if_neg some]
    split at done
    next zero =>
      obtain rfl := Except.ok.inj done
      exact ⟨a', if_pos zero, left⟩
    next some' =>
      rw [Decimal.unsignedZero_of_ne (mantissa ▸ some), Decimal.unsignedZero_of_ne some] at left
      rw [Decimal.unsignedZero_of_ne (mantissa' ▸ some'), Decimal.unsignedZero_of_ne some'] at right
      subst left right
      exact ⟨c, (if_neg some').trans done, rfl⟩

end MarketMaker
