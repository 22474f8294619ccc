import MarketMaker.Instant.Text
import MarketMaker.Proofs.Decimal.Text
import MarketMaker.Proofs.Instant.Calendar
/-!
An instant that is written and read back is the same instant, to the nanosecond, if its year has four
digits. So the text of such an instant names it.
-/

namespace MarketMaker

namespace Instant

open Decimal (lastDigits isDigit_lastDigits length_lastDigits ofDigitChars_lastDigits)

/-! ### Fields of fixed width -/

theorem lastDigits_zero (width : ℕ) : lastDigits width 0 = List.replicate width '0' := by
  induction width with
  | zero => rfl
  | succ width ih => rw [lastDigits, Nat.zero_div, ih, List.replicate_succ']; rfl

theorem toDigits_padded {width n : ℕ} (some : 0 < width) (fits : n < 10 ^ width) :
    List.replicate (width - (Nat.toDigits 10 n).length) '0' ++ Nat.toDigits 10 n =
      lastDigits width n := by
  induction width generalizing n with
  | zero => exact absurd some (lt_irrefl 0)
  | succ width ih =>
    by_cases single : n < 10
    · rw [Nat.toDigits_of_lt_base single, lastDigits, Nat.div_eq_of_lt single, lastDigits_zero,
        Nat.mod_eq_of_lt single]
      rfl
    · have more : width ≠ 0 := by
        rintro rfl
        exact single (by simpa using fits)
      have shorter : n / 10 < 10 ^ width := by
        rw [Nat.div_lt_iff_lt_mul (by decide), ← Nat.pow_succ]
        exact fits
      rw [Nat.toDigits_of_base_le (by decide) (not_lt.1 single), lastDigits,
        ← ih (Nat.pos_of_ne_zero more) shorter, List.length_append, List.length_singleton,
        Nat.add_sub_add_right, List.append_assoc]

theorem toList_padded {width n : ℕ} (some : 0 < width) (fits : n < 10 ^ width) :
    (padded width n).toList = lastDigits width n := by
  rw [← toDigits_padded some fits, padded, String.toList_append, String.toList_ofList,
    Nat.toString_eq_repr, ← String.length_toList, Nat.toList_repr]

theorem toList_twoDigits {n : ℕ} (fits : n < 100) :
    (Text.twoDigits n).toList = lastDigits 2 n := by
  rw [← toDigits_padded (by decide) (by simpa using fits), Text.twoDigits, Nat.toString_eq_repr]
  by_cases single : n < 10
  · rw [if_pos single, String.toList_append, Nat.toList_repr, Nat.toDigits_of_lt_base single]
    rfl
  · rw [if_neg single, Nat.toList_repr, Nat.toDigits_of_base_le (by decide) (not_lt.1 single),
      Nat.toDigits_of_lt_base (by omega)]
    rfl

/-! ### Reading -/

theorem foldl_digits (digits : List Char) (init : ℕ) :
    digits.foldl (fun n c => n * 10 + (c.toNat - '0'.toNat)) init =
      Nat.ofDigitChars 10 digits init := by
  simp only [Nat.ofDigitChars, Nat.mul_comm]

/-- Digits are read to their end, if no digit that could still be taken follows. -/
theorem number_lastDigits {least most width n : ℕ} {rest : List Char} (fits : n < 10 ^ width)
    (many : least ≤ width) (few : width ≤ most)
    (ends : (rest.take (most - width)).takeWhile Char.isDigit = []) :
    number? least most (lastDigits width n ++ rest) = some (n, rest) := by
  have taken : ((lastDigits width n ++ rest).take most).takeWhile Char.isDigit =
      lastDigits width n := by
    rw [List.take_append, length_lastDigits, List.take_of_length_le (by rwa [length_lastDigits]),
      List.takeWhile_append_of_pos (isDigit_lastDigits width n), ends, List.append_nil]
  have value := ofDigitChars_lastDigits width n 0
  rw [Nat.zero_mul, Nat.zero_add, Nat.mod_eq_of_lt fits] at value
  rw [number?, taken, foldl_digits, value, length_lastDigits, if_neg (not_lt.2 many),
    List.drop_left' (length_lastDigits width n)]

theorem number_field {width n : ℕ} (rest : List Char) (fits : n < 10 ^ width) :
    number? width width (lastDigits width n ++ rest) = some (n, rest) :=
  number_lastDigits fits le_rfl le_rfl (by simp)

theorem fraction_digits {width n : ℕ} (rest : List Char) (some : 1 ≤ width) (few : width ≤ 9)
    (fits : n < 10 ^ width) :
    fraction? ('.' :: (lastDigits width n ++ '+' :: rest)) =
      .some (n * tenTo (9 - width), '+' :: rest) := by
  have ends : (('+' :: rest).take (9 - width)).takeWhile Char.isDigit = [] := by
    cases 9 - width <;> rfl
  have length : (lastDigits width n ++ '+' :: rest).length - ('+' :: rest).length = width := by
    rw [List.length_append, length_lastDigits, Nat.add_sub_cancel]
  rw [fraction?, number_lastDigits fits some few ends]
  simp only [Option.bind_eq_bind, Option.bind_some, length]
  rfl

/-- Trailing groups of zeros are left out, and read as zeros. -/
theorem fraction_fractionText {n : ℕ} (rest : List Char) (fits : n < 10 ^ 9) :
    fraction? ((fractionText n).toList ++ '+' :: rest) = some (n, '+' :: rest) := by
  unfold fractionText
  split_ifs with zero thousands units
  · rw [zero]
    rfl
  · have short : n / 1000000 < 10 ^ 3 := by omega
    rw [String.toList_append, toList_padded (by decide) short]
    refine (fraction_digits rest (by decide) (by decide) short).trans ?_
    rw [show tenTo (9 - 3) = 1000000 from rfl, Nat.div_mul_cancel (Nat.dvd_of_mod_eq_zero thousands)]
  · have short : n / 1000 < 10 ^ 6 := by omega
    rw [String.toList_append, toList_padded (by decide) short]
    refine (fraction_digits rest (by decide) (by decide) short).trans ?_
    rw [show tenTo (9 - 6) = 1000 from rfl, Nat.div_mul_cancel (Nat.dvd_of_mod_eq_zero units)]
  · rw [String.toList_append, toList_padded (by decide) fits]
    refine (fraction_digits rest (by decide) (by decide) fits).trans ?_
    rw [show tenTo (9 - 9) = 1 from rfl, Nat.mul_one]

/-! ### Instants -/

/-- The year is written in four digits. -/
def FourDigitYear (t : Instant) : Prop :=
  0 ≤ t.date.year ∧ t.date.year ≤ 9999

instance (t : Instant) : Decidable t.FourDigitYear :=
  inferInstanceAs (Decidable (_ ∧ _))

theorem timeOfDay_lt (t : Instant) : t.timeOfDay < 86400 * Span.second := by
  have := Int.emod_lt_of_pos t.nanoseconds (show (0 : ℤ) < dayLength by decide)
  have := Int.emod_nonneg t.nanoseconds (show dayLength ≠ 0 by decide)
  unfold timeOfDay
  unfold dayLength at *
  omega

theorem ofDate_date (t : Instant) : ofDate t.date t.timeOfDay = t := by
  have := Int.emod_nonneg t.nanoseconds (show dayLength ≠ 0 by decide)
  rw [ofDate, date, Date.toDays_ofDays, timeOfDay, Int.toNat_of_nonneg this, mul_comm,
    Int.mul_ediv_add_emod]

/-- Hours are counted in a day, and nanoseconds in a second. -/
theorem clock_lt (t : Instant) :
    t.timeOfDay / Span.second / 3600 < 24 ∧ t.timeOfDay % Span.second < 10 ^ 9 := by
  have seconds : t.timeOfDay / Span.second < 86400 :=
    (Nat.div_lt_iff_lt_mul (by decide)).2 t.timeOfDay_lt
  exact ⟨by omega, Nat.mod_lt _ (by decide)⟩

theorem ofParts_clock (t : Instant) (valid : t.date.isValid = true) :
    ofParts? t.date (t.timeOfDay / Span.second / 3600) (t.timeOfDay / Span.second / 60 % 60)
      (t.timeOfDay / Span.second % 60) (t.timeOfDay % Span.second) 0 = some t := by
  obtain ⟨seconds, clock⟩ : ∃ seconds, seconds = t.timeOfDay / Span.second := ⟨_, rfl⟩
  have whole := Nat.div_add_mod' t.timeOfDay Span.second
  have hours := t.clock_lt.1
  rw [← clock] at whole hours ⊢
  have joined : ((seconds / 3600 : ℕ) : ℤ) * 3600 + (seconds / 60 % 60 : ℕ) * 60 +
      (seconds % 60 : ℕ) - 0 * 60 = seconds := by omega
  rw [ofParts?, if_pos ⟨valid, hours, by omega, by omega⟩]
  dsimp only
  rw [joined, ← Nat.cast_mul, ← Nat.cast_add, whole, ofDate_date]

theorem char_cons {c : Char} {allowed : List Char} (rest : List Char) (member : c ∈ allowed) :
    char? allowed (c :: rest) = some rest := if_pos member

/-- What is written of an instant is read as that instant. -/
theorem ofText_toText {t : Instant} (year : t.FourDigitYear) : ofText? t.toText = some t := by
  obtain ⟨least, most⟩ := year
  have valid : t.date.isValid = true :=
    Date.isValid_ofDays (le_trans (by decide) least) (le_trans most (by decide))
  obtain ⟨-, -, -, months, -, days⟩ := of_decide_eq_true valid
  have days : t.date.day < 10 ^ 2 := by
    unfold Date.daysIn at days
    split_ifs at days <;> omega
  have months : t.date.month < 10 ^ 2 := by omega
  have years : t.date.year.toNat < 10 ^ 4 := by omega
  obtain ⟨hours, fraction⟩ := t.clock_lt
  have hours : t.timeOfDay / Span.second / 3600 < 10 ^ 2 := by omega
  have minutes : t.timeOfDay / Span.second / 60 % 60 < 10 ^ 2 := by omega
  have seconds : t.timeOfDay / Span.second % 60 < 10 ^ 2 := by omega
  have written : t.toText.toList = lastDigits 4 t.date.year.toNat ++ ('-' ::
      (lastDigits 2 t.date.month ++ ('-' :: (lastDigits 2 t.date.day ++ ('T' ::
      (lastDigits 2 (t.timeOfDay / Span.second / 3600) ++ (':' ::
      (lastDigits 2 (t.timeOfDay / Span.second / 60 % 60) ++ (':' ::
      (lastDigits 2 (t.timeOfDay / Span.second % 60) ++
      ((fractionText (t.timeOfDay % Span.second)).toList ++ '+' :: "00:00".toList))))))))))) := by
    rw [← toList_padded (by decide) years, ← toList_twoDigits months, ← toList_twoDigits days,
      ← toList_twoDigits hours, ← toList_twoDigits minutes, ← toList_twoDigits seconds]
    simp [toText, toTextWith, dateText, clockText, yearText, least, most]
  have zone : offset? (char? [':']) ('+' :: "00:00".toList) = some (0, []) := by decide
  -- the text is read field by field, in the order in which it was written
  rw [ofText?, written]
  refine Option.bind_eq_some_iff.2 ⟨_, number_field _ years, ?_⟩
  refine Option.bind_eq_some_iff.2 ⟨_, char_cons _ (by decide), ?_⟩
  refine Option.bind_eq_some_iff.2 ⟨_, number_field _ months, ?_⟩
  refine Option.bind_eq_some_iff.2 ⟨_, char_cons _ (by decide), ?_⟩
  refine Option.bind_eq_some_iff.2 ⟨_, number_field _ days, ?_⟩
  refine Option.bind_eq_some_iff.2 ⟨_, char_cons _ (by decide), ?_⟩
  refine Option.bind_eq_some_iff.2 ⟨_, number_field _ hours, ?_⟩
  refine Option.bind_eq_some_iff.2 ⟨_, char_cons _ (by decide), ?_⟩
  refine Option.bind_eq_some_iff.2 ⟨_, number_field _ minutes, ?_⟩
  refine Option.bind_eq_some_iff.2 ⟨_, char_cons _ (by decide), ?_⟩
  refine Option.bind_eq_some_iff.2 ⟨_, number_field _ seconds, ?_⟩
  refine Option.bind_eq_some_iff.2 ⟨_, fraction_fractionText _ fraction, ?_⟩
  refine Option.bind_eq_some_iff.2 ⟨_, zone, ?_⟩
  dsimp only
  rw [if_pos List.isEmpty_nil, Int.toNat_of_nonneg least]
  exact t.ofParts_clock valid

/-- Instants of four-digit years are told apart by their texts. -/
theorem toText_inj {t u : Instant} (year : t.FourDigitYear) (year' : u.FourDigitYear) :
    t.toText = u.toText ↔ t = u := by
  refine ⟨fun same => ?_, congrArg toText⟩
  have read := ofText_toText year
  rw [same, ofText_toText year'] at read
  exact (Option.some.inj read).symm

end Instant

end MarketMaker
