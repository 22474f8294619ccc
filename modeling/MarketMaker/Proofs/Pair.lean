import MarketMaker.Pair
import Mathlib.Data.List.DropRight
import Mathlib.Data.List.TakeWhile
import Mathlib.Tactic
/-!
The text of a pair names it. Upper case leads to capitals: characters that it leaves as they are, none of
them a dash or a blank. So the text of a pair that was read has one dash and nothing to trim, and reads as
the pair again.
-/

namespace MarketMaker

namespace Text

/-! ### Capitals -/

namespace CaseRun

/-- A run of one code. -/
def single (code : ℕ) : CaseRun :=
  ⟨code, code, 1, 0⟩

/-- The codes that the letters of the run have as capitals. -/
def capitals (run : CaseRun) : CaseRun :=
  ⟨(run.first + run.shift).toNat, (run.last + run.shift).toNat, run.step, 0⟩

/-- No code is in both runs: one ends before the other begins, or they take turns. -/
def apart (a b : CaseRun) : Bool :=
  a.last.blt b.first || b.last.blt a.first ||
    (a.first.beq a.last || (a.step % b.step).beq 0) && !(a.first % b.step).beq (b.first % b.step)

theorem contains_iff {run : CaseRun} {n : ℕ} :
    run.contains n = true ↔ run.first ≤ n ∧ n ≤ run.last ∧ (n - run.first) % run.step = 0 :=
  decide_eq_true_iff

theorem contains_single {code : ℕ} : (single code).contains code = true := by
  simp [contains, single]

theorem contains_capitals {run : CaseRun} {n : ℕ} (above : 0 ≤ run.first + run.shift)
    (letter : run.contains n = true) : run.capitals.contains (n + run.shift).toNat = true := by
  obtain ⟨first, last, steps⟩ := contains_iff.1 letter
  refine contains_iff.2 ⟨?_, ?_, ?_⟩
  · exact Int.toNat_le_toNat (by omega)
  · exact Int.toNat_le_toNat (by omega)
  · change ((n + run.shift).toNat - (run.first + run.shift).toNat) % run.step = 0
    rwa [show (n + run.shift).toNat - (run.first + run.shift).toNat = n - run.first by omega]

theorem not_contains_of_apart {a b : CaseRun} {n : ℕ} (apart : a.apart b = true)
    (within : a.contains n = true) : b.contains n = false := by
  rw [Bool.eq_false_iff]
  intro shared
  obtain ⟨first, last, steps⟩ := contains_iff.1 within
  obtain ⟨first', last', steps'⟩ := contains_iff.1 shared
  have turn' : b.first ≡ n [MOD b.step] := (Nat.modEq_iff_dvd' first').2 (Nat.dvd_of_mod_eq_zero steps')
  simp only [CaseRun.apart, Nat.blt_eq, Bool.or_eq_true, Bool.and_eq_true, Bool.not_eq_true',
    ← Bool.not_eq_true, Nat.beq_eq] at apart
  rcases apart with (before | after) | ⟨alone | multiple, turns⟩
  · omega
  · omega
  · obtain rfl : n = a.first := by omega
    exact turns turn'.symm
  · have turn : a.first ≡ n [MOD b.step] :=
      ((Nat.modEq_iff_dvd' first).2 (Nat.dvd_of_mod_eq_zero steps)).of_dvd
        (Nat.dvd_of_mod_eq_zero multiple)
    exact turns (turn.trans turn'.symm)

end CaseRun

/-- The codes of the dash, of the blanks and of the letters that have an upper case. -/
def unsettled : List CaseRun :=
  .single 45 :: (blankRanges.map fun (first, last) => ⟨first, last, 1, 0⟩) ++
    (longCases.map fun entry => .single entry.1) ++ caseRuns

theorem apart_caseRuns : (caseRuns.all fun run => unsettled.all run.capitals.apart) = true := by
  decide +kernel

theorem apart_longCases : (longCases.all fun entry => !entry.2.isEmpty &&
    entry.2.all fun code => unsettled.all (CaseRun.single code).apart) = true := by
  decide +kernel

/-- A character to which reading a pair does nothing. -/
def Settled (c : Char) : Prop :=
  upperChars c = [c] ∧ c ≠ '-' ∧ isBlank c = false

theorem settled_of_outside {c : Char} (outside : ∀ run ∈ unsettled, run.contains c.toNat = false) :
    Settled c := by
  simp only [unsettled, List.cons_append, List.forall_mem_cons, List.forall_mem_append,
    List.forall_mem_map] at outside
  obtain ⟨dash, ⟨blanks, longs⟩, runs⟩ := outside
  refine ⟨?_, ?_, ?_⟩
  · have short : longCases.lookup c.toNat = none := by
      rw [List.lookup_eq_none_iff]
      intro entry listed
      rw [bne_iff_ne]
      intro same
      exact absurd (same ▸ CaseRun.contains_single) (Bool.eq_false_iff.1 (longs entry listed))
    have still : caseRuns.find? (fun run => run.contains c.toNat) = none := by
      rw [List.find?_eq_none]
      exact fun run listed => Bool.eq_false_iff.1 (runs run listed)
    rw [upperChars, short]
    simp only [still]
  · rintro rfl
    exact absurd dash (by decide)
  · rw [isBlank, List.any_eq_false]
    rintro ⟨first, last⟩ listed within
    have outside := blanks (first, last) listed
    have inside := of_decide_eq_true within
    simp [CaseRun.contains, inside, Nat.mod_one] at outside

theorem settled_ofNat {run : CaseRun} {n : ℕ} (apart : unsettled.all run.apart = true)
    (within : run.contains n = true) : Settled (Char.ofNat n) := by
  by_cases valid : n.isValidChar
  case pos =>
    have code : (Char.ofNat n).toNat = n := by
      rw [Char.ofNat, dif_pos valid]
      rfl
    refine settled_of_outside fun other listed => ?_
    rw [code]
    exact CaseRun.not_contains_of_apart (List.all_eq_true.1 apart other listed) within
  case neg =>
    rw [Char.ofNat, dif_neg valid]
    exact ⟨by decide +kernel, by decide, by decide⟩

theorem capitals_nonneg : ∀ run ∈ caseRuns, 0 ≤ run.first + run.shift := by
  decide +kernel

/-- Upper case is some text, and settled unless it is the character itself. -/
theorem upperChars_cases (c : Char) :
    upperChars c ≠ [] ∧ (upperChars c = [c] ∨ ∀ d ∈ upperChars c, Settled d) := by
  unfold upperChars
  split
  next codes found =>
    obtain ⟨before, after, listed, -⟩ := List.lookup_eq_some_iff.1 found
    have checked := List.all_eq_true.1 apart_longCases (c.toNat, codes)
      (listed ▸ List.mem_append_right before List.mem_cons_self)
    rw [Bool.and_eq_true, List.all_eq_true] at checked
    refine ⟨?_, .inr fun d member => ?_⟩
    · rintro none
      rw [List.map_eq_nil_iff] at none
      simp [none] at checked
    · obtain ⟨code, among, rfl⟩ := List.mem_map.1 member
      exact settled_ofNat (checked.2 code among) CaseRun.contains_single
  next =>
    split
    next run found =>
      have listed := List.mem_of_find?_eq_some found
      have within := List.find?_some found
      refine ⟨List.cons_ne_nil _ _, .inr fun d member => ?_⟩
      rw [List.mem_singleton.1 member]
      exact settled_ofNat (List.all_eq_true.1 apart_caseRuns run listed)
        (CaseRun.contains_capitals (capitals_nonneg run listed) within)
    next => exact ⟨List.cons_ne_nil _ _, .inl rfl⟩

theorem settled_or_eq {c d : Char} (member : d ∈ upperChars c) :
    Settled d ∨ d = c ∧ upperChars d = [d] := by
  rcases (upperChars_cases c).2 with same | settled
  · obtain rfl : d = c := by rwa [same, List.mem_singleton] at member
    exact .inr ⟨rfl, same⟩
  · exact .inl (settled d member)

theorem dash_notMem_upperChars {c : Char} (other : c ≠ '-') : '-' ∉ upperChars c := by
  intro member
  rcases settled_or_eq member with settled | ⟨same, -⟩
  · exact settled.2.1 rfl
  · exact other same.symm

theorem notBlank_of_mem_upperChars {c d : Char} (notBlank : isBlank c = false)
    (member : d ∈ upperChars c) : isBlank d = false := by
  rcases settled_or_eq member with settled | ⟨rfl, -⟩
  · exact settled.2.2
  · exact notBlank

theorem upperChars_of_mem_upperChars {c d : Char} (member : d ∈ upperChars c) : upperChars d = [d] := by
  rcases settled_or_eq member with settled | ⟨-, same⟩
  · exact settled.1
  · exact same

/-! ### Texts in upper case -/

theorem toList_upper (s : String) : (upper s).toList = s.toList.flatMap upperChars := by
  rw [upper, String.toList_ofList]

theorem dash_notMem_upper {s : String} (none : '-' ∉ s.toList) : '-' ∉ (upper s).toList := by
  rw [toList_upper]
  intro member
  obtain ⟨c, among, dash⟩ := List.mem_flatMap.1 member
  exact dash_notMem_upperChars (fun same => none (same ▸ among)) dash

theorem upper_upper (s : String) : upper (upper s) = upper s := by
  have fixed : ∀ c ∈ (upper s).toList, upperChars c = [c] := by
    intro c member
    rw [toList_upper] at member
    obtain ⟨letter, -, among⟩ := List.mem_flatMap.1 member
    exact upperChars_of_mem_upperChars among
  rw [← String.toList_inj, toList_upper (upper s), List.flatMap_congr fixed, List.flatMap_singleton']

theorem upper_eq_empty {s : String} : (upper s).toList = [] ↔ s.toList = [] := by
  rw [toList_upper, List.flatMap_eq_nil_iff]
  constructor
  · intro none
    rw [List.eq_nil_iff_forall_not_mem]
    exact fun c member => (upperChars_cases c).1 (none c member)
  · intro empty
    simp [empty]

/-! ### Texts without blanks around them -/

/-- No blank stands at either end. -/
def Trimmed (text : List Char) : Prop :=
  (∀ c ∈ text.head?, isBlank c = false) ∧ ∀ c ∈ text.getLast?, isBlank c = false

theorem trimStart_eq_self {text : List Char} (front : ∀ c ∈ text.head?, isBlank c = false) :
    trimStart text = text := by
  cases text with
  | nil => rfl
  | cons c rest =>
    have sharp := front c rfl
    rw [trimStart, List.dropWhile_cons_of_neg (by simp [sharp])]

theorem head?_trimStart (text : List Char) : ∀ c ∈ (trimStart text).head?, isBlank c = false := by
  intro c first
  have found := List.head?_dropWhile_not isBlank text
  rw [trimStart] at first
  rwa [Option.mem_def.1 first] at found

theorem trimmed_trim (text : List Char) : Trimmed (trim text) := by
  constructor
  · -- What is cut off at the end leaves the front as it is.
    obtain ⟨rest, whole⟩ := List.rdropWhile_prefix isBlank (trimStart text)
    intro c first
    refine head?_trimStart text c ?_
    rw [← whole, List.head?_append, Option.mem_def]
    rw [Option.mem_def, trim] at first
    rw [List.rdropWhile, ← trimStart, first, Option.some_or]
  · rw [trim, List.getLast?_reverse]
    exact head?_trimStart _

theorem Trimmed.trim_eq {text : List Char} (trimmed : Trimmed text) : trim text = text := by
  rw [trim, trimStart_eq_self trimmed.1, trimStart_eq_self (List.head?_reverse ▸ trimmed.2),
    List.reverse_reverse]

theorem head?_flatMap {f : Char → List Char} (full : ∀ c, f c ≠ [])
    (keeps : ∀ c, isBlank c = false → ∀ d ∈ f c, isBlank d = false) {text : List Char}
    (front : ∀ c ∈ text.head?, isBlank c = false) : ∀ d ∈ (text.flatMap f).head?, isBlank d = false := by
  cases text with
  | nil => simp
  | cons c rest =>
    obtain ⟨d, more, begun⟩ := List.exists_cons_of_ne_nil (full c)
    rw [List.flatMap_cons, begun, List.cons_append, List.head?_cons]
    rintro _ ⟨⟩
    exact keeps c (front c rfl) d (begun ▸ List.mem_cons_self)

theorem Trimmed.flatMap_upperChars {text : List Char} (trimmed : Trimmed text) :
    Trimmed (text.flatMap upperChars) := by
  refine ⟨head?_flatMap (fun c => (upperChars_cases c).1)
    (fun c notBlank d => notBlank_of_mem_upperChars notBlank) trimmed.1, ?_⟩
  rw [← List.head?_reverse, List.reverse_flatMap]
  refine head?_flatMap (fun c => ?_) (fun c notBlank d member => ?_)
    (List.head?_reverse ▸ trimmed.2)
  · rw [Function.comp_apply, ne_eq, List.reverse_eq_nil_iff]
    exact (upperChars_cases c).1
  · exact notBlank_of_mem_upperChars notBlank (List.mem_reverse.1 member)

end Text

namespace Pair

open Text (trim Trimmed upper upperChars)

variable {text : String} {pair : Pair}

/-- The text is two parts around its only dash, none of them empty. -/
def Splits (text base quote : List Char) : Prop :=
  text = base ++ '-' :: quote ∧ base ≠ [] ∧ quote ≠ [] ∧ '-' ∉ base ∧ '-' ∉ quote

theorem ofText?_eq_some : ofText? text = some pair ↔ ∃ base quote,
    Splits (trim text.toList) base quote ∧
    pair = ⟨upper (String.ofList base), upper (String.ofList quote)⟩ := by
  constructor
  · intro read
    unfold ofText? at read
    dsimp only at read
    split at read
    next => cases read
    next dash quote rest =>
      split at read
      next => cases read
      next proper =>
        simp only [List.isEmpty_iff, not_or] at proper
        have stop : dash = '-' := by
          have found := List.head?_dropWhile_not (· != '-') (trim text.toList)
          rw [rest] at found
          simpa using found
        subst stop
        refine ⟨_, quote, ⟨?_, proper.1, proper.2.1, fun member => ?_, proper.2.2⟩,
          (Option.some.inj read).symm⟩
        · rw [← rest, List.takeWhile_append_dropWhile]
        · exact absurd (List.mem_takeWhile_imp member) (by decide)
  · rintro ⟨base, quote, ⟨whole, some, more, inBase, inQuote⟩, rfl⟩
    have passes : ∀ c ∈ base, (c != '-') = true := fun c member =>
      bne_iff_ne.2 fun same => inBase (same ▸ member)
    unfold ofText?
    simp only [whole, List.takeWhile_append_of_pos passes, List.dropWhile_append_of_pos passes]
    simp [some, more, inQuote]

/-- Some text reads as the pair. -/
def Named (pair : Pair) : Prop :=
  ∃ text, ofText? text = some pair

theorem dash_notMem_of_named (named : pair.Named) : '-' ∉ pair.base.toList ∧ '-' ∉ pair.quote.toList := by
  obtain ⟨text, read⟩ := named
  obtain ⟨base, quote, ⟨-, -, -, inBase, inQuote⟩, rfl⟩ := ofText?_eq_some.1 read
  exact ⟨Text.dash_notMem_upper (by rwa [String.toList_ofList]),
    Text.dash_notMem_upper (by rwa [String.toList_ofList])⟩

/-- Pairs that were read are told apart by their texts. -/
theorem toText_inj {a b : Pair} (named : a.Named) : a.toText = b.toText ↔ a = b := by
  refine ⟨fun same => ?_, congrArg toText⟩
  obtain ⟨inBase, inQuote⟩ := dash_notMem_of_named named
  have chars := congrArg String.toList same
  simp only [toText, String.toList_append, List.append_assoc] at chars
  obtain ⟨base, -, quote⟩ := (List.append_cons_inj_of_notMem inBase inQuote).1 chars
  cases a
  cases b
  exact congrArg₂ Pair.mk (String.toList_inj.1 base) (String.toList_inj.1 quote)

theorem toList_toText (pair : Pair) : pair.toText.toList = pair.base.toList ++ '-' :: pair.quote.toList := by
  simp [toText]

/-- The text of a pair that was read is the upper case of what was read. -/
theorem toText_of_read (read : ofText? text = some pair) :
    pair.toText.toList = (trim text.toList).flatMap upperChars := by
  obtain ⟨base, quote, ⟨whole, -⟩, rfl⟩ := ofText?_eq_some.1 read
  have dash : upperChars '-' = ['-'] := by decide +kernel
  rw [toList_toText, whole, List.flatMap_append, List.flatMap_cons, dash, Text.toList_upper,
    Text.toList_upper, String.toList_ofList, String.toList_ofList, List.singleton_append]

theorem ofText?_toText (named : pair.Named) : ofText? pair.toText = some pair := by
  obtain ⟨text, read⟩ := named
  have trimmed : trim pair.toText.toList = pair.toText.toList := by
    rw [toText_of_read read]
    exact (Text.trimmed_trim _).flatMap_upperChars.trim_eq
  obtain ⟨inBase, inQuote⟩ := dash_notMem_of_named ⟨text, read⟩
  obtain ⟨base, quote, ⟨-, some, more, -⟩, same⟩ := ofText?_eq_some.1 read
  refine ofText?_eq_some.2 ⟨pair.base.toList, pair.quote.toList,
    ⟨trimmed.trans (toList_toText pair), ?_, ?_, inBase, inQuote⟩, ?_⟩
  · rwa [same, ne_eq, Text.upper_eq_empty, String.toList_ofList]
  · rwa [same, ne_eq, Text.upper_eq_empty, String.toList_ofList]
  · simp only [same, String.ofList_toList, Text.upper_upper]

/-- A text is read exactly if, without blanks around it, it is two parts around its only dash; its pair
reads as itself, and no other pair that was read has the same text. -/
theorem read_projects (text : String) :
    ((∃ pair, ofText? text = some pair) ↔ ∃ base quote, Splits (trim text.toList) base quote) ∧
    ∀ pair, ofText? text = some pair →
      (∃ base quote, Splits (trim text.toList) base quote ∧
        pair = ⟨upper (String.ofList base), upper (String.ofList quote)⟩) ∧
      ofText? pair.toText = some pair ∧
      ∀ other text', ofText? text' = some other → other.toText = pair.toText → other = pair := by
  refine ⟨⟨?_, ?_⟩, fun pair read => ⟨ofText?_eq_some.1 read, ofText?_toText ⟨text, read⟩, ?_⟩⟩
  · rintro ⟨pair, read⟩
    obtain ⟨base, quote, splits, -⟩ := ofText?_eq_some.1 read
    exact ⟨base, quote, splits⟩
  · rintro ⟨base, quote, splits⟩
    exact ⟨_, ofText?_eq_some.2 ⟨base, quote, splits, rfl⟩⟩
  · exact fun other text' read' same => (toText_inj ⟨text', read'⟩).1 same

theorem read_projects_sharp : ∃ pair, ofText? "\t straße-us dt " = some pair ∧
    pair.toText = "STRASSE-US DT" ∧ ofText? pair.toText = some pair ∧
    ∀ other text, ofText? text = some other → other.toText = "STRASSE-US DT" → other = pair := by
  have read : ofText? "\t straße-us dt " = some ⟨"STRASSE", "US DT"⟩ := by decide +kernel
  have shown : Pair.toText ⟨"STRASSE", "US DT"⟩ = "STRASSE-US DT" := by decide +kernel
  obtain ⟨-, again, alone⟩ := (read_projects _).2 _ read
  exact ⟨_, read, shown, again, fun other text read' same => alone other text read' (same.trans shown.symm)⟩

end Pair

end MarketMaker
