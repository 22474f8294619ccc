import MarketMaker.Json.Printer
import MarketMaker.Json.Reader
import MarketMaker.Proofs.Decimal.Text
/-!
A JSON text that was written reads as the value it was written for, in either layout. Floating-point
numbers are left out.
-/

namespace MarketMaker

namespace Json

variable {rest : List Char}

/-! ### Numbers -/

/-- What follows a value: nothing, or a character that cannot be part of a number. -/
def Ends (rest : List Char) : Prop :=
  ∀ c ∈ rest.head?, c ∈ [',', ']', '\x7d', ' ', '\n', '\t', '\r']

theorem Ends.startsWithDigit (ends : Ends rest) : startsWithDigit rest = false := by
  cases rest with
  | nil => rfl
  | cons c rest =>
    have member := ends c rfl
    fin_cases member <;> rfl

theorem Ends.continueNumber? (ends : Ends rest) (m : ℕ) :
    continueNumber? false m rest = some (int m, rest) := by
  cases rest with
  | nil => rfl
  | cons c rest =>
    have member := ends c rfl
    fin_cases member <;> rfl

theorem Ends.continueNegative? (ends : Ends rest) {m : ℕ} (some' : 0 < m) (fits : m ≤ twoTo 63) :
    Json.continueNumber? true m rest = some (int (-m), rest) := by
  have inside : 0 < m ∧ m ≤ twoTo 63 := ⟨some', fits⟩
  cases rest with
  | nil => simp [Json.continueNumber?, inside]
  | cons c rest =>
    have member := ends c rfl
    fin_cases member <;> simp [Json.continueNumber?, inside]

/-- Digits for which there is room are taken one after the other. -/
theorem takeDigits_digits {digits : List Char} (all : ∀ c ∈ digits, c.isDigit = true) {m : ℕ}
    (fits : Nat.ofDigitChars 10 digits m < twoTo 64) (taken : ℕ)
    (stop : startsWithDigit rest = false) :
    takeDigits m taken (digits ++ rest) =
      (Nat.ofDigitChars 10 digits m, taken + digits.length, rest) := by
  induction digits generalizing m taken with
  | nil =>
    cases rest with
    | nil => rfl
    | cons c rest =>
      rw [startsWithDigit, Option.isSome_eq_false_iff, Option.isNone_iff_eq_none] at stop
      simp [takeDigits, stop]
  | cons c digits ih =>
    have value : digitValue? c = some (c.toNat - '0'.toNat) :=
      Decimal.digit_eq (all c List.mem_cons_self)
    rw [Nat.ofDigitChars_cons, mul_comm] at fits
    have short := lt_of_le_of_lt (Decimal.Reading.le_ofDigitChars _ _) fits
    rw [List.cons_append, takeDigits, value]
    dsimp only
    rw [if_pos short, ih (fun d member => all d (List.mem_cons_of_mem c member)) fits,
      Nat.ofDigitChars_cons, mul_comm m, List.length_cons, add_assoc, add_comm 1]

/-- No number but zero starts with zero. -/
theorem head?_toDigits {n : ℕ} (some' : n ≠ 0) : (Nat.toDigits 10 n).head? ≠ some '0' := by
  induction n using Nat.strong_induction_on with
  | _ n ih =>
    rw [Nat.toDigits_eq_if (by decide)]
    split
    next small =>
      interval_cases n
      · exact absurd rfl some'
      all_goals decide
    next large =>
      obtain ⟨c, digits, written⟩ := List.exists_cons_of_ne_nil (Nat.toDigits_ne_nil (b := 10) (n := n / 10))
      have first := ih (n / 10) (by omega) (by omega)
      rw [written] at first ⊢
      exact first

theorem exists_digit (n : ℕ) : ∃ c digits, Nat.toDigits 10 n = c :: digits ∧ c.isDigit = true := by
  obtain ⟨c, digits, written⟩ := List.exists_cons_of_ne_nil (Nat.toDigits_ne_nil (b := 10) (n := n))
  have member : c ∈ Nat.toDigits 10 n := written ▸ List.mem_cons_self
  exact ⟨c, digits, written, Nat.isDigit_of_mem_toDigits (by decide) (by decide) member⟩

theorem magnitude?_digits (negative : Bool) {n : ℕ} (fits : n < twoTo 64) (ends : Ends rest) :
    magnitude? negative (Nat.toDigits 10 n ++ rest) = Json.continueNumber? negative n rest := by
  by_cases zero : n = 0
  case pos =>
    subst zero
    rw [Nat.toDigits_zero, List.singleton_append, magnitude?, ends.startsWithDigit]
    rfl
  case neg =>
    obtain ⟨c, digits, written, -⟩ := exists_digit n
    have first := head?_toDigits zero
    have value : Nat.ofDigitChars 10 (Nat.toDigits 10 n) 0 = n := Nat.ofDigitChars_ten_toDigits
    have digit : ∀ d ∈ Nat.toDigits 10 n, d.isDigit = true :=
      fun d member => Nat.isDigit_of_mem_toDigits (by decide) (by decide) member
    have taken := takeDigits_digits digit (m := 0) (by rwa [value]) 0 ends.startsWithDigit
    rw [value] at taken
    rw [written, List.cons_append] at taken ⊢
    rw [magnitude?, taken]
    · simp [ends.startsWithDigit]
    · intro rest' same
      rw [written, (List.cons.inj same).1] at first
      exact first rfl

theorem toList_natCast (m : ℕ) : (toString (m : ℤ)).toList = Nat.toDigits 10 m :=
  String.toList_ofList

theorem toList_negSucc (m : ℕ) : (toString (Int.negSucc m)).toList = '-' :: Nat.toDigits 10 (m + 1) := by
  change ("-" ++ String.ofList (Nat.toDigits 10 (m + 1))).toList = _
  simp

theorem starts_digit_or_minus (k : ℤ) :
    ∃ c digits, (toString k).toList = c :: digits ∧ (c.isDigit = true ∨ c = '-') := by
  cases k with
  | ofNat m =>
    obtain ⟨c, digits, written, digit⟩ := exists_digit m
    exact ⟨c, digits, (toList_natCast m).trans written, .inl digit⟩
  | negSucc m => exact ⟨'-', _, toList_negSucc m, .inr rfl⟩

theorem number?_int {k : ℤ} (least : -2 ^ 63 ≤ k) (most : k < 2 ^ 64) (ends : Ends rest) :
    number? ((toString k).toList ++ rest) = some (int k, rest) := by
  cases k with
  | ofNat m =>
    have below : (m : ℤ) < 2 ^ 64 := most
    have fits : m < twoTo 64 := by
      rw [twoTo_eq_pow]
      exact_mod_cast below
    obtain ⟨c, digits, written, digit⟩ := exists_digit m
    have read := magnitude?_digits false fits ends
    rw [Int.ofNat_eq_natCast, toList_natCast]
    rw [written, List.cons_append] at read ⊢
    rw [number?, read, ends.continueNumber?]
    rintro rest' same
    rw [(List.cons.inj same).1] at digit
    cases digit
  | negSucc m =>
    have fits : m + 1 ≤ twoTo 63 := by
      rw [twoTo_eq_pow]
      omega
    rw [toList_negSucc, List.cons_append, number?,
      magnitude?_digits true (lt_of_le_of_lt fits (by decide)) ends,
      ends.continueNegative? (Nat.succ_pos m) fits]
    rfl

/-! ### Strings -/

theorem hexValue?_hexDigit : ∀ n < 32,
    hexValue? (hexDigit (n / 16)) = some (n / 16) ∧ hexValue? (hexDigit n) = some (n % 16) := by
  decide

theorem unicodeEscape?_control {c : Char} (control : c.toNat < 0x20) (rest : List Char) :
    unicodeEscape? ('0' :: '0' :: hexDigit (c.toNat / 16) :: hexDigit c.toNat :: rest) = some (c, rest) := by
  obtain ⟨high, low⟩ := hexValue?_hexDigit c.toNat control
  have zero : hexValue? '0' = some 0 := rfl
  have unit : unit? ('0' :: '0' :: hexDigit (c.toNat / 16) :: hexDigit c.toNat :: rest) =
      some (c.toNat, rest) := by
    simp only [unit?, zero, high, low, Option.bind_eq_bind, Option.bind_some]
    congr 2
    omega
  simp only [unicodeEscape?, unit, Option.bind_eq_bind, Option.bind_some]
  rw [if_neg (by omega), if_neg (by omega), Char.ofNat_toNat]

/-- One character inside a string takes one step. -/
theorem stringRest?_escape (c : Char) (steps : ℕ) (read rest : List Char) :
    stringRest? (steps + 1) read (escape c ++ rest) = stringRest? steps (c :: read) rest := by
  unfold escape
  split
  case h_8 _ mark slash _ _ _ _ _ =>
    split
    next control =>
      simp only [List.cons_append, List.nil_append, stringRest?]
      rw [unicodeEscape?_control control]
      rfl
    next plain =>
      rw [List.singleton_append, stringRest?, if_neg plain]
      · exact mark
      · exact fun _ same => absurd same slash
      · exact fun _ _ same => absurd same slash
  all_goals rfl

theorem stringRest?_quoted (chars : List Char) {steps : ℕ} (enough : chars.length < steps)
    (read rest : List Char) : stringRest? steps read (chars.flatMap escape ++ '"' :: rest) =
      some (String.ofList (read.reverse ++ chars), rest) := by
  induction chars generalizing steps read with
  | nil =>
    obtain ⟨steps, rfl⟩ := Nat.exists_eq_succ_of_ne_zero (by omega : steps ≠ 0)
    simp [stringRest?]
  | cons c chars ih =>
    rw [List.length_cons] at enough
    obtain ⟨steps, rfl⟩ := Nat.exists_eq_succ_of_ne_zero (by omega : steps ≠ 0)
    rw [List.flatMap_cons, List.append_assoc, stringRest?_escape, ih (by omega)]
    simp

theorem escape_ne_nil (c : Char) : escape c ≠ [] := by
  unfold escape
  split <;> try split
  all_goals exact List.cons_ne_nil _ _

theorem length_le_flatMap_escape (chars : List Char) :
    chars.length ≤ (chars.flatMap escape).length := by
  induction chars with
  | nil => exact le_rfl
  | cons c chars ih =>
    have some' := List.length_pos_iff.2 (escape_ne_nil c)
    rw [List.flatMap_cons, List.length_append, List.length_cons]
    omega

/-- A string reads back behind its opening quote. -/
theorem stringRest?_quote (s : String) {tail : List Char}
    (text : quote s ++ rest = '"' :: tail) : stringRest? (tail.length + 1) [] tail = some (s, rest) := by
  simp only [quote, List.cons_append, List.append_assoc, List.nil_append] at text
  obtain ⟨-, rfl⟩ := List.cons.inj text
  have enough := length_le_flatMap_escape s.toList
  rw [stringRest?_quoted]
  · simp
  · rw [List.length_append]
    omega

/-! ### Layouts -/

/-- A way of writing values: which blanks stand around the parts of a container. -/
structure Layout where
  gap : ℕ → List Char
  space : List Char
  value : ℕ → Json → List Char
  items : ℕ → List Json → List Char
  fields : ℕ → List (String × Json) → List Char
  gap_blank : ∀ indent, ∀ c ∈ gap indent, isBlank c = true
  space_blank : ∀ c ∈ space, isBlank c = true
  leaf : ∀ indent v, (∀ item rest, v ≠ arr (item :: rest)) → (∀ field rest, v ≠ obj (field :: rest)) →
    value indent v = chars v
  arr_cons : ∀ indent item rest, value indent (arr (item :: rest)) =
    '[' :: (gap (indent + 1) ++ (value (indent + 1) item ++ (items (indent + 1) rest ++
      (gap indent ++ [']']))))
  obj_cons : ∀ indent key v rest, value indent (obj ((key, v) :: rest)) =
    '\x7b' :: (gap (indent + 1) ++ (quote key ++ ':' :: (space ++ (value (indent + 1) v ++
      (fields (indent + 1) rest ++ (gap indent ++ ['\x7d']))))))
  items_nil : ∀ indent, items indent [] = []
  items_cons : ∀ indent item rest, items indent (item :: rest) =
    ',' :: (gap indent ++ (value indent item ++ items indent rest))
  fields_nil : ∀ indent, fields indent [] = []
  fields_cons : ∀ indent key v rest, fields indent ((key, v) :: rest) =
    ',' :: (gap indent ++ (quote key ++ ':' :: (space ++ (value indent v ++ fields indent rest))))

namespace Layout

/-- All in one line. -/
def compact : Layout where
  gap _ := []
  space := []
  value _ := chars
  items _ := itemChars
  fields _ := fieldChars
  gap_blank := by simp
  space_blank := by simp
  leaf _ _ _ _ := rfl
  arr_cons _ _ _ := by simp [chars]
  obj_cons _ _ _ _ := by simp [chars]
  items_nil _ := by rw [itemChars]
  items_cons _ _ _ := by simp [itemChars]
  fields_nil _ := by rw [fieldChars]
  fields_cons _ _ _ _ := by simp [fieldChars]

/-- One part a line. -/
def spread : Layout where
  gap := newline
  space := [' ']
  value := prettyChars
  items := prettyItems
  fields := prettyFields
  gap_blank indent c member := by
    rcases List.mem_cons.1 member with rfl | blank
    · rfl
    · rw [List.eq_of_mem_replicate blank]
      rfl
  space_blank := by simp [isBlank]
  leaf indent v noItems noFields := by
    unfold prettyChars
    split
    next item rest => exact absurd rfl (noItems item rest)
    next key value rest => exact absurd rfl (noFields (key, value) rest)
    next => rfl
  arr_cons _ _ _ := by simp [prettyChars]
  obj_cons _ _ _ _ := by simp [prettyChars]
  items_nil _ := by rw [prettyItems]
  items_cons _ _ _ := by simp [prettyItems]
  fields_nil _ := by rw [prettyFields]
  fields_cons _ _ _ _ := by simp [prettyFields]

end Layout

/-! ### Values -/

/-- A value without floating-point numbers, whose whole numbers are words, whose objects have each key
once, and in which at most `n` containers are inside each other. -/
inductive Plain : ℕ → Json → Prop
  | null {n : ℕ} : Plain n null
  | bool {n : ℕ} (b : Bool) : Plain n (bool b)
  | int {n : ℕ} {k : ℤ} (least : -2 ^ 63 ≤ k) (most : k < 2 ^ 64) : Plain n (int k)
  | str {n : ℕ} (s : String) : Plain n (str s)
  | arr {n : ℕ} {items : List Json} (each : ∀ item ∈ items, Plain n item) : Plain (n + 1) (arr items)
  | obj {n : ℕ} {fields : List (String × Json)} (distinct : (fields.map Prod.fst).Nodup)
      (each : ∀ field ∈ fields, Plain n field.2) : Plain (n + 1) (obj fields)

variable {layout : Layout} {n steps depth indent : ℕ} {v item : Json} {items : List Json} {key : String}
  {fields read : List (String × Json)} {gap text : List Char}

theorem skipBlanks_append (blank : ∀ c ∈ gap, isBlank c = true) (text : List Char) :
    skipBlanks (gap ++ text) = skipBlanks text :=
  List.dropWhile_append_of_pos blank

theorem skipBlanks_cons {c : Char} (sharp : isBlank c = false) (text : List Char) :
    skipBlanks (c :: text) = c :: text :=
  List.dropWhile_cons_of_neg (by simp [sharp])

theorem value?_skip (blank : ∀ c ∈ gap, isBlank c = true) (text : List Char) :
    value? steps depth (gap ++ text) = value? steps depth text := by
  cases steps with
  | zero => rw [value?, value?]
  | succ steps => rw [value?, value?, skipBlanks_append blank]

theorem items?_skip (blank : ∀ c ∈ gap, isBlank c = true) (text : List Char) :
    items? steps depth (gap ++ text) = items? steps depth text := by
  cases steps with
  | zero => rw [items?, items?]
  | succ steps => rw [items?, items?, value?_skip blank]

theorem fields?_skip (blank : ∀ c ∈ gap, isBlank c = true) (text : List Char) :
    fields? steps depth read (gap ++ text) = fields? steps depth read text := by
  cases steps with
  | zero => rw [fields?, fields?]
  | succ steps => rw [fields?, fields?, skipBlanks_append blank]

theorem ends_cons {c : Char} (closes : c ∈ [',', ']', '\x7d']) (rest : List Char) : Ends (c :: rest) := by
  rintro _ ⟨⟩
  exact List.mem_append_left [' ', '\n', '\t', '\r'] closes

theorem ends_of_blanks (blank : ∀ c ∈ gap, isBlank c = true) {c : Char} (closes : c ∈ [',', ']', '\x7d'])
    (rest : List Char) : Ends (gap ++ c :: rest) := by
  cases gap with
  | nil => exact ends_cons closes rest
  | cons b gap =>
    rintro _ ⟨⟩
    have given := blank b List.mem_cons_self
    simp only [isBlank, Bool.or_eq_true, beq_iff_eq] at given
    rcases given with ((rfl | rfl) | rfl) | rfl <;> decide

theorem sharp_of_number {c : Char} (begins : c.isDigit = true ∨ c = '-') : isBlank c = false := by
  rw [Bool.eq_false_iff]
  intro blank
  simp only [isBlank, Bool.or_eq_true, beq_iff_eq] at blank
  rcases blank with ((rfl | rfl) | rfl) | rfl <;> exact absurd begins (by decide)

theorem value?_number {c : Char} (begins : c.isDigit = true ∨ c = '-') (text : List Char) :
    value? (steps + 1) depth (c :: text) = number? (c :: text) := by
  rw [value?, skipBlanks_cons (sharp_of_number begins)]
  split
  case h_7 => rfl
  all_goals
    next same =>
      obtain ⟨rfl, -⟩ := List.cons.inj same
      exact absurd begins (by decide)

theorem value?_arr (deep : 1 < depth) (blank : ∀ c ∈ gap, isBlank c = true) {c : Char} {tail : List Char}
    (begins : text = c :: tail) (sharp : isBlank c = false) (more : c ≠ ']') :
    value? (steps + 1) depth ('[' :: (gap ++ text)) =
      (items? steps (depth - 1) text).map fun (items, rest) => (arr items, rest) := by
  rw [value?, skipBlanks_cons rfl]
  simp only [if_neg (by omega : ¬ depth ≤ 1), skipBlanks_append blank, begins, skipBlanks_cons sharp]
  split
  next same => exact absurd (List.cons.inj same).1 more
  next => rfl

theorem value?_obj (deep : 1 < depth) (blank : ∀ c ∈ gap, isBlank c = true) (key : String)
    (text : List Char) : value? (steps + 1) depth ('\x7b' :: (gap ++ (quote key ++ text))) =
      (fields? steps (depth - 1) [] (quote key ++ text)).map fun (fields, rest) => (obj fields, rest) := by
  obtain ⟨tail, written⟩ : ∃ tail, quote key ++ text = '"' :: tail := ⟨_, rfl⟩
  rw [value?, skipBlanks_cons rfl]
  simp only [if_neg (by omega : ¬ depth ≤ 1), skipBlanks_append blank, written,
    skipBlanks_cons (c := '"') rfl]
  rfl

/-- The value reads back from what the layout writes of it. -/
def Layout.Reads (layout : Layout) (n : ℕ) (v : Json) : Prop :=
  ∀ ⦃steps depth indent : ℕ⦄ ⦃rest : List Char⦄, n < depth →
    (layout.value indent v).length ≤ steps → Ends rest →
    value? (steps + 1) depth (layout.value indent v ++ rest) = some (v, rest)

theorem Layout.items?_read (reads : ∀ v ∈ item :: items, layout.Reads n v) (deep : n < depth)
    (enough : (layout.value indent item).length + (layout.items indent items).length ≤ steps)
    (blank : ∀ c ∈ gap, isBlank c = true) (rest : List Char) :
    items? (steps + 2) depth
      (layout.value indent item ++ (layout.items indent items ++ (gap ++ ']' :: rest))) =
        some (item :: items, rest) := by
  induction items generalizing item steps with
  | nil =>
    have ends := ends_of_blanks blank (c := ']') (by simp) rest
    rw [layout.items_nil, List.nil_append, items?, reads item List.mem_cons_self deep (by omega) ends]
    simp only [Option.bind_eq_bind, Option.bind_some, skipBlanks_append blank]
    rfl
  | cons next items ih =>
    rw [layout.items_cons] at enough ⊢
    simp only [List.length_cons, List.length_append] at enough
    obtain ⟨steps, rfl⟩ : ∃ fewer, steps = fewer + 1 := ⟨steps - 1, by omega⟩
    simp only [List.cons_append, List.append_assoc]
    rw [items?, reads item List.mem_cons_self deep (by omega) (ends_cons (by simp) _)]
    simp only [Option.bind_eq_bind, Option.bind_some, skipBlanks_cons (c := ',') rfl,
      items?_skip (layout.gap_blank indent)]
    rw [ih]
    · rfl
    · exact fun v member => reads v (List.mem_cons_of_mem item member)
    · omega

theorem put_new {value : Json} (new : key ∉ read.map Prod.fst) :
    Table.put key value read = read ++ [(key, value)] := by
  induction read with
  | nil => rfl
  | cons field read ih =>
    rw [List.map_cons, List.mem_cons, not_or] at new
    rw [Table.put, if_neg (Ne.symm new.1), ih new.2, List.cons_append]

/-- A field is read up to what follows its value. -/
theorem fields?_key (text : List Char) :
    fields? (steps + 1) depth read (quote key ++ ':' :: text) = (do
      let (item, rest) ← value? steps depth text
      let read := Table.put key item read
      match skipBlanks rest with
      | ',' :: rest => fields? steps depth read rest
      | '\x7d' :: rest => some (read, rest)
      | _ => none) := by
  obtain ⟨tail, written⟩ : ∃ tail, quote key ++ ':' :: text = '"' :: tail := ⟨_, rfl⟩
  have name := stringRest?_quote key written
  rw [written, fields?, skipBlanks_cons rfl]
  exact (congrArg (Option.bind · _) name).trans rfl

theorem Layout.fields?_read (reads : ∀ field ∈ (key, v) :: fields, layout.Reads n field.2)
    (distinct : ((read ++ (key, v) :: fields).map Prod.fst).Nodup) (deep : n < depth)
    (enough : (layout.value indent v).length + (layout.fields indent fields).length ≤ steps)
    (blank : ∀ c ∈ gap, isBlank c = true) (rest : List Char) :
    fields? (steps + 2) depth read (quote key ++ ':' :: (layout.space ++ (layout.value indent v ++
      (layout.fields indent fields ++ (gap ++ '\x7d' :: rest))))) =
        some (read ++ (key, v) :: fields, rest) := by
  have new : key ∉ read.map Prod.fst := by
    rw [List.map_append, List.nodup_append] at distinct
    exact fun member => distinct.2.2 key member key (by simp) rfl
  have first : layout.Reads n v := reads (key, v) List.mem_cons_self
  induction fields generalizing key v read steps with
  | nil =>
    have ends := ends_of_blanks blank (c := '\x7d') (by simp) rest
    rw [fields?_key, value?_skip layout.space_blank, layout.fields_nil, List.nil_append,
      first deep (by omega) ends]
    simp only [Option.bind_eq_bind, Option.bind_some, skipBlanks_append blank,
      skipBlanks_cons (c := '\x7d') rfl, put_new new]
  | cons next fields ih =>
    obtain ⟨name, value⟩ := next
    rw [layout.fields_cons] at enough ⊢
    simp only [List.length_cons, List.length_append] at enough
    obtain ⟨steps, rfl⟩ : ∃ fewer, steps = fewer + 1 := ⟨steps - 1, by omega⟩
    simp only [List.cons_append, List.append_assoc]
    rw [fields?_key, value?_skip layout.space_blank, first deep (by omega) (ends_cons (by simp) _)]
    simp only [Option.bind_eq_bind, Option.bind_some, skipBlanks_cons (c := ',') rfl, put_new new,
      fields?_skip (layout.gap_blank indent)]
    have distinct' : (((read ++ [(key, v)]) ++ (name, value) :: fields).map Prod.fst).Nodup := by
      simpa using distinct
    rw [ih]
    · simp
    · exact fun field member => reads field (List.mem_cons_of_mem _ member)
    · exact distinct'
    · omega
    · rw [List.map_append, List.nodup_append] at distinct'
      exact fun member => distinct'.2.2 name member name (by simp) rfl
    · exact reads (name, value) (by simp)

/-- A value begins with a character that is neither blank nor closes an array. -/
theorem Layout.starts (layout : Layout) (plain : Plain n v) (indent : ℕ) :
    ∃ c text, layout.value indent v = c :: text ∧ isBlank c = false ∧ c ≠ ']' := by
  cases plain with
  | null => exact ⟨'n', "ull".toList, layout.leaf indent _ (by simp) (by simp), rfl, by decide⟩
  | bool b =>
    cases b
    · exact ⟨'f', "alse".toList, layout.leaf indent _ (by simp) (by simp), rfl, by decide⟩
    · exact ⟨'t', "rue".toList, layout.leaf indent _ (by simp) (by simp), rfl, by decide⟩
  | str s => exact ⟨'"', _, layout.leaf indent _ (by simp) (by simp), rfl, by decide⟩
  | @int _ k least most =>
    obtain ⟨c, digits, written, begins⟩ := starts_digit_or_minus k
    refine ⟨c, digits, (layout.leaf indent _ (by simp) (by simp)).trans written, sharp_of_number begins, ?_⟩
    rintro rfl
    exact absurd begins (by decide)
  | @arr n items each =>
    cases items with
    | nil => exact ⟨'[', _, layout.leaf indent _ (by simp) (by simp), rfl, by decide⟩
    | cons item items => exact ⟨'[', _, layout.arr_cons indent item items, rfl, by decide⟩
  | @obj n fields distinct each =>
    match fields with
    | [] => exact ⟨'\x7b', _, layout.leaf indent _ (by simp) (by simp), rfl, by decide⟩
    | (key, value) :: fields => exact ⟨'\x7b', _, layout.obj_cons indent key value fields, rfl, by decide⟩

/-- A plain value reads back if it is not nested too deep for what may still open. -/
theorem Plain.reads (layout : Layout) (plain : Plain n v) : layout.Reads n v := by
  induction plain with
  | null =>
    intro steps depth indent rest deep enough ends
    rw [layout.leaf _ _ (by simp) (by simp)]
    rfl
  | bool b =>
    intro steps depth indent rest deep enough ends
    rw [layout.leaf _ _ (by simp) (by simp)]
    cases b <;> rfl
  | @int n k least most =>
    intro steps depth indent rest deep enough ends
    rw [layout.leaf _ _ (by simp) (by simp), chars]
    obtain ⟨c, digits, written, begins⟩ := starts_digit_or_minus k
    have read := number?_int least most ends
    rw [written, List.cons_append] at read ⊢
    rw [value?_number begins, read]
  | str s =>
    intro steps depth indent rest deep enough ends
    rw [layout.leaf _ _ (by simp) (by simp), chars]
    obtain ⟨tail, written⟩ : ∃ tail, quote s ++ rest = '"' :: tail := ⟨_, rfl⟩
    have read := stringRest?_quote s written
    rw [written, value?, skipBlanks_cons rfl]
    simp only [read, Option.map_some]
  | @arr n items each ih =>
    intro steps depth indent rest deep enough ends
    cases items with
    | nil =>
      rw [layout.leaf _ _ (by simp) (by simp), chars, List.cons_append, value?, skipBlanks_cons rfl]
      simp only [if_neg (by omega : ¬ depth ≤ 1)]
      rfl
    | cons item items =>
      rw [layout.arr_cons] at enough ⊢
      simp only [List.length_cons, List.length_append, List.length_nil] at enough
      obtain ⟨steps, rfl⟩ : ∃ fewer, steps = fewer + 2 := ⟨steps - 2, by omega⟩
      obtain ⟨c, text, begins, sharp, other⟩ := layout.starts (each item List.mem_cons_self) (indent + 1)
      simp only [List.cons_append, List.append_assoc, List.nil_append]
      rw [value?_arr (by omega) (layout.gap_blank (indent + 1)) (begins ▸ List.cons_append) sharp other,
        layout.items?_read ih (by omega) (by omega) (layout.gap_blank indent)]
      rfl
  | @obj n fields distinct each ih =>
    intro steps depth indent rest deep enough ends
    match fields with
    | [] =>
      rw [layout.leaf _ _ (by simp) (by simp), chars, List.cons_append, value?, skipBlanks_cons rfl]
      simp only [if_neg (by omega : ¬ depth ≤ 1)]
      rfl
    | (key, value) :: fields =>
      rw [layout.obj_cons] at enough ⊢
      simp only [List.length_cons, List.length_append, List.length_nil] at enough
      obtain ⟨steps, rfl⟩ : ∃ fewer, steps = fewer + 2 := ⟨steps - 2, by omega⟩
      simp only [List.cons_append, List.append_assoc, List.nil_append]
      rw [value?_obj (by omega) (layout.gap_blank (indent + 1)),
        layout.fields?_read ih distinct (by omega) (by omega) (layout.gap_blank indent)]
      rfl

/-- A plain value that is written in either layout reads back. -/
theorem ofText?_written (plain : Plain n v) (shallow : n < 128) {text : String}
    (written : text = v.toText ∨ text = v.pretty) : ofText? text = some v := by
  have whole (layout : Layout) : ofChars? (layout.value 0 v) = some v := by
    have read : value? (2 * (layout.value 0 v).length + 2) 128 (layout.value 0 v ++ []) = some (v, []) :=
      plain.reads layout shallow (by omega) (by simp [Ends])
    rw [List.append_nil] at read
    rw [ofChars?, read]
    rfl
  rcases written with rfl | rfl
  · rw [ofText?, toText, String.toList_ofList]
    exact whole .compact
  · rw [ofText?, pretty, String.toList_ofList]
    exact whole .spread

end Json

end MarketMaker
