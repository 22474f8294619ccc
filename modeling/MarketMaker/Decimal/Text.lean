import MarketMaker.Decimal.Arithmetic
/-!
Decimals as text. Writing shows the sign, the digits and exactly as many places as the decimal has.
Reading takes plain notation, in which an underscore may stand behind a digit, and scientific
notation apart.
-/

namespace MarketMaker

namespace Decimal

/-- The lowest `width` decimal digits of `n`, leading zeros included. -/
def lastDigits : Nat → Nat → List Char
  | 0, _ => []
  | width + 1, n => lastDigits width (n / 10) ++ [Nat.digitChar (n % 10)]

def toChars (a : Decimal) : List Char :=
  (if a.negative then ['-'] else []) ++ Nat.toDigits 10 (a.mantissa / tenTo a.scale) ++
    (if a.scale = 0 then [] else '.' :: lastDigits a.scale (a.mantissa % tenTo a.scale))

def toText (a : Decimal) : String :=
  String.ofList a.toChars

instance : ToString Decimal := ⟨toText⟩

instance : Repr Decimal := ⟨fun a _ => a.toText⟩

/-- What was read of a number: its digits, how many stand behind the point, whether the point and
whether a digit was met. -/
structure Reading where
  mantissa : Nat
  places : Nat
  point : Bool
  digit : Bool

def digit? (c : Char) : Option Nat :=
  if '0' ≤ c ∧ c ≤ '9' then some (c.toNat - '0'.toNat) else none

/-- A digit or an underscore. -/
def continuesDigits (c : Char) : Bool :=
  (digit? c).isSome || c == '_'

namespace Reading

/-- The number cut before `next`, the first character with no room. A digit from five rounds up;
the remaining characters count for nothing but must be digits or underscores. -/
def cut? (x : Reading) (next : Char) (rest : List Char) : Option (Nat × Nat) :=
  if continuesDigits next && rest.all continuesDigits then
    let m := if 5 ≤ (digit? next).getD 0 then x.mantissa + 1 else x.mantissa
    if m < twoTo 96 then some (m, x.places)
    else if x.places = 0 then none
    else some ((m + 4) / 10, x.places - 1)
  else none

/-- Mantissa and places of the number that starts with what was read. -/
def finish? : Reading → List Char → Option (Nat × Nat)
  | x, [] => if x.digit then some (x.mantissa, x.places) else none
  | x, c :: rest =>
    if 28 ≤ x.places then x.cut? c rest
    else
      match digit? c with
      | some d =>
        let m := x.mantissa * 10 + d
        if m < twoTo 96 then
          finish? ⟨m, if x.point then x.places + 1 else 0, x.point, true⟩ rest
        else if x.point then x.cut? c rest
        else none
      | none =>
        if c = '.' ∧ x.point = false then finish? { x with point := true } rest
        else if c = '_' ∧ x.digit then finish? x rest
        else none

end Reading

/-- A number without its sign. -/
def magnitude? (text : List Char) : Option (Nat × Nat) :=
  Reading.finish? ⟨0, 0, false, false⟩ text

/-- Plain notation; zero is always read as positive. -/
def ofChars? (text : List Char) : Option Decimal := do
  let (negative, rest) :=
    match text with
    | '-' :: rest => (true, rest)
    | '+' :: rest => (false, rest)
    | rest => (false, rest)
  let (m, s) ← magnitude? rest
  ofParts? (negative && m != 0) m s

def ofText? (text : String) : Option Decimal :=
  ofChars? text.toList

/-- An unsigned number in decimal digits, a plus sign allowed before it. -/
def count? (text : List Char) : Option Nat :=
  let digits := match text with
    | '+' :: rest => rest
    | rest => rest
  if digits.isEmpty then none
  else digits.foldlM (fun n c => (digit? c).map (n * 10 + ·)) 0

/-- Trailing zeros behind the point, dropped one at a time. -/
def dropPlaces : Nat → Nat → Nat → Nat × Nat
  | 0, m, s => (m, s)
  | rounds + 1, m, s => if m % 10 = 0 ∧ 0 < s then dropPlaces rounds (m / 10) (s - 1) else (m, s)

def normalize? (a : Decimal) : Option Decimal :=
  let (m, s) := if a.mantissa = 0 then (0, 0) else dropPlaces a.scale a.mantissa a.scale
  ofParts? (a.negative && m != 0) m s

/-- The decimal times a power of ten of at most 28. -/
def shiftUp? (a : Decimal) (exponent : Nat) : Option Decimal := do
  if exponent ≤ a.scale then ofParts? a.negative a.mantissa (a.scale - exponent)
  else
    let power ← ofParts? false (tenTo exponent) 0
    let product ← (Rounded.mul a power).toOption
    normalize? product

/-- Scientific notation: a plain number, `e` or `E`, and an exponent between -28 and 28. -/
def ofScientific? (text : String) : Option Decimal := do
  let chars := text.toList
  let isMark := fun c : Char => c = 'e' ∨ c = 'E'
  let base ← ofChars? (chars.takeWhile fun c => ¬ isMark c)
  match chars.dropWhile fun c => ¬ isMark c with
  | [] => none
  | _ :: '-' :: digits =>
    let exponent ← count? digits
    if exponent ≤ 28 then ofParts? base.negative base.mantissa (base.scale + exponent) else none
  | _ :: digits =>
    let exponent ← count? digits
    if exponent ≤ 28 then shiftUp? base exponent else none

/-- Plain notation, or else scientific. -/
def ofAnyText? (text : String) : Option Decimal :=
  ofText? text <|> ofScientific? text

end Decimal

end MarketMaker
