import MarketMaker.Instant.Basic
import MarketMaker.Power
import MarketMaker.Text.Blank
import MarketMaker.Text.Column
/-!
Instants as RFC 3339 text. Writing is always in UTC, with as many groups of three fraction digits
as the instant needs. Reading takes any offset; the lenient form also allows blanks between the
parts and short fields.
-/

namespace MarketMaker

namespace Instant

def padded (width n : Nat) : String :=
  let digits := toString n
  String.ofList (List.replicate (width - digits.length) '0') ++ digits

/-- Four digits; a year outside of them shows its sign. -/
def yearText (year : Int) : String :=
  if 0 ≤ year ∧ year ≤ 9999 then padded 4 year.toNat
  else (if year < 0 then "-" else "+") ++ padded 4 year.natAbs

/-- The fraction of a second, in no, three, six or nine digits. -/
def fractionText (nanoseconds : Nat) : String :=
  if nanoseconds = 0 then ""
  else if nanoseconds % 1000000 = 0 then "." ++ padded 3 (nanoseconds / 1000000)
  else if nanoseconds % 1000 = 0 then "." ++ padded 6 (nanoseconds / 1000)
  else "." ++ padded 9 nanoseconds

def dateText (t : Instant) : String :=
  let d := t.date
  yearText d.year ++ "-" ++ Text.twoDigits d.month ++ "-" ++ Text.twoDigits d.day

/-- Hours, minutes and seconds. -/
def clockText (t : Instant) : String :=
  let seconds := t.timeOfDay / Span.second
  Text.twoDigits (seconds / 3600) ++ ":" ++ Text.twoDigits (seconds / 60 % 60) ++ ":" ++
    Text.twoDigits (seconds % 60)

/-- Date and time with `zone` behind them. -/
def toTextWith (zone : String) (t : Instant) : String :=
  t.dateText ++ "T" ++ t.clockText ++ fractionText (t.timeOfDay % Span.second) ++ zone

def toText (t : Instant) : String :=
  t.toTextWith "+00:00"

/-- The short form of UTC. -/
def toZuluText (t : Instant) : String :=
  t.toTextWith "Z"

/-- Date and time to the second, for people. -/
def toPlainText (t : Instant) : String :=
  t.dateText ++ " " ++ t.clockText

/-- Between `least` and `most` digits at the front. -/
def number? (least most : Nat) (text : List Char) : Option (Nat × List Char) :=
  let digits := (text.take most).takeWhile Char.isDigit
  if digits.length < least then none
  else
    some (digits.foldl (fun n c => n * 10 + (c.toNat - '0'.toNat)) 0, text.drop digits.length)

def char? (allowed : List Char) : List Char → Option (List Char)
  | [] => none
  | c :: rest => if c ∈ allowed then some rest else none

/-- A fraction behind its point, to the nanosecond; further digits are ignored. -/
def fraction? : List Char → Option (Nat × List Char)
  | '.' :: rest => do
    let (n, after) ← number? 1 9 rest
    let taken := rest.length - after.length
    some (n * tenTo (9 - taken), after.dropWhile Char.isDigit)
  | rest => some (0, rest)

/-- An offset from UTC in minutes; `separator` reads what stands between its hours and minutes. -/
def offset? (separator : List Char → Option (List Char)) : List Char → Option (Int × List Char)
  | [] => none
  | c :: rest =>
    if c = 'Z' ∨ c = 'z' then some (0, rest)
    else if c = '+' ∨ c = '-' ∨ c = '−' then do
      let (hours, rest) ← number? 2 2 rest
      let rest ← separator rest
      let (minutes, rest) ← number? 2 2 rest
      let size : Int := hours * 60 + minutes
      if minutes < 60 ∧ hours < 24 then some (if c = '+' then size else -size, rest) else none
    else none

/-- The instant of a date and a local time, if they exist. -/
def ofParts? (date : Date) (hour minute second nanosecond : Nat) (offset : Int) :
    Option Instant :=
  if date.isValid ∧ hour < 24 ∧ minute < 60 ∧ second < 60 then
    let seconds : Int := hour * 3600 + minute * 60 + second - offset * 60
    some (ofDate date (seconds * Span.second + nanosecond))
  else none

/-- RFC 3339 with fields of full width. -/
def ofText? (text : String) : Option Instant := do
  let (year, rest) ← number? 4 4 text.toList
  let rest ← char? ['-'] rest
  let (month, rest) ← number? 2 2 rest
  let rest ← char? ['-'] rest
  let (day, rest) ← number? 2 2 rest
  let rest ← char? ['T', 't', ' '] rest
  let (hour, rest) ← number? 2 2 rest
  let rest ← char? [':'] rest
  let (minute, rest) ← number? 2 2 rest
  let rest ← char? [':'] rest
  let (second, rest) ← number? 2 2 rest
  let (nanosecond, rest) ← fraction? rest
  let (offset, rest) ← offset? (char? [':']) rest
  if rest.isEmpty then ofParts? ⟨year, month, day⟩ hour minute second nanosecond offset else none

/-- A field of one or two digits behind blanks. -/
def field? (text : List Char) : Option (Nat × List Char) :=
  number? 1 2 (Text.trimStart text)

/-- A separator between blanks. -/
def mark? (c : Char) (text : List Char) : Option (List Char) :=
  char? [c] (Text.trimStart text)

/-- A year of up to four digits, or of any number behind a sign. -/
def year? (text : List Char) : Option (Int × List Char) :=
  match Text.trimStart text with
  | '-' :: rest => (number? 1 rest.length rest).map fun (n, rest) => (-(n : Int), rest)
  | '+' :: rest => (number? 1 rest.length rest).map fun (n, rest) => ((n : Int), rest)
  | rest => (number? 1 4 rest).map fun (n, rest) => ((n : Int), rest)

/-- An offset, or the name of UTC. -/
def zone? (text : List Char) : Option (Int × List Char) :=
  if (text.take 3).map Char.toUpper = ['U', 'T', 'C'] then some (0, text.drop 3)
  else offset? (fun rest => some (rest.dropWhile fun c => c == ':' || Text.isBlank c)) text

/-- The lenient form. -/
def ofLenientText? (text : String) : Option Instant := do
  let (year, rest) ← year? text.toList
  let rest ← mark? '-' rest
  let (month, rest) ← field? rest
  let rest ← mark? '-' rest
  let (day, rest) ← field? rest
  let rest ← char? ['T', 't', ' '] rest
  let (hour, rest) ← field? rest
  let rest ← mark? ':' rest
  let (minute, rest) ← field? rest
  let rest ← mark? ':' rest
  let (second, rest) ← field? rest
  let (nanosecond, rest) ← fraction? rest
  let (offset, rest) ← zone? (Text.trimStart rest)
  if (Text.trimStart rest).isEmpty then
    ofParts? ⟨year, month, day⟩ hour minute second nanosecond offset
  else none

end Instant

end MarketMaker
