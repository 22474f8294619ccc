import MarketMaker.Json.Basic
import MarketMaker.Json.Float
/-!
Numbers in JSON text. A number without point or exponent is whole if it fits in 64 bits, unsigned
or, after a minus, signed; every other number is a floating-point number.
-/

namespace MarketMaker

namespace Json

def digitValue? (c : Char) : Option Nat :=
  if '0' ≤ c ∧ c ≤ '9' then some (c.toNat - '0'.toNat) else none

def startsWithDigit : List Char → Bool
  | [] => false
  | c :: _ => (digitValue? c).isSome

/-- Leading digits as a continuation of `significand`, as long as it fits in a word: the new
significand, the number of digits taken, the rest. -/
def takeDigits : Nat → Nat → List Char → Nat × Nat × List Char
  | significand, taken, [] => (significand, taken, [])
  | significand, taken, c :: rest =>
    match digitValue? c with
    | some d =>
      if significand * 10 + d < twoTo 64 then takeDigits (significand * 10 + d) (taken + 1) rest
      else (significand, taken, c :: rest)
    | none => (significand, taken, c :: rest)

/-- The number of leading digits and the rest. -/
def dropDigits : Nat → List Char → Nat × List Char
  | n, [] => (n, [])
  | n, c :: rest => if (digitValue? c).isSome then dropDigits (n + 1) rest else (n, c :: rest)

def ofScaled? (negative : Bool) (significand : Nat) (exponent : Int) (rest : List Char) :
    Option (Json × List Char) :=
  (Binary64.scaled? significand.toUInt64 exponent).map fun x =>
    (float (if negative then -x else x), rest)

/-- An exponent behind its mark. One out of range is refused, unless the number is zero anyway. -/
def exponent? (negative : Bool) (significand : Nat) (start : Int) (text : List Char) :
    Option (Json × List Char) :=
  let (down, digits) := match text with
    | '+' :: rest => (false, rest)
    | '-' :: rest => (true, rest)
    | rest => (false, rest)
  if startsWithDigit digits then
    let (n, _, rest) := takeDigits 0 0 digits
    if startsWithDigit rest ∨ twoTo 31 ≤ n then
      if significand ≠ 0 ∧ ¬ down then none
      else some (float (if negative then -0.0 else 0.0), (dropDigits 0 rest).2)
    else ofScaled? negative significand (if down then start - n else start + n) rest
  else none

/-- What may follow the digits: an exponent or nothing. -/
def finish? (negative : Bool) (significand : Nat) (exponent : Int) (text : List Char) :
    Option (Json × List Char) :=
  match text with
  | 'e' :: rest => exponent? negative significand exponent rest
  | 'E' :: rest => exponent? negative significand exponent rest
  | rest => ofScaled? negative significand exponent rest

/-- The digits behind the point; those with no room in the significand are ignored. -/
def fraction? (negative : Bool) (significand : Nat) (exponent : Int) (text : List Char) :
    Option (Json × List Char) :=
  let (m, taken, rest) := takeDigits significand 0 text
  if startsWithDigit rest then finish? negative m (exponent - taken) (dropDigits 0 rest).2
  else if taken = 0 then none
  else finish? negative m (exponent - taken) rest

/-- What follows the digits of the whole part. -/
def continueNumber? (negative : Bool) (significand : Nat) (text : List Char) :
    Option (Json × List Char) :=
  match text with
  | '.' :: rest => fraction? negative significand 0 rest
  | 'e' :: rest => exponent? negative significand 0 rest
  | 'E' :: rest => exponent? negative significand 0 rest
  | rest =>
    if ¬ negative then some (int significand, rest)
    else if 0 < significand ∧ significand ≤ twoTo 63 then some (int (-significand), rest)
    else some (float (-significand.toUInt64.toFloat), rest)

/-- A whole part with more digits than fit; those beyond only count. -/
def longNumber? (negative : Bool) (significand : Nat) (text : List Char) :
    Option (Json × List Char) :=
  let (extra, rest) := dropDigits 0 text
  match rest with
  | '.' :: rest => fraction? negative significand extra rest
  | rest => finish? negative significand extra rest

/-- A number behind its sign. A whole part that starts with zero is zero. -/
def magnitude? (negative : Bool) (text : List Char) : Option (Json × List Char) :=
  match text with
  | '0' :: rest => if startsWithDigit rest then none else continueNumber? negative 0 rest
  | _ =>
    let (m, taken, rest) := takeDigits 0 0 text
    if taken = 0 then none
    else if startsWithDigit rest then longNumber? negative m rest
    else continueNumber? negative m rest

def number? (text : List Char) : Option (Json × List Char) :=
  match text with
  | '-' :: rest => magnitude? true rest
  | rest => magnitude? false rest

end Json

end MarketMaker
