import MarketMaker.Decimal.Text
import MarketMaker.Json.Basic
import MarketMaker.Json.Float
/-!
Records in JSON. A record is an object, whose other keys are ignored, or an array of its fields in
order. How leaves are read is up to a reader: the strict one wants the JSON type, the lenient one
converts between texts, numbers and truth values.
-/

namespace MarketMaker

namespace Json

/-- A decimal as it is written when it is a floating-point number. -/
def decimalOfFloat? (x : Float) : Option Decimal :=
  Decimal.ofText? (Binary64.positional x)

/-- A whole number as a decimal. -/
def decimalOfInt? (n : Int) : Option Decimal :=
  Decimal.ofParts? (decide (n < 0)) n.natAbs 0

/-- How the leaves of a record are read. -/
structure Reader where
  text? : Json → Option String
  truth? : Json → Option Bool
  word? : Json → Option UInt64
  decimal? : Json → Option Decimal
  /-- Whether an array may be longer than its record. -/
  longArrays : Bool

def wordOfInt? (n : Int) : Option UInt64 :=
  if 0 ≤ n ∧ n < twoTo 64 then some n.toNat.toUInt64 else none

/-- A decimal is a text, a whole number or a floating-point number under either reader. -/
def anyDecimal? : Json → Option Decimal
  | str s => Decimal.ofAnyText? s
  | int n => decimalOfInt? n
  | float x => decimalOfFloat? x
  | _ => none

def Reader.strict : Reader where
  text?
    | str s => some s
    | _ => none
  truth?
    | bool b => some b
    | _ => none
  word?
    | int n => wordOfInt? n
    | _ => none
  decimal? := anyDecimal?
  longArrays := false

/-- Letters in lower case as far as ASCII text can come of it: the Kelvin sign is a `k`. -/
def lowerChar (c : Char) : Char :=
  if c.toNat = 0x212A then 'k' else c.toLower

def lower (s : String) : String :=
  s.map lowerChar

def truthOfText? (s : String) : Option Bool :=
  let s := lower s
  if s = "true" ∨ s = "on" ∨ s = "yes" then some true
  else if s = "false" ∨ s = "off" ∨ s = "no" then some false
  else none

def wordOfText? (s : String) : Option UInt64 :=
  match truthOfText? s with
  | some b => some (if b then 1 else 0)
  | none => do
    let n ← Decimal.count? s.toList
    if n < twoTo 64 then some n.toUInt64 else none

def Reader.lenient : Reader where
  text?
    | str s => some s
    | int n => some (toString n)
    | float x => some (Binary64.positional x)
    | bool b => some (if b then "true" else "false")
    | _ => none
  truth?
    | bool b => some b
    | int n => some (n != 0)
    | float x => some (x != 0.0)
    | str s =>
      if s = "1" then some true else if s = "0" then some false else truthOfText? s
    | _ => none
  word?
    | int n => wordOfInt? n
    | bool b => some (if b then 1 else 0)
    | float x => some x.round.toUInt64
    | str s => wordOfText? s
    | _ => none
  decimal? := anyDecimal?
  longArrays := true

/-- The values of these fields, none where one is missing. -/
def record? (r : Reader) (names : List String) : Json → Option (List (Option Json))
  | obj fields => some (names.map fun name => Table.get? name fields)
  | arr items =>
    if items.length ≤ names.length ∨ r.longArrays then
      some ((List.range names.length).map fun i => items[i]?)
    else none
  | _ => none

/-- A field that has to be there. -/
def required? {α : Type} (read : Json → Option α) : Option Json → Option α
  | some value => read value
  | none => none

/-- A field with a default. -/
def optional? {α : Type} (default : α) (read : Json → Option α) : Option Json → Option α
  | some value => read value
  | none => some default

/-- The `i`-th of the fields found. -/
def fieldAt (found : List (Option Json)) (i : Nat) : Option Json :=
  found.getD i none

def ofDecimal (a : Decimal) : Json := str a.toText

def ofWord (n : UInt64) : Json := int n.toNat

end Json

end MarketMaker
