import MarketMaker.Json.Number
/-!
Reading JSON text. Values nest at most 127 deep; every error is a refusal.
-/

namespace MarketMaker

namespace Json

def isBlank (c : Char) : Bool :=
  c == ' ' || c == '\n' || c == '\t' || c == '\r'

def skipBlanks (text : List Char) : List Char :=
  text.dropWhile isBlank

def hexValue? (c : Char) : Option Nat :=
  if '0' ≤ c ∧ c ≤ '9' then some (c.toNat - '0'.toNat)
  else if 'a' ≤ c ∧ c ≤ 'f' then some (c.toNat - 'a'.toNat + 10)
  else if 'A' ≤ c ∧ c ≤ 'F' then some (c.toNat - 'A'.toNat + 10)
  else none

/-- Four hexadecimal digits. -/
def unit? : List Char → Option (Nat × List Char)
  | a :: b :: c :: d :: rest => do
    let a ← hexValue? a
    let b ← hexValue? b
    let c ← hexValue? c
    let d ← hexValue? d
    some (((a * 16 + b) * 16 + c) * 16 + d, rest)
  | _ => none

/-- The character of an escape behind `\u`: one unit, or two that form a pair. -/
def unicodeEscape? (text : List Char) : Option (Char × List Char) := do
  let (high, rest) ← unit? text
  if 0xD800 ≤ high ∧ high < 0xDC00 then
    match rest with
    | '\\' :: 'u' :: rest =>
      let (low, rest) ← unit? rest
      if 0xDC00 ≤ low ∧ low < 0xE000 then
        some (Char.ofNat (0x10000 + (high - 0xD800) * 0x400 + (low - 0xDC00)), rest)
      else none
    | _ => none
  else if 0xDC00 ≤ high ∧ high < 0xE000 then none
  else some (Char.ofNat high, rest)

def shortEscape? : Char → Option Char
  | '"' => some '"'
  | '\\' => some '\\'
  | '/' => some '/'
  | 'b' => some '\x08'
  | 'f' => some '\x0c'
  | 'n' => some '\n'
  | 'r' => some '\r'
  | 't' => some '\t'
  | _ => none

/-- The rest of a string behind its opening quote; `read` holds what was read, last first. -/
def stringRest? : Nat → List Char → List Char → Option (String × List Char)
  | 0, _, _ => none
  | steps + 1, read, text =>
    match text with
    | [] => none
    | '"' :: rest => some (String.ofList read.reverse, rest)
    | '\\' :: 'u' :: rest => do
      let (c, rest) ← unicodeEscape? rest
      stringRest? steps (c :: read) rest
    | '\\' :: c :: rest => do
      let c ← shortEscape? c
      stringRest? steps (c :: read) rest
    | c :: rest => if c.toNat < 0x20 then none else stringRest? steps (c :: read) rest

/-- The text behind `word`, if it starts with it. -/
def keyword? : List Char → List Char → Option (List Char)
  | [], text => some text
  | w :: word, c :: text => if w = c then keyword? word text else none
  | _ :: _, [] => none

mutual

/-- A value at the front of the text. `depth` is how many containers may still open; `steps`
bounds the work by the length of the text. -/
def value? (steps depth : Nat) (text : List Char) : Option (Json × List Char) :=
  match steps with
  | 0 => none
  | steps + 1 =>
    match skipBlanks text with
    | '"' :: rest => (stringRest? (rest.length + 1) [] rest).map fun (s, rest) => (str s, rest)
    | '[' :: rest =>
      if depth ≤ 1 then none
      else
        match skipBlanks rest with
        | ']' :: rest => some (arr [], rest)
        | rest => (items? steps (depth - 1) rest).map fun (items, rest) => (arr items, rest)
    | '\x7b' :: rest =>
      if depth ≤ 1 then none
      else
        match skipBlanks rest with
        | '\x7d' :: rest => some (obj [], rest)
        | rest => (fields? steps (depth - 1) [] rest).map fun (fields, rest) => (obj fields, rest)
    | 't' :: rest => (keyword? "rue".toList rest).map fun rest => (bool true, rest)
    | 'f' :: rest => (keyword? "alse".toList rest).map fun rest => (bool false, rest)
    | 'n' :: rest => (keyword? "ull".toList rest).map fun rest => (null, rest)
    | rest => number? rest

/-- The items of an array up to its closing bracket. -/
def items? (steps depth : Nat) (text : List Char) : Option (List Json × List Char) :=
  match steps with
  | 0 => none
  | steps + 1 => do
    let (item, rest) ← value? steps depth text
    match skipBlanks rest with
    | ',' :: rest =>
      let (items, rest) ← items? steps depth rest
      some (item :: items, rest)
    | ']' :: rest => some ([item], rest)
    | _ => none

/-- The fields of an object up to its closing brace, added to those read before. -/
def fields? (steps depth : Nat) (read : List (String × Json)) (text : List Char) :
    Option (List (String × Json) × List Char) :=
  match steps with
  | 0 => none
  | steps + 1 =>
    match skipBlanks text with
    | '"' :: rest => do
      let (key, rest) ← stringRest? (rest.length + 1) [] rest
      match skipBlanks rest with
      | ':' :: rest =>
        let (item, rest) ← value? steps depth rest
        let read := Table.put key item read
        match skipBlanks rest with
        | ',' :: rest => fields? steps depth read rest
        | '\x7d' :: rest => some (read, rest)
        | _ => none
      | _ => none
    | _ => none

end

/-- The value that makes up the whole text, blanks around it apart. -/
def ofChars? (text : List Char) : Option Json := do
  let (value, rest) ← value? (2 * text.length + 2) 128 text
  if (skipBlanks rest).isEmpty then some value else none

def ofText? (text : String) : Option Json :=
  ofChars? text.toList

end Json

end MarketMaker
