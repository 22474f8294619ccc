import MarketMaker.Json.Basic
import MarketMaker.Json.Float
/-!
Writing JSON text: compact, or over several lines with an indent of two blanks.
-/

namespace MarketMaker

namespace Json

def hexDigit (n : Nat) : Char :=
  Nat.digitChar (n % 16)

/-- A character inside a string: quotes, backslashes and control characters are escaped. -/
def escape (c : Char) : List Char :=
  match c with
  | '"' => ['\\', '"']
  | '\\' => ['\\', '\\']
  | '\x08' => ['\\', 'b']
  | '\x0c' => ['\\', 'f']
  | '\n' => ['\\', 'n']
  | '\r' => ['\\', 'r']
  | '\t' => ['\\', 't']
  | c =>
    if c.toNat < 0x20 then ['\\', 'u', '0', '0', hexDigit (c.toNat / 16), hexDigit c.toNat]
    else [c]

def quote (s : String) : List Char :=
  '"' :: s.toList.flatMap escape ++ ['"']

mutual

def chars : Json → List Char
  | null => "null".toList
  | bool true => "true".toList
  | bool false => "false".toList
  | int n => (toString n).toList
  | float x => (Binary64.scientific x).toList
  | str s => quote s
  | arr [] => ['[', ']']
  | arr (item :: items) => '[' :: chars item ++ itemChars items ++ [']']
  | obj [] => ['\x7b', '\x7d']
  | obj ((key, value) :: fields) =>
    '\x7b' :: quote key ++ ':' :: chars value ++ fieldChars fields ++ ['\x7d']

/-- Further items, each behind a comma. -/
def itemChars : List Json → List Char
  | [] => []
  | item :: items => ',' :: chars item ++ itemChars items

/-- Further fields, each behind a comma. -/
def fieldChars : List (String × Json) → List Char
  | [] => []
  | (key, value) :: fields => ',' :: quote key ++ ':' :: chars value ++ fieldChars fields

end

/-- Compact text. -/
def toText (value : Json) : String :=
  String.ofList value.chars

def newline (indent : Nat) : List Char :=
  '\n' :: List.replicate (2 * indent) ' '

mutual

/-- The value with its containers opened over several lines; empty ones stay closed. -/
def prettyChars (indent : Nat) : Json → List Char
  | arr (item :: items) =>
    '[' :: newline (indent + 1) ++ prettyChars (indent + 1) item ++
      prettyItems (indent + 1) items ++ newline indent ++ [']']
  | obj ((key, value) :: fields) =>
    '\x7b' :: newline (indent + 1) ++ quote key ++ ':' :: ' ' :: prettyChars (indent + 1) value ++
      prettyFields (indent + 1) fields ++ newline indent ++ ['\x7d']
  | value => chars value

def prettyItems (indent : Nat) : List Json → List Char
  | [] => []
  | item :: items => ',' :: newline indent ++ prettyChars indent item ++ prettyItems indent items

def prettyFields (indent : Nat) : List (String × Json) → List Char
  | [] => []
  | (key, value) :: fields =>
    ',' :: newline indent ++ quote key ++ ':' :: ' ' :: prettyChars indent value ++
      prettyFields indent fields

end

def pretty (value : Json) : String :=
  String.ofList (prettyChars 0 value)

end Json

end MarketMaker
