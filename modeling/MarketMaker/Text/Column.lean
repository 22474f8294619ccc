/-!
Columns of fixed width, counted in characters. Longer texts are left as they are.
-/

namespace MarketMaker

namespace Text

def blanks (n : Nat) : String :=
  String.ofList (List.replicate n ' ')

/-- The text at the left of its column. -/
def left (width : Nat) (s : String) : String :=
  s ++ blanks (width - s.length)

/-- The text at the right of its column. -/
def right (width : Nat) (s : String) : String :=
  blanks (width - s.length) ++ s

/-- At least two digits. -/
def twoDigits (n : Nat) : String :=
  if n < 10 then "0" ++ toString n else toString n

end Text

end MarketMaker
