import MarketMaker.Table
/-!
JSON values. Whole numbers and floating-point numbers are kept apart, as in the text: `1` is
whole, `1.0` is not. In an object the last pair of a key counts.
-/

namespace MarketMaker

inductive Json
  | null
  | bool (value : Bool)
  | int (value : Int)
  | float (value : Float)
  | str (value : String)
  | arr (items : List Json)
  | obj (fields : List (String × Json))
deriving Inhabited

namespace Json

/-- The field of an object. -/
def field? (key : String) : Json → Option Json
  | obj fields => Table.get? key fields
  | _ => none

end Json

end MarketMaker
