import MarketMaker.Text.Blank
import MarketMaker.Text.Upper
/-!
Trading pairs. The text of a pair is its base asset, a dash and its quote asset; reading ignores
blanks around it and turns it to upper case.
-/

namespace MarketMaker

structure Pair where
  base : String
  quote : String
deriving DecidableEq, Inhabited

namespace Pair

def toText (pair : Pair) : String :=
  pair.base ++ "-" ++ pair.quote

instance : ToString Pair := ⟨toText⟩

/-- The pair that a text names: two assets that are not empty around the only dash. -/
def ofText? (text : String) : Option Pair :=
  let chars := Text.trim text.toList
  let base := chars.takeWhile (· != '-')
  match chars.dropWhile (· != '-') with
  | [] => none
  | _ :: quote =>
    if base.isEmpty ∨ quote.isEmpty ∨ '-' ∈ quote then none
    else some ⟨Text.upper (String.ofList base), Text.upper (String.ofList quote)⟩

end Pair

end MarketMaker
