import MarketMaker.Power
/-!
Floating-point numbers as decimal text and back. Writing finds the fewest digits that read back to
the same number and among those the nearest to it; it works on the exact binary value in `Nat`.
Reading multiplies the first digits that fit in a word by a power of ten, both rounded.
-/

namespace MarketMaker

namespace Binary64

/-- A finite number as a significand times a power of two, and whether the gap below it is half
the gap above. -/
structure Parts where
  significand : Nat
  exponent : Int
  narrowBelow : Bool

def negative (x : Float) : Bool :=
  x.toBits.toNat / twoTo 63 == 1

def parts (x : Float) : Parts :=
  let bits := x.toBits.toNat
  let field : Nat := bits / twoTo 52 % twoTo 11
  let fraction := bits % twoTo 52
  if field == 0 then ⟨fraction, -1074, false⟩
  else ⟨fraction + twoTo 52, Int.ofNat field - 1075, fraction == 0 && decide (1 < field)⟩

/-- The numbers that round to `x`, as `low / den` to `high / den` around `mid / den`; the ends
belong to them if `closed`. -/
structure Interval where
  low : Nat
  mid : Nat
  high : Nat
  den : Nat
  closed : Bool

def interval (p : Parts) : Interval :=
  let up := twoTo (p.exponent - 2).toNat
  { low := (4 * p.significand - if p.narrowBelow then 1 else 2) * up
    mid := 4 * p.significand * up
    high := (4 * p.significand + 2) * up
    den := twoTo (2 - p.exponent).toNat
    closed := p.significand % 2 == 0 }

namespace Interval

/-- All numbers times `10 ^ (-e)`. -/
def scale (e : Int) (i : Interval) : Interval :=
  let up := tenTo (-e).toNat
  { i with low := i.low * up, mid := i.mid * up, high := i.high * up, den := i.den * tenTo e.toNat }

def contains (i : Interval) (n : Nat) : Bool :=
  let c := n * i.den
  if i.closed then decide (i.low ≤ c ∧ c ≤ i.high) else decide (i.low < c ∧ c < i.high)

/-- The whole number of the interval that is nearest to its middle, if there is one. -/
def nearest? (i : Interval) : Option Nat :=
  let below := i.mid / i.den
  let above := below + 1
  match i.contains below, i.contains above with
  | true, true =>
    if i.mid - below * i.den ≤ above * i.den - i.mid then some below else some above
  | true, false => some below
  | false, true => some above
  | false, false => none

end Interval

/-- The least power of ten above the number. -/
def magnitude (i : Interval) : Int :=
  let candidates := (List.range 640).map fun (k : Nat) => (k : Int) - 325
  (candidates.find? fun k => decide ((i.scale k).mid < (i.scale k).den)).getD 0

/-- Digits and power of ten of the shortest decimal that reads back to `x`. -/
def shortest (x : Float) : Nat × Int :=
  let i := interval (parts x)
  if i.mid = 0 then (0, 0)
  else
    let top := magnitude i
    let found := (List.range 17).findSome? fun n =>
      let e := top - (n + 1 : Nat)
      ((i.scale e).nearest?).map fun digits => (digits, e)
    found.getD (0, 0)

/-- Trailing zeros of the digits go into the power. -/
def trim : Nat → Nat × Int → Nat × Int
  | 0, d => d
  | rounds + 1, (m, e) => if m % 10 = 0 ∧ m ≠ 0 then trim rounds (m / 10, e + 1) else (m, e)

def digitsOf (x : Float) : List Char × Int :=
  let (m, e) := trim 18 (shortest x)
  (Nat.toDigits 10 m, e)

def zeros (n : Int) : List Char :=
  List.replicate n.toNat '0'

def signed (x : Float) (text : List Char) : String :=
  String.ofList (if negative x then '-' :: text else text)

/-- Digits with the point `places` digits after the first, inside them or left of them. -/
def pointed (digits : List Char) (whole : Int) : List Char :=
  if 0 < whole then digits.take whole.toNat ++ '.' :: digits.drop whole.toNat
  else '0' :: '.' :: zeros (-whole) ++ digits

/-- Positional text whatever the size, without a point for a whole number. -/
def positional (x : Float) : String :=
  let (digits, e) := digitsOf x
  signed x <|
    if 0 ≤ e then digits ++ zeros e
    else pointed digits (digits.length + e)

/-- Positional text from `1e-5` to below `1e16`, always with a point; else an exponent. -/
def scientific (x : Float) : String :=
  let (digits, e) := digitsOf x
  let whole : Int := digits.length + e
  signed x <|
    if 0 ≤ e ∧ whole ≤ 16 then digits ++ zeros e ++ ['.', '0']
    else if -5 < whole ∧ whole ≤ 16 then pointed digits whole
    else
      let fraction := digits.drop 1
      digits.take 1 ++ (if fraction.isEmpty then [] else '.' :: fraction) ++
        'e' :: (toString (whole - 1)).toList

/-- `significand * 10 ^ exponent`, each step rounded; none if the result is not finite. -/
def scaled? (significand : UInt64) (exponent : Int) : Option Float :=
  let rec go : Nat → Float → Int → Option Float
    | 0, f, _ => some f
    | rounds + 1, f, e =>
      if e.natAbs ≤ 308 then
        if 0 ≤ e then
          let product := f * Float.ofScientific 1 false e.natAbs
          if product.isInf then none else some product
        else some (f / Float.ofScientific 1 false e.natAbs)
      else if f == 0 then some f
      else if 0 ≤ e then none
      else go rounds (f / Float.ofScientific 1 false 308) (e + 308)
  go (exponent.natAbs / 308 + 1) significand.toFloat exponent

end Binary64

end MarketMaker
