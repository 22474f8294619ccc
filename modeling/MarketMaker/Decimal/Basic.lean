import MarketMaker.Power
/-!
Decimals: a sign, a mantissa of 96 bits and at most 28 decimal places. The places are part of the
number as written, so `1.0` and `1.00` are different decimals of equal value. Order and comparison
go by value.
-/

namespace MarketMaker

structure Decimal where
  negative : Bool
  mantissa : Nat
  scale : Nat
  mantissa_lt : mantissa < twoTo 96
  scale_le : scale ≤ 28
deriving DecidableEq

namespace Decimal

/-- The decimal with these parts, if they are in range. -/
def ofParts? (negative : Bool) (mantissa scale : Nat) : Option Decimal :=
  if fits : mantissa < twoTo 96 ∧ scale ≤ 28 then
    some ⟨negative, mantissa, scale, fits.1, fits.2⟩
  else none

theorem zero_lt_bound : 0 < twoTo 96 := by decide

theorem one_lt_bound : 1 < twoTo 96 := by decide

theorem zero_le_places : 0 ≤ 28 := by decide

def zero : Decimal := ⟨false, 0, 0, zero_lt_bound, zero_le_places⟩

def one : Decimal := ⟨false, 1, 0, one_lt_bound, zero_le_places⟩

/-- `mantissa / 10 ^ scale`, for numbers known beforehand; zero for parts out of range. -/
def of (mantissa scale : Nat) : Decimal :=
  (ofParts? false mantissa scale).getD zero

theorem word_lt_bound (n : UInt64) : n.toNat < twoTo 96 :=
  Nat.lt_trans n.toNat_lt (by decide)

/-- A whole number that fits in a word. -/
def ofWord (n : UInt64) : Decimal :=
  ⟨false, n.toNat, 0, word_lt_bound n, zero_le_places⟩

instance : Zero Decimal := ⟨zero⟩

instance : One Decimal := ⟨one⟩

instance : Inhabited Decimal := ⟨zero⟩

/-- The mantissa with its sign. -/
def coefficient (a : Decimal) : Int :=
  if a.negative then -(a.mantissa : Int) else a.mantissa

/-- The number that the decimal stands for. -/
def value (a : Decimal) : Rat :=
  a.coefficient / tenTo a.scale

instance : LT Decimal where
  lt a b := a.coefficient * tenTo b.scale < b.coefficient * tenTo a.scale

instance : LE Decimal where
  le a b := a.coefficient * tenTo b.scale ≤ b.coefficient * tenTo a.scale

instance (a b : Decimal) : Decidable (a < b) :=
  inferInstanceAs (Decidable (a.coefficient * tenTo b.scale < b.coefficient * tenTo a.scale))

instance (a b : Decimal) : Decidable (a ≤ b) :=
  inferInstanceAs (Decidable (a.coefficient * tenTo b.scale ≤ b.coefficient * tenTo a.scale))

/-- Of two decimals of equal value the first is taken. -/
instance : Min Decimal where
  min a b := if b < a then b else a

/-- Of two decimals of equal value the first is taken. -/
instance : Max Decimal where
  max a b := if a < b then b else a

/-- The sign flips, that of a zero too. -/
instance : Neg Decimal where
  neg a := { a with negative := !a.negative }

theorem coefficient_neg (a : Decimal) : (-a).coefficient = -a.coefficient := by
  cases a with
  | mk negative mantissa scale =>
    cases negative
    · rfl
    · exact (Int.neg_neg _).symm

/-- Numeric order, for sorting. -/
instance : Ord Decimal where
  compare a b :=
    compare (a.coefficient * tenTo b.scale) (b.coefficient * tenTo a.scale)

end Decimal

end MarketMaker
