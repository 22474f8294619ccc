/-!
Powers of ten and of two as natural numbers: the units of decimal places and the bounds of words.
-/

namespace MarketMaker

/-- Ten to the power `n`. -/
def tenTo (n : Nat) : Nat := Nat.pow 10 n

/-- Two to the power `n`. -/
def twoTo (n : Nat) : Nat := Nat.pow 2 n

theorem tenTo_zero : tenTo 0 = 1 := rfl

theorem tenTo_succ (n : Nat) : tenTo (n + 1) = tenTo n * 10 := rfl

theorem tenTo_pos (n : Nat) : 0 < tenTo n := by
  induction n with
  | zero => decide
  | succ n positive =>
    rw [tenTo_succ]
    omega

theorem two_le_tenTo {n : Nat} (positive : 0 < n) : 2 ≤ tenTo n := by
  obtain ⟨m, rfl⟩ : ∃ m, n = m + 1 := ⟨n - 1, by omega⟩
  have := tenTo_pos m
  rw [tenTo_succ]
  omega

end MarketMaker
