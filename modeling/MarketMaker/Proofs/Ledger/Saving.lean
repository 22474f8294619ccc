import MarketMaker.Ledger.Basic
import MarketMaker.Proofs.Decimal.Text
import MarketMaker.Proofs.Steps
/-!
Totals that were saved, as they are read back: counts and flag as they were, the total without the sign
that a zero may have.
-/

namespace MarketMaker

/-- The count as it is read back. -/
def Profit.restored (tally : Profit) : Profit :=
  { tally with total := tally.total.unsignedZero }

theorem Profit.restored_restored (tally : Profit) : tally.restored.restored = tally.restored := by
  simp [restored, Decimal.unsignedZero_unsignedZero]

namespace SavedState

/-- Both counts fit into signed words. -/
def Fits (state : SavedState) : Prop :=
  state.profit.hedgeCount.toNat < 2 ^ 63 ∧ state.profit.unhedgedCount.toNat < 2 ^ 63

instance (state : SavedState) : Decidable state.Fits :=
  inferInstanceAs (Decidable (_ ∧ _))

/-- The totals as they are kept. -/
def row (state : SavedState) : TotalsRow :=
  ⟨state.profit.total.toText, state.profit.hedgeCount, state.profit.unhedgedCount, state.halted,
    state.lastSaved.toText⟩

end SavedState

namespace Ledger

variable {ledger ledger' : Ledger} {state : SavedState}

theorem fits_iff {n : ℕ} : fits n = true ↔ n < 2 ^ 63 :=
  decide_eq_true_iff

theorem readDecimal_toText (a : Decimal) : readDecimal a.toText = a.unsignedZero := by
  rw [readDecimal, Decimal.ofText_toText]
  rfl

theorem save_eq (ledger : Ledger) (state : SavedState) : ledger.save state =
    if state.Fits then .ok { ledger with totals := some state.row } else .error .countTooLarge := by
  unfold save
  exact if_congr (and_congr fits_iff fits_iff) rfl rfl

theorem save_ok (done : ledger.save state = .ok ledger') :
    state.Fits ∧ ledger' = { ledger with totals := some state.row } := by
  rw [save_eq] at done
  split at done
  next fitting => exact ⟨fitting, (Except.ok.inj done).symm⟩
  next => cases done

theorem load_save (done : ledger.save state = .ok ledger') (now : Instant) :
    ledger'.load? now =
      some ⟨state.profit.restored, state.halted, readTime now state.lastSaved.toText⟩ := by
  obtain ⟨-, rfl⟩ := save_ok done
  rw [load?, Option.map_some, SavedState.row, readDecimal_toText]
  rfl

end Ledger

end MarketMaker
