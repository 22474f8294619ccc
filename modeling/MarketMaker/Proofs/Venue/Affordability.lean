import MarketMaker.Proofs.Venue.Depth
/-!
Budgets against funds. The budget divides the free balance by the price with its fee; the funds check
multiplies up what executes and what rests. Where the terms of an order are not rounded, the two differ
only over a purchase that lies between what the balance pays for and the rounded budget.
-/

namespace MarketMaker

open Decimal

/-! ### Walks and terms that are not rounded -/

namespace Arithmetic.Refines

variable {stopping going : Arithmetic} {side : Side}

theorem sweep (refines : Refines stopping going) {limit : Option Decimal} {amount : Decimal}
    {x : Execution} {levels : List Level} :
    Checked.Refines (@Level.sweep stopping side limit amount x levels)
      (@Level.sweep going side limit amount x levels) := by
  intro y done
  induction levels generalizing x with
  | nil => exact done
  | cons level levels ih =>
    rcases @Level.sweep_cons stopping _ _ _ _ _ _ _ done with
      ⟨ended, rfl⟩ | ⟨rest, cost, filled, notional, less, within, subtracted, added, costs, total, later⟩
    · exact @Level.sweep_ended going _ _ _ _ _ _ ended
    · rw [@Level.sweep_more going _ _ _ _ _ _ _ _ _ _ less within (refines.sub subtracted)
        (refines.add added) (refines.mul costs) (refines.add total)]
      exact ih later

theorem terms (refines : Refines stopping going) {v : SimulatedVenue} {book : OrderBook}
    {type : OrderType} {amount price : Decimal} :
    Checked.Refines (@SimulatedVenue.terms stopping v book side amount type price)
      (@SimulatedVenue.terms going v book side amount type price) := by
  unfold SimulatedVenue.terms
  refine .bind refines.sweep fun x => ?_
  cases type with
  | limit =>
    refine .bind (fun _ => refines.sub) fun remaining => .bind (fun _ => refines.mul) fun fee => ?_
    cases side with
    | buy => exact .bind (fun _ => refines.add) fun paid => .bind (fun _ => refines.mul) fun reserved =>
        .bind (fun _ => refines.add) fun cost _ same => same
    | sell => exact .bind (fun _ => refines.add) fun cost _ same => same
  | market =>
    refine .bind (fun _ same => same) fun remaining => .bind (fun _ => refines.mul) fun fee => ?_
    cases side with
    | buy => exact .bind (fun _ => refines.add) fun paid => .bind (fun _ => refines.mul) fun reserved =>
        .bind (fun _ => refines.add) fun cost _ same => same
    | sell => exact .bind (fun _ => refines.add) fun cost _ same => same

end Arithmetic.Refines

namespace SimulatedVenue

variable {v : SimulatedVenue} {pair : Pair} {side : Side} {type : OrderType} {amount price : Decimal}
  {book : OrderBook} {t : Terms} {candidate settled : Candidate} {allOrNone : Bool}

/-- An order whose cost is free goes on to be accepted. -/
theorem placeOrder_affordable [Arithmetic] (willing : v.rejections = 0) (positive : 0 < amount)
    (found : v.bookOf pair = .ok book) (terms : v.terms book side amount type price = .ok t)
    (pays : t.cost.value ≤ (v.free (pair.spent side)).value) :
    v.placeOrder pair side amount type price =
      (v.accept pair side amount type price t).map fun (id, w) => (.ok id, w) := by
  have accepting : ¬ 0 < v.rejections := by omega
  rw [placeOrder, if_neg (not_nonpos_iff_value.2 (pos_iff_value.1 positive)), if_neg accepting, found]
  simp only [terms, Checked.ok_bind, if_neg (not_lt_iff_value.2 pays)]
  cases v.accept pair side amount type price t <;> rfl

/-- An order that the budget has let through is accepted, but for a purchase of more than the free balance
pays for: the rounded budget may exceed that. -/
theorem adjusted_accepted (found : v.bookOf candidate.pair = .ok book) (fair : book.Fair)
    (rate : 0 ≤ v.feeRate.value) (willing : v.rejections = 0)
    (adjusted : @adjustCandidate .rounding v candidate allOrNone = .ok (.ok settled))
    (positive : 0 < settled.amount)
    (unrounded : @terms .precise v book candidate.side settled.amount .limit candidate.price = .ok t) :
    @placeOrder .rounding v candidate.pair candidate.side settled.amount .limit candidate.price =
        (@accept .rounding v candidate.pair candidate.side settled.amount .limit candidate.price t).map
          (fun (id, w) => (.ok id, w)) ∨
      candidate.side = .buy ∧ ∃ most, @budget .rounding v candidate = .ok most ∧
        settled.amount.value ≤ most.value ∧
        (v.free candidate.pair.quote).value <
          settled.amount.value * candidate.price.value * (1 + v.feeRate.value) := by
  have some' := pos_iff_value.1 positive
  rcases @adjustCandidate_cases .rounding _ _ _ _ adjusted with
    ⟨-, _, impossible⟩ | ⟨priced, most, computed, same⟩
  · cases impossible
  obtain rfl := Except.ok.inj same
  have within := @allowed_le_budget most candidate.amount allOrNone
    (@budget_nonneg .rounding _ _ _ computed)
  by_cases covered : v.Covers candidate.pair candidate.side
      (allowed most allOrNone candidate.amount) candidate.price
  · left
    have pays := @terms_covered .precise _ _ _ _ _ _ Arithmetic.precise_exact
      Arithmetic.precise_exactProducts fair rate some' priced covered _ unrounded
    exact @placeOrder_affordable _ _ _ _ _ _ _ _ .rounding willing positive found
      (Arithmetic.precise_refines.terms unrounded) pays
  · right
    cases side : candidate.side with
    | buy =>
      rw [side] at covered
      exact ⟨rfl, most, computed, within, not_le.1 covered⟩
    | sell =>
      -- the budget of a sale is the free balance itself
      obtain ⟨affordable, rfl, -, sells⟩ := @budget_ok .rounding _ _ _ computed
      obtain rfl := sells side
      rw [value_max, value_zero, le_max_iff] at within
      rw [side] at covered
      exact absurd (within.resolve_right some'.not_ge) covered

/-- The venue with a hundred, and a book that covers two of the five units wanted at 30. -/
def twoBelowThirty : OrderBook :=
  ⟨⟨"DOGE", "USDT"⟩, ⟨0⟩, [⟨.of 9 0, .of 5 0⟩], [⟨.of 10 0, .of 2 0⟩, ⟨.of 40 0, .of 5 0⟩]⟩

def bookedHundred : SimulatedVenue :=
  { hundredVenue with books := [(twoBelowThirty.pair, twoBelowThirty)] }

/-- A purchase of 5 at 30 that the budget reduces to 3.33000333 is accepted for that. -/
theorem adjusted_accepted_hundred : ∃ settled t,
    @adjustCandidate .rounding bookedHundred fiveAtThirty false = .ok (.ok settled) ∧
      settled.amount.value = 333000333 / 10 ^ 8 ∧
      @placeOrder .rounding bookedHundred fiveAtThirty.pair .buy settled.amount .limit
          fiveAtThirty.price =
        (@accept .rounding bookedHundred fiveAtThirty.pair .buy settled.amount .limit
          fiveAtThirty.price t).map fun (id, w) => (.ok id, w) := by
  have works : (@adjustCandidate .rounding bookedHundred fiveAtThirty false).toOption.any
      (fun reply => reply.toOption.any fun settled =>
        decide (settled.amount.value = 333000333 / 10 ^ 8) &&
        (@terms .precise bookedHundred twoBelowThirty .buy settled.amount .limit
          fiveAtThirty.price).toOption.any fun _ => true) = true := by decide +kernel
  obtain ⟨reply, adjusted, granted⟩ := Checked.toOption_any works
  obtain ⟨settled, rfl, known⟩ := Checked.toOption_any granted
  obtain ⟨amount, plain⟩ := (Bool.and_eq_true _ _).mp known
  obtain ⟨t, unrounded, -⟩ := Checked.toOption_any plain
  have value := of_decide_eq_true amount
  have positive : 0 < settled.amount := by
    rw [pos_iff_value, value]
    norm_num
  rcases @adjusted_accepted bookedHundred twoBelowThirty t fiveAtThirty settled false rfl (by decide)
      (by decide +kernel) rfl adjusted positive unrounded with
    accepted | ⟨-, _, -, -, beyond⟩
  · exact ⟨settled, t, adjusted, value, accepted⟩
  · rw [value] at beyond
    exact absurd beyond (by decide +kernel)

/-- A venue that is short of 3 of the quote by the least decimal, with a book that no order at 3 meets. -/
def shortVenue : SimulatedVenue :=
  let book : OrderBook := ⟨⟨"DOGE", "USDT"⟩, ⟨0⟩, [⟨.of 1 0, .of 5 0⟩], [⟨.of 10 0, .of 5 0⟩]⟩
  { (SimulatedVenue.new "okx" 0 ⟨0⟩).setBalance "USDT" (.of 29999999999999999999999999999 28) with
    books := [(book.pair, book)] }

def fiveAtThree : Candidate :=
  ⟨⟨"DOGE", "USDT"⟩, false, .limit, .buy, .of 5 0, .of 3 0⟩

/-- The free balance buys less than 1 at 3, but its budget is rounded to 1, and an order for 1 is
refused. -/
theorem adjusted_refused :
    (∀ entry ∈ shortVenue.balances, 0 ≤ entry.2) ∧ (∀ entry ∈ shortVenue.books, entry.2.Positive) ∧
      shortVenue.feeRate = 0 ∧ shortVenue.rejections = 0 ∧
      @adjustCandidate .rounding shortVenue fiveAtThree false =
        .ok (.ok { fiveAtThree with amount := .of 100000000 8 }) ∧
      @placeOrder .rounding shortVenue fiveAtThree.pair fiveAtThree.side (.of 100000000 8) .limit
          fiveAtThree.price =
        .ok (.error (.rejected (.funds .buy (.of 100000000 8) fiveAtThree.pair)), shortVenue) := by
  refine ⟨?_, ?_, ?_, ?_, ?_, ?_⟩ <;> decide +kernel

end SimulatedVenue

end MarketMaker
