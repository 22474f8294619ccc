import MarketMaker.Proofs.Decimal.Magnitude
import MarketMaker.Proofs.Venue.Operations
/-!
What a budget does to an order. It changes the amount only, and only downwards: to nothing, or to as much
as it covers at eight places. What it has let through it lets through again.
-/

namespace MarketMaker

open Decimal

/-- What a budget allows of an amount. -/
def allowed (most : Decimal) (allOrNone : Bool) (amount : Decimal) : Decimal :=
  if amount ≤ most then amount else if allOrNone then 0 else most.round .towardZero 8

/-- The greatest number of eight places that a budget covers. -/
def Decimal.Exhausts (amount most : Decimal) : Prop :=
  IsGreatest {x : ℚ | (∃ n : ℤ, x = n / 10 ^ 8) ∧ x ≤ most.value} amount.value

section Allowed

variable {most amount : Decimal} {allOrNone : Bool}

theorem allowed_of_le (le : amount.value ≤ most.value) : allowed most allOrNone amount = amount :=
  if_pos (le_iff_value.2 le)

theorem exhausts_round (nonneg : 0 ≤ most.value) : (most.round .towardZero 8).Exhausts most :=
  isGreatest_round_towardZero nonneg 8

theorem allowed_le_budget (nonneg : 0 ≤ most.value) :
    (allowed most allOrNone amount).value ≤ most.value := by
  unfold allowed
  split_ifs with covered none
  · exact le_iff_value.1 covered
  · rwa [value_zero]
  · exact (exhausts_round nonneg).1.2

theorem allowed_le (nonneg : 0 ≤ most.value) :
    (allowed most allOrNone amount).value ≤ amount.value := by
  by_cases covered : amount.value ≤ most.value
  · rw [allowed_of_le covered]
  · exact (allowed_le_budget nonneg).trans (not_le.1 covered).le

theorem allowed_nonneg (nonneg : 0 ≤ most.value) (given : 0 ≤ amount.value) :
    0 ≤ (allowed most allOrNone amount).value := by
  unfold allowed
  split_ifs
  · exact given
  · rw [value_zero]
  · exact (exhausts_round nonneg).2 ⟨⟨0, by norm_num⟩, nonneg⟩

/-- What was reduced is nothing or as great as it may be. -/
theorem allowed_reduced (nonneg : 0 ≤ most.value)
    (reduced : (allowed most allOrNone amount).value < amount.value) :
    most.value < amount.value ∧
      if allOrNone then allowed most allOrNone amount = 0
      else (allowed most allOrNone amount).Exhausts most := by
  have beyond : ¬ amount.value ≤ most.value := fun le => reduced.ne (by rw [allowed_of_le le])
  refine ⟨not_le.1 beyond, ?_⟩
  unfold allowed
  rw [if_neg (mt le_iff_value.1 beyond)]
  cases allOrNone with
  | true => rfl
  | false => exact exhausts_round nonneg

end Allowed

/-- The same order but for its amount, which is reduced as far as the budget asks, and no further. -/
structure Candidate.Clamped (candidate settled : Candidate) (most : Decimal) (allOrNone : Bool) :
    Prop where
  same : settled = { candidate with amount := settled.amount }
  le : settled.amount.value ≤ candidate.amount.value
  covered : settled.amount.value ≤ most.value
  nonneg : 0 ≤ candidate.amount.value → 0 ≤ settled.amount.value
  kept : candidate.amount.value ≤ most.value → settled = candidate
  reduced : settled.amount.value < candidate.amount.value → most.value < candidate.amount.value ∧
    if allOrNone then settled.amount = 0 else settled.amount.Exhausts most

theorem Candidate.clamped {most : Decimal} (nonneg : 0 ≤ most.value) (candidate : Candidate)
    (allOrNone : Bool) :
    candidate.Clamped { candidate with amount := allowed most allOrNone candidate.amount } most
      allOrNone where
  same := rfl
  le := allowed_le nonneg
  covered := allowed_le_budget nonneg
  nonneg := allowed_nonneg nonneg
  kept le := by rw [allowed_of_le le]
  reduced := allowed_reduced nonneg

namespace SimulatedVenue

variable [Arithmetic] {v : SimulatedVenue} {candidate : Candidate} {most : Decimal}
  {allOrNone : Bool}

/-! ### The budget -/

/-- A sale may spend what is free, and a purchase what is free over the price with its fee. -/
theorem budget_ok (computed : v.budget candidate = .ok most) :
    ∃ affordable, most = max affordable 0 ∧
      (candidate.side = .buy → ∃ factor unit, (1 : Decimal).add v.feeRate = .ok factor ∧
        candidate.price.mul factor = .ok unit ∧
        (v.free (candidate.pair.spent .buy)).div unit = .ok affordable) ∧
      (candidate.side = .sell → affordable = v.free (candidate.pair.spent .sell)) := by
  cases side : candidate.side with
  | buy =>
    simp only [budget, side, Checked.bind_ok, Checked.pure_ok] at computed
    obtain ⟨factor, added, unit, multiplied, affordable, divided, rfl⟩ := computed
    exact ⟨affordable, rfl, fun _ => ⟨factor, unit, added, multiplied, divided⟩, by simp⟩
  | sell =>
    simp only [budget, side, Checked.bind_ok, Checked.pure_ok] at computed
    obtain ⟨affordable, rfl, rfl⟩ := computed
    exact ⟨_, rfl, by simp, fun _ => rfl⟩

theorem budget_nonneg (computed : v.budget candidate = .ok most) : 0 ≤ most.value := by
  obtain ⟨affordable, rfl, -⟩ := budget_ok computed
  rw [value_max, value_zero]
  exact le_max_right _ _

/-- Neither what a unit costs, its fee included, nor what the free balance buys at that is beyond the
greatest decimal. -/
def BudgetInRange (v : SimulatedVenue) (candidate : Candidate) : Prop :=
  candidate.side = .buy →
    candidate.price.value * (1 + v.feeRate.value) ≤ greatest ∧
      |(v.free (candidate.pair.spent .buy)).value /
        nearest (candidate.price.value * (1 + v.feeRate.value))| ≤ greatest

/-- Nothing but a result out of range keeps a budget from being worked out. -/
theorem exists_budget (total : Arithmetic.Total) (rate : 0 ≤ v.feeRate.value)
    (proper : v.feeRate.value < 1) (priced : 0 < candidate.price.value)
    (inRange : v.BudgetInRange candidate) : ∃ most, v.budget candidate = .ok most := by
  cases side : candidate.side with
  | buy =>
    obtain ⟨cheap, few⟩ := inRange side
    have small : |(1 : Decimal).value + v.feeRate.value| ≤ greatest := by
      rw [value_one, abs_of_nonneg (by linarith), greatest]
      linarith
    obtain ⟨factor, added, sum⟩ := total.add small
    rw [value_one, nearest_one_add rate proper] at sum
    have grows : candidate.price.value ≤ candidate.price.value * (1 + v.feeRate.value) :=
      le_mul_of_one_le_right priced.le (by linarith)
    obtain ⟨unit, multiplied, cost⟩ := total.mul (a := candidate.price) (b := factor) (by
      rwa [sum, abs_of_nonneg (priced.le.trans grows)])
    rw [sum] at cost
    have some' : 0 < unit.value := cost ▸ priced.trans_le (le_nearest grows)
    obtain ⟨affordable, divided, -⟩ := total.div (a := v.free (candidate.pair.spent .buy)) some'.ne'
      (by rwa [cost])
    refine ⟨max affordable 0, ?_⟩
    simp only [budget, side, Checked.bind_ok, Checked.pure_ok]
    exact ⟨factor, added, unit, multiplied, affordable, divided, rfl⟩
  | sell =>
    refine ⟨max (v.free (candidate.pair.spent .sell)) 0, ?_⟩
    simp only [budget, side, Checked.bind_ok, Checked.pure_ok]
    exact ⟨_, rfl, rfl⟩

/-! ### Adjusting -/

/-- An order is refused for its price, or it is left with what the budget allows of its amount. -/
theorem adjustCandidate_cases {reply : Except VenueError Candidate}
    (done : v.adjustCandidate candidate allOrNone = .ok reply) :
    (candidate.price.value ≤ 0 ∧ ∃ e, reply = .error e) ∨
      0 < candidate.price.value ∧ ∃ most, v.budget candidate = .ok most ∧
        reply = .ok { candidate with amount := allowed most allOrNone candidate.amount } := by
  rw [adjustCandidate] at done
  split at done
  next free => exact .inl ⟨nonpos_iff_value.1 free, _, (Except.ok.inj done).symm⟩
  next priced =>
    rw [Checked.bind_ok] at done
    obtain ⟨most, computed, answer⟩ := done
    refine .inr ⟨not_nonpos_iff_value.1 priced, most, computed, ?_⟩
    unfold allowed
    split_ifs at answer ⊢ <;> exact (Checked.pure_ok.1 answer).symm

theorem adjustCandidate_eq (priced : 0 < candidate.price.value)
    (computed : v.budget candidate = .ok most) : v.adjustCandidate candidate allOrNone =
      .ok (.ok { candidate with amount := allowed most allOrNone candidate.amount }) := by
  rw [adjustCandidate, if_neg (not_nonpos_iff_value.2 priced), computed, Checked.ok_bind]
  unfold allowed
  split_ifs <;> rfl

/-- The budget changes nothing of an order but its amount. -/
theorem adjusted_eq {adjusted : Candidate}
    (done : v.adjustCandidate candidate allOrNone = .ok (.ok adjusted)) :
    adjusted = { candidate with amount := adjusted.amount } := by
  rcases adjustCandidate_cases done with ⟨-, _, impossible⟩ | ⟨-, most, -, same⟩
  · cases impossible
  · rw [Except.ok.inj same]

theorem adjusted_price_pos {adjusted : Candidate}
    (done : v.adjustCandidate candidate allOrNone = .ok (.ok adjusted)) : 0 < candidate.price.value := by
  rcases adjustCandidate_cases done with ⟨-, _, impossible⟩ | ⟨priced, -⟩
  · cases impossible
  · exact priced

theorem adjustCandidate_kept (priced : 0 < candidate.price.value)
    (computed : v.budget candidate = .ok most) (covered : candidate.amount.value ≤ most.value) :
    v.adjustCandidate candidate allOrNone = .ok (.ok candidate) := by
  rw [adjustCandidate_eq priced computed, allowed_of_le covered]

/-- The budget is worked out unless a result is out of range, and wherever it is, it clamps the order and
would leave the clamped one as it is. -/
theorem adjustCandidate_clamps (total : Arithmetic.Total) (rate : 0 ≤ v.feeRate.value)
    (proper : v.feeRate.value < 1) (priced : 0 < candidate.price.value) :
    (v.BudgetInRange candidate → ∃ reply, v.adjustCandidate candidate allOrNone = .ok reply) ∧
      ∀ reply, v.adjustCandidate candidate allOrNone = .ok reply →
        ∃ most settled, v.budget candidate = .ok most ∧ 0 ≤ most.value ∧ reply = .ok settled ∧
          candidate.Clamped settled most allOrNone ∧
          ∀ again, v.adjustCandidate settled again = .ok (.ok settled) := by
  constructor
  · intro inRange
    obtain ⟨most, computed⟩ := exists_budget total rate proper priced inRange
    exact ⟨_, adjustCandidate_eq priced computed⟩
  · intro reply done
    rcases adjustCandidate_cases done with ⟨free, -⟩ | ⟨-, most, computed, rfl⟩
    · exact absurd priced free.not_gt
    have nonneg := budget_nonneg computed
    refine ⟨most, _, computed, nonneg, rfl, candidate.clamped nonneg allOrNone, fun again => ?_⟩
    -- the budget does not depend on the amount
    exact adjustCandidate_kept priced computed (allowed_le_budget nonneg)

/-- A venue with a fee of a thousandth and 100 of the quote. -/
def hundredVenue : SimulatedVenue :=
  (SimulatedVenue.new "okx" (.of 1 3) ⟨0⟩).setBalance "USDT" (.of 100 0)

def fiveAtThirty : Candidate :=
  ⟨⟨"DOGE", "USDT"⟩, false, .limit, .buy, .of 5 0, .of 30 0⟩

omit [Arithmetic] in
/-- A purchase of 5 at 30 becomes one of 3.33000333. -/
theorem adjustCandidate_clamps_hundred :
    ∃ most settled, @budget .rounding hundredVenue fiveAtThirty = .ok most ∧
      @adjustCandidate .rounding hundredVenue fiveAtThirty false = .ok (.ok settled) ∧
      fiveAtThirty.Clamped settled most false ∧ settled.amount.value = 333000333 / 10 ^ 8 ∧
      ∀ again, @adjustCandidate .rounding hundredVenue settled again = .ok (.ok settled) := by
  have inRange : hundredVenue.BudgetInRange fiveAtThirty := by
    intro _
    constructor <;> decide +kernel
  have works : (@adjustCandidate .rounding hundredVenue fiveAtThirty false).toOption.all
      (fun reply => reply.toOption.all fun settled =>
        decide (settled.amount.value = 333000333 / 10 ^ 8)) = true := by decide +kernel
  obtain ⟨answers, clamps⟩ := @adjustCandidate_clamps .rounding hundredVenue fiveAtThirty false
    Arithmetic.rounding_total (by decide +kernel) (by decide +kernel) (by decide +kernel)
  obtain ⟨reply, done⟩ := answers inRange
  obtain ⟨most, settled, computed, -, rfl, clamped, again⟩ := clamps reply done
  have amount := Checked.toOption_all.1 (Checked.toOption_all.1 works _ done) _ rfl
  exact ⟨most, settled, computed, done, clamped, of_decide_eq_true amount, again⟩

end SimulatedVenue

end MarketMaker
