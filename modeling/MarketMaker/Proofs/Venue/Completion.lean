import MarketMaker.Proofs.Venue.Budget
/-!
Requests that are answered. On books of moderate prices nothing that a venue works out for an order of a
moderate size is out of range, however many levels there are.
-/

namespace MarketMaker

open Decimal

theorem Table.mem_of_get? {κ α : Type} [DecidableEq κ] {key : κ} {value : α} {t : Table κ α}
    (found : get? key t = some value) : (key, value) ∈ t := by
  induction t with
  | nil => cases found
  | cons entry rest ih =>
    obtain ⟨k, v⟩ := entry
    unfold get? at found
    split at found
    next same =>
      obtain rfl := Option.some.inj found
      exact same ▸ List.mem_cons_self
    next => exact List.mem_cons_of_mem _ (ih found)

/-- From a millionth to a million. -/
def Decimal.Moderate (a : Decimal) : Prop :=
  a.AtLeast 6 ∧ a.AtMost (10 ^ 6)

instance (a : Decimal) : Decidable a.Moderate :=
  inferInstanceAs (Decidable (_ ∧ _))

/-- A level of a moderate price that offers no less than a millionth. -/
def Level.Moderate (level : Level) : Prop :=
  level.price.Moderate ∧ level.amount.AtLeast 6

instance (level : Level) : Decidable level.Moderate :=
  inferInstanceAs (Decidable (_ ∧ _))

def OrderBook.Moderate (book : OrderBook) : Prop :=
  ∀ level ∈ book.bids ++ book.asks, level.Moderate

instance (book : OrderBook) : Decidable book.Moderate :=
  inferInstanceAs (Decidable (∀ level ∈ book.bids ++ book.asks, level.Moderate))

/-- What a moderate size may cost for each of it. -/
def Decimal.Quotable (a : Decimal) : Prop :=
  a.AtLeast 18 ∧ a.AtMost (10 ^ 7)

namespace SimulatedVenue

/-- Fees are proper rates, books are moderate, and neither a free balance nor what the fees came to is
beyond `n`. -/
structure Within (n : ℕ) (v : SimulatedVenue) : Prop where
  feeRate : 0 ≤ v.feeRate.value ∧ v.feeRate.value ≤ 1
  books : ∀ ⦃pair book⦄, v.bookOf pair = .ok book → book.Moderate
  free : ∀ asset, (v.free asset).AtMost n
  fees : v.totalFees.AtMost n
  resting : ∀ order ∈ v.resting, order.price.AtMost (10 ^ 9) ∧ order.quantity.AtMost (10 ^ 9)

theorem Within.mono {v : SimulatedVenue} {m n : ℕ} (within : v.Within m) (le : m ≤ n) : v.Within n :=
  { within with
    free := fun asset => (within.free asset).mono le
    fees := within.fees.mono le }

theorem Within.setBalance {v : SimulatedVenue} {n : ℕ} (within : v.Within n) {asset : String}
    {amount : Decimal} (bounded : amount.AtMost n) : (v.setBalance asset amount).Within n :=
  { within with
    free := fun other => by
      rw [free_setBalance]
      split
      · exact bounded
      · exact within.free other }

/-- No free balance is below zero or beyond a billion. -/
def Provided (v : SimulatedVenue) : Prop :=
  ∀ asset, 0 ≤ (v.free asset).value ∧ (v.free asset).AtMost (10 ^ 9)

/-- A venue within everyday bounds. -/
structure Moderate (v : SimulatedVenue) : Prop where
  feeRate : 0 ≤ v.feeRate ∧ v.feeRate ≤ 1
  books : ∀ entry ∈ v.books, entry.2.Moderate
  balances : ∀ entry ∈ v.balances, 0 ≤ entry.2 ∧ entry.2.AtMost (10 ^ 9)
  fees : v.totalFees.AtMost (10 ^ 20)
  resting : ∀ order ∈ v.resting, order.price.AtMost (10 ^ 9) ∧ order.quantity.AtMost (10 ^ 9)
  few : v.resting.length ≤ 10 ^ 6

theorem Moderate.provided {v : SimulatedVenue} (moderate : v.Moderate) : v.Provided := by
  intro asset
  unfold free
  cases found : Table.get? asset v.balances with
  | none => exact ⟨value_zero.ge, zero_atMost _⟩
  | some amount =>
    obtain ⟨nonneg, most⟩ := moderate.balances _ (Table.mem_of_get? found)
    exact ⟨nonneg_iff_value.1 nonneg, most⟩

theorem Moderate.within {v : SimulatedVenue} (moderate : v.Moderate) : v.Within (10 ^ 20) where
  feeRate := by
    obtain ⟨nonneg, proper⟩ := moderate.feeRate
    exact ⟨nonneg_iff_value.1 nonneg, value_one ▸ le_iff_value.1 proper⟩
  books pair book found := by
    unfold bookOf at found
    split at found
    next listed =>
      obtain rfl := Except.ok.inj found
      exact moderate.books _ (Table.mem_of_get? listed)
    next => cases found
  free asset := (moderate.provided asset).2.mono (by decide)
  fees := moderate.fees
  resting := moderate.resting

end SimulatedVenue

/-! ### Executions -/

/-- What may execute of an amount: rounding adds no more than a factor of ten, and the average price is
that of a level at most. -/
structure Execution.Moderate (amount : Decimal) (x : Execution) : Prop where
  filled_nonneg : 0 ≤ x.filled.value
  filled_le : x.filled.value ≤ 10 * amount.value
  notional_nonneg : 0 ≤ x.notional.value
  notional_le : x.notional.value ≤ 10 ^ 6 * x.filled.value
  paid : amount.AtLeast 6 → x.filled.value = 0 ∨ x.notional.AtLeast 12

namespace Execution.Moderate

variable {amount rest filled cost notional : Decimal} {x : Execution} {level : Level}

theorem none (nonneg : 0 ≤ amount.value) : Execution.none.Moderate amount where
  filled_nonneg := value_zero.ge
  filled_le := by
    rw [show Execution.none.filled.value = 0 from value_zero]
    positivity
  notional_nonneg := value_zero.ge
  notional_le := by
    rw [show Execution.none.filled.value = 0 from value_zero,
      show Execution.none.notional.value = 0 from value_zero, mul_zero]
  paid _ := .inl value_zero

/-- What a level gives is no more than the amount that is asked for. -/
theorem take_between (offered : level.Moderate) (filled_nonneg : 0 ≤ x.filled.value)
    (less : x.filled.value < amount.value)
    (subtracted : rest.value = nearest (amount.value - x.filled.value)) :
    0 ≤ (min level.amount rest).value ∧ (min level.amount rest).value ≤ amount.value := by
  rw [value_min, subtracted]
  constructor
  · exact le_min offered.2.pos.le (nearest_nonneg (sub_nonneg.2 less.le))
  · exact (min_le_right _ _).trans (nearest_le (by linarith))

/-- What is taken from a level costs a million for each of it at most. -/
theorem cost_between {take price cost : Decimal} (moderate : price.Moderate) (nonneg : 0 ≤ take.value)
    (most : take.value ≤ 10 ^ 7) (costs : cost.value = nearest (take.value * price.value)) :
    0 ≤ cost.value ∧ cost.value ≤ 10 ^ 6 * take.value := by
  have unit := moderate.1.pos
  have dearest := moderate.2.le
  push_cast at dearest
  have range : (10 : ℚ) ^ 13 ≤ greatest := by norm_num [greatest]
  rw [costs]
  refine ⟨nearest_nonneg (by positivity), ?_⟩
  rw [← nearest_shift_value nonneg (by decide) (by linarith)]
  refine nearest_mono ?_
  rw [mul_comm]
  gcongr
  linarith

/-- The first level gives a millionth of a moderate price at least. -/
theorem cost_first (offered : level.Moderate) (large : amount.AtLeast 6)
    (costs : cost.value = nearest ((min level.amount amount).value * level.price.value)) :
    cost.AtLeast 12 := by
  obtain ⟨⟨cheapest, -⟩, deep⟩ := offered
  have some' := deep.min large
  rw [AtLeast, costs]
  refine place_le_nearest (by decide) ?_
  calc (1 : ℚ) / 10 ^ 12 = 1 / 10 ^ 6 * (1 / 10 ^ 6) := by norm_num
    _ ≤ (min level.amount amount).value * level.price.value :=
      mul_le_mul some' cheapest (by positivity) some'.pos.le

/-- Another level keeps to the bounds. -/
theorem step (start : x.Moderate amount) (small : amount.AtMost (10 ^ 7)) (offered : level.Moderate)
    (less : x.filled.value < amount.value)
    (subtracted : rest.value = nearest (amount.value - x.filled.value))
    (added : filled.value = nearest (x.filled.value + (min level.amount rest).value))
    (costs : cost.value = nearest ((min level.amount rest).value * level.price.value))
    (summed : notional.value = nearest (x.notional.value + cost.value)) :
    Execution.Moderate amount ⟨filled, notional⟩ := by
  obtain ⟨nonneg, most⟩ := take_between offered start.filled_nonneg less subtracted
  have positive := start.filled_nonneg.trans_lt less
  have room := start.notional_nonneg
  have bound := small.le
  push_cast at bound
  have range : (10 : ℚ) ^ 15 ≤ greatest := by norm_num [greatest]
  obtain ⟨cost_nonneg, cost_le⟩ := cost_between offered.1 nonneg (by linarith) costs
  refine ⟨?_, ?_, ?_, ?_, fun large => .inr ?_⟩
  · rw [added]
    exact nearest_nonneg (add_nonneg start.filled_nonneg nonneg)
  · have shift := nearest_shift_value positive.le (j := 1) (by decide) (by linarith)
    rw [pow_one] at shift
    rw [added, ← shift]
    exact nearest_mono (by linarith)
  · rw [summed]
    exact nearest_nonneg (add_nonneg room cost_nonneg)
  · rw [summed, added,
      ← nearest_shift_sum (add_nonneg start.filled_nonneg nonneg) (by decide) (by linarith)]
    exact nearest_mono (by linarith [start.notional_le])
  · rw [AtLeast, summed]
    refine place_le_nearest (by decide) ?_
    rcases start.paid large with zero | enough
    · have whole : (min level.amount rest).value = (min level.amount amount).value := by
        rw [value_min, value_min, subtracted, zero, sub_zero, nearest_value]
      exact (cost_first offered large (whole ▸ costs)).trans (le_add_of_nonneg_left room)
    · exact enough.trans (le_add_of_nonneg_right cost_nonneg)

theorem filled_atMost (bounded : x.Moderate amount) {n : ℕ} (small : amount.AtMost n) :
    x.filled.AtMost (10 * n) := by
  refine atMost_of_between bounded.filled_nonneg (bounded.filled_le.trans ?_)
  push_cast
  linarith [small.le]

theorem notional_atMost (bounded : x.Moderate amount) {n : ℕ} (small : amount.AtMost n) :
    x.notional.AtMost (10 ^ 7 * n) := by
  refine atMost_of_between bounded.notional_nonneg (bounded.notional_le.trans ?_)
  push_cast
  linarith [small.le, bounded.filled_le]

end Execution.Moderate

variable [Arithmetic]

theorem Level.gives_sweep (total : Arithmetic.Total) {side : Side} {limit : Option Decimal}
    {amount : Decimal} {levels : List Level} (moderate : ∀ level ∈ levels, level.Moderate)
    (small : amount.AtMost (10 ^ 7)) {x : Execution} (start : x.Moderate amount) :
    Checked.Gives (Level.sweep side limit amount x levels) (Execution.Moderate amount) := by
  induction levels generalizing x with
  | nil => exact Checked.gives_pure start
  | cons level levels ih =>
    obtain ⟨offered, others⟩ := List.forall_mem_cons.1 moderate
    unfold Level.sweep
    split
    next => exact Checked.gives_pure start
    next more =>
      have less := not_le_iff_value.1 (not_or.1 more).1
      have filled : x.filled.AtMost (10 ^ 7) :=
        atMost_of_between start.filled_nonneg (less.le.trans small.le)
      have notional := start.notional_atMost small
      refine (total.gives_sub small filled (by decide)).bind fun rest subtracted => ?_
      obtain ⟨subtracted, -⟩ := subtracted
      have between := Execution.Moderate.take_between offered start.filled_nonneg less subtracted
      have taken : (min level.amount rest).AtMost (10 ^ 7) :=
        atMost_of_between between.1 (between.2.trans small.le)
      refine (total.gives_add filled taken (by decide)).bind fun filled' added => ?_
      refine (total.gives_mul taken offered.1.2 (by decide)).bind fun cost costs => ?_
      refine (total.gives_add notional costs.2 (by decide)).bind fun notional' summed => ?_
      exact ih others (start.step small offered less subtracted added.1 costs.1 summed.1)

theorem OrderBook.gives_execute (total : Arithmetic.Total) {book : OrderBook}
    (moderate : book.Moderate) {side : Side} {limit : Option Decimal} {amount : Decimal}
    (nonneg : 0 ≤ amount.value) (small : amount.AtMost (10 ^ 7)) :
    Checked.Gives (book.execute side limit amount) (Execution.Moderate amount) :=
  Level.gives_sweep total (fun _ member => moderate _ (mem_of_facing member)) small (.none nonneg)

namespace SimulatedVenue

variable {v : SimulatedVenue} {n : ℕ} {pair : Pair} {side : Side} {amount price : Decimal}

/-! ### Prices and budgets -/

theorem gives_executablePrice (total : Arithmetic.Total) (within : v.Within n)
    (moderate : amount.Moderate) :
    Checked.Gives (v.executablePrice pair side amount) fun reply =>
      ∀ price, reply = .ok price → price.Quotable := by
  obtain ⟨large, small⟩ := moderate
  have positive := large.pos
  unfold executablePrice
  split
  next => exact Checked.gives_pure fun _ impossible => nomatch impossible
  next book found =>
    rw [if_neg (not_le_iff_value.2 (by rwa [value_zero]))]
    refine (OrderBook.gives_execute total (within.books found) positive.le
      (small.mono (by decide))).bind fun x bounded => ?_
    split
    next => exact Checked.gives_pure fun _ impossible => nomatch impossible
    next covered =>
      have paid := (bounded.paid large).resolve_left
        (positive.trans_le (not_lt_iff_value.1 covered)).ne'
      refine (total.gives_div (bounded.notional_atMost small) large (by decide)).bind
        fun price divided => Checked.gives_pure ?_
      rintro _ ⟨⟩
      have upper := small.le
      push_cast at upper
      constructor
      · rw [AtLeast, divided.1]
        refine place_le_nearest (by decide) ?_
        rw [le_div_iff₀ positive]
        calc (1 : ℚ) / 10 ^ 18 * amount.value ≤ 1 / 10 ^ 18 * 10 ^ 6 := by gcongr; linarith
          _ = 1 / 10 ^ 12 := by norm_num
          _ ≤ x.notional.value := paid
      · rw [AtMost, divided.1]
        refine abs_nearest_le (by decide) ?_
        rw [abs_of_nonneg (div_nonneg bounded.notional_nonneg positive.le), div_le_iff₀ positive]
        push_cast
        linarith [bounded.notional_le, bounded.filled_le]

theorem gives_budget (total : Arithmetic.Total) (within : v.Within n) {candidate : Candidate}
    (price : candidate.price.AtMost (10 ^ 9))
    (payable : candidate.side = .buy →
      candidate.price.AtLeast 19 ∧ (v.free (candidate.pair.spent .buy)).AtMost (10 ^ 9)) :
    Checked.Gives (v.budget candidate) fun budget => 0 ≤ budget.value := by
  suffices computes : Checked.Gives (v.budget candidate) fun _ => True from
    computes.of_ok fun _ computed _ => budget_nonneg computed
  unfold budget
  split
  next buys =>
    obtain ⟨least, funds⟩ := payable buys
    obtain ⟨nonneg, proper⟩ := within.feeRate
    have fee : v.feeRate.AtMost 1 := atMost_of_between nonneg (by simpa using proper)
    refine (total.gives_add one_atMost fee (by decide)).bind fun factor added => ?_
    have grows : 1 ≤ factor.value := by
      rw [added.1, ← value_one]
      exact le_nearest (by linarith)
    refine (total.gives_mul price added.2 (by decide)).bind fun cost costs => ?_
    have dear : cost.AtLeast 19 := by
      rw [AtLeast, costs.1]
      refine place_le_nearest (by decide) (least.trans ?_)
      exact le_mul_of_one_le_right least.pos.le grows
    exact (total.gives_div funds dear (by decide)).bind fun affordable _ => Checked.gives_pure trivial
  next => exact Checked.gives_pure trivial

/-- The budget leaves an order no greater than it was. -/
theorem gives_adjustCandidate (total : Arithmetic.Total) (within : v.Within n) {candidate : Candidate}
    {m : ℕ} (amount : candidate.amount.AtMost m) (price : candidate.price.AtMost (10 ^ 9))
    (payable : candidate.side = .buy →
      (candidate.price.value ≤ 0 ∨ candidate.price.AtLeast 19) ∧
        (v.free (candidate.pair.spent .buy)).AtMost (10 ^ 9)) :
    Checked.Gives (v.adjustCandidate candidate false) fun reply =>
      ∀ adjusted, reply = .ok adjusted → adjusted.amount.AtMost m := by
  by_cases priced : 0 < candidate.price.value
  · obtain ⟨most, computed, nonneg⟩ := gives_budget total within price fun buys =>
      ⟨(payable buys).1.resolve_left priced.not_ge, (payable buys).2⟩
    refine ⟨_, adjustCandidate_eq priced computed, ?_⟩
    rintro _ ⟨⟩
    rcases le_or_gt candidate.amount.value most.value with covered | short
    · rwa [allowed_of_le covered]
    · exact atMost_of_between (allowed_nonneg nonneg (nonneg.trans short.le))
        ((allowed_le nonneg).trans amount.le)
  · unfold adjustCandidate
    rw [if_pos (nonpos_iff_value.2 (not_lt.1 priced))]
    exact Checked.gives_pure fun _ impossible => nomatch impossible

/-! ### Orders -/

theorem gives_credit (total : Arithmetic.Total) (within : v.Within n) {m : ℕ} {asset : String}
    (bounded : amount.AtMost m) (small : n + m < twoTo 96) :
    Checked.Gives (v.credit asset amount) (Within (n + m)) :=
  (total.gives_add (within.free asset) bounded small).bind fun _ sum =>
    Checked.gives_pure ((within.mono (Nat.le_add_right n m)).setBalance sum.2)

theorem gives_debit (total : Arithmetic.Total) (within : v.Within n) {m : ℕ} {asset : String}
    (bounded : amount.AtMost m) (small : n + m < twoTo 96) :
    Checked.Gives (v.debit asset amount) (Within (n + m)) :=
  (total.gives_sub (within.free asset) bounded small).bind fun _ rest =>
    Checked.gives_pure ((within.mono (Nat.le_add_right n m)).setBalance rest.2)

omit [Arithmetic] in
/-- The terms of an order up to `10 ^ 7` at a price up to `10 ^ 9`. -/
structure Terms.Moderate (amount : Decimal) (t : Terms) : Prop where
  execution : t.execution.Moderate amount
  remaining : t.remaining.AtMost (10 ^ 9)
  fee : t.fee.AtMost (10 ^ 14)
  cost : t.cost.AtMost (10 ^ 19)

theorem gives_terms (total : Arithmetic.Total) (within : v.Within n) {book : OrderBook}
    (moderate : book.Moderate) (positive : 0 < amount.value) (small : amount.AtMost (10 ^ 7))
    (limit : price.AtMost (10 ^ 9)) :
    Checked.Gives (v.terms book side amount .limit price) (Terms.Moderate amount) := by
  obtain ⟨nonneg, proper⟩ := within.feeRate
  have rate : v.feeRate.AtMost 1 := atMost_of_between nonneg (by simpa using proper)
  unfold terms
  refine (OrderBook.gives_execute total moderate positive.le small).bind fun x executed => ?_
  have filled := executed.filled_atMost small
  have notional := executed.notional_atMost small
  refine (total.gives_sub small filled (by decide)).bind fun remaining left => ?_
  have remains := left.2.mono (n := 10 ^ 9) (by decide)
  refine (total.gives_mul notional rate (by decide)).bind fun fee charged => ?_
  have rest (cost : Decimal) (costs : cost.AtMost (10 ^ 19)) :
      Checked.Gives (pure ⟨x, remaining, fee, cost⟩ : Checked Terms) (Terms.Moderate amount) :=
    Checked.gives_pure ⟨executed, remains, charged.2.mono (by decide), costs⟩
  cases side with
  | buy =>
    refine (total.gives_add notional charged.2 (by decide)).bind fun paid pays => ?_
    refine (total.gives_mul remains limit (by decide)).bind fun reserved reserves => ?_
    exact (total.gives_add pays.2 reserves.2 (by decide)).bind
      fun cost sum => rest cost (sum.2.mono (by decide))
  | sell =>
    exact (total.gives_add filled remains (by decide)).bind
      fun cost sum => rest cost (sum.2.mono (by decide))

theorem gives_settle (total : Arithmetic.Total) (within : v.Within n) (room : n ≤ 10 ^ 21) {t : Terms}
    (small : amount.AtMost (10 ^ 7)) (moderate : t.Moderate amount) :
    Checked.Gives (v.settle pair side t) (Within (n + 10 ^ 20)) := by
  have bound : 10 ^ 21 + 10 ^ 20 < twoTo 96 := by decide
  unfold settle
  refine (gives_debit total within moderate.cost (by omega)).bind fun debited kept => ?_
  have rest (proceeds : Decimal) (earned : proceeds.AtMost (10 ^ 15)) :
      Checked.Gives (debited.credit (pair.received side) proceeds >>= fun v =>
        v.totalFees.add t.fee >>= fun fees => pure { v with totalFees := fees })
        (Within (n + 10 ^ 20)) := by
    refine (gives_credit total kept earned (by omega)).bind fun credited kept' => ?_
    refine (total.gives_add kept'.fees moderate.fee (by omega)).bind fun fees sum => ?_
    exact Checked.gives_pure { kept'.mono (n := n + 10 ^ 20) (by omega) with
      fees := sum.2.mono (by omega) }
  cases side with
  | buy =>
    exact (Checked.gives_pure rfl).bind fun filled same =>
      rest filled (same ▸ (moderate.execution.filled_atMost small).mono (by decide))
  | sell =>
    exact (total.gives_sub (moderate.execution.notional_atMost small) moderate.fee (by decide)).bind
      fun earned difference => rest earned (difference.2.mono (by decide))

/-- An accepted order adds itself at most to the orders that rest. -/
theorem gives_accept (total : Arithmetic.Total) (within : v.Within n) (room : n ≤ 10 ^ 21) {t : Terms}
    (small : amount.AtMost (10 ^ 7)) (limit : price.AtMost (10 ^ 9)) (moderate : t.Moderate amount) :
    Checked.Gives (v.accept pair side amount .limit price t) fun out =>
      out.2.Within (n + 10 ^ 20) ∧ out.2.resting.length ≤ v.resting.length + 1 := by
  have settles : Checked.Gives (v.settle pair side t) (Within (n + 10 ^ 20)) :=
    gives_settle total within room small moderate
  have gives : Checked.Gives (v.accept pair side amount .limit price t) fun _ => True := by
    unfold accept
    refine settles.bind fun s _ => ?_
    dsimp only
    split
    next executed =>
      rw [pos_iff_value] at executed
      have average : |t.execution.notional.value / t.execution.filled.value| ≤ (10 ^ 6 : ℕ) := by
        rw [abs_of_nonneg (div_nonneg moderate.execution.notional_nonneg executed.le),
          div_le_iff₀ executed]
        push_cast
        exact moderate.execution.notional_le
      have divides : Checked.Gives (t.execution.notional.div t.execution.filled) fun _ => True :=
        (total.div executed.ne' (average.trans (natCast_le_greatest (by decide)))).imp
          fun price divided => ⟨divided.1, trivial⟩
      exact divides.bind fun _ _ => Checked.gives_pure trivial
    next => exact Checked.gives_pure trivial
  refine gives.of_ok ?_
  rintro ⟨id, w⟩ done -
  obtain ⟨s, fills, trades, settled, -, -, rfl⟩ := accept_ok done
  obtain ⟨s', settled', kept⟩ := settles
  obtain rfl := Except.ok.inj (settled.symm.trans settled')
  have one : (restOf ⟨v.nextId, pair, side, price, t.remaining, v.clock⟩).length ≤ 1 := by
    unfold restOf
    split <;> simp
  refine ⟨{ within with free := kept.free, fees := kept.fees, resting := fun order member => ?_ }, ?_⟩
  · rcases List.mem_append.1 member with old | new
    · exact within.resting order old
    · unfold restOf at new
      split at new
      · rw [List.mem_singleton.1 new]
        exact ⟨limit, moderate.remaining⟩
      · exact absurd new List.not_mem_nil
  · simpa using one

/-- Whatever is placed adds one at most to the orders that rest. -/
theorem gives_placeOrder (total : Arithmetic.Total) (within : v.Within n) (room : n ≤ 10 ^ 21)
    (small : amount.AtMost (10 ^ 7)) (limit : price.AtMost (10 ^ 9)) :
    Checked.Gives (v.placeOrder pair side amount .limit price) fun out =>
      out.2.Within (n + 10 ^ 20) ∧ out.2.resting.length ≤ v.resting.length + 1 := by
  have same : v.Within (n + 10 ^ 20) ∧ v.resting.length ≤ v.resting.length + 1 :=
    ⟨within.mono (by omega), by omega⟩
  unfold placeOrder
  split
  next => exact Checked.gives_pure same
  next positive =>
    split
    next => exact Checked.gives_pure ⟨{ same.1 with }, same.2⟩
    next =>
      split
      next => exact Checked.gives_pure same
      next book found =>
        rw [not_nonpos_iff_value] at positive
        refine (gives_terms total within (within.books found) positive small limit).bind
          fun t moderate => ?_
        split
        next => exact Checked.gives_pure same
        next =>
          exact (gives_accept total within room small limit moderate).bind
            fun out kept => Checked.gives_pure kept

/-! ### Cancelling -/

/-- The free balances and all that the resting orders may give back come to `c` at most. -/
def Carries (c : ℕ) (v : SimulatedVenue) : Prop :=
  ∃ n, v.Within n ∧ n + 10 ^ 18 * v.resting.length ≤ c

theorem gives_refund (total : Arithmetic.Total) (within : v.Within n) (room : n + 10 ^ 18 < twoTo 96)
    {order : RestingOrder} (price : order.price.AtMost (10 ^ 9))
    (quantity : order.quantity.AtMost (10 ^ 9)) :
    Checked.Gives (v.refund order) fun w => w.Within (n + 10 ^ 18) ∧ w.resting = v.resting := by
  have rest (held : Decimal) (kept : held.AtMost (10 ^ 18)) :
      Checked.Gives (v.credit (order.pair.spent order.side) held) (Within (n + 10 ^ 18)) :=
    gives_credit total within kept room
  have gives : Checked.Gives (v.refund order) (Within (n + 10 ^ 18)) := by
    unfold refund
    split
    next =>
      exact (total.gives_mul quantity price (by decide)).bind
        fun held product => rest held (product.2.mono (by decide))
    next => exact rest _ (quantity.mono (by decide))
  refine gives.of_ok fun w done kept => ⟨kept, ?_⟩
  obtain ⟨held, sum, -, -, -, rfl⟩ := refund_ok done
  rfl

/-- An order that goes takes what it may give back with it. -/
theorem gives_cancelOrder (total : Arithmetic.Total) {c : ℕ} (carries : v.Carries c)
    (room : c < twoTo 96) {id : OrderId} :
    Checked.Gives (v.cancelOrder pair id) fun out => out.2.Carries c := by
  obtain ⟨n, within, bound⟩ := carries
  unfold cancelOrder
  split
  next => exact Checked.gives_pure ⟨n, within, bound⟩
  next =>
    split
    next => exact Checked.gives_pure ⟨n, within, bound⟩
    next order found =>
      split
      next =>
        have member := List.mem_of_find?_eq_some found
        obtain ⟨price, quantity⟩ := within.resting order member
        have fewer : (v.remove id).resting.length < v.resting.length := by
          refine List.length_filter_lt_length_iff_exists.2 ⟨order, member, ?_⟩
          simpa using List.find?_some found
        have removed : (v.remove id).Within n :=
          { within with resting := fun other kept => within.resting other (List.mem_filter.1 kept).1 }
        refine (gives_refund total removed (by omega) price quantity).bind fun w kept => ?_
        exact Checked.gives_pure ⟨_, kept.1, by rw [kept.2]; omega⟩
      next => exact Checked.gives_pure ⟨n, within, bound⟩

end SimulatedVenue

end MarketMaker
