import MarketMaker.Proofs.Venue.Funds
/-!
What a venue refuses leaves no trace. A request that ends in an error has reserved nothing, entered
nothing and reported nothing; of an injected refusal there is one less to come.
-/

namespace MarketMaker

namespace SimulatedVenue

open Decimal

namespace Operation

/-- How many injected refusals the operation uses up while there are any: one, if it is an order of
a positive amount. -/
def drawn : Operation → ℕ
  | .place _ _ amount _ _ => if 0 < amount then 1 else 0
  | _ => 0

end Operation

section Answers

variable [Arithmetic]

/-- The error that an operation ends in, if it is refused, and the venue after it. There is no error
for a new book or new settings. -/
def answer (v : SimulatedVenue) : Operation → Checked (Option VenueError × SimulatedVenue)
  | .place pair side amount type price => do
    let (reply, w) ← v.placeOrder pair side amount type price
    match reply with
    | .ok _ => return (none, w)
    | .error e => return (some e, w)
  | .cancel pair id => do
    let (reply, w) ← v.cancelOrder pair id
    match reply with
    | .ok _ => return (none, w)
    | .error e => return (some e, w)
  | .fill id amount => do
    let (fill, w) ← v.fillResting id (some amount)
    match fill with
    | some _ => return (none, w)
    | none => return (some (.orderNotFound id), w)
  | .setBook book => do
    let (_, w) ← v.setBook book
    return (none, w)
  | .settings clock rejections rejectsCancels =>
    return (none, { v with clock, rejections, rejectsCancels })

/-- The answers to operations that follow one another. -/
def answers : SimulatedVenue → List Operation → Checked (List (Option VenueError) × SimulatedVenue)
  | v, [] => .ok ([], v)
  | v, operation :: operations => do
    let (first, w) ← v.answer operation
    let (later, u) ← w.answers operations
    return (first :: later, u)

end Answers

variable [Arithmetic]
variable {v w : SimulatedVenue} {operation : Operation} {pair : Pair} {side : Side}
  {amount price : Decimal} {type : OrderType} {id : OrderId} {e : VenueError}

/-! ### One operation -/

/-- Only orders, cancellations and fills are refused. -/
theorem answer_error (refused : v.answer operation = .ok (some e, w)) :
    (∃ pair side amount type price, operation = .place pair side amount type price ∧
      v.placeOrder pair side amount type price = .ok (.error e, w)) ∨
    (∃ pair id, operation = .cancel pair id ∧ v.cancelOrder pair id = .ok (.error e, w)) ∨
    ∃ id amount, operation = .fill id amount ∧ e = .orderNotFound id ∧
      v.fillResting id (some amount) = .ok (none, w) := by
  cases operation with
  | place pair side amount type price =>
    simp only [answer, Checked.bind_ok, Prod.exists] at refused
    obtain ⟨reply, u, placed, refused⟩ := refused
    cases reply <;> cases refused
    exact .inl ⟨pair, side, amount, type, price, rfl, placed⟩
  | cancel pair id =>
    simp only [answer, Checked.bind_ok, Prod.exists] at refused
    obtain ⟨reply, u, cancelled, refused⟩ := refused
    cases reply <;> cases refused
    exact .inr (.inl ⟨pair, id, rfl, cancelled⟩)
  | fill id amount =>
    simp only [answer, Checked.bind_ok, Prod.exists] at refused
    obtain ⟨fill, u, filled, refused⟩ := refused
    cases fill <;> cases refused
    exact .inr (.inr ⟨id, amount, rfl, rfl, filled⟩)
  | setBook book =>
    simp only [answer, Checked.bind_ok, Checked.pure_ok, Prod.exists, Prod.mk.injEq] at refused
    obtain ⟨_, _, -, impossible, -⟩ := refused
    cases impossible
  | settings clock rejections rejectsCancels => cases refused

/-- A refused operation exchanges nothing. -/
theorem perform_of_refused (refused : v.answer operation = .ok (some e, w)) :
    v.perform operation = .ok ([], w) := by
  rcases answer_error refused with ⟨_, _, _, _, _, rfl, placed⟩ | ⟨_, _, rfl, cancelled⟩ |
    ⟨_, _, rfl, -, filled⟩ <;> simp only [perform, Checked.bind_ok, Prod.exists]
  · exact ⟨_, _, placed, rfl⟩
  · exact ⟨_, _, cancelled, rfl⟩
  · exact ⟨_, _, filled, rfl⟩

/-- A refused operation is an order of a positive amount that meets an injected refusal, or the venue
is as it was. -/
theorem answer_refused (refused : v.answer operation = .ok (some e, w)) :
    (operation.drawn = 1 ∧ 0 < v.rejections ∧ e = .rejected .injected ∧
      w = { v with rejections := v.rejections - 1 }) ∨
    ((operation.drawn = 0 ∨ v.rejections = 0) ∧ e ≠ .rejected .injected ∧ w = v) := by
  rcases answer_error refused with ⟨_, _, amount, _, _, rfl, placed⟩ | ⟨_, _, rfl, cancelled⟩ |
    ⟨_, _, rfl, rfl, filled⟩
  · rcases placeOrder_error placed with ⟨positive, injected, why, left⟩ | ⟨other, why, left⟩
    · exact .inl ⟨if_pos (pos_iff_value.2 positive), injected, why, left⟩
    · refine .inr ⟨other.imp_left fun nothing => if_neg ?_, why, left⟩
      exact fun positive => not_lt.2 nothing (pos_iff_value.1 positive)
  · exact .inr ⟨.inl rfl, cancelOrder_error cancelled, cancelOrder_refused cancelled⟩
  · exact .inr ⟨.inl rfl, by simp, fillResting_none filled⟩

theorem rejections_of_refused (refused : v.answer operation = .ok (some e, w)) :
    w = { v with rejections := v.rejections - operation.drawn } := by
  rcases answer_refused refused with ⟨one, -, -, rfl⟩ | ⟨none' | spent, -, rfl⟩
  · rw [one]
  · rw [none', Nat.sub_zero]
  · simp only [spent, Nat.zero_sub]
    rw [← spent]

/-- An error leaves the whole venue as it was: balances, resting orders, log, tape, fees, the count of
orders with the next id, and the fills that wait to be collected. An injected refusal is one less to
come; it is met by orders of a positive amount only. -/
theorem refused_leaves_no_trace (refused : v.answer operation = .ok (some e, w)) :
    (e ≠ .rejected .injected → w = v) ∧
    (e = .rejected .injected → 0 < v.rejections ∧ w = { v with rejections := v.rejections - 1 } ∧
      ∃ pair side amount type price,
        operation = .place pair side amount type price ∧ 0 < amount.value) ∧
    v.perform operation = .ok ([], w) := by
  refine ⟨fun other => ?_, fun injected => ?_, perform_of_refused refused⟩
  · rcases answer_refused refused with ⟨-, -, why, -⟩ | ⟨-, -, same⟩
    · exact absurd why other
    · exact same
  · rcases answer_refused refused with ⟨one, more, -, left⟩ | ⟨-, why, -⟩
    · refine ⟨more, left, ?_⟩
      cases operation with
      | place pair side amount type price =>
        refine ⟨pair, side, amount, type, price, rfl, ?_⟩
        by_contra nothing
        simp [Operation.drawn, pos_iff_value, nothing] at one
      | _ => cases one
    · exact absurd injected why

omit [Arithmetic] in
/-- The next order of a venue that has traded is refused. -/
theorem refused_leaves_no_trace_injected : ∃ exchanges v e w,
    let order : Operation := .place ⟨"DOGE", "USDT"⟩ .sell 1 .limit (.of 102 0)
    @run .strict (funded "okx" (.of 1 3) ⟨0⟩ trialDeposits)
      (trialOperations ++ [.settings ⟨1⟩ 2 false]) = .ok (exchanges, v) ∧
    @answer .strict v order = .ok (some e, w) ∧ e = .rejected .injected ∧
    (v.resting.length, v.tape.length, v.rejections) = (1, 3, 2) ∧
    (e ≠ .rejected .injected → w = v) ∧
    (e = .rejected .injected → 0 < v.rejections ∧ w = { v with rejections := v.rejections - 1 } ∧
      ∃ pair side amount type price,
        order = .place pair side amount type price ∧ 0 < amount.value) ∧
    @perform .strict v order = .ok ([], w) := by
  have works : (@run .strict (funded "okx" (.of 1 3) ⟨0⟩ trialDeposits)
      (trialOperations ++ [.settings ⟨1⟩ 2 false])).toOption.any (fun ran =>
        (@answer .strict ran.2 (.place ⟨"DOGE", "USDT"⟩ .sell 1 .limit (.of 102 0))).toOption.any
          fun (reply, _) => decide (reply = some (.rejected .injected) ∧
            (ran.2.resting.length, ran.2.tape.length, ran.2.rejections) = (1, 3, 2))) = true := by
    decide +kernel
  obtain ⟨⟨exchanges, v⟩, ran, works⟩ := Checked.toOption_any works
  obtain ⟨⟨reply, w⟩, done, works⟩ := Checked.toOption_any works
  obtain ⟨injected, shape⟩ := of_decide_eq_true works
  rw [injected] at done
  exact ⟨exchanges, v, _, w, ran, done, rfl, shape, @refused_leaves_no_trace .strict _ _ _ _ done⟩

/-! ### A run of operations -/

/-- While everything is refused, nothing is exchanged and only the injected refusals run out. -/
theorem run_refused {operations : List Operation} {replies : List (Option VenueError)}
    (refused : none ∉ replies) (done : v.answers operations = .ok (replies, w)) :
    v.run operations = .ok ([], w) ∧
      w = { v with rejections := v.rejections - (operations.map Operation.drawn).sum } := by
  induction operations generalizing v replies with
  | nil =>
    cases done
    exact ⟨rfl, rfl⟩
  | cons operation operations ih =>
    simp only [answers, Checked.bind_ok, Checked.pure_ok, Prod.exists, Prod.mk.injEq] at done
    obtain ⟨reply, u, first, later, _, done, rfl, rfl⟩ := done
    simp only [List.mem_cons, not_or] at refused
    cases reply with
    | none => exact absurd rfl refused.1
    | some e =>
      obtain ⟨ran, left⟩ := ih refused.2 done
      refine ⟨?_, ?_⟩
      · simp only [run, Checked.bind_ok, Checked.pure_ok, Prod.exists]
        exact ⟨[], u, perform_of_refused first, [], _, ran, rfl⟩
      · rw [left, rejections_of_refused first, List.map_cons, List.sum_cons, Nat.sub_sub]

end SimulatedVenue

end MarketMaker
