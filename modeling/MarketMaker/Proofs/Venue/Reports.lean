import MarketMaker.Proofs.Venue.Funds
import MarketMaker.Proofs.Venue.Limits
/-!
Fills tell of every exchange. What executes of an order at once is reported at its average price, which
is within its limit, and what is filled later at the limit itself; so the holdings of a venue change by
what its fills say, fees included, where no result is rounded.
-/

namespace MarketMaker

open Decimal

namespace Exchange

variable {x : Exchange} {rate : ℚ}

/-- What the exchange and its fee do to the holdings of the quote. -/
def cash (rate : ℚ) (x : Exchange) : ℚ :=
  -x.side.signed x.notional - x.fee rate

theorem flow_quote (apart : x.pair.base ≠ x.pair.quote) : x.flow rate x.pair.quote = x.cash rate := by
  unfold flow cash
  cases x.side <;> simp [apart, Side.signed]
  ring

end Exchange

/-! ### Averages -/

variable [Arithmetic]

/-- What executes nothing costs nothing. -/
theorem Level.sweep_unfilled {side : Side} {limit : Option Decimal} {amount : Decimal}
    {x y : Execution} {levels : List Level} (exact : Arithmetic.Exact)
    (fair : ∀ level ∈ levels, 0 ≤ level.amount.value)
    (done : sweep side limit amount x levels = .ok y) (unfilled : y.filled.value = x.filled.value) :
    y.notional.value = x.notional.value := by
  induction levels generalizing x with
  | nil => rw [← Except.ok.inj done]
  | cons level levels ih =>
    obtain ⟨offers, others⟩ := List.forall_mem_cons.1 fair
    rcases sweep_cons done with
      ⟨-, rfl⟩ | ⟨rest, paid, filled, notional, less, -, subtracted, added, costs, total, later⟩
    · rfl
    · have taken := taken_nonneg exact.sums.signed offers less subtracted
      have took := exact.sums.add added
      have most : filled.value ≤ y.filled.value :=
        le_sweep (x := ⟨filled, notional⟩) exact.rounds others later
      have nothing : (min level.amount rest).value = 0 := by linarith
      have spent := exact.sums.add total
      rw [exact.products costs, nothing, zero_mul, add_zero] at spent
      rw [nothing, add_zero] at took
      exact (ih (x := ⟨filled, notional⟩) others later (unfilled.trans took.symm)).trans spent

theorem OrderBook.execute_unfilled {book : OrderBook} {side : Side} {limit : Option Decimal}
    {amount : Decimal} {x : Execution} (exact : Arithmetic.Exact) (fair : book.Fair)
    (done : book.execute side limit amount = .ok x) (unfilled : x.filled.value = 0) :
    x.notional.value = 0 := by
  rw [← Execution.notional_none]
  exact Level.sweep_unfilled exact fair.facing done (unfilled.trans Execution.value_none.symm)

namespace SimulatedVenue

open RestingOrder

variable {v w u : SimulatedVenue} {pair : Pair} {side : Side} {type : OrderType}
  {amount price : Decimal} {t : Terms} {id : OrderId} {book : OrderBook} {fills more : List Fill}

/-- An immediate execution is reported at its average price. -/
theorem accept_average (done : v.accept pair side amount type price t = .ok (id, w)) :
    (¬ 0 < t.execution.filled ∧ w.outbox = v.outbox) ∨
      ∃ average, 0 < t.execution.filled ∧
        t.execution.notional.div t.execution.filled = .ok average ∧
        w.outbox = v.outbox ++ [⟨v.nextId, pair, side, average, t.execution.filled, v.clock⟩] := by
  rw [accept] at done
  simp only [Checked.bind_ok] at done
  obtain ⟨s, settled, done⟩ := done
  have funds := settle_funds settled
  split at done
  next executed =>
    simp only [Checked.bind_ok, Checked.pure_ok, Prod.mk.injEq] at done
    obtain ⟨average, divided, rfl, rfl⟩ := done
    refine .inr ⟨average, executed, divided, ?_⟩
    rw [funds]
    simp [rest_resting, report]
  next notExecuted =>
    simp only [Checked.pure_ok, Prod.mk.injEq] at done
    obtain ⟨rfl, rfl⟩ := done
    refine .inl ⟨notExecuted, ?_⟩
    rw [funds]
    simp [rest_resting]

/-- The average price of what a limit order executes is within its limit. -/
theorem average_within (rounds : Arithmetic.Rounds) (exact : Arithmetic.ExactSums)
    (products : Arithmetic.ExactProducts) (fair : book.Fair) {x : Execution} {average : Decimal}
    (executed : book.execute side (some price) amount = .ok x) (positive : 0 < x.filled.value)
    (divided : x.notional.div x.filled = .ok average) :
    side.signed average.value ≤ side.signed price.value := by
  have within := OrderBook.execute_notional_le exact products fair executed
  have quotient : side.signed (x.notional.value / x.filled.value) ≤ side.signed price.value := by
    rw [Side.signed_div, div_le_iff₀ positive]
    cases side with
    | buy =>
      change x.notional.value ≤ price.value * x.filled.value
      linarith [show x.notional.value ≤ x.filled.value * price.value from within]
    | sell =>
      have least : x.filled.value * price.value ≤ x.notional.value := neg_le_neg_iff.1 within
      change -x.notional.value ≤ -price.value * x.filled.value
      linarith
  rw [rounds.div positive.ne' divided, ← nearest_value price]
  exact side.signed_mono (fun _ _ => nearest_mono) quotient

/-! ### Reported fills -/

/-- An accepted order waits at this price, if it still waits. -/
structure Waits (v : SimulatedVenue) (id : OrderId) (price : Decimal) : Prop where
  accepted : ∃ pair side, v.Accepted id pair side
  priced : ∀ order ∈ v.resting, order.id = id → order.price = price

/-- From one time to the other the venue reported these fills of its orders, and its holdings changed by
them and their fees. Orders that wait are filled at their price. -/
structure Reports (fills : List Fill) (v w : SimulatedVenue) : Prop where
  later : Precedes v w
  outbox : w.outbox = v.outbox ++ fills
  balanced : Balanced (fills.map .ofFill) v w
  backed : ∀ fill ∈ fills, w.Backs fill
  waits : ∀ ⦃id price⦄, v.Waits id price →
    w.Waits id price ∧ ∀ fill ∈ fills, fill.orderId = id → fill.price = price

omit [Arithmetic] in
theorem Waits.mono (waits : v.Waits id price) (later : Precedes v w)
    (kept : ∀ order ∈ w.resting, order.id = id → ∃ before ∈ v.resting,
      before.id = order.id ∧ before.price = order.price) : w.Waits id price where
  accepted := by
    obtain ⟨pair, side, accepted⟩ := waits.accepted
    exact ⟨pair, side, accepted.mono later⟩
  priced := by
    intro order member same
    obtain ⟨before, inBefore, sameId, samePrice⟩ := kept order member same
    exact samePrice ▸ waits.priced before inBefore (sameId.trans same)

omit [Arithmetic] in
theorem Reports.of_eq (later : Precedes v w) (rate : w.feeRate = v.feeRate)
    (balances : w.balances = v.balances) (resting : w.resting = v.resting)
    (fees : w.totalFees = v.totalFees) (outbox : w.outbox = v.outbox) : Reports [] v w where
  later := later
  outbox := by rw [outbox, List.append_nil]
  balanced := .of_eq rate balances resting fees
  backed := by simp
  waits := fun id price waits =>
    ⟨waits.mono later fun order member _ => ⟨order, resting ▸ member, rfl, rfl⟩, by simp⟩

omit [Arithmetic] in
theorem Reports.trans (first : Reports fills v w) (second : Reports more w u) :
    Reports (fills ++ more) v u where
  later := first.later.trans second.later
  outbox := by rw [second.outbox, first.outbox, List.append_assoc]
  balanced := by
    rw [List.map_append]
    exact first.balanced.trans second.balanced
  backed := by
    intro fill member
    rcases List.mem_append.1 member with old | new'
    · exact (first.backed fill old).mono second.later
    · exact second.backed fill new'
  waits := by
    intro id price waits
    obtain ⟨waits', priced⟩ := first.waits waits
    obtain ⟨waits'', priced'⟩ := second.waits waits'
    refine ⟨waits'', fun fill member => ?_⟩
    rcases List.mem_append.1 member with old | new'
    · exact priced fill old
    · exact priced' fill new'

theorem reports_fillResting (exact : Arithmetic.Exact) (sound : v.Sound)
    {requested : Option Decimal} {reply : Option Fill}
    (done : v.fillResting id requested = .ok (reply, w)) : Reports reply.toList v w := by
  have balanced := balanced_fillResting exact.sums exact.products sound done
  obtain ⟨-, later, -⟩ := sound_fillResting sound done
  rcases fillResting_cases done with
    ⟨rfl, rfl⟩ | ⟨order, amount, s, remaining, tape, found, -, positive, -, -, rfl, rfl⟩
  · exact .of_eq later rfl rfl rfl rfl rfl
  · obtain ⟨member, rfl⟩ := mem_of_lookup found
    refine ⟨later, rfl, balanced, ?_, ?_⟩
    · intro fill reported
      obtain rfl := List.mem_singleton.1 reported
      exact ⟨(sound.accepted order member).mono later, positive⟩
    · intro id price waits
      refine ⟨waits.mono later fun after inAfter _ => ?_, fun fill reported same => ?_⟩
      · obtain ⟨before, inBefore, sameId, -, -, samePrice, -⟩ := mem_afterFill inAfter
        exact ⟨before, inBefore, sameId, samePrice⟩
      · obtain rfl := List.mem_singleton.1 reported
        exact waits.priced order member same

theorem reports_fillAll (exact : Arithmetic.Exact) {ids : List OrderId} (sound : v.Sound)
    (done : v.fillAll ids = .ok (fills, w)) : Reports fills v w := by
  induction ids generalizing v fills with
  | nil =>
    cases done
    exact .of_eq (.refl _) rfl rfl rfl rfl rfl
  | cons id ids ih =>
    obtain ⟨fill, u, others, filled, later, rfl⟩ := fillAll_cons done
    exact (reports_fillResting exact sound filled).trans
      (ih (sound_fillResting sound filled).1 later)

/-- A new order waits at its price, and what waited before it goes on waiting. -/
theorem waits_accept (sound : v.Sound)
    (accepted : v.accept pair side amount type price t = .ok (id, w)) :
    w.Waits id price ∧ ∀ ⦃other limit⦄, v.Waits other limit → w.Waits other limit := by
  obtain ⟨-, later, rfl, entered, -⟩ := sound_accept sound accepted
  have resting : ∀ order ∈ w.resting,
      order ∈ v.resting ∨ order.id = v.nextId ∧ order.price = price := by
    obtain ⟨s, fills, trades, -, -, -, rfl⟩ := accept_ok accepted
    intro order member
    rcases List.mem_append.1 member with old | new'
    · exact .inl old
    · obtain ⟨rfl, -⟩ := mem_restOf.1 new'
      exact .inr ⟨rfl, rfl⟩
  refine ⟨⟨⟨pair, side, entered⟩, fun order member same => ?_⟩, fun other limit waits => ?_⟩
  · rcases resting order member with old | ⟨-, priced⟩
    · exact absurd (same ▸ sound.accepted order old) sound.nextId_fresh
    · exact priced
  · refine waits.mono later fun order member same => ?_
    rcases resting order member with old | ⟨new', -⟩
    · exact ⟨order, old, rfl, rfl⟩
    · obtain ⟨pair, side, known⟩ := waits.accepted
      exact absurd (same.symm.trans new' ▸ known) sound.nextId_fresh

/-- An accepted order reports what executes of it within its limit, and waits at its price. -/
theorem reports_accept (exact : Arithmetic.Exact) (sound : v.Sound) (fair : book.Fair)
    (positive : 0 < amount.value) (terms : v.terms book side amount type price = .ok t)
    (accepted : v.accept pair side amount type price t = .ok (id, w)) :
    w.Waits id price ∧ ∃ fills, Reports fills v w ∧ ∀ fill ∈ fills, fill.orderId = id ∧
      (type = .limit → side.signed fill.price.value ≤ side.signed price.value) := by
  have balanced := balanced_accept exact.sums exact.products positive terms accepted
  obtain ⟨waits, stay⟩ := waits_accept sound accepted
  obtain ⟨-, later, rfl, entered, -⟩ := sound_accept sound accepted
  obtain ⟨executed, -⟩ := terms_ok terms
  refine ⟨waits, ?_⟩
  rcases accept_average accepted with ⟨none, outbox⟩ | ⟨average, some', divided, outbox⟩
  · rw [pos_iff_value, not_lt] at none
    have unfilled := none.antisymm (OrderBook.execute_nonneg exact.sums.signed fair executed)
    have unpaid := OrderBook.execute_unfilled exact fair executed unfilled
    have nothing : Balanced [] v w := by
      refine ⟨balanced.rate, fun asset => ?_, ?_⟩
      · rw [balanced.holdings]
        cases side <;>
          simp [Exchange.flow, Exchange.fee, Exchange.ofExecution, unfilled, unpaid]
      · rw [balanced.fees]
        simp [Exchange.fee, Exchange.ofExecution, unpaid]
    exact ⟨[], ⟨later, by rw [outbox, List.append_nil], nothing, by simp,
      fun id price waits => ⟨stay waits, by simp⟩⟩, by simp⟩
  · have more := pos_iff_value.1 some'
    have priced : t.execution.filled.value * average.value = t.execution.notional.value := by
      rw [exact.div more.ne' divided, mul_div_cancel₀ _ more.ne']
    have same : Exchange.ofFill ⟨v.nextId, pair, side, average, t.execution.filled, v.clock⟩ =
        .ofExecution pair side t.execution := by
      rw [Exchange.ofFill, priced, Exchange.ofExecution]
    refine ⟨[⟨v.nextId, pair, side, average, t.execution.filled, v.clock⟩],
      ⟨later, outbox, ?_, ?_, fun id limit waits => ⟨stay waits, ?_⟩⟩, ?_⟩
    · rw [List.map_singleton, same]
      exact balanced
    · intro fill reported
      obtain rfl := List.mem_singleton.1 reported
      exact ⟨entered, more⟩
    · intro fill reported fresh
      obtain rfl := List.mem_singleton.1 reported
      obtain ⟨pair, side, known⟩ := waits.accepted
      exact absurd (fresh ▸ known) sound.nextId_fresh
    · intro fill reported
      obtain rfl := List.mem_singleton.1 reported
      refine ⟨rfl, ?_⟩
      rintro rfl
      exact average_within exact.rounds exact.sums exact.products fair executed more divided

/-! ### Runs -/

theorem run_reached {operations : List Operation} {exchanges : List Exchange} (reached : Reached v)
    (ran : v.run operations = .ok (exchanges, w)) : Reached w := by
  induction operations generalizing v exchanges with
  | nil =>
    cases ran
    exact reached
  | cons operation operations ih =>
    obtain ⟨first, u, later, performed, ran, -⟩ := run_cons ran
    exact ih (perform_reached reached performed) ran

/-- No book that is set offers a negative amount. -/
def Operation.Fair : Operation → Prop
  | .setBook book => book.Fair
  | _ => True

instance : (operation : Operation) → Decidable operation.Fair
  | .setBook book => inferInstanceAs (Decidable book.Fair)
  | .place .. | .cancel .. | .fill .. | .settings .. => .isTrue trivial

theorem perform_fair {operation : Operation} {exchanges : List Exchange} (fair : v.FairBooks)
    (allowed : operation.Fair) (done : v.perform operation = .ok (exchanges, w)) : w.FairBooks := by
  cases operation with
  | place pair side amount type price =>
    obtain ⟨reply, placed, rfl⟩ := perform_place done
    exact fair.congr (placeOrder_books placed)
  | cancel pair id =>
    obtain ⟨reply, cancelled, rfl⟩ := perform_cancel done
    exact fair.congr (cancelOrder_books cancelled)
  | fill id amount =>
    obtain ⟨reply, filled, rfl⟩ := perform_fill done
    exact fair.congr (fillResting_books filled)
  | setBook book =>
    obtain ⟨fills, set, rfl⟩ := perform_setBook done
    obtain ⟨ids, filled⟩ := setBook_ok set
    refine fillAll_preserves FairBooks
      (fun fair done => fair.congr (fillResting_books done)) ?_ filled
    intro pair other found
    rcases bookOf_put found with rfl | before
    · exact allowed
    · exact fair before
  | settings clock rejections rejectsCancels =>
    cases done
    exact fair.congr rfl

/-- Each operation reports what it exchanges. -/
theorem reports_perform (exact : Arithmetic.Exact) {operation : Operation}
    {exchanges : List Exchange} (sound : v.Sound) (fair : v.FairBooks)
    (done : v.perform operation = .ok (exchanges, w)) : ∃ fills, Reports fills v w := by
  cases operation with
  | place pair side amount type price =>
    obtain ⟨reply, placed, rfl⟩ := perform_place done
    rcases placeOrder_cases placed with
      ⟨_, n, rfl, rfl⟩ | ⟨book, t, id, rfl, positive, found, terms, -, accepted⟩
    · exact ⟨[], .of_eq ⟨rfl, List.Subset.refl _⟩ rfl rfl rfl rfl rfl⟩
    · obtain ⟨-, fills, reports, -⟩ :=
        reports_accept exact sound (fair found) positive terms accepted
      exact ⟨fills, reports⟩
  | cancel pair id =>
    have balanced := perform_balanced exact.sums exact.products sound done
    obtain ⟨reply, cancelled, rfl⟩ := perform_cancel done
    rcases cancelOrder_cases cancelled with ⟨_, -, rfl⟩ | ⟨order, rfl, -, -, -⟩
    · exact ⟨[], .of_eq (.refl _) rfl rfl rfl rfl rfl⟩
    · obtain ⟨-, later, outbox, resting, -⟩ := sound_cancel sound cancelled
      refine ⟨[], later, by rw [outbox, List.append_nil], balanced, by simp, ?_⟩
      intro id price waits
      refine ⟨waits.mono later fun order member _ => ?_, by simp⟩
      exact ⟨order, (List.mem_filter.1 (resting ▸ member)).1, rfl, rfl⟩
  | fill id amount =>
    obtain ⟨reply, filled, rfl⟩ := perform_fill done
    exact ⟨_, reports_fillResting exact sound filled⟩
  | setBook book =>
    obtain ⟨fills, set, rfl⟩ := perform_setBook done
    have opened : Reports [] v { v with books := Table.put book.pair book v.books } :=
      .of_eq ⟨rfl, List.Subset.refl _⟩ rfl rfl rfl rfl rfl
    exact ⟨fills, opened.trans (reports_fillAll exact (sound.congr rfl rfl rfl rfl) set)⟩
  | settings clock rejections rejectsCancels =>
    cases done
    exact ⟨[], .of_eq ⟨rfl, List.Subset.refl _⟩ rfl rfl rfl rfl rfl⟩

theorem reports_run (exact : Arithmetic.Exact) {operations : List Operation}
    {exchanges : List Exchange} (reached : Reached v) (fair : v.FairBooks)
    (allowed : ∀ operation ∈ operations, operation.Fair)
    (ran : v.run operations = .ok (exchanges, w)) : ∃ fills, Reports fills v w := by
  induction operations generalizing v exchanges with
  | nil =>
    cases ran
    exact ⟨[], .of_eq (.refl _) rfl rfl rfl rfl rfl⟩
  | cons operation operations ih =>
    obtain ⟨first, u, later, performed, ran, -⟩ := run_cons ran
    obtain ⟨here, others⟩ := List.forall_mem_cons.1 allowed
    obtain ⟨fills, reports⟩ := reports_perform exact reached.healthy.sound fair performed
    obtain ⟨more, reports'⟩ :=
      ih (perform_reached reached performed) (perform_fair fair here performed) others ran
    exact ⟨fills ++ more, reports.trans reports'⟩

end SimulatedVenue

end MarketMaker
