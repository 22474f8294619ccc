import MarketMaker.Proofs.Venue.Budget
import MarketMaker.Proofs.Venue.Inventory
/-!
How deep a book is, and what an amount costs on it. An order within the depth of a positive book
executes in full at its average price, and a limit order that is covered at its limit is accepted.
-/

namespace MarketMaker

open Decimal

namespace OrderBook

variable {book : OrderBook} {side : Side}

theorem Fair.facing (fair : book.Fair) : ∀ level ∈ book.facing side, 0 ≤ level.amount.value :=
  fun level member => nonneg_iff_value.1 (fair level (mem_of_facing member))

theorem Positive.facing (positive : book.Positive) :
    ∀ level ∈ book.facing side, 0 < level.price.value :=
  fun level member => pos_iff_value.1 (positive level (mem_of_facing member)).1

/-- Best prices first. -/
def Sorted (book : OrderBook) : Prop :=
  (book.bids.Pairwise fun first second => second.price ≤ first.price) ∧
    book.asks.Pairwise fun first second => first.price ≤ second.price

instance (book : OrderBook) : Decidable book.Sorted := by
  unfold Sorted
  infer_instance

theorem Sorted.asks (sorted : book.Sorted) :
    (book.facing .buy).Pairwise fun first second => first.price.value ≤ second.price.value :=
  sorted.2.imp fun le => le_iff_value.1 le

end OrderBook

namespace Level

/-- What the levels offer together. -/
def depth (levels : List Level) : ℚ :=
  (levels.map fun level => level.amount.value).sum

/-- What an amount costs that is taken from the first level on. -/
def cost : List Level → ℚ → ℚ
  | [], _ => 0
  | level :: levels, amount =>
    min level.amount.value amount * level.price.value +
      cost levels (amount - min level.amount.value amount)

variable {levels : List Level} {level : Level} {floor : ℚ}

theorem depth_nonneg (fair : ∀ level ∈ levels, 0 ≤ level.amount.value) : 0 ≤ depth levels := by
  apply List.sum_nonneg
  intro amount member
  obtain ⟨level, offered, rfl⟩ := List.mem_map.1 member
  exact fair level offered

theorem depth_cons : depth (level :: levels) = level.amount.value + depth levels := by
  simp [depth]

theorem cost_zero (fair : ∀ level ∈ levels, 0 ≤ level.amount.value) : cost levels 0 = 0 := by
  induction levels with
  | nil => rfl
  | cons level levels ih =>
    obtain ⟨offered, others⟩ := List.forall_mem_cons.1 fair
    rw [cost, min_eq_right offered, zero_mul, sub_zero, ih others, add_zero]

/-- What the first level leaves of an amount is no more than the others offer. -/
theorem sub_min_le (fair : ∀ other ∈ level :: levels, 0 ≤ other.amount.value) {amount : ℚ}
    (within : amount ≤ depth (level :: levels)) :
    amount - min level.amount.value amount ≤ depth levels := by
  have rest := depth_nonneg (List.forall_mem_cons.1 fair).2
  rw [depth_cons] at within
  rcases min_cases level.amount.value amount with ⟨taken, -⟩ | ⟨taken, -⟩ <;> rw [taken] <;> linarith

/-- Where no price is below a floor, every further part costs at least the floor. -/
theorem cost_sub (fair : ∀ level ∈ levels, 0 ≤ level.amount.value)
    (least : ∀ level ∈ levels, floor ≤ level.price.value) {x y : ℚ} (nonneg : 0 ≤ x) (le : x ≤ y)
    (within : y ≤ depth levels) : floor * (y - x) ≤ cost levels y - cost levels x := by
  induction levels generalizing x y with
  | nil =>
    have none : y ≤ 0 := within
    have same : y = x := le_antisymm (none.trans nonneg) le
    simp [same]
  | cons level levels ih =>
    obtain ⟨lowest, others⟩ := List.forall_mem_cons.1 least
    have taken : min level.amount.value x ≤ min level.amount.value y := min_le_min_left _ le
    have left : x - min level.amount.value x ≤ y - min level.amount.value y := by
      rcases min_cases level.amount.value x with ⟨a, -⟩ | ⟨a, -⟩ <;>
        rcases min_cases level.amount.value y with ⟨b, less⟩ | ⟨b, less⟩ <;> rw [a, b] <;> linarith
    have rest := ih (List.forall_mem_cons.1 fair).2 others (sub_nonneg.2 (min_le_right _ _)) left
      (sub_min_le fair within)
    have first : floor * (min level.amount.value y - min level.amount.value x) ≤
        level.price.value * (min level.amount.value y - min level.amount.value x) :=
      mul_le_mul_of_nonneg_right lowest (sub_nonneg.2 taken)
    rw [cost, cost]
    linarith

/-- Best prices first, a smaller part has the lower average price. -/
theorem cost_average (fair : ∀ level ∈ levels, 0 ≤ level.amount.value)
    (sorted : levels.Pairwise fun first second => first.price.value ≤ second.price.value) {x y : ℚ}
    (nonneg : 0 ≤ x) (le : x ≤ y) (within : y ≤ depth levels) :
    y * cost levels x ≤ x * cost levels y := by
  induction levels generalizing x y with
  | nil => simp [cost]
  | cons level levels ih =>
    obtain ⟨offered, others⟩ := List.forall_mem_cons.1 fair
    obtain ⟨lowest, sorted'⟩ := List.pairwise_cons.1 sorted
    rcases le_or_gt x level.amount.value with small | large
    · -- the smaller part is all of the first level, whose price is the lowest
      have first : cost (level :: levels) x = level.price.value * x := by
        rw [cost, min_eq_right small, sub_self, cost_zero others, add_zero, mul_comm]
      have least : ∀ other ∈ level :: levels, level.price.value ≤ other.price.value :=
        List.forall_mem_cons.2 ⟨le_rfl, lowest⟩
      have start := cost_sub fair least le_rfl (nonneg.trans le) within
      rw [sub_zero, cost_zero fair, sub_zero] at start
      calc y * cost (level :: levels) x = x * (level.price.value * y) := by rw [first]; ring
        _ ≤ x * cost (level :: levels) y := mul_le_mul_of_nonneg_left start nonneg
    · have more := large.trans_le le
      have left := sub_min_le fair within
      rw [min_eq_left more.le] at left
      have smaller := sub_nonneg.2 large.le
      have parts : x - level.amount.value ≤ y - level.amount.value := by gcongr
      have rest := ih others sorted' smaller parts left
      have further := cost_sub others lowest smaller parts left
      rw [cost, cost, min_eq_left large.le, min_eq_left more.le]
      linear_combination rest + level.amount.value * further

/-! ### Average prices -/

/-- Positive prices have a positive average, also after rounding. -/
theorem average_pos (fair : ∀ level ∈ levels, 0 ≤ level.amount.value)
    (priced : ∀ level ∈ levels, 0 < level.price.value) {amount : ℚ} (positive : 0 < amount)
    (within : amount ≤ depth levels) : 0 < nearest (cost levels amount / amount) := by
  have some' : levels.toFinset.Nonempty := by
    rw [List.toFinset_nonempty_iff]
    rintro rfl
    exact positive.not_ge within
  obtain ⟨cheapest, member, least⟩ :=
    levels.toFinset.exists_min_image (fun level => level.price.value) some'
  have costs := cost_sub fair (fun level offered => least level (List.mem_toFinset.2 offered)) le_rfl
    positive.le within
  rw [sub_zero, cost_zero fair, sub_zero] at costs
  calc 0 < cheapest.price.value := priced cheapest (List.mem_toFinset.1 member)
    _ ≤ nearest (cost levels amount / amount) := le_nearest ((le_div_iff₀ positive).2 costs)

/-- Best prices first, a smaller purchase has the lower average price. -/
theorem average_le (fair : ∀ level ∈ levels, 0 ≤ level.amount.value)
    (sorted : levels.Pairwise fun first second => first.price.value ≤ second.price.value) {x y : ℚ}
    (positive : 0 < x) (le : x ≤ y) (within : y ≤ depth levels) :
    cost levels x / x ≤ cost levels y / y := by
  rw [div_le_div_iff₀ positive (positive.trans_le le), mul_comm, mul_comm (cost levels y)]
  exact cost_average fair sorted positive.le le within

/-! ### Executions -/

variable [Arithmetic] {side : Side} {amount limit : Decimal} {x y : Execution}

/-- Without a limit an order takes what the levels offer, at what it costs. -/
theorem sweep_unlimited (exact : Arithmetic.ExactSums) (products : Arithmetic.ExactProducts)
    (fair : ∀ level ∈ levels, 0 ≤ level.amount.value) (start : x.filled.value ≤ amount.value)
    (done : sweep side none amount x levels = .ok y) :
    y.filled.value = x.filled.value + min (depth levels) (amount.value - x.filled.value) ∧
      y.notional.value = x.notional.value + cost levels (amount.value - x.filled.value) := by
  induction levels generalizing x with
  | nil =>
    obtain rfl := Except.ok.inj done
    have none : min (depth []) (amount.value - x.filled.value) = 0 :=
      min_eq_left (sub_nonneg.2 start)
    rw [none, cost, add_zero, add_zero]
    exact ⟨rfl, rfl⟩
  | cons level levels ih =>
    obtain ⟨offered, others⟩ := List.forall_mem_cons.1 fair
    rcases sweep_cons done with
      ⟨full, rfl⟩ | ⟨rest, paid, filled, notional, less, -, subtracted, added, costs, total, later⟩
    · have complete : amount.value - y.filled.value = 0 := by
        rcases full with enough | impossible
        · linarith
        · cases impossible
      rw [complete, cost_zero fair, min_eq_right (depth_nonneg fair), add_zero, add_zero]
      exact ⟨rfl, rfl⟩
    · have left := exact.sub subtracted
      have took := exact.add added
      rw [value_min, left] at took
      have further : filled.value ≤ amount.value := by
        have most := min_le_right level.amount.value (amount.value - x.filled.value)
        linarith
      have remains : amount.value - filled.value = amount.value - x.filled.value -
          min level.amount.value (amount.value - x.filled.value) := by rw [took]; ring
      obtain ⟨fills, spends⟩ := ih (x := ⟨filled, notional⟩) others further later
      rw [remains] at fills spends
      refine ⟨?_, ?_⟩
      · rw [fills, took, depth_cons, add_assoc, add_right_inj]
        rcases min_cases level.amount.value (amount.value - x.filled.value) with
          ⟨taken, -⟩ | ⟨taken, few⟩
        · rw [taken, ← min_add_add_left, add_sub_cancel]
        · have rest := depth_nonneg others
          rw [taken, sub_self, min_eq_right rest, add_zero, min_eq_right (by linarith)]
      · rw [spends, exact.add total, products costs, value_min, left, cost]
        ring

omit [Arithmetic] in
/-- An order trades at the levels whose price, counted with the sign of its side, is not above its
limit. -/
theorem isWithin_iff : level.isWithin side (some limit) = true ↔
    side.signed level.price.value ≤ side.signed limit.value := by
  cases side <;> simp [isWithin, Side.signed, le_iff_value]

/-- Within its limit a purchase pays at most the limit, and a sale is paid at least that. -/
theorem sweep_notional_le (exact : Arithmetic.ExactSums) (products : Arithmetic.ExactProducts)
    (fair : ∀ level ∈ levels, 0 ≤ level.amount.value)
    (start : side.signed x.notional.value ≤ side.signed (x.filled.value * limit.value))
    (done : sweep side (some limit) amount x levels = .ok y) :
    side.signed y.notional.value ≤ side.signed (y.filled.value * limit.value) := by
  refine sweep_preserves
    (P := fun x => side.signed x.notional.value ≤ side.signed (x.filled.value * limit.value)) ?_
    start done
  intro level member x rest paid filled notional start less within subtracted added costs total
  have taken := taken_nonneg exact.signed (fair level member) less subtracted
  have price := mul_le_mul_of_nonneg_left (isWithin_iff.1 within) taken
  have spent := exact.add total
  have took := exact.add added
  rw [products costs] at spent
  rw [spent, took]
  cases side <;> simp only [Side.signed] at start price ⊢ <;> linarith

end Level

theorem OrderBook.execute_notional_le [Arithmetic] {book : OrderBook} {side : Side}
    {amount limit : Decimal} {x : Execution} (exact : Arithmetic.ExactSums)
    (products : Arithmetic.ExactProducts) (fair : book.Fair)
    (done : book.execute side (some limit) amount = .ok x) :
    side.signed x.notional.value ≤ side.signed (x.filled.value * limit.value) := by
  refine Level.sweep_notional_le exact products fair.facing ?_ done
  rw [Execution.notional_none, Execution.value_none, zero_mul]

namespace SimulatedVenue

open Level

variable [Arithmetic] {v w : SimulatedVenue} {pair : Pair} {side : Side} {amount price : Decimal}
  {book : OrderBook}

/-- The executable price of an amount within the depth of the book is the average one. -/
theorem executablePrice_cases (rounds : Arithmetic.Rounds) (exact : Arithmetic.ExactSums)
    (products : Arithmetic.ExactProducts) (found : v.bookOf pair = .ok book) (fair : book.Fair)
    (positive : 0 < amount.value) {reply : Except VenueError Decimal}
    (done : v.executablePrice pair side amount = .ok reply) :
    (amount.value ≤ depth (book.facing side) ∧ ∃ price, reply = .ok price ∧
      price.value = nearest (cost (book.facing side) amount.value / amount.value)) ∨
    (depth (book.facing side) < amount.value ∧ ∃ e, reply = .error e) := by
  obtain ⟨x, executed, answer⟩ := executablePrice_walk found positive done
  obtain ⟨fills, spends⟩ := sweep_unlimited exact products fair.facing
    (Execution.value_none.trans_le positive.le) executed
  rw [Execution.value_none, zero_add, sub_zero] at fills
  rw [Execution.notional_none, Execution.value_none, zero_add, sub_zero] at spends
  rcases answer with ⟨enough, price, rfl, divided⟩ | ⟨short, e, rfl⟩
  · rw [fills, le_min_iff] at enough
    exact .inl ⟨enough.1, price, rfl, by rw [rounds.div positive.ne' divided, spends]⟩
  · rw [fills, min_lt_iff] at short
    exact .inr ⟨short.resolve_right (lt_irrefl _), e, rfl⟩

theorem executablePrice_ok (rounds : Arithmetic.Rounds) (exact : Arithmetic.ExactSums)
    (products : Arithmetic.ExactProducts) (found : v.bookOf pair = .ok book) (fair : book.Fair)
    (positive : 0 < amount.value) (done : v.executablePrice pair side amount = .ok (.ok price)) :
    amount.value ≤ depth (book.facing side) ∧
      price.value = nearest (cost (book.facing side) amount.value / amount.value) := by
  rcases executablePrice_cases rounds exact products found fair positive done with
    ⟨within, _, same, average⟩ | ⟨-, _, impossible⟩
  · obtain rfl := Except.ok.inj same
    exact ⟨within, average⟩
  · cases impossible

/-- The free balance pays for an order at its limit, fee included. -/
def Covers (v : SimulatedVenue) (pair : Pair) (side : Side) (amount price : Decimal) : Prop :=
  match side with
  | .buy => amount.value * price.value * (1 + v.feeRate.value) ≤ (v.free pair.quote).value
  | .sell => amount.value ≤ (v.free pair.base).value

/-- The budget does not reduce an order that is covered. -/
theorem adjustCandidate_covered (rounds : Arithmetic.Rounds) (exact : Arithmetic.ExactSums)
    (products : Arithmetic.ExactProducts) (rate : 0 ≤ v.feeRate.value) {candidate : Candidate}
    (priced : 0 < candidate.price.value)
    (covered : v.Covers candidate.pair candidate.side candidate.amount candidate.price)
    {allOrNone : Bool} {reply : Except VenueError Candidate}
    (done : v.adjustCandidate candidate allOrNone = .ok reply) : reply = .ok candidate := by
  rcases adjustCandidate_cases done with ⟨free, -⟩ | ⟨-, most, computed, rfl⟩
  · exact absurd priced free.not_gt
  have within : candidate.amount.value ≤ most.value := by
    obtain ⟨affordable, rfl, buys, sells⟩ := budget_ok computed
    rw [value_max]
    apply le_max_of_le_left
    cases side : candidate.side with
    | buy =>
      obtain ⟨factor, unit, added, multiplied, divided⟩ := buys side
      have cost : unit.value = candidate.price.value * (1 + v.feeRate.value) := by
        rw [products multiplied, exact.add added, value_one]
      have some' : 0 < unit.value := cost ▸ mul_pos priced (by linarith)
      rw [side] at covered
      rw [rounds.div some'.ne' divided]
      apply le_nearest
      rw [le_div_iff₀ some', cost, ← mul_assoc]
      exact covered
    | sell =>
      rw [side] at covered
      rw [sells side]
      exact covered
  rw [allowed_of_le within]

/-- What executes is paid at the limit at most, and the rest is set aside at the limit. -/
theorem terms_covered (exact : Arithmetic.ExactSums) (products : Arithmetic.ExactProducts)
    (fair : book.Fair) (rate : 0 ≤ v.feeRate.value) (positive : 0 < amount.value)
    (priced : 0 < price.value) (covered : v.Covers pair side amount price) {t : Terms}
    (terms : v.terms book side amount .limit price = .ok t) :
    t.cost.value ≤ (v.free (pair.spent side)).value := by
  obtain ⟨executed, remains, -, charged, buys, sells⟩ := terms_ok terms
  have left := exact.sub (remains rfl)
  cases side with
  | buy =>
    obtain ⟨paid, reserved, sum, held, total⟩ := buys rfl
    have rests : 0 ≤ t.remaining.value := by
      rw [left, sub_nonneg]
      exact OrderBook.execute_le exact positive executed
    have spends : t.execution.notional.value * (1 + v.feeRate.value) ≤
        t.execution.filled.value * price.value * (1 + v.feeRate.value) :=
      mul_le_mul_of_nonneg_right (OrderBook.execute_notional_le exact products fair executed)
        (by linarith)
    have aside : t.remaining.value * price.value ≤
        t.remaining.value * price.value * (1 + v.feeRate.value) :=
      le_mul_of_one_le_right (mul_nonneg rests priced.le) (by linarith)
    calc t.cost.value
        = t.execution.notional.value * (1 + v.feeRate.value) + t.remaining.value * price.value := by
          rw [exact.add total, exact.add sum, products charged, products held]
          ring
      _ ≤ t.execution.filled.value * price.value * (1 + v.feeRate.value) +
          t.remaining.value * price.value * (1 + v.feeRate.value) := add_le_add spends aside
      _ = amount.value * price.value * (1 + v.feeRate.value) := by rw [left]; ring
      _ ≤ (v.free (pair.spent .buy)).value := covered
  | sell =>
    rw [exact.add (sells rfl), left, add_sub_cancel]
    exact covered

/-- A limit order that is covered is accepted. -/
theorem placeOrder_covered (exact : Arithmetic.ExactSums) (products : Arithmetic.ExactProducts)
    (found : v.bookOf pair = .ok book) (fair : book.Fair) (accepting : v.rejections = 0)
    (rate : 0 ≤ v.feeRate.value) (positive : 0 < amount.value) (priced : 0 < price.value)
    (covered : v.Covers pair side amount price) {reply : Except VenueError OrderId}
    (done : v.placeOrder pair side amount .limit price = .ok (reply, w)) :
    ∃ id, reply = .ok id := by
  have some' : ¬ amount ≤ 0 := not_nonpos_iff_value.2 positive
  have willing : ¬ 0 < v.rejections := by omega
  simp only [placeOrder, if_neg some', if_neg willing, found, Checked.bind_ok] at done
  obtain ⟨t, terms, answer⟩ := done
  have pays := terms_covered exact products fair rate positive priced covered terms
  rw [if_neg (not_lt_iff_value.2 pays), Checked.bind_ok] at answer
  obtain ⟨⟨id, u⟩, -, answer⟩ := answer
  obtain ⟨rfl, -⟩ := Prod.mk.inj (Checked.pure_ok.1 answer)
  exact ⟨id, rfl⟩

end SimulatedVenue

end MarketMaker
