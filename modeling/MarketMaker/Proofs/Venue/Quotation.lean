import MarketMaker.Proofs.Venue.Averages
import MarketMaker.Proofs.Venue.Reports
/-!
Quotes against trades. The price of a size comes from a walk without a limit; an order for that size walks
within its own. A limit that reaches every level that the size is taken from does not change the walk, so
that the order trades at the price quoted.
-/

namespace MarketMaker

open Decimal

variable [Arithmetic]

namespace Level

variable {side : Side} {limit : Option Decimal} {level : Level} {levels : List Level} {x y : Execution}

omit [Arithmetic] in
/-- Best prices first, a limit that reaches what is taken reaches the first level, also where that level
offers nothing. -/
theorem isWithin_first (fair : ∀ other ∈ level :: levels, 0 ≤ other.amount.value)
    (sorted : (level :: levels).Pairwise fun first second =>
      second.isWithin side limit = true → first.isWithin side limit = true)
    {amount : ℚ} (positive : 0 < amount) (within : amount ≤ depth (level :: levels))
    (reaches : ∀ other ∈ reached (level :: levels) amount, other.isWithin side limit = true) :
    level.isWithin side limit = true := by
  obtain ⟨other, member⟩ := List.exists_mem_of_ne_nil _ (reached_ne_nil fair positive within)
  have reach := reaches other member
  rcases List.mem_cons.1 ((reached_sublist _ _).mem member) with rfl | later
  · exact reach
  · exact (List.pairwise_cons.1 sorted).1 other later reach

/-- The walk is the same within a limit that reaches every level that something is taken from. -/
theorem sweep_reached (exact : Arithmetic.ExactSums) (fair : ∀ level ∈ levels, 0 ≤ level.amount.value)
    (sorted : levels.Pairwise fun first second =>
      second.isWithin side limit = true → first.isWithin side limit = true)
    {amount : Decimal} (enough : amount.value - x.filled.value ≤ depth levels)
    (reaches : ∀ level ∈ reached levels (amount.value - x.filled.value),
      level.isWithin side limit = true)
    (done : sweep side none amount x levels = .ok y) : sweep side limit amount x levels = .ok y := by
  induction levels generalizing x with
  | nil => exact done
  | cons level levels ih =>
    rcases sweep_cons done with
      ⟨full | impossible, rfl⟩ |
        ⟨rest, cost, filled, notional, less, -, subtracted, added, costs, total, later⟩
    · exact sweep_ended (.inl full)
    · cases impossible
    · have took := exact.add added
      rw [value_min, exact.sub subtracted] at took
      have remains : amount.value - filled.value = amount.value - x.filled.value -
          min level.amount.value (amount.value - x.filled.value) := by rw [took]; ring
      -- the first level may offer nothing; then a later one shows that the limit reaches it
      have within := isWithin_first fair sorted (sub_pos.2 less) enough reaches
      rw [sweep_more less within subtracted added costs total]
      apply ih (List.forall_mem_cons.1 fair).2 (List.pairwise_cons.1 sorted).2 _ _ later
      · rw [remains]
        exact sub_min_le fair enough
      · intro other member
        rw [remains] at member
        exact reaches other (mem_reached_cons member)

end Level

/-- An amount that the book covers executes alike within a limit that reaches what it is taken from. -/
theorem OrderBook.execute_reached {book : OrderBook} {side : Side} {limit : Option Decimal}
    {amount : Decimal} {x : Execution} (exact : Arithmetic.ExactSums) (fair : book.Fair)
    (sorted : book.Sorted) (positive : 0 < amount.value)
    (reaches : ∀ level ∈ Level.reached (book.facing side) amount.value,
      level.isWithin side limit = true)
    (walked : book.execute side none amount = .ok x) (enough : amount.value ≤ x.filled.value) :
    book.execute side limit amount = .ok x := by
  have within : amount.value ≤ Level.depth (book.facing side) := by
    have offers := execute_filled exact fair sorted positive walked
    have all : book.offered side none = book.facing side := by simp [offered, Level.isWithin]
    rw [all] at offers
    exact enough.trans (offers.trans_le (min_le_left _ _))
  apply Level.sweep_reached exact fair.facing (sorted.within limit) _ _ walked
  · rwa [Execution.value_none, sub_zero]
  · rwa [Execution.value_none, sub_zero]

namespace SimulatedVenue

open Level

variable {v w : SimulatedVenue} {pair : Pair} {side : Side} {type : OrderType}
  {amount price limit : Decimal} {id : OrderId} {book : OrderBook}

/-- An order that is accepted trades in full at the price quoted for its amount, at the market or with a
limit that reaches every level that the amount is taken from. -/
theorem placeOrder_quoted (rounds : Arithmetic.Rounds) (exact : Arithmetic.ExactSums)
    (found : v.bookOf pair = .ok book) (fair : book.Fair) (sorted : book.Sorted)
    (quoted : v.executablePrice pair side amount = .ok (.ok price))
    (reaches : type = .limit → ∀ level ∈ reached (book.facing side) amount.value,
      level.isWithin side (some limit) = true)
    (done : v.placeOrder pair side amount type limit = .ok (.ok id, w)) :
    ∃ filled average, w.log = v.log ++ [⟨id, pair, side, type, amount, limit, filled⟩] ∧
      w.resting = v.resting ∧ w.outbox = v.outbox ++ [⟨id, pair, side, average, filled, v.clock⟩] ∧
      filled.value = amount.value ∧ average.value = price.value := by
  rcases placeOrder_cases done with
    ⟨_, _, impossible, -⟩ | ⟨book', t, _, same, positive, found', terms, -, accepted⟩
  · cases impossible
  obtain rfl := Except.ok.inj same
  obtain rfl := Except.ok.inj (found.symm.trans found')
  obtain ⟨x, walked, answer⟩ := executablePrice_walk found positive quoted
  obtain ⟨enough, _, answered, divided⟩ :=
    answer.resolve_right fun ⟨_, _, impossible⟩ => nomatch impossible
  obtain rfl := Except.ok.inj answered
  have whole : x.filled.value = amount.value :=
    (OrderBook.execute_le exact positive walked).antisymm enough
  have limited : book.execute side (type.limit? limit) amount = .ok x := by
    apply OrderBook.execute_reached exact fair sorted positive _ walked enough
    cases type with
    | limit => exact reaches rfl
    | market => exact fun _ _ => rfl
  obtain ⟨executed, difference, none', -⟩ := terms_ok terms
  obtain rfl := Except.ok.inj (limited.symm.trans executed)
  have nothing : t.remaining.value = 0 := by
    cases type with
    | limit => rw [exact.sub (difference rfl), whole, sub_self]
    | market => rw [none' rfl, value_zero]
  have more : 0 < t.execution.filled := pos_iff_value.2 (whole ▸ positive)
  rcases accept_average accepted with ⟨unfilled, -⟩ | ⟨average, -, averaged, outbox⟩
  · exact absurd more unfilled
  obtain ⟨s, fills, trades, -, -, rfl, rfl⟩ := accept_ok accepted
  refine ⟨t.execution.filled, average, rfl, ?_, outbox, whole, ?_⟩
  · have gone : ¬ 0 < t.remaining := by rw [pos_iff_value, nothing]; exact lt_irrefl 0
    change v.resting ++ restOf _ = v.resting
    rw [restOf, if_neg gone, List.append_nil]
  · rw [rounds.div (pos_iff_value.1 more).ne' averaged, rounds.div positive.ne' divided, whole]

omit [Arithmetic] in
/-- A sale of 8 on bids of which the second offers nothing: 5 at 100, and 3 at its limit of 98. -/
theorem placeOrder_quoted_sparse :
    ∃ v : SimulatedVenue, ∃ price filled average w,
      @executablePrice .precise v sparseBook.pair .sell (.of 8 0) = .ok (.ok price) ∧
      @placeOrder .precise v sparseBook.pair .sell (.of 8 0) .limit (.of 98 0) =
        .ok (.ok "okx-1", w) ∧
      w.resting = [] ∧ w.outbox = [⟨"okx-1", sparseBook.pair, .sell, average, filled, ⟨0⟩⟩] ∧
      filled.value = (Decimal.of 8 0).value ∧ average.value = price.value := by
  have quotes : (@executablePrice .precise (sparseVenue.setBalance "DOGE" (.of 8 0)) sparseBook.pair
      .sell (.of 8 0)).toOption.any (fun reply => reply.toOption.any fun _ => true) = true := by
    decide +kernel
  have places : (@placeOrder .precise (sparseVenue.setBalance "DOGE" (.of 8 0)) sparseBook.pair .sell
      (.of 8 0) .limit (.of 98 0)).toOption.any
        (fun reply => reply.1.toOption.any fun id => id = "okx-1") = true := by decide +kernel
  obtain ⟨answer, quoted, granted⟩ := Checked.toOption_any quotes
  obtain ⟨price, rfl, -⟩ := Checked.toOption_any granted
  obtain ⟨⟨reply, w⟩, placed, accepted⟩ := Checked.toOption_any places
  obtain ⟨id, rfl, same⟩ := Checked.toOption_any accepted
  obtain rfl := of_decide_eq_true same
  obtain ⟨filled, average, -, rests, reports, whole, priced⟩ :=
    @placeOrder_quoted .precise _ w sparseBook.pair .sell .limit (.of 8 0) price (.of 98 0) "okx-1"
      sparseBook Arithmetic.precise_rounds Arithmetic.precise_exact rfl (by decide) (by decide) quoted
      (fun _ => by decide +kernel) placed
  exact ⟨_, price, filled, average, w, quoted, placed, rests, reports, whole, priced⟩

end SimulatedVenue

end MarketMaker
