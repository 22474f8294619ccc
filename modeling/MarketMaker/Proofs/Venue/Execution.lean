import MarketMaker.Proofs.Decimal.Laws
import MarketMaker.Proofs.Steps
import MarketMaker.Venue.Simulated
/-!
What an order executes at once. On a book without negative amounts an execution lies between zero
and the amount of the order; the rest of a limit order is the difference.
-/

namespace MarketMaker

open Decimal

/-- The worst price at which an order of this type may trade. -/
def OrderType.limit? : OrderType → Decimal → Option Decimal
  | .limit, price => some price
  | .market, _ => none

variable [Arithmetic]

namespace OrderBook

/-- No level offers a negative amount. -/
def Fair (book : OrderBook) : Prop :=
  ∀ level ∈ book.bids ++ book.asks, 0 ≤ level.amount

instance (book : OrderBook) : Decidable book.Fair :=
  inferInstanceAs (Decidable (∀ level ∈ book.bids ++ book.asks, 0 ≤ level.amount))

/-- All prices and amounts are above zero. -/
def Positive (book : OrderBook) : Prop :=
  ∀ level ∈ book.bids ++ book.asks, 0 < level.price ∧ 0 < level.amount

instance (book : OrderBook) : Decidable book.Positive :=
  inferInstanceAs (Decidable (∀ level ∈ book.bids ++ book.asks, 0 < level.price ∧ 0 < level.amount))

omit [Arithmetic] in
theorem Positive.fair {book : OrderBook} (positive : book.Positive) : book.Fair := by
  intro level member
  exact nonneg_iff_value.2 (pos_iff_value.1 (positive level member).2).le

omit [Arithmetic] in
theorem Positive.priced {book : OrderBook} (positive : book.Positive) :
    ∀ level ∈ book.bids ++ book.asks, 0 ≤ level.price := by
  intro level member
  exact nonneg_iff_value.2 (pos_iff_value.1 (positive level member).1).le

omit [Arithmetic] in
theorem mem_of_facing {book : OrderBook} {side : Side} {level : Level}
    (member : level ∈ book.facing side) : level ∈ book.bids ++ book.asks := by
  cases side with
  | buy => exact List.mem_append_right _ member
  | sell => exact List.mem_append_left _ member

end OrderBook

namespace Level

variable {side : Side} {limit : Option Decimal} {amount : Decimal} {x y : Execution}
  {levels : List Level}

/-- A sweep ends at a level that it may not trade at or does not need, or takes what it needs of it. -/
theorem sweep_cons {level : Level} (done : sweep side limit amount x (level :: levels) = .ok y) :
    ((amount.value ≤ x.filled.value ∨ level.isWithin side limit = false) ∧ y = x) ∨
      ∃ rest cost filled notional, x.filled.value < amount.value ∧
        level.isWithin side limit = true ∧ amount.sub x.filled = .ok rest ∧
        x.filled.add (min level.amount rest) = .ok filled ∧
        (min level.amount rest).mul level.price = .ok cost ∧ x.notional.add cost = .ok notional ∧
        sweep side limit amount ⟨filled, notional⟩ levels = .ok y := by
  rw [sweep] at done
  split at done
  next ended =>
    refine .inl ⟨?_, (Except.ok.inj done).symm⟩
    simpa only [le_iff_value, Bool.not_eq_true] using ended
  next open' =>
    simp only [Checked.bind_ok] at done
    obtain ⟨rest, subtracted, filled, added, cost, costs, notional, total, later⟩ := done
    obtain ⟨more, within⟩ := not_or.1 open'
    exact .inr ⟨rest, cost, filled, notional, not_le_iff_value.1 more, not_not.1 within, subtracted,
      added, costs, total, later⟩

theorem sweep_ended {level : Level}
    (ended : amount.value ≤ x.filled.value ∨ level.isWithin side limit = false) :
    sweep side limit amount x (level :: levels) = .ok x := by
  rw [sweep, if_pos]
  simpa only [le_iff_value, Bool.not_eq_true] using ended

theorem sweep_more {level : Level} {rest cost filled notional : Decimal}
    (less : x.filled.value < amount.value) (within : level.isWithin side limit = true)
    (subtracted : amount.sub x.filled = .ok rest)
    (added : x.filled.add (min level.amount rest) = .ok filled)
    (costs : (min level.amount rest).mul level.price = .ok cost)
    (total : x.notional.add cost = .ok notional) :
    sweep side limit amount x (level :: levels) = sweep side limit amount ⟨filled, notional⟩ levels := by
  have open' : ¬ (amount ≤ x.filled ∨ ¬ level.isWithin side limit) := by
    rw [le_iff_value, not_or, not_le, not_not]
    exact ⟨less, within⟩
  rw [sweep, if_neg open']
  simp only [subtracted, added, costs, total, Checked.ok_bind]

/-- What holds at the start, and still holds after something is taken from a level, holds at the end. -/
theorem sweep_preserves {P : Execution → Prop}
    (step : ∀ level ∈ levels, ∀ x rest cost filled notional, P x → x.filled.value < amount.value →
      level.isWithin side limit = true → amount.sub x.filled = .ok rest →
      x.filled.add (min level.amount rest) = .ok filled →
      (min level.amount rest).mul level.price = .ok cost → x.notional.add cost = .ok notional →
      P ⟨filled, notional⟩)
    (start : P x) (done : sweep side limit amount x levels = .ok y) : P y := by
  induction levels generalizing x with
  | nil =>
    rw [sweep] at done
    exact Except.ok.inj done ▸ start
  | cons level levels ih =>
    rcases sweep_cons done with
      ⟨-, rfl⟩ | ⟨rest, cost, filled, notional, less, within, subtracted, added, costs, total, later⟩
    · exact start
    · have kept := step level List.mem_cons_self x rest cost filled notional start less within
        subtracted added costs total
      exact ih (fun other member => step other (List.mem_cons_of_mem _ member)) kept later

/-- Of a level that offers a positive amount, or none, no negative amount is taken. -/
theorem taken_nonneg (signed : Arithmetic.SignedSums) {level : Level} {rest : Decimal}
    (offered : 0 ≤ level.amount.value) (less : x.filled.value < amount.value)
    (subtracted : amount.sub x.filled = .ok rest) : 0 ≤ (min level.amount rest).value := by
  rw [value_min]
  exact le_min offered ((signed.sub_pos subtracted).2 less).le

theorem sweep_nonneg (signed : Arithmetic.SignedSums) (fair : ∀ level ∈ levels, 0 ≤ level.amount)
    (start : 0 ≤ x.filled.value) (done : sweep side limit amount x levels = .ok y) :
    0 ≤ y.filled.value := by
  refine sweep_preserves (P := fun x => 0 ≤ x.filled.value) ?_ start done
  intro level member x rest _ filled _ start less _ subtracted added _ _
  have offered := nonneg_iff_value.1 (fair level member)
  exact signed.add_nonneg added start (taken_nonneg signed offered less subtracted)

theorem sweep_le (exact : Arithmetic.ExactSums) (start : x.filled.value ≤ amount.value)
    (done : sweep side limit amount x levels = .ok y) : y.filled.value ≤ amount.value := by
  refine sweep_preserves (P := fun x => x.filled.value ≤ amount.value) ?_ start done
  intro level _ x rest _ filled _ _ _ _ subtracted added _ _
  have taken : (min level.amount rest).value ≤ rest.value := by
    rw [value_min]
    exact min_le_right _ _
  calc filled.value = x.filled.value + (min level.amount rest).value := exact.add added
    _ ≤ x.filled.value + rest.value := by gcongr
    _ = amount.value := by rw [exact.sub subtracted]; ring

/-- Where no price and no amount is negative, nothing has a negative cost. -/
theorem sweep_notional_nonneg (rounds : Arithmetic.Rounds)
    (fair : ∀ level ∈ levels, 0 ≤ level.amount) (priced : ∀ level ∈ levels, 0 ≤ level.price)
    (start : 0 ≤ x.notional.value) (done : sweep side limit amount x levels = .ok y) :
    0 ≤ y.notional.value := by
  refine sweep_preserves (P := fun x => 0 ≤ x.notional.value) ?_ start done
  intro level member x rest cost _ notional start less _ subtracted _ costs total
  have offered := nonneg_iff_value.1 (fair level member)
  have price := nonneg_iff_value.1 (priced level member)
  have paid : 0 ≤ cost.value := by
    rw [rounds.mul costs]
    exact nearest_nonneg (mul_nonneg (taken_nonneg rounds.signed offered less subtracted) price)
  exact rounds.signed.add_nonneg total start paid

/-- Levels that offer nothing fill nothing. -/
theorem sweep_nonpos (rounds : Arithmetic.Rounds) (none : ∀ level ∈ levels, level.amount ≤ 0)
    (start : x.filled.value ≤ 0) (done : sweep side limit amount x levels = .ok y) :
    y.filled.value ≤ 0 := by
  refine sweep_preserves (P := fun x => x.filled.value ≤ 0) ?_ start done
  intro level member x rest _ filled _ start _ _ _ added _ _
  have offered := nonpos_iff_value.1 (none level member)
  rw [rounds.add added, value_min]
  exact nearest_nonpos (add_nonpos start ((min_le_left _ _).trans offered))

end Level

omit [Arithmetic] in
theorem Execution.value_none : Execution.none.filled.value = 0 := value_zero

omit [Arithmetic] in
theorem Execution.notional_none : Execution.none.notional.value = 0 := value_zero

namespace OrderBook

variable {book : OrderBook} {side : Side} {limit : Option Decimal} {amount : Decimal}
  {x : Execution}

theorem execute_nonneg (signed : Arithmetic.SignedSums) (fair : book.Fair)
    (done : book.execute side limit amount = .ok x) : 0 ≤ x.filled.value := by
  refine Level.sweep_nonneg signed ?_ Execution.value_none.ge done
  exact fun _ member => fair _ (mem_of_facing member)

theorem execute_notional_nonneg (rounds : Arithmetic.Rounds) (fair : book.Fair)
    (priced : ∀ level ∈ book.bids ++ book.asks, 0 ≤ level.price)
    (done : book.execute side limit amount = .ok x) : 0 ≤ x.notional.value := by
  refine Level.sweep_notional_nonneg rounds ?_ ?_ Execution.notional_none.ge done
  · exact fun _ member => fair _ (mem_of_facing member)
  · exact fun _ member => priced _ (mem_of_facing member)

theorem execute_le (exact : Arithmetic.ExactSums) (positive : 0 < amount.value)
    (done : book.execute side limit amount = .ok x) : x.filled.value ≤ amount.value :=
  Level.sweep_le exact (Execution.value_none.trans_le positive.le) done

theorem execute_nonpos (rounds : Arithmetic.Rounds)
    (none : ∀ level ∈ book.bids ++ book.asks, level.amount ≤ 0)
    (done : book.execute side limit amount = .ok x) : x.filled.value ≤ 0 := by
  refine Level.sweep_nonpos rounds ?_ Execution.value_none.le done
  exact fun _ member => none _ (mem_of_facing member)

end OrderBook

namespace SimulatedVenue

variable {v : SimulatedVenue} {book : OrderBook} {pair : Pair} {side : Side}
  {amount price : Decimal} {t : Terms}

/-- The terms of an order: what executes within its limit, and for a limit order the difference to its
amount, which rests. A bid costs what executes, its fee and what it sets aside; an ask costs its
amount as far as it executes and rests. -/
theorem terms_ok {type : OrderType} (done : v.terms book side amount type price = .ok t) :
    book.execute side (type.limit? price) amount = .ok t.execution ∧
      (type = .limit → amount.sub t.execution.filled = .ok t.remaining) ∧
      (type = .market → t.remaining = 0) ∧
      t.execution.notional.mul v.feeRate = .ok t.fee ∧
      (side = .buy → ∃ paid reserved, t.execution.notional.add t.fee = .ok paid ∧
        t.remaining.mul price = .ok reserved ∧ paid.add reserved = .ok t.cost) ∧
      (side = .sell → t.execution.filled.add t.remaining = .ok t.cost) := by
  cases side with
  | buy =>
    cases type with
    | limit =>
      simp only [terms, Checked.bind_ok, Checked.pure_ok] at done
      obtain ⟨x, executed, remaining, left, fee, charged, paid, sum, reserved, held, cost, total, rfl⟩ :=
        done
      exact ⟨executed, fun _ => left, by simp, charged,
        fun _ => ⟨paid, reserved, sum, held, total⟩, by simp⟩
    | market =>
      simp only [terms, Checked.bind_ok, Checked.pure_ok] at done
      obtain ⟨x, executed, _, rfl, fee, charged, paid, sum, reserved, held, cost, total, rfl⟩ := done
      exact ⟨executed, by simp, fun _ => rfl, charged,
        fun _ => ⟨paid, reserved, sum, held, total⟩, by simp⟩
  | sell =>
    cases type with
    | limit =>
      simp only [terms, Checked.bind_ok, Checked.pure_ok] at done
      obtain ⟨x, executed, remaining, left, fee, charged, cost, costs, rfl⟩ := done
      exact ⟨executed, fun _ => left, by simp, charged, by simp, fun _ => costs⟩
    | market =>
      simp only [terms, Checked.bind_ok, Checked.pure_ok] at done
      obtain ⟨x, executed, _, rfl, fee, charged, cost, costs, rfl⟩ := done
      exact ⟨executed, by simp, fun _ => rfl, charged, by simp, fun _ => costs⟩

/-- The terms of a limit order: what executes within its price, and the difference to its amount. -/
theorem terms_limit (done : v.terms book side amount .limit price = .ok t) :
    book.execute side (some price) amount = .ok t.execution ∧
      amount.sub t.execution.filled = .ok t.remaining ∧
      (side = .sell → t.execution.filled.add t.remaining = .ok t.cost) := by
  obtain ⟨executed, left, -, -, -, costs⟩ := terms_ok done
  exact ⟨executed, left rfl, costs⟩

/-- A positive amount is walked through the book, and priced if the walk covers it. -/
theorem executablePrice_walk (found : v.bookOf pair = .ok book) (positive : 0 < amount.value)
    {reply : Except VenueError Decimal} (done : v.executablePrice pair side amount = .ok reply) :
    ∃ x, book.execute side none amount = .ok x ∧
      ((amount.value ≤ x.filled.value ∧ ∃ price, reply = .ok price ∧ x.notional.div amount = .ok price) ∨
        (x.filled.value < amount.value ∧ ∃ e, reply = .error e)) := by
  simp only [executablePrice, found, if_neg (not_nonpos_iff_value.2 positive), Checked.bind_ok] at done
  obtain ⟨x, executed, answer⟩ := done
  refine ⟨x, executed, ?_⟩
  split at answer
  next short => exact .inr ⟨lt_iff_value.1 short, _, (Checked.pure_ok.1 answer).symm⟩
  next enough =>
    simp only [Checked.bind_ok, Checked.pure_ok] at answer
    obtain ⟨price, divided, rfl⟩ := answer
    exact .inl ⟨not_lt_iff_value.1 enough, price, rfl, divided⟩

/-- Only a book without any positive amount can refuse every size. -/
theorem executablePrice_pos (rounds : Arithmetic.Rounds) (positive : 0 < amount.value)
    (found : v.bookOf pair = .ok book)
    (done : v.executablePrice pair side amount = .ok (.ok price)) :
    ∃ level ∈ book.bids ++ book.asks, 0 < level.amount.value := by
  by_contra none
  push Not at none
  have dry : ∀ level ∈ book.bids ++ book.asks, level.amount ≤ 0 :=
    fun level member => nonpos_iff_value.2 (none level member)
  obtain ⟨x, executed, ⟨enough, -⟩ | ⟨-, _, impossible⟩⟩ := executablePrice_walk found positive done
  · exact (positive.trans_le enough).not_ge (OrderBook.execute_nonpos rounds dry executed)
  · cases impossible

omit [Arithmetic] in
theorem free_congr {v w : SimulatedVenue} (same : w.balances = v.balances) (asset : String) :
    w.free asset = v.free asset := by
  rw [free, same, free]

omit [Arithmetic] in
theorem bookOf_congr {v w : SimulatedVenue} (same : w.books = v.books) (pair : Pair) :
    w.bookOf pair = v.bookOf pair := by
  rw [bookOf, same, bookOf]

/-- No book of the venue offers a negative amount. -/
def FairBooks (v : SimulatedVenue) : Prop :=
  ∀ ⦃pair book⦄, v.bookOf pair = .ok book → book.Fair

omit [Arithmetic] in
theorem FairBooks.congr {v w : SimulatedVenue} (fair : v.FairBooks) (same : w.books = v.books) :
    w.FairBooks := by
  intro pair book found
  exact fair (bookOf_congr same pair ▸ found)

omit [Arithmetic] in
theorem bookOf_put {v : SimulatedVenue} {given book : OrderBook} {pair : Pair}
    (found : { v with books := Table.put given.pair given v.books }.bookOf pair = .ok book) :
    book = given ∨ v.bookOf pair = .ok book := by
  simp only [bookOf, Table.get?_put] at found ⊢
  split_ifs at found with same
  · exact .inl (Except.ok.inj found).symm
  · exact .inr found

end SimulatedVenue

end MarketMaker
