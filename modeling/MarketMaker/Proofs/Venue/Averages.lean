import MarketMaker.Proofs.Decimal.Magnitude
import MarketMaker.Proofs.Venue.Allocation
/-!
Sizes against prices. A larger size goes deeper into the book, so that its average price is no better
than that of a smaller one; and every average lies between the best price and the last one that is
paid. Quotients that keep their order keep this of executable prices.
-/

namespace MarketMaker

open Decimal

namespace Level

/-- The levels that something of an amount is taken from. -/
def reached : List Level → ℚ → List Level
  | [], _ => []
  | level :: levels, amount =>
    if 0 < min level.amount.value amount then
      level :: reached levels (amount - min level.amount.value amount)
    else reached levels (amount - min level.amount.value amount)

variable {side : Side} {level last other : Level} {levels : List Level} {amount price : ℚ}

theorem reached_sublist (levels : List Level) (amount : ℚ) :
    (reached levels amount).Sublist levels := by
  induction levels generalizing amount with
  | nil => exact .slnil
  | cons level levels ih =>
    unfold reached
    split_ifs
    · exact (ih _).cons_cons level
    · exact (ih _).cons level

/-- What the first level leaves of an amount is taken from the others. -/
theorem mem_reached_cons
    (member : other ∈ reached levels (amount - min level.amount.value amount)) :
    other ∈ reached (level :: levels) amount := by
  unfold reached
  split_ifs
  · exact List.mem_cons_of_mem _ member
  · exact member

theorem reached_ne_nil (fair : ∀ level ∈ levels, 0 ≤ level.amount.value) (positive : 0 < amount)
    (within : amount ≤ depth levels) : reached levels amount ≠ [] := by
  induction levels with
  | nil => exact absurd within positive.not_ge
  | cons level levels ih =>
    obtain ⟨offered, others⟩ := List.forall_mem_cons.1 fair
    have rest := sub_min_le fair within
    unfold reached
    split_ifs with taken
    · exact List.cons_ne_nil _ _
    · have nothing : min level.amount.value amount = 0 :=
        le_antisymm (not_lt.1 taken) (le_min offered positive.le)
      rw [nothing, sub_zero] at rest ⊢
      exact ih others rest

/-- An amount costs no more than at the worst price that it is taken at. -/
theorem cost_le_reached (fair : ∀ level ∈ levels, 0 ≤ level.amount.value) (nonneg : 0 ≤ amount)
    (within : amount ≤ depth levels)
    (worst : ∀ level ∈ reached levels amount, side.signed level.price.value ≤ price) :
    side.signed (cost levels amount) ≤ amount * price := by
  induction levels generalizing amount with
  | nil =>
    have none : amount = 0 := le_antisymm within nonneg
    cases side <;> simp [cost, Side.signed, none]
  | cons level levels ih =>
    obtain ⟨offered, others⟩ := List.forall_mem_cons.1 fair
    have part : 0 ≤ min level.amount.value amount := le_min offered nonneg
    have first : min level.amount.value amount * side.signed level.price.value ≤
        min level.amount.value amount * price := by
      by_cases taken : 0 < min level.amount.value amount
      · unfold reached at worst
        rw [if_pos taken] at worst
        exact mul_le_mul_of_nonneg_left (worst level List.mem_cons_self) part
      · -- a level that nothing is taken from may have any price
        rw [le_antisymm (not_lt.1 taken) part, zero_mul, zero_mul]
    have rest := ih others (sub_nonneg.2 (min_le_right level.amount.value amount))
      (sub_min_le fair within) fun other member => worst other (mem_reached_cons member)
    calc side.signed (cost (level :: levels) amount)
        = min level.amount.value amount * side.signed level.price.value +
            side.signed (cost levels (amount - min level.amount.value amount)) := by
          rw [cost]
          cases side <;> simp only [Side.signed]
          ring
      _ ≤ min level.amount.value amount * price +
            (amount - min level.amount.value amount) * price := add_le_add first rest
      _ = amount * price := by ring

/-- Best prices first, none that an amount is taken at is worse than the last. -/
theorem BestFirst.le_last (ordered : BestFirst side levels)
    (ends : (reached levels amount).getLast? = some last) :
    ∀ level ∈ reached levels amount, side.signed level.price.value ≤ side.signed last.price.value := by
  intro level member
  have sorted := ordered.signed.sublist (reached_sublist levels amount)
  obtain ⟨before, same⟩ := List.getLast?_eq_some_iff.1 ends
  rw [same] at sorted member
  rcases List.mem_append.1 member with early | final
  · exact (List.pairwise_append.1 sorted).2.2 level early last (List.mem_singleton_self last)
  · rw [List.mem_singleton.1 final]

/-- No average price is worse than the last one that is paid. -/
theorem average_le_last (fair : ∀ level ∈ levels, 0 ≤ level.amount.value)
    (ordered : BestFirst side levels) (positive : 0 < amount) (within : amount ≤ depth levels)
    (ends : (reached levels amount).getLast? = some last) :
    side.signed (cost levels amount / amount) ≤ side.signed last.price.value := by
  rw [Side.signed_div, div_le_iff₀ positive, mul_comm]
  exact cost_le_reached fair positive.le within (ordered.le_last ends)

/-- Every average price is between the first one and the last one that is paid. -/
theorem exists_average_between (fair : ∀ level ∈ levels, 0 ≤ level.amount.value)
    (ordered : BestFirst side levels) (positive : 0 < amount) (within : amount ≤ depth levels) :
    ∃ best last, levels.head? = some best ∧ (reached levels amount).getLast? = some last ∧
      side.signed best.price.value ≤ side.signed (cost levels amount / amount) ∧
      side.signed (cost levels amount / amount) ≤ side.signed last.price.value := by
  have some' := reached_ne_nil fair positive within
  obtain ⟨last, ends⟩ : ∃ last, (reached levels amount).getLast? = some last :=
    ⟨_, List.getLast?_eq_some_getLast some'⟩
  have upper := average_le_last fair ordered positive within ends
  cases levels with
  | nil => exact absurd rfl some'
  | cons best levels =>
    exact ⟨best, last, rfl, ends, first_le_average fair ordered.signed positive within, upper⟩

end Level

namespace OrderBook

/-- The price is no better for an order of this side than the best one, and no worse than that of the
last level that something of the amount is taken from. -/
def Spans (book : OrderBook) (side : Side) (amount price : Decimal) : Prop :=
  ∃ best last, book.best? side = some best ∧
    (Level.reached (book.facing side) amount.value).getLast? = some last ∧
    side.signed best.value ≤ side.signed price.value ∧
    side.signed price.value ≤ side.signed last.price.value

theorem best_eq (book : OrderBook) (side : Side) :
    book.best? side = (book.facing side).head?.map Level.price := by
  cases side <;> rfl

end OrderBook

/-- What is between two decimals is in range. -/
theorem Side.abs_le_greatest {side : Side} {a b : Decimal} {x : ℚ}
    (lower : side.signed a.value ≤ side.signed x) (upper : side.signed x ≤ side.signed b.value) :
    |x| ≤ greatest := by
  have bounds : max |a.value| |b.value| ≤ greatest :=
    max_le a.abs_value_le_greatest b.abs_value_le_greatest
  cases side with
  | buy => exact (abs_le_max_abs_abs lower upper).trans bounds
  | sell =>
    rw [max_comm] at bounds
    exact (abs_le_max_abs_abs (neg_le_neg_iff.1 upper) (neg_le_neg_iff.1 lower)).trans bounds

namespace Arithmetic.OrderedQuotients

variable [Arithmetic] (quotients : OrderedQuotients) {side : Side} {a b c a' b' c' d : Decimal}
  (nonzero : b.value ≠ 0)

include quotients nonzero

theorem signed_mono (nonzero' : b'.value ≠ 0) (done : a.div b = .ok c) (done' : a'.div b' = .ok c')
    (le : side.signed (a.value / b.value) ≤ side.signed (a'.value / b'.value)) :
    side.signed c.value ≤ side.signed c'.value := by
  cases side with
  | buy => exact quotients.mono nonzero nonzero' done done' le
  | sell => exact neg_le_neg (quotients.mono nonzero' nonzero done' done (neg_le_neg_iff.1 le))

theorem signed_le_div (done : a.div b = .ok c)
    (le : side.signed d.value ≤ side.signed (a.value / b.value)) :
    side.signed d.value ≤ side.signed c.value := by
  cases side with
  | buy => exact quotients.le_div nonzero done le
  | sell => exact neg_le_neg (quotients.div_le nonzero done (neg_le_neg_iff.1 le))

theorem signed_div_le (done : a.div b = .ok c)
    (le : side.signed (a.value / b.value) ≤ side.signed d.value) :
    side.signed c.value ≤ side.signed d.value := by
  cases side with
  | buy => exact quotients.div_le nonzero done le
  | sell => exact neg_le_neg (quotients.le_div nonzero done (neg_le_neg_iff.1 le))

end Arithmetic.OrderedQuotients

namespace SimulatedVenue

open Level

variable [Arithmetic] {v : SimulatedVenue} {pair : Pair} {side : Side} {amount larger : Decimal}
  {book : OrderBook} {x y : Execution}

/-- An amount that the book covers has a price: the average of the walk, between the prices of the first
level and of the last one that it takes from. -/
theorem executablePrice_spans (exact : Arithmetic.ExactSums) (products : Arithmetic.ExactProducts)
    (quotients : Arithmetic.OrderedQuotients) (found : v.bookOf pair = .ok book)
    (fair : ∀ level ∈ book.facing side, 0 ≤ level.amount)
    (ordered : BestFirst side (book.facing side)) (positive : 0 < amount)
    (within : amount.value ≤ depth (book.facing side))
    (walked : book.execute side none amount = .ok x) :
    ∃ price, v.executablePrice pair side amount = .ok (.ok price) ∧
      x.notional.div amount = .ok price ∧
      x.notional.value = cost (book.facing side) amount.value ∧ book.Spans side amount price := by
  have some' := pos_iff_value.1 positive
  have offers : ∀ level ∈ book.facing side, 0 ≤ level.amount.value :=
    fun level member => nonneg_iff_value.1 (fair level member)
  obtain ⟨fills, spends⟩ := sweep_unlimited exact products offers
    (Execution.value_none.trans_le some'.le) walked
  rw [Execution.value_none, zero_add, sub_zero, min_eq_right within] at fills
  rw [Execution.notional_none, Execution.value_none, zero_add, sub_zero] at spends
  obtain ⟨best, last, starts, ends, lower, upper⟩ :=
    exists_average_between offers ordered some' within
  rw [← spends] at lower upper
  obtain ⟨price, divided⟩ := quotients.total some'.ne' (Side.abs_le_greatest lower upper)
  refine ⟨price, ?_, divided, spends, best.price, last, ?_, ends, ?_, ?_⟩
  · have full : ¬ x.filled < amount := by rw [not_lt_iff_value, fills]
    rw [executablePrice_walked found some' walked, if_neg full, divided]
    rfl
  · rw [OrderBook.best_eq, starts, Option.map_some]
  · exact quotients.signed_le_div some'.ne' divided lower
  · exact quotients.signed_div_le some'.ne' divided upper

/-- A larger size has no better price: buying, it costs at least as much apiece, and selling, it brings at
most as much. Both prices are between the best one and the last one that is paid. -/
theorem executablePrice_mono (exact : Arithmetic.ExactSums) (products : Arithmetic.ExactProducts)
    (quotients : Arithmetic.OrderedQuotients) (found : v.bookOf pair = .ok book)
    (fair : ∀ level ∈ book.facing side, 0 ≤ level.amount)
    (ordered : BestFirst side (book.facing side)) (positive : 0 < amount) (le : amount ≤ larger)
    (within : larger.value ≤ depth (book.facing side))
    (walked : book.execute side none amount = .ok x)
    (walked' : book.execute side none larger = .ok y) :
    ∃ price price', v.executablePrice pair side amount = .ok (.ok price) ∧
      v.executablePrice pair side larger = .ok (.ok price') ∧
      side.signed price.value ≤ side.signed price'.value ∧
      book.Spans side amount price ∧ book.Spans side larger price' := by
  have some' := pos_iff_value.1 positive
  have more := le_iff_value.1 le
  have some'' := some'.trans_le more
  have offers : ∀ level ∈ book.facing side, 0 ≤ level.amount.value :=
    fun level member => nonneg_iff_value.1 (fair level member)
  obtain ⟨price, priced, divided, spends, spans⟩ := executablePrice_spans exact products quotients
    found fair ordered positive (more.trans within) walked
  obtain ⟨price', priced', divided', spends', spans'⟩ := executablePrice_spans exact products
    quotients found fair ordered (pos_iff_value.2 some'') within walked'
  refine ⟨price, price', priced, priced', ?_, spans, spans'⟩
  apply quotients.signed_mono some'.ne' some''.ne' divided divided'
  rw [spends, spends']
  exact average_signed_le offers ordered.signed some' more within

omit [Arithmetic] in
/-- Sales of 8 and of 15: the larger one goes deeper into the last level. -/
theorem executablePrice_mono_sparse :
    ∃ price price',
      @executablePrice .precise sparseVenue sparseBook.pair .sell (.of 8 0) = .ok (.ok price) ∧
      @executablePrice .precise sparseVenue sparseBook.pair .sell (.of 15 0) = .ok (.ok price') ∧
      price'.value ≤ price.value ∧ sparseBook.Spans .sell (.of 8 0) price ∧
      sparseBook.Spans .sell (.of 15 0) price' := by
  have walks : (@OrderBook.execute .precise sparseBook .sell none (.of 8 0)).toOption.any
      (fun _ => true) = true := by decide +kernel
  have walks' : (@OrderBook.execute .precise sparseBook .sell none (.of 15 0)).toOption.any
      (fun _ => true) = true := by decide +kernel
  obtain ⟨x, walked, -⟩ := Checked.toOption_any walks
  obtain ⟨y, walked', -⟩ := Checked.toOption_any walks'
  have offered : (Decimal.of 15 0).value ≤ depth (sparseBook.facing .sell) := by decide +kernel
  obtain ⟨price, price', priced, priced', le, spans, spans'⟩ :=
    @executablePrice_mono .precise sparseVenue sparseBook.pair .sell (.of 8 0) (.of 15 0) sparseBook
      x y Arithmetic.precise_exact Arithmetic.precise_exactProducts Arithmetic.precise_ordered rfl
      (by decide) (by decide) (by decide) (by decide) offered walked walked'
  exact ⟨price, price', priced, priced', neg_le_neg_iff.1 le, spans, spans'⟩

end SimulatedVenue

end MarketMaker
