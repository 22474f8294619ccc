import MarketMaker.Proofs.Venue.Depth
/-!
Prices as an order of a side sees them. Counted with the sign of the side, the lower price is the
better one, so what holds of purchases holds of sales with all prices reversed.
-/

namespace MarketMaker

open Decimal

namespace Side

theorem signed_div (side : Side) (x y : ℚ) : side.signed (x / y) = side.signed x / y := by
  cases side <;> simp [signed, neg_div]

/-- A function that keeps the order of prices keeps it for either side. -/
theorem signed_mono (side : Side) {f : ℚ → ℚ} (mono : Monotone f) {x y : ℚ}
    (le : side.signed x ≤ side.signed y) : side.signed (f x) ≤ side.signed (f y) := by
  cases side with
  | buy => exact mono le
  | sell => exact neg_le_neg (mono (neg_le_neg_iff.1 le))

end Side

namespace Level

variable {side : Side} {level : Level} {levels : List Level} {amount x y : ℚ}

/-- The level with its price counted for this side. -/
def signed (side : Side) (level : Level) : Level :=
  match side with
  | .buy => level
  | .sell => { level with price := -level.price }

theorem signed_amount : (level.signed side).amount = level.amount := by
  cases side <;> rfl

theorem signed_price : (level.signed side).price.value = side.signed level.price.value := by
  cases side <;> simp [signed, Side.signed, value_neg]

theorem depth_signed : depth (levels.map (signed side)) = depth levels := by
  simp [depth, Function.comp_def, signed_amount]

theorem cost_signed : cost (levels.map (signed side)) amount = side.signed (cost levels amount) := by
  induction levels generalizing amount with
  | nil => cases side <;> simp [cost, Side.signed]
  | cons level levels ih =>
    rw [List.map_cons, cost, cost, ih, signed_amount, signed_price]
    cases side <;> simp only [Side.signed]
    ring

theorem fair_signed (fair : ∀ level ∈ levels, 0 ≤ level.amount.value) :
    ∀ level ∈ levels.map (signed side), 0 ≤ level.amount.value := by
  intro level member
  obtain ⟨source, given, rfl⟩ := List.mem_map.1 member
  rw [signed_amount]
  exact fair source given

/-- Best prices first, a smaller order gets the better average price. -/
theorem average_signed_le (fair : ∀ level ∈ levels, 0 ≤ level.amount.value)
    (sorted : levels.Pairwise fun first second =>
      side.signed first.price.value ≤ side.signed second.price.value)
    (positive : 0 < x) (le : x ≤ y) (within : y ≤ depth levels) :
    side.signed (cost levels x / x) ≤ side.signed (cost levels y / y) := by
  have sorted' : (levels.map (signed side)).Pairwise fun first second =>
      first.price.value ≤ second.price.value := by
    rw [List.pairwise_map]
    simpa only [signed_price] using sorted
  have averages := average_le (fair_signed fair) sorted' positive le (depth_signed.symm ▸ within)
  simpa only [cost_signed, ← Side.signed_div] using averages

/-- Rounding keeps the averages of either side in their order. -/
theorem average_signed_mono (fair : ∀ level ∈ levels, 0 ≤ level.amount.value)
    (sorted : levels.Pairwise fun first second =>
      side.signed first.price.value ≤ side.signed second.price.value)
    (positive : 0 < x) (le : x ≤ y) (within : y ≤ depth levels) :
    side.signed (nearest (cost levels x / x)) ≤ side.signed (nearest (cost levels y / y)) :=
  side.signed_mono (fun _ _ => nearest_mono) (average_signed_le fair sorted positive le within)

/-- No average price is better than a price that no level betters. -/
theorem price_le_average (fair : ∀ level ∈ levels, 0 ≤ level.amount.value) {price : ℚ}
    (least : ∀ level ∈ levels, side.signed price ≤ side.signed level.price.value)
    (positive : 0 < amount) (within : amount ≤ depth levels) :
    side.signed price ≤ side.signed (cost levels amount / amount) := by
  have least' : ∀ level ∈ levels.map (signed side), side.signed price ≤ level.price.value := by
    intro level member
    obtain ⟨source, given, rfl⟩ := List.mem_map.1 member
    rw [signed_price]
    exact least source given
  have costs := cost_sub (fair_signed fair) least' le_rfl positive.le (depth_signed.symm ▸ within)
  rw [sub_zero, cost_zero (fair_signed fair), sub_zero, cost_signed] at costs
  rwa [Side.signed_div, le_div_iff₀ positive]

/-- No average price is better than the first price. -/
theorem first_le_average (fair : ∀ other ∈ level :: levels, 0 ≤ other.amount.value)
    (sorted : (level :: levels).Pairwise fun first second =>
      side.signed first.price.value ≤ side.signed second.price.value)
    (positive : 0 < amount) (within : amount ≤ depth (level :: levels)) :
    side.signed level.price.value ≤ side.signed (cost (level :: levels) amount / amount) := by
  refine price_le_average fair (fun other member => ?_) positive within
  rcases List.mem_cons.1 member with rfl | later
  · exact le_rfl
  · exact (List.pairwise_cons.1 sorted).1 other later

end Level

namespace OrderBook

variable {book : OrderBook} {side : Side} {price : Decimal}

theorem Sorted.facing (sorted : book.Sorted) :
    (book.facing side).Pairwise fun first second =>
      side.signed first.price.value ≤ side.signed second.price.value := by
  cases side with
  | buy =>
    refine sorted.2.imp fun le => ?_
    simpa [Side.signed] using le_iff_value.1 le
  | sell =>
    refine sorted.1.imp fun le => ?_
    simpa [Side.signed] using le_iff_value.1 le

/-- A price crosses the book if it reaches the best level. -/
theorem crosses_eq (book : OrderBook) (side : Side) (price : Decimal) :
    book.crosses side price =
      (book.facing side).head?.any fun level => level.isWithin side (some price) := by
  cases side with
  | buy => cases asks : book.asks <;> simp [crosses, best?, bestAsk?, facing, asks, Level.isWithin]
  | sell => cases bids : book.bids <;> simp [crosses, best?, bestBid?, facing, bids, Level.isWithin]

end OrderBook

namespace SimulatedVenue

variable [Arithmetic] {v : SimulatedVenue} {pair : Pair} {side : Side} {amount price : Decimal}
  {book : OrderBook}

/-- The price at which a size executes reaches the best level: the average is never better. -/
theorem executablePrice_crosses (rounds : Arithmetic.Rounds) (exact : Arithmetic.ExactSums)
    (products : Arithmetic.ExactProducts) (found : v.bookOf pair = .ok book) (fair : book.Fair)
    (sorted : book.Sorted) (positive : 0 < amount.value)
    (done : v.executablePrice pair side amount = .ok (.ok price)) :
    book.crosses side price = true := by
  obtain ⟨within, average⟩ := executablePrice_ok rounds exact products found fair positive done
  have offers : ∀ level ∈ book.facing side, 0 ≤ level.amount.value := fair.facing
  have ordered : (book.facing side).Pairwise fun first second =>
      side.signed first.price.value ≤ side.signed second.price.value := sorted.facing
  rw [OrderBook.crosses_eq]
  generalize book.facing side = levels at within average offers ordered
  cases levels with
  | nil => exact absurd within positive.not_ge
  | cons level levels =>
    rw [List.head?_cons, Option.any_some, Level.isWithin_iff, average, ← nearest_value level.price]
    exact side.signed_mono (fun _ _ => nearest_mono)
      (Level.first_le_average offers ordered positive within)

end SimulatedVenue

end MarketMaker
