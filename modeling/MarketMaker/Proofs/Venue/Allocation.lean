import MarketMaker.Proofs.Venue.Sides
/-!
The walk through a book against every other way to trade an amount on it. An amount may be split among
the levels in any proportion; taking them in order costs a purchase no more than any split, and brings
a sale no less. The walk falls short of an amount only where the whole side does.
-/

namespace MarketMaker

open Decimal

/-- The best of some sums for an order of this side: the least to pay, the most to be paid. -/
def Side.Best : Side → Set ℚ → ℚ → Prop
  | .buy => IsLeast
  | .sell => IsGreatest

namespace Level

/-- The first level has the best price for an order of this side, and none is better than one before
it. -/
def BestFirst : Side → List Level → Prop
  | .buy, levels => levels.Pairwise fun first second => first.price ≤ second.price
  | .sell, levels => levels.Pairwise fun first second => second.price ≤ first.price

instance (side : Side) (levels : List Level) : Decidable (BestFirst side levels) := by
  cases side <;> (unfold BestFirst; infer_instance)

/-- What is taken of each level when an amount is split among them, no more than it offers. -/
structure Allocates (levels : List Level) (amount : ℚ) (parts : List ℚ) : Prop where
  within : List.Forall₂ (fun level part => 0 ≤ part ∧ part ≤ level.amount.value) levels parts
  total : parts.sum = amount

/-- What the parts cost, each at the price of its level. -/
def charge (levels : List Level) (parts : List ℚ) : ℚ :=
  (List.zipWith (fun level part => part * level.price.value) levels parts).sum

/-- The parts of an amount that is taken from the first level on. -/
def inOrder : List Level → ℚ → List ℚ
  | [], _ => []
  | level :: levels, amount =>
    min level.amount.value amount :: inOrder levels (amount - min level.amount.value amount)

variable {side : Side} {level : Level} {levels : List Level} {amount part : ℚ} {parts : List ℚ}

theorem BestFirst.signed (ordered : BestFirst side levels) :
    levels.Pairwise fun first second =>
      side.signed first.price.value ≤ side.signed second.price.value := by
  cases side with
  | buy => exact List.Pairwise.imp le_iff_value.1 ordered
  | sell => exact List.Pairwise.imp (fun le => neg_le_neg (le_iff_value.1 le)) ordered

theorem charge_cons : charge (level :: levels) (part :: parts) =
    part * level.price.value + charge levels parts := by
  rw [charge, List.zipWith_cons_cons, List.sum_cons, charge]

theorem charge_inOrder : charge levels (inOrder levels amount) = cost levels amount := by
  induction levels generalizing amount with
  | nil => rfl
  | cons level levels ih => rw [inOrder, charge_cons, ih, cost]

theorem allocates_inOrder (fair : ∀ level ∈ levels, 0 ≤ level.amount.value) (nonneg : 0 ≤ amount)
    (within : amount ≤ depth levels) : Allocates levels amount (inOrder levels amount) := by
  induction levels generalizing amount with
  | nil => exact ⟨.nil, le_antisymm nonneg within⟩
  | cons level levels ih =>
    obtain ⟨offered, others⟩ := List.forall_mem_cons.1 fair
    have rest := ih others (sub_nonneg.2 (min_le_right _ _)) (sub_min_le fair within)
    refine ⟨.cons ⟨le_min offered nonneg, min_le_left _ _⟩ rest.within, ?_⟩
    rw [inOrder, List.sum_cons, rest.total, add_sub_cancel]

theorem Allocates.fair (allocates : Allocates levels amount parts) :
    ∀ level ∈ levels, 0 ≤ level.amount.value := by
  obtain ⟨within, -⟩ := allocates
  induction within with
  | nil => simp
  | cons taken _ ih => exact List.forall_mem_cons.2 ⟨taken.1.trans taken.2, ih⟩

theorem Allocates.bounds (allocates : Allocates levels amount parts) :
    0 ≤ amount ∧ amount ≤ depth levels := by
  obtain ⟨within, rfl⟩ := allocates
  induction within with
  | nil => exact ⟨le_rfl, le_rfl⟩
  | cons taken _ ih =>
    rw [List.sum_cons, depth_cons]
    exact ⟨add_nonneg taken.1 ih.1, add_le_add taken.2 ih.2⟩

/-- A split leaves the other levels no less of the amount than the walk leaves them, and every part
that is moved to them costs at least the first price. -/
theorem cost_le_charge
    (sorted : levels.Pairwise fun first second => first.price.value ≤ second.price.value)
    (allocates : Allocates levels amount parts) : cost levels amount ≤ charge levels parts := by
  obtain ⟨within, total⟩ := allocates
  induction within generalizing amount with
  | nil => exact le_rfl
  | @cons level part levels parts taken within ih =>
    obtain ⟨lowest, sorted'⟩ := List.pairwise_cons.1 sorted
    rw [List.sum_cons] at total
    have others : Allocates levels (amount - part) parts := ⟨within, by linarith⟩
    obtain ⟨some', enough⟩ := others.bounds
    have least : part ≤ min level.amount.value amount := le_min taken.2 (by linarith)
    have moved := cost_sub others.fair lowest (sub_nonneg.2 (min_le_right level.amount.value amount))
      (sub_le_sub_left least amount) enough
    have rest := ih sorted' others.total
    rw [cost, charge_cons]
    linarith

/-! ### Sides -/

theorem Allocates.signed (allocates : Allocates levels amount parts) :
    Allocates (levels.map (Level.signed side)) amount parts := by
  refine ⟨?_, allocates.total⟩
  rw [List.forall₂_map_left_iff]
  simpa only [signed_amount] using allocates.within

theorem charge_signed :
    charge (levels.map (signed side)) parts = side.signed (charge levels parts) := by
  induction levels generalizing parts with
  | nil => cases side <;> simp [charge, Side.signed]
  | cons level levels ih =>
    cases parts with
    | nil => cases side <;> simp [charge, Side.signed]
    | cons part parts =>
      rw [List.map_cons, charge_cons, charge_cons, ih, signed_price]
      cases side <;> simp only [Side.signed]
      ring

/-- No split of an amount is better for an order than the levels in their order. -/
theorem cost_best (fair : ∀ level ∈ levels, 0 ≤ level.amount.value) (ordered : BestFirst side levels)
    (nonneg : 0 ≤ amount) (within : amount ≤ depth levels) :
    side.Best {sum | ∃ parts, Allocates levels amount parts ∧ charge levels parts = sum}
      (cost levels amount) := by
  have reached : ∃ parts, Allocates levels amount parts ∧ charge levels parts = cost levels amount :=
    ⟨_, allocates_inOrder fair nonneg within, charge_inOrder⟩
  have best : ∀ {parts}, Allocates levels amount parts →
      side.signed (cost levels amount) ≤ side.signed (charge levels parts) := by
    intro parts allocates
    have sorted : (levels.map (Level.signed side)).Pairwise fun first second =>
        first.price.value ≤ second.price.value := by
      rw [List.pairwise_map]
      simpa only [signed_price] using ordered.signed
    have signed : Allocates (levels.map (Level.signed side)) amount parts := allocates.signed
    have le := cost_le_charge sorted signed
    rwa [cost_signed, charge_signed] at le
  cases side with
  | buy =>
    refine ⟨reached, ?_⟩
    rintro sum ⟨parts, allocates, rfl⟩
    exact best allocates
  | sell =>
    refine ⟨reached, ?_⟩
    rintro sum ⟨parts, allocates, rfl⟩
    exact neg_le_neg_iff.1 (best allocates)

end Level

namespace SimulatedVenue

open Level

variable [Arithmetic] {v : SimulatedVenue} {pair : Pair} {side : Side} {amount : Decimal}
  {book : OrderBook} {x : Execution}

/-- Where the walk through the book ends with a result, the answer depends on nothing else. -/
theorem executablePrice_walked (found : v.bookOf pair = .ok book) (positive : 0 < amount.value)
    (walked : book.execute side none amount = .ok x) :
    v.executablePrice pair side amount =
      if x.filled < amount then .ok (.error (.insufficientDepth pair.toText amount x.filled))
      else (x.notional.div amount).map .ok := by
  have some' : ¬ amount ≤ 0 := not_nonpos_iff_value.2 positive
  simp only [executablePrice, found, if_neg some', walked]
  change (if x.filled < amount then _ else _) = _
  split
  · rfl
  · cases x.notional.div amount <;> rfl

/-- An amount is refused where the side does not offer it, and what the side offers is named. Else the
sum that is divided by the amount is the best of those that the levels can make up for it. -/
theorem walk_optimal (exact : Arithmetic.ExactSums) (products : Arithmetic.ExactProducts)
    (found : v.bookOf pair = .ok book) (fair : ∀ level ∈ book.facing side, 0 ≤ level.amount)
    (ordered : BestFirst side (book.facing side)) (positive : 0 < amount)
    (walked : book.execute side none amount = .ok x) :
    ((∃ available, v.executablePrice pair side amount =
        .ok (.error (.insufficientDepth pair.toText amount available))) ↔
      depth (book.facing side) < amount.value) ∧
    (∀ available, v.executablePrice pair side amount =
        .ok (.error (.insufficientDepth pair.toText amount available)) →
      available.value = depth (book.facing side)) ∧
    (amount.value ≤ depth (book.facing side) →
      v.executablePrice pair side amount = (x.notional.div amount).map .ok ∧
        side.Best {sum | ∃ parts, Allocates (book.facing side) amount.value parts ∧
          charge (book.facing side) parts = sum} x.notional.value) := by
  have some' := pos_iff_value.1 positive
  have offers : ∀ level ∈ book.facing side, 0 ≤ level.amount.value :=
    fun level member => nonneg_iff_value.1 (fair level member)
  obtain ⟨fills, spends⟩ := sweep_unlimited exact products offers
    (Execution.value_none.trans_le some'.le) walked
  rw [Execution.value_none, zero_add, sub_zero] at fills
  rw [Execution.notional_none, Execution.value_none, zero_add, sub_zero] at spends
  have short : x.filled < amount ↔ depth (book.facing side) < amount.value := by
    rw [lt_iff_value, fills, min_lt_iff, or_iff_left (lt_irrefl _)]
  rw [executablePrice_walked found some' walked]
  by_cases less : x.filled < amount
  · have dry := short.1 less
    rw [if_pos less]
    refine ⟨iff_of_true ⟨x.filled, rfl⟩ dry, ?_, fun enough => absurd dry enough.not_gt⟩
    rintro available same
    obtain ⟨-, -, rfl⟩ := VenueError.insufficientDepth.inj (Except.error.inj (Except.ok.inj same))
    rw [fills, min_eq_left dry.le]
  · have enough := not_lt.1 (mt short.2 less)
    have priced : ∀ available, (x.notional.div amount).map Except.ok ≠
        .ok (.error (VenueError.insufficientDepth pair.toText amount available)) := by
      intro available same
      cases divided : x.notional.div amount <;> rw [divided] at same <;> cases same
    rw [if_neg less]
    refine ⟨iff_of_false (fun ⟨_, same⟩ => priced _ same) enough.not_gt,
      fun _ same => absurd same (priced _), fun _ => ⟨rfl, ?_⟩⟩
    rw [spends]
    exact cost_best offers ordered some'.le enough

/-- Bids with a level that offers nothing. -/
def sparseBook : OrderBook :=
  ⟨⟨"DOGE", "USDT"⟩, ⟨0⟩, [⟨.of 100 0, .of 5 0⟩, ⟨.of 99 0, 0⟩, ⟨.of 98 0, .of 20 0⟩],
    [⟨.of 101 0, .of 5 0⟩]⟩

def sparseVenue : SimulatedVenue :=
  { SimulatedVenue.new "okx" 0 ⟨0⟩ with books := [(sparseBook.pair, sparseBook)] }

omit [Arithmetic] in
/-- A sale of 15 takes the first level and half of the last one; a sale of 30 is refused. -/
theorem walk_optimal_sparse :
    (∃ x, @OrderBook.execute .precise sparseBook .sell none (.of 15 0) = .ok x ∧
      @executablePrice .precise sparseVenue sparseBook.pair .sell (.of 15 0) =
        (@Decimal.div .precise x.notional (.of 15 0)).map .ok ∧
      IsGreatest {sum | ∃ parts, Allocates sparseBook.bids 15 parts ∧
        charge sparseBook.bids parts = sum} 1480) ∧
    ∃ available, @executablePrice .precise sparseVenue sparseBook.pair .sell (.of 30 0) =
        .ok (.error (.insufficientDepth "DOGE-USDT" (.of 30 0) available)) ∧
      available.value = 25 := by
  have walks : (@OrderBook.execute .precise sparseBook .sell none (.of 15 0)).toOption.any
      (fun x => decide (x.notional.value = 1480)) = true := by decide +kernel
  have walks' : (@OrderBook.execute .precise sparseBook .sell none (.of 30 0)).toOption.any
      (fun x => decide (x.filled.value = 25)) = true := by decide +kernel
  obtain ⟨x, walked, sum⟩ := Checked.toOption_any walks
  obtain ⟨y, walked', -⟩ := Checked.toOption_any walks'
  have offered : depth (sparseBook.facing .sell) = 25 := by decide +kernel
  have fifteen : (Decimal.of 15 0).value = 15 := by decide +kernel
  obtain ⟨-, -, priced⟩ := @walk_optimal .precise sparseVenue sparseBook.pair .sell (.of 15 0)
    sparseBook x Arithmetic.precise_exact Arithmetic.precise_exactProducts rfl (by decide) (by decide)
    (by decide) walked
  obtain ⟨refused, named, -⟩ := @walk_optimal .precise sparseVenue sparseBook.pair .sell (.of 30 0)
    sparseBook y Arithmetic.precise_exact Arithmetic.precise_exactProducts rfl (by decide) (by decide)
    (by decide) walked'
  obtain ⟨same, best⟩ := priced (by rw [offered, fifteen]; norm_num)
  obtain ⟨available, short⟩ := refused.2 (by rw [offered]; decide +kernel)
  rw [of_decide_eq_true sum, fifteen] at best
  exact ⟨⟨x, walked, same, best⟩, available, short, (named available short).trans offered⟩

end SimulatedVenue

end MarketMaker
