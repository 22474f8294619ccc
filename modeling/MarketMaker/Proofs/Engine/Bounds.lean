import MarketMaker.Proofs.Engine.Margin
import MarketMaker.Proofs.Venue.Completion
/-!
Everyday bounds of the parameters, and what they keep in range: shifted prices, multiples of a step, and
with them the prices of quotes and hedges.
-/

namespace MarketMaker

open Decimal

/-- What comes of a price that is moved by less than its nine tenths. -/
def Decimal.Shifted (a : Decimal) : Prop :=
  a.AtLeast 19 ∧ a.AtMost (10 ^ 8)

theorem Decimal.Quotable.shifted {a : Decimal} (quotable : a.Quotable) : a.Shifted :=
  ⟨quotable.1.mono (by decide), quotable.2.mono (by decide)⟩

/-- What comes of a shifted price that is made a multiple of its step. -/
def Decimal.Priced (a : Decimal) : Prop :=
  a.AtMost (10 ^ 9) ∧ (a.value ≤ 0 ∨ a.AtLeast 19)

/-- No step, or one from a billionth to a million. -/
def Decimal.Steplike (a : Decimal) : Prop :=
  a ≤ 0 ∨ a.AtLeast 9 ∧ a.AtMost (10 ^ 6)

instance (a : Decimal) : Decidable a.Steplike :=
  inferInstanceAs (Decidable (_ ∨ _))

/-- Parameters within everyday bounds; what a valid configuration has in bounds anyway is left out. -/
structure Parameters.Moderate (p : Parameters) : Prop where
  orderAmount : p.orderAmount.Moderate
  spread : p.spread ≤ .of 9000 0
  slippageBuffer : p.slippageBuffer ≤ .of 9000 0
  makerTick : p.maker.tickSize.Steplike
  makerLot : p.maker.lotSize.Steplike
  takerTick : p.taker.tickSize.Steplike
  takerLot : p.taker.lotSize.Steplike

/-- All bounds of the parameters. -/
structure Parameters.Bounded (p : Parameters) : Prop where
  moderate : p.Moderate
  spread : 0 ≤ p.spread.value ∧ p.spread.value ≤ 9000
  minSpread : 0 ≤ p.minSpread.value ∧ p.minSpread.value ≤ 9000
  slippageBuffer : 0 ≤ p.slippageBuffer.value ∧ p.slippageBuffer.value ≤ 9000
  makerFee : 0 ≤ p.makerFee.value ∧ p.makerFee.value ≤ 1
  takerFee : 0 ≤ p.takerFee.value ∧ p.takerFee.value ≤ 1

theorem Parameters.Moderate.bounded {p : Parameters} {config : Config} (moderate : p.Moderate)
    (configured : config.parameters = .ok p) : p.Bounded := by
  obtain ⟨valid, -, -⟩ := Config.parameters_valid configured
  obtain ⟨slippage, takerFee⟩ := Config.parameters_rates configured
  have makerFee := Config.parameters_makerFee configured
  have limit : (Decimal.of 9000 0).value = 9000 := value_ofWord 9000
  have spread := le_iff_value.1 moderate.spread
  have buffer := le_iff_value.1 moderate.slippageBuffer
  rw [limit] at spread buffer
  have spreads := valid.spreads
  have nonneg := valid.minSpread
  exact ⟨moderate, ⟨by linarith, spread⟩, ⟨nonneg, by linarith⟩, ⟨slippage.1, buffer⟩,
    ⟨makerFee.1, makerFee.2.le⟩, takerFee.1, takerFee.2.le⟩

/-- Prices of a moderate size. -/
structure MarketQuotes.Quotable (quotes : MarketQuotes) : Prop where
  takerBuy : quotes.takerBuy.Quotable
  takerSell : quotes.takerSell.Quotable
  makerBuy : quotes.makerBuy.Quotable
  makerSell : quotes.makerSell.Quotable

namespace Tick

theorem near_floor (a : Decimal) : (∃ n : ℤ, a.floor.value = n) ∧ |a.floor.value - a.value| ≤ 1 := by
  rw [value_floor]
  refine ⟨⟨_, rfl⟩, abs_le.2 ⟨?_, ?_⟩⟩
  · linarith [Int.lt_floor_add_one a.value]
  · linarith [Int.floor_le a.value]

theorem near_ceil (a : Decimal) : (∃ n : ℤ, a.ceil.value = n) ∧ |a.ceil.value - a.value| ≤ 1 := by
  rw [value_ceil]
  refine ⟨⟨_, rfl⟩, abs_le.2 ⟨?_, ?_⟩⟩
  · linarith [Int.le_ceil a.value]
  · linarith [Int.ceil_lt_add_one a.value]

end Tick

variable [Arithmetic]

namespace BasisPoints

variable {price bps : Decimal}

theorem gives_toRate (total : Arithmetic.Total) (nonneg : 0 ≤ bps.value) (most : bps.value ≤ 9000) :
    Checked.Gives (toRate bps) fun r => 0 ≤ r.value ∧ r.value ≤ 9 / 10 := by
  have unit : tenThousand.value = 10000 := value_ofWord 10000
  have whole : tenThousand.AtLeast 0 := by
    rw [AtLeast, unit]
    norm_num
  have bounded : bps.AtMost 9000 := atMost_of_between nonneg (by exact_mod_cast most)
  refine (total.gives_div bounded whole (by decide)).mono fun r divided => ?_
  rw [divided.1, unit]
  refine ⟨nearest_nonneg (by positivity), ?_⟩
  have limit : (Decimal.of 9 1).value = 9 / 10 := by decide +kernel
  rw [← limit]
  refine nearest_le ?_
  rw [limit]
  linarith

/-- A factor between a tenth and two shifts a price. -/
theorem gives_scaled (total : Arithmetic.Total) (quotable : price.Quotable) {factor : Decimal}
    (tenth : factor.AtLeast 1) (most : factor.AtMost 2) :
    Checked.Gives (price.mul factor) Shifted := by
  refine (total.gives_mul quotable.2 most (by decide)).mono fun shifted product => ?_
  refine ⟨?_, product.2.mono (by decide)⟩
  rw [AtLeast, product.1]
  refine place_le_nearest (by decide) ?_
  calc (1 : ℚ) / 10 ^ 19 = 1 / 10 ^ 18 * (1 / 10 ^ 1) := by norm_num
    _ ≤ price.value * factor.value := mul_le_mul quotable.1 tenth (by positivity) quotable.1.pos.le

theorem gives_below (total : Arithmetic.Total) (quotable : price.Quotable) (nonneg : 0 ≤ bps.value)
    (most : bps.value ≤ 9000) : Checked.Gives (below price bps) Shifted := by
  unfold below
  refine (gives_toRate total nonneg most).bind fun r rate => ?_
  have proper : r.AtMost 1 := atMost_of_between rate.1 (by push_cast; linarith [rate.2])
  refine (total.gives_sub one_atMost proper (by decide)).bind fun factor left => ?_
  refine gives_scaled total quotable ?_ left.2
  rw [AtLeast, left.1, value_one]
  exact place_le_nearest (by decide) (by linarith [rate.2])

theorem gives_above (total : Arithmetic.Total) (quotable : price.Quotable) (nonneg : 0 ≤ bps.value)
    (most : bps.value ≤ 9000) : Checked.Gives (above price bps) Shifted := by
  unfold above
  refine (gives_toRate total nonneg most).bind fun r rate => ?_
  have proper : r.AtMost 1 := atMost_of_between rate.1 (by push_cast; linarith [rate.2])
  refine (total.gives_add one_atMost proper (by decide)).bind fun factor sum => ?_
  refine gives_scaled total quotable ?_ sum.2
  rw [AtLeast, sum.1, value_one]
  exact place_le_nearest (by decide) (by linarith [rate.1])

end BasisPoints

namespace Tick

variable {value step : Decimal} {m : ℕ}

omit [Arithmetic] in
/-- The rounded count of steps is off by a half at most, and the whole count by one more. -/
theorem multiple_near {steps : Decimal} {count : ℚ} (positive : 0 < step.value)
    (divided : steps.value = Decimal.nearest (value.value / step.value))
    (close : |count - steps.value| ≤ 1) :
    |count * step.value - value.value| ≤ 3 / 2 * step.value := by
  have rounded := abs_nearest_sub_le (value.value / step.value)
  rw [← divided, abs_le] at rounded
  rw [abs_le] at close
  have scaled : count * step.value - value.value = (count - value.value / step.value) * step.value := by
    field_simp
  rw [scaled, abs_mul, abs_of_pos positive]
  refine mul_le_mul_of_nonneg_right (abs_le.2 ⟨?_, ?_⟩) positive.le <;> linarith

/-- A multiple is less than two steps away, and no less than a step if it is above zero. -/
theorem gives_roundWith (total : Arithmetic.Total) {whole : Decimal → Decimal}
    (near : ∀ a, (∃ n : ℤ, (whole a).value = n) ∧ |(whole a).value - a.value| ≤ 1)
    (bounded : value.AtMost m) (small : m ≤ 10 ^ 8) (steplike : step.Steplike) :
    Checked.Gives (roundWith whole value step) fun c =>
      c.AtMost (m + 2 * 10 ^ 6) ∧ (c.value ≤ 0 ∨ c.AtLeast 9 ∨ c = value) := by
  have bound : 10 ^ 8 * 10 ^ 9 < twoTo 96 := by decide
  unfold roundWith
  split
  next => exact Checked.gives_pure ⟨bounded.mono (by omega), .inr (.inr rfl)⟩
  next positive =>
    obtain ⟨least, most⟩ := steplike.resolve_left positive
    have unit := least.pos
    refine (total.gives_div bounded least ((Nat.mul_le_mul_right _ small).trans_lt bound)).bind
      fun steps divided => ?_
    obtain ⟨⟨n, same⟩, close⟩ := near steps
    have counted : (whole steps).AtMost (10 ^ 18) := by
      have count : steps.AtMost (10 ^ 17) :=
        divided.2.mono ((Nat.mul_le_mul_right _ small).trans (by decide))
      have distance := abs_sub_abs_le_abs_sub (whole steps).value steps.value
      rw [AtMost] at count ⊢
      push_cast at count ⊢
      linarith
    refine (total.gives_mul counted most (by decide)).mono fun c product => ?_
    have apart := multiple_near unit divided.1 close
    constructor
    · rw [AtMost, product.1]
      refine abs_nearest_le (by omega) ?_
      have distance := abs_sub_abs_le_abs_sub ((whole steps).value * step.value) value.value
      have upper := most.le
      have size := bounded
      rw [AtMost] at size
      push_cast at upper ⊢
      linarith
    · rw [product.1, same]
      rcases le_or_gt n 0 with none | some'
      · left
        exact nearest_nonpos (mul_nonpos_of_nonpos_of_nonneg (by exact_mod_cast none) unit.le)
      · right; left
        have one : (1 : ℚ) ≤ n := by exact_mod_cast some'
        rw [AtLeast, product.1, same]
        exact place_le_nearest (by decide) (least.trans (le_mul_of_one_le_left unit.le one))

theorem gives_priced (total : Arithmetic.Total) {whole : Decimal → Decimal}
    (near : ∀ a, (∃ n : ℤ, (whole a).value = n) ∧ |(whole a).value - a.value| ≤ 1)
    (shifted : value.Shifted) (steplike : step.Steplike) :
    Checked.Gives (roundWith whole value step) Priced := by
  refine (gives_roundWith total near shifted.2 le_rfl steplike).mono fun c rounded => ?_
  refine ⟨rounded.1.mono (by decide), ?_⟩
  rcases rounded.2 with nonpos | step | rfl
  · exact .inl nonpos
  · exact .inr (step.mono (by decide))
  · exact .inr shifted.1

/-- A moderate quantity rounded down to lots. -/
theorem gives_lots (total : Arithmetic.Total) (bounded : value.AtMost m) (small : m ≤ 10 ^ 8)
    (steplike : step.Steplike) :
    Checked.Gives (Lot.down value step) fun c => c.AtMost (m + 2 * 10 ^ 6) :=
  (gives_roundWith total near_floor bounded small steplike).mono fun _ rounded => rounded.1

end Tick

/-! ### Prices of quotes and hedges -/

namespace Parameters

variable {p : Parameters} {quotes : MarketQuotes}

theorem gives_targetPrice (total : Arithmetic.Total) (bounded : p.Bounded) (quotable : quotes.Quotable)
    (side : Side) : Checked.Gives (p.targetPrice quotes side) Priced := by
  cases side with
  | buy =>
    refine (BasisPoints.gives_below total quotable.takerSell bounded.spread.1 bounded.spread.2).bind
      fun shifted moved => Tick.gives_priced total Tick.near_floor ?_ bounded.moderate.makerTick
    exact ⟨moved.1.min quotable.makerBuy.shifted.1, moved.2.min quotable.makerBuy.shifted.2⟩
  | sell =>
    refine (BasisPoints.gives_above total quotable.takerBuy bounded.spread.1 bounded.spread.2).bind
      fun shifted moved => Tick.gives_priced total Tick.near_ceil ?_ bounded.moderate.makerTick
    exact ⟨moved.1.max, moved.2.max quotable.makerSell.shifted.2⟩

theorem gives_threshold (total : Arithmetic.Total) (bounded : p.Bounded) (quotable : quotes.Quotable)
    (side : Side) : Checked.Gives (p.threshold quotes side) Shifted := by
  cases side with
  | buy =>
    exact BasisPoints.gives_below total quotable.takerSell bounded.minSpread.1 bounded.minSpread.2
  | sell =>
    exact BasisPoints.gives_above total quotable.takerBuy bounded.minSpread.1 bounded.minSpread.2

theorem gives_protectivePrice (total : Arithmetic.Total) (bounded : p.Bounded) {executable : Decimal}
    (quotable : executable.Quotable) (side : Side) :
    Checked.Gives (p.protectivePrice executable side) Priced := by
  obtain ⟨nonneg, most⟩ := bounded.slippageBuffer
  cases side with
  | buy =>
    exact (BasisPoints.gives_above total quotable nonneg most).bind
      fun _ moved => Tick.gives_priced total Tick.near_ceil moved bounded.moderate.takerTick
  | sell =>
    exact (BasisPoints.gives_below total quotable nonneg most).bind
      fun _ moved => Tick.gives_priced total Tick.near_floor moved bounded.moderate.takerTick

end Parameters

end MarketMaker
