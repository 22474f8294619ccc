import MarketMaker.Config.Validation
import MarketMaker.Proofs.Engine.Moves
import MarketMaker.Proofs.Tick
/-!
The price of a quote against the threshold of its cancellation. Both are shifted from the same price
of the taker, the quote by the wider spread; so a quote is not beyond the threshold of the moment at
which it is placed, unless the division by the tick was rounded.
-/

namespace MarketMaker

open Decimal

/-! ### Valid parameters -/

/-- What is known of parameters that come from a configuration. -/
structure Parameters.Valid (p : Parameters) : Prop where
  orderAmount : 0 < p.orderAmount.value
  minSpread : 0 ≤ p.minSpread.value
  spreads : p.minSpread.value < p.spread.value
  spread : p.spread.value < 10000
  maxOrderAge : 0 < p.maxOrderAge
  venues : p.maker.venue ≠ p.taker.venue

namespace Config

variable {config : Config} {p : Parameters}

theorem market_venue {m : MarketConfig} {market : Market} (done : Config.market m = .ok market) :
    market.venue = m.venue := by
  rw [Config.market] at done
  split at done
  · cases done
    rfl
  · cases done

theorem rules_of_validate (done : config.validate = .ok ()) :
    ∀ rule ∈ config.rules, rule.1 = true := by
  rw [validate] at done
  split at done
  · cases done
  next none =>
    intro rule member
    simpa using List.find?_eq_none.1 none rule member

theorem holds_of_validate {holds : Prop} [Decidable holds] {e : ConfigError}
    (done : config.validate = .ok ()) (member : (decide holds, e) ∈ config.rules) : holds :=
  of_decide_eq_true (rules_of_validate done _ member)

theorem span?_pos {seconds : UInt64} {span : Span} (positive : 0 < seconds)
    (done : span? seconds = some span) : 0 < span := by
  rw [span?] at done
  split at done
  · obtain rfl := Option.some.inj done
    have some' : 0 < seconds.toNat := positive
    rw [Span.ofSeconds]
    positivity
  · cases done

theorem parameters_valid (done : config.parameters = .ok p) :
    p.Valid ∧ p.maker.venue = config.maker.venue ∧ p.taker.venue = config.taker.venue := by
  simp only [parameters, Checked.bind_ok] at done
  obtain ⟨_, valid, maker, makes, taker, takes, done⟩ := done
  have kept : ∀ {holds : Prop} [Decidable holds] (e : ConfigError),
      (decide holds, e) ∈ config.rules → holds :=
    fun _ member => holds_of_validate valid member
  split at done
  next age spans =>
    simp only [Checked.bind_ok, Checked.pure_ok] at done
    obtain ⟨_, rfl, rfl⟩ := done
    have orderAmount : 0 < config.strategy.orderAmount :=
      kept .orderAmount (by simp [rules, strategyRules])
    have minSpread : 0 ≤ config.strategy.minSpreadBps :=
      kept .negativeMinSpread (by simp [rules, strategyRules])
    have spreads : config.strategy.minSpreadBps < config.strategy.spreadBps :=
      kept (.spreadOrder config.strategy.minSpreadBps config.strategy.spreadBps)
        (by simp [rules, strategyRules])
    have spread : config.strategy.spreadBps < .of 10000 0 :=
      kept .spreadTooWide (by simp [rules, strategyRules])
    have maxAge : 0 < config.strategy.maxOrderAgeSecs ∧
        config.strategy.maxOrderAgeSecs ≤ maxDurationSecs :=
      kept .maxOrderAge (by simp [rules, strategyRules])
    have venues : config.maker.venue ≠ config.taker.venue :=
      kept (.sameVenue config.maker.venue) (by simp [rules])
    refine ⟨⟨pos_iff_value.1 orderAmount, nonneg_iff_value.1 minSpread, lt_iff_value.1 spreads,
      ?_, span?_pos maxAge.1 spans, ?_⟩, market_venue makes, market_venue takes⟩
    · have limit : (Decimal.of 10000 0).value = 10000 := value_ofWord 10000
      rw [← limit]
      exact lt_iff_value.1 spread
    · rw [market_venue makes, market_venue takes]
      exact venues
  next => cases done

/-- The slippage buffer and the fee of the taker are proper rates. -/
theorem parameters_rates (done : config.parameters = .ok p) :
    (0 ≤ p.slippageBuffer.value ∧ p.slippageBuffer.value < 10000) ∧
      0 ≤ p.takerFee.value ∧ p.takerFee.value < 1 := by
  simp only [parameters, Checked.bind_ok] at done
  obtain ⟨_, valid, maker, -, taker, -, done⟩ := done
  split at done
  next age spans =>
    simp only [Checked.bind_ok, Checked.pure_ok] at done
    obtain ⟨_, rfl, rfl⟩ := done
    have slippage : 0 ≤ config.strategy.slippageBufferBps ∧
        config.strategy.slippageBufferBps < .of 10000 0 :=
      holds_of_validate (e := .slippageBuffer) valid (by simp [rules, strategyRules])
    have fee : 0 ≤ config.strategy.takerFee ∧ config.strategy.takerFee < 1 :=
      holds_of_validate (e := .takerFee) valid (by simp [rules, strategyRules])
    have limit : (Decimal.of 10000 0).value = 10000 := value_ofWord 10000
    refine ⟨⟨nonneg_iff_value.1 slippage.1, ?_⟩, nonneg_iff_value.1 fee.1, ?_⟩
    · rw [← limit]
      exact lt_iff_value.1 slippage.2
    · rw [← value_one]
      exact lt_iff_value.1 fee.2
  next => cases done

end Config

/-! ### Steps of a price -/

namespace Tick

/-- Dividing the value by the step loses nothing, or there is no step. -/
def Divides [Arithmetic] (value step : Decimal) : Prop :=
  step ≤ 0 ∨ ∀ steps, value.div step = .ok steps → steps.value = value.value / step.value

variable [Arithmetic] {value step price : Decimal}

instance (value step : Decimal) : Decidable (Divides value step) :=
  decidable_of_iff (step ≤ 0 ∨ (value.div step).toOption.all
    (fun steps => decide (steps.value = value.value / step.value)) = true) <| by
    rw [Divides, Checked.toOption_all]
    simp

/-- Where the division loses nothing, one rounding is left. -/
theorem roundWith_divided (rounds : Arithmetic.Rounds) (divides : Divides value step)
    (unit : 0 < step.value) {whole : Decimal → Decimal} (done : roundWith whole value step = .ok price) :
    ∃ steps : Decimal, steps.value = value.value / step.value ∧
      price.value = Decimal.nearest ((whole steps).value * step.value) := by
  obtain ⟨steps, divided, -, found⟩ := roundWith_value rounds unit done
  exact ⟨steps, divides.resolve_left (not_nonpos_iff_value.2 unit) steps divided, found⟩

theorem down_le (rounds : Arithmetic.Rounds) (divides : Divides value step)
    (done : Tick.down value step = .ok price) : price.value ≤ value.value := by
  rcases le_or_gt step.value 0 with stepless | unit
  · rw [down, roundWith, if_pos (nonpos_iff_value.2 stepless)] at done
    exact (Except.ok.inj done) ▸ le_rfl
  · obtain ⟨steps, quotient, found⟩ := roundWith_divided rounds divides unit done
    rw [found, value_floor]
    apply nearest_le
    calc (⌊steps.value⌋ : ℚ) * step.value ≤ steps.value * step.value := by
          gcongr
          exact Int.floor_le _
      _ = value.value := by rw [quotient, div_mul_cancel₀ _ unit.ne']

theorem le_up (rounds : Arithmetic.Rounds) (divides : Divides value step)
    (done : Tick.up value step = .ok price) : value.value ≤ price.value := by
  rcases le_or_gt step.value 0 with stepless | unit
  · rw [up, roundWith, if_pos (nonpos_iff_value.2 stepless)] at done
    exact (Except.ok.inj done) ▸ le_rfl
  · obtain ⟨steps, quotient, found⟩ := roundWith_divided rounds divides unit done
    rw [found, value_ceil]
    apply le_nearest
    calc value.value = steps.value * step.value := by rw [quotient, div_mul_cancel₀ _ unit.ne']
      _ ≤ ⌈steps.value⌉ * step.value := by
          gcongr
          exact Int.le_ceil _

end Tick

/-! ### Shifted prices -/

namespace BasisPoints

variable [Arithmetic] {price bps shifted : Decimal}

/-- A number of basis points as a rate. -/
def rate (bps : Decimal) : ℚ := nearest (bps.value / 10000)

omit [Arithmetic] in
theorem rate_mono {bps' : Decimal} (less : bps.value ≤ bps'.value) : rate bps ≤ rate bps' :=
  nearest_mono (by gcongr)

omit [Arithmetic] in
theorem rate_nonneg (nonneg : 0 ≤ bps.value) : 0 ≤ rate bps :=
  nearest_nonneg (by positivity)

omit [Arithmetic] in
theorem rate_le_one (le : bps.value ≤ 10000) : rate bps ≤ 1 := by
  have bound : bps.value / 10000 ≤ (1 : Decimal).value := by
    rw [value_one]
    linarith
  rw [← value_one]
  exact nearest_le bound

omit [Arithmetic] in
/-- Ten thousand has no decimal right below it. -/
theorem value_le_of_lt_tenThousand {a : Decimal} (less : a.value < 10000) : a.value ≤ 10000 - 1 / 10 ^ 24 := by
  rcases le_or_gt a.scale 24 with short | long
  · -- up to 24 places the next lower decimal is a whole unit of the last place away
    have unit := pow_ten_pos a.scale
    rw [value_eq, div_lt_iff₀ unit] at less
    have whole : a.coefficient < 10000 * 10 ^ a.scale := by exact_mod_cast less
    have next : (a.coefficient : ℚ) + 1 ≤ 10000 * 10 ^ a.scale := by exact_mod_cast whole
    have last : (1 : ℚ) / 10 ^ 24 ≤ 1 / 10 ^ a.scale := by
      apply one_div_le_one_div_of_le unit
      exact pow_le_pow_right₀ (by norm_num) short
    calc a.value = ((a.coefficient : ℚ) + 1) / 10 ^ a.scale - 1 / 10 ^ a.scale := by
          rw [value_eq]
          ring
      _ ≤ 10000 * 10 ^ a.scale / 10 ^ a.scale - 1 / 10 ^ a.scale := by gcongr
      _ = 10000 - 1 / 10 ^ a.scale := by rw [mul_div_cancel_right₀ _ unit.ne']
      _ ≤ 10000 - 1 / 10 ^ 24 := sub_le_sub_left last _
  · -- with more places the mantissa has no room for a value near the bound
    have bounded : a.coefficient ≤ (2 : ℤ) ^ 96 := by
      have fits := a.mantissa_lt
      rw [twoTo_eq_pow, ← coefficient_natAbs] at fits
      zify at fits
      exact (le_abs_self _).trans fits.le
    have most : (a.coefficient : ℚ) ≤ 2 ^ 96 := by exact_mod_cast bounded
    have places : (10 : ℚ) ^ 25 ≤ 10 ^ a.scale := pow_le_pow_right₀ (by norm_num) long
    calc a.value = (a.coefficient : ℚ) / 10 ^ a.scale := value_eq a
      _ ≤ 2 ^ 96 / 10 ^ a.scale := by gcongr
      _ ≤ 2 ^ 96 / 10 ^ 25 := by gcongr
      _ ≤ 10000 - 1 / 10 ^ 24 := by norm_num

omit [Arithmetic] in
/-- Less than the whole, as far as decimals tell them apart. -/
theorem rate_lt_one (less : bps.value < 10000) : rate bps < 1 := by
  have fits : 10 ^ 28 - 1 < twoTo 96 := by decide
  have most : (Decimal.mk false (10 ^ 28 - 1) 28 fits le_rfl).value = 1 - 1 / 10 ^ 28 := by
    rw [value_eq_signed]
    norm_num
  have near : bps.value / 10000 ≤ (Decimal.mk false (10 ^ 28 - 1) 28 fits le_rfl).value := by
    have bound := value_le_of_lt_tenThousand less
    rw [most]
    linarith
  calc rate bps ≤ 1 - 1 / 10 ^ 28 := most ▸ nearest_le near
    _ < 1 := by norm_num

theorem toRate_value (rounds : Arithmetic.Rounds) {x : Decimal} (done : toRate bps = .ok x) :
    x.value = rate bps := by
  have unit : tenThousand.value = 10000 := value_ofWord 10000
  rw [rounds.div (by rw [unit]; norm_num) done, unit, rate]

theorem toRate_exact (exact : Arithmetic.Exact) {x : Decimal} (done : toRate bps = .ok x) :
    x.value = bps.value / 10000 := by
  have unit : tenThousand.value = 10000 := value_ofWord 10000
  rw [exact.div (by rw [unit]; norm_num) done, unit]

theorem below_value (rounds : Arithmetic.Rounds) (done : below price bps = .ok shifted) :
    shifted.value = nearest (price.value * nearest (1 - rate bps)) := by
  simp only [below, Checked.bind_ok] at done
  obtain ⟨x, rated, factor, subtracted, multiplied⟩ := done
  rw [rounds.mul multiplied, rounds.sub subtracted, toRate_value rounds rated, value_one]

theorem above_value (rounds : Arithmetic.Rounds) (done : above price bps = .ok shifted) :
    shifted.value = nearest (price.value * nearest (1 + rate bps)) := by
  simp only [above, Checked.bind_ok] at done
  obtain ⟨x, rated, factor, added, multiplied⟩ := done
  rw [rounds.mul multiplied, rounds.add added, toRate_value rounds rated, value_one]

/-! Where sums and products are exact, only the rate itself may be a rounded one. -/

variable {r : ℚ}

theorem below_exact (exact : Arithmetic.ExactSums) (products : Arithmetic.ExactProducts)
    (rate : ∀ {x}, toRate bps = .ok x → x.value = r) (done : below price bps = .ok shifted) :
    shifted.value = price.value * (1 - r) := by
  simp only [below, Checked.bind_ok] at done
  obtain ⟨x, rated, factor, subtracted, multiplied⟩ := done
  rw [products multiplied, exact.sub subtracted, rate rated, value_one]

theorem above_exact (exact : Arithmetic.ExactSums) (products : Arithmetic.ExactProducts)
    (rate : ∀ {x}, toRate bps = .ok x → x.value = r) (done : above price bps = .ok shifted) :
    shifted.value = price.value * (1 + r) := by
  simp only [above, Checked.bind_ok] at done
  obtain ⟨x, rated, factor, added, multiplied⟩ := done
  rw [products multiplied, exact.add added, rate rated, value_one]

end BasisPoints

/-! ### Fresh quotes -/

namespace Parameters

open BasisPoints

variable [Arithmetic] {p : Parameters} {quotes : MarketQuotes} {side : Side} {price : Decimal}

/-- The price of a quote before it is made a multiple of the tick. -/
def rawPrice (p : Parameters) (quotes : MarketQuotes) : Side → Checked Decimal
  | .buy => do return min (← BasisPoints.below quotes.takerSell p.spread) quotes.makerBuy
  | .sell => do return max (← BasisPoints.above quotes.takerBuy p.spread) quotes.makerSell

theorem targetPrice_eq (p : Parameters) (quotes : MarketQuotes) (side : Side) :
    p.targetPrice quotes side = (p.rawPrice quotes side >>= fun raw =>
      match side with
      | .buy => Tick.down raw p.maker.tickSize
      | .sell => Tick.up raw p.maker.tickSize) := by
  cases side <;> simp [targetPrice, targetBid, targetAsk, rawPrice]

/-- Without a tick the limit of a hedge is the shifted price. -/
theorem protectivePrice_stepless {executable : Decimal} (stepless : p.taker.tickSize ≤ 0) :
    p.protectivePrice executable side = match side with
      | .buy => above executable p.slippageBuffer
      | .sell => below executable p.slippageBuffer := by
  cases side with
  | buy =>
    simp only [protectivePrice, Tick.up, Tick.roundWith, if_pos stepless]
    exact bind_pure _
  | sell =>
    simp only [protectivePrice, Tick.down, Tick.roundWith, if_pos stepless]
    exact bind_pure _

/-- The division by the tick does not round this side's price. -/
def Unrounded (p : Parameters) (quotes : MarketQuotes) (side : Side) : Prop :=
  ∀ raw, p.rawPrice quotes side = .ok raw → Tick.Divides raw p.maker.tickSize

instance (p : Parameters) (quotes : MarketQuotes) (side : Side) :
    Decidable (p.Unrounded quotes side) :=
  decidable_of_iff ((p.rawPrice quotes side).toOption.all
    (fun raw => decide (Tick.Divides raw p.maker.tickSize)) = true) <| by
    rw [Unrounded, Checked.toOption_all]
    simp

/-- A bid is at most the taker's price less the wider spread. That price is positive with the bid,
so the narrower spread leaves more of it. -/
theorem targetBid_le_threshold (rounds : Arithmetic.Rounds) (valid : p.Valid)
    (unrounded : p.Unrounded quotes .buy) (target : p.targetPrice quotes .buy = .ok price)
    (positive : 0 < price.value) {threshold : Decimal}
    (bound : p.threshold quotes .buy = .ok threshold) : price.value ≤ threshold.value := by
  rw [targetPrice_eq, Checked.bind_ok] at target
  obtain ⟨raw, computed, stepped⟩ := target
  have atMost := Tick.down_le rounds (unrounded raw computed) stepped
  simp only [rawPrice, Checked.bind_ok, Checked.pure_ok] at computed
  obtain ⟨shifted, wide, rfl⟩ := computed
  have below : price.value ≤ shifted.value := by
    rw [value_min] at atMost
    exact atMost.trans (min_le_left _ _)
  rw [below_value rounds wide] at below
  rw [below_value rounds bound]
  have narrower : nearest (1 - rate p.spread) ≤ nearest (1 - rate p.minSpread) :=
    nearest_mono (sub_le_sub_left (rate_mono valid.spreads.le) 1)
  have factor : 0 ≤ nearest (1 - rate p.spread) :=
    nearest_nonneg (sub_nonneg.2 (rate_le_one valid.spread.le))
  have base : 0 ≤ quotes.takerSell.value := by
    by_contra negative
    have product := mul_nonpos_of_nonpos_of_nonneg (not_le.1 negative).le factor
    linarith [nearest_nonpos product]
  exact below.trans (nearest_mono (mul_le_mul_of_nonneg_left narrower base))

/-- Under a price of the taker that is not positive the threshold is not positive either. -/
theorem threshold_le_targetAsk (rounds : Arithmetic.Rounds) (valid : p.Valid)
    (unrounded : p.Unrounded quotes .sell) (target : p.targetPrice quotes .sell = .ok price)
    (positive : 0 < price.value) {threshold : Decimal}
    (bound : p.threshold quotes .sell = .ok threshold) : threshold.value ≤ price.value := by
  rw [targetPrice_eq, Checked.bind_ok] at target
  obtain ⟨raw, computed, stepped⟩ := target
  have atLeast := Tick.le_up rounds (unrounded raw computed) stepped
  simp only [rawPrice, Checked.bind_ok, Checked.pure_ok] at computed
  obtain ⟨shifted, wide, rfl⟩ := computed
  have above : shifted.value ≤ price.value := by
    rw [value_max] at atLeast
    exact (le_max_left _ _).trans atLeast
  rw [above_value rounds wide] at above
  rw [above_value rounds bound]
  have narrower : nearest (1 + rate p.minSpread) ≤ nearest (1 + rate p.spread) := by
    apply nearest_mono
    gcongr
    exact rate_mono valid.spreads.le
  have factor : 0 ≤ nearest (1 + rate p.minSpread) :=
    nearest_nonneg (add_nonneg zero_le_one (rate_nonneg valid.minSpread))
  rcases le_total 0 quotes.takerBuy.value with base | base
  · exact (nearest_mono (mul_le_mul_of_nonneg_left narrower base)).trans above
  · exact (nearest_nonpos (mul_nonpos_of_nonpos_of_nonneg base factor)).trans positive.le

/-- Neither side's quote is beyond the threshold of the moment at which it is made. -/
theorem target_within (rounds : Arithmetic.Rounds) (valid : p.Valid)
    (unrounded : p.Unrounded quotes side) (target : p.targetPrice quotes side = .ok price)
    (positive : 0 < price.value) {threshold : Decimal}
    (bound : p.threshold quotes side = .ok threshold) :
    Cancellation.isBeyond side price threshold = false := by
  cases side with
  | buy =>
    have order := targetBid_le_threshold rounds valid unrounded target positive bound
    exact decide_eq_false (not_lt_iff_value.2 order)
  | sell =>
    have order := threshold_le_targetAsk rounds valid unrounded target positive bound
    exact decide_eq_false (not_lt_iff_value.2 order)

omit [Arithmetic] in
/-- No order is too old at the moment at which it is placed. -/
theorem Valid.early (valid : p.Valid) (now : Instant) : ¬ p.maxOrderAge < now.since now := by
  rw [Instant.since, sub_self, not_lt]
  exact valid.maxOrderAge.le

omit [Arithmetic] in
/-- At the moment at which a quote is made there is no reason to cancel it. All operations may round, but
for the division of the price by the tick. -/
theorem fresh_quote_stays {config : Config} (configured : config.parameters = .ok p)
    (unrounded : @Unrounded .rounding p quotes side)
    (target : @targetPrice .rounding p quotes side = .ok price) (positive : 0 < price)
    {threshold : Decimal} (bound : @Parameters.threshold .rounding p quotes side = .ok threshold)
    (now : Instant) : @Cancellation.reason? .rounding p quotes now side price now = .ok none := by
  obtain ⟨valid, -⟩ := Config.parameters_valid configured
  have within := @target_within .rounding _ _ _ _ Arithmetic.rounding_rounds valid unrounded target
    (pos_iff_value.1 positive) _ bound
  rw [@Cancellation.reason?.eq_def .rounding, bound]
  change (if Cancellation.isBeyond side price threshold = true then _ else _) = _
  rw [within, if_neg Bool.false_ne_true, if_neg (valid.early now)]
  rfl

/-- Spreads that are nearly the same, and prices of few units of the last place. -/
def minuteConfig : Config :=
  { maker := { venue := "okx", pair := "DOGE-USDT", tickSize := tiny }
    strategy := { minSpreadBps := .of 22 0, spreadBps := .of 22000000000000000000000001 24 } }

def minuteQuotes : MarketQuotes := ⟨.of 124 28, .of 123 28, .of 130 28, .of 120 28⟩

omit [Arithmetic] in
/-- The bid, its threshold and the price of the taker are rounded to the same decimal. -/
theorem fresh_quote_stays_minute : ∃ p price threshold, minuteConfig.parameters = .ok p ∧
    @Unrounded .rounding p minuteQuotes .buy ∧
    @targetPrice .rounding p minuteQuotes .buy = .ok price ∧ 0 < price ∧
    @Parameters.threshold .rounding p minuteQuotes .buy = .ok threshold ∧
    price.value = minuteQuotes.takerSell.value ∧ threshold.value = minuteQuotes.takerSell.value ∧
    @Cancellation.reason? .rounding p minuteQuotes ⟨0⟩ .buy price ⟨0⟩ = .ok none := by
  have works : minuteConfig.parameters.toOption.any (fun p =>
      (@targetPrice .rounding p minuteQuotes .buy).toOption.any fun price =>
        (@Parameters.threshold .rounding p minuteQuotes .buy).toOption.any fun threshold =>
          decide (@Unrounded .rounding p minuteQuotes .buy ∧ 0 < price ∧
            price.value = minuteQuotes.takerSell.value ∧
            threshold.value = minuteQuotes.takerSell.value)) = true := by
    decide +kernel
  obtain ⟨p, configured, works⟩ := Checked.toOption_any works
  obtain ⟨price, target, works⟩ := Checked.toOption_any works
  obtain ⟨threshold, bound, works⟩ := Checked.toOption_any works
  obtain ⟨unrounded, positive, same, same'⟩ := of_decide_eq_true works
  exact ⟨p, price, threshold, configured, unrounded, target, positive, bound, same, same',
    fresh_quote_stays configured unrounded target positive bound ⟨0⟩⟩

end Parameters

/-- Quotes are placed neither stale nor late. -/
structure Rules.Patient (rules : Rules) : Prop where
  fresh : ∀ side price, rules.aim side price → ¬ rules.stale side price rules.now
  early : ¬ rules.late rules.now

theorem Rules.patient_stop : Rules.stop.Patient := ⟨fun _ _ impossible => impossible.elim, id⟩

theorem Rules.patient_tick [Arithmetic] (rounds : Arithmetic.Rounds) {p : Parameters}
    (valid : p.Valid) {quotes : MarketQuotes} {now : Instant} {sides : Side → Prop}
    (unrounded : ∀ side, sides side → p.Unrounded quotes side) :
    (Rules.tick p quotes now sides).Patient := by
  refine ⟨?_, valid.early now⟩
  rintro side price ⟨tried, target, positive⟩ ⟨reason, stale⟩
  have judged : Cancellation.reason? p quotes now side price now = .ok (some reason) := stale
  simp only [Cancellation.reason?, Checked.bind_ok] at judged
  obtain ⟨threshold, bound, judged⟩ := judged
  have within := Parameters.target_within rounds valid (unrounded _ tried) target positive bound
  rw [within, if_neg Bool.false_ne_true, if_neg (valid.early now)] at judged
  cases judged

end MarketMaker
