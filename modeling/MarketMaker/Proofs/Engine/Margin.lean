import MarketMaker.Proofs.Engine.Earnings
import MarketMaker.Proofs.Engine.Passive
/-!
The margin of a quote. A quote keeps the spread from the average price of the order size on the taker;
a part of that size has no worse an average, and its hedge gives up the slippage buffer at most. So
where the spread pays for the buffer and both fees, no hedge in an unchanged market makes a loss.
-/

namespace MarketMaker

open Decimal

/-- The maker's fee is a proper rate. -/
theorem Config.parameters_makerFee {config : Config} {p : Parameters}
    (done : config.parameters = .ok p) : 0 ≤ p.makerFee.value ∧ p.makerFee.value < 1 := by
  simp only [parameters, Checked.bind_ok] at done
  obtain ⟨_, valid, maker, -, taker, -, done⟩ := done
  split at done
  next age spans =>
    simp only [Checked.bind_ok, Checked.pure_ok] at done
    obtain ⟨_, rfl, rfl⟩ := done
    have fee : 0 ≤ config.strategy.makerFee ∧ config.strategy.makerFee < 1 :=
      holds_of_validate (e := .makerFee) valid (by simp [rules, strategyRules])
    refine ⟨nonneg_iff_value.1 fee.1, ?_⟩
    rw [← value_one]
    exact lt_iff_value.1 fee.2
  next => cases done

/-- The price at which the taker would execute the hedge of a quote of this side. -/
def MarketQuotes.takerPrice (quotes : MarketQuotes) : Side → Decimal
  | .buy => quotes.takerSell
  | .sell => quotes.takerBuy

namespace Parameters

variable {p : Parameters} {side : Side}

/-- The spread pays for the slippage buffer and both fees. -/
def Margin (p : Parameters) : Side → Prop
  | .buy => (1 - p.spread.value / 10000) * (1 + p.makerFee.value) ≤
      (1 - p.slippageBuffer.value / 10000) * (1 - p.takerFee.value)
  | .sell => (1 + p.slippageBuffer.value / 10000) * (1 + p.takerFee.value) ≤
      (1 + p.spread.value / 10000) * (1 - p.makerFee.value)

instance (p : Parameters) : (side : Side) → Decidable (p.Margin side)
  | .buy | .sell => inferInstanceAs (Decidable ((_ : ℚ) ≤ _))

/-- With that margin a unit that is filled at the spread from a price, or better, and hedged from that
price, or better, makes no loss. -/
theorem Margin.covers (margin : p.Margin side)
    (buffer : 0 ≤ p.slippageBuffer.value ∧ p.slippageBuffer.value < 10000)
    (makerFee : 0 ≤ p.makerFee.value ∧ p.makerFee.value < 1)
    (takerFee : 0 ≤ p.takerFee.value ∧ p.takerFee.value < 1) {base filled hedged : ℚ}
    (positive : 0 < base)
    (quote : side.signed filled ≤ side.signed (base * (1 - side.signed (p.spread.value / 10000))))
    (hedge : side.opposite.signed hedged ≤ side.opposite.signed base) :
    0 ≤ side.cash p.makerFee.value filled + side.opposite.cash p.takerFee.value
      (hedged * (1 - side.signed (p.slippageBuffer.value / 10000))) := by
  obtain ⟨bufferNonneg, bufferLess⟩ := buffer
  have kept : 0 ≤ 1 - p.slippageBuffer.value / 10000 := by
    rw [sub_nonneg, div_le_one (by norm_num)]
    exact bufferLess.le
  have given : 0 ≤ 1 + p.slippageBuffer.value / 10000 := by positivity
  cases side with
  | buy =>
    simp only [Side.signed, Side.opposite, neg_le_neg_iff] at quote hedge
    have pays : filled * (1 + p.makerFee.value) ≤ hedged *
        (1 - p.slippageBuffer.value / 10000) * (1 - p.takerFee.value) :=
      calc filled * (1 + p.makerFee.value)
          ≤ base * (1 - p.spread.value / 10000) * (1 + p.makerFee.value) :=
            mul_le_mul_of_nonneg_right quote (by linarith)
        _ = base * ((1 - p.spread.value / 10000) * (1 + p.makerFee.value)) := by ring
        _ ≤ base * ((1 - p.slippageBuffer.value / 10000) * (1 - p.takerFee.value)) :=
            mul_le_mul_of_nonneg_left margin positive.le
        _ ≤ hedged * ((1 - p.slippageBuffer.value / 10000) * (1 - p.takerFee.value)) :=
            mul_le_mul_of_nonneg_right hedge (mul_nonneg kept (by linarith))
        _ = hedged * (1 - p.slippageBuffer.value / 10000) * (1 - p.takerFee.value) := by ring
    simp only [Side.cash, Side.signed, Side.opposite]
    linarith
  | sell =>
    simp only [Side.signed, Side.opposite, neg_le_neg_iff, sub_neg_eq_add] at quote hedge
    have pays : hedged * (1 + p.slippageBuffer.value / 10000) * (1 + p.takerFee.value) ≤
        filled * (1 - p.makerFee.value) :=
      calc hedged * (1 + p.slippageBuffer.value / 10000) * (1 + p.takerFee.value)
          = hedged * ((1 + p.slippageBuffer.value / 10000) * (1 + p.takerFee.value)) := by ring
        _ ≤ base * ((1 + p.slippageBuffer.value / 10000) * (1 + p.takerFee.value)) :=
            mul_le_mul_of_nonneg_right hedge (mul_nonneg given (by linarith))
        _ ≤ base * ((1 + p.spread.value / 10000) * (1 - p.makerFee.value)) :=
            mul_le_mul_of_nonneg_left margin positive.le
        _ = base * (1 + p.spread.value / 10000) * (1 - p.makerFee.value) := by ring
        _ ≤ filled * (1 - p.makerFee.value) :=
            mul_le_mul_of_nonneg_right quote (by linarith)
    simp only [Side.cash, Side.signed, Side.opposite, sub_neg_eq_add]
    linarith

variable [Arithmetic] {quotes : MarketQuotes} {executable price : Decimal}

theorem spreadPrice_eq (exact : Arithmetic.Exact) {shifted : Decimal}
    (done : p.spreadPrice quotes side = .ok shifted) : shifted.value =
      (quotes.takerPrice side).value * (1 - side.signed (p.spread.value / 10000)) := by
  cases side with
  | buy =>
    exact BasisPoints.below_exact exact.sums exact.products (BasisPoints.toRate_exact exact) done
  | sell =>
    rw [Side.signed, sub_neg_eq_add]
    exact BasisPoints.above_exact exact.sums exact.products (BasisPoints.toRate_exact exact) done

theorem protectivePrice_eq (exact : Arithmetic.Exact) (stepless : p.taker.tickSize ≤ 0)
    (done : p.protectivePrice executable side.opposite = .ok price) :
    price.value = executable.value * (1 - side.signed (p.slippageBuffer.value / 10000)) := by
  rw [protectivePrice_exact exact.sums exact.products (BasisPoints.toRate_exact exact) stepless done]
  cases side <;> simp [Side.signed, Side.opposite, sub_eq_add_neg]

/-- A quote keeps the spread from the taker's price, or more. -/
theorem targetPrice_keeps (exact : Arithmetic.Exact)
    (target : p.targetPrice quotes side = .ok price) : side.signed price.value ≤ side.signed
      ((quotes.takerPrice side).value * (1 - side.signed (p.spread.value / 10000))) := by
  have unrounded : p.Unrounded quotes side := by
    intro raw _
    by_cases stepless : p.maker.tickSize ≤ 0
    · exact .inl stepless
    · rw [not_nonpos_iff_value] at stepless
      exact .inr fun steps divided => exact.div stepless.ne' divided
  obtain ⟨raw, computed, le⟩ := targetPrice_le exact.rounds unrounded target
  obtain ⟨shifted, moved, bounded⟩ := rawPrice_ok computed
  rw [← spreadPrice_eq exact moved]
  exact (le.trans_eq bounded).trans (min_le_left _ _)

end Parameters

namespace Engine

open Act Session SimulatedVenue

variable [Arithmetic] {world next before after : Venues} {e e' : Engine} {fill : Fill}
  {record : HedgeRecord} {quotes : MarketQuotes} {price : Decimal} {book : OrderBook}

/-- Where the spread pays for the slippage buffer and both fees, a fill of a quote, at its price or
better, is hedged without a loss as long as the taker's book is what it was when the quote was priced. -/
theorem profit_nonneg (exact : Arithmetic.Exact) {config : Config}
    (configured : config.parameters = .ok e.params) (stepless : e.params.taker.tickSize ≤ 0)
    (found : before.2.bookOf e.params.taker.pair = .ok book) (positive : book.Positive)
    (sorted : book.Sorted)
    (fetched : Leads (MarketQuotes.fetch desk e.params).run before (.ok quotes) after)
    (target : e.params.targetPrice quotes fill.side = .ok price)
    (sized : 0 < fill.amount ∧ fill.amount ≤ e.params.orderAmount)
    (better : fill.side.signed fill.price.value ≤ fill.side.signed price.value)
    (margin : e.params.Margin fill.side)
    (unchanged : world.2.bookOf e.params.taker.pair = .ok book)
    (handled : Leads (e.onFill desk fill) world (.hedged record, e') next) :
    0 ≤ record.profit := by
  obtain ⟨taker, -, sent⟩ := onFill_sent handled
  obtain ⟨executable, asked, protects⟩ := sent.limit
  obtain ⟨buffer, takerFee⟩ := Config.parameters_rates configured
  have makerFee := Config.parameters_makerFee configured
  have some' := pos_iff_value.1 sized.1
  have ordered := some'.trans_le (le_iff_value.1 sized.2)
  have quoted : before.2.executablePrice e.params.taker.pair fill.side.opposite
      e.params.orderAmount = .ok (.ok (quotes.takerPrice fill.side)) := by
    obtain ⟨takerBuy, takerSell, -, -⟩ := leads_fetch fetched
    cases fill.side with
    | buy => exact takerSell
    | sell => exact takerBuy
  obtain ⟨deep, average⟩ := executablePrice_ok exact.rounds exact.sums exact.products found
    positive.fair ordered quoted
  obtain ⟨-, average'⟩ := executablePrice_ok exact.rounds exact.sums exact.products unchanged
    positive.fair some' asked
  have base : 0 < (quotes.takerPrice fill.side).value :=
    average ▸ Level.average_pos positive.fair.facing positive.facing ordered deep
  -- the hedge is of a part of the order size, so its average is no worse
  have part : fill.side.opposite.signed executable.value ≤
      fill.side.opposite.signed (quotes.takerPrice fill.side).value := by
    rw [average, average']
    exact Level.average_signed_mono positive.fair.facing sorted.facing some'
      (le_iff_value.1 sized.2) deep
  have unit := margin.covers buffer makerFee takerFee base
    (better.trans (Parameters.targetPrice_keeps exact target)) part
  have hedged : 0 < record.hedgeAmount.value := by
    rcases placeOrder_cases sent.placed with ⟨_, _, impossible, -⟩ | ⟨_, _, _, -, positive, -⟩
    · cases impossible
    · exact positive
  rw [nonneg_iff_value, potentialProfit_eq exact sent.profit,
    Parameters.protectivePrice_eq exact stepless protects]
  exact mul_nonneg hedged.le unit

omit [Arithmetic] in
/-- The whole of a bid at its target price, hedged over both levels of the sloped bids. -/
theorem profit_nonneg_sloped : ∃ p quotes after record e' next,
    feeConfig.parameters = .ok p ∧ p.Margin .buy ∧
    Leads (@MarketQuotes.fetch _ (@desk .faithful) p).run
      (bookedVenues (.of 1 3) (.of 10000 0) wideBook slopedBook) (.ok quotes) after ∧
    @Parameters.targetPrice .faithful p quotes .buy = .ok (.of 99181600 6) ∧
    Leads (@onFill _ .faithful (@desk .faithful) (bidFill (.of 99181600 6) (.of 10 0))
        (tracking p .buy (.of 99181600 6) (.of 10 0)))
      (bookedVenues (.of 1 3) (.of 10000 0) wideBook slopedBook) (.hedged record, e') next ∧
    0 ≤ record.profit := by
  have works : feeConfig.parameters.toOption.any (fun p =>
      decide (p.Margin .buy ∧ p.taker.tickSize ≤ 0 ∧ p.taker.pair = tenPair ∧
        .of 10 0 ≤ p.orderAmount) &&
      ((@MarketQuotes.fetch _ (@desk .faithful) p).run.run
        (bookedVenues (.of 1 3) (.of 10000 0) wideBook slopedBook)).toOption.any fun answered =>
          answered.1.toOption.any fun quotes =>
            decide (@Parameters.targetPrice .faithful p quotes .buy = .ok (.of 99181600 6)) &&
            ((@onFill _ .faithful (@desk .faithful) (bidFill (.of 99181600 6) (.of 10 0))
              (tracking p .buy (.of 99181600 6) (.of 10 0))).run
                (bookedVenues (.of 1 3) (.of 10000 0) wideBook slopedBook)).toOption.any
              fun handled => handled.1.1.record?.isSome) = true := by
    decide +kernel
  obtain ⟨p, configured, works⟩ := Checked.toOption_any works
  obtain ⟨given, works⟩ := Bool.and_eq_true_iff.1 works
  obtain ⟨margin, stepless, pair, ordered⟩ := of_decide_eq_true given
  obtain ⟨⟨reply, after⟩, fetched, works⟩ := Checked.toOption_any works
  obtain ⟨quotes, rfl, works⟩ := Checked.toOption_any works
  obtain ⟨target, works⟩ := Bool.and_eq_true_iff.1 works
  obtain ⟨⟨⟨outcome, e'⟩, next⟩, handled, works⟩ := Checked.toOption_any works
  obtain ⟨record, hedged⟩ := Option.isSome_iff_exists.1 works
  obtain rfl := HedgeOutcome.record?_eq_some.1 hedged
  have found : (bookedVenues (.of 1 3) (.of 10000 0) wideBook slopedBook).2.bookOf p.taker.pair =
      .ok slopedBook := by
    rw [pair]
    rfl
  refine ⟨p, quotes, after, record, e', next, configured, margin, fetched,
    of_decide_eq_true target, handled, ?_⟩
  exact @profit_nonneg .faithful _ next
    (bookedVenues (.of 1 3) (.of 10000 0) wideBook slopedBook) after
    (tracking p .buy (.of 99181600 6) (.of 10 0)) e' (bidFill (.of 99181600 6) (.of 10 0)) record
    quotes _ slopedBook Arithmetic.faithful_exact feeConfig configured stepless found (by decide)
    (by decide) fetched (of_decide_eq_true target) ⟨by decide, ordered⟩ le_rfl margin found handled

end Engine

end MarketMaker
