import MarketMaker.Proofs.Engine.Submission
/-!
Quotes that wait. A quote executes nothing when it is placed unless its price reaches the best level on
the other side of the maker's book. The bound that the target price takes from the maker does not keep
it from there: it is the average price of the order size, which is never better than that level.
-/

namespace MarketMaker

open Decimal

/-! ### Prices that reach the best level -/

namespace OrderBook

variable {book : OrderBook} {side : Side} {a b : Decimal}

theorem crosses_iff : book.crosses side a = true ↔
    ∃ level, (book.facing side).head? = some level ∧
      side.signed level.price.value ≤ side.signed a.value := by
  simp only [crosses_eq, Option.any_eq_true, Level.isWithin_iff]

/-- An order that pays more reaches what one that pays less reaches. -/
theorem crosses_mono (le : side.signed a.value ≤ side.signed b.value)
    (crossed : book.crosses side a = true) : book.crosses side b = true := by
  obtain ⟨level, best, reached⟩ := crosses_iff.1 crossed
  exact crosses_iff.2 ⟨level, best, reached.trans le⟩

end OrderBook

/-- The price at which the maker executes the order size. -/
def MarketQuotes.makerPrice (quotes : MarketQuotes) : Side → Decimal
  | .buy => quotes.makerBuy
  | .sell => quotes.makerSell

namespace Parameters

variable [Arithmetic] {p : Parameters} {quotes : MarketQuotes} {side : Side} {raw price : Decimal}

/-- The taker's price moved by the spread, before the maker's price bounds it. -/
def spreadPrice (p : Parameters) (quotes : MarketQuotes) : Side → Checked Decimal
  | .buy => BasisPoints.below quotes.takerSell p.spread
  | .sell => BasisPoints.above quotes.takerBuy p.spread

/-- The lower bid and the higher ask of the two prices. -/
theorem rawPrice_ok (done : p.rawPrice quotes side = .ok raw) :
    ∃ shifted, p.spreadPrice quotes side = .ok shifted ∧
      side.signed raw.value =
        min (side.signed shifted.value) (side.signed (quotes.makerPrice side).value) := by
  cases side with
  | buy =>
    simp only [rawPrice, Checked.bind_ok, Checked.pure_ok] at done
    obtain ⟨shifted, moved, rfl⟩ := done
    exact ⟨shifted, moved, by simp [Side.signed, value_min, MarketQuotes.makerPrice]⟩
  | sell =>
    simp only [rawPrice, Checked.bind_ok, Checked.pure_ok] at done
    obtain ⟨shifted, moved, rfl⟩ := done
    refine ⟨shifted, moved, ?_⟩
    simp only [Side.signed, value_max, MarketQuotes.makerPrice]
    exact (min_neg_neg _ _).symm

/-- The tick moves a quote away from the other side, unless the division by it was rounded. -/
theorem targetPrice_le (rounds : Arithmetic.Rounds) (unrounded : p.Unrounded quotes side)
    (target : p.targetPrice quotes side = .ok price) :
    ∃ raw, p.rawPrice quotes side = .ok raw ∧ side.signed price.value ≤ side.signed raw.value := by
  rw [targetPrice_eq, Checked.bind_ok] at target
  obtain ⟨raw, computed, stepped⟩ := target
  refine ⟨raw, computed, ?_⟩
  cases side with
  | buy =>
    simpa [Side.signed] using Tick.down_le rounds (unrounded raw computed) stepped
  | sell =>
    simpa [Side.signed] using Tick.le_up rounds (unrounded raw computed) stepped

theorem targetPrice_stepless (stepless : p.maker.tickSize ≤ 0) :
    p.targetPrice quotes side = p.rawPrice quotes side := by
  rw [targetPrice_eq]
  cases side with
  | buy =>
    simp only [Tick.down, Tick.roundWith, if_pos stepless]
    exact bind_pure _
  | sell =>
    simp only [Tick.up, Tick.roundWith, if_pos stepless]
    exact bind_pure _

end Parameters

/-! ### The log of the placed quotes -/

/-- What the engine placed was logged at a price it aimed at, and executed nothing at once unless that
price crosses the book. -/
structure Front.Logs (f : Front) (pair : Pair) (rules : Rules) (book : OrderBook) : Prop where
  sound : f.venue.Sound
  found : f.venue.bookOf pair = .ok book
  logged : ∀ side id, (side, id) ∈ f.journal.placed → ∃ entry, f.venue.logged? id = some entry ∧
    entry.side = side ∧ rules.aim side entry.price ∧
    (entry.executed.value = 0 ↔ book.crosses side entry.price = false)

theorem Move.logs [Arithmetic] (rounds : Arithmetic.Rounds) {pair : Pair} {rules : Rules}
    {book : OrderBook} {f g : Front} (positive : book.Positive) (move : Move pair rules f g)
    (logs : f.Logs pair rules book) : g.Logs pair rules book := by
  obtain ⟨sound, later⟩ := move.venue_sound logs.sound
  have found : g.venue.bookOf pair = .ok book :=
    (SimulatedVenue.bookOf_congr move.venue_books pair).trans logs.found
  have still : ∀ side id, (side, id) ∈ f.journal.placed → ∃ entry,
      g.venue.logged? id = some entry ∧ entry.side = side ∧ rules.aim side entry.price ∧
      (entry.executed.value = 0 ↔ book.crosses side entry.price = false) := by
    intro side id placed
    obtain ⟨entry, known, facts⟩ := logs.logged side id placed
    exact ⟨entry, SimulatedVenue.logged_mono logs.sound sound later known, facts⟩
  refine ⟨sound, found, ?_⟩
  cases move with
  | @place v w quotes j aside amount price new idle aimed accepted =>
    intro side id placed
    rcases List.mem_append.1 placed with earlier | last
    · exact still side id earlier
    · obtain ⟨rfl, rfl⟩ := Prod.mk.inj (List.mem_singleton.1 last)
      obtain ⟨given, t, some', given', terms, entered, -⟩ :=
        SimulatedVenue.placeOrder_entered logs.sound accepted
      obtain rfl := Except.ok.inj (logs.found.symm.trans given')
      obtain ⟨executed, -, -⟩ := SimulatedVenue.terms_limit terms
      exact ⟨_, entered, rfl, aimed,
        OrderBook.execute_eq_zero_iff rounds positive some' executed⟩
  | refuse n => exact still
  | cancel tracked listed stale done => exact still
  | release tracked gone late => exact still
  | orphan unknown listed stale done => exact still

namespace Engine

open Act Session

variable [Arithmetic] {world next : Venues} {e e' : Engine} {now : Instant} {report : TickReport}
  {quotes : MarketQuotes} {side : Side} {id : OrderId} {price amount : Decimal} {book : OrderBook}

/-- A quote that a tick placed is logged at its target price, and it executed something at once if that
price crosses the maker's book, and only then. -/
theorem onTick_logged (rounds : Arithmetic.Rounds) (sound : world.1.Sound) (sided : e.book.Sided)
    (found : world.1.bookOf e.params.maker.pair = .ok book) (positive : book.Positive)
    (ticked : Leads (e.onTick desk now) world (report, e') next)
    (quoted : report.quotes = some quotes)
    (placed : (side, .placed id price amount) ∈ report.placements) :
    e.params.targetPrice quotes side = .ok price ∧
      ∃ entry, next.1.logged? id = some entry ∧ entry.side = side ∧ entry.price = price ∧
        (entry.executed.value = 0 ↔ book.crosses side price = false) := by
  obtain ⟨u, v, -, attempted⟩ := onTick_attempted ticked quoted placed
  have target : e.params.targetPrice quotes side = .ok price := by
    rcases Quoting.attempt_cases attempted with
      ⟨-, unplaced⟩ | ⟨_, _, reply, _, target, -, -, -, answer⟩
    · cases unplaced _ rfl
    · cases reply with
      | error error => cases answer
      | ok given =>
        cases answer
        exact target
  refine ⟨target, ?_⟩
  obtain ⟨-, -, ⟨none, -⟩ | ⟨fresh, same, -, moves⟩⟩ := onTick_moves .empty sound sided ticked
  · cases quoted.symm.trans none
  · obtain rfl := Option.some.inj (quoted.symm.trans same)
    have logs := moves_preserve (fun move logs => Move.logs rounds positive move logs) moves
      ⟨sound, found, by simp [Journal.empty]⟩
    have listed : (side, id) ∈ (Journal.empty.tick report).placed :=
      List.mem_filterMap.2 ⟨(side, .placed id price amount), placed, rfl⟩
    obtain ⟨entry, known, same, ⟨-, aimed, -⟩, executed⟩ := logs.logged side id listed
    obtain rfl := Except.ok.inj (target.symm.trans aimed)
    exact ⟨entry, known, same, rfl, executed⟩

/-- A quote executes nothing when it is placed as long as the taker's price, moved by the spread, does
not cross the maker's book and the division by the tick is not rounded. Without a tick and without
rounding that is also necessary: the maker's own price is an average, which always crosses the book. -/
theorem placed_quote_waits (rounds : Arithmetic.Rounds) {config : Config}
    (configured : config.parameters = .ok e.params) (reached : world.1.Reached)
    (sided : e.book.Sided) (found : world.1.bookOf e.params.maker.pair = .ok book)
    (positive : book.Positive) (sorted : book.Sorted)
    (ticked : Leads (e.onTick desk now) world (report, e') next)
    (quoted : report.quotes = some quotes)
    (placed : (side, .placed id price amount) ∈ report.placements) :
    ∃ entry shifted, next.1.logged? id = some entry ∧ entry.side = side ∧ entry.price = price ∧
      e.params.spreadPrice quotes side = .ok shifted ∧
      (entry.executed.value = 0 ↔ book.crosses side price = false) ∧
      (e.params.Unrounded quotes side → book.crosses side shifted = false →
        entry.executed.value = 0) ∧
      (Arithmetic.ExactSums → Arithmetic.ExactProducts → e.params.maker.tickSize ≤ 0 →
        (entry.executed.value = 0 ↔ book.crosses side shifted = false)) := by
  have sound := reached.healthy.sound
  obtain ⟨target, entry, known, aside, priced, executed⟩ :=
    onTick_logged rounds sound sided found positive ticked quoted placed
  have computed := target
  rw [Parameters.targetPrice_eq, Checked.bind_ok] at computed
  obtain ⟨raw, computed, -⟩ := computed
  obtain ⟨shifted, moved, bounded⟩ := Parameters.rawPrice_ok computed
  refine ⟨entry, shifted, known, aside, priced, moved, executed, ?_, ?_⟩
  · intro unrounded clear
    obtain ⟨_, computed', below⟩ := Parameters.targetPrice_le rounds unrounded target
    obtain rfl := Except.ok.inj (computed.symm.trans computed')
    rw [executed, ← Bool.not_eq_true]
    intro crossed
    rw [bounded] at below
    have reaches := OrderBook.crosses_mono (below.trans (min_le_left _ _)) crossed
    exact absurd reaches (by simp [clear])
  · intro exact products stepless
    rw [Parameters.targetPrice_stepless stepless] at target
    obtain rfl := Except.ok.inj (computed.symm.trans target)
    have fetched : Leads (MarketQuotes.fetch desk e.params).run world (.ok quotes) world := by
      obtain ⟨-, -, ⟨none, -⟩ | ⟨fresh, same, fetched, -⟩⟩ := onTick_moves .empty sound sided ticked
      · cases quoted.symm.trans none
      · exact Option.some.inj (quoted.symm.trans same) ▸ fetched
    obtain ⟨-, -, makerBuy, makerSell⟩ := leads_fetch fetched
    have asked : world.1.executablePrice e.params.maker.pair side e.params.orderAmount =
        .ok (.ok (quotes.makerPrice side)) := by
      cases side with
      | buy => exact makerBuy
      | sell => exact makerSell
    have ordered := (Config.parameters_valid configured).1.orderAmount
    have average := SimulatedVenue.executablePrice_crosses rounds exact products found positive.fair
      sorted ordered asked
    rw [executed, ← Bool.not_eq_true, ← Bool.not_eq_true, not_iff_not]
    constructor
    · intro crossed
      exact OrderBook.crosses_mono (bounded.trans_le (min_le_left _ _)) crossed
    · -- the best level is reached by both prices, so by the lesser of the two
      intro crossed
      obtain ⟨level, best, reaches⟩ := OrderBook.crosses_iff.1 crossed
      obtain ⟨level', best', reaches'⟩ := OrderBook.crosses_iff.1 average
      obtain rfl := Option.some.inj (best.symm.trans best')
      exact OrderBook.crosses_iff.2 ⟨level, best, bounded ▸ le_min reaches reaches'⟩

/-- A maker whose best ask is below the taker's bids. -/
def cheapBook : OrderBook :=
  ⟨tenPair, ⟨0⟩, [⟨.of 80 0, .of 1000 0⟩], [⟨.of 90 0, .of 1000 0⟩]⟩

omit [Arithmetic] in
/-- A bid far below the maker's asks waits. -/
theorem placed_quote_waits_wide : ∃ p report e next entry, tenConfig.parameters = .ok p ∧
    Leads (@onTick _ .rounding (@desk .rounding) ⟨0⟩ (.new p))
      (bookedVenues 0 (.of 10000 0) wideBook narrowBook) (report, e) next ∧
    (Side.buy, Placement.placed "okx-1" (.of 996800 4) (.of 10 0)) ∈ report.placements ∧
    next.1.logged? "okx-1" = some entry ∧ entry.executed.value = 0 := by
  have works : tenConfig.parameters.toOption.any (fun p =>
      ((@onTick _ .rounding (@desk .rounding) ⟨0⟩ (.new p)).run
        (bookedVenues 0 (.of 10000 0) wideBook narrowBook)).toOption.any fun ticked =>
          ticked.1.1.quotes.any fun quotes => decide (p.maker.pair = tenPair ∧
            (Side.buy, Placement.placed "okx-1" (.of 996800 4) (.of 10 0)) ∈ ticked.1.1.placements ∧
            @Parameters.Unrounded .rounding p quotes .buy ∧
            (@Parameters.spreadPrice .rounding p quotes .buy).toOption.all (fun shifted =>
              ! wideBook.crosses .buy shifted) = true)) = true := by
    decide +kernel
  obtain ⟨p, configured, works⟩ := Checked.toOption_any works
  obtain ⟨⟨⟨report, e⟩, next⟩, ticked, works⟩ := Checked.toOption_any works
  obtain ⟨quotes, quoted, works⟩ := (Option.any_eq_true _ _).1 works
  obtain ⟨pair, placed, unrounded, clear⟩ := of_decide_eq_true works
  have found : (bookedVenues 0 (.of 10000 0) wideBook narrowBook).1.bookOf p.maker.pair =
      .ok wideBook := by
    rw [pair]
    rfl
  obtain ⟨entry, shifted, known, -, -, moved, -, waits, -⟩ :=
    @placed_quote_waits .rounding _ next (.new p) e ⟨0⟩ report quotes .buy "okx-1" _ _ wideBook
      Arithmetic.rounding_rounds tenConfig configured (@bookedVenue_reached .rounding _ _ _ _)
      QuoteBook.sided_empty found (by decide) (by decide) ticked quoted placed
  have apart : wideBook.crosses .buy shifted = false := by
    simpa using Checked.toOption_all.1 clear shifted moved
  exact ⟨p, report, e, next, entry, configured, ticked, placed, known, waits unrounded apart⟩

omit [Arithmetic] in
/-- The maker's asks are bought at their price, and equality is a cross: the bid executes in full. -/
theorem placed_quote_executes_cheap :
    (cheapBook.Positive ∧ cheapBook.Sorted ∧ cheapBook.crosses .buy (.of 80 0) = false) ∧
    (narrowBook.Positive ∧ narrowBook.Sorted ∧ narrowBook.crosses .buy (.of 100 0) = false) ∧
    ∃ p report e next, tenConfig.parameters = .ok p ∧
      Leads (@onTick _ .rounding (@desk .rounding) ⟨0⟩ (.new p))
        (bookedVenues 0 (.of 10000 0) cheapBook narrowBook) (report, e) next ∧
      (Side.buy, Placement.placed "okx-1" (.of 90 0) (.of 10 0)) ∈ report.placements ∧
      (next.1.logged? "okx-1").map OrderEntry.executed = some (.of 10 0) := by
  have works : tenConfig.parameters.toOption.any (fun p =>
      ((@onTick _ .rounding (@desk .rounding) ⟨0⟩ (.new p)).run
        (bookedVenues 0 (.of 10000 0) cheapBook narrowBook)).toOption.any fun ticked =>
          decide ((Side.buy, Placement.placed "okx-1" (.of 90 0) (.of 10 0)) ∈
              ticked.1.1.placements ∧
            (ticked.2.1.logged? "okx-1").map OrderEntry.executed = some (.of 10 0))) = true := by
    decide +kernel
  obtain ⟨p, configured, works⟩ := Checked.toOption_any works
  obtain ⟨⟨⟨report, e⟩, next⟩, ticked, works⟩ := Checked.toOption_any works
  obtain ⟨placed, executed⟩ := of_decide_eq_true works
  exact ⟨by decide, by decide, p, report, e, next, configured, ticked, placed, executed⟩

end Engine

end MarketMaker
