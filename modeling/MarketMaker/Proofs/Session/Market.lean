import MarketMaker.Proofs.PaperMids
import MarketMaker.Proofs.Venue.Soundness
/-!
What the paper market does to the venues: each gets the time and a book all of whose levels offer
the configured amount.
-/

namespace MarketMaker

/-- Every level of this venue offers the same amount. -/
def SimulatedVenue.Uniform (v : SimulatedVenue) (amount : Decimal) : Prop :=
  ∀ ⦃pair book⦄, v.bookOf pair = .ok book → ∀ level ∈ book.bids ++ book.asks, level.amount = amount

namespace SimulatedVenue

variable {v w : SimulatedVenue} {amount : Decimal}

theorem Uniform.congr (uniform : v.Uniform amount) (same : w.books = v.books) :
    w.Uniform amount := by
  intro pair book found
  rw [bookOf, same] at found
  exact uniform found

theorem Uniform.fair (uniform : v.Uniform amount) (positive : 0 ≤ amount) : v.FairBooks :=
  fun _ _ found level member => uniform found level member ▸ positive

variable [Arithmetic]

/-- A uniform venue that executes anything offers a positive amount. -/
theorem Uniform.amount_pos (rounds : Arithmetic.Rounds) (uniform : v.Uniform amount) {pair : Pair}
    {side : Side} {size price : Decimal} (positive : 0 < size.value)
    (done : v.executablePrice pair side size = .ok (.ok price)) : 0 < amount.value := by
  cases found : v.bookOf pair with
  | error e =>
    rw [executablePrice, found] at done
    cases done
  | ok book =>
    obtain ⟨level, member, some'⟩ := executablePrice_pos rounds positive found done
    exact uniform found level member ▸ some'

theorem Uniform.fair_of_executable (rounds : Arithmetic.Rounds) (uniform : v.Uniform amount)
    {pair : Pair} {side : Side} {size price : Decimal} (positive : 0 < size.value)
    (done : v.executablePrice pair side size = .ok (.ok price)) : v.FairBooks :=
  uniform.fair (Decimal.nonneg_iff_value.2 (uniform.amount_pos rounds positive done).le)

theorem Uniform.setBook (uniform : v.Uniform amount) {book : OrderBook} {fills : List Fill}
    (same : ∀ level ∈ book.bids ++ book.asks, level.amount = amount)
    (done : v.setBook book = .ok (fills, w)) : w.Uniform amount := by
  obtain ⟨ids, filled⟩ := setBook_ok done
  refine fillAll_preserves (fun v => v.Uniform amount)
    (fun uniform done => uniform.congr (fillResting_books done)) ?_ filled
  intro pair other found
  rcases bookOf_put found with rfl | old
  · exact same
  · exact uniform old

end SimulatedVenue

namespace PaperMarket

variable [Arithmetic] {m m' : PaperMarket} {now : Instant}

theorem buildSide_amount {shift : Decimal → Decimal → Checked Decimal} {mid tickSize : Decimal}
    {levels : List Level} (done : m.buildSide shift mid tickSize = .ok levels) :
    ∀ level ∈ levels, level.amount = m.config.levelAmount := by
  intro level member
  obtain ⟨i, -, built⟩ := Checked.mapM_ok done level member
  simp only [Checked.bind_ok, Checked.pure_ok] at built
  obtain ⟨offset, -, price, -, rounded, -, rfl⟩ := built
  rfl

theorem buildBook_amount {pair : Pair} {mid tickSize : Decimal} {book : OrderBook}
    (done : m.buildBook pair mid tickSize now = .ok book) :
    ∀ level ∈ book.bids ++ book.asks, level.amount = m.config.levelAmount := by
  simp only [buildBook, Checked.bind_ok, Checked.pure_ok] at done
  obtain ⟨bids, below, asks, above, rfl⟩ := done
  intro level member
  rcases List.mem_append.1 member with bid | ask
  · exact buildSide_amount below level bid
  · exact buildSide_amount above level ask

/-- The venues after a step: both have the time and a new book. -/
theorem step_ok {venues next : SimulatedVenue × SimulatedVenue} {fills : List Fill}
    (done : m.step now venues = .ok (fills, m', next)) :
    m'.config = m.config ∧ ∃ takerBook makerBook takerFills makerFills,
      (∀ level ∈ takerBook.bids ++ takerBook.asks, level.amount = m.config.levelAmount) ∧
      (∀ level ∈ makerBook.bids ++ makerBook.asks, level.amount = m.config.levelAmount) ∧
      { venues.2 with clock := now }.setBook takerBook = .ok (takerFills, next.2) ∧
      { venues.1 with clock := now }.setBook makerBook = .ok (makerFills, next.1) := by
  simp only [step, Checked.bind_ok, Checked.pure_ok, Prod.exists, Prod.mk.injEq] at done
  obtain ⟨mids, m'', advanced, takerBook, built, takerFills, taker, takes, makerBook, built',
    makerFills, maker, makes, -, rfl, rfl⟩ := done
  have config := nextMids_config advanced
  exact ⟨config, takerBook, makerBook, takerFills, makerFills, config ▸ buildBook_amount built,
    config ▸ buildBook_amount built', takes, makes⟩

end PaperMarket

end MarketMaker
