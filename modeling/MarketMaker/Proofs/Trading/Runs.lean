import MarketMaker.Proofs.Trading.Agreement
/-!
Runs of a trading engine. After every run the quote book agrees with the maker's venue, and a fill
of a quote is recognised whenever it arrives, unless its order was cancelled or too many orders were
released after it.
-/

namespace MarketMaker

open Decimal RestingOrder

/-- A new book offers no negative amounts. -/
def Action.Fair : Action → Prop
  | .setBook book => book.Fair
  | _ => True

instance : (action : Action) → Decidable action.Fair
  | .setBook book => inferInstanceAs (Decidable book.Fair)
  | .tick _ | .stop | .fillResting .. | .deliver _ | .setClock _ | .setFaults .. | .changeTaker _ =>
    .isTrue trivial

namespace Trading

variable [Arithmetic] {s t : Trading} {action : Action}

theorem handle_consistent (exact : Arithmetic.ExactSums) (consistent : s.front.Consistent)
    {index : Nat} {fill : Fill} {outcome : HedgeOutcome}
    (found : s.maker.outbox[index]? = some fill)
    (done : s.handle index fill = .ok (outcome, t)) :
    t.front.Consistent ∧ t.maker.books = s.maker.books ∧
      (outcome = .ignored → fill.orderId ∉ s.book.ids) := by
  simp only [handle, Checked.bind_ok, Checked.pure_ok, Prod.exists, Prod.mk.injEq] at done
  obtain ⟨outcome', engine, maker, taker, led, rfl, rfl⟩ := done
  obtain ⟨-, answer, settled, cases'⟩ := Engine.onFill_cases led
  obtain ⟨after, recognised⟩ := consistent.deliver exact found settled
  rcases cases' with ⟨rfl, -, same⟩ | ⟨-, _, _, _, rfl, same⟩ | ⟨-, _, _, rfl, same, -⟩
  · obtain ⟨rfl, rfl⟩ := Prod.mk.inj same
    exact ⟨after, rfl, fun _ => recognised rfl⟩
  · obtain ⟨rfl, rfl⟩ := Prod.mk.inj same
    exact ⟨after, rfl, fun impossible => by cases impossible⟩
  · obtain ⟨rfl, rfl⟩ := Prod.mk.inj same
    exact ⟨after, rfl, fun impossible => by cases impossible⟩

theorem perform_consistent (exact : Arithmetic.ExactSums)
    (consistent : s.front.Consistent ∧ s.maker.FairBooks) (fair : action.Fair)
    (done : s.perform action = .ok t) : t.front.Consistent ∧ t.maker.FairBooks := by
  cases action with
  | tick now =>
    simp only [perform, Checked.bind_ok, Checked.pure_ok, Prod.exists] at done
    obtain ⟨report, engine, maker, taker, led, rfl⟩ := done
    obtain ⟨-, -, moved⟩ :=
      Engine.onTick_moves s.journal consistent.1.healthy.sound consistent.1.sided led
    rcases moved with ⟨-, same, rfl, journal⟩ | ⟨quotes, -, -, moves⟩
    · obtain ⟨rfl, rfl⟩ := Prod.mk.inj same
      rw [journal]
      exact consistent
    · exact moves_preserve (Front.Consistent.move exact) moves consistent
  | stop =>
    simp only [perform, Checked.bind_ok, Checked.pure_ok, Prod.exists] at done
    obtain ⟨count, engine, maker, taker, led, rfl⟩ := done
    obtain ⟨-, -, moves⟩ := Engine.onStop_moves s.journal led
    exact moves_preserve (Front.Consistent.move exact) moves consistent
  | setBook book =>
    simp only [perform, Checked.bind_ok, Checked.pure_ok, Prod.exists] at done
    obtain ⟨fills, maker, set', rfl⟩ := done
    obtain ⟨ids, filled⟩ := SimulatedVenue.setBook_ok set'
    refine SimulatedVenue.fillAll_preserves
      (fun v => Front.Consistent ⟨v, s.book, s.journal⟩ ∧ v.FairBooks) ?_ ?_ filled
    · rintro v w id reply ⟨before, fair⟩ fills
      exact ⟨before.fillResting exact fills, fair.congr (SimulatedVenue.fillResting_books fills)⟩
    · refine ⟨consistent.1.congr rfl rfl rfl rfl rfl, fun pair other found => ?_⟩
      rcases SimulatedVenue.bookOf_put found with rfl | old
      · exact fair
      · exact consistent.2 old
  | fillResting id amount =>
    simp only [perform, Checked.bind_ok, Checked.pure_ok, Prod.exists] at done
    obtain ⟨fill, maker, filled, rfl⟩ := done
    exact ⟨consistent.1.fillResting exact filled,
      consistent.2.congr (SimulatedVenue.fillResting_books filled)⟩
  | deliver index =>
    rw [perform] at done
    split at done
    next =>
      cases done
      exact consistent
    next fill found =>
      simp only [Checked.bind_ok, Checked.pure_ok, Prod.exists] at done
      obtain ⟨outcome, u, handled, rfl⟩ := done
      obtain ⟨after, books, -⟩ := handle_consistent exact consistent.1 found handled
      exact ⟨after, consistent.2.congr books⟩
  | setClock clock =>
    cases done
    exact ⟨consistent.1.congr rfl rfl rfl rfl rfl, consistent.2.congr rfl⟩
  | setFaults rejections rejectsCancels =>
    cases done
    exact ⟨consistent.1.congr rfl rfl rfl rfl rfl, consistent.2.congr rfl⟩
  | changeTaker taker =>
    cases done
    exact consistent

theorem run_consistent (exact : Arithmetic.ExactSums) {p : Parameters}
    {maker taker : SimulatedVenue} {actions : List Action} (reached : maker.Reached)
    (books : maker.FairBooks) (fair : ∀ action ∈ actions, action.Fair)
    (ran : (start p maker taker).run actions = .ok s) : s.front.Consistent := by
  have begins : (start p maker taker).front.Consistent := .start reached.healthy
  exact (run_preserves (fun s => s.front.Consistent ∧ s.maker.FairBooks) (perform_consistent exact)
    ⟨begins, books⟩ fair ran).1

/-- The quote book and the maker's venue agree. -/
structure Agrees (s : Trading) : Prop where
  /-- At most one order of the engine rests on a side. -/
  single : ∀ side,
    (s.maker.resting.filter fun order => (side, order.id) ∈ s.journal.placed).length ≤ 1
  /-- It is the one that is tracked. -/
  resting : ∀ side, ∀ order ∈ s.maker.resting, (side, order.id) ∈ s.journal.placed →
    ∃ tracked, s.book.tracked side = some tracked ∧ tracked.id = order.id
  /-- What is expected of a tracked order rests or is under way. -/
  tracked : ∀ side order, s.book.tracked side = some order → order.remaining.value =
    quantityOf s.maker.resting order.id + (Fill.amountsOf s.maker.outbox order.id).sum
  /-- What is expected of a released order is under way. -/
  released : ∀ order ∈ s.book.released,
    order.remaining.value = (Fill.amountsOf s.maker.outbox order.id).sum

omit [Arithmetic] in
theorem agrees_of_consistent (consistent : s.front.Consistent) : s.Agrees := by
  have resting : ∀ side, ∀ order ∈ s.maker.resting, (side, order.id) ∈ s.journal.placed →
      ∃ tracked, s.book.tracked side = some tracked ∧ tracked.id = order.id := by
    intro side order member placed
    have positive := consistent.healthy.sound.positive order member
    rw [← quantityOf_of_mem consistent.healthy.sound.distinct member] at positive
    exact QuoteBook.isTracked_iff.1 (consistent.tracked _ placed positive)
  refine ⟨?_, resting, ?_, ?_⟩
  · intro side
    by_contra several
    match listed : s.maker.resting.filter fun order => (side, order.id) ∈ s.journal.placed with
    | [] => simp [listed] at several
    | [_] => simp [listed] at several
    | first :: second :: rest =>
      have member : ∀ order ∈ first :: second :: rest,
          order ∈ s.maker.resting ∧ (side, order.id) ∈ s.journal.placed := by
        intro order inList
        rw [← listed] at inList
        simpa using inList
      obtain ⟨a, found, sameId⟩ := resting side first (member first (by simp)).1 (member first (by simp)).2
      obtain ⟨b, found', sameId'⟩ :=
        resting side second (member second (by simp)).1 (member second (by simp)).2
      have one : a = b := Option.some.inj (found.symm.trans found')
      have distinct := consistent.healthy.sound.distinct.sublist
        ((List.filter_sublist (p := fun order : RestingOrder =>
          decide ((side, order.id) ∈ s.journal.placed))).map RestingOrder.id)
      rw [show s.front.venue.resting = s.maker.resting from rfl, listed] at distinct
      simp [← sameId, ← sameId', one] at distinct
  · intro side order found
    exact consistent.owed order (QuoteBook.mem_known.2 (.inl ⟨side, found⟩))
  · intro order member
    have owed := consistent.owed order (QuoteBook.mem_known.2 (.inr member))
    rw [SimulatedVenue.owed, consistent.gone order member, zero_add] at owed
    exact owed

/-! ### A sample -/

def samplePair : Pair := ⟨"DOGE", "USDT"⟩

def sampleTime (n : Nat) : Instant := ⟨Span.ofSeconds n⟩

def sampleParameters (amount : Decimal) : Parameters where
  maker := ⟨"okx", samplePair, 0, 0⟩
  taker := ⟨"binance", samplePair, 0, 0⟩
  orderAmount := amount
  spread := .of 32 0
  minSpread := .of 22 0
  slippageBuffer := .of 2 0
  maxOrderAge := Span.ofSeconds 30
  makerFee := 0
  takerFee := 0
  minOrderAmount := 0
  haltOnUnhedgedFill := false

/-- One bid and one ask, each for the given amount. -/
def sampleBook (bid ask amount : Decimal) : OrderBook :=
  ⟨samplePair, sampleTime 0, [⟨bid, amount⟩], [⟨ask, amount⟩]⟩

def sampleVenue (id : String) (funds : Decimal) : SimulatedVenue :=
  ((SimulatedVenue.new id 0 (sampleTime 0)).setBalance "DOGE" funds).setBalance "USDT" funds

theorem sampleVenue_reached (id : String) (funds : Decimal) : (sampleVenue id funds).Reached :=
  ((SimulatedVenue.Reached.new id 0 (sampleTime 0)).setBalance "DOGE" funds).setBalance "USDT" funds

omit [Arithmetic] in
theorem sampleVenue_books (id : String) (funds : Decimal) : (sampleVenue id funds).FairBooks := by
  intro pair book found
  cases found

/-- The maker has no book yet. -/
def sample (amount funds : Decimal) (takerBook : OrderBook) : Trading :=
  start (sampleParameters amount) (sampleVenue "okx" funds)
    { sampleVenue "binance" funds with books := [(samplePair, takerBook)] }

/-- Quotes for ten against a deep taker. -/
def deepSample : Trading :=
  sample (.of 10 0) (.of 100000 0) (sampleBook (.of 100 0) (.of 101 0) (.of 1000 0))

/-- Both quotes rest, and a part of the bid is filled. -/
def partFill : List Action :=
  [.setBook (sampleBook (.of 80 0) (.of 110 0) (.of 1000 0)), .tick (sampleTime 0),
    .fillResting "okx-1" (some (.of 4 0))]

/-- The best ask is for a negative amount. -/
def unfairBook : OrderBook :=
  ⟨samplePair, sampleTime 0, [⟨.of 80 0, .of 1000 0⟩], [⟨.of 90 0, -.of 5 0⟩, ⟨.of 100 0, .of 1000 0⟩]⟩

/-! ### The quote book and the venue -/

/-- In every order of events, what the engine still expects of its quotes is what is still to come
of them. -/
theorem quoteBook_agrees (exact : Arithmetic.ExactSums) {p : Parameters}
    {maker taker : SimulatedVenue} {actions : List Action} (reached : maker.Reached)
    (books : maker.FairBooks) (fair : ∀ action ∈ actions, action.Fair)
    (ran : (start p maker taker).run actions = .ok s) : s.Agrees :=
  agrees_of_consistent (run_consistent exact reached books fair ran)

omit [Arithmetic] in
theorem agrees_partFill : ∃ s, @run .strict deepSample partFill = .ok s ∧ s.Agrees ∧
    s.maker.outbox.map Fill.amount = [.of 4 0] := by
  have works : (@run .strict deepSample partFill).toOption.any
      (fun s => s.maker.outbox.map Fill.amount = [.of 4 0]) = true := by decide +kernel
  obtain ⟨s, ran, fills⟩ := Checked.toOption_any works
  refine ⟨s, ran, ?_, of_decide_eq_true fills⟩
  exact @quoteBook_agrees .strict s Arithmetic.strict_exact _ _ _ partFill
    (@sampleVenue_reached .strict _ _) (sampleVenue_books _ _) (by decide +kernel) ran

omit [Arithmetic] in
/-- A level of a negative amount is taken as well: more rests than was ordered. -/
theorem not_agrees_unfairBook : ∃ s,
    @run .strict deepSample [.setBook unfairBook, .tick (sampleTime 0)] = .ok s ∧ ¬ s.Agrees := by
  have wrong : (@run .strict deepSample [.setBook unfairBook, .tick (sampleTime 0)]).toOption.any
      (fun s => (s.book.tracked .buy).any fun order => decide (order.remaining.value ≠
        quantityOf s.maker.resting order.id + (Fill.amountsOf s.maker.outbox order.id).sum)) =
      true := by decide +kernel
  obtain ⟨s, ran, wrong⟩ := Checked.toOption_any wrong
  obtain ⟨order, found, differs⟩ := (Option.any_eq_true _ _).1 wrong
  exact ⟨s, ran, fun agrees => of_decide_eq_true differs (agrees.tracked .buy order found)⟩

/-! ### Late fills -/

/-- No fill of a quote is lost, however late it arrives, unless its order was cancelled or left the
list of released ones. -/
theorem fill_recognised (exact : Arithmetic.ExactSums) {p : Parameters}
    {maker taker : SimulatedVenue} {actions : List Action} (reached : maker.Reached)
    (books : maker.FairBooks) (fair : ∀ action ∈ actions, action.Fair)
    (ran : (start p maker taker).run actions = .ok s) {index : Nat} {fill : Fill}
    {outcome : HedgeOutcome} (found : s.maker.outbox[index]? = some fill)
    (delivered : s.handle index fill = .ok (outcome, t)) {side : Side}
    (placed : (side, fill.orderId) ∈ s.journal.placed)
    (live : fill.orderId ∉ s.journal.cancelled) (remembered : ¬ s.journal.Evicted fill.orderId) :
    outcome ≠ .ignored := by
  have consistent := run_consistent exact reached books fair ran
  obtain ⟨-, -, ignored⟩ := handle_consistent exact consistent found delivered
  have moving : Fill.amountsOf s.maker.outbox fill.orderId ≠ [] := by
    rw [ne_eq, Fill.amountsOf_eq_nil]
    exact fun none => none fill (List.mem_of_getElem? found) rfl
  intro unknown
  rcases consistent.recognised _ placed moving with known | cancelled | evicted
  · exact ignored unknown known
  · exact live cancelled
  · exact remembered evicted

omit [Arithmetic] in
theorem recognised_partFill : ∃ s fill outcome t, @run .strict deepSample partFill = .ok s ∧
    s.maker.outbox[0]? = some fill ∧ @handle .strict s 0 fill = .ok (outcome, t) ∧
    outcome ≠ .ignored := by
  have works : (@run .strict deepSample partFill).toOption.any (fun s =>
      s.maker.outbox[0]?.any fun fill => (@handle .strict s 0 fill).toOption.any fun _ =>
        decide ((Side.buy, fill.orderId) ∈ s.journal.placed ∧
          s.journal.cancelled = [] ∧ s.journal.released = [])) = true := by decide +kernel
  obtain ⟨s, ran, works⟩ := Checked.toOption_any works
  obtain ⟨fill, found, works⟩ := (Option.any_eq_true _ _).1 works
  obtain ⟨⟨outcome, t⟩, delivered, works⟩ := Checked.toOption_any works
  obtain ⟨placed, cancelled, released⟩ := of_decide_eq_true works
  refine ⟨s, fill, outcome, t, ran, found, delivered, ?_⟩
  refine @fill_recognised .strict s t Arithmetic.strict_exact _ _ _ partFill
    (@sampleVenue_reached .strict _ _) (sampleVenue_books _ _) (by decide +kernel) ran _ _ _ found
    delivered .buy placed ?_ ?_
  · simp [cancelled]
  · intro given
    obtain ⟨earlier, later, split, -⟩ := given
    simp [released] at split

/-- After these actions the first fill under way is one of a quote, and it is ignored. -/
def Loses (s : Trading) (actions : List Action) : Prop :=
  ∃ t fill side u, s.run actions = .ok t ∧ t.maker.outbox[0]? = some fill ∧
    (side, fill.orderId) ∈ t.journal.placed ∧ t.handle 0 fill = .ok (.ignored, u)

theorem loses_of_any {actions : List Action}
    (found : (s.run actions).toOption.any (fun t => t.maker.outbox[0]?.any fun fill =>
      (t.handle 0 fill).toOption.any fun answer => decide (answer.1 = .ignored) &&
        decide ((Side.buy, fill.orderId) ∈ t.journal.placed)) = true) : s.Loses actions := by
  obtain ⟨t, ran, found⟩ := Checked.toOption_any found
  obtain ⟨fill, first, found⟩ := (Option.any_eq_true _ _).1 found
  obtain ⟨⟨outcome, u⟩, handled, found⟩ := Checked.toOption_any found
  obtain ⟨ignored, placed⟩ := Bool.and_eq_true_iff.1 found
  obtain rfl := of_decide_eq_true ignored
  exact ⟨t, fill, .buy, u, ran, first, of_decide_eq_true placed, handled⟩

/-- A part of the bid is filled, and then the rest of it is cancelled for its age. -/
def cancelledRun : List Action := partFill ++ [.tick (sampleTime 31)]

/-- Every other tick the bid executes at once; in between it is released for its age. -/
def evictedRun : List Action :=
  .setBook (sampleBook (.of 80 0) (.of 90 0) (.of 1000 0)) ::
    (List.range 18).map fun k => .tick (sampleTime (31 * k))

/-- As much as was ordered is filled, and still a part rests. -/
def unfairRun : List Action :=
  [.setBook unfairBook, .tick (sampleTime 0), .fillResting "okx-1" (some (.of 10 0)), .deliver 0,
    .fillResting "okx-1" none]

def vast : Decimal := .of (10 ^ 28) 0

/-- A part is filled that is too small to change what remains of a vast amount. -/
def vastRun : List Action :=
  [.setBook (sampleBook (.of 9 1) (.of 11 1) vast), .tick (sampleTime 0),
    .fillResting "okx-1" (some (.of 4 1)), .fillResting "okx-1" none, .deliver 1]

omit [Arithmetic] in
/-- Fills of cancelled and of forgotten orders are lost; a negative amount in a book and a rounded
sum can lose a fill as well. -/
theorem fills_lost : @Loses .strict deepSample cancelledRun ∧
    @Loses .strict deepSample evictedRun ∧ @Loses .strict deepSample unfairRun ∧
    @Loses .rounding
      (sample vast (.of (5 * 10 ^ 28) 0) (sampleBook (.of 1 0) (.of 101 2) vast)) vastRun := by
  refine ⟨@loses_of_any .strict _ _ ?_, @loses_of_any .strict _ _ ?_, @loses_of_any .strict _ _ ?_,
    @loses_of_any .rounding _ _ ?_⟩
  all_goals decide +kernel

end Trading

end MarketMaker
