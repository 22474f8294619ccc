import MarketMaker.Proofs.Venue.Funds
/-!
Overdrafts. With prices and amounts above zero and a fee rate below one, nothing that is asked of a
venue overdraws a free balance, except that the fee of a resting bid is due when the bid is filled and
was not set aside before.
-/

namespace MarketMaker

open Decimal RestingOrder

namespace SimulatedVenue

/-- Orders have positive prices, and so have the levels of books. -/
def Operation.Positive : Operation → Prop
  | .place _ _ _ _ price => 0 < price
  | .setBook book => book.Positive
  | _ => True

instance (operation : Operation) : Decidable operation.Positive := by
  unfold Operation.Positive
  cases operation <;> infer_instance

/-- The orders that a new book of their pair fills. -/
def crossedBy (v : SimulatedVenue) (book : OrderBook) : List OrderId :=
  (v.resting.filter fun order =>
    order.pair = book.pair ∧ book.crosses order.side order.price).map RestingOrder.id

section Coverage

variable [Arithmetic]

/-- Whether a fill leaves enough of an asset for its fee, where it is a bid's that is quoted in it. -/
def affords (v : SimulatedVenue) (asset : String) (id : OrderId) (requested : Option Decimal) : Bool :=
  match v.find? id with
  | none => true
  | some order =>
    if order.side = .buy ∧ order.pair.quote = asset then
      let amount := min (requested.getD order.quantity) order.quantity
      let covered : Checked Bool := do
        let fee ← (← amount.mul order.price).mul v.feeRate
        let w ← v.credit order.pair.base amount
        return fee ≤ w.free asset
      covered.toOption.all fun enough => enough
    else true

/-- Whether the fees of several fills are covered, one after the other. -/
def affordsAll (v : SimulatedVenue) (asset : String) : List OrderId → Bool
  | [] => true
  | id :: ids => v.affords asset id none &&
    (v.fillResting id none).toOption.all fun (_, w) => w.affordsAll asset ids

/-- Whether the fees that an operation charges for fills of resting bids are covered. -/
def covers (v : SimulatedVenue) (asset : String) : Operation → Bool
  | .fill id amount => v.affords asset id (some amount)
  | .setBook book =>
    { v with books := Table.put book.pair book v.books }.affordsAll asset (v.crossedBy book)
  | _ => true

/-- Whether the fees are covered in every operation of a run. -/
def coversAll (v : SimulatedVenue) (asset : String) : List Operation → Bool
  | [] => true
  | operation :: operations => v.covers asset operation &&
    (v.perform operation).toOption.all fun (_, w) => w.coversAll asset operations

end Coverage

variable {v w : SimulatedVenue} {pair : Pair} {side : Side} {type : OrderType}
  {amount price : Decimal} {id : OrderId} {asset other : String}

/-! ### Venues without anything negative -/

/-- A venue as it comes about with positive prices and amounts only. -/
structure Solid [Arithmetic] (v : SimulatedVenue) : Prop where
  healthy : v.Healthy
  rate : 0 ≤ v.feeRate.value ∧ v.feeRate.value < 1
  books : ∀ ⦃pair book⦄, v.bookOf pair = .ok book → book.Positive
  prices : ∀ order ∈ v.resting, 0 < order.price.value

variable [Arithmetic]

theorem Solid.quantity (solid : v.Solid) {order : RestingOrder} (member : order ∈ v.resting) :
    0 < order.quantity.value :=
  solid.healthy.sound.positive order member

theorem Solid.of_resting (solid : v.Solid) (healthy : w.Healthy) (rate : w.feeRate = v.feeRate)
    (books : w.books = v.books) (resting : ∀ order ∈ w.resting,
      0 < order.price.value ∨ ∃ before ∈ v.resting, before.price = order.price) : w.Solid where
  healthy := healthy
  rate := rate ▸ solid.rate
  books := by
    intro pair book found
    exact solid.books (bookOf_congr books pair ▸ found)
  prices := by
    intro order member
    rcases resting order member with positive | ⟨before, inOrders, same⟩
    · exact positive
    · exact same ▸ solid.prices before inOrders

theorem solid_placeOrder (solid : v.Solid) (positive : 0 < price.value)
    {reply : Except VenueError OrderId}
    (done : v.placeOrder pair side amount type price = .ok (reply, w)) : w.Solid := by
  refine solid.of_resting (healthy_placeOrder solid.healthy done) ?_ (placeOrder_books done) ?_
  · rcases placeOrder_cases done with ⟨_, n, -, rfl⟩ | ⟨_, t, _, -, -, -, -, -, accepted⟩
    · rfl
    · obtain ⟨s, fills, trades, -, -, -, rfl⟩ := accept_ok accepted
      rfl
  · intro order member
    rcases placeOrder_cases done with ⟨_, n, -, rfl⟩ | ⟨_, t, _, -, -, -, -, -, accepted⟩
    · exact .inr ⟨order, member, rfl⟩
    · obtain ⟨s, fills, trades, -, -, -, rfl⟩ := accept_ok accepted
      rcases List.mem_append.1 member with old | new'
      · exact .inr ⟨order, old, rfl⟩
      · obtain ⟨rfl, -⟩ := mem_restOf.1 new'
        exact .inl positive

theorem solid_cancelOrder (solid : v.Solid) {reply : Except VenueError Unit}
    (done : v.cancelOrder pair id = .ok (reply, w)) : w.Solid := by
  rcases cancelOrder_cases done with ⟨_, -, rfl⟩ | ⟨order, -, -, -, refunded⟩
  · exact solid
  · obtain ⟨held, sum, -, -, -, rfl⟩ := refund_ok refunded
    refine solid.of_resting (healthy_cancelOrder solid.healthy done) rfl rfl ?_
    exact fun order member => .inr ⟨order, (List.mem_filter.1 member).1, rfl⟩

theorem solid_fillResting (solid : v.Solid) {requested : Option Decimal} {reply : Option Fill}
    (done : v.fillResting id requested = .ok (reply, w)) : w.Solid := by
  refine solid.of_resting (healthy_fillResting solid.healthy done) ?_ (fillResting_books done) ?_
  · rcases fillResting_cases done with ⟨-, rfl⟩ | ⟨_, _, s, _, _, -, -, -, -, -, -, rfl⟩ <;> rfl
  · intro order member
    rcases fillResting_cases done with ⟨-, rfl⟩ | ⟨_, _, s, _, _, -, -, -, -, -, -, rfl⟩
    · exact .inr ⟨order, member, rfl⟩
    · obtain ⟨before, inOrders, -, -, -, same, -⟩ := mem_afterFill member
      exact .inr ⟨before, inOrders, same⟩

theorem solid_putBook (solid : v.Solid) {book : OrderBook} (positive : book.Positive) :
    Solid { v with books := Table.put book.pair book v.books } where
  healthy := solid.healthy.congr rfl rfl rfl rfl (List.Subset.refl _)
  rate := solid.rate
  books := by
    intro pair other found
    rcases bookOf_put found with rfl | old
    · exact positive
    · exact solid.books old
  prices := solid.prices

/-! ### Balances stay above zero -/

theorem free_credited_nonneg (rounds : Arithmetic.Rounds) {sum : Decimal}
    (free : 0 ≤ (v.free other).value) (paid : 0 ≤ amount.value)
    (added : (v.free asset).add amount = .ok sum) : 0 ≤ ((v.setBalance asset sum).free other).value := by
  rw [free_setBalance]
  split
  next same =>
    subst same
    exact rounds.signed.add_nonneg added free paid
  next => exact free

theorem free_debited_nonneg (rounds : Arithmetic.Rounds) {rest : Decimal}
    (free : 0 ≤ (v.free other).value) (covered : asset = other → amount.value ≤ (v.free other).value)
    (subtracted : (v.free asset).sub amount = .ok rest) :
    0 ≤ ((v.setBalance asset rest).free other).value := by
  rw [free_setBalance]
  split
  next same =>
    subst same
    rw [rounds.sub subtracted]
    exact nearest_nonneg (sub_nonneg.2 (covered rfl))
  next => exact free

/-- A fee is no more than what it is charged on. -/
theorem earned_nonneg (rounds : Arithmetic.Rounds) {notional rate fee earned : Decimal}
    (nonneg : 0 ≤ notional.value) (low : rate.value < 1) (charged : notional.mul rate = .ok fee)
    (left : notional.sub fee = .ok earned) : 0 ≤ earned.value := by
  have most : fee.value ≤ notional.value := by
    rw [rounds.mul charged]
    exact nearest_le (mul_le_of_le_one_right nonneg low.le)
  rw [rounds.sub left]
  exact nearest_nonneg (sub_nonneg.2 most)

/-- What an accepted order costs was there, and what it brings is not negative. -/
theorem free_placeOrder (rounds : Arithmetic.Rounds) (solid : v.Solid)
    {reply : Except VenueError OrderId}
    (done : v.placeOrder pair side amount type price = .ok (reply, w))
    (free : 0 ≤ (v.free asset).value) : 0 ≤ (w.free asset).value := by
  rcases placeOrder_cases done with
    ⟨_, n, -, rfl⟩ | ⟨book, t, _, -, -, found, terms, covered, accepted⟩
  · exact free
  obtain ⟨executed, -, -, charged, -⟩ := terms_ok terms
  obtain ⟨s, fills, trades, settled, -, -, updated⟩ := accept_ok accepted
  obtain ⟨left, proceeds, sum, fees, subtracted, bought, sold, added, -, paid⟩ := settle_ok settled
  have balances : w.balances =
      ((v.setBalance (pair.spent side) left).setBalance (pair.received side) sum).balances := by
    rw [updated, paid]
  have book' := solid.books found
  have filled : 0 ≤ t.execution.filled.value :=
    OrderBook.execute_nonneg rounds.signed book'.fair executed
  have notional : 0 ≤ t.execution.notional.value :=
    OrderBook.execute_notional_nonneg rounds book'.fair book'.priced executed
  have brought : 0 ≤ proceeds.value := by
    cases side with
    | buy => exact bought rfl ▸ filled
    | sell => exact earned_nonneg rounds notional solid.rate.2 charged (sold rfl)
  rw [free_congr balances]
  apply free_credited_nonneg rounds _ brought added
  exact free_debited_nonneg rounds free (fun same => same ▸ covered) subtracted

/-- What is given back is not negative. -/
theorem free_cancelOrder (rounds : Arithmetic.Rounds) (solid : v.Solid)
    {reply : Except VenueError Unit} (done : v.cancelOrder pair id = .ok (reply, w))
    (free : 0 ≤ (v.free asset).value) : 0 ≤ (w.free asset).value := by
  rcases cancelOrder_cases done with ⟨_, -, rfl⟩ | ⟨order, -, found, -, refunded⟩
  · exact free
  obtain ⟨held, sum, bids, asks, added, rfl⟩ := refund_ok refunded
  have member := (mem_of_lookup found).1
  have quantity := solid.quantity member
  have back : 0 ≤ held.value := by
    cases side : order.side with
    | buy =>
      rw [rounds.mul (bids side)]
      exact nearest_nonneg (mul_nonneg quantity.le (solid.prices order member).le)
    | sell => exact asks side ▸ quantity.le
  exact free_credited_nonneg rounds (v := v.remove id) free back added

theorem affords_fee {requested : Option Decimal} {order : RestingOrder} {notional fee sum : Decimal}
    (covered : v.affords asset id requested = true) (found : v.find? id = some order)
    (side : order.side = .buy) (same : order.pair.quote = asset)
    (costs : (min (requested.getD order.quantity) order.quantity).mul order.price = .ok notional)
    (charged : notional.mul v.feeRate = .ok fee)
    (added : (v.free order.pair.base).add (min (requested.getD order.quantity) order.quantity) = .ok sum) :
    fee.value ≤ ((v.setBalance order.pair.base sum).free asset).value := by
  have credited : v.credit order.pair.base (min (requested.getD order.quantity) order.quantity) =
      .ok (v.setBalance order.pair.base sum) := by
    rw [credit, added]
    rfl
  rw [affords, found] at covered
  simp only [if_pos (And.intro side same), Checked.toOption_all, Checked.bind_ok] at covered
  have enough := covered _ ⟨notional, costs, fee, charged, _, credited, rfl⟩
  exact le_iff_value.1 (of_decide_eq_true enough)

/-- A fill of a bid takes its fee from the free balance, and one of an ask from what it brings. -/
theorem free_fillResting (rounds : Arithmetic.Rounds) (solid : v.Solid)
    {requested : Option Decimal} {reply : Option Fill}
    (covered : v.affords asset id requested = true)
    (done : v.fillResting id requested = .ok (reply, w))
    (free : 0 ≤ (v.free asset).value) : 0 ≤ (w.free asset).value := by
  rcases fillResting_cases done with
    ⟨-, rfl⟩ | ⟨order, amount, s, remaining, tape, found, rfl, positive, settled, -, -, updated⟩
  · exact free
  have balances : w.balances = s.balances := by rw [updated]
  obtain ⟨notional, fee, fees, costs, charged, -, buys, sells⟩ := settleResting_ok settled
  have price := solid.prices order (mem_of_lookup found).1
  have nonneg : 0 ≤ notional.value := by
    rw [rounds.mul costs]
    exact nearest_nonneg (mul_nonneg positive.le price.le)
  rw [free_congr balances]
  cases side : order.side with
  | buy =>
    obtain ⟨sum, paid, added, subtracted, rfl⟩ := buys side
    have credited := free_credited_nonneg rounds free positive.le added
    refine free_debited_nonneg rounds credited (fun same => ?_) subtracted
    exact affords_fee covered found side same costs charged added
  | sell =>
    obtain ⟨proceeds, sum, earned, added, rfl⟩ := sells side
    exact free_credited_nonneg rounds free (earned_nonneg rounds nonneg solid.rate.2 charged earned) added

theorem free_fillAll (rounds : Arithmetic.Rounds) {ids : List OrderId} {fills : List Fill}
    (solid : v.Solid) (covered : v.affordsAll asset ids = true)
    (done : v.fillAll ids = .ok (fills, w)) (free : 0 ≤ (v.free asset).value) :
    w.Solid ∧ 0 ≤ (w.free asset).value := by
  induction ids generalizing v fills with
  | nil =>
    cases done
    exact ⟨solid, free⟩
  | cons id ids ih =>
    obtain ⟨fill, u, others, filled, later, -⟩ := fillAll_cons done
    simp only [affordsAll, Bool.and_eq_true, Checked.toOption_all] at covered
    obtain ⟨first, rest⟩ := covered
    exact ih (solid_fillResting solid filled) (rest _ filled) later
      (free_fillResting rounds solid first filled free)

/-- No operation whose fees are covered overdraws an asset. -/
theorem free_perform (rounds : Arithmetic.Rounds) {operation : Operation}
    {exchanges : List Exchange} (solid : v.Solid) (positive : operation.Positive)
    (covered : v.covers asset operation = true) (done : v.perform operation = .ok (exchanges, w))
    (free : 0 ≤ (v.free asset).value) : w.Solid ∧ 0 ≤ (w.free asset).value := by
  cases operation with
  | place pair side amount type price =>
    obtain ⟨reply, placed, rfl⟩ := perform_place done
    have priced : 0 < price.value := pos_iff_value.1 positive
    have after := And.intro (solid_placeOrder solid priced placed)
      (free_placeOrder rounds solid placed free)
    exact after
  | cancel pair id =>
    obtain ⟨reply, cancelled, rfl⟩ := perform_cancel done
    exact ⟨solid_cancelOrder solid cancelled, free_cancelOrder rounds solid cancelled free⟩
  | fill id amount =>
    obtain ⟨reply, filled, rfl⟩ := perform_fill done
    exact ⟨solid_fillResting solid filled, free_fillResting rounds solid covered filled free⟩
  | setBook book =>
    obtain ⟨fills, set, rfl⟩ := perform_setBook done
    exact free_fillAll rounds (solid_putBook solid positive) covered set free
  | settings clock rejections rejectsCancels =>
    cases done
    have healthy : Healthy { v with clock, rejections, rejectsCancels } :=
      solid.healthy.congr rfl rfl rfl rfl (List.Subset.refl _)
    exact ⟨solid.of_resting healthy rfl rfl fun order member => .inr ⟨order, member, rfl⟩, free⟩

theorem free_run (rounds : Arithmetic.Rounds) {operations : List Operation}
    {exchanges : List Exchange} (solid : v.Solid)
    (positive : ∀ operation ∈ operations, operation.Positive)
    (covered : v.coversAll asset operations = true) (ran : v.run operations = .ok (exchanges, w))
    (free : 0 ≤ (v.free asset).value) : 0 ≤ (w.free asset).value := by
  induction operations generalizing v exchanges with
  | nil =>
    cases ran
    exact free
  | cons operation operations ih =>
    obtain ⟨first, u, later, performed, ran, -⟩ := run_cons ran
    simp only [coversAll, Bool.and_eq_true, Checked.toOption_all] at covered
    obtain ⟨step, rest⟩ := covered
    obtain ⟨here, others⟩ := List.forall_mem_cons.1 positive
    obtain ⟨solid', free'⟩ := free_perform rounds solid here step performed free
    exact ih solid' others (rest _ performed) ran free'

/-! ### New venues -/

omit [Arithmetic] in
theorem free_funded {feeRate : Decimal} {clock : Instant} {deposits : List (String × Decimal)}
    {name : String} (deposited : ∀ deposit ∈ deposits, 0 ≤ deposit.2) (asset : String) :
    0 ≤ ((funded name feeRate clock deposits).free asset).value := by
  have nonneg : ∀ v : SimulatedVenue, 0 ≤ (v.free asset).value → 0 ≤
      ((deposits.foldl (fun v deposit => v.setBalance deposit.1 deposit.2) v).free asset).value := by
    induction deposits with
    | nil => exact fun v free => free
    | cons deposit deposits ih =>
      obtain ⟨here, others⟩ := List.forall_mem_cons.1 deposited
      intro v free
      apply ih others
      rw [free_setBalance]
      split
      next => exact nonneg_iff_value.1 here
      next => exact free
  exact nonneg _ value_zero.ge

theorem solid_funded {feeRate : Decimal} {clock : Instant} {deposits : List (String × Decimal)}
    {name : String} (rate : 0 ≤ feeRate.value ∧ feeRate.value < 1) :
    (funded name feeRate clock deposits).Solid := by
  have healthy := (reached_funded name feeRate clock deposits).healthy
  obtain ⟨balances, start⟩ := funded_eq name feeRate clock deposits
  rw [start] at healthy ⊢
  refine ⟨healthy, rate, ?_, ?_⟩
  · intro pair book found
    cases found
  · intro order member
    cases member

/-- No free balance is ever negative, as long as it covers the fees of the resting bids that are
filled. -/
theorem no_overdraft (rounds : Arithmetic.Rounds) {feeRate : Decimal} {clock : Instant}
    {deposits : List (String × Decimal)} {name : String} {operations : List Operation}
    {exchanges : List Exchange} (rate : 0 ≤ feeRate ∧ feeRate < 1)
    (deposited : ∀ deposit ∈ deposits, 0 ≤ deposit.2)
    (positive : ∀ operation ∈ operations, operation.Positive)
    (ran : (funded name feeRate clock deposits).run operations = .ok (exchanges, v))
    (covered : (funded name feeRate clock deposits).coversAll asset operations = true) :
    0 ≤ v.free asset := by
  have bounds : 0 ≤ feeRate.value ∧ feeRate.value < 1 := by
    refine ⟨nonneg_iff_value.1 rate.1, ?_⟩
    rw [← value_one]
    exact lt_iff_value.1 rate.2
  rw [nonneg_iff_value]
  exact free_run rounds (solid_funded bounds) positive covered ran (free_funded deposited asset)

/-- A bid for one coin at 100 rests until the asks come down to it. -/
def fallOperations : List Operation :=
  let pair : Pair := ⟨"DOGE", "USDT"⟩
  [.setBook ⟨pair, ⟨0⟩, [⟨.of 99 0, .of 5 0⟩], [⟨.of 110 0, .of 5 0⟩]⟩,
    .place pair .buy (.of 1 0) .limit (.of 100 0),
    .setBook ⟨pair, ⟨0⟩, [⟨.of 98 0, .of 5 0⟩], [⟨.of 100 0, .of 5 0⟩]⟩]

omit [Arithmetic] in
theorem no_overdraft_fall : ∃ exchanges v,
    @run .rounding (funded "okx" (.of 1 3) ⟨0⟩ [("USDT", .of 101 0)]) fallOperations =
      .ok (exchanges, v) ∧
    (0 ≤ Decimal.of 1 3 ∧ Decimal.of 1 3 < 1) ∧ v.free "USDT" = .of 900 3 ∧ 0 ≤ v.free "USDT" := by
  have works : (@run .rounding (funded "okx" (.of 1 3) ⟨0⟩ [("USDT", .of 101 0)])
      fallOperations).toOption.any (fun (_, v) => decide (v.free "USDT" = .of 900 3)) = true := by
    decide +kernel
  obtain ⟨⟨exchanges, v⟩, ran, left⟩ := Checked.toOption_any works
  have nonneg := @no_overdraft v "USDT" .rounding Arithmetic.rounding_rounds _ _ _ _ _ _ (by decide) (by decide)
    (by decide) ran (by decide +kernel)
  exact ⟨exchanges, v, ran, by decide, of_decide_eq_true left, nonneg⟩

omit [Arithmetic] in
/-- The whole deposit is set aside for the bid, and the fee of its fill is not there. -/
theorem overdraft_fall : ∃ exchanges v,
    @run .rounding (funded "okx" (.of 1 3) ⟨0⟩ [("USDT", .of 100 0)]) fallOperations =
      .ok (exchanges, v) ∧
    (0 ≤ Decimal.of 1 3 ∧ Decimal.of 1 3 < 1) ∧ (∀ operation ∈ fallOperations, operation.Positive) ∧
    v.free "USDT" < 0 := by
  have works : (@run .rounding (funded "okx" (.of 1 3) ⟨0⟩ [("USDT", .of 100 0)])
      fallOperations).toOption.any (fun (_, v) => decide (v.free "USDT" < 0)) = true := by
    decide +kernel
  obtain ⟨⟨exchanges, v⟩, ran, negative⟩ := Checked.toOption_any works
  exact ⟨exchanges, v, ran, by decide, by decide, of_decide_eq_true negative⟩

end SimulatedVenue

end MarketMaker
