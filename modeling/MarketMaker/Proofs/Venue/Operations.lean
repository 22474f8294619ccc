import MarketMaker.Proofs.Venue.Execution
import MarketMaker.Proofs.Venue.Orders
/-!
What each operation of a venue does: the cases it ends in and the venue it leaves, written out field
by field.
-/

namespace MarketMaker

namespace SimulatedVenue

open Decimal

variable [Arithmetic]
variable {v s v' : SimulatedVenue} {pair : Pair} {side : Side} {type : OrderType}
  {amount price : Decimal} {t : Terms} {id : OrderId}

/-! ### Funds -/

omit [Arithmetic] in
theorem setBalance_ok {asset : String} {balance : Checked Decimal}
    (done : (balance >>= fun a => pure (v.setBalance asset a) : Checked SimulatedVenue) = .ok v') :
    ∃ a, balance = .ok a ∧ v' = v.setBalance asset a := by
  simp only [Checked.bind_ok, Checked.pure_ok] at done
  obtain ⟨a, computed, rfl⟩ := done
  exact ⟨a, computed, rfl⟩

theorem credit_ok {asset : String} (done : v.credit asset amount = .ok v') :
    ∃ sum, (v.free asset).add amount = .ok sum ∧ v' = v.setBalance asset sum :=
  setBalance_ok done

theorem debit_ok {asset : String} (done : v.debit asset amount = .ok v') :
    ∃ rest, (v.free asset).sub amount = .ok rest ∧ v' = v.setBalance asset rest :=
  setBalance_ok done

/-- An order pays its cost and is paid what it executed for, its fee set off against a sale. -/
theorem settle_ok (done : v.settle pair side t = .ok s) :
    ∃ left proceeds sum fees,
      (v.free (pair.spent side)).sub t.cost = .ok left ∧
      (side = .buy → proceeds = t.execution.filled) ∧
      (side = .sell → t.execution.notional.sub t.fee = .ok proceeds) ∧
      ((v.setBalance (pair.spent side) left).free (pair.received side)).add proceeds = .ok sum ∧
      v.totalFees.add t.fee = .ok fees ∧
      s = { (v.setBalance (pair.spent side) left).setBalance (pair.received side) sum with
        totalFees := fees } := by
  cases side with
  | buy =>
    simp only [settle, Checked.bind_ok, Checked.pure_ok] at done
    obtain ⟨a, debited, proceeds, rfl, b, credited, fees, charged, rfl⟩ := done
    obtain ⟨left, subtracted, rfl⟩ := debit_ok debited
    obtain ⟨sum, added, rfl⟩ := credit_ok credited
    exact ⟨left, _, sum, fees, subtracted, fun _ => rfl, by simp, added, charged, rfl⟩
  | sell =>
    simp only [settle, Checked.bind_ok, Checked.pure_ok] at done
    obtain ⟨a, debited, proceeds, earned, b, credited, fees, charged, rfl⟩ := done
    obtain ⟨left, subtracted, rfl⟩ := debit_ok debited
    obtain ⟨sum, added, rfl⟩ := credit_ok credited
    exact ⟨left, proceeds, sum, fees, subtracted, by simp, fun _ => earned, added, charged, rfl⟩

theorem settle_funds (done : v.settle pair side t = .ok s) :
    s = { v with balances := s.balances, totalFees := s.totalFees } := by
  obtain ⟨left, proceeds, sum, fees, -, -, -, -, -, rfl⟩ := settle_ok done
  rfl

/-! ### Placing orders -/

/-- What is left of an accepted order rests. -/
def restOf (order : RestingOrder) : List RestingOrder :=
  if 0 < order.quantity then [order] else []

omit [Arithmetic] in
theorem rest_resting (v : SimulatedVenue) (order : RestingOrder) :
    v.rest order = { v with resting := v.resting ++ restOf order } := by
  by_cases positive : 0 < order.quantity <;> simp [rest, restOf, positive]

/-- The fills that an accepted order reports: one, unless nothing executed. -/
def ReportOf (v : SimulatedVenue) (pair : Pair) (side : Side) (filled : Decimal) :
    List Fill → Prop
  | [] => ¬ 0 < filled
  | [fill] => 0 < filled ∧
    ∃ average, fill = ⟨v.nextId, pair, side, average, filled, v.clock⟩
  | _ => False

omit [Arithmetic] in
theorem reportOf_cases {filled : Decimal} {fills : List Fill}
    (reported : v.ReportOf pair side filled fills) :
    (fills = [] ∧ ¬ 0 < filled) ∨
      ∃ average, 0 < filled ∧ fills = [⟨v.nextId, pair, side, average, filled, v.clock⟩] := by
  rcases fills with _ | ⟨fill, _ | ⟨_, _⟩⟩
  · exact .inl ⟨rfl, reported⟩
  · obtain ⟨positive, average, rfl⟩ := reported
    exact .inr ⟨average, positive, rfl⟩
  · exact reported.elim

/-- The venue after an order was accepted. -/
theorem accept_ok (done : v.accept pair side amount type price t = .ok (id, v')) :
    ∃ s fills trades, v.settle pair side t = .ok s ∧
      ReportOf v pair side t.execution.filled fills ∧ id = v.nextId ∧
      v' = { v with
        balances := s.balances
        totalFees := s.totalFees
        orderCount := v.orderCount + 1
        resting := v.resting ++ restOf ⟨v.nextId, pair, side, price, t.remaining, v.clock⟩
        log := v.log ++ [⟨v.nextId, pair, side, type, amount, price, t.execution.filled⟩]
        tape := v.tape ++ trades
        outbox := v.outbox ++ fills } := by
  rw [accept] at done
  simp only [Checked.bind_ok] at done
  obtain ⟨s, settled, done⟩ := done
  have funds := settle_funds settled
  refine ⟨s, ?_⟩
  split at done
  next executed =>
    simp only [Checked.bind_ok, Checked.pure_ok, Prod.mk.injEq] at done
    obtain ⟨average, -, rfl, rfl⟩ := done
    refine ⟨[⟨v.nextId, pair, side, average, t.execution.filled, v.clock⟩],
      [⟨pair, v.clock, average, t.execution.filled, side, true⟩], settled,
      ⟨executed, average, rfl⟩, rfl, ?_⟩
    rw [funds]
    simp [rest_resting, report]
  next notExecuted =>
    simp only [Checked.pure_ok, Prod.mk.injEq] at done
    obtain ⟨rfl, rfl⟩ := done
    refine ⟨[], [], settled, notExecuted, rfl, ?_⟩
    rw [funds]
    simp [rest_resting]

/-- An order is refused and leaves at most one refusal less to come, or it is accepted on the terms
of its pair's book, which the free balance covers. -/
theorem placeOrder_cases {reply : Except VenueError OrderId}
    (done : v.placeOrder pair side amount type price = .ok (reply, v')) :
    (∃ e n, reply = .error e ∧ v' = { v with rejections := n }) ∨
      ∃ book t id, reply = .ok id ∧ 0 < amount.value ∧ v.bookOf pair = .ok book ∧
        v.terms book side amount type price = .ok t ∧
        t.cost.value ≤ (v.free (pair.spent side)).value ∧
        v.accept pair side amount type price t = .ok (id, v') := by
  rw [placeOrder] at done
  split at done
  · cases done
    exact .inl ⟨_, v.rejections, rfl, rfl⟩
  next some' =>
    split at done
    · cases done
      exact .inl ⟨_, _, rfl, rfl⟩
    · split at done
      · cases done
        exact .inl ⟨_, v.rejections, rfl, rfl⟩
      next book found =>
        simp only [Checked.bind_ok] at done
        obtain ⟨t, terms, done⟩ := done
        split at done
        · cases done
          exact .inl ⟨_, v.rejections, rfl, rfl⟩
        next covered =>
          simp only [Checked.bind_ok, Checked.pure_ok, Prod.exists, Prod.mk.injEq] at done
          obtain ⟨id, w, accepted, rfl, rfl⟩ := done
          have positive : 0 < amount.value := not_nonpos_iff_value.1 some'
          exact .inr ⟨book, t, id, rfl, positive, found, terms, not_lt_iff_value.1 covered, accepted⟩

/-- An order is refused before anything of it is entered. Only an order of a positive amount meets an
injected refusal, which then comes before every other reason. -/
theorem placeOrder_error {e : VenueError}
    (done : v.placeOrder pair side amount type price = .ok (.error e, v')) :
    (0 < amount.value ∧ 0 < v.rejections ∧ e = .rejected .injected ∧
      v' = { v with rejections := v.rejections - 1 }) ∨
    ((amount.value ≤ 0 ∨ v.rejections = 0) ∧ e ≠ .rejected .injected ∧ v' = v) := by
  rw [placeOrder] at done
  split at done
  next nothing =>
    cases done
    exact .inr ⟨.inl (nonpos_iff_value.1 nothing), by simp, rfl⟩
  next some' =>
    split at done
    next injected =>
      cases done
      exact .inl ⟨not_nonpos_iff_value.1 some', injected, rfl, rfl⟩
    next none' =>
      have spent : v.rejections = 0 := Nat.eq_zero_of_not_pos none'
      split at done
      next unknown =>
        cases done
        refine .inr ⟨.inr spent, ?_, rfl⟩
        rintro rfl
        rw [bookOf] at unknown
        split at unknown <;> cases unknown
      next book found =>
        simp only [Checked.bind_ok] at done
        obtain ⟨t, -, done⟩ := done
        split at done
        · cases done
          exact .inr ⟨.inr spent, by simp, rfl⟩
        · simp only [Checked.bind_ok, Checked.pure_ok, Prod.exists, Prod.mk.injEq] at done
          obtain ⟨_, _, -, accepted, -⟩ := done
          cases accepted

theorem placeOrder_books {reply : Except VenueError OrderId}
    (done : v.placeOrder pair side amount type price = .ok (reply, v')) : v'.books = v.books := by
  rcases placeOrder_cases done with ⟨_, n, -, rfl⟩ | ⟨_, t, _, -, -, -, -, -, accepted⟩
  · rfl
  · obtain ⟨s, fills, trades, -, -, -, rfl⟩ := accept_ok accepted
    rfl

/-- An order reports at most one fill. -/
theorem placeOrder_outbox {reply : Except VenueError OrderId}
    (done : v.placeOrder pair side amount type price = .ok (reply, v')) :
    ∃ fills, v'.outbox = v.outbox ++ fills ∧ fills.length ≤ 1 := by
  rcases placeOrder_cases done with ⟨_, n, -, rfl⟩ | ⟨_, t, _, -, -, -, -, -, accepted⟩
  · exact ⟨[], (List.append_nil _).symm, zero_le_one⟩
  · obtain ⟨s, fills, trades, -, reported, -, rfl⟩ := accept_ok accepted
    refine ⟨fills, rfl, ?_⟩
    rcases reportOf_cases reported with ⟨rfl, -⟩ | ⟨average, -, rfl⟩
    · exact zero_le_one
    · exact le_rfl

/-- What is left of an accepted order rests under its new id, as old as the venue's time. -/
theorem placeOrder_resting (done : v.placeOrder pair side amount type price = .ok (.ok id, v')) :
    id = v.nextId ∧ v'.clock = v.clock ∧ ∃ remaining,
      v'.resting = v.resting ++ restOf ⟨v.nextId, pair, side, price, remaining, v.clock⟩ := by
  rcases placeOrder_cases done with ⟨_, _, impossible, -⟩ | ⟨_, t, _, same, -, -, -, -, accepted⟩
  · cases impossible
  · obtain rfl := Except.ok.inj same
    obtain ⟨s, fills, trades, -, -, rfl, rfl⟩ := accept_ok accepted
    exact ⟨rfl, rfl, t.remaining, rfl⟩

/-! ### Cancelling -/

theorem refund_ok {order : RestingOrder} (done : v.refund order = .ok v') :
    ∃ held sum, (order.side = .buy → order.quantity.mul order.price = .ok held) ∧
      (order.side = .sell → held = order.quantity) ∧
      (v.free (order.pair.spent order.side)).add held = .ok sum ∧
      v' = v.setBalance (order.pair.spent order.side) sum := by
  rw [refund] at done
  split at done
  next buy =>
    simp only [Checked.bind_ok] at done
    obtain ⟨held, reserved, credited⟩ := done
    obtain ⟨sum, added, rfl⟩ := credit_ok credited
    exact ⟨held, sum, fun _ => reserved, by simp [buy], added, rfl⟩
  next sell =>
    simp only [Checked.bind_ok, Checked.pure_ok] at done
    obtain ⟨held, rfl, credited⟩ := done
    obtain ⟨sum, added, rfl⟩ := credit_ok credited
    exact ⟨_, sum, by simp [sell], fun _ => rfl, added, rfl⟩

/-- A cancelled order is gone and its funds are free again; a refusal changes nothing. -/
theorem cancelOrder_cases {reply : Except VenueError Unit}
    (done : v.cancelOrder pair id = .ok (reply, v')) :
    (∃ e, reply = .error e ∧ v' = v) ∨
      ∃ order, reply = .ok () ∧ v.find? id = some order ∧ order.pair = pair ∧
        (v.remove id).refund order = .ok v' := by
  rw [cancelOrder] at done
  split at done
  · cases done
    exact .inl ⟨_, rfl, rfl⟩
  · split at done
    · cases done
      exact .inl ⟨_, rfl, rfl⟩
    next order found =>
      split at done
      next same =>
        simp only [Checked.bind_ok, Checked.pure_ok, Prod.mk.injEq] at done
        obtain ⟨w, refunded, rfl, rfl⟩ := done
        exact .inr ⟨order, rfl, found, same, refunded⟩
      · cases done
        exact .inl ⟨_, rfl, rfl⟩

theorem cancelOrder_refused {e : VenueError} (done : v.cancelOrder pair id = .ok (.error e, v')) :
    v' = v := by
  rcases cancelOrder_cases done with ⟨_, -, rfl⟩ | ⟨_, impossible, -⟩
  · rfl
  · cases impossible

/-- Cancellations meet no injected refusal. -/
theorem cancelOrder_error {e : VenueError} (done : v.cancelOrder pair id = .ok (.error e, v')) :
    e ≠ .rejected .injected := by
  rw [cancelOrder] at done
  split at done
  · cases done
    simp
  · split at done
    · cases done
      simp
    · split at done
      · simp only [Checked.bind_ok, Checked.pure_ok, Prod.mk.injEq] at done
        obtain ⟨_, -, cancelled, -⟩ := done
        cases cancelled
      · cases done
        simp

/-- A cancellation changes nothing but the free balances and the resting orders. -/
theorem cancelOrder_frame {reply : Except VenueError Unit}
    (done : v.cancelOrder pair id = .ok (reply, v')) :
    v' = { v with balances := v'.balances, resting := v'.resting } := by
  rcases cancelOrder_cases done with ⟨_, -, rfl⟩ | ⟨order, -, -, -, refunded⟩
  · rfl
  · obtain ⟨held, sum, -, -, -, rfl⟩ := refund_ok refunded
    rfl

theorem cancelOrder_books {reply : Except VenueError Unit}
    (done : v.cancelOrder pair id = .ok (reply, v')) : v'.books = v.books :=
  (congrArg books (cancelOrder_frame done) :)

theorem cancelOrder_clock {reply : Except VenueError Unit}
    (done : v.cancelOrder pair id = .ok (reply, v')) : v'.clock = v.clock :=
  (congrArg clock (cancelOrder_frame done) :)

/-! ### Filling resting orders -/

/-- A bid gets its base and pays the fee, an ask gets its quote less the fee. -/
theorem settleResting_ok {order : RestingOrder} (done : v.settleResting order amount = .ok s) :
    ∃ notional fee fees, amount.mul order.price = .ok notional ∧ notional.mul v.feeRate = .ok fee ∧
      v.totalFees.add fee = .ok fees ∧
      (order.side = .buy → ∃ sum left,
        (v.free order.pair.base).add amount = .ok sum ∧
        ((v.setBalance order.pair.base sum).free order.pair.quote).sub fee = .ok left ∧
        s = { (v.setBalance order.pair.base sum).setBalance order.pair.quote left with
          totalFees := fees }) ∧
      (order.side = .sell → ∃ proceeds sum, notional.sub fee = .ok proceeds ∧
        (v.free order.pair.quote).add proceeds = .ok sum ∧
        s = { v.setBalance order.pair.quote sum with totalFees := fees }) := by
  rw [settleResting] at done
  simp only [Checked.bind_ok] at done
  obtain ⟨notional, costs, fee, charged, done⟩ := done
  split at done
  next buy =>
    simp only [Checked.bind_ok, Checked.pure_ok] at done
    obtain ⟨a, credited, b, debited, fees, counted, rfl⟩ := done
    obtain ⟨sum, added, rfl⟩ := credit_ok credited
    obtain ⟨left, subtracted, rfl⟩ := debit_ok debited
    exact ⟨notional, fee, fees, costs, charged, counted,
      fun _ => ⟨sum, left, added, subtracted, rfl⟩, by simp [buy]⟩
  next sell =>
    simp only [Checked.bind_ok, Checked.pure_ok] at done
    obtain ⟨proceeds, earned, a, credited, fees, counted, rfl⟩ := done
    obtain ⟨sum, added, rfl⟩ := credit_ok credited
    exact ⟨notional, fee, fees, costs, charged, counted, by simp [sell],
      fun _ => ⟨proceeds, sum, earned, added, rfl⟩⟩

theorem settleResting_funds {order : RestingOrder}
    (done : v.settleResting order amount = .ok s) :
    s = { v with balances := s.balances, totalFees := s.totalFees } := by
  obtain ⟨_, _, fees, -, -, -, buys, sells⟩ := settleResting_ok done
  cases side : order.side with
  | buy =>
    obtain ⟨sum, left, -, -, rfl⟩ := buys side
    rfl
  | sell =>
    obtain ⟨_, sum, -, -, rfl⟩ := sells side
    rfl

/-- The resting orders after a fill of one of them. -/
def afterFill (orders : List RestingOrder) (id : OrderId) (remaining : Decimal) :
    List RestingOrder :=
  if 0 < remaining then
    orders.map fun order => if order.id = id then { order with quantity := remaining } else order
  else orders.filter fun order => order.id ≠ id

/-- There is no fill, or one order is filled by at most its quantity and reported. -/
theorem fillResting_cases {requested : Option Decimal} {reply : Option Fill}
    (done : v.fillResting id requested = .ok (reply, v')) :
    (reply = none ∧ v' = v) ∨
      ∃ order amount s remaining trades, v.find? id = some order ∧
        amount = min (requested.getD order.quantity) order.quantity ∧ 0 < amount.value ∧
        v.settleResting order amount = .ok s ∧ order.quantity.sub amount = .ok remaining ∧
        reply = some ⟨id, order.pair, order.side, order.price, amount, v.clock⟩ ∧
        v' = { v with
          balances := s.balances
          totalFees := s.totalFees
          resting := afterFill v.resting id remaining
          tape := v.tape ++ trades
          outbox := v.outbox ++ [⟨id, order.pair, order.side, order.price, amount, v.clock⟩] } := by
  rw [fillResting] at done
  split at done
  · cases done
    exact .inl ⟨rfl, rfl⟩
  next order found =>
    dsimp only at done
    split at done
    · cases done
      exact .inl ⟨rfl, rfl⟩
    next some' =>
      simp only [Checked.bind_ok, Checked.pure_ok, Prod.mk.injEq] at done
      obtain ⟨s, settled, remaining, subtracted, rfl, rfl⟩ := done
      have funds := settleResting_funds settled
      have positive : 0 < (min (requested.getD order.quantity) order.quantity).value :=
        not_nonpos_iff_value.1 some'
      refine .inr ⟨order, _, s, remaining, [⟨order.pair, v.clock, order.price,
        min (requested.getD order.quantity) order.quantity, order.side, false⟩], found, rfl,
        positive, settled, subtracted, ?_, ?_⟩
      · rw [funds]
        split <;> rfl
      · rw [funds]
        by_cases more : 0 < remaining <;> simp [more, afterFill, report, setQuantity, remove]

theorem fillResting_none {requested : Option Decimal}
    (done : v.fillResting id requested = .ok (none, v')) : v' = v := by
  rcases fillResting_cases done with ⟨-, same⟩ | ⟨_, _, _, _, _, -, -, -, -, -, filled, -⟩
  · exact same
  · cases filled

/-- A fill changes nothing but the funds, the resting orders, the tape and the outbox. -/
theorem fillResting_frame {requested : Option Decimal} {reply : Option Fill}
    (done : v.fillResting id requested = .ok (reply, v')) :
    v' = { v with
      balances := v'.balances
      totalFees := v'.totalFees
      resting := v'.resting
      tape := v'.tape
      outbox := v'.outbox } := by
  rcases fillResting_cases done with ⟨-, rfl⟩ | ⟨_, _, s, _, _, -, -, -, -, -, -, rfl⟩ <;> rfl

theorem fillResting_books {requested : Option Decimal} {reply : Option Fill}
    (done : v.fillResting id requested = .ok (reply, v')) : v'.books = v.books :=
  (congrArg books (fillResting_frame done) :)

theorem fillResting_clock {requested : Option Decimal} {reply : Option Fill}
    (done : v.fillResting id requested = .ok (reply, v')) : v'.clock = v.clock :=
  (congrArg clock (fillResting_frame done) :)

theorem fillResting_log {requested : Option Decimal} {reply : Option Fill}
    (done : v.fillResting id requested = .ok (reply, v')) : v'.log = v.log :=
  (congrArg log (fillResting_frame done) :)

theorem fillResting_willing {requested : Option Decimal} {reply : Option Fill}
    (done : v.fillResting id requested = .ok (reply, v')) : v'.rejectsCancels = v.rejectsCancels :=
  (congrArg rejectsCancels (fillResting_frame done) :)

theorem fillAll_cons {ids : List OrderId} {fills : List Fill}
    (done : v.fillAll (id :: ids) = .ok (fills, v')) : ∃ fill u later,
      v.fillResting id none = .ok (fill, u) ∧ u.fillAll ids = .ok (later, v') ∧
        fills = fill.toList ++ later := by
  simp only [fillAll, Checked.bind_ok, Checked.pure_ok, Prod.exists, Prod.mk.injEq] at done
  obtain ⟨fill, u, filled, later, _, others, rfl, rfl⟩ := done
  exact ⟨fill, u, later, filled, others, rfl⟩

/-- What every fill of a resting order preserves, filling several preserves. -/
theorem fillAll_preserves (holds : SimulatedVenue → Prop)
    (step : ∀ {v v' id reply}, holds v → v.fillResting id none = .ok (reply, v') → holds v')
    {ids : List OrderId} {fills : List Fill} (start : holds v)
    (done : v.fillAll ids = .ok (fills, v')) : holds v' := by
  induction ids generalizing v fills with
  | nil =>
    cases done
    exact start
  | cons id ids ih =>
    obtain ⟨fill, w, others, filled, later, -⟩ := fillAll_cons done
    exact ih (step start filled) later

theorem setBook_ok {book : OrderBook} {fills : List Fill}
    (done : v.setBook book = .ok (fills, v')) :
    ∃ ids, { v with books := Table.put book.pair book v.books }.fillAll ids = .ok (fills, v') :=
  ⟨_, done⟩

/-- What no fill changes, a new book does not change, unless it is the books. -/
theorem setBook_keeps {α : Type} (field : SimulatedVenue → α) (bookless : ∀ v books,
      field { v with books } = field v)
    (step : ∀ {v v' id reply}, v.fillResting id none = .ok (reply, v') → field v' = field v)
    {book : OrderBook} {fills : List Fill} (done : v.setBook book = .ok (fills, v')) :
    field v' = field v := by
  obtain ⟨ids, filled⟩ := setBook_ok done
  exact fillAll_preserves (fun w => field w = field v) (fun same done => (step done).trans same)
    (bookless _ _) filled

theorem setBook_clock {book : OrderBook} {fills : List Fill}
    (done : v.setBook book = .ok (fills, v')) : v'.clock = v.clock :=
  setBook_keeps clock (fun _ _ => rfl) fillResting_clock done

theorem setBook_log {book : OrderBook} {fills : List Fill}
    (done : v.setBook book = .ok (fills, v')) : v'.log = v.log :=
  setBook_keeps log (fun _ _ => rfl) fillResting_log done

theorem setBook_willing {book : OrderBook} {fills : List Fill}
    (done : v.setBook book = .ok (fills, v')) : v'.rejectsCancels = v.rejectsCancels :=
  setBook_keeps rejectsCancels (fun _ _ => rfl) fillResting_willing done

end SimulatedVenue

end MarketMaker
