import MarketMaker.Proofs.Completion
import MarketMaker.Proofs.Venue.Reports
/-!
Books that cross resting orders. An order that a new book crosses is filled, all of it and at its own
price; the others keep resting. What the fills pay adds up, so that balances and fees do not depend on
which of the orders is filled first.
-/

namespace MarketMaker

namespace Checked

variable [Arithmetic] {α β : Type} {x : Checked α}

/-- There is a result, and it is as described, unless a sum or a difference on the way has none. -/
def BarringSums (x : Checked α) (holds : α → Prop) : Prop :=
  Gives x holds ∨ ∃ e, x = .error e ∧ ∃ a b : Decimal, a.add b = .error e ∨ a.sub b = .error e

variable {holds : α → Prop} {holds' : β → Prop}

theorem BarringSums.of_ok {r : α} (barring : BarringSums x holds) (done : x = .ok r) : holds r := by
  rcases barring with ⟨_, done', given⟩ | ⟨_, failed, -⟩
  · rw [done] at done'
    exact Except.ok.inj done' ▸ given
  · rw [done] at failed
    cases failed

theorem BarringSums.bind {f : α → Checked β} (first : BarringSums x holds)
    (rest : ∀ r, holds r → BarringSums (f r) holds') : BarringSums (x >>= f) holds' := by
  rcases first with ⟨r, rfl, given⟩ | ⟨e, rfl, failed⟩
  · exact rest r given
  · exact .inr ⟨e, rfl, failed⟩

/-- What holds of every result holds of this one. -/
theorem BarringSums.mono {implied : α → Prop} (barring : BarringSums x holds)
    (implies : ∀ r, x = .ok r → holds r → implied r) : BarringSums x implied :=
  barring.imp_left fun gives => gives.of_ok implies

theorem barring_pure {r : α} (given : holds r) : BarringSums (pure r : Checked α) holds :=
  .inl (gives_pure given)

/-- A computation that fails for want of a sum or a difference only. -/
theorem barring_result (fails : ∀ e, x = .error e →
      ∃ a b : Decimal, a.add b = .error e ∨ a.sub b = .error e) :
    BarringSums x fun r => x = .ok r := by
  cases done : x with
  | ok r => exact .inl ⟨r, rfl, rfl⟩
  | error e => exact .inr ⟨e, rfl, fails e done⟩

theorem barring_add (a b : Decimal) : BarringSums (a.add b) fun sum => a.add b = .ok sum :=
  barring_result fun _ failed => ⟨a, b, .inl failed⟩

theorem barring_sub (a b : Decimal) : BarringSums (a.sub b) fun rest => a.sub b = .ok rest :=
  barring_result fun _ failed => ⟨a, b, .inr failed⟩

end Checked

open Checked Decimal RestingOrder

namespace RestingOrder

/-- The order does not trade at the best price on the other side. -/
def Waits (order : RestingOrder) (best : Decimal) : Prop :=
  match order.side with
  | .buy => order.price < best
  | .sell => best < order.price

/-- The fill of all that rests, at the order's own price. -/
def wholeFill (order : RestingOrder) (time : Instant) : Fill :=
  ⟨order.id, order.pair, order.side, order.price, order.quantity, time⟩

section Dues

variable [Arithmetic]

/-- What the whole order costs, and the fee on it. -/
def dues (rate : Decimal) (order : RestingOrder) : Checked (Decimal × Decimal) := do
  let notional ← order.quantity.mul order.price
  return (notional, ← notional.mul rate)

/-- The fee on the whole order. -/
def feeDue (rate : Decimal) (order : RestingOrder) : ℚ :=
  match order.dues rate with
  | .ok (_, fee) => fee.value
  | .error _ => 0

/-- What the fill of the whole order does to the free balance of an asset. -/
def gain (rate : Decimal) (asset : String) (order : RestingOrder) : ℚ :=
  match order.dues rate with
  | .ok (notional, fee) =>
    match order.side with
    | .buy => (if order.pair.base = asset then order.quantity.value else 0) -
        if order.pair.quote = asset then fee.value else 0
    | .sell => if order.pair.quote = asset then notional.value - fee.value else 0
  | .error _ => 0

end Dues

end RestingOrder

namespace OrderBook

variable {book : OrderBook} {order : RestingOrder}

theorem crosses_iff_not_waits :
    book.crosses order.side order.price = true ↔
      ∃ best, book.best? order.side = some best ∧ ¬ order.Waits best := by
  unfold crosses Waits
  cases order.side with
  | buy => cases book.best? .buy <;> simp [le_iff_value, lt_iff_value]
  | sell => cases book.best? .sell <;> simp [le_iff_value, lt_iff_value]

end OrderBook

namespace SimulatedVenue

variable {v w u : SimulatedVenue} {order : RestingOrder} {orders more : List RestingOrder}
  {book : OrderBook} {fills : List Fill}

theorem remove_resting (distinct : (v.resting.map RestingOrder.id).Nodup) (member : order ∈ v.resting) :
    (v.remove order.id).resting = v.resting.filter (· ∉ [order]) := by
  refine List.filter_congr fun other inResting => ?_
  simp only [List.mem_singleton, decide_eq_decide, ne_eq, not_iff_not]
  exact ⟨fun same => List.inj_on_of_nodup_map distinct inResting member same, fun same => same ▸ rfl⟩

variable [Arithmetic]

/-- From one venue to the other these orders were filled, all of each. -/
structure Filled (orders : List RestingOrder) (v w : SimulatedVenue) : Prop where
  rate : w.feeRate = v.feeRate
  clock : w.clock = v.clock
  books : w.books = v.books
  resting : w.resting = v.resting.filter (· ∉ orders)
  outbox : w.outbox = v.outbox ++ orders.map (·.wholeFill v.clock)
  free : ∀ asset, (w.free asset).value =
    (v.free asset).value + (orders.map (gain v.feeRate asset)).sum
  fees : w.totalFees.value = v.totalFees.value + (orders.map (feeDue v.feeRate)).sum

theorem filled_none (v : SimulatedVenue) : Filled [] v v where
  rate := rfl
  clock := rfl
  books := rfl
  resting := by simp
  outbox := by simp
  free := by simp
  fees := by simp

theorem Filled.trans (first : Filled orders v u) (second : Filled more u w) :
    Filled (orders ++ more) v w where
  rate := second.rate.trans first.rate
  clock := second.clock.trans first.clock
  books := second.books.trans first.books
  resting := by
    rw [second.resting, first.resting, List.filter_filter]
    exact List.filter_congr fun other _ => by simp [Bool.and_comm]
  outbox := by
    rw [second.outbox, first.outbox, first.clock, List.map_append, List.append_assoc]
  free asset := by
    rw [second.free, first.free, first.rate, List.map_append, List.sum_append, add_assoc]
  fees := by
    rw [second.fees, first.fees, first.rate, List.map_append, List.sum_append, add_assoc]

/-! ### One order -/

theorem barring_credit (exact : Arithmetic.ExactSums) (v : SimulatedVenue) (asset : String)
    (amount : Decimal) :
    BarringSums (v.credit asset amount) fun s => s = { v with balances := s.balances } ∧
      ∀ other, (s.free other).value =
        (v.free other).value + if asset = other then amount.value else 0 :=
  (barring_add (v.free asset) amount).bind fun _ added => barring_pure ⟨rfl, free_credited exact added⟩

theorem barring_debit (exact : Arithmetic.ExactSums) (v : SimulatedVenue) (asset : String)
    (amount : Decimal) :
    BarringSums (v.debit asset amount) fun s => s = { v with balances := s.balances } ∧
      ∀ other, (s.free other).value =
        (v.free other).value - if asset = other then amount.value else 0 :=
  (barring_sub (v.free asset) amount).bind fun _ subtracted =>
    barring_pure ⟨rfl, free_debited exact subtracted⟩

/-- A filled order pays what is due, out of free balances and what it has set aside. -/
theorem barring_settleResting (exact : Arithmetic.ExactSums) {notional fee : Decimal}
    (due : order.dues v.feeRate = .ok (notional, fee)) :
    BarringSums (v.settleResting order order.quantity) fun s =>
      s = { v with balances := s.balances, totalFees := s.totalFees } ∧
      (∀ asset, (s.free asset).value = (v.free asset).value + order.gain v.feeRate asset) ∧
      s.totalFees.value = v.totalFees.value + order.feeDue v.feeRate := by
  have gains : ∀ asset, order.gain v.feeRate asset = match order.side with
      | .buy => (if order.pair.base = asset then order.quantity.value else 0) -
          if order.pair.quote = asset then fee.value else 0
      | .sell => if order.pair.quote = asset then notional.value - fee.value else 0 :=
    fun asset => by rw [gain, due]
  have fees : order.feeDue v.feeRate = fee.value := by rw [feeDue, due]
  simp only [dues, bind_ok, pure_ok, Prod.mk.injEq] at due
  obtain ⟨notional, costs, fee, charged, rfl, rfl⟩ := due
  rw [settleResting, costs, ok_bind, charged, ok_bind]
  -- once the balances are settled, the fee is added to the total
  have counted : ∀ s : SimulatedVenue, s = { v with balances := s.balances } →
      (∀ asset, (s.free asset).value = (v.free asset).value + order.gain v.feeRate asset) →
      BarringSums (do return { s with totalFees := ← s.totalFees.add fee }) fun s =>
        s = { v with balances := s.balances, totalFees := s.totalFees } ∧
        (∀ asset, (s.free asset).value = (v.free asset).value + order.gain v.feeRate asset) ∧
        s.totalFees.value = v.totalFees.value + order.feeDue v.feeRate := by
    intro s same free
    refine (barring_add _ _).bind fun total added => barring_pure ⟨by rw [same], free, ?_⟩
    rw [fees, exact.add added, same]
  dsimp only
  cases side : order.side with
  | buy =>
    refine (barring_credit exact v _ _).bind fun u credited => ?_
    refine (barring_debit exact u _ _).bind fun s debited => ?_
    refine counted s (debited.1.trans (by rw [credited.1])) fun asset => ?_
    rw [debited.2, credited.2, gains, side]
    ring
  | sell =>
    refine (barring_sub _ _).bind fun proceeds earned => ?_
    refine (barring_credit exact v _ _).bind fun s credited => counted s credited.1 fun asset => ?_
    rw [credited.2, gains, side, exact.sub earned]

/-- All of an order is filled: its dues are settled, and what is left of it is looked at. -/
theorem fillResting_whole (distinct : (v.resting.map RestingOrder.id).Nodup) (member : order ∈ v.resting)
    (positive : 0 < order.quantity.value) :
    v.fillResting order.id none = (do
      let s ← v.settleResting order order.quantity
      let remaining ← order.quantity.sub order.quantity
      let s := if 0 < remaining then s.setQuantity order.id remaining else s.remove order.id
      return (some (order.wholeFill s.clock), s.report (order.wholeFill s.clock) false)) := by
  have found : v.find? order.id = some order := lookup_of_mem distinct member
  have whole : min order.quantity order.quantity = order.quantity := ite_self _
  rw [fillResting, found]
  dsimp only [Option.getD_none]
  rw [whole, if_neg (not_nonpos_iff_value.2 positive)]
  rfl

theorem barring_fillResting (exact : Arithmetic.ExactSums)
    (distinct : (v.resting.map RestingOrder.id).Nodup) (member : order ∈ v.resting)
    (positive : 0 < order.quantity.value) {dues : Decimal × Decimal}
    (due : order.dues v.feeRate = .ok dues) :
    BarringSums (v.fillResting order.id none) fun (reply, w) =>
      reply = some (order.wholeFill v.clock) ∧ Filled [order] v w := by
  rw [fillResting_whole distinct member positive]
  refine (barring_settleResting exact due).bind fun s settled => ?_
  obtain ⟨same, free, fees⟩ := settled
  refine (barring_sub _ _).bind fun remaining left => barring_pure ?_
  have nothing : ¬ 0 < remaining := by
    rw [pos_iff_value, exact.sub left, sub_self]
    exact lt_irrefl 0
  dsimp only
  rw [if_neg nothing]
  have rate : s.feeRate = v.feeRate := by rw [same]
  have clock : s.clock = v.clock := by rw [same]
  have books : s.books = v.books := by rw [same]
  have resting : s.resting = v.resting := by rw [same]
  have outbox : s.outbox = v.outbox := by rw [same]
  refine ⟨congrArg (fun time => some (order.wholeFill time)) clock, rate, clock, books, ?_, ?_,
    fun asset => ?_, ?_⟩
  · rw [← remove_resting distinct member]
    change s.resting.filter _ = v.resting.filter _
    rw [resting]
  · rw [List.map_singleton, ← clock, ← outbox]
    rfl
  · rw [List.map_singleton, List.sum_singleton, ← free]
    rfl
  · rw [List.map_singleton, List.sum_singleton, ← fees]
    rfl

/-- An order that was filled had its dues within range. -/
theorem dues_of_fillResting {reply : Option Fill} (distinct : (v.resting.map RestingOrder.id).Nodup)
    (member : order ∈ v.resting) (positive : 0 < order.quantity.value)
    (done : v.fillResting order.id none = .ok (reply, w)) :
    ∃ dues, order.dues v.feeRate = .ok dues := by
  rw [fillResting_whole distinct member positive] at done
  simp only [bind_ok] at done
  obtain ⟨s, settled, -⟩ := done
  obtain ⟨notional, fee, -, costs, charged, -⟩ := settleResting_ok settled
  exact ⟨(notional, fee), bind_ok.2 ⟨notional, costs, bind_ok.2 ⟨fee, charged, rfl⟩⟩⟩

/-! ### Several orders -/

/-- The orders that are still to be filled rest on. -/
theorem Filled.subset (filled : Filled [order] v u) (fresh : order ∉ orders)
    (resting : orders ⊆ v.resting) : orders ⊆ u.resting := by
  intro other member
  rw [filled.resting, List.mem_filter]
  refine ⟨resting member, ?_⟩
  simp only [List.mem_singleton, decide_eq_true_eq]
  exact fun same => fresh (same ▸ member)

/-- What could be filled was within range, what it costs and the fees included. -/
theorem dues_of_fillAll (exact : Arithmetic.ExactSums) (sound : v.Sound) (once : orders.Nodup)
    (resting : orders ⊆ v.resting)
    (done : v.fillAll (orders.map RestingOrder.id) = .ok (fills, w)) :
    ∀ order ∈ orders, ∃ dues, order.dues v.feeRate = .ok dues := by
  induction orders generalizing v fills with
  | nil => exact fun _ none => absurd none List.not_mem_nil
  | cons order orders ih =>
    obtain ⟨fresh, once⟩ := List.nodup_cons.1 once
    obtain ⟨member, others⟩ := List.cons_subset.1 resting
    simp only [List.map_cons, fillAll, bind_ok, pure_ok, Prod.exists, Prod.mk.injEq] at done
    obtain ⟨fill, u, filled, rest, _, later, -, rfl⟩ := done
    obtain ⟨dues, owed⟩ := dues_of_fillResting sound.distinct member (sound.positive order member) filled
    have first := ((barring_fillResting exact sound.distinct member (sound.positive order member)
      owed).of_ok filled).2
    refine List.forall_mem_cons.2 ⟨⟨dues, owed⟩, ?_⟩
    have := ih (sound_fillResting sound filled).1 once (first.subset fresh others) later
    rwa [first.rate] at this

theorem barring_fillAll (exact : Arithmetic.ExactSums) (sound : v.Sound) (once : orders.Nodup)
    (resting : orders ⊆ v.resting) (due : ∀ order ∈ orders, ∃ dues, order.dues v.feeRate = .ok dues) :
    BarringSums (v.fillAll (orders.map RestingOrder.id)) fun (fills, w) =>
      fills = orders.map (·.wholeFill v.clock) ∧ Filled orders v w := by
  induction orders generalizing v with
  | nil => exact barring_pure ⟨rfl, filled_none v⟩
  | cons order orders ih =>
    obtain ⟨fresh, once⟩ := List.nodup_cons.1 once
    obtain ⟨member, others⟩ := List.cons_subset.1 resting
    obtain ⟨⟨dues, owed⟩, due⟩ := List.forall_mem_cons.1 due
    rw [List.map_cons, fillAll]
    have first := (barring_fillResting exact sound.distinct member (sound.positive order member)
      owed).mono fun _ filled given => And.intro (sound_fillResting sound filled).1 given
    refine first.bind fun reply given => ?_
    obtain ⟨_, u⟩ := reply
    obtain ⟨sound', rfl, filled⟩ := given
    refine (ih sound' once (filled.subset fresh others) (filled.rate ▸ due)).bind fun later given => ?_
    obtain ⟨_, w⟩ := later
    obtain ⟨rfl, rest⟩ := given
    exact barring_pure ⟨by rw [filled.clock]; rfl, filled.trans rest⟩

/-! ### New books -/

/-- Balances, fees and resting orders are the same. -/
structure Alike (v w : SimulatedVenue) : Prop where
  resting : w.resting = v.resting
  free : ∀ asset, (w.free asset).value = (v.free asset).value
  fees : w.totalFees.value = v.totalFees.value

theorem Filled.alike (filled : Filled orders v w) (filled' : Filled more v u) (perm : more.Perm orders) :
    Alike w u where
  resting := by
    rw [filled.resting, filled'.resting]
    exact List.filter_congr fun order _ => by simp only [perm.mem_iff]
  free asset := by rw [filled.free, filled'.free, (perm.map _).sum_eq]
  fees := by rw [filled.fees, filled'.fees, (perm.map _).sum_eq]

/-- The venue with a new book that was not looked at yet. -/
def withBook (v : SimulatedVenue) (book : OrderBook) : SimulatedVenue :=
  { v with books := Table.put book.pair book v.books }

/-- The resting orders that trade at the best prices of the book. -/
def crossedOrders (v : SimulatedVenue) (book : OrderBook) : List RestingOrder :=
  v.resting.filter fun order => order.pair = book.pair ∧ book.crosses order.side order.price

omit [Arithmetic] in
theorem mem_crossedOrders : order ∈ v.crossedOrders book ↔
    order ∈ v.resting ∧ order.pair = book.pair ∧
      ∃ best, book.best? order.side = some best ∧ ¬ order.Waits best := by
  rw [crossedOrders, List.mem_filter, decide_eq_true_eq, OrderBook.crosses_iff_not_waits]

/-- What a new book leaves of the resting orders, and what it fills. -/
structure Uncrossed (v : SimulatedVenue) (book : OrderBook) (fills : List Fill) (w : SimulatedVenue) :
    Prop where
  shown : w.bookOf book.pair = .ok book
  /-- No order of the pair trades at the best price on its other side. -/
  waits : ∀ order ∈ w.resting, order.pair = book.pair →
    ∀ best, book.best? order.side = some best → order.Waits best
  sublist : w.resting.Sublist v.resting
  elsewhere : (w.resting.filter fun order => order.pair ≠ book.pair) =
    v.resting.filter fun order => order.pair ≠ book.pair
  /-- An order that is gone did trade at the best price. -/
  reached : ∀ order ∈ v.resting, order ∉ w.resting →
    ∃ best, book.best? order.side = some best ∧ ¬ order.Waits best
  /-- It was filled once, all of it and at its own price. -/
  whole : ∀ order ∈ v.resting, order ∉ w.resting →
    (fills.filter fun fill => fill.orderId = order.id) = [order.wholeFill v.clock]
  /-- Nothing else was filled. -/
  gone : fills = (v.resting.filter (· ∉ w.resting)).map (·.wholeFill v.clock)
  reported : w.outbox = v.outbox ++ fills
  /-- Filled in any other order, the same orders leave the same. -/
  anyOrder : ∀ orders : List RestingOrder, orders.Perm (v.resting.filter (· ∉ w.resting)) →
    BarringSums ((v.withBook book).fillAll (orders.map RestingOrder.id)) fun (fills', u) =>
      fills'.Perm fills ∧ Alike w u

omit [Arithmetic] in
/-- Ids are not used twice, so each order has its own fill. -/
theorem wholeFill_unique (distinct : (v.resting.map RestingOrder.id).Nodup) (resting : orders ⊆ v.resting)
    (once : orders.Nodup) (member : order ∈ orders) (time : Instant) :
    ((orders.map (·.wholeFill time)).filter fun fill => fill.orderId = order.id) =
      [order.wholeFill time] := by
  have own : orders.filter (fun other => other.id = order.id) = orders.filter (· = order) :=
    List.filter_congr fun other inOrders => decide_eq_decide.2
      ⟨List.inj_on_of_nodup_map distinct (resting inOrders) (resting member), fun same => same ▸ rfl⟩
  rw [List.filter_map]
  change (orders.filter fun other => other.id = order.id).map _ = _
  rw [own, List.filter_eq, List.count_eq_one_of_mem once member]
  rfl

/-- A new book leaves nothing crossed, in whichever order it fills what it crosses. -/
theorem setBook_uncrosses (exact : Arithmetic.ExactSums) (reached : Reached v)
    (done : v.setBook book = .ok (fills, w)) : Uncrossed v book fills w := by
  have sound : (v.withBook book).Sound := reached.healthy.sound.congr rfl rfl rfl rfl
  have once : (v.crossedOrders book).Nodup := sound.distinct.of_map.filter _
  have resting : v.crossedOrders book ⊆ v.resting := List.filter_subset_self _
  have ran : (v.withBook book).fillAll ((v.crossedOrders book).map RestingOrder.id) = .ok (fills, w) := done
  have due := dues_of_fillAll exact sound once resting ran
  obtain ⟨rfl, filled⟩ := (barring_fillAll exact sound once resting due).of_ok ran
  have left : w.resting = v.resting.filter (· ∉ v.crossedOrders book) := filled.resting
  have stays : ∀ {order : RestingOrder}, order ∈ w.resting ↔
      order ∈ v.resting ∧ order ∉ v.crossedOrders book := by simp [left]
  have gone : v.resting.filter (· ∉ w.resting) = v.crossedOrders book := by
    rw [crossedOrders]
    refine List.filter_congr fun order member => decide_eq_decide.2 ?_
    rw [stays, and_iff_right member, not_not, crossedOrders, List.mem_filter, and_iff_right member,
      decide_eq_true_eq]
  have crossed : ∀ order ∈ v.resting, order ∉ w.resting → order ∈ v.crossedOrders book :=
    fun order member absent => not_not.1 fun other => absent (stays.2 ⟨member, other⟩)
  refine ⟨?_, ?_, left ▸ List.filter_sublist, ?_, ?_, ?_, gone ▸ rfl, filled.outbox, ?_⟩
  · rw [bookOf, filled.books, withBook, Table.get?_put, if_pos rfl]
  · intro order member pair best shown
    by_contra trades
    exact (stays.1 member).2 (mem_crossedOrders.2 ⟨(stays.1 member).1, pair, best, shown, trades⟩)
  · rw [left, List.filter_filter]
    refine List.filter_congr fun order member => ?_
    by_cases pair : order.pair = book.pair
    · simp [pair]
    · simp [pair, mem_crossedOrders]
  · exact fun order member absent => (mem_crossedOrders.1 (crossed order member absent)).2.2
  · exact fun order member absent =>
      wholeFill_unique sound.distinct resting once (crossed order member absent) v.clock
  · intro orders perm
    rw [gone] at perm
    refine (barring_fillAll exact sound (perm.nodup_iff.2 once) (List.Subset.trans perm.subset resting)
      fun order member => due order (perm.subset member)).mono fun result _ given => ?_
    obtain ⟨same, filled'⟩ := given
    exact ⟨same ▸ perm.map _, filled.alike filled' perm⟩

/-- Two bids and two asks rest. -/
def crossedOperations : List Operation :=
  let pair : Pair := ⟨"DOGE", "USDT"⟩
  [.setBook ⟨pair, ⟨0⟩, [⟨.of 99 0, .of 5 0⟩], [⟨.of 101 0, .of 4 0⟩]⟩,
    .place pair .buy (.of 3 0) .limit (.of 100 0), .place pair .buy (.of 2 0) .limit (.of 985 1),
    .place pair .sell (.of 4 0) .limit (.of 102 0), .place pair .sell 1 .limit (.of 105 0)]

/-- Its own sides are crossed, too, and it reaches an order of either side. -/
def crossedBook : OrderBook :=
  ⟨⟨"DOGE", "USDT"⟩, ⟨1⟩, [⟨.of 103 0, .of 5 0⟩], [⟨.of 99 0, .of 4 0⟩]⟩

omit [Arithmetic] in
theorem setBook_uncrosses_both : ∃ exchanges v fills w,
    @run .strict (funded "okx" (.of 1 3) ⟨0⟩ trialDeposits) crossedOperations = .ok (exchanges, v) ∧
    @setBook .strict v crossedBook = .ok (fills, w) ∧
    fills.map Fill.orderId = ["okx-1", "okx-3"] ∧
    w.resting.map RestingOrder.id = ["okx-2", "okx-4"] ∧
    @Uncrossed .strict v crossedBook fills w := by
  have works : (@run .strict (funded "okx" (.of 1 3) ⟨0⟩ trialDeposits)
      crossedOperations).toOption.any (fun ran =>
        (@setBook .strict ran.2 crossedBook).toOption.any fun (fills, w) =>
          decide (fills.map Fill.orderId = ["okx-1", "okx-3"] ∧
            w.resting.map RestingOrder.id = ["okx-2", "okx-4"])) = true := by
    decide +kernel
  obtain ⟨⟨exchanges, v⟩, ran, works⟩ := Checked.toOption_any works
  obtain ⟨⟨fills, w⟩, done, works⟩ := Checked.toOption_any works
  obtain ⟨filled, left⟩ := of_decide_eq_true works
  have reached := @run_reached .strict _ _ _ _ (@reached_funded .strict _ _ _ _) ran
  exact ⟨exchanges, v, fills, w, ran, done, filled, left,
    @setBook_uncrosses _ _ _ _ .strict Arithmetic.strict_exact reached done⟩

end SimulatedVenue

end MarketMaker
