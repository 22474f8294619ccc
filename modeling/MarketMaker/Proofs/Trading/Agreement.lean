import MarketMaker.Proofs.Trading.Basic
/-!
The quote book agrees with the venue at all times: what it still expects of a known order is what
rests of it and what is under way of it. The invariant says so for every known order, and that no
quote rests unknown; each move and each delivery keeps it.
-/

namespace MarketMaker

open Decimal RestingOrder

namespace SimulatedVenue

/-- How much of an order was filled without the engine knowing yet. -/
def undelivered (v : SimulatedVenue) (id : OrderId) : ℚ :=
  (Fill.amountsOf v.outbox id).sum

/-- What rests of an order or is under way of it. -/
def owed (v : SimulatedVenue) (id : OrderId) : ℚ :=
  quantityOf v.resting id + v.undelivered id

theorem Healthy.amounts_pos {v : SimulatedVenue} (healthy : v.Healthy) (id : OrderId) :
    ∀ amount ∈ Fill.amountsOf v.outbox id, 0 < amount := by
  intro amount member
  obtain ⟨fill, inFills, rfl⟩ := List.mem_map.1 member
  exact (healthy.backed fill (List.mem_filter.1 inFills).1).2

theorem Healthy.undelivered_nonneg {v : SimulatedVenue} (healthy : v.Healthy) (id : OrderId) :
    0 ≤ v.undelivered id :=
  List.sum_nonneg fun amount member => (healthy.amounts_pos id amount member).le

/-- An order that nothing is owed of neither rests nor has fills under way. -/
theorem Healthy.settled {v : SimulatedVenue} (healthy : v.Healthy) {id : OrderId}
    (nothing : v.owed id ≤ 0) : quantityOf v.resting id = 0 ∧ Fill.amountsOf v.outbox id = [] := by
  have rests := healthy.sound.quantity_nonneg id
  have moving := healthy.undelivered_nonneg id
  unfold owed at nothing
  refine ⟨by linarith, ?_⟩
  have none : (Fill.amountsOf v.outbox id).sum = 0 := by
    rw [undelivered] at moving nothing
    linarith
  cases listed : Fill.amountsOf v.outbox id with
  | nil => rfl
  | cons amount amounts =>
    have positive := healthy.amounts_pos id
    rw [listed] at positive none
    have first := positive amount List.mem_cons_self
    have rest : 0 ≤ amounts.sum :=
      List.sum_nonneg fun other member => (positive other (List.mem_cons_of_mem _ member)).le
    rw [List.sum_cons] at none
    linarith

/-- A fill taken from the outbox is no longer under way. -/
theorem amounts_eraseIdx {fills : List Fill} {index : Nat} {fill : Fill}
    (found : fills[index]? = some fill) (id : OrderId) :
    (Fill.amountsOf fills id).Perm (Fill.amountsOf (fill :: fills.eraseIdx index) id) := by
  obtain ⟨inRange, rfl⟩ := List.getElem?_eq_some_iff.1 found
  exact ((List.getElem_cons_eraseIdx_perm inRange).symm.filter _).map _

section Delivery

variable {v : SimulatedVenue} {index : Nat} {fill : Fill} {id : OrderId}

theorem amounts_eraseIdx_other (found : v.outbox[index]? = some fill) (different : id ≠ fill.orderId) :
    (Fill.amountsOf v.outbox id).Perm (Fill.amountsOf (v.outbox.eraseIdx index) id) := by
  have whole := amounts_eraseIdx found id
  rwa [Fill.amountsOf_cons, if_neg (Ne.symm different)] at whole

theorem moving_of_eraseIdx (found : v.outbox[index]? = some fill)
    (moving : Fill.amountsOf (v.outbox.eraseIdx index) id ≠ []) :
    Fill.amountsOf v.outbox id ≠ [] := by
  intro none
  have whole := amounts_eraseIdx found id
  rw [none, List.nil_perm, Fill.amountsOf_cons] at whole
  split at whole
  next => cases whole
  next => exact moving whole

theorem owed_eraseIdx (found : v.outbox[index]? = some fill) :
    v.owed fill.orderId = { v with outbox := v.outbox.eraseIdx index }.owed fill.orderId +
      fill.amount.value := by
  have whole := (amounts_eraseIdx found fill.orderId).sum_eq
  rw [Fill.amountsOf_cons, if_pos rfl, List.sum_cons] at whole
  unfold owed undelivered
  rw [whole]
  ring

theorem owed_eraseIdx_other (found : v.outbox[index]? = some fill) (different : id ≠ fill.orderId) :
    v.owed id = { v with outbox := v.outbox.eraseIdx index }.owed id := by
  unfold owed undelivered
  rw [(amounts_eraseIdx_other found different).sum_eq]

end Delivery

section Operations

variable [Arithmetic] {v w : SimulatedVenue} {pair : Pair} {side : Side} {amount price : Decimal}
  {id : OrderId}

/-- A fill of a resting order moves its amount from what rests to what is under way. -/
theorem owed_fillResting (exact : Arithmetic.ExactSums) (healthy : v.Healthy)
    {requested : Option Decimal} {reply : Option Fill}
    (done : v.fillResting id requested = .ok (reply, w)) (other : OrderId) :
    w.owed other = v.owed other ∧
      (0 < quantityOf w.resting other → 0 < quantityOf v.resting other) ∧
      (Fill.amountsOf w.outbox other ≠ [] →
        Fill.amountsOf v.outbox other ≠ [] ∨ 0 < quantityOf v.resting other) := by
  obtain ⟨-, -, ⟨-, rfl⟩ |
    ⟨order, fill, remaining, found, -, bounded, rfl, left, backs, outbox, -, quantities⟩⟩ :=
    sound_fillResting healthy.sound done
  · exact ⟨rfl, fun positive => positive, .inl⟩
  · unfold owed undelivered
    rw [outbox, Fill.amountsOf_append, List.sum_append, quantities other, Fill.amountsOf_cons]
    by_cases same : other = fill.orderId
    · subst same
      have quantity : quantityOf v.resting fill.orderId = order.quantity.value := by
        rw [quantityOf, found]
      have part : fill.amount.value ≤ order.quantity.value := by
        rw [bounded, value_min]
        exact min_le_right _ _
      have difference := exact.sub left
      have more := backs.2
      rw [if_pos rfl, if_pos rfl, quantity]
      refine ⟨?_, fun _ => by linarith, fun _ => .inr (by linarith)⟩
      rw [max_eq_left (by linarith), difference]
      rw [Fill.amountsOf_nil, List.sum_singleton]
      ring
    · rw [if_neg same, if_neg (Ne.symm same), Fill.amountsOf_nil, List.append_nil, List.sum_nil,
        add_zero]
      exact ⟨rfl, fun positive => positive, .inl⟩

/-- The whole amount of an accepted order rests or is under way. -/
theorem owed_place (exact : Arithmetic.ExactSums) (healthy : v.Healthy) (fair : v.FairBooks)
    (done : v.placeOrder pair side amount .limit price = .ok (.ok id, w)) :
    0 < amount.value ∧ (∀ other side, ¬ v.Accepted id other side) ∧ w.Accepted id pair side ∧
      v.Precedes w ∧ w.owed id = amount.value ∧
      ∀ other, other ≠ id → quantityOf w.resting other = quantityOf v.resting other ∧
        Fill.amountsOf w.outbox other = Fill.amountsOf v.outbox other := by
  rcases placeOrder_cases done with
    ⟨_, _, impossible, -⟩ | ⟨book, t, _, same, positive, found, terms, -, accepted⟩
  · cases impossible
  obtain rfl := Except.ok.inj same
  obtain ⟨-, later, rfl, entered, quantities, fills, outbox, -, amounts⟩ :=
    sound_accept healthy.sound accepted
  have fresh : ∀ other side, ¬ v.Accepted v.nextId other side :=
    fun _ _ => healthy.sound.nextId_fresh
  obtain ⟨executed, left, -⟩ := terms_limit terms
  have least := OrderBook.execute_nonneg exact.signed (fair found) executed
  have most := OrderBook.execute_le exact positive executed
  have rest := exact.sub left
  refine ⟨positive, fresh, entered, later, ?_, fun other different => ?_⟩
  · have unseen : Fill.amountsOf v.outbox v.nextId = [] := by
      rw [Fill.amountsOf_eq_nil]
      intro fill member same
      exact fresh _ _ (same ▸ (healthy.backed fill member).1)
    have reported : (Fill.amountsOf fills v.nextId).sum = t.execution.filled.value := by
      rw [amounts]
      split
      next => simp
      next nothing =>
        have zero : t.execution.filled.value ≤ 0 := not_lt.1 fun more => nothing ⟨rfl, more⟩
        rw [List.sum_nil]
        exact least.antisymm zero
    unfold owed undelivered
    rw [quantities, if_pos rfl, outbox, Fill.amountsOf_append, unseen,
      List.nil_append, reported, max_eq_left (by linarith), rest]
    ring
  · rw [quantities, if_neg different, outbox, Fill.amountsOf_append, amounts,
      if_neg fun both => different both.1, List.append_nil]
    exact ⟨rfl, rfl⟩

end Operations

end SimulatedVenue

namespace Journal

/-- The order was released, and as many orders after it as are remembered. -/
def Evicted (j : Journal) (id : OrderId) : Prop :=
  ∃ earlier later, j.released = earlier ++ id :: later ∧
    QuoteBook.releasedCapacity ≤ later.length

theorem Evicted.mono {j k : Journal} {id : OrderId} {more : List OrderId}
    (evicted : j.Evicted id) (longer : k.released = j.released ++ more) : k.Evicted id := by
  obtain ⟨earlier, later, split, many⟩ := evicted
  refine ⟨earlier, later ++ more, by simp [longer, split], ?_⟩
  rw [List.length_append]
  omega

/-- One more release drops the first of as many orders as are remembered. -/
theorem evicted_of_sublist {j : Journal} {oldest : OrderId} {rest : List OrderId}
    (listed : (oldest :: rest).Sublist j.released)
    (many : rest.length + 1 = QuoteBook.releasedCapacity) (id : OrderId) :
    Evicted { j with released := j.released ++ [id] } oldest := by
  obtain ⟨first, second, whole, member, sub⟩ := List.cons_sublist_iff.1 listed
  obtain ⟨before, between, rfl⟩ := List.append_of_mem member
  refine ⟨before, between ++ second ++ [id], by simp [whole], ?_⟩
  have enough := sub.length_le
  simp only [List.length_append, List.length_singleton]
  omega

end Journal

/-- The state between two steps of a trading engine. -/
structure Front.Consistent (f : Front) : Prop where
  healthy : f.venue.Healthy
  sided : f.book.Sided
  distinct : f.book.ids.Nodup
  accepted : ∀ entry ∈ f.journal.placed, ∃ pair, f.venue.Accepted entry.2 pair entry.1
  placed : ∀ order ∈ f.book.known, (order.side, order.id) ∈ f.journal.placed
  tracked : ∀ entry ∈ f.journal.placed, 0 < quantityOf f.venue.resting entry.2 →
    f.book.isTracked entry.1 entry.2 = true
  gone : ∀ order ∈ f.book.released, quantityOf f.venue.resting order.id = 0
  owed : ∀ order ∈ f.book.known, order.remaining.value = f.venue.owed order.id
  recognised : ∀ entry ∈ f.journal.placed, Fill.amountsOf f.venue.outbox entry.2 ≠ [] →
    entry.2 ∈ f.book.ids ∨ entry.2 ∈ f.journal.cancelled ∨ f.journal.Evicted entry.2
  released : (f.book.released.map TrackedOrder.id).Sublist f.journal.released

namespace Front.Consistent

variable {v w : SimulatedVenue} {book after : QuoteBook} {j : Journal} {side : Side}
  {order : TrackedOrder} {pair : Pair} {id : OrderId}

theorem start (healthy : v.Healthy) : Consistent ⟨v, .empty, .empty⟩ where
  healthy := healthy
  sided side order found := by cases side <;> cases found
  distinct := List.nodup_nil
  accepted entry member := by cases member
  placed order member := by cases member
  tracked entry member := by cases member
  gone order member := by cases member
  owed order member := by cases member
  recognised entry member := by cases member
  released := List.Sublist.refl _

/-- Changes of the venue that leave orders and fills alone. -/
theorem congr (consistent : Consistent ⟨v, book, j⟩) (name : w.id = v.id) (log : w.log = v.log)
    (count : w.orderCount = v.orderCount) (resting : w.resting = v.resting)
    (outbox : w.outbox = v.outbox) : Consistent ⟨w, book, j⟩ where
  healthy := consistent.healthy.congr name log count resting (outbox ▸ List.Subset.refl _)
  sided := consistent.sided
  distinct := consistent.distinct
  accepted entry member := by
    obtain ⟨pair, accepted⟩ := consistent.accepted entry member
    exact ⟨pair, accepted.mono ⟨name, log ▸ List.Subset.refl _⟩⟩
  placed := consistent.placed
  tracked := by
    rw [resting]
    exact consistent.tracked
  gone := by
    rw [resting]
    exact consistent.gone
  owed := by
    simp only [SimulatedVenue.owed, SimulatedVenue.undelivered, resting, outbox]
    exact consistent.owed
  recognised := by
    rw [outbox]
    exact consistent.recognised
  released := consistent.released

/-- A known order has been accepted on its side. -/
theorem known_accepted (consistent : Consistent ⟨v, book, j⟩) (known : order ∈ book.known) :
    ∃ pair, v.Accepted order.id pair order.side :=
  consistent.accepted _ (consistent.placed order known)

theorem accepted_later (consistent : Consistent ⟨v, book, j⟩) (later : v.Precedes w) :
    ∀ entry ∈ j.placed, ∃ pair, w.Accepted entry.2 pair entry.1 := by
  intro entry member
  obtain ⟨pair, accepted⟩ := consistent.accepted entry member
  exact ⟨pair, accepted.mono later⟩

variable [Arithmetic]

theorem fillResting (exact : Arithmetic.ExactSums) (consistent : Consistent ⟨v, book, j⟩)
    {requested : Option Decimal} {reply : Option Fill}
    (done : v.fillResting id requested = .ok (reply, w)) : Consistent ⟨w, book, j⟩ := by
  have effect := SimulatedVenue.owed_fillResting exact consistent.healthy done
  obtain ⟨-, later, -⟩ := SimulatedVenue.sound_fillResting consistent.healthy.sound done
  refine ⟨SimulatedVenue.healthy_fillResting consistent.healthy done, consistent.sided,
    consistent.distinct, consistent.accepted_later later, consistent.placed, ?_, ?_, ?_, ?_,
    consistent.released⟩
  · intro entry member rests
    exact consistent.tracked entry member ((effect entry.2).2.1 rests)
  · intro order member
    by_contra rests
    have sound := (SimulatedVenue.healthy_fillResting consistent.healthy done).sound
    have positive := lt_of_le_of_ne (sound.quantity_nonneg order.id) (Ne.symm rests)
    exact absurd (consistent.gone order member) ((effect order.id).2.1 positive).ne'
  · intro order known
    rw [(effect order.id).1]
    exact consistent.owed order known
  · intro entry member moving
    rcases (effect entry.2).2.2 moving with before | rests
    · exact consistent.recognised entry member before
    · obtain ⟨order, found, same⟩ :=
        QuoteBook.isTracked_iff.1 (consistent.tracked entry member rests)
      have known := QuoteBook.mem_known.2 (.inl ⟨_, found⟩)
      exact .inl (same ▸ List.mem_map_of_mem known)

theorem place (exact : Arithmetic.ExactSums) (fair : v.FairBooks)
    (consistent : Consistent ⟨v, book, j⟩) (idle : book.tracked side = none)
    {amount price : Decimal} {now : Instant}
    (done : v.placeOrder pair side amount .limit price = .ok (.ok id, w)) :
    Consistent ⟨w, book.setTracked side (some (.new id side price amount now)),
      { j with placed := j.placed ++ [(side, id)] }⟩ := by
  obtain ⟨-, fresh, entered, later, whole, others⟩ :=
    SimulatedVenue.owed_place exact consistent.healthy fair done
  have unplaced : ∀ entry ∈ j.placed, entry.2 ≠ id := by
    rintro entry member rfl
    obtain ⟨pair, accepted⟩ := consistent.accepted entry member
    exact fresh _ _ accepted
  have unknown : ∀ order ∈ book.known, order.id ≠ id :=
    fun order known => unplaced _ (consistent.placed order known)
  have knows : ∀ order, order ∈ (book.setTracked side (some (.new id side price amount now))).known →
      order ∈ book.known ∨ order = .new id side price amount now := by
    intro order known
    rcases QuoteBook.known_of_setTracked known with new | old
    · exact .inr (Option.some.inj new).symm
    · exact .inl old
  have ids : (book.setTracked side (some (.new id side price amount now))).ids.Perm
      (id :: book.ids) := QuoteBook.ids_setTracked_new idle
  refine ⟨SimulatedVenue.healthy_placeOrder consistent.healthy done, ?_, ?_, ?_, ?_, ?_, ?_, ?_,
    ?_, ?_⟩
  · intro other order found
    rcases QuoteBook.tracked_of_setTracked found with ⟨same, rfl⟩ | old
    · exact same
    · exact consistent.sided old
  · rw [ids.nodup_iff, List.nodup_cons]
    refine ⟨fun member => ?_, consistent.distinct⟩
    obtain ⟨order, known, same⟩ := List.mem_map.1 member
    exact unknown order known same
  · intro entry member
    rcases List.mem_append.1 member with old | new'
    · exact consistent.accepted_later later entry old
    · obtain rfl := List.mem_singleton.1 new'
      exact ⟨pair, entered⟩
  · intro order known
    rcases knows order known with old | rfl
    · exact List.mem_append_left _ (consistent.placed order old)
    · exact List.mem_append_right _ List.mem_cons_self
  · intro entry member rests
    rcases List.mem_append.1 member with old | new'
    · rw [(others entry.2 (unplaced entry old)).1] at rests
      exact QuoteBook.isTracked_setTracked_of_idle idle (consistent.tracked entry old rests)
    · obtain rfl := List.mem_singleton.1 new'
      exact QuoteBook.isTracked_setTracked side (.new id side price amount now)
  · intro order member
    rw [QuoteBook.released_setTracked] at member
    have known := QuoteBook.mem_known.2 (.inr member)
    rw [(others order.id (unknown order known)).1]
    exact consistent.gone order member
  · intro order known
    rcases knows order known with old | rfl
    · obtain ⟨quantity, amounts⟩ := others order.id (unknown order old)
      unfold SimulatedVenue.owed SimulatedVenue.undelivered
      rw [quantity, amounts]
      exact consistent.owed order old
    · exact whole.symm
  · intro entry member moving
    rcases List.mem_append.1 member with old | new'
    · rw [(others entry.2 (unplaced entry old)).2] at moving
      rcases consistent.recognised entry old moving with known | gone
      · exact .inl (ids.mem_iff.2 (List.mem_cons_of_mem _ known))
      · exact .inr gone
    · obtain rfl := List.mem_singleton.1 new'
      exact .inl (ids.mem_iff.2 List.mem_cons_self)
  · rw [QuoteBook.released_setTracked]
    exact consistent.released

omit [Arithmetic] in
/-- The orders known after a side was given up are the others. -/
theorem known_release (consistent : Consistent ⟨v, book, j⟩)
    (found : book.tracked side = some order) {other : TrackedOrder}
    (known : other ∈ (book.setTracked side none).known) :
    other ∈ book.known ∧ other.id ≠ order.id := by
  rcases QuoteBook.other_of_setTracked consistent.distinct consistent.sided found known with none | other
  · cases none
  · exact other

theorem cancel (consistent : Consistent ⟨v, book, j⟩) (found : book.tracked side = some order)
    (done : v.cancelOrder pair order.id = .ok (.ok (), w)) :
    Consistent ⟨w, book.setTracked side none, { j with cancelled := j.cancelled ++ [order.id] }⟩ := by
  obtain ⟨-, later, outbox, -, quantities⟩ :=
    SimulatedVenue.sound_cancel consistent.healthy.sound done
  have known : ∀ {other}, other ∈ (book.setTracked side none).known →
      other ∈ book.known ∧ other.id ≠ order.id := consistent.known_release found
  have nodup := (QuoteBook.ids_release found).nodup_iff.1 consistent.distinct
  refine ⟨SimulatedVenue.healthy_cancelOrder consistent.healthy done, ?_,
    (List.nodup_cons.1 nodup).2, consistent.accepted_later later,
    fun other member => consistent.placed other (known member).1, ?_, ?_, ?_, ?_, ?_⟩
  · intro other kept tracked
    rw [QuoteBook.tracked_setTracked] at tracked
    split at tracked
    next => cases tracked
    next => exact consistent.sided tracked
  · intro entry member rests
    rw [quantities] at rests
    split at rests
    next => exact absurd rests (lt_irrefl 0)
    next different =>
      exact QuoteBook.isTracked_setTracked_none found different
        (consistent.tracked entry member rests)
  · intro other member
    rw [QuoteBook.released_setTracked] at member
    rw [quantities]
    split
    next => rfl
    next => exact consistent.gone other member
  · intro other member
    unfold SimulatedVenue.owed SimulatedVenue.undelivered
    rw [quantities, if_neg (known member).2, outbox]
    exact consistent.owed other (known member).1
  · intro entry member moving
    rw [outbox] at moving
    rcases consistent.recognised entry member moving with inIds | cancelled | evicted
    · rcases List.mem_cons.1 ((QuoteBook.ids_release found).mem_iff.1 inIds) with same | kept
      · exact .inr (.inl (List.mem_append_right _ (List.mem_singleton.2 same)))
      · exact .inl kept
    · exact .inr (.inl (List.mem_append_left _ cancelled))
    · exact .inr (.inr evicted)
  · rw [QuoteBook.released_setTracked]
    exact consistent.released

omit [Arithmetic] in
/-- A released order has nothing resting; its fills under way are still recognised. -/
theorem release (consistent : Consistent ⟨v, book, j⟩) (found : book.tracked side = some order)
    (gone : lookup order.id v.resting = none) :
    Consistent ⟨v, (book.forget side).2, { j with released := j.released ++ [order.id] }⟩ := by
  have none : quantityOf v.resting order.id = 0 := quantityOf_of_absent gone
  have known : ∀ {other}, other ∈ (book.forget side).2.known → other ∈ book.known :=
    QuoteBook.mem_known_of_forget found
  refine ⟨consistent.healthy, ?_, QuoteBook.nodup_ids_forget consistent.distinct side,
    consistent.accepted, fun other member => consistent.placed other (known member), ?_, ?_,
    fun other member => consistent.owed other (known member), ?_, ?_⟩
  · intro other kept tracked
    rw [QuoteBook.tracked_forget] at tracked
    split at tracked
    next => cases tracked
    next => exact consistent.sided tracked
  · intro entry member rests
    have different : entry.2 ≠ order.id := fun same => rests.ne' (same ▸ none)
    obtain ⟨kept, foundOther, same⟩ := QuoteBook.isTracked_iff.1
      (QuoteBook.isTracked_setTracked_none found different (consistent.tracked entry member rests))
    refine QuoteBook.isTracked_iff.2 ⟨kept, ?_, same⟩
    rw [QuoteBook.tracked_forget, ← QuoteBook.tracked_setTracked]
    exact foundOther
  · intro other member
    rcases QuoteBook.mem_released_forget found member with old | rfl
    · exact consistent.gone other old
    · exact none
  · intro entry member moving
    rcases consistent.recognised entry member moving with inIds | cancelled | evicted
    · obtain ⟨other, knownOther, same⟩ := List.mem_map.1 inIds
      rcases QuoteBook.known_forget found knownOther with kept | ⟨rest, listed, many⟩
      · exact .inl (same ▸ List.mem_map_of_mem kept)
      · have sub := consistent.released
        dsimp only at sub
        rw [listed, List.map_cons, same] at sub
        exact .inr (.inr (Journal.evicted_of_sublist sub (by simpa using many) order.id))
    · exact .inr (.inl cancelled)
    · exact .inr (.inr (evicted.mono rfl))
  · have sub := consistent.released
    dsimp only at sub ⊢
    rcases QuoteBook.released_forget found with listed | ⟨oldest, rest, split, -, listed⟩
    · rw [listed, List.map_append]
      exact sub.append (List.Sublist.refl _)
    · rw [split, List.map_cons] at sub
      rw [listed, List.map_append]
      exact (List.sublist_of_cons_sublist sub).append (List.Sublist.refl _)

/-- No quote of the engine is taken for an orphan. -/
theorem orphan (consistent : Consistent ⟨v, book, j⟩) {live : RestingOrder}
    (unknown : book.contains live.id = false) (found : lookup live.id v.resting = some live)
    (done : v.cancelOrder pair live.id = .ok (.ok (), w)) : Consistent ⟨w, book, j⟩ := by
  obtain ⟨-, later, outbox, -, quantities⟩ :=
    SimulatedVenue.sound_cancel consistent.healthy.sound done
  have rests := consistent.healthy.sound.quantity_pos found
  have different : ∀ order ∈ book.known, order.id ≠ live.id := by
    intro order known same
    rcases QuoteBook.mem_known.1 known with ⟨side, tracked⟩ | released
    · have contained := QuoteBook.contains_iff.2 ⟨order, QuoteBook.mem_resting.2 ⟨side, tracked⟩, same⟩
      exact absurd contained (by simp [unknown])
    · exact rests.ne' (same ▸ consistent.gone order released)
  refine ⟨SimulatedVenue.healthy_cancelOrder consistent.healthy done, consistent.sided,
    consistent.distinct, consistent.accepted_later later, consistent.placed, ?_, ?_, ?_, ?_,
    consistent.released⟩
  · intro entry member rests
    rw [quantities] at rests
    split at rests
    next => exact absurd rests (lt_irrefl 0)
    next => exact consistent.tracked entry member rests
  · intro order member
    rw [quantities]
    split
    next => rfl
    next => exact consistent.gone order member
  · intro order known
    unfold SimulatedVenue.owed SimulatedVenue.undelivered
    rw [quantities, if_neg (different order known), outbox]
    exact consistent.owed order known
  · intro entry member moving
    rw [outbox] at moving
    exact consistent.recognised entry member moving

/-- A delivered fill is taken off what its order is still expected to do. -/
theorem deliver (exact : Arithmetic.ExactSums) (consistent : Consistent ⟨v, book, j⟩) {index : Nat}
    {fill : Fill} {answer : Option Decimal} (found : v.outbox[index]? = some fill)
    (done : book.settle fill.side fill.orderId fill.amount = .ok (answer, after)) :
    Consistent ⟨{ v with outbox := v.outbox.eraseIdx index }, after, j⟩ ∧
      (answer = none → fill.orderId ∉ book.ids) := by
  obtain ⟨accepts, -⟩ := consistent.healthy.backed fill (List.mem_of_getElem? found)
  have healthy : { v with outbox := v.outbox.eraseIdx index }.Healthy :=
    consistent.healthy.congr rfl rfl rfl rfl List.eraseIdx_subset
  rcases QuoteBook.settle_reduces consistent.distinct consistent.sided done with
    ⟨known, order, inBook, same, left, subtracted, reduced⟩ | ⟨-, ignored, unknown⟩
  · -- what is left of the order is what is still owed of it
    have difference := exact.sub subtracted
    have owed : left.value = { v with outbox := v.outbox.eraseIdx index }.owed order.id := by
      rw [difference, consistent.owed order inBook, same, SimulatedVenue.owed_eraseIdx found]
      ring
    have nonneg : 0 ≤ left.value := by
      rw [owed, SimulatedVenue.owed]
      exact add_nonneg (healthy.sound.quantity_nonneg _) (healthy.undelivered_nonneg _)
    have finished : left.value ≤ 0 → quantityOf v.resting order.id = 0 ∧
        Fill.amountsOf (v.outbox.eraseIdx index) order.id = [] :=
      fun nothing => healthy.settled (owed ▸ nothing)
    refine ⟨⟨healthy, reduced.sided, reduced.distinct, consistent.accepted, ?_, ?_, ?_, ?_, ?_,
      reduced.released.trans consistent.released⟩, fun none => absurd none known⟩
    · intro other member
      rcases reduced.known other member with ⟨old, -⟩ | rfl
      · exact consistent.placed other old
      · exact consistent.placed order inBook
    · intro entry member rests
      rcases reduced.tracked _ _ (consistent.tracked entry member rests) with kept | ⟨same, nothing⟩
      · exact kept
      · exact absurd (same ▸ (finished nothing).1) rests.ne'
    · intro other member
      obtain ⟨old, wasReleased, same⟩ := List.mem_map.1
        (reduced.released.subset (List.mem_map_of_mem member))
      exact same ▸ consistent.gone old wasReleased
    · intro other member
      rcases reduced.known other member with ⟨old, different⟩ | rfl
      · exact (consistent.owed other old).trans
          (SimulatedVenue.owed_eraseIdx_other found (same ▸ different))
      · rw [value_max, value_zero, max_eq_left nonneg]
        exact owed
    · intro entry member moving
      have before := SimulatedVenue.moving_of_eraseIdx found moving
      rcases consistent.recognised entry member before with inIds | gone
      · rcases reduced.kept _ inIds with kept | ⟨same, nothing⟩
        · exact .inl kept
        · exact absurd (same ▸ (finished nothing).2) moving
      · exact .inr gone
  · -- a known order would have the side of its fill
    have notKnown : ∀ order ∈ book.known, order.id ≠ fill.orderId := by
      intro order known same
      obtain ⟨pair, accepted⟩ := consistent.known_accepted known
      have sides := (consistent.healthy.sound.accepted_unique (same ▸ accepted) accepts).2
      exact unknown order known ⟨sides, same⟩
    rw [ignored]
    refine ⟨⟨healthy, consistent.sided, consistent.distinct, consistent.accepted, consistent.placed,
      consistent.tracked, consistent.gone, ?_,
      fun entry member moving => consistent.recognised entry member
        (SimulatedVenue.moving_of_eraseIdx found moving),
      consistent.released⟩, ?_⟩
    · intro order known
      exact (consistent.owed order known).trans
        (SimulatedVenue.owed_eraseIdx_other found (notKnown order known))
    · intro _ member
      obtain ⟨order, known, same⟩ := List.mem_map.1 member
      exact notKnown order known same

theorem move (exact : Arithmetic.ExactSums) {rules : Rules} {f g : Front}
    (step : Move pair rules f g) (consistent : f.Consistent ∧ f.venue.FairBooks) :
    g.Consistent ∧ g.venue.FairBooks := by
  obtain ⟨consistent, fair⟩ := consistent
  refine ⟨?_, fair.congr step.venue_books⟩
  cases step with
  | refuse n => exact consistent.congr rfl rfl rfl rfl rfl
  | place idle aimed accepted => exact consistent.place exact fair idle accepted
  | cancel tracked found stale done => exact consistent.cancel tracked done
  | release tracked gone late => exact consistent.release tracked gone
  | orphan unknown found stale done => exact consistent.orphan unknown found done

end Front.Consistent

end MarketMaker
