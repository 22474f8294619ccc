import MarketMaker.Proofs.Engine.Prices
/-!
What the engine expects of its quotes when their fills arrive in the order in which they happened.
The quote book then computes what the venue has computed before, rounded sums included: a quote that
is tracked and the fills of it that are still to come leave what rests of it.
-/

namespace MarketMaker

open Decimal RestingOrder

/-! ### Sums of fills -/

/-- What is left of a quantity after a fill. -/
def reduced (quantity amount : ℚ) : ℚ := max (nearest (quantity - amount)) 0

/-- A quantity from which these fills in turn leave so much. Before each of them there is some. -/
def Leaves : ℚ → List ℚ → ℚ → Prop
  | quantity, [], left => quantity = left
  | quantity, amount :: amounts, left => 0 < quantity ∧ Leaves (reduced quantity amount) amounts left

theorem Leaves.append {quantity left : ℚ} {amounts : List ℚ} (leaves : Leaves quantity amounts left)
    (positive : 0 < left) (amount : ℚ) :
    Leaves quantity (amounts ++ [amount]) (reduced left amount) := by
  induction amounts generalizing quantity with
  | nil =>
    obtain rfl : quantity = left := leaves
    exact ⟨positive, rfl⟩
  | cons first amounts ih => exact ⟨leaves.1, ih leaves.2⟩

theorem Leaves.eq_nil {left : ℚ} {amounts : List ℚ} (leaves : Leaves 0 amounts left) :
    amounts = [] ∧ left = 0 := by
  cases amounts with
  | nil => exact ⟨rfl, Eq.symm leaves⟩
  | cons amount amounts => exact absurd leaves.1 (lt_irrefl 0)

theorem reduced_value [Arithmetic] (rounds : Arithmetic.Rounds) {quantity amount left : Decimal}
    (done : quantity.sub amount = .ok left) :
    max left.value 0 = reduced quantity.value amount.value := by
  rw [rounds.sub done, reduced]

/-- What executes of a new order at once leaves what rests of it. -/
theorem leaves_executed [Arithmetic] (rounds : Arithmetic.Rounds) {quantity executed left : Decimal}
    (positive : 0 < quantity.value) (least : 0 ≤ executed.value)
    (done : quantity.sub executed = .ok left) :
    Leaves quantity.value (if 0 < executed.value then [executed.value] else []) (max left.value 0) := by
  rw [reduced_value rounds done]
  split
  next => exact ⟨positive, rfl⟩
  next none =>
    have zero : executed.value = 0 := least.antisymm' (not_lt.1 none)
    rw [zero, reduced, sub_zero, nearest_value, max_eq_left positive.le]
    rfl

/-! ### Quotes and their fills -/

/-- The venue's orders are the tracked ones, and what is expected of those is what rests of them once
the pending fills are counted. -/
structure Expects (v : SimulatedVenue) (book : QuoteBook) (pending : List Fill) : Prop where
  sound : v.Sound
  sided : book.Sided
  unreleased : book.released = []
  accepted : ∀ {side order}, book.tracked side = some order → ∃ pair, v.Accepted order.id pair side
  positive : ∀ {side order}, book.tracked side = some order → 0 < order.remaining.value
  leaves : ∀ {side order}, book.tracked side = some order →
    Leaves order.remaining.value (Fill.amountsOf pending order.id) (quantityOf v.resting order.id)
  resting : ∀ order ∈ v.resting, book.isTracked order.side order.id = true
  pending : ∀ fill ∈ pending, Issued v.id fill.orderId →
    v.Backs fill ∧ book.isTracked fill.side fill.orderId = true

namespace Expects

variable {v w : SimulatedVenue} {book after : QuoteBook} {pending more : List Fill} {side : Side}
  {order : TrackedOrder} {pair : Pair} {id : OrderId} {fill : Fill}

theorem start (name : String) (feeRate : Decimal) (clock : Instant) (balances : Table String Decimal) :
    Expects { SimulatedVenue.new name feeRate clock with balances } .empty [] where
  sound := ⟨rfl, by simp [SimulatedVenue.new], List.nodup_nil, by simp [SimulatedVenue.new]⟩
  sided side order found := by cases side <;> cases found
  unreleased := rfl
  accepted {side order} found := by cases side <;> cases found
  positive {side order} found := by cases side <;> cases found
  leaves {side order} found := by cases side <;> cases found
  resting order member := by simp [SimulatedVenue.new] at member
  pending fill member := by cases member

/-- Changes of the venue that leave its orders alone. -/
theorem congr (expects : Expects v book pending) (sound : w.Sound) (same : v.Precedes w)
    (resting : w.resting = v.resting) : Expects w book pending where
  sound := sound
  sided := expects.sided
  unreleased := expects.unreleased
  accepted found := by
    obtain ⟨pair, accepted⟩ := expects.accepted found
    exact ⟨pair, accepted.mono same⟩
  positive := expects.positive
  leaves := resting ▸ expects.leaves
  resting := resting ▸ expects.resting
  pending fill member issued := by
    obtain ⟨backs, tracked⟩ := expects.pending fill member (same.id ▸ issued)
    exact ⟨backs.mono same, tracked⟩

/-- Orders of one id are on one side. -/
theorem side_unique (expects : Expects v book pending) {side' : Side} {other : TrackedOrder}
    (found : book.tracked side = some order) (found' : book.tracked side' = some other)
    (same : order.id = other.id) : side = side' := by
  obtain ⟨_, accepted⟩ := expects.accepted found
  obtain ⟨_, accepted'⟩ := expects.accepted found'
  exact (expects.sound.accepted_unique accepted (same ▸ accepted')).2

/-- A tracked order of another id is on another side, so it stays when this one is replaced. -/
theorem tracked_replaced (expects : Expects v book pending) (found : book.tracked side = some order)
    {kept : Option TrackedOrder} {side' : Side} {known : TrackedOrder}
    (found' : (book.setTracked side kept).tracked side' = some known) :
    side = side' ∧ kept = some known ∨ book.tracked side' = some known ∧ known.id ≠ order.id := by
  rw [QuoteBook.tracked_setTracked] at found'
  split at found'
  next same => exact .inl ⟨same, found'⟩
  next different =>
    exact .inr ⟨found', fun same => different (expects.side_unique found found' same.symm)⟩

/-- The fills of another venue do not matter. -/
theorem issued_of_tracked (expects : Expects v book pending)
    (found : book.tracked side = some order) : Issued v.id order.id := by
  obtain ⟨_, accepted⟩ := expects.accepted found
  exact expects.sound.issued accepted

theorem insert (expects : Expects v book (pending ++ more)) {others : List Fill}
    (foreign : ∀ fill ∈ others, ¬ Issued v.id fill.orderId) :
    Expects v book (pending ++ others ++ more) where
  sound := expects.sound
  sided := expects.sided
  unreleased := expects.unreleased
  accepted := expects.accepted
  positive := expects.positive
  leaves {side order} found := by
    have none : Fill.amountsOf others order.id = [] := by
      rw [Fill.amountsOf_eq_nil]
      exact fun fill member same => foreign fill member (same ▸ expects.issued_of_tracked found)
    have leaves := expects.leaves found
    rw [Fill.amountsOf_append] at leaves
    rw [Fill.amountsOf_append, Fill.amountsOf_append, none, List.append_nil]
    exact leaves
  resting := expects.resting
  pending fill member issued := by
    rw [List.append_assoc, List.mem_append, List.mem_append] at member
    rcases member with before | between | last
    · exact expects.pending fill (List.mem_append_left _ before) issued
    · exact absurd issued (foreign fill between)
    · exact expects.pending fill (List.mem_append_right _ last) issued

variable [Arithmetic]

/-- A fill of a resting order is one more to come. -/
theorem fillResting (rounds : Arithmetic.Rounds) (expects : Expects v book (pending ++ v.outbox))
    {requested : Option Decimal} {reply : Option Fill}
    (done : v.fillResting id requested = .ok (reply, w)) :
    Expects w book (pending ++ w.outbox) := by
  obtain ⟨sound, later, ⟨-, rfl⟩ |
    ⟨order, fill, remaining, found, -, -, sameId, left, backs, outbox, resting, quantities⟩⟩ :=
    SimulatedVenue.sound_fillResting expects.sound done
  · exact expects
  obtain ⟨member, rfl⟩ := mem_of_lookup found
  have tracked := expects.resting order member
  have sides : order.side = fill.side := by
    have accepted := expects.sound.accepted order member
    exact (expects.sound.accepted_unique accepted (sameId ▸ backs.1)).2
  have quantity : quantityOf v.resting order.id = order.quantity.value := by
    rw [quantityOf, found]
  refine ⟨sound, expects.sided, expects.unreleased, ?_, expects.positive, ?_, ?_, ?_⟩
  · intro side known found'
    obtain ⟨pair, accepted⟩ := expects.accepted found'
    exact ⟨pair, accepted.mono later⟩
  · intro side known found'
    have before := expects.leaves found'
    rw [outbox, ← List.append_assoc, Fill.amountsOf_append, Fill.amountsOf_cons, Fill.amountsOf_nil,
      quantities]
    by_cases same : known.id = order.id
    · rw [if_pos (sameId.trans same.symm), if_pos same, reduced_value rounds left, ← quantity]
      rw [same] at before ⊢
      exact before.append (expects.sound.quantity_pos found) _
    · rw [if_neg fun equal => same (equal.symm.trans sameId), if_neg same, List.append_nil]
      exact before
  · intro other inAfter
    obtain ⟨before, inBefore, ids, -, sides', -⟩ := SimulatedVenue.mem_afterFill (resting ▸ inAfter)
    exact ids ▸ sides' ▸ expects.resting before inBefore
  · intro other member' issued
    rw [outbox, ← List.append_assoc, List.mem_append, List.mem_singleton] at member'
    rcases member' with old | rfl
    · obtain ⟨backs', tracked'⟩ := expects.pending other old (later.id ▸ issued)
      exact ⟨backs'.mono later, tracked'⟩
    · refine ⟨backs.mono later, ?_⟩
      rw [sameId, ← sides]
      exact tracked

theorem setBook (rounds : Arithmetic.Rounds) (expects : Expects v book (pending ++ v.outbox))
    {offers : OrderBook} {fills : List Fill} (done : v.setBook offers = .ok (fills, w)) :
    Expects w book (pending ++ w.outbox) := by
  obtain ⟨ids, filled⟩ := SimulatedVenue.setBook_ok done
  refine SimulatedVenue.fillAll_preserves (fun v => Expects v book (pending ++ v.outbox))
    (fun expects done => expects.fillResting rounds done) ?_ filled
  exact expects.congr (expects.sound.congr rfl rfl rfl rfl) ⟨rfl, List.Subset.refl _⟩ rfl

omit [Arithmetic] in
/-- Nothing is under way of the order that the venue accepts next. -/
theorem unseen (expects : Expects v book v.outbox) : Fill.amountsOf v.outbox v.nextId = [] := by
  rw [Fill.amountsOf_eq_nil]
  intro fill member same
  have issued : Issued v.id fill.orderId := same ▸ ⟨_, rfl⟩
  exact expects.sound.nextId_fresh (same ▸ (expects.pending fill member issued).1.1)

/-- An accepted order is tracked; what executes of it at once is its first fill to come. -/
theorem place (rounds : Arithmetic.Rounds) (expects : Expects v book v.outbox)
    (fair : v.FairBooks) (idle : book.tracked side = none) {amount price : Decimal}
    {now : Instant} (done : v.placeOrder pair side amount .limit price = .ok (.ok id, w)) :
    Expects w (book.setTracked side (some (.new id side price amount now))) w.outbox := by
  rcases SimulatedVenue.placeOrder_cases done with
    ⟨_, _, impossible, -⟩ | ⟨offered, t, _, same, positive, found, terms, -, accepts⟩
  · cases impossible
  obtain rfl := Except.ok.inj same
  obtain ⟨sound, later, rfl, entered, quantities, fills, outbox, backs, amounts⟩ :=
    SimulatedVenue.sound_accept expects.sound accepts
  obtain ⟨s, _, _, -, -, -, updated⟩ := SimulatedVenue.accept_ok accepts
  have resting : w.resting = v.resting ++
      SimulatedVenue.restOf ⟨v.nextId, pair, side, price, t.remaining, v.clock⟩ := by rw [updated]
  have unknown : ∀ {other : Side} {known : TrackedOrder}, book.tracked other = some known →
      known.id ≠ v.nextId := by
    intro other known found' same
    obtain ⟨_, accepted⟩ := expects.accepted found'
    exact expects.sound.nextId_fresh (same ▸ accepted)
  have own : ∀ fill ∈ fills, fill.orderId = v.nextId := by
    intro fill member
    by_contra different
    have none := amounts fill.orderId
    rw [if_neg fun both => different both.1, Fill.amountsOf_eq_nil] at none
    exact none fill member rfl
  obtain ⟨executed, left, -⟩ := SimulatedVenue.terms_limit terms
  have least := OrderBook.execute_nonneg rounds.signed (fair found) executed
  refine ⟨sound, ?_, ?_, ?_, ?_, ?_, ?_, ?_⟩
  · intro other known found'
    rcases QuoteBook.tracked_of_setTracked found' with ⟨rfl, rfl⟩ | before
    · rfl
    · exact expects.sided before
  · rw [QuoteBook.released_setTracked]
    exact expects.unreleased
  · intro other known found'
    rcases QuoteBook.tracked_of_setTracked found' with ⟨rfl, rfl⟩ | before
    · exact ⟨pair, entered⟩
    · obtain ⟨pair', accepted⟩ := expects.accepted before
      exact ⟨pair', accepted.mono later⟩
  · intro other known found'
    rcases QuoteBook.tracked_of_setTracked found' with ⟨rfl, rfl⟩ | before
    · exact positive
    · exact expects.positive before
  · intro other known found'
    rw [outbox, Fill.amountsOf_append, amounts, quantities]
    rcases QuoteBook.tracked_of_setTracked found' with ⟨rfl, rfl⟩ | before
    · rw [show (TrackedOrder.new v.nextId side price amount now).id = v.nextId from rfl, expects.unseen,
        List.nil_append, if_pos rfl]
      simp only [true_and]
      exact leaves_executed rounds positive least left
    · rw [if_neg fun both => unknown before both.1, if_neg (unknown before), List.append_nil]
      exact expects.leaves before
  · intro order member
    rw [resting, List.mem_append] at member
    rcases member with old | added
    · exact QuoteBook.isTracked_setTracked_of_idle idle (expects.resting order old)
    · obtain ⟨rfl, -⟩ := SimulatedVenue.mem_restOf.1 added
      exact QuoteBook.isTracked_setTracked side (.new v.nextId side price amount now)
  · intro fill member issued
    rw [outbox, List.mem_append] at member
    rcases member with old | added
    · obtain ⟨backed, tracked⟩ := expects.pending fill old (later.id ▸ issued)
      exact ⟨backed.mono later, QuoteBook.isTracked_setTracked_of_idle idle tracked⟩
    · have backed := backs fill added
      refine ⟨backed, ?_⟩
      have sides := (sound.accepted_unique entered (own fill added ▸ backed.1)).2
      rw [own fill added, ← sides]
      exact QuoteBook.isTracked_setTracked side (.new v.nextId side price amount now)

omit [Arithmetic] in
/-- Nothing is expected any more of an order that neither rests nor has fills to come. -/
theorem drop (expects : Expects v book pending) (found : book.tracked side = some order)
    (sound : w.Sound) (later : v.Precedes w)
    (rests : ∀ other ∈ w.resting, other ∈ v.resting ∧ other.id ≠ order.id)
    (quantities : ∀ other, other ≠ order.id →
      quantityOf w.resting other = quantityOf v.resting other)
    (fewer : ∀ fill ∈ more, fill ∈ pending ∧ fill.orderId ≠ order.id)
    (amounts : ∀ other, other ≠ order.id →
      Fill.amountsOf more other = Fill.amountsOf pending other) :
    Expects w (book.setTracked side none) more := by
  have others : ∀ {side' : Side} {known : TrackedOrder},
      (book.setTracked side none).tracked side' = some known →
        book.tracked side' = some known ∧ known.id ≠ order.id := by
    intro side' known found'
    rcases expects.tracked_replaced found found' with ⟨-, none⟩ | other
    · cases none
    · exact other
  refine ⟨sound, ?_, ?_, ?_, ?_, ?_, ?_, ?_⟩
  · intro side' known found'
    exact expects.sided (others found').1
  · rw [QuoteBook.released_setTracked]
    exact expects.unreleased
  · intro side' known found'
    obtain ⟨pair, accepted⟩ := expects.accepted (others found').1
    exact ⟨pair, accepted.mono later⟩
  · intro side' known found'
    exact expects.positive (others found').1
  · intro side' known found'
    obtain ⟨before, different⟩ := others found'
    rw [amounts _ different, quantities _ different]
    exact expects.leaves before
  · intro other member
    obtain ⟨before, different⟩ := rests other member
    exact QuoteBook.isTracked_setTracked_none found different (expects.resting other before)
  · intro fill member issued
    obtain ⟨before, different⟩ := fewer fill member
    obtain ⟨backs, tracked⟩ := expects.pending fill before (later.id ▸ issued)
    exact ⟨backs.mono later, QuoteBook.isTracked_setTracked_none found different tracked⟩

omit [Arithmetic] in
/-- A tracked order of which less is expected. -/
theorem reduce (expects : Expects v book pending) (found : book.tracked side = some order)
    {less : TrackedOrder} (sameId : less.id = order.id) (sameSide : less.side = order.side)
    (positive : 0 < less.remaining.value)
    (leaves : Leaves less.remaining.value (Fill.amountsOf more order.id)
      (quantityOf v.resting order.id))
    (fewer : ∀ fill ∈ more, fill ∈ pending)
    (amounts : ∀ other, other ≠ order.id →
      Fill.amountsOf more other = Fill.amountsOf pending other) :
    Expects v (book.setTracked side (some less)) more := by
  have others : ∀ {side' : Side} {known : TrackedOrder},
      (book.setTracked side (some less)).tracked side' = some known →
        side = side' ∧ known = less ∨ book.tracked side' = some known ∧ known.id ≠ order.id := by
    intro side' known found'
    rcases expects.tracked_replaced found found' with ⟨same, new⟩ | other
    · exact .inl ⟨same, (Option.some.inj new).symm⟩
    · exact .inr other
  refine ⟨expects.sound, ?_, ?_, ?_, ?_, ?_, ?_, ?_⟩
  · intro side' known found'
    rcases others found' with ⟨rfl, rfl⟩ | ⟨before, -⟩
    · exact sameSide.trans (expects.sided found)
    · exact expects.sided before
  · rw [QuoteBook.released_setTracked]
    exact expects.unreleased
  · intro side' known found'
    rcases others found' with ⟨rfl, rfl⟩ | ⟨before, -⟩
    · exact sameId ▸ expects.accepted found
    · exact expects.accepted before
  · intro side' known found'
    rcases others found' with ⟨rfl, rfl⟩ | ⟨before, -⟩
    · exact positive
    · exact expects.positive before
  · intro side' known found'
    rcases others found' with ⟨rfl, rfl⟩ | ⟨before, different⟩
    · exact sameId ▸ leaves
    · rw [amounts _ different]
      exact expects.leaves before
  · intro other member
    exact QuoteBook.isTracked_setTracked_same found sameId (expects.resting other member)
  · intro fill member issued
    obtain ⟨backs, tracked⟩ := expects.pending fill (fewer fill member) issued
    exact ⟨backs, QuoteBook.isTracked_setTracked_same found sameId tracked⟩

theorem cancel (expects : Expects v book v.outbox) (found : book.tracked side = some order)
    (still : Fill.amountsOf v.outbox order.id = [])
    (done : v.cancelOrder pair order.id = .ok (.ok (), w)) :
    Expects w (book.setTracked side none) w.outbox := by
  obtain ⟨sound, later, outbox, resting, quantities⟩ :=
    SimulatedVenue.sound_cancel expects.sound done
  rw [outbox]
  refine expects.drop found sound later ?_ ?_ ?_ fun _ _ => rfl
  · intro other member
    rw [resting] at member
    obtain ⟨before, different⟩ := List.mem_filter.1 member
    exact ⟨before, by simpa using different⟩
  · intro other different
    rw [quantities, if_neg different]
  · exact fun fill member => ⟨member, Fill.amountsOf_eq_nil.1 still fill member⟩

/-- The next fill to come is one of a tracked order, and that order is reduced by it. -/
theorem deliver (rounds : Arithmetic.Rounds) (expects : Expects v book (fill :: pending))
    (issued : Issued v.id fill.orderId) {answer : Option Decimal}
    (done : book.settle fill.side fill.orderId fill.amount = .ok (answer, after)) :
    answer ≠ none ∧ Expects v after pending := by
  obtain ⟨backs, tracked⟩ := expects.pending fill List.mem_cons_self issued
  obtain ⟨known, found, same⟩ := QuoteBook.isTracked_iff.1 tracked
  rcases QuoteBook.settle_cases done with
    ⟨order, left, found', sameId, subtracted, answered, rfl⟩ | ⟨_, _, _, _, split, -⟩ |
    ⟨-, -, untracked, -⟩
  · refine ⟨answered, ?_⟩
    have leaves := expects.leaves found'
    rw [Fill.amountsOf_cons, if_pos sameId.symm] at leaves
    have rest := leaves.2
    rw [← reduced_value rounds subtracted] at rest
    have amounts : ∀ other, other ≠ order.id →
        Fill.amountsOf pending other = Fill.amountsOf (fill :: pending) other := by
      intro other different
      rw [Fill.amountsOf_cons, if_neg fun equal => different (equal.symm.trans sameId.symm)]
    split
    next more =>
      refine expects.reduce found' rfl rfl (more.trans_le ?_) ?_
        (fun other member => List.mem_cons_of_mem _ member) amounts
      · rw [value_max]
        exact le_max_left _ _
      · rw [value_max, value_zero]
        exact rest
    next nothing =>
      rw [max_eq_right (not_lt.1 nothing)] at rest
      obtain ⟨none, gone⟩ := rest.eq_nil
      refine expects.drop found' expects.sound (.refl v) ?_ (fun _ _ => rfl) ?_ amounts
      · intro other member
        refine ⟨member, fun equal => ?_⟩
        have quantity := quantityOf_of_mem expects.sound.distinct member
        have positive := expects.sound.positive other member
        rw [equal, gone] at quantity
        exact positive.ne quantity
      · intro other member
        exact ⟨List.mem_cons_of_mem _ member, Fill.amountsOf_eq_nil.1 none other member⟩
  · rw [expects.unreleased] at split
    exact absurd split (by simp)
  · exact absurd same (untracked known found)

/-- A fill of another venue is of no known order. -/
theorem ignore (expects : Expects v book (fill :: pending)) (foreign : ¬ Issued v.id fill.orderId)
    {answer : Option Decimal}
    (done : book.settle fill.side fill.orderId fill.amount = .ok (answer, after)) :
    answer = none ∧ after = book ∧ Expects v book pending := by
  have unknown : ∀ {side : Side} {order : TrackedOrder}, book.tracked side = some order →
      fill.orderId ≠ order.id :=
    fun found same => foreign (same ▸ expects.issued_of_tracked found)
  rcases QuoteBook.settle_cases done with
    ⟨order, left, found, sameId, -⟩ | ⟨_, _, _, _, split, -⟩ | ⟨nothing, same, -⟩
  · exact absurd sameId.symm (unknown found)
  · rw [expects.unreleased] at split
    exact absurd split (by simp)
  · refine ⟨nothing, same, expects.sound, expects.sided, expects.unreleased, expects.accepted,
      expects.positive, ?_, expects.resting, ?_⟩
    · intro side order found
      have leaves := expects.leaves found
      rw [Fill.amountsOf_cons, if_neg (unknown found)] at leaves
      exact leaves
    · exact fun other member => expects.pending other (List.mem_cons_of_mem _ member)

end Expects

/-! ### Ticks and stops -/

/-- The state between two moves. Fills under way are all of quotes that were just placed. -/
structure Front.Prompt (rules : Rules) (f : Front) : Prop where
  expects : Expects f.venue f.book f.venue.outbox
  healthy : f.venue.Healthy
  ready : ∀ {side price}, rules.aim side price →
    f.venue.FairBooks ∧ f.venue.clock = rules.now
  fresh : ∀ {side order}, f.book.tracked side = some order →
    Fill.amountsOf f.venue.outbox order.id ≠ [] → order.createdAt = rules.now ∧
      ∀ live, lookup order.id f.venue.resting = some live →
        rules.aim side live.price ∧ live.createdAt = rules.now

namespace Front.Prompt

variable [Arithmetic] {rules : Rules} {f g : Front} {pair : Pair} {v w : SimulatedVenue}
  {book : QuoteBook} {j : Journal} {side : Side} {order : TrackedOrder}

/-- A new quote is as fresh as the fills of it, and no other order is affected. -/
theorem fresh_place (prompt : Front.Prompt rules ⟨v, book, j⟩) {amount price : Decimal} {id : OrderId}
    (aimed : rules.aim side price)
    (accepted : v.placeOrder pair side amount .limit price = .ok (.ok id, w)) {side' : Side}
    (found : (book.setTracked side (some (.new id side price amount rules.now))).tracked side' =
      some order)
    (moving : Fill.amountsOf w.outbox order.id ≠ []) : order.createdAt = rules.now ∧
      ∀ live, lookup order.id w.resting = some live →
        rules.aim side' live.price ∧ live.createdAt = rules.now := by
  obtain ⟨expects, -, ready, fresh⟩ := prompt
  obtain ⟨rfl, still, remaining, resting⟩ := SimulatedVenue.placeOrder_resting accepted
  rcases QuoteBook.tracked_of_setTracked found with ⟨rfl, rfl⟩ | before
  · refine ⟨rfl, fun live rests => ?_⟩
    rw [resting, lookup_append, TrackedOrder.new, expects.sound.lookup_nextId,
      Option.none_or] at rests
    obtain ⟨rfl, -⟩ := SimulatedVenue.mem_restOf.1 (mem_of_lookup rests).1
    exact ⟨aimed, (ready aimed).2⟩
  · have different : order.id ≠ v.nextId := by
      intro same
      obtain ⟨_, known⟩ := expects.accepted before
      exact expects.sound.nextId_fresh (same ▸ known)
    rw [SimulatedVenue.amountsOf_placeOrder expects.sound accepted _ different] at moving
    obtain ⟨created, aimed'⟩ := fresh before moving
    refine ⟨created, fun live rests => aimed' live ?_⟩
    rw [resting, lookup_append, Option.or_eq_some_iff] at rests
    rcases rests with old | ⟨-, new'⟩
    · exact old
    · obtain ⟨member, sameId⟩ := mem_of_lookup new'
      obtain ⟨rfl, -⟩ := SimulatedVenue.mem_restOf.1 member
      exact absurd sameId.symm different

omit [Arithmetic] in
/-- A stale order is not one with fills under way. -/
theorem still_of_stale (patient : rules.Patient) (prompt : Front.Prompt rules ⟨v, book, j⟩)
    (tracked : book.tracked side = some order) {live : RestingOrder}
    (found : lookup order.id v.resting = some live)
    (stale : rules.stale side live.price live.createdAt) : Fill.amountsOf v.outbox order.id = [] := by
  by_contra moving
  obtain ⟨-, aimed⟩ := prompt.fresh tracked moving
  obtain ⟨aim, created⟩ := aimed live found
  exact patient.fresh side live.price aim (created ▸ stale)

theorem fresh_cancel (prompt : Front.Prompt rules ⟨v, book, j⟩) {id : OrderId}
    (done : v.cancelOrder pair id = .ok (.ok (), w)) {side' : Side}
    (found : (book.setTracked side none).tracked side' = some order)
    (moving : Fill.amountsOf w.outbox order.id ≠ []) : order.createdAt = rules.now ∧
      ∀ live, lookup order.id w.resting = some live →
        rules.aim side' live.price ∧ live.createdAt = rules.now := by
  obtain ⟨-, -, outbox, resting, -⟩ := SimulatedVenue.sound_cancel prompt.expects.sound done
  rw [QuoteBook.tracked_setTracked] at found
  split at found
  next => cases found
  next =>
    rw [outbox] at moving
    obtain ⟨created, aimed⟩ := prompt.fresh found moving
    refine ⟨created, fun live rests => aimed live ?_⟩
    rw [resting, SimulatedVenue.remove, lookup_remove] at rests
    split at rests
    next => cases rests
    next => exact rests

omit [Arithmetic] in
/-- A tracked order that does not rest is not late, since its fills are under way. -/
theorem not_late (patient : rules.Patient) (prompt : Front.Prompt rules ⟨v, book, j⟩)
    (tracked : book.tracked side = some order) (gone : lookup order.id v.resting = none) :
    ¬ rules.late order.createdAt := by
  intro late
  by_cases moving : Fill.amountsOf v.outbox order.id = []
  · have leaves := prompt.expects.leaves tracked
    rw [moving, quantityOf_of_absent gone] at leaves
    exact (prompt.expects.positive tracked).ne' leaves
  · exact patient.early ((prompt.fresh tracked moving).1 ▸ late)

/-- A stale order has no fills under way, so it can be forgotten; and nothing that is tracked is let go. -/
theorem move (rounds : Arithmetic.Rounds) (patient : rules.Patient) (step : Move pair rules f g)
    (prompt : f.Prompt rules) : g.Prompt rules := by
  have healthy := step.venue_healthy prompt.healthy
  have ready : ∀ {side price}, rules.aim side price →
      g.venue.FairBooks ∧ g.venue.clock = rules.now := by
    intro side price aim
    obtain ⟨fair, clock⟩ := prompt.ready aim
    exact ⟨fair.congr step.venue_books, step.venue_clock.trans clock⟩
  cases step with
  | refuse n =>
    exact ⟨prompt.expects.congr healthy.sound ⟨rfl, List.Subset.refl _⟩ rfl, healthy, ready,
      prompt.fresh⟩
  | place idle aimed accepted =>
    exact ⟨prompt.expects.place rounds (prompt.ready aimed).1 idle accepted, healthy, ready,
      prompt.fresh_place aimed accepted⟩
  | cancel tracked found stale done =>
    have still := prompt.still_of_stale patient tracked found stale
    exact ⟨prompt.expects.cancel tracked still done, healthy, ready, prompt.fresh_cancel done⟩
  | release tracked gone late => exact absurd late (prompt.not_late patient tracked gone)
  | orphan unknown found stale done =>
    obtain ⟨member, -⟩ := mem_of_lookup found
    obtain ⟨order, tracked, same⟩ := QuoteBook.isTracked_iff.1 (prompt.expects.resting _ member)
    have contained := QuoteBook.contains_iff.2 ⟨order, QuoteBook.mem_resting.2 ⟨_, tracked⟩, same⟩
    rw [unknown] at contained
    cases contained

theorem moves (rounds : Arithmetic.Rounds) (patient : rules.Patient)
    (steps : Relation.ReflTransGen (Move pair rules) f g) (prompt : f.Prompt rules) :
    g.Prompt rules ∧ g.venue.books = f.venue.books ∧ f.venue.Precedes g.venue := by
  induction steps with
  | refl => exact ⟨prompt, rfl, .refl _⟩
  | tail _ step ih =>
    obtain ⟨prompt', books, later⟩ := ih
    exact ⟨prompt'.move rounds patient step, step.venue_books.trans books,
      later.trans (step.venue_sound prompt'.healthy.sound).2⟩

end Front.Prompt

end MarketMaker
