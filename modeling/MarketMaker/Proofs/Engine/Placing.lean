import MarketMaker.Proofs.Engine.Submission
import MarketMaker.Proofs.Engine.Transcript
/-!
A round of placing on any two venues. Each idle side is tried, whatever came of the other side, with one
order at most; it counts as placed exactly if its order was granted, and then the book tracks that order.
The amount has passed through two divisions by the lot, and where neither was rounded it is at most the
order size.
-/

namespace MarketMaker

open Decimal

namespace Tick

variable [Arithmetic] {value step price : Decimal}

/-- Rounding down finds the whole steps, and then the decimal that is nearest to them. -/
theorem down_value (rounds : Arithmetic.Rounds) (divides : Divides value step) (unit : 0 < step.value)
    (done : Tick.down value step = .ok price) :
    price.value = Decimal.nearest (⌊value.value / step.value⌋ * step.value) := by
  obtain ⟨steps, quotient, found⟩ := roundWith_divided rounds divides unit done
  rw [found, value_floor, quotient]

end Tick

/-- The amount is what whole lots there are in a quantity, if that many lots have a decimal. -/
def Lot.Fills (amount quantity lot : Decimal) : Prop :=
  0 < lot.value → (∃ a : Decimal, a.value = ⌊quantity.value / lot.value⌋ * lot.value) →
    amount.value = ⌊quantity.value / lot.value⌋ * lot.value

theorem Lot.down_fills [Arithmetic] {quantity lot amount : Decimal} (rounds : Arithmetic.Rounds)
    (divides : Tick.Divides quantity lot) (done : Lot.down quantity lot = .ok amount) :
    Lot.Fills amount quantity lot := by
  rintro unit ⟨a, same⟩
  rw [Tick.down_value rounds divides unit done, ← same, nearest_value]

/-- The venue never gives back a candidate for more than it was given. -/
def Adapter.Lowers {σ : Type} (venue : Adapter σ) : Prop :=
  ∀ ⦃candidate allOrNone s adjusted t⦄,
    Act.Leads (venue.adjustCandidate candidate allOrNone).run s (.ok adjusted) t →
      adjusted.amount.value ≤ candidate.amount.value

namespace Quoting

open Act
open Turn (orders)

variable {σ α β : Type} [Arithmetic] {desk : Desk σ} {p : Parameters} {quotes : MarketQuotes}
  {side : Side} {now : Instant} {book other after : QuoteBook} {placement : Placement}
  {id : OrderId} {price amount : Decimal} {s t : σ}

/-! ### One side -/

/-- The other side of the book has no part in it. -/
theorem placeSide_congr (same : other.tracked side = book.tracked side)
    (led : Leads (placeSide desk p quotes now side book) s (placement, after) t) :
    Leads (placeSide desk p quotes now side other) s
      (placement, other.setTracked side (after.tracked side)) t := by
  have idle : other.isIdle side = book.isIdle side := congrArg Option.isNone same
  refine leads_placeSide.2 ?_
  rcases leads_placeSide.1 led with ⟨rests, rfl, rfl, rfl⟩ | ⟨free, rfl, tried⟩
  · refine .inl ⟨idle.trans rests, rfl, ?_, rfl⟩
    rw [← same, QuoteBook.setTracked_tracked]
  · refine .inr ⟨idle.trans free, ?_, tried⟩
    rw [QuoteBook.tracked_setTracked, if_pos rfl]

/-- Only the side itself changes. -/
theorem placeSide_keeps (led : Leads (placeSide desk p quotes now side book) s (placement, after) t) :
    after = book.setTracked side (after.tracked side) := by
  rcases leads_placeSide.1 led with ⟨-, -, rfl, -⟩ | ⟨-, same, -⟩
  · rw [QuoteBook.setTracked_tracked]
  · rw [same, QuoteBook.tracked_setTracked, if_pos rfl]

/-- Where neither division by the lot is rounded, a quote is at most of the order size. -/
theorem Sized.le {budget wanted : Decimal} {adjusted : Candidate} (rounds : Arithmetic.Rounds)
    (lowers : desk.maker.Lowers)
    (sized : Sized desk p quotes side price s budget wanted adjusted amount t)
    (first : Tick.Divides (min p.orderAmount budget) p.maker.lotSize)
    (second : Tick.Divides adjusted.amount p.maker.lotSize) :
    amount.value ≤ p.orderAmount.value := by
  obtain ⟨u, -, allowed⟩ := sized.asked
  have cut : wanted.value ≤ (min p.orderAmount budget).value := Tick.down_le rounds first sized.cut
  have lowered := lowers allowed
  change adjusted.amount.value ≤ wanted.value at lowered
  have cutAgain : amount.value ≤ adjusted.amount.value := Tick.down_le rounds second sized.cutAgain
  rw [value_min] at cut
  exact (cutAgain.trans lowered).trans (cut.trans (min_le_left _ _))

/-- A quote whose order was granted under this id, from the first request for it to the last. -/
structure Granted (desk : Desk σ) (p : Parameters) (quotes : MarketQuotes) (side : Side) (s : σ)
    (id : OrderId) (price amount : Decimal) (t : σ) : Prop where
  target : p.targetPrice quotes side = .ok price
  positive : 0 < amount.value
  atLeast : p.minOrderAmount.value ≤ amount.value
  sent : ∃ u v budget wanted adjusted,
    Leads (checkPositionLimit desk p quotes side p.orderAmount price).run s (.ok true) u ∧
    Sized desk p quotes side price u budget wanted adjusted amount v ∧
    Leads (desk.maker.placeOrder p.maker.pair side amount .limit price).run v (.ok id) t ∧
    (Tick.Divides (min p.orderAmount budget) p.maker.lotSize →
      Tick.Divides adjusted.amount p.maker.lotSize →
        amount.value ≤ p.orderAmount.value ∧
          Lot.Fills amount adjusted.amount p.maker.lotSize)

theorem attempt_granted (rounds : Arithmetic.Rounds) (lowers : desk.maker.Lowers)
    (led : Leads (attempt desk p quotes side).run s (.ok (.placed id price amount)) t) :
    Granted desk p quotes side s id price amount t := by
  obtain ⟨u, v, budget, wanted, adjusted, target, within, sized, some', atLeast, accepted⟩ :=
    attempt_placed led
  refine ⟨target, not_nonpos_iff_value.1 some', not_lt_iff_value.1 atLeast, u, v, budget, wanted,
    adjusted, within, sized, accepted, fun first second => ?_⟩
  exact ⟨sized.le rounds lowers first second, Lot.down_fills rounds second sized.cutAgain⟩

/-! ### What is asked -/

theorem quiet_hedgingBudget :
    Quiet (hedgingBudget desk p quotes side) (hedgingBudget desk.noted p quotes side) := by
  refine (quiet_request (by simp [Message.kind])).bind fun balance => ?_
  cases side with
  | buy => exact quiet_pure
  | sell => exact quiet_lift

/-- The position limit is never checked without a question. -/
theorem noted_checkPositionLimit :
    Noted (checkPositionLimit desk p quotes side amount price).run
      (checkPositionLimit desk.noted p quotes side amount price).run
      fun _ turns => turns ≠ [] ∧ orders turns = [] := by
  refine noted_request.run_bind (fun e turns asked => ?_) fun makerBalance turns asked => ?_
  · rw [asked]
    exact ⟨List.cons_ne_nil _ _, rfl⟩
  -- what is asked after the maker's balance places no order, either
  have quiet : ∀ {next : Call σ Bool} {next' : Call (σ × List Turn) Bool}, Quiet next next' →
      Noted next.run next'.run fun _ more => turns ++ more ≠ [] ∧ orders (turns ++ more) = [] := by
    intro next next' rest
    refine rest.mono fun _ more none => ⟨?_, ?_⟩
    · simp [asked]
    · rw [Turn.orders_append, none, asked]
      rfl
  have asks : ∀ who asset (balances : Call σ Decimal), Quiet balances
      (balances.noted who (.availableBalance asset)) := fun who asset balances =>
    quiet_request (by simp [Message.kind])
  cases side with
  | buy =>
    exact quiet (quiet_lift.bind fun needed => (asks _ _ _).bind fun balance =>
      quiet_pure.bind fun needed' => quiet_pure)
  | sell =>
    exact quiet (quiet_pure.bind fun needed => (asks _ _ _).bind fun balance =>
      quiet_lift.bind fun needed' => quiet_pure)

/-- No order was sent and nothing placed, or the one order that was sent decides what came of it. -/
def Offered (p : Parameters) (side : Side) (r : Except VenueError Placement) (turns : List Turn) :
    Prop :=
  (orders turns = [] ∧ (Placement.ofReply r).isPlaced = false ∧
    Placement.ofReply r ≠ .alreadyResting) ∨
  ∃ price amount, ∃ reply : Except VenueError OrderId,
    orders turns = [⟨.maker, .placeOrder p.maker.pair side amount .limit price, reply.isOk⟩] ∧
    r = reply.map fun id => .placed id price amount

omit [Arithmetic] in
theorem offered_bind {step : Call σ α} {noted : Call (σ × List Turn) α} {next : α → Call σ Placement}
    {next' : α → Call (σ × List Turn) Placement} (first : Quiet step noted)
    (rest : ∀ a, Noted (next a).run (next' a).run (Offered p side)) :
    Noted (step >>= next).run (noted >>= next').run (Offered p side) :=
  first.run_bind (fun r turns more same offered => by rwa [Offered, same])
    (fun e => .inl ⟨rfl, rfl, by simp [Placement.ofReply]⟩) rest

omit [Arithmetic] in
/-- The last request of an attempt is its only order. -/
theorem offered_placeOrder {call : Call σ OrderId} :
    Noted (call >>= fun id => pure (.placed id price amount) : Call σ Placement).run
      (call.noted .maker (.placeOrder p.maker.pair side amount .limit price) >>=
        fun id => pure (.placed id price amount)).run (Offered p side) := by
  refine noted_request.run_bind (fun e turns sent => ?_) fun id turns sent => noted_pure ?_
  · exact .inr ⟨price, amount, .error e, by rw [sent]; rfl, rfl⟩
  · exact .inr ⟨price, amount, .ok id, by rw [List.append_nil, sent]; rfl, rfl⟩

/-- An attempt asks something in any case, and sends at most one order. -/
theorem noted_attempt :
    Noted (attempt desk p quotes side).run (attempt desk.noted p quotes side).run fun r turns =>
      turns ≠ [] ∧ Offered p side r turns := by
  rw [attempt, attempt]
  have priced : Noted (monadLift (p.targetPrice quotes side) : Call σ Decimal).run
      (monadLift (p.targetPrice quotes side) : Call (σ × List Turn) Decimal).run
      fun r turns => turns = [] ∧ r.isOk = true := noted_run_lift fun _ _ => ⟨rfl, rfl⟩
  refine priced.run_bind (fun e turns impossible => ?_) fun price turns nothing => ?_
  · cases impossible.2
  obtain ⟨rfl, -⟩ := nothing
  refine noted_checkPositionLimit.run_bind (fun e turns asked => ?_) fun within turns asked => ?_
  · exact ⟨asked.1, .inl ⟨asked.2, rfl, by simp [Placement.ofReply]⟩⟩
  -- no order was sent so far, so the rest decides
  suffices rest : Noted _ _ (Offered p side) from rest.mono fun r more offered => by
    refine ⟨by simp [asked.1], ?_⟩
    rw [Offered, List.nil_append, Turn.orders_append, asked.2, List.nil_append]
    exact offered
  cases within with
  | false => exact noted_pure (.inl ⟨rfl, rfl, by simp [Placement.ofReply]⟩)
  | true =>
    refine offered_bind quiet_hedgingBudget fun budget => offered_bind quiet_lift fun wanted => ?_
    refine offered_bind (quiet_request (by simp [Message.kind])) fun adjusted => ?_
    refine offered_bind quiet_lift fun amount => ?_
    split
    next => exact noted_pure (.inl ⟨rfl, rfl, by simp [Placement.ofReply]⟩)
    next => exact offered_placeOrder

/-- The requests of a round for one side, which was idle or not. -/
structure Requested (p : Parameters) (side : Side) (idle : Bool) (placement : Placement)
    (turns : List Turn) : Prop where
  /-- For a side that rests there are none. -/
  resting : idle = false → placement = .alreadyResting ∧ turns = []
  tried : idle = true → placement ≠ .alreadyResting ∧ turns ≠ []
  once : (orders turns).length ≤ 1
  granted : placement.isPlaced = true ↔ ∃ turn ∈ orders turns, turn.granted = true
  sent : ∀ id price amount, placement = .placed id price amount →
    orders turns = [⟨.maker, .placeOrder p.maker.pair side amount .limit price, true⟩]

omit [Arithmetic] in
theorem requested_of_offered {r : Except VenueError Placement} {turns : List Turn} (asked : turns ≠ [])
    (offered : Offered p side r turns) : Requested p side true (.ofReply r) turns := by
  obtain ⟨none, unplaced, tried⟩ | ⟨price, amount, reply, sent, rfl⟩ := offered
  · refine ⟨nofun, fun _ => ⟨tried, asked⟩, by simp [none], by simp [none, unplaced], ?_⟩
    intro id price amount placed
    simp [placed, Placement.isPlaced] at unplaced
  · refine ⟨nofun, fun _ => ⟨?_, asked⟩, by simp [sent], ?_, ?_⟩
    · cases reply <;> simp [Except.map, Placement.ofReply]
    · cases reply <;> simp [sent, Except.map, Placement.ofReply, Placement.isPlaced, Except.isOk,
        Except.toBool]
    · intro id price' amount' placed
      cases reply with
      | error e => simp [Except.map, Placement.ofReply] at placed
      | ok id' =>
        obtain ⟨-, rfl, rfl⟩ := Placement.placed.inj placed
        exact sent

theorem noted_placeSide :
    Noted (placeSide desk p quotes now side book) (placeSide desk.noted p quotes now side book)
      fun result turns => Requested p side (book.isIdle side) result.1 turns := by
  rintro s ⟨placement, after⟩ t led
  rcases leads_placeSide.1 led with ⟨rests, rfl, rfl, rfl⟩ | ⟨idle, rfl, r, tried, rfl⟩
  · refine ⟨[], ?_, fun notes => leads_placeSide.2 (.inl ⟨rests, rfl, rfl, by simp⟩)⟩
    exact ⟨fun _ => ⟨rfl, rfl⟩, by simp [rests], by simp [orders], by simp [orders, Placement.isPlaced],
      nofun⟩
  · obtain ⟨turns, ⟨asked, offered⟩, leads⟩ := noted_attempt tried
    refine ⟨turns, ?_, fun notes => leads_placeSide.2 (.inr ⟨idle, rfl, r, leads notes, rfl⟩)⟩
    rw [idle]
    exact requested_of_offered asked offered

/-! ### Both sides -/

/-- What a round did for one side, beside the requests that were sent for it. -/
structure Round (desk : Desk σ) (p : Parameters) (quotes : MarketQuotes) (now : Instant)
    (book : QuoteBook) (side : Side) (s : σ) (placement : Placement) (after : QuoteBook)
    (turns : List Turn) (t : σ) : Prop where
  requested : Requested p side (book.isIdle side) placement turns
  placed : ∀ id price amount, placement = .placed id price amount →
    after.tracked side = some (.new id side price amount now) ∧
      Granted desk p quotes side s id price amount t
  unplaced : placement.isPlaced = false → after.tracked side = book.tracked side

theorem placeSide_round (rounds : Arithmetic.Rounds) (lowers : desk.maker.Lowers)
    (led : Leads (placeSide desk p quotes now side book) s (placement, after) t) :
    ∃ turns, Round desk p quotes now book side s placement after turns t ∧ ∀ notes,
      Leads (placeSide desk.noted p quotes now side book) (s, notes) (placement, after)
        (t, notes ++ turns) := by
  obtain ⟨turns, requested, leads⟩ := noted_placeSide led
  refine ⟨turns, ⟨requested, ?_, ?_⟩, leads⟩
  · rintro id price amount rfl
    obtain ⟨-, rfl, tried⟩ := placeSide_placed led
    refine ⟨?_, attempt_granted rounds lowers tried⟩
    rw [QuoteBook.tracked_setTracked, if_pos rfl]
  · intro unplaced
    rcases leads_placeSide.1 led with ⟨-, -, rfl, -⟩ | ⟨idle, rfl, -⟩
    · rfl
    · rw [Placement.tracked?_of_not_isPlaced unplaced, QuoteBook.setTracked_none idle]

/-- A round for a side is about that side of the book only. -/
theorem Round.congr {turns : List Turn} {after' : QuoteBook}
    (round : Round desk p quotes now book side s placement after turns t)
    (before : other.tracked side = book.tracked side)
    (later : after'.tracked side = after.tracked side) :
    Round desk p quotes now other side s placement after' turns t := by
  have idle : other.isIdle side = book.isIdle side := congrArg Option.isNone before
  exact {
    requested := idle ▸ round.requested
    placed := fun id price amount same => later ▸ round.placed id price amount same
    unplaced := fun none => (later.trans (round.unplaced none)).trans before.symm }

/-- A round of placing is one round for each side. The ask does what it would do on the book as it was:
nothing that came of the bid has a part in it, but for the world that the bid leaves. -/
theorem placeQuotes_rounds (rounds : Arithmetic.Rounds) (lowers : desk.maker.Lowers)
    {placements : List (Side × Placement)}
    (led : Leads (placeQuotes desk p quotes now book) s (placements, after) t) :
    ∃ bid ask bidBook askBook u bidTurns askTurns,
      placements = [(.buy, bid), (.sell, ask)] ∧
      after = ⟨bidBook.buy, askBook.sell, book.released⟩ ∧
      Leads (placeSide desk.noted p quotes now .buy book) (s, []) (bid, bidBook) (u, bidTurns) ∧
      Leads (placeSide desk.noted p quotes now .sell book) (u, []) (ask, askBook) (t, askTurns) ∧
      Leads (placeQuotes desk.noted p quotes now book) (s, []) (placements, after)
        (t, bidTurns ++ askTurns) ∧
      Round desk p quotes now book .buy s bid after bidTurns u ∧
      Round desk p quotes now book .sell u ask after askTurns t := by
  obtain ⟨bid, ask, between, u, rfl, first, second⟩ := leads_placeQuotes.1 led
  obtain ⟨bidTurns, bidRound, bidNoted⟩ := placeSide_round rounds lowers first
  obtain ⟨askTurns, askRound, askNoted⟩ := placeSide_round rounds lowers second
  have bidOnly := placeSide_keeps first
  have askOnly := placeSide_keeps second
  have sell : book.tracked .sell = between.tracked .sell := by
    rw [bidOnly, QuoteBook.tracked_setTracked, if_neg (by decide)]
  have buy : after.tracked .buy = between.tracked .buy := by
    rw [askOnly, QuoteBook.tracked_setTracked, if_neg (by decide)]
  have released : after.released = book.released := by
    rw [askOnly, QuoteBook.released_setTracked, bidOnly, QuoteBook.released_setTracked]
  refine ⟨bid, ask, between, book.setTracked .sell (after.tracked .sell), u, bidTurns, askTurns, rfl,
    ?_, bidNoted [], placeSide_congr sell (askNoted []), ?_, bidRound.congr rfl buy,
    askRound.congr sell rfl⟩
  · calc after = ⟨after.tracked .buy, after.tracked .sell, after.released⟩ := rfl
      _ = ⟨between.tracked .buy, after.tracked .sell, book.released⟩ := by rw [buy, released]
  · exact leads_placeQuotes.2 ⟨bid, ask, between, _, rfl, bidNoted [], askNoted bidTurns⟩

/-! ### On simulated venues -/

theorem lowers_maker : (Session.desk).maker.Lowers := by
  intro candidate allOrNone world adjusted next led
  obtain ⟨adjusts, -⟩ := Session.leads_maker_ask.1 led
  rcases SimulatedVenue.adjustCandidate_cases adjusts with ⟨-, _, impossible⟩ | ⟨-, most, computed, same⟩
  · cases impossible
  · rw [Except.ok.inj same]
    exact allowed_le (SimulatedVenue.budget_nonneg computed)

/-- Ten and a half in lots of one. -/
def wholeLotConfig : Config :=
  { maker := { venue := "okx", pair := "DOGE-USDT", lotSize := 1 }
    strategy := { orderAmount := .of 105 1, makerFee := 0, takerFee := 0 } }

/-- The maker refuses the next order. -/
def refusingVenues : Venues :=
  ({ Engine.bookedVenue "okx" 0 (.of 10000 0) Engine.wideBook with rejections := 1 },
    Engine.bookedVenue "binance" 0 (.of 10000 0) Engine.narrowBook)

omit [Arithmetic] in
/-- The bid is refused, and the ask is placed all the same. -/
theorem placeQuotes_rounds_refused : ∃ p message price after u t bidTurns askTurns,
    wholeLotConfig.parameters = .ok p ∧ (@Session.desk .rounding).maker.Lowers ∧
    @Leads _ _ (@placeQuotes _ .rounding (@Session.desk .rounding) p Engine.narrowQuotes ⟨0⟩ .empty)
      refusingVenues
      ([(.buy, .failed message), (.sell, .placed "okx-1" price (.of 10 0))], after) t ∧
    after = ⟨none, some (.new "okx-1" .sell price (.of 10 0) ⟨0⟩), []⟩ ∧
    @Round _ .rounding (@Session.desk .rounding) p Engine.narrowQuotes ⟨0⟩ .empty .buy refusingVenues
      (.failed message) after bidTurns u ∧
    @Round _ .rounding (@Session.desk .rounding) p Engine.narrowQuotes ⟨0⟩ .empty .sell u
      (.placed "okx-1" price (.of 10 0)) after askTurns t := by
  have works : wholeLotConfig.parameters.toOption.any (fun p =>
      ((@placeQuotes _ .rounding (@Session.desk .rounding) p Engine.narrowQuotes ⟨0⟩ .empty).run
        refusingVenues).toOption.any fun result => decide (result.1 =
          ([(.buy, .failed (VenueError.rejected .injected).message),
            (.sell, .placed "okx-1" (.of 1013232 4) (.of 10 0))],
            ⟨none, some (.new "okx-1" .sell (.of 1013232 4) (.of 10 0) ⟨0⟩), []⟩))) = true := by
    decide +kernel
  obtain ⟨p, configured, works⟩ := Checked.toOption_any works
  obtain ⟨⟨result, t⟩, led, works⟩ := Checked.toOption_any works
  obtain rfl : result = _ := of_decide_eq_true works
  obtain ⟨bid, ask, bidBook, askBook, u, bidTurns, askTurns, both, -, -, -, -, bidRound, askRound⟩ :=
    @placeQuotes_rounds _ .rounding _ _ _ _ _ _ _ _ Arithmetic.rounding_rounds (@lowers_maker .rounding)
      _ led
  obtain ⟨rfl, rfl⟩ : Placement.failed (VenueError.rejected .injected).message = bid ∧
      Placement.placed "okx-1" (.of 1013232 4) (.of 10 0) = ask := by
    simpa using both
  exact ⟨p, _, _, _, u, t, bidTurns, askTurns, configured, @lowers_maker .rounding, led, rfl, bidRound,
    askRound⟩

/-- A lot with so many places that the multiple below the order size is no decimal. -/
def fineLotConfig : Config :=
  { maker := { venue := "okx", pair := "DOGE-USDT", lotSize := .of 25 28 }
    strategy := { orderAmount := .of 19000000000000000000000000008 27, makerFee := 0, takerFee := 0 } }

def fineLotVenues : Venues :=
  Engine.bookedVenues 0 (.of 10000 0) Engine.wideBook Engine.narrowBook

/-- What the maker is asked to allow, and allows. -/
def fineLotBid : Candidate :=
  ⟨Engine.tenPair, true, .limit, .buy, .of 19000000000000000000000000008 27, .of 996800 4⟩

omit [Arithmetic] in
/-- Both divisions by the lot are exact, and yet the quote is no multiple of it. -/
theorem placed_beside_lots : ∃ p ask after t,
    fineLotConfig.parameters = .ok p ∧ (@Session.desk .rounding).maker.Lowers ∧
    @Leads _ _ (@placeQuotes _ .rounding (@Session.desk .rounding) p Engine.narrowQuotes ⟨0⟩ .empty)
      fineLotVenues
      ([(.buy, .placed "okx-1" fineLotBid.price fineLotBid.amount), (.sell, ask)], after) t ∧
    @Sized _ .rounding (@Session.desk .rounding) p Engine.narrowQuotes .buy fineLotBid.price fineLotVenues
      (.of 10000 0) fineLotBid.amount fineLotBid fineLotBid.amount fineLotVenues ∧
    @Tick.Divides .rounding (min p.orderAmount (.of 10000 0)) p.maker.lotSize ∧
    @Tick.Divides .rounding fineLotBid.amount p.maker.lotSize ∧
    ∀ n : ℤ, fineLotBid.amount.value ≠ n * p.maker.lotSize.value := by
  have works : fineLotConfig.parameters.toOption.any (fun p =>
      ((@placeQuotes _ .rounding (@Session.desk .rounding) p Engine.narrowQuotes ⟨0⟩ .empty).run
        fineLotVenues).toOption.any fun result => decide (
          result.1.1 = [(.buy, .placed "okx-1" fineLotBid.price fineLotBid.amount),
            (.sell, .placed "okx-2" (.of 1013232 4) fineLotBid.amount)] ∧
          (@hedgingBudget _ .rounding (@Session.desk .rounding) p Engine.narrowQuotes .buy).run.run
            fineLotVenues = .ok (.ok (.of 10000 0), fineLotVenues) ∧
          @Lot.down .rounding (min p.orderAmount (.of 10000 0)) p.maker.lotSize =
            .ok fineLotBid.amount ∧
          ((@Session.desk .rounding).maker.adjustCandidate fineLotBid false).run.run fineLotVenues =
            .ok (.ok fineLotBid, fineLotVenues) ∧
          @Lot.down .rounding fineLotBid.amount p.maker.lotSize = .ok fineLotBid.amount ∧
          p.maker.pair = Engine.tenPair ∧
          @Tick.Divides .rounding (min p.orderAmount (.of 10000 0)) p.maker.lotSize ∧
          @Tick.Divides .rounding fineLotBid.amount p.maker.lotSize ∧
          p.maker.lotSize.value ≠ 0 ∧ (fineLotBid.amount.value / p.maker.lotSize.value).den = 5)) =
      true := by
    decide +kernel
  obtain ⟨p, configured, works⟩ := Checked.toOption_any works
  obtain ⟨⟨⟨placements, after⟩, t⟩, led, works⟩ := Checked.toOption_any works
  obtain ⟨rfl, budgeted, cut, allowed, cutAgain, pair, first, second, unit, fifths⟩ :=
    of_decide_eq_true works
  refine ⟨p, _, after, t, configured, @lowers_maker .rounding, led, ?_, first, second, fun n same => ?_⟩
  · refine @Sized.mk _ .rounding _ _ _ _ _ _ _ _ _ _ _ ⟨_, budgeted, ?_⟩ cut cutAgain
    rw [pair]
    exact allowed
  · rw [same, mul_div_cancel_right₀ _ unit, Rat.den_intCast] at fifths
    cases fifths

end Quoting

end MarketMaker
