import MarketMaker.Engine
import MarketMaker.Proofs.QuoteBook
import MarketMaker.Proofs.Steps
import MarketMaker.Proofs.Venue.Orders
/-!
The engine's three handlers on any desk, whatever the venues answer: the steps that a tick, a fill
and a stop are made of, what of the engine each may change, and runs of calls in any order.
-/

namespace MarketMaker

namespace Placement

/-- What an attempt counts as; a request that fails fails it. -/
def ofReply : Except VenueError Placement → Placement
  | .ok placement => placement
  | .error e => .failed e.message

/-- The order that the side tracks afterwards. -/
def tracked? (side : Side) (now : Instant) : Placement → Option TrackedOrder
  | placed id price amount => some (.new id side price amount now)
  | _ => none

theorem tracked?_of_not_isPlaced {side : Side} {now : Instant} {placement : Placement}
    (other : placement.isPlaced = false) : placement.tracked? side now = none := by
  cases placement with
  | placed => cases other
  | _ => rfl

theorem ofReply_eq_placed {reply : Except VenueError Placement} {id : OrderId} {price amount : Decimal} :
    ofReply reply = .placed id price amount ↔ reply = .ok (.placed id price amount) := by
  cases reply <;> simp [ofReply]

end Placement

namespace Quoting

open Act

variable {σ : Type} [Arithmetic] {desk : Desk σ} {p : Parameters} {quotes : MarketQuotes} {side : Side}
  {now : Instant} {book after : QuoteBook} {placement : Placement} {id : OrderId}
  {price amount : Decimal} {s t : σ}

/-- How a quote gets its amount: the order size, or as much as the taker can hedge, is cut to whole
lots, and what the maker allows of that is cut to whole lots again. -/
structure Sized (desk : Desk σ) (p : Parameters) (quotes : MarketQuotes) (side : Side)
    (price : Decimal) (s : σ) (budget wanted : Decimal) (adjusted : Candidate) (amount : Decimal)
    (t : σ) : Prop where
  asked : ∃ u, Leads (hedgingBudget desk p quotes side).run s (.ok budget) u ∧
    Leads (desk.maker.adjustCandidate ⟨p.maker.pair, true, .limit, side, wanted, price⟩ false).run u
      (.ok adjusted) t
  cut : Lot.down (min p.orderAmount budget) p.maker.lotSize = .ok wanted
  cutAgain : Lot.down adjusted.amount p.maker.lotSize = .ok amount

/-- A quote is placed at the target price, within the position limit and of what it was sized for. -/
theorem attempt_placed
    (led : Leads (attempt desk p quotes side).run s (.ok (.placed id price amount)) t) :
    ∃ u v budget wanted adjusted, p.targetPrice quotes side = .ok price ∧
      Leads (checkPositionLimit desk p quotes side p.orderAmount price).run s (.ok true) u ∧
      Sized desk p quotes side price u budget wanted adjusted amount v ∧
      ¬ amount ≤ 0 ∧ ¬ amount < p.minOrderAmount ∧
      Leads (desk.maker.placeOrder p.maker.pair side amount .limit price).run v (.ok id) t := by
  rw [attempt, leads_run_lift_bind] at led
  obtain ⟨target, priced, led⟩ := led
  obtain ⟨within, u, checked, led⟩ := leads_run_bind_ok.1 led
  cases within with
  | false =>
    obtain ⟨impossible, -⟩ := leads_run_pure.1 led
    cases impossible
  | true =>
    obtain ⟨budget, v, budgeted, led⟩ := leads_run_bind_ok.1 led
    obtain ⟨wanted, cut, led⟩ := leads_run_lift_bind.1 led
    obtain ⟨adjusted, w, allowed, led⟩ := leads_run_bind_ok.1 led
    obtain ⟨whole, cutAgain, led⟩ := leads_run_lift_bind.1 led
    split at led
    next =>
      obtain ⟨impossible, -⟩ := leads_run_pure.1 led
      cases impossible
    next enough =>
      obtain ⟨placed, x, accepted, led⟩ := leads_run_bind_ok.1 led
      obtain ⟨same, rfl⟩ := leads_run_pure.1 led
      obtain ⟨rfl, rfl, rfl⟩ := Placement.placed.inj (Except.ok.inj same)
      obtain ⟨some', atLeast⟩ := not_or.1 enough
      exact ⟨u, w, budget, wanted, adjusted, priced, checked, ⟨⟨v, budgeted, allowed⟩, cut, cutAgain⟩,
        some', atLeast, accepted⟩

/-- A side that rests is left alone. An idle one is tried, and tracks what was placed. -/
theorem leads_placeSide :
    Leads (placeSide desk p quotes now side book) s (placement, after) t ↔
      (book.isIdle side = false ∧ placement = .alreadyResting ∧ after = book ∧ t = s) ∨
      (book.isIdle side = true ∧ after = book.setTracked side (placement.tracked? side now) ∧
        ∃ r, Leads (attempt desk p quotes side).run s r t ∧ placement = .ofReply r) := by
  rw [placeSide]
  cases idle : book.isIdle side with
  | false =>
    rw [if_neg Bool.false_ne_true, leads_pure, Prod.mk.injEq]
    simp [and_assoc]
  | true =>
    have same := QuoteBook.setTracked_none idle
    have marked : ∀ id price amount, book.markResting (.new id side price amount now) =
        (true, book.setTracked side (some (.new id side price amount now))) :=
      fun _ _ _ => if_pos idle
    rw [if_pos rfl, leads_bind]
    simp only [Bool.true_eq_false, false_and, true_and, false_or]
    constructor
    · rintro ⟨r, u, tried, led⟩
      rcases r with e | ⟨id, price, amount⟩ | _ | _ | _ | message
      case ok.placed =>
        simp only [marked, leads_pure, Prod.mk.injEq] at led
        obtain ⟨⟨rfl, rfl⟩, rfl⟩ := led
        exact ⟨rfl, _, tried, rfl⟩
      all_goals
        obtain ⟨rfl, rfl, rfl⟩ := leads_pure_pair.1 led
        exact ⟨same.symm, _, tried, rfl⟩
    · rintro ⟨rfl, r, tried, rfl⟩
      refine ⟨r, t, tried, ?_⟩
      rcases r with e | ⟨id, price, amount⟩ | _ | _ | _ | message
      case ok.placed =>
        simp only [marked]
        exact leads_pure.2 ⟨rfl, rfl⟩
      all_goals
        exact leads_pure.2 ⟨Prod.ext rfl same, rfl⟩

theorem placeSide_placed
    (led : Leads (placeSide desk p quotes now side book) s (.placed id price amount, after) t) :
    book.isIdle side = true ∧ after = book.setTracked side (some (.new id side price amount now)) ∧
      Leads (attempt desk p quotes side).run s (.ok (.placed id price amount)) t := by
  rcases leads_placeSide.1 led with ⟨-, impossible, -⟩ | ⟨idle, rfl, r, tried, same⟩
  · cases impossible
  · obtain rfl := Placement.ofReply_eq_placed.1 same.symm
    exact ⟨idle, rfl, tried⟩

/-- The bid is placed first, and the ask after it. -/
theorem leads_placeQuotes {placements : List (Side × Placement)} :
    Leads (placeQuotes desk p quotes now book) s (placements, after) t ↔
      ∃ bid ask between u, placements = [(.buy, bid), (.sell, ask)] ∧
        Leads (placeSide desk p quotes now .buy book) s (bid, between) u ∧
        Leads (placeSide desk p quotes now .sell between) u (ask, after) t := by
  rw [placeQuotes, leads_bind]
  constructor
  · intro led
    obtain ⟨⟨bid, between⟩, u, first, led⟩ := led
    rw [leads_bind] at led
    obtain ⟨⟨ask, last⟩, w, second, led⟩ := led
    obtain ⟨rfl, rfl, rfl⟩ := leads_pure_pair.1 led
    exact ⟨bid, ask, between, u, rfl, first, second⟩
  · intro given
    obtain ⟨bid, ask, between, u, rfl, first, second⟩ := given
    exact ⟨_, _, first, leads_bind.2 ⟨_, _, second, leads_pure.2 ⟨rfl, rfl⟩⟩⟩

end Quoting

namespace Cancellation

open Act RestingOrder

variable {σ : Type} [Arithmetic] {desk : Desk σ} {p : Parameters} {quotes : MarketQuotes}
  {now : Instant} {live : List RestingOrder} {book after : QuoteBook}
  {outcomes : List CancelOutcome} {s t : σ}

/-- What the check of a tracked order did, given the orders that rest. -/
inductive TrackedCheck (desk : Desk σ) (p : Parameters) (quotes : MarketQuotes) (now : Instant)
    (live : List RestingOrder) (order : TrackedOrder) (book : QuoteBook) (s : σ) :
    List CancelOutcome → QuoteBook → σ → Prop
  | release (absent : lookup order.id live = none) (late : p.maxOrderAge < order.age now) :
    TrackedCheck desk p quotes now live order book s
      [.released order.id order.side] (book.forget order.side).2 s
  | await (absent : lookup order.id live = none) (early : ¬ p.maxOrderAge < order.age now) :
    TrackedCheck desk p quotes now live order book s [] book s
  | stay {found : RestingOrder} (listed : lookup order.id live = some found)
    (judged : reason? p quotes now order.side found.price found.createdAt = .ok none) :
    TrackedCheck desk p quotes now live order book s [] book s
  | cancel {found : RestingOrder} {reason : CancelReason} {t : σ}
    (listed : lookup order.id live = some found)
    (judged : reason? p quotes now order.side found.price found.createdAt = .ok (some reason))
    (done : Leads (desk.maker.cancelOrder p.maker.pair order.id).run s (.ok ()) t) :
    TrackedCheck desk p quotes now live order book s
      [.cancelled order.id order.side reason] (book.release order.side).2 t
  | fail {found : RestingOrder} {reason : CancelReason} {error : VenueError} {t : σ}
    (listed : lookup order.id live = some found)
    (judged : reason? p quotes now order.side found.price found.createdAt = .ok (some reason))
    (refused : Leads (desk.maker.cancelOrder p.maker.pair order.id).run s (.error error) t) :
    TrackedCheck desk p quotes now live order book s
      [.cancelFailed order.id order.side error.message] book t

theorem leads_checkTracked {order : TrackedOrder} :
    Leads (checkTracked desk p quotes now live order book) s (outcomes, after) t ↔
      TrackedCheck desk p quotes now live order book s outcomes after t := by
  rw [checkTracked]
  constructor
  · intro led
    split at led
    next absent =>
      split at led
      next late =>
        obtain ⟨rfl, rfl, rfl⟩ := leads_pure_pair.1 led
        exact .release absent late
      next early =>
        obtain ⟨rfl, rfl, rfl⟩ := leads_pure_pair.1 led
        exact .await absent early
    next found listed =>
      rw [leads_bind] at led
      obtain ⟨verdict, u, asked, led⟩ := led
      obtain ⟨judged, rfl⟩ := leads_lift.1 asked
      split at led
      next =>
        obtain ⟨rfl, rfl, rfl⟩ := leads_pure_pair.1 led
        exact .stay listed judged
      next reason =>
        rw [leads_bind] at led
        obtain ⟨reply, w, answered, led⟩ := led
        split at led
        next =>
          obtain ⟨rfl, rfl, rfl⟩ := leads_pure_pair.1 led
          exact .cancel listed judged answered
        next =>
          obtain ⟨rfl, rfl, rfl⟩ := leads_pure_pair.1 led
          exact .fail listed judged answered
  · intro check
    rw [show (live.find? fun other => other.id = order.id) = lookup order.id live from rfl]
    cases check with
    | release absent late =>
      rw [absent]
      dsimp only
      rw [if_pos late]
      exact leads_pure.2 ⟨rfl, rfl⟩
    | await absent early =>
      rw [absent]
      dsimp only
      rw [if_neg early]
      exact leads_pure.2 ⟨rfl, rfl⟩
    | stay listed judged =>
      rw [listed]
      exact leads_bind.2 ⟨_, _, leads_lift.2 ⟨judged, rfl⟩, leads_pure.2 ⟨rfl, rfl⟩⟩
    | cancel listed judged done =>
      rw [listed]
      exact leads_bind.2 ⟨_, _, leads_lift.2 ⟨judged, rfl⟩,
        leads_bind.2 ⟨_, _, done, leads_pure.2 ⟨rfl, rfl⟩⟩⟩
    | fail listed judged refused =>
      rw [listed]
      exact leads_bind.2 ⟨_, _, leads_lift.2 ⟨judged, rfl⟩,
        leads_bind.2 ⟨_, _, refused, leads_pure.2 ⟨rfl, rfl⟩⟩⟩

theorem leads_checkAllTracked_cons {order : TrackedOrder} {orders : List TrackedOrder} :
    Leads (checkAllTracked desk p quotes now live (order :: orders) book) s (outcomes, after) t ↔
      ∃ first others between u, outcomes = first ++ others ∧
        Leads (checkTracked desk p quotes now live order book) s (first, between) u ∧
        Leads (checkAllTracked desk p quotes now live orders between) u (others, after) t := by
  rw [checkAllTracked, leads_bind]
  constructor
  · intro led
    obtain ⟨⟨first, between⟩, u, checked, led⟩ := led
    rw [leads_bind] at led
    obtain ⟨⟨others, last⟩, w, rest, led⟩ := led
    obtain ⟨rfl, rfl, rfl⟩ := leads_pure_pair.1 led
    exact ⟨first, others, between, u, rfl, checked, rest⟩
  · intro given
    obtain ⟨first, others, between, u, rfl, checked, rest⟩ := given
    exact ⟨_, _, checked, leads_bind.2 ⟨_, _, rest, leads_pure.2 ⟨rfl, rfl⟩⟩⟩

/-- What the check of an order that nobody tracks did. -/
inductive OrphanCheck (desk : Desk σ) (p : Parameters) (quotes : MarketQuotes) (now : Instant)
    (order : RestingOrder) (s : σ) : List CancelOutcome → σ → Prop
  | stay (judged : reason? p quotes now order.side order.price order.createdAt = .ok none) :
    OrphanCheck desk p quotes now order s [] s
  | cancel {reason : CancelReason} {t : σ}
    (judged : reason? p quotes now order.side order.price order.createdAt = .ok (some reason))
    (done : Leads (desk.maker.cancelOrder p.maker.pair order.id).run s (.ok ()) t) :
    OrphanCheck desk p quotes now order s [.orphanCancelled order.id order.side reason] t
  | fail {reason : CancelReason} {error : VenueError} {t : σ}
    (judged : reason? p quotes now order.side order.price order.createdAt = .ok (some reason))
    (refused : Leads (desk.maker.cancelOrder p.maker.pair order.id).run s (.error error) t) :
    OrphanCheck desk p quotes now order s [] t

theorem leads_checkOrphans_cons {order : RestingOrder} {orders : List RestingOrder} :
    Leads (checkOrphans desk p quotes now (order :: orders)) s outcomes t ↔
      ∃ first others u, outcomes = first ++ others ∧
        OrphanCheck desk p quotes now order s first u ∧
        Leads (checkOrphans desk p quotes now orders) u others t := by
  rw [checkOrphans, leads_bind]
  constructor
  · intro led
    obtain ⟨verdict, _, asked, led⟩ := led
    obtain ⟨judged, rfl⟩ := leads_lift.1 asked
    obtain ⟨first, u, check, rest⟩ : ∃ first u, OrphanCheck desk p quotes now order _ first u ∧
        Leads (checkOrphans desk p quotes now orders >>= fun others => pure (first ++ others))
          u outcomes t := by
      cases verdict with
      | none =>
        obtain ⟨first, u, nothing, led⟩ := leads_bind.1 led
        obtain ⟨rfl, rfl⟩ := leads_pure.1 nothing
        exact ⟨_, _, .stay judged, led⟩
      | some reason =>
        obtain ⟨reply, u, answered, led⟩ := leads_bind.1 led
        cases reply with
        | ok _ =>
          obtain ⟨first, w, nothing, led⟩ := leads_bind.1 led
          obtain ⟨rfl, rfl⟩ := leads_pure.1 nothing
          exact ⟨_, _, .cancel judged answered, led⟩
        | error e =>
          obtain ⟨first, w, nothing, led⟩ := leads_bind.1 led
          obtain ⟨rfl, rfl⟩ := leads_pure.1 nothing
          exact ⟨_, _, .fail judged answered, led⟩
    obtain ⟨others, w, rest, led⟩ := leads_bind.1 rest
    obtain ⟨joined, rfl⟩ := leads_pure.1 led
    exact ⟨first, others, u, joined, check, rest⟩
  · intro given
    obtain ⟨first, others, u, rfl, check, rest⟩ := given
    have joined : Leads (checkOrphans desk p quotes now orders >>= fun others =>
        pure (first ++ others)) u (first ++ others) t :=
      leads_bind.2 ⟨_, _, rest, leads_pure.2 ⟨rfl, rfl⟩⟩
    cases check with
    | stay judged =>
      exact ⟨_, _, leads_lift.2 ⟨judged, rfl⟩, leads_bind.2 ⟨_, _, leads_pure.2 ⟨rfl, rfl⟩, joined⟩⟩
    | cancel judged done =>
      exact ⟨_, _, leads_lift.2 ⟨judged, rfl⟩, leads_bind.2 ⟨_, _, done,
        leads_bind.2 ⟨_, _, leads_pure.2 ⟨rfl, rfl⟩, joined⟩⟩⟩
    | fail judged refused =>
      exact ⟨_, _, leads_lift.2 ⟨judged, rfl⟩, leads_bind.2 ⟨_, _, refused,
        leads_bind.2 ⟨_, _, leads_pure.2 ⟨rfl, rfl⟩, joined⟩⟩⟩

/-- The listed orders of the pair that nobody tracks. -/
def strays (pair : Pair) (book : QuoteBook) (live : List RestingOrder) : List RestingOrder :=
  live.filter fun order => order.pair = pair ∧ ¬ book.contains order.id

/-- Nothing happens unless the orders can be listed; then the tracked ones come first. -/
theorem leads_run_cases :
    Leads (run desk p quotes now book) s (outcomes, after) t ↔
      (∃ e, Leads desk.maker.activeOrders.run s (.error e) t ∧ outcomes = [] ∧ after = book) ∨
      ∃ live u tracked others w, Leads desk.maker.activeOrders.run s (.ok live) u ∧
        outcomes = tracked ++ others ∧
        Leads (checkAllTracked desk p quotes now live book.resting book) u (tracked, after) w ∧
        Leads (checkOrphans desk p quotes now (strays p.maker.pair book live)) w others t := by
  rw [run, leads_bind]
  constructor
  · rintro ⟨r, u, listed, led⟩
    cases r with
    | error e =>
      obtain ⟨rfl, rfl, rfl⟩ := leads_pure_pair.1 led
      exact .inl ⟨e, listed, rfl, rfl⟩
    | ok live =>
      obtain ⟨⟨tracked, left⟩, w, checked, led⟩ := leads_bind.1 led
      obtain ⟨others, x, orphaned, led⟩ := leads_bind.1 led
      obtain ⟨rfl, rfl, rfl⟩ := leads_pure_pair.1 led
      exact .inr ⟨live, u, tracked, others, w, listed, rfl, checked, orphaned⟩
  · rintro (⟨e, refused, rfl, rfl⟩ | ⟨live, u, tracked, others, w, listed, rfl, checked, orphaned⟩)
    · exact ⟨_, _, refused, leads_pure.2 ⟨rfl, rfl⟩⟩
    · exact ⟨_, _, listed, leads_bind.2 ⟨_, _, checked, leads_bind.2 ⟨_, _, orphaned,
        leads_pure.2 ⟨rfl, rfl⟩⟩⟩⟩

end Cancellation

namespace Engine

open Act

variable {σ : Type} [Arithmetic] {desk : Desk σ} {s t : σ} {e e' : Engine}

/-- What a tick did, between the worlds that it went through. -/
inductive Ticked (desk : Desk σ) (now : Instant) (e : Engine) (s : σ) :
    TickReport → QuoteBook → σ → Prop
  | skip {error : VenueError} {t : σ}
    (fetched : Leads (MarketQuotes.fetch desk e.params).run s (.error error) t) :
    Ticked desk now e s ⟨some error.message, none, [], []⟩ e.book t
  | pull {quotes : MarketQuotes} {cancellations : List CancelOutcome} {book : QuoteBook} {t u : σ}
    (halted : e.halted = true)
    (fetched : Leads (MarketQuotes.fetch desk e.params).run s (.ok quotes) t)
    (checked : Leads (Cancellation.run desk e.params quotes now e.book) t (cancellations, book) u) :
    Ticked desk now e s ⟨none, some quotes, [], cancellations⟩ book u
  | quote {quotes : MarketQuotes} {placements : List (Side × Placement)}
    {cancellations : List CancelOutcome} {between book : QuoteBook} {t u v : σ}
    (working : e.halted = false)
    (fetched : Leads (MarketQuotes.fetch desk e.params).run s (.ok quotes) t)
    (placed : Leads (Quoting.placeQuotes desk e.params quotes now e.book) t
      (placements, between) u)
    (checked : Leads (Cancellation.run desk e.params quotes now between) u
      (cancellations, book) v) :
    Ticked desk now e s ⟨none, some quotes, placements, cancellations⟩ book v

/-- A tick changes nothing of the engine but the quote book. -/
theorem onTick_ticked {now : Instant} {report : TickReport}
    (led : Leads (e.onTick desk now) s (report, e') t) :
    e' = { e with book := e'.book } ∧ Ticked desk now e s report e'.book t := by
  rw [onTick, leads_bind] at led
  obtain ⟨answer, u, fetched, led⟩ := led
  cases answer with
  | error error =>
    obtain ⟨rfl, rfl, rfl⟩ := leads_pure_pair.1 led
    exact ⟨rfl, .skip fetched⟩
  | ok quotes =>
    dsimp only at led
    cases halted : e.halted with
    | true =>
      rw [halted, if_pos rfl, leads_bind] at led
      obtain ⟨_, v, nothing, led⟩ := led
      obtain ⟨rfl, rfl⟩ := leads_pure.1 nothing
      rw [leads_bind] at led
      obtain ⟨⟨cancellations, book⟩, w, checked, led⟩ := led
      obtain ⟨rfl, rfl, rfl⟩ := leads_pure_pair.1 led
      exact ⟨rfl, .pull halted fetched checked⟩
    | false =>
      rw [halted, if_neg (by simp), leads_bind] at led
      obtain ⟨⟨placements, between⟩, v, placed, led⟩ := led
      rw [leads_bind] at led
      obtain ⟨⟨cancellations, book⟩, w, checked, led⟩ := led
      obtain ⟨rfl, rfl, rfl⟩ := leads_pure_pair.1 led
      exact ⟨rfl, .quote halted fetched placed checked⟩

/-- What a tick may do, it does. -/
theorem Ticked.leads {now : Instant} {report : TickReport} {book : QuoteBook}
    (ticked : Ticked desk now e s report book t) :
    Leads (e.onTick desk now) s (report, { e with book }) t := by
  rw [onTick, leads_bind]
  cases ticked with
  | skip fetched => exact ⟨_, _, fetched, leads_pure.2 ⟨rfl, rfl⟩⟩
  | pull halted fetched checked =>
    refine ⟨_, _, fetched, ?_⟩
    dsimp only
    rw [halted, if_pos rfl]
    exact leads_bind.2 ⟨_, _, leads_pure.2 ⟨rfl, rfl⟩,
      leads_bind.2 ⟨_, _, checked, leads_pure.2 ⟨rfl, rfl⟩⟩⟩
  | quote working fetched placed checked =>
    refine ⟨_, _, fetched, ?_⟩
    dsimp only
    rw [working, if_neg Bool.false_ne_true]
    exact leads_bind.2 ⟨_, _, placed, leads_bind.2 ⟨_, _, checked, leads_pure.2 ⟨rfl, rfl⟩⟩⟩

/-- A fill is hedged, and its outcome is counted. -/
theorem onFill_handled {fill : Fill} {outcome : HedgeOutcome}
    (led : Leads (e.onFill desk fill) s (outcome, e') t) :
    ∃ book, Leads (Hedging.handle desk e.params fill e.book) s (outcome, book) t ∧
      { e with book }.account outcome = .ok e' := by
  rw [onFill, leads_bind] at led
  obtain ⟨⟨_, book⟩, u, handled, led⟩ := led
  rw [leads_bind] at led
  obtain ⟨counted, w, lifted, led⟩ := led
  obtain ⟨accounts, rfl⟩ := leads_lift.1 lifted
  obtain ⟨rfl, rfl, rfl⟩ := leads_pure_pair.1 led
  exact ⟨book, handled, accounts⟩

omit [Arithmetic] in
theorem stopSide_keeps {side : Side} {n : ℕ}
    (led : Leads (e.stopSide desk side) s (n, e') t) : e' = { e with book := e'.book } := by
  rw [stopSide] at led
  split at led
  next =>
    obtain ⟨same, -⟩ := leads_pure.1 led
    rw [(Prod.mk.inj same).2]
  next =>
    rw [leads_bind] at led
    obtain ⟨reply, u, -, led⟩ := led
    split at led <;>
    · obtain ⟨same, -⟩ := leads_pure.1 led
      rw [(Prod.mk.inj same).2]

omit [Arithmetic] in
/-- Pulling the quotes changes nothing but the quote book. -/
theorem onStop_keeps {n : ℕ} (led : Leads (e.onStop desk) s (n, e') t) :
    e' = { e with book := e'.book } := by
  rw [onStop, leads_bind] at led
  obtain ⟨⟨bids, e₁⟩, u, bid, led⟩ := led
  dsimp only at led
  rw [leads_bind] at led
  obtain ⟨⟨asks, e₂⟩, v, ask, led⟩ := led
  obtain ⟨same, -⟩ := leads_pure.1 led
  rw [(Prod.mk.inj same).2, stopSide_keeps ask, stopSide_keeps bid]

/-! ### Runs -/

/-- What the engine is called for. -/
inductive Event
  | tick (now : Instant)
  | fill (fill : Fill)
  | stop

/-- What a call returns. -/
inductive Answer
  | ticked (report : TickReport)
  | handled (outcome : HedgeOutcome)
  | stopped (cancelled : Nat)

def respond (desk : Desk σ) (e : Engine) : Event → Act σ (Answer × Engine)
  | .tick now => do
    let (report, e) ← e.onTick desk now
    return (.ticked report, e)
  | .fill fill => do
    let (outcome, e) ← e.onFill desk fill
    return (.handled outcome, e)
  | .stop => do
    let (cancelled, e) ← e.onStop desk
    return (.stopped cancelled, e)

/-- The calls one after the other. -/
def respondAll (desk : Desk σ) : List Event → Engine → Act σ (List Answer × Engine)
  | [], e => return ([], e)
  | event :: events, e => do
    let (first, e) ← e.respond desk event
    let (others, e) ← respondAll desk events e
    return (first :: others, e)

variable {u : σ} {e'' : Engine} {event : Event} {events : List Event} {answer : Answer}
  {answers : List Answer}

/-- A call is that of one of the handlers. -/
theorem respond_cases (led : Leads (e.respond desk event) s (answer, e') t) :
    (∃ now report, event = .tick now ∧ answer = .ticked report ∧
      Leads (e.onTick desk now) s (report, e') t) ∨
    (∃ fill outcome, event = .fill fill ∧ answer = .handled outcome ∧
      Leads (e.onFill desk fill) s (outcome, e') t) ∨
    (∃ count, event = .stop ∧ answer = .stopped count ∧ Leads (e.onStop desk) s (count, e') t) := by
  cases event with
  | tick now =>
    rw [respond, leads_bind] at led
    obtain ⟨⟨report, last⟩, u, ticked, led⟩ := led
    obtain ⟨rfl, rfl, rfl⟩ := leads_pure_pair.1 led
    exact .inl ⟨now, report, rfl, rfl, ticked⟩
  | fill fill =>
    rw [respond, leads_bind] at led
    obtain ⟨⟨outcome, last⟩, u, handled, led⟩ := led
    obtain ⟨rfl, rfl, rfl⟩ := leads_pure_pair.1 led
    exact .inr (.inl ⟨fill, outcome, rfl, rfl, handled⟩)
  | stop =>
    rw [respond, leads_bind] at led
    obtain ⟨⟨count, last⟩, u, stopped, led⟩ := led
    obtain ⟨rfl, rfl, rfl⟩ := leads_pure_pair.1 led
    exact .inr (.inr ⟨count, rfl, rfl, stopped⟩)

theorem respondAll_cons (led : Leads (respondAll desk (event :: events) e) s (answers, e'') u) :
    ∃ first others e' t, answers = first :: others ∧
      Leads (e.respond desk event) s (first, e') t ∧
      Leads (respondAll desk events e') t (others, e'') u := by
  rw [respondAll, leads_bind] at led
  obtain ⟨⟨first, e'⟩, t, responded, led⟩ := led
  rw [leads_bind] at led
  obtain ⟨⟨others, last⟩, v, rest, led⟩ := led
  obtain ⟨rfl, rfl, rfl⟩ := leads_pure_pair.1 led
  exact ⟨first, others, e', t, rfl, responded, rest⟩

end Engine

end MarketMaker
