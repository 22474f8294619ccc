import MarketMaker.Venue.Error
/-!
What the engine asks of a venue. A request acts on a world of states, which may hold anything: it
is answered or refused, and the world goes on either way. Only an overflow ends everything.
-/

namespace MarketMaker

/-- A step of a world; an overflow leaves no world behind. -/
abbrev Act (σ : Type) := StateT σ Checked

/-- A request to a venue. A refusal leaves the world as the venue leaves it. -/
abbrev Call (σ : Type) := ExceptT VenueError (Act σ)

/-- The requests a venue takes. -/
structure Adapter (σ : Type) where
  /-- The average price at which an order of this side and amount would execute. -/
  executablePrice : Pair → Side → Decimal → Call σ Decimal
  /-- Halfway between the best prices. -/
  midPrice : Pair → Call σ Decimal
  /-- The free balance of an asset. -/
  availableBalance : String → Call σ Decimal
  /-- The candidate with what its budget allows, or with nothing if it must be all or none. -/
  adjustCandidate : Candidate → Bool → Call σ Candidate
  placeOrder : Pair → Side → Decimal → OrderType → Decimal → Call σ OrderId
  cancelOrder : Pair → OrderId → Call σ Unit
  activeOrders : Call σ (List RestingOrder)

namespace Call

variable {σ τ α : Type}

/-- The request's answer as a value. -/
def answer (call : Call σ α) : Act σ (Except VenueError α) :=
  call.run

/-- A request in the first of two worlds. -/
def onFirst (call : Call σ α) : Call (σ × τ) α :=
  ExceptT.mk fun world => do
    let (reply, first) ← call.run.run world.1
    return (reply, (first, world.2))

/-- A request in the second of two worlds. -/
def onSecond (call : Call τ α) : Call (σ × τ) α :=
  ExceptT.mk fun world => do
    let (reply, second) ← call.run.run world.2
    return (reply, (world.1, second))

end Call

namespace Adapter

variable {σ τ : Type}

/-- The same venue, seen from a state that holds its own. -/
def lift (venue : Adapter σ) (into : {α : Type} → Call σ α → Call τ α) : Adapter τ where
  executablePrice pair side amount := into (venue.executablePrice pair side amount)
  midPrice pair := into (venue.midPrice pair)
  availableBalance asset := into (venue.availableBalance asset)
  adjustCandidate candidate allOrNone := into (venue.adjustCandidate candidate allOrNone)
  placeOrder pair side amount type price := into (venue.placeOrder pair side amount type price)
  cancelOrder pair id := into (venue.cancelOrder pair id)
  activeOrders := into venue.activeOrders

end Adapter

/-- The two venues of a strategy: quotes rest on the maker, fills are hedged on the taker. -/
structure Desk (σ : Type) where
  maker : Adapter σ
  taker : Adapter σ

namespace Desk

/-- Two venues that know nothing of each other. -/
def ofPair {σ τ : Type} (maker : Adapter σ) (taker : Adapter τ) : Desk (σ × τ) where
  maker := maker.lift Call.onFirst
  taker := taker.lift Call.onSecond

end Desk

end MarketMaker
