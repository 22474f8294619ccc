import MarketMaker.Venue.Simulated
/-!
A venue whose requests can be made to fail: each kind of request has a queue that says of its next
uses whether they pass or which error they meet.
-/

namespace MarketMaker

/-- The kinds of request. -/
inductive Request
  | executablePrice
  | midPrice
  | availableBalance
  | adjustCandidate
  | placeOrder
  | cancelOrder
  | activeOrders
deriving DecidableEq

namespace Request

def ofText? : String → Option Request
  | "executable_price" => some executablePrice
  | "mid_price" => some midPrice
  | "available_balance" => some availableBalance
  | "adjust_candidate" => some adjustCandidate
  | "place_order" => some placeOrder
  | "cancel_order" => some cancelOrder
  | "active_orders" => some activeOrders
  | _ => none

end Request

structure FaultyVenue where
  venue : SimulatedVenue
  /-- What the next uses of a request meet; none is a use that passes. -/
  faults : Table Request (List (Option VenueError))

namespace FaultyVenue

def ofVenue (venue : SimulatedVenue) : FaultyVenue :=
  ⟨venue, []⟩

def planned (v : FaultyVenue) (request : Request) : List (Option VenueError) :=
  (Table.get? request v.faults).getD []

/-- After the uses already planned, `skip` more pass and the next `count` fail. -/
def plan (v : FaultyVenue) (request : Request) (skip count : Nat) (error : VenueError) :
    FaultyVenue :=
  let later := List.replicate skip none ++ List.replicate count (some error)
  { v with faults := Table.put request (v.planned request ++ later) v.faults }

/-- A request that first meets its plan. -/
def guarded {α : Type} (request : Request) (call : Call SimulatedVenue α) :
    Call FaultyVenue α :=
  ExceptT.mk fun v =>
    let pass : Checked (Except VenueError α × FaultyVenue) := do
      let v := { v with faults := Table.put request (v.planned request).tail v.faults }
      let (reply, venue) ← call.run.run v.venue
      return (reply, { v with venue })
    match v.planned request with
    | some error :: rest =>
      .ok (.error error, { v with faults := Table.put request rest v.faults })
    | _ => pass

def adapter [Arithmetic] : Adapter FaultyVenue where
  executablePrice pair side amount :=
    guarded .executablePrice (SimulatedVenue.adapter.executablePrice pair side amount)
  midPrice pair := guarded .midPrice (SimulatedVenue.adapter.midPrice pair)
  availableBalance asset := guarded .availableBalance (SimulatedVenue.adapter.availableBalance asset)
  adjustCandidate candidate allOrNone :=
    guarded .adjustCandidate (SimulatedVenue.adapter.adjustCandidate candidate allOrNone)
  placeOrder pair side amount type price :=
    guarded .placeOrder (SimulatedVenue.adapter.placeOrder pair side amount type price)
  cancelOrder pair id := guarded .cancelOrder (SimulatedVenue.adapter.cancelOrder pair id)
  activeOrders := guarded .activeOrders SimulatedVenue.adapter.activeOrders

end FaultyVenue

end MarketMaker
