import MarketMaker.Parameters
import MarketMaker.Table
/-!
Venues by name. A strategy's venues are looked up once, the maker's first.
-/

namespace MarketMaker

/-- Nothing is registered under this name. -/
structure MissingVenue where
  venue : String
deriving DecidableEq

namespace MissingVenue

def message (e : MissingVenue) : String :=
  "No adapter registered for venue '" ++ e.venue ++ "'"

end MissingVenue

structure Registry (α : Type) where
  entries : Table String α

namespace Registry

variable {α : Type}

def empty : Registry α := ⟨[]⟩

/-- An entry replaces the one of its name. -/
def register (r : Registry α) (venue : String) (entry : α) : Registry α :=
  ⟨Table.put venue entry r.entries⟩

def resolve (r : Registry α) (venue : String) : Except MissingVenue α :=
  match Table.get? venue r.entries with
  | some entry => .ok entry
  | none => .error ⟨venue⟩

theorem resolve_register (r : Registry α) (venue other : String) (entry : α) :
    (r.register venue entry).resolve other =
      if venue = other then .ok entry else r.resolve other := by
  by_cases same : venue = other <;> simp [register, resolve, Table.get?_put, same]

def size (r : Registry α) : Nat := r.entries.length

def isEmpty (r : Registry α) : Bool := r.entries.isEmpty

/-- The maker's and the taker's entry. -/
def resolveBoth (r : Registry α) (p : Parameters) : Except MissingVenue (α × α) := do
  let maker ← r.resolve p.maker.venue
  let taker ← r.resolve p.taker.venue
  return (maker, taker)

end Registry

end MarketMaker
