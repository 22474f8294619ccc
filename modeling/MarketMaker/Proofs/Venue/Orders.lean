import MarketMaker.Proofs.Decimal.Value
import MarketMaker.Venue.Simulated
import Mathlib.Tactic
/-!
Order ids and the resting orders of a venue. An id is the venue's name and a number, so ids of
different venues differ, and a venue never gives out one id twice.
-/

namespace MarketMaker

/-- The id of a venue's `n`-th order. -/
def orderId (venue : String) (n : Nat) : OrderId :=
  venue ++ "-" ++ toString n

/-- The venue may have given out this id. -/
def Issued (venue : String) (id : OrderId) : Prop :=
  ∃ n, id = orderId venue n

theorem orderId_toList (venue : String) (n : Nat) :
    (orderId venue n).toList = venue.toList ++ '-' :: Nat.toDigits 10 n := by
  simp [orderId]

theorem dash_not_mem_digits (n : Nat) : '-' ∉ Nat.toDigits 10 n := by
  intro member
  exact absurd (Nat.isDigit_of_mem_toDigits (by decide) (by decide) member) (by decide)

theorem toDigits_injective {m n : Nat} (same : Nat.toDigits 10 m = Nat.toDigits 10 n) : m = n := by
  rw [← Nat.ofDigitChars_toDigits (b := 10) (n := m) (by decide) (by decide), same]
  exact Nat.ofDigitChars_toDigits (by decide) (by decide)

/-- The last dash of an id stands before its number. -/
theorem split_at_last {α : Type} {a : α} {before before' after after' : List α}
    (notAfter : a ∉ after) (notAfter' : a ∉ after')
    (same : before ++ a :: after = before' ++ a :: after') : before = before' ∧ after = after' := by
  rcases List.append_eq_append_iff.1 same with ⟨middle, rfl, split⟩ | ⟨middle, rfl, split⟩
  · cases middle with
    | nil => simpa using split
    | cons first rest =>
      obtain ⟨rfl, rfl⟩ := List.cons.inj split
      exact absurd (List.mem_append_right rest List.mem_cons_self) notAfter
  · cases middle with
    | nil => simpa [eq_comm] using split
    | cons first rest =>
      obtain ⟨rfl, rfl⟩ := List.cons.inj split
      exact absurd (List.mem_append_right rest List.mem_cons_self) notAfter'

theorem orderId_injective {venue venue' : String} {m n : Nat}
    (same : orderId venue m = orderId venue' n) : venue = venue' ∧ m = n := by
  have lists : (orderId venue m).toList = (orderId venue' n).toList := by rw [same]
  rw [orderId_toList, orderId_toList] at lists
  obtain ⟨names, digits⟩ := split_at_last (dash_not_mem_digits m) (dash_not_mem_digits n) lists
  exact ⟨String.toList_injective names, toDigits_injective digits⟩

theorem Issued.venue_eq {venue venue' : String} {id : OrderId} (here : Issued venue id)
    (there : Issued venue' id) : venue = venue' := by
  obtain ⟨m, rfl⟩ := here
  obtain ⟨n, same⟩ := there
  exact (orderId_injective same).1

namespace RestingOrder

/-! ### Looking up a resting order -/

/-- The order of this id among the resting ones. -/
def lookup (id : OrderId) (orders : List RestingOrder) : Option RestingOrder :=
  orders.find? fun order => order.id = id

/-- The quantity that rests under an id; zero if there is none. -/
def quantityOf (orders : List RestingOrder) (id : OrderId) : ℚ :=
  match lookup id orders with
  | some order => order.quantity.value
  | none => 0

theorem lookup_eq_none {id : OrderId} {orders : List RestingOrder} :
    lookup id orders = none ↔ ∀ order ∈ orders, order.id ≠ id := by
  simp [lookup]

theorem mem_of_lookup {id : OrderId} {orders : List RestingOrder} {order : RestingOrder}
    (found : lookup id orders = some order) : order ∈ orders ∧ order.id = id :=
  ⟨List.mem_of_find?_eq_some found, by simpa using List.find?_some found⟩

theorem lookup_of_mem {orders : List RestingOrder} {order : RestingOrder}
    (distinct : (orders.map RestingOrder.id).Nodup) (member : order ∈ orders) :
    lookup order.id orders = some order := by
  induction orders with
  | nil => cases member
  | cons first rest ih =>
    rw [List.map_cons, List.nodup_cons] at distinct
    rcases List.mem_cons.1 member with rfl | later
    · simp [lookup]
    · have other : first.id ≠ order.id := by
        intro same
        exact distinct.1 (same ▸ List.mem_map_of_mem later)
      rw [lookup, List.find?_cons_of_neg (by simpa using other)]
      exact ih distinct.2 later

theorem lookup_append (id : OrderId) (orders more : List RestingOrder) :
    lookup id (orders ++ more) = (lookup id orders).or (lookup id more) :=
  List.find?_append

theorem lookup_singleton (id : OrderId) (order : RestingOrder) :
    lookup id [order] = if order.id = id then some order else none := by
  by_cases same : order.id = id <;> simp [lookup, same]

theorem lookup_remove (id other : OrderId) (orders : List RestingOrder) :
    lookup id (orders.filter fun order => order.id ≠ other) =
      if id = other then none else lookup id orders := by
  by_cases same : id = other
  · subst same
    rw [if_pos rfl, lookup_eq_none]
    intro order member
    simpa using (List.mem_filter.1 member).2
  · rw [if_neg same, lookup, lookup, List.find?_filter]
    congr 1
    funext order
    by_cases found : order.id = id
    · simp [found, same]
    · simp [found]

theorem lookup_setQuantity (id other : OrderId) (quantity : Decimal) (orders : List RestingOrder) :
    lookup id (orders.map fun order => if order.id = other then { order with quantity } else order) =
      (lookup id orders).map fun order => if id = other then { order with quantity } else order := by
  induction orders with
  | nil => rfl
  | cons first rest ih =>
    have sameId : (if first.id = other then { first with quantity } else first).id = first.id := by
      split <;> rfl
    rw [List.map_cons, lookup, lookup]
    by_cases found : first.id = id
    · rw [List.find?_cons_of_pos (by simpa only [sameId, decide_eq_true_eq] using found),
        List.find?_cons_of_pos (by simpa using found), Option.map_some, found]
    · rw [List.find?_cons_of_neg (by simpa only [sameId, decide_eq_true_eq] using found),
        List.find?_cons_of_neg (by simpa using found)]
      exact ih

theorem quantityOf_of_mem {orders : List RestingOrder} {order : RestingOrder}
    (distinct : (orders.map RestingOrder.id).Nodup) (member : order ∈ orders) :
    quantityOf orders order.id = order.quantity.value := by
  rw [quantityOf, lookup_of_mem distinct member]

theorem quantityOf_of_absent {orders : List RestingOrder} {id : OrderId}
    (absent : lookup id orders = none) : quantityOf orders id = 0 := by
  rw [quantityOf, absent]

theorem quantityOf_append_other {orders : List RestingOrder} {order : RestingOrder} {id : OrderId}
    (other : order.id ≠ id) : quantityOf (orders ++ [order]) id = quantityOf orders id := by
  rw [quantityOf, quantityOf, lookup_append, lookup_singleton, if_neg other, Option.or_none]

theorem quantityOf_append_new {orders : List RestingOrder} {order : RestingOrder}
    (fresh : lookup order.id orders = none) :
    quantityOf (orders ++ [order]) order.id = order.quantity.value := by
  rw [quantityOf, lookup_append, fresh, lookup_singleton, if_pos rfl, Option.none_or]

theorem quantityOf_remove (orders : List RestingOrder) (id other : OrderId) :
    quantityOf (orders.filter fun order => order.id ≠ other) id =
      if id = other then 0 else quantityOf orders id := by
  rw [quantityOf, lookup_remove]
  by_cases same : id = other <;> simp [same, quantityOf]

theorem quantityOf_setQuantity {orders : List RestingOrder} {order : RestingOrder} {id : OrderId}
    (quantity : Decimal) (found : lookup id orders = some order) (other : OrderId) :
    quantityOf (orders.map fun order => if order.id = id then { order with quantity } else order)
      other = if other = id then quantity.value else quantityOf orders other := by
  rw [quantityOf, lookup_setQuantity]
  by_cases same : other = id
  · subst same
    simp [found]
  · simp [same, quantityOf]

end RestingOrder

namespace Fill

/-! ### Amounts filled -/

/-- The amounts of an order's fills, in their order. -/
def amountsOf (fills : List Fill) (id : OrderId) : List ℚ :=
  (fills.filter fun fill => fill.orderId = id).map fun fill => fill.amount.value

theorem amountsOf_nil (id : OrderId) : amountsOf [] id = [] := rfl

theorem amountsOf_append (fills more : List Fill) (id : OrderId) :
    amountsOf (fills ++ more) id = amountsOf fills id ++ amountsOf more id := by
  simp [amountsOf]

theorem amountsOf_cons (fill : Fill) (fills : List Fill) (id : OrderId) :
    amountsOf (fill :: fills) id =
      if fill.orderId = id then fill.amount.value :: amountsOf fills id else amountsOf fills id := by
  by_cases same : fill.orderId = id <;> simp [amountsOf, same]

theorem amountsOf_eq_nil {fills : List Fill} {id : OrderId} :
    amountsOf fills id = [] ↔ ∀ fill ∈ fills, fill.orderId ≠ id := by
  simp [amountsOf]

end Fill

end MarketMaker
