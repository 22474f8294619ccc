import MarketMaker.Venue.Adapter
import Mathlib.Tactic
/-!
How computations come apart. What ran in a row ran one after the other: a checked computation that
has a result has one at every stage, and a step of a world passes through the worlds in between.
-/

namespace MarketMaker

namespace Checked

variable {ε α β : Type}

theorem bind_ok {x : Except ε α} {f : α → Except ε β} {b : β} :
    (x >>= f) = .ok b ↔ ∃ a, x = .ok a ∧ f a = .ok b := by
  cases x with
  | error e => simp [bind, Except.bind]
  | ok a => simp [bind, Except.bind]

@[simp] theorem ok_bind {a : α} {f : α → Except ε β} : (Except.ok a >>= f) = f a := rfl

theorem pure_ok {a b : α} : (pure a : Except ε α) = .ok b ↔ a = b := by
  simp [pure, Except.pure]

theorem toOption_any {x : Except ε α} {p : α → Bool} (found : x.toOption.any p = true) :
    ∃ a, x = .ok a ∧ p a = true := by
  cases x with
  | error e => simp [Except.toOption] at found
  | ok a => exact ⟨a, rfl, by simpa [Except.toOption] using found⟩

theorem toOption_all {x : Except ε α} {p : α → Bool} :
    x.toOption.all p = true ↔ ∀ a, x = .ok a → p a = true := by
  cases x <;> simp [Except.toOption]

/-- What the one computation results in, the other one does. -/
def Refines (x y : Except ε α) : Prop :=
  ∀ ⦃a⦄, x = .ok a → y = .ok a

theorem Refines.bind {x y : Except ε α} {f g : α → Except ε β} (first : Refines x y)
    (rest : ∀ a, Refines (f a) (g a)) : Refines (x >>= f) (y >>= g) := by
  intro b done
  obtain ⟨a, started, later⟩ := bind_ok.1 done
  exact bind_ok.2 ⟨a, first started, rest a later⟩

theorem mapM_ok {f : α → Except ε β} {xs : List α} {ys : List β}
    (done : xs.mapM f = .ok ys) : ∀ y ∈ ys, ∃ x ∈ xs, f x = .ok y := by
  induction xs generalizing ys with
  | nil =>
    rw [List.mapM_nil, pure_ok] at done
    simp [← done]
  | cons x xs ih =>
    simp only [List.mapM_cons, bind_ok, pure_ok] at done
    obtain ⟨y, first, rest, later, rfl⟩ := done
    intro z member
    rcases List.mem_cons.1 member with rfl | inRest
    · exact ⟨x, List.mem_cons_self, first⟩
    · obtain ⟨x', member', same⟩ := ih later z inRest
      exact ⟨x', List.mem_cons_of_mem _ member', same⟩

/-- What is mapped stays in place. -/
theorem mapM_forall₂ {f : α → Except ε β} {xs : List α} {ys : List β}
    (done : xs.mapM f = .ok ys) : List.Forall₂ (fun x y => f x = .ok y) xs ys := by
  induction xs generalizing ys with
  | nil =>
    rw [List.mapM_nil, pure_ok] at done
    exact done ▸ .nil
  | cons x xs ih =>
    simp only [List.mapM_cons, bind_ok, pure_ok] at done
    obtain ⟨y, first, rest, later, rfl⟩ := done
    exact .cons first (ih later)

end Checked

namespace Act

variable {σ τ ε α β : Type}

/-- The step leads from `s` to `t` with this result. -/
def Leads (step : Act σ α) (s : σ) (a : α) (t : σ) : Prop :=
  step.run s = .ok (a, t)

theorem Leads.unique {step : Act σ α} {s t u : σ} {a b : α} (first : Leads step s a t)
    (second : Leads step s b u) : a = b ∧ t = u :=
  Prod.mk.inj (Except.ok.inj (first.symm.trans second))

theorem leads_pure {a b : α} {s t : σ} :
    Leads (pure a) s b t ↔ b = a ∧ t = s := by
  rw [Leads, StateT.run_pure, Checked.pure_ok, Prod.mk.injEq]
  exact and_congr eq_comm eq_comm

theorem leads_pure_pair {a c : α} {b d : β} {s t : σ} :
    Leads (pure (a, b)) s (c, d) t ↔ c = a ∧ d = b ∧ t = s := by
  rw [leads_pure, Prod.mk.injEq, and_assoc]

theorem leads_bind {step : Act σ α} {next : α → Act σ β} {s t : σ} {b : β} :
    Leads (step >>= next) s b t ↔ ∃ a u, Leads step s a u ∧ Leads (next a) u b t := by
  rw [Leads, StateT.run_bind, Checked.bind_ok]
  exact Prod.exists

theorem leads_lift {x : Checked α} {s t : σ} {a : α} :
    Leads (monadLift x : Act σ α) s a t ↔ x = .ok a ∧ t = s := by
  rw [Leads, StateT.run_monadLift, monadLift_self, Checked.bind_ok]
  simp only [Checked.pure_ok, Prod.mk.injEq]
  constructor
  · intro given
    obtain ⟨a, done, rfl, rfl⟩ := given
    exact ⟨done, rfl⟩
  · intro given
    obtain ⟨done, rfl⟩ := given
    exact ⟨a, done, rfl, rfl⟩

theorem leads_get {s t u : σ} : Leads (get : Act σ σ) s u t ↔ u = s ∧ t = s := by
  rw [Leads, StateT.run_get, Checked.pure_ok, Prod.mk.injEq]
  exact and_congr eq_comm eq_comm

theorem leads_modify {f : σ → σ} {s t : σ} {a : PUnit} :
    Leads (modify f : Act σ PUnit) s a t ↔ t = f s := by
  rw [Leads, StateT.run_modify, Checked.pure_ok, Prod.mk.injEq]
  simp [eq_comm]

/-! ### Steps that may be refused -/

theorem leads_run_pure {a : α} {r : Except ε α} {s t : σ} :
    Leads (pure a : ExceptT ε (Act σ) α).run s r t ↔ r = .ok a ∧ t = s :=
  leads_pure

theorem leads_run_throw {e : ε} {r : Except ε α} {s t : σ} :
    Leads (throw e : ExceptT ε (Act σ) α).run s r t ↔ r = .error e ∧ t = s :=
  leads_pure

/-- A refusal ends it, and the world stays as the refusal leaves it. -/
theorem leads_run_bind {step : ExceptT ε (Act σ) α} {next : α → ExceptT ε (Act σ) β} {s t : σ}
    {r : Except ε β} :
    Leads (step >>= next).run s r t ↔
      (∃ e, Leads step.run s (.error e) t ∧ r = .error e) ∨
        ∃ a u, Leads step.run s (.ok a) u ∧ Leads (next a).run u r t := by
  rw [ExceptT.run_bind, leads_bind]
  constructor
  · intro given
    rcases given with ⟨a | a, u, first, rest⟩
    · obtain ⟨rfl, rfl⟩ := leads_pure.1 rest
      exact .inl ⟨a, first, rfl⟩
    · exact .inr ⟨a, u, first, rest⟩
  · intro given
    rcases given with ⟨e, first, rfl⟩ | ⟨a, u, first, rest⟩
    · exact ⟨.error e, t, first, leads_pure.2 ⟨rfl, rfl⟩⟩
    · exact ⟨.ok a, u, first, rest⟩

theorem leads_run_bind_ok {step : ExceptT ε (Act σ) α} {next : α → ExceptT ε (Act σ) β} {s t : σ}
    {b : β} :
    Leads (step >>= next).run s (.ok b) t ↔
      ∃ a u, Leads step.run s (.ok a) u ∧ Leads (next a).run u (.ok b) t := by
  rw [leads_run_bind]
  constructor
  · intro given
    rcases given with ⟨e, -, impossible⟩ | led
    · cases impossible
    · exact led
  · exact .inr

theorem leads_run_act {step : Act σ α} {s t : σ} {r : Except ε α} :
    Leads (monadLift step : ExceptT ε (Act σ) α).run s r t ↔ ∃ a, r = .ok a ∧ Leads step s a t := by
  have split : (monadLift step : ExceptT ε (Act σ) α).run = step >>= fun a => pure (.ok a) := rfl
  rw [split, leads_bind]
  constructor
  · intro given
    obtain ⟨a, u, first, rest⟩ := given
    obtain ⟨rfl, rfl⟩ := leads_pure.1 rest
    exact ⟨a, rfl, first⟩
  · intro given
    obtain ⟨a, rfl, first⟩ := given
    exact ⟨a, t, first, leads_pure.2 ⟨rfl, rfl⟩⟩

theorem leads_run_lift {x : Checked α} {s t : σ} {r : Except ε α} :
    Leads (monadLift x : ExceptT ε (Act σ) α).run s r t ↔ ∃ a, r = .ok a ∧ x = .ok a ∧ t = s := by
  have split : (monadLift x : ExceptT ε (Act σ) α) = monadLift (monadLift x : Act σ α) := rfl
  simp only [split, leads_run_act, leads_lift]

theorem leads_run_modify {f : σ → σ} {s t : σ} {r : Except ε PUnit} :
    Leads (modify f : ExceptT ε (Act σ) PUnit).run s r t ↔ r = .ok () ∧ t = f s := by
  have split : (modify f : ExceptT ε (Act σ) PUnit) = monadLift (modify f : Act σ PUnit) := rfl
  simp only [split, leads_run_act, leads_modify]
  exact Unique.exists_iff

theorem leads_run_set {s t u : σ} {r : Except ε PUnit} :
    Leads (set u : ExceptT ε (Act σ) PUnit).run s r t ↔ r = .ok () ∧ t = u :=
  leads_run_modify (f := fun _ => u)

/-- What follows on a step that cannot be refused starts where the step ended. -/
theorem leads_run_act_bind (step : Act σ α) {next : α → ExceptT ε (Act σ) β} {s t : σ}
    {r : Except ε β} :
    Leads (monadLift step >>= next).run s r t ↔ ∃ a u, Leads step s a u ∧ Leads (next a).run u r t := by
  rw [leads_run_bind]
  simp only [leads_run_act]
  constructor
  · intro given
    rcases given with ⟨e, ⟨_, impossible, -⟩, -⟩ | ⟨_, u, ⟨a, same, taken⟩, led⟩
    · cases impossible
    · obtain rfl := Except.ok.inj same
      exact ⟨_, u, taken, led⟩
  · intro given
    obtain ⟨a, u, taken, led⟩ := given
    exact .inr ⟨a, u, ⟨a, rfl, taken⟩, led⟩

theorem leads_run_lift_bind {x : Checked α} {next : α → ExceptT ε (Act σ) β} {s t : σ}
    {r : Except ε β} :
    Leads (monadLift x >>= next).run s r t ↔ ∃ a, x = .ok a ∧ Leads (next a).run s r t := by
  refine (leads_run_act_bind (monadLift x)).trans ?_
  simp only [leads_lift, and_assoc, exists_eq_left, exists_and_left]

theorem leads_run_get_bind {next : σ → ExceptT ε (Act σ) β} {s t : σ} {r : Except ε β} :
    Leads (get >>= next).run s r t ↔ Leads (next s).run s r t := by
  refine (leads_run_act_bind get).trans ?_
  simp only [leads_get, and_assoc, exists_eq_left, exists_and_left]

theorem leads_run_modify_bind {f : σ → σ} {next : PUnit → ExceptT ε (Act σ) β} {s t : σ}
    {r : Except ε β} :
    Leads (modify f >>= next).run s r t ↔ Leads (next ()).run (f s) r t := by
  refine (leads_run_act_bind (modify f)).trans ?_
  simp only [leads_modify, exists_eq_left]
  exact Unique.exists_iff

theorem leads_run_set_bind {next : PUnit → ExceptT ε (Act σ) β} {s t u : σ} {r : Except ε β} :
    Leads (set u >>= next).run s r t ↔ Leads (next ()).run u r t :=
  leads_run_modify_bind (f := fun _ => u)

/-! ### Questions -/

/-- Whatever the step results in, the world stays as it is. -/
def Passive (step : Act σ α) : Prop :=
  ∀ ⦃s : σ⦄ ⦃a : α⦄ ⦃t : σ⦄, Leads step s a t → t = s

theorem passive_run_pure {a : α} : Passive (pure a : ExceptT ε (Act σ) α).run :=
  fun _ _ _ led => (leads_run_pure.1 led).2

theorem passive_run_lift {x : Checked α} : Passive (monadLift x : ExceptT ε (Act σ) α).run := by
  intro s r t led
  obtain ⟨a, -, -, same⟩ := leads_run_lift.1 led
  exact same

theorem Passive.run_bind {step : ExceptT ε (Act σ) α} {next : α → ExceptT ε (Act σ) β}
    (first : Passive step.run) (rest : ∀ a, Passive (next a).run) : Passive (step >>= next).run := by
  intro s r t led
  rcases leads_run_bind.1 led with ⟨e, led, -⟩ | ⟨a, u, led, later⟩
  · exact first led
  · exact (rest a later).trans (first led)

/-- What follows on a question starts where the question did. -/
theorem Passive.leads_run_bind {step : ExceptT ε (Act σ) α} {next : α → ExceptT ε (Act σ) β} {s t : σ}
    {r : Except ε β} (first : Passive step.run) (led : Leads (step >>= next).run s r t) :
    ((∃ e, r = .error e) ∧ t = s) ∨ ∃ a, Leads step.run s (.ok a) s ∧ Leads (next a).run s r t := by
  rcases Act.leads_run_bind.1 led with ⟨e, asked, failed⟩ | ⟨a, u, asked, later⟩
  · exact .inl ⟨⟨e, failed⟩, first asked⟩
  · obtain rfl := first asked
    exact .inr ⟨a, asked, later⟩

/-! ### Requests in a part of the world -/

section Within

variable {ω : Type} {call : Call σ α} {whole : Call ω α} {world next : ω} {r : Except VenueError α}

/-- A request that runs in a part of the world and puts back what it leaves of it. -/
theorem leads_within (part : ω → σ) (put : ω → σ → ω) (runs : ∀ world, whole.run.run world =
      (call.run.run (part world) >>= fun out => pure (out.1, put world out.2))) :
    Leads whole.run world r next ↔
      ∃ s, Leads call.run (part world) r s ∧ next = put world s := by
  rw [Leads, runs, Checked.bind_ok]
  simp only [Prod.exists, Checked.pure_ok, Prod.mk.injEq, Leads]
  constructor
  · intro given
    obtain ⟨a, s, led, rfl, rfl⟩ := given
    exact ⟨s, led, rfl⟩
  · intro given
    obtain ⟨s, led, rfl⟩ := given
    exact ⟨r, s, led, rfl, rfl⟩

end Within

theorem leads_onFirst {call : Call σ α} {world next : σ × τ} {r : Except VenueError α} :
    Leads (call.onFirst : Call (σ × τ) α).run world r next ↔
      ∃ s, Leads call.run world.1 r s ∧ next = (s, world.2) :=
  leads_within Prod.fst (fun world s => (s, world.2)) fun _ => rfl

theorem leads_onSecond {call : Call τ α} {world next : σ × τ} {r : Except VenueError α} :
    Leads (call.onSecond : Call (σ × τ) α).run world r next ↔
      ∃ s, Leads call.run world.2 r s ∧ next = (world.1, s) :=
  leads_within Prod.snd (fun world s => (world.1, s)) fun _ => rfl

end Act

end MarketMaker
