import MarketMaker.Proofs.Steps
/-!
Computations that end with a result. What is known of the result is said with it, so that the stages of
a longer computation follow one after the other.
-/

namespace MarketMaker

namespace Checked

variable {ε α β : Type} {x : Except ε α} {holds : α → Prop}

/-- There is a result, and it is as described. -/
def Gives (x : Except ε α) (holds : α → Prop) : Prop :=
  ∃ a, x = .ok a ∧ holds a

theorem gives_pure {a : α} (given : holds a) : Gives (pure a : Except ε α) holds :=
  ⟨a, rfl, given⟩

theorem Gives.mono {holds' : α → Prop} (gives : Gives x holds) (implies : ∀ a, holds a → holds' a) :
    Gives x holds' := by
  obtain ⟨a, done, given⟩ := gives
  exact ⟨a, done, implies a given⟩

theorem Gives.bind {f : α → Except ε β} {holds' : β → Prop} (first : Gives x holds)
    (rest : ∀ a, holds a → Gives (f a) holds') : Gives (x >>= f) holds' := by
  obtain ⟨a, done, given⟩ := first
  obtain ⟨b, later, given'⟩ := rest a given
  exact ⟨b, bind_ok.2 ⟨a, done, later⟩, given'⟩

/-- What holds of every result holds of this one. -/
theorem Gives.of_ok {holds' : α → Prop} (gives : Gives x holds)
    (every : ∀ a, x = .ok a → holds a → holds' a) : Gives x holds' := by
  obtain ⟨a, done, given⟩ := gives
  exact ⟨a, done, every a done given⟩

end Checked

namespace Act

variable {σ τ ε α β : Type} {s : σ} {step : Act σ α}

/-- The step leads to some world with some result, and both are as described. -/
def Gives (step : Act σ α) (s : σ) (holds : α → σ → Prop) : Prop :=
  ∃ a t, Leads step s a t ∧ holds a t

theorem gives_pure {a : α} {holds : α → σ → Prop} (given : holds a s) :
    Gives (pure a : Act σ α) s holds :=
  ⟨a, s, leads_pure.2 ⟨rfl, rfl⟩, given⟩

theorem Gives.mono {holds holds' : α → σ → Prop} (gives : Gives step s holds)
    (implies : ∀ a t, holds a t → holds' a t) : Gives step s holds' := by
  obtain ⟨a, t, led, given⟩ := gives
  exact ⟨a, t, led, implies a t given⟩

theorem Gives.bind {next : α → Act σ β} {holds : α → σ → Prop} {holds' : β → σ → Prop}
    (first : Gives step s holds) (rest : ∀ a t, holds a t → Gives (next a) t holds') :
    Gives (step >>= next) s holds' := by
  obtain ⟨a, t, led, given⟩ := first
  obtain ⟨b, u, later, given'⟩ := rest a t given
  exact ⟨b, u, leads_bind.2 ⟨a, t, led, later⟩, given'⟩

theorem gives_lift {x : Checked α} {holds : α → Prop} (gives : Checked.Gives x holds) :
    Gives (monadLift x : Act σ α) s fun a t => holds a ∧ t = s := by
  obtain ⟨a, done, given⟩ := gives
  exact ⟨a, s, leads_lift.2 ⟨done, rfl⟩, given, rfl⟩

/-! ### Steps that may be refused -/

/-- Granted or refused, the steps lead on; what is granted, and the world then, is as described. -/
def Answers (steps : ExceptT ε (Act σ) α) (s : σ) (holds : α → σ → Prop) (left : σ → Prop) : Prop :=
  Gives steps.run s fun r t => left t ∧ ∀ a, r = .ok a → holds a t

variable {steps : ExceptT ε (Act σ) α} {holds : α → σ → Prop} {left : σ → Prop}

theorem answers_pure {a : α} (given : holds a s) (same : left s) :
    Answers (pure a : ExceptT ε (Act σ) α) s holds left :=
  ⟨.ok a, s, leads_run_pure.2 ⟨rfl, rfl⟩, same, fun _ result => Except.ok.inj result ▸ given⟩

theorem answers_throw {e : ε} (same : left s) :
    Answers (throw e : ExceptT ε (Act σ) α) s holds left :=
  ⟨.error e, s, leads_run_throw.2 ⟨rfl, rfl⟩, same, fun _ impossible => nomatch impossible⟩

theorem Answers.bind {next : α → ExceptT ε (Act σ) β} {holds' : β → σ → Prop}
    (first : Answers steps s holds left)
    (rest : ∀ a t, left t → holds a t → Answers (next a) t holds' left) :
    Answers (steps >>= next) s holds' left := by
  obtain ⟨r, t, led, same, granted⟩ := first
  cases r with
  | error e =>
    exact ⟨.error e, t, leads_run_bind.2 (.inl ⟨e, led, rfl⟩), same, fun _ impossible => nomatch impossible⟩
  | ok a =>
    obtain ⟨r, u, later, given⟩ := rest a t same (granted a rfl)
    exact ⟨r, u, leads_run_bind.2 (.inr ⟨a, t, led, later⟩), given⟩

theorem answers_lift {x : Checked α} {holds : α → Prop} (gives : Checked.Gives x holds) (same : left s) :
    Answers (monadLift x : ExceptT ε (Act σ) α) s (fun a t => holds a ∧ t = s) left := by
  obtain ⟨a, done, given⟩ := gives
  exact ⟨.ok a, s, leads_run_lift.2 ⟨a, rfl, done, rfl⟩, same,
    fun _ result => ⟨Except.ok.inj result ▸ given, rfl⟩⟩

end Act

end MarketMaker
