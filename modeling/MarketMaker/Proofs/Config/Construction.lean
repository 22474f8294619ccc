import MarketMaker.Proofs.Engine.Prices
import MarketMaker.Venue.Registry
/-!
What a valid configuration is good for. The rules that it keeps are the conditions under which its
texts and times convert, so nothing else can fail when parameters are made of it; and since its venues
have different names, both are found among registered adapters, whatever their order.
-/

namespace MarketMaker

/-! ### Adapters by name -/

namespace Registry

variable {α : Type}

/-- The adapters registered one after the other, each under its own name. -/
def registerAll (name : α → String) (r : Registry α) (adapters : List α) : Registry α :=
  adapters.foldl (fun r adapter => r.register (name adapter) adapter) r

def ofList (name : α → String) (adapters : List α) : Registry α :=
  registerAll name .empty adapters

variable {name : α → String} {r : Registry α} {adapters : List α} {adapter : α}

/-- Adapters of other names do not get in the way. -/
theorem resolve_registerAll_other {venue : String} (other : venue ∉ adapters.map name) :
    (registerAll name r adapters).resolve venue = r.resolve venue := by
  induction adapters generalizing r with
  | nil => rfl
  | cons first rest ih =>
    rw [List.map_cons, List.mem_cons, not_or] at other
    rw [registerAll, List.foldl_cons, ← registerAll, ih other.2, resolve_register,
      if_neg (Ne.symm other.1)]

theorem resolve_registerAll (distinct : (adapters.map name).Nodup) (member : adapter ∈ adapters) :
    (registerAll name r adapters).resolve (name adapter) = .ok adapter := by
  induction adapters generalizing r with
  | nil => cases member
  | cons first rest ih =>
    rw [List.map_cons, List.nodup_cons] at distinct
    rw [registerAll, List.foldl_cons, ← registerAll]
    rcases List.mem_cons.1 member with rfl | later
    · rw [resolve_registerAll_other distinct.1, resolve_register, if_pos rfl]
    · exact ih distinct.2 later

theorem resolveBoth_ofList {p : Parameters} {maker taker : α}
    (distinct : (adapters.map name).Nodup) (first : maker ∈ adapters) (second : taker ∈ adapters)
    (makerName : name maker = p.maker.venue) (takerName : name taker = p.taker.venue) :
    (ofList name adapters).resolveBoth p = .ok (maker, taker) := by
  rw [resolveBoth, ← makerName, ← takerName, ofList, resolve_registerAll distinct first,
    resolve_registerAll distinct second]
  rfl

end Registry

/-! ### Conversions -/

namespace Config

variable {config : Config} {p : Parameters}

/-- A year is few enough milliseconds. -/
theorem span?_of_le {seconds : UInt64} (short : seconds ≤ maxDurationSecs) :
    span? seconds = some (Span.ofSeconds seconds.toNat) := by
  have bound : seconds.toNat ≤ (twoTo 63 - 1) / 1000 :=
    (UInt64.le_iff_toNat_le.1 short).trans (by decide)
  rw [span?, if_pos bound]

theorem market_of_readable {m : MarketConfig} (readable : (Pair.ofText? m.pair).isSome = true) :
    ∃ converted, market m = .ok converted := by
  obtain ⟨pair, read⟩ := Option.isSome_iff_exists.1 readable
  exact ⟨⟨m.venue, pair, m.tickSize, m.lotSize⟩, by rw [market, read]⟩

/-- What the rules of a configuration ask, both markets can be made of. -/
theorem markets_of_validate (valid : config.validate = .ok ()) :
    (∃ maker, market config.maker = .ok maker) ∧ ∃ taker, market config.taker = .ok taker := by
  have reads {m : MarketConfig} (asked : ∀ rule ∈ marketRules m, rule ∈ config.rules) :
      ∃ converted, market m = .ok converted :=
    market_of_readable (rules_of_validate valid _
      (asked _ (List.mem_cons_of_mem _ (List.mem_singleton_self _))))
  exact ⟨reads fun rule asked => by simp [rules, asked],
    reads fun rule asked => by simp [rules, asked]⟩

theorem exists_parameters (valid : config.validate = .ok ()) : ∃ p, config.parameters = .ok p := by
  obtain ⟨⟨maker, makes⟩, taker, takes⟩ := markets_of_validate valid
  have maxAge : 0 < config.strategy.maxOrderAgeSecs ∧
      config.strategy.maxOrderAgeSecs ≤ maxDurationSecs :=
    holds_of_validate (e := .maxOrderAge) valid (by simp [rules, strategyRules])
  simp only [parameters, valid, makes, takes, span?_of_le maxAge.2]
  exact ⟨_, rfl⟩

theorem parameters_of_broken {e : ConfigError} (broken : config.validate = .error e) :
    config.parameters = .error e := by
  rw [parameters, broken]
  rfl

theorem validate_of_parameters (done : config.parameters = .ok p) : config.validate = .ok () := by
  simp only [parameters, Checked.bind_ok] at done
  obtain ⟨_, valid, -⟩ := done
  exact valid

theorem flushInterval_of_validate (valid : config.validate = .ok ()) :
    config.archive.flushInterval = .ok (Span.ofSeconds config.archive.flushIntervalSecs.toNat) := by
  have short : config.archive.flushIntervalSecs ≤ maxDurationSecs :=
    holds_of_validate (e := .flushIntervalTooLong) valid (by simp [rules])
  rw [ArchiveConfig.flushInterval, span?_of_le short]

/-! ### Construction -/

/-- Parameters are made exactly of valid configurations, and a broken rule is the only error. Where they
are made the archive has its interval, and among adapters of different names both venues find their
own, in whichever order the adapters were registered. -/
theorem valid_constructs {α : Type} (config : Config) (name : α → String) :
    (∀ e, config.validate = .error e → config.parameters = .error e) ∧
    ((∃ p, config.parameters = .ok p) ↔ config.validate = .ok ()) ∧
    ∀ p, config.parameters = .ok p →
      config.archive.flushInterval = .ok (Span.ofSeconds config.archive.flushIntervalSecs.toNat) ∧
      ∀ (adapters : List α) (maker taker : α), (adapters.map name).Nodup →
        maker ∈ adapters → taker ∈ adapters →
        name maker = config.maker.venue → name taker = config.taker.venue →
        maker ≠ taker ∧ (Registry.ofList name adapters).resolveBoth p = .ok (maker, taker) := by
  refine ⟨fun _ => parameters_of_broken, ⟨?_, exists_parameters⟩, fun p done => ?_⟩
  · rintro ⟨p, done⟩
    exact validate_of_parameters done
  obtain ⟨valid, makerVenue, takerVenue⟩ := parameters_valid done
  refine ⟨flushInterval_of_validate (validate_of_parameters done), ?_⟩
  intro adapters maker taker distinct first second makerName takerName
  rw [← makerVenue] at makerName
  rw [← takerVenue] at takerName
  refine ⟨?_, Registry.resolveBoth_ofList distinct first second makerName takerName⟩
  rintro rfl
  exact valid.venues (makerName.symm.trans takerName)

/-- Three adapters, that of the taker first. -/
theorem valid_constructs_standard : ∃ p, ({} : Config).parameters = .ok p ∧
    ({} : Config).archive.flushInterval = .ok (Span.ofSeconds 10) ∧
    (Registry.ofList id ["binance", "kraken", "okx"]).resolveBoth p = .ok ("okx", "binance") := by
  obtain ⟨-, made, works⟩ := valid_constructs ({} : Config) (id : String → String)
  obtain ⟨p, done⟩ := made.2 (by decide +kernel)
  obtain ⟨interval, finds⟩ := works p done
  exact ⟨p, done, interval, (finds ["binance", "kraken", "okx"] "okx" "binance" (by decide)
    (by decide) (by decide) rfl rfl).2⟩

end Config

end MarketMaker
