import MarketMaker.Proofs.Engine.Handlers
import MarketMaker.Proofs.Engine.Recording
import MarketMaker.Proofs.Engine.Submission
/-!
The engine over whole runs, on venues that may answer anything. Its count is that of the outcomes it
returned, and once an unhedged fill has halted it, it never places a quote again; it goes on checking
the quotes that rest and hedging the fills that arrive.
-/

namespace MarketMaker

open Act

namespace HedgeOutcome

def isUnhedged : HedgeOutcome → Bool
  | unhedged _ => true
  | _ => false

end HedgeOutcome

namespace Engine

def Answer.outcome? : Answer → Option HedgeOutcome
  | handled outcome => some outcome
  | _ => none

/-- The outcomes of the fills among these calls, in order. -/
def outcomes (answers : List Answer) : List HedgeOutcome :=
  answers.filterMap Answer.outcome?

/-- The profits that were recorded, in order. -/
def profits (outcomes : List HedgeOutcome) : List Decimal :=
  (outcomes.filterMap HedgeOutcome.record?).map HedgeRecord.profit

variable {σ : Type} [Arithmetic]
variable {desk : Desk σ} {s t u : σ} {e e' e'' : Engine} {event : Event} {events : List Event}
  {answer : Answer} {answers : List Answer}

/-! ### The count -/

/-- From one engine to the other these outcomes were counted. Counts are words of 64 bits. -/
structure Counted (outcomes : List HedgeOutcome) (e e' : Engine) : Prop where
  params : e'.params = e.params
  hedged : e'.profit.hedgeCount.toNat =
    (e.profit.hedgeCount.toNat + (outcomes.filterMap HedgeOutcome.record?).length) % twoTo 64
  unhedged : e'.profit.unhedgedCount.toNat =
    (e.profit.unhedgedCount.toNat + outcomes.countP HedgeOutcome.isUnhedged) % twoTo 64
  /-- The profits are added to the total one after the other. -/
  total : (profits outcomes).foldlM Decimal.add e.profit.total = .ok e'.profit.total
  halted : e'.halted = true ↔ e.halted = true ∨
    e.params.haltOnUnhedgedFill = true ∧ ∃ gap, .unhedged gap ∈ outcomes

theorem Counted.of_book {book : QuoteBook} (same : e' = { e with book }) : Counted [] e e' := by
  subst same
  refine ⟨rfl, ?_, ?_, rfl, by simp⟩
  · exact (Nat.mod_eq_of_lt e.profit.hedgeCount.toNat_lt).symm
  · exact (Nat.mod_eq_of_lt e.profit.unhedgedCount.toNat_lt).symm

theorem Counted.trans {before after : List HedgeOutcome} (first : Counted before e e')
    (second : Counted after e' e'') : Counted (before ++ after) e e'' where
  params := second.params.trans first.params
  hedged := by
    rw [second.hedged, first.hedged, List.filterMap_append, List.length_append, Nat.mod_add_mod,
      Nat.add_assoc]
  unhedged := by
    rw [second.unhedged, first.unhedged, List.countP_append, Nat.mod_add_mod, Nat.add_assoc]
  total := by
    rw [profits, List.filterMap_append, List.map_append, List.foldlM_append]
    exact Checked.bind_ok.2 ⟨_, first.total, second.total⟩
  halted := by
    rw [second.halted, first.halted, first.params, or_assoc, ← and_or_left]
    simp only [List.mem_append, exists_or]

/-- An outcome is counted as what it is. -/
theorem counted_account {outcome : HedgeOutcome} (done : e.account outcome = .ok e') :
    Counted [outcome] e e' := by
  cases outcome with
  | ignored =>
    obtain rfl := Except.ok.inj done
    exact ⟨rfl, (Nat.mod_eq_of_lt e.profit.hedgeCount.toNat_lt).symm,
      (Nat.mod_eq_of_lt e.profit.unhedgedCount.toNat_lt).symm, rfl, by simp⟩
  | hedged record =>
    simp only [account, Profit.recordHedge, Checked.bind_ok, Checked.pure_ok] at done
    obtain ⟨tally, ⟨total, added, rfl⟩, rfl⟩ := done
    refine ⟨rfl, UInt64.toNat_add .., (Nat.mod_eq_of_lt e.profit.unhedgedCount.toNat_lt).symm, ?_,
      by simp⟩
    exact Checked.bind_ok.2 ⟨total, added, rfl⟩
  | unhedged gap =>
    obtain rfl := Except.ok.inj done
    exact ⟨rfl, (Nat.mod_eq_of_lt e.profit.hedgeCount.toNat_lt).symm, UInt64.toNat_add .., rfl,
      by simp⟩

theorem counted_respond (led : Leads (e.respond desk event) s (answer, e') t) :
    Counted (outcomes [answer]) e e' := by
  rcases respond_cases led with
    ⟨now, report, rfl, rfl, ticked⟩ | ⟨fill, outcome, rfl, rfl, handled⟩ | ⟨n, rfl, rfl, stopped⟩
  · exact .of_book (onTick_ticked ticked).1
  · obtain ⟨book, -, counts⟩ := onFill_handled handled
    exact (Counted.of_book rfl).trans (counted_account counts)
  · exact .of_book (onStop_keeps stopped)

/-- Every run counts the outcomes that it returns. -/
theorem counted_respondAll (led : Leads (respondAll desk events e) s (answers, e') t) :
    Counted (outcomes answers) e e' := by
  induction events generalizing e s answers with
  | nil =>
    obtain ⟨rfl, rfl, rfl⟩ := leads_pure_pair.1 led
    exact .of_book rfl
  | cons event events ih =>
    obtain ⟨first, others, e₁, u, rfl, responded, rest⟩ := respondAll_cons led
    have split : outcomes (first :: others) = outcomes [first] ++ outcomes others := by
      rw [outcomes, ← List.singleton_append, List.filterMap_append, outcomes, outcomes]
    rw [split]
    exact (counted_respond responded).trans (ih rest)

/-! ### Halted engines -/

/-- All requests but orders on the maker. -/
def Unquoting (who : Recipient) (request : Request) : Prop :=
  ¬ (who = .maker ∧ request = .placeOrder)

/-- A halted engine places no order on the maker. -/
theorem halted_respond {world next : σ × Record} (halted : e.halted = true)
    (led : Leads (e.respond desk.recorded event) world (answer, e') next) :
    ∃ sent, next.2 = world.2 ++ sent ∧ ∀ entry ∈ sent, Unquoting entry.1 entry.2.kind := by
  have prices : ∀ who, Unquoting who .executablePrice := by simp [Unquoting]
  have cancels : Unquoting .maker .cancelOrder := by simp [Unquoting]
  rcases respond_cases led with
    ⟨now, report, rfl, rfl, ticked⟩ | ⟨fill, outcome, rfl, rfl, handled⟩ | ⟨n, rfl, rfl, stopped⟩
  · obtain ⟨-, ticked⟩ := onTick_ticked ticked
    generalize e'.book = last at ticked
    cases ticked with
    | skip fetched => exact MarketQuotes.sends_fetch prices fetched
    | pull _ fetched checked =>
      obtain ⟨asked, grown, all⟩ := MarketQuotes.sends_fetch prices fetched
      obtain ⟨more, grown', all'⟩ :=
        Cancellation.sends_run (by simp [Unquoting]) cancels _ checked
      refine ⟨asked ++ more, by rw [grown', grown, List.append_assoc], fun entry member => ?_⟩
      exact (List.mem_append.1 member).elim (all entry) (all' entry)
    | quote working => exact absurd (halted.symm.trans working) (by simp)
  · obtain ⟨book, hedged, -⟩ := onFill_handled handled
    exact Hedging.sends_handle (prices .taker) (by simp [Unquoting]) (by simp [Unquoting]) _ _ hedged
  · exact sends_onStop cancels e stopped

/-- Once halted, always halted, and in every run from then on nothing is placed on the maker. -/
theorem halted_respondAll {world next : σ × Record} (halted : e.halted = true)
    (led : Leads (respondAll desk.recorded events e) world (answers, e') next) :
    e'.halted = true ∧
      ∃ sent, next.2 = world.2 ++ sent ∧ ∀ entry ∈ sent, Unquoting entry.1 entry.2.kind := by
  induction events generalizing e world answers with
  | nil =>
    obtain ⟨rfl, rfl, rfl⟩ := leads_pure_pair.1 led
    exact ⟨halted, [], by simp, by simp⟩
  | cons event events ih =>
    obtain ⟨first, others, e₁, u, rfl, responded, rest⟩ := respondAll_cons led
    obtain ⟨sent, grown, all⟩ := halted_respond halted responded
    obtain ⟨still, more, grown', all'⟩ := ih ((counted_respond responded).halted.2 (.inl halted)) rest
    refine ⟨still, sent ++ more, by rw [grown', grown, List.append_assoc], fun entry member => ?_⟩
    exact (List.mem_append.1 member).elim (all entry) (all' entry)

/-- What a halted engine does in this world, and what it does not do any more. -/
structure Halts (desk : Desk (σ × Record)) (e : Engine) (world : σ × Record) : Prop where
  /-- In no later run an order is placed on the maker. -/
  quoteless : ∀ ⦃events answers e' next⦄,
    Leads (respondAll desk events e) world (answers, e') next → e'.halted = true ∧
      ∃ sent, next.2 = world.2 ++ sent ∧ ∀ entry ∈ sent, Unquoting entry.1 entry.2.kind
  /-- A tick still checks the orders that rest, unless there are no quotes. -/
  pulls : ∀ ⦃now report e' next⦄, Leads (e.onTick desk now) world (report, e') next →
    report.placements = [] ∧
      ((∃ error, Leads (MarketQuotes.fetch desk e.params).run world (.error error) next) ∨
        ∃ quotes between, report.quotes = some quotes ∧
          Leads (MarketQuotes.fetch desk e.params).run world (.ok quotes) between ∧
          Leads (Cancellation.run desk e.params quotes now e.book) between
            (report.cancellations, e'.book) next)
  /-- A fill is still hedged. -/
  hedges : ∀ ⦃fill outcome e' next⦄, Leads (e.onFill desk fill) world (outcome, e') next →
    Leads (Hedging.handle desk e.params fill e.book) world (outcome, e'.book) next

theorem halts_of_halted {world : σ × Record} (halted : e.halted = true) :
    Halts desk.recorded e world where
  quoteless _ _ _ _ led := halted_respondAll halted led
  pulls now report e' next led := by
    obtain ⟨-, ticked⟩ := onTick_ticked led
    generalize e'.book = last at ticked ⊢
    cases ticked with
    | skip fetched => exact ⟨rfl, .inl ⟨_, fetched⟩⟩
    | pull _ fetched checked => exact ⟨rfl, .inr ⟨_, _, rfl, fetched, checked⟩⟩
    | quote working => exact absurd (halted.symm.trans working) (by simp)
  hedges fill outcome e' next led := by
    obtain ⟨book, handled, counts⟩ := onFill_handled led
    rwa [(account_ok counts).2]

/-- Whatever the venues answer, the engine's count is that of the outcomes that it returned; it is
halted if it is to halt and a fill was left open, and from then on it places no quote. -/
theorem outcomes_counted {p : Parameters} {profit : Profit} {s : σ} {world : σ × Record}
    (ran : Leads (respondAll desk.recorded events { new p with profit }) (s, [])
      (answers, e) world) :
    Counted (outcomes answers) { new p with profit } e ∧
      (e.halted = true ↔ p.haltOnUnhedgedFill = true ∧ ∃ gap, .unhedged gap ∈ outcomes answers) ∧
      (e.halted = true → Halts desk.recorded e world) := by
  have counted := counted_respondAll ran
  refine ⟨counted, ?_, halts_of_halted⟩
  rw [counted.halted]
  simp [new]

/-- A strategy that halts. -/
def haltingConfig : Config :=
  { tenConfig with strategy := { tenConfig.strategy with haltOnUnhedgedFill := true } }

/-- The taker's venue takes one order and refuses the next. -/
def haltingVenues : FaultyVenue × FaultyVenue :=
  (.ofVenue (bookedVenue "okx" 0 (.of 10000 0) wideBook),
    (FaultyVenue.ofVenue (bookedVenue "binance" 0 (.of 10000 0) narrowBook)).plan .placeOrder 1 1
      (.unavailable (.other "closed")))

/-- Two parts of the bid are filled between two ticks. -/
def haltingEvents : List Event :=
  [.tick ⟨0⟩, .fill (bidFill (.of 996800 4) (.of 4 0)), .fill (bidFill (.of 996800 4) (.of 3 0)),
    .tick ⟨1⟩]

omit [Arithmetic] in
theorem outcomes_counted_refused : ∃ p answers e world, haltingConfig.parameters = .ok p ∧
    Leads (@respondAll _ .rounding
        (Desk.ofPair (@FaultyVenue.adapter .rounding) (@FaultyVenue.adapter .rounding)).recorded
        haltingEvents (new p))
      (haltingVenues, []) (answers, e) world ∧
    (profits (outcomes answers)).length = 1 ∧ e.profit.unhedgedCount = 1 ∧
    (profits (outcomes answers)).foldlM (@Decimal.add .rounding) 0 = .ok e.profit.total ∧
    @Halts _ .rounding
      (Desk.ofPair (@FaultyVenue.adapter .rounding) (@FaultyVenue.adapter .rounding)).recorded e
      world := by
  have works : haltingConfig.parameters.toOption.any (fun p =>
      ((@respondAll _ .rounding
        (Desk.ofPair (@FaultyVenue.adapter .rounding) (@FaultyVenue.adapter .rounding)).recorded
        haltingEvents (new p)).run (haltingVenues, [])).toOption.any fun ((answers, e), _) =>
          decide ((profits (outcomes answers)).length = 1 ∧ e.profit.unhedgedCount = 1 ∧
            e.halted = true)) = true := by
    decide +kernel
  obtain ⟨p, configured, works⟩ := Checked.toOption_any works
  obtain ⟨⟨⟨answers, e⟩, world⟩, ran, works⟩ := Checked.toOption_any works
  obtain ⟨hedged, unhedged, halted⟩ := of_decide_eq_true works
  obtain ⟨counted, -, halts⟩ := @outcomes_counted _ .rounding _ _ _ _ p .none _ _ ran
  exact ⟨p, answers, e, world, configured, ran, hedged, unhedged,
    @Counted.total .rounding _ _ _ counted, halts halted⟩

end Engine

end MarketMaker
