import MarketMaker.Proofs.Engine.Handlers
import MarketMaker.Proofs.Ledger.Saving
import MarketMaker.Proofs.Session.Routing
/-!
The totals of all sessions. The engine counts fills and adds up profits, the ledger keeps the last
totals that were saved and a row for each fill, and the next session resumes from the ledger. Between
two calls the three agree.
-/

namespace MarketMaker

namespace Ledger

/-- The totals that were saved last, zeros if none were. -/
def resumed (ledger : Ledger) (now : Instant) : Profit :=
  ((ledger.load? now).map SavedState.profit).getD .none

/-- How many rows of the hedge history have this status. -/
def hedgeRows (ledger : Ledger) (status : String) : ℕ :=
  ledger.hedges.countP fun row => row.status == status

/-- The profits of the hedges, in the order in which they were recorded. -/
def profits (ledger : Ledger) : List Decimal :=
  (ledger.hedges.filter fun row => row.status == "hedged").map fun row => readDecimal row.profit

/-- The history tells of as many hedges and gaps as were counted, and its profits add up to the total. -/
structure Tells [Arithmetic] (ledger : Ledger) (tally : Profit) : Prop where
  hedged : tally.hedgeCount.toNat = ledger.hedgeRows "hedged"
  unhedged : tally.unhedgedCount.toNat = ledger.hedgeRows "unhedged"
  total : ∃ sum, ledger.profits.foldlM Decimal.add 0 = .ok sum ∧
    sum.unsignedZero = tally.total.unsignedZero

/-- The history and the saved totals agree with the count of the engine. -/
structure Agrees [Arithmetic] (ledger : Ledger) (tally : Profit) : Prop extends Tells ledger tally where
  saved : ∀ now, ledger.resumed now = tally.restored
  hedgedFits : tally.hedgeCount.toNat < 2 ^ 63
  unhedgedFits : tally.unhedgedCount.toNat < 2 ^ 63

variable {ledger ledger' : Ledger} {tally tally' : Profit}

/-! ### Saving and resuming -/

theorem resumed_save {state : SavedState} (done : ledger.save state = .ok ledger') (now : Instant) :
    ledger'.resumed now = state.profit.restored := by
  rw [resumed, load_save done]
  rfl

variable [Arithmetic]

theorem Tells.of_hedges (tells : ledger.Tells tally) (same : ledger'.hedges = ledger.hedges) :
    ledger'.Tells tally := by
  obtain ⟨hedged, unhedged, sum⟩ := tells
  refine ⟨?_, ?_, ?_⟩
  · rw [hedged, hedgeRows, hedgeRows, same]
  · rw [unhedged, hedgeRows, hedgeRows, same]
  · rwa [profits, same]

theorem Tells.save {state : SavedState} (tells : ledger.Tells state.profit)
    (done : ledger.save state = .ok ledger') : ledger'.Agrees state.profit := by
  obtain ⟨⟨hedgedFits, unhedgedFits⟩, updated⟩ := save_ok done
  have same : ledger'.hedges = ledger.hedges := by rw [updated]
  exact ⟨tells.of_hedges same, resumed_save done, hedgedFits, unhedgedFits⟩

theorem agrees_empty : empty.Agrees .none where
  hedged := rfl
  unhedged := rfl
  total := ⟨0, rfl, rfl⟩
  saved _ := rfl
  hedgedFits := by decide
  unhedgedFits := by decide

/-- A session that resumes starts with what the ledger agrees with. -/
theorem Agrees.resumed (agrees : ledger.Agrees tally) (now : Instant) :
    ledger.Agrees (ledger.resumed now) := by
  rw [agrees.saved now]
  obtain ⟨sum, added, same⟩ := agrees.total
  exact
    { hedged := agrees.hedged
      unhedged := agrees.unhedged
      total := ⟨sum, added, same.trans (Decimal.unsignedZero_unsignedZero _).symm⟩
      saved := fun now => (agrees.saved now).trans tally.restored_restored.symm
      hedgedFits := agrees.hedgedFits
      unhedgedFits := agrees.unhedgedFits }

/-- The events of quotes leave the totals and the history alone. -/
theorem Agrees.recordTick {venue : String} {pair : Pair} {report : TickReport} {now : Instant}
    (agrees : ledger.Agrees tally) : (ledger.recordTick venue pair report now).Agrees tally where
  toTells := agrees.toTells.of_hedges rfl
  saved := agrees.saved
  hedgedFits := agrees.hedgedFits
  unhedgedFits := agrees.unhedgedFits

/-! ### Fills -/

omit [Arithmetic] in
theorem hedgeRows_recordOutcome (outcome : HedgeOutcome) (status : String) :
    (ledger.recordOutcome outcome).hedgeRows status =
      ledger.hedgeRows status + (outcomeRow? outcome).toList.countP fun row => row.status == status := by
  rw [hedgeRows, recordOutcome, List.countP_append]
  rfl

omit [Arithmetic] in
/-- A count below its bound goes up by one. -/
theorem toNat_succ {n : UInt64} (fits : n.toNat < 2 ^ 63) : (n + 1).toNat = n.toNat + 1 := by
  rw [UInt64.toNat_add, UInt64.toNat_one, Nat.mod_eq_of_lt (by omega)]

theorem Agrees.hedge (blind : Arithmetic.IgnoresSignedZeros) {record : HedgeRecord}
    (agrees : ledger.Agrees tally) (done : tally.recordHedge record.profit = .ok tally') :
    (ledger.recordOutcome (.hedged record)).Tells tally' := by
  simp only [Profit.recordHedge, Checked.bind_ok, Checked.pure_ok] at done
  obtain ⟨total, added, rfl⟩ := done
  obtain ⟨sum, summed, same⟩ := agrees.total
  obtain ⟨sum', added', same'⟩ := blind added sum record.profit.unsignedZero same
    (Decimal.unsignedZero_unsignedZero _)
  refine ⟨?_, ?_, sum', ?_, same'⟩
  · rw [hedgeRows_recordOutcome, ← agrees.hedged]
    exact toNat_succ agrees.hedgedFits
  · rw [hedgeRows_recordOutcome, ← agrees.unhedged]
    rfl
  · have profits : (ledger.recordOutcome (.hedged record)).profits =
        ledger.profits ++ [record.profit.unsignedZero] := by
      rw [profits, recordOutcome, List.filter_append, List.map_append]
      change _ ++ [readDecimal record.profit.toText] = _
      rw [readDecimal_toText]
      rfl
    rw [profits, List.foldlM_append, Checked.bind_ok]
    refine ⟨sum, summed, ?_⟩
    rw [List.foldlM_cons, added']
    rfl

theorem Agrees.gap (agrees : ledger.Agrees tally) (gap : UnhedgedFill) :
    (ledger.recordOutcome (.unhedged gap)).Tells tally.recordUnhedged := by
  refine ⟨?_, ?_, ?_⟩
  · rw [hedgeRows_recordOutcome]
    exact agrees.hedged
  · rw [hedgeRows_recordOutcome, ← agrees.unhedged]
    exact toNat_succ agrees.unhedgedFits
  · have profits : (ledger.recordOutcome (.unhedged gap)).profits = ledger.profits := by
      rw [profits, recordOutcome, List.filter_append, List.map_append]
      exact List.append_nil _
    rw [profits]
    exact agrees.total

end Ledger

namespace Session

open Act

/-- Sessions one after the other, the first on an empty ledger: each takes up the ledger of the one
before, which was shut down or given up between two calls, and all calls succeed. -/
inductive Kept [Arithmetic] : Session → Prop
  | first {s : Session} {config : Config} {archive : Option Archive} {now : Instant}
      (started : start config .empty archive now = .ok s) : Kept s
  | restart {s t : Session} {config : Config} {archive : Option Archive} {now : Instant}
      (kept : Kept s) (started : start config s.ledger archive now = .ok t) : Kept t
  | tick {s t : Session} {now : Instant} {report : TickReport} (kept : Kept s)
      (led : Leads (Session.tick now).run s (.ok report) t) : Kept t
  | handle {s t : Session} {fill : Fill} {outcome : HedgeOutcome} (kept : Kept s)
      (led : Leads (Session.handle fill).run s (.ok outcome) t) : Kept t
  | drain {s t : Session} {n : ℕ} (kept : Kept s)
      (led : Leads Session.drain.run s (.ok n) t) : Kept t
  | shutdown {s t : Session} {now : Instant} (kept : Kept s)
      (led : Leads (Session.shutdown now).run s (.ok ()) t) : Kept t

/-- The ledger agrees with the engine. -/
def Agrees [Arithmetic] (s : Session) : Prop :=
  s.ledger.Agrees s.engine.profit

section Calls

variable [Arithmetic] {s t : Session} {now : Instant} {fill : Fill} {most n : ℕ}

omit [Arithmetic] in
theorem start_resumed {config : Config} {ledger : Ledger} {archive : Option Archive}
    (started : start config ledger archive now = .ok s) :
    s.ledger = ledger ∧ s.engine.profit = ledger.resumed now := by
  simp only [start, Checked.bind_ok, Checked.pure_ok] at started
  obtain ⟨p, -, rfl⟩ := started
  exact ⟨rfl, rfl⟩

theorem Agrees.handle (blind : Arithmetic.IgnoresSignedZeros) (agrees : s.Agrees)
    {outcome : HedgeOutcome} (led : Leads (handle fill).run s (.ok outcome) t) : t.Agrees := by
  obtain ⟨engine, venues, hedged, echoes, recorded⟩ := leads_handle led
  obtain ⟨book, -, counted⟩ := Engine.onFill_handled hedged
  rw [Agrees, show t.engine = engine from echoes.engine]
  rcases recorded with ⟨rfl, same⟩ | ⟨known, saved⟩
  · obtain rfl := Except.ok.inj counted
    rwa [same]
  match outcome with
  | .ignored => exact absurd rfl known
  | .hedged record =>
    simp only [Engine.account, Checked.bind_ok, Checked.pure_ok] at counted
    obtain ⟨tally, added, rfl⟩ := counted
    exact (Ledger.Agrees.hedge blind agrees added).save saved
  | .unhedged gap =>
    obtain rfl := Except.ok.inj counted
    exact (Ledger.Agrees.gap agrees gap).save saved

theorem Agrees.handleQueued (blind : Arithmetic.IgnoresSignedZeros) (agrees : s.Agrees)
    (led : Leads (handleQueued most).run s (.ok n) t) : t.Agrees := by
  induction most generalizing s n with
  | zero =>
    obtain ⟨-, rfl⟩ := leads_run_pure.1 led
    exact agrees
  | succ most ih =>
    rcases leads_handleQueued_succ led with
      ⟨-, -, rfl⟩ | ⟨fill, queue, outcome, u, m, -, handles, later, -⟩
    · exact agrees
    · exact ih (Agrees.handle blind (s := { s with queue }) agrees handles) later

theorem Agrees.drain (blind : Arithmetic.IgnoresSignedZeros) (agrees : s.Agrees)
    (led : Leads drain.run s (.ok n) t) : t.Agrees :=
  agrees.handleQueued blind (leads_drain.1 led)

theorem Agrees.tick (blind : Arithmetic.IgnoresSignedZeros) (agrees : s.Agrees)
    {report : TickReport} (led : Leads (tick now).run s (.ok report) t) : t.Agrees := by
  obtain ⟨u, v, n, engine, venues, advanced, drains, ticks, echoes, ledger, recorded, saved⟩ :=
    leads_tick led
  obtain ⟨_, market, moved, -, rfl⟩ := leads_advance advanced
  have between : v.Agrees := Agrees.drain blind (s := { s with market, venues := moved }.collect)
    agrees drains
  have agrees' : ledger.Agrees engine.profit := by
    rw [(Engine.onTick_ticked ticks).1, recorded]
    exact Ledger.Agrees.recordTick between
  rw [Agrees, show t.engine = engine from echoes.engine]
  rcases saved with same | saved
  · rwa [same]
  · exact agrees'.toTells.save saved

theorem Agrees.shutdown (blind : Arithmetic.IgnoresSignedZeros) (agrees : s.Agrees)
    (led : Leads (shutdown now).run s (.ok ()) t) : t.Agrees := by
  obtain ⟨n, u, m, v, w, drains, pulls, drains', echoes, saved, -⟩ := leads_shutdown led
  obtain ⟨k, engine, venues, -, stopped, rfl⟩ := leads_pull pulls
  have pulled : (u.resume engine venues).Agrees := by
    change u.ledger.Agrees engine.profit
    rw [Engine.onStop_keeps stopped]
    exact agrees.drain blind drains
  have last := pulled.drain blind drains'
  rw [Agrees, echoes.engine]
  exact Ledger.Tells.save last.toTells saved

theorem Kept.agrees (blind : Arithmetic.IgnoresSignedZeros) (kept : Kept s) : s.Agrees := by
  induction kept with
  | first started =>
    obtain ⟨ledger, profit⟩ := start_resumed started
    rw [Agrees, ledger, profit]
    exact Ledger.agrees_empty.resumed _
  | restart _ started agrees =>
    obtain ⟨ledger, profit⟩ := start_resumed started
    rw [Agrees, ledger, profit]
    exact Ledger.Agrees.resumed agrees _
  | tick _ led agrees => exact agrees.tick blind led
  | handle _ led agrees => exact agrees.handle blind led
  | drain _ led agrees => exact agrees.drain blind led
  | shutdown _ led agrees => exact agrees.shutdown blind led

theorem Kept.exists_tick {holds : Session → Bool} (kept : Kept s)
    (found : s.ticksTo now holds = true) : ∃ t, Kept t ∧ holds t = true := by
  obtain ⟨⟨r, t⟩, led, found⟩ := Checked.toOption_any found
  obtain ⟨report, rfl, found⟩ := Checked.toOption_any found
  exact ⟨t, kept.tick led, (Bool.and_eq_true_iff.1 found).2⟩

end Calls

/-- The totals saved last, the history and the count of the engine agree after every call, also in
sessions that resume. -/
theorem totals_agree {s : Session} (kept : @Kept .rounding s) : @Agrees .rounding s :=
  @Kept.agrees .rounding s Arithmetic.rounding_ignoresSignedZeros kept

/-- An ask is filled and hedged in each of two sessions. -/
theorem totals_agree_resumed : ∃ s, @Kept .rounding s ∧ s.engine.profit.hedgeCount = 2 ∧
    s.engine.profit.total < 0 ∧ @Agrees .rounding s := by
  have works : (start risingConfig .empty none ⟨0⟩).toOption.any
      (@ticksTo .rounding ⟨0⟩ (@ticksTo .rounding ⟨0⟩ fun s =>
        (start risingConfig s.ledger none ⟨1⟩).toOption.any
          (@ticksTo .rounding ⟨1⟩ (@ticksTo .rounding ⟨1⟩ fun t => decide
            (t.engine.profit.hedgeCount = 2 ∧ t.engine.profit.total < 0))))) = true := by
    decide +kernel
  obtain ⟨_, started, works⟩ := Checked.toOption_any works
  obtain ⟨_, kept, works⟩ := @Kept.exists_tick .rounding _ _ _ (@Kept.first .rounding _ _ _ _ started) works
  obtain ⟨_, kept, works⟩ := @Kept.exists_tick .rounding _ _ _ kept works
  obtain ⟨_, started, works⟩ := Checked.toOption_any works
  obtain ⟨_, kept, works⟩ :=
    @Kept.exists_tick .rounding _ _ _ (@Kept.restart .rounding _ _ _ _ _ kept started) works
  obtain ⟨s, kept, works⟩ := @Kept.exists_tick .rounding _ _ _ kept works
  obtain ⟨hedges, total⟩ := of_decide_eq_true works
  exact ⟨s, kept, hedges, total, totals_agree kept⟩

end Session

end MarketMaker
