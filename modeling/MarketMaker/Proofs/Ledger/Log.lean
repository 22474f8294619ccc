import MarketMaker.Proofs.Instant.Text
import MarketMaker.Proofs.Ledger.Saving
/-!
The ledger as a log of what was recorded: its texts read back as the totals saved last, the hedges in
their order and the number of events of each name.
-/

namespace MarketMaker

/-! ### What is shown -/

/-- The entry shows what became of the fill. Numbers are equal as numbers, the time to the
nanosecond; only a hedge that leaves a residual has a reason. -/
def HedgeEntry.Shows (entry : HedgeEntry) : HedgeOutcome → Prop
  | .ignored => False
  | .hedged record =>
    entry.status = "hedged" ∧ entry.time = record.time ∧
      entry.fillOrderId = record.fillOrderId ∧ entry.fillSide = record.fillSide.text ∧
      entry.fillPrice.value = record.fillPrice.value ∧
      entry.fillAmount.value = record.fillAmount.value ∧
      entry.hedgeOrderId = some record.hedgeOrderId ∧
      entry.hedgePrice.map Decimal.value = some record.hedgePrice.value ∧
      entry.hedgeAmount.map Decimal.value = some record.hedgeAmount.value ∧
      entry.profit.value = record.profit.value ∧
      entry.reason = if 0 < record.unhedgedResidual.value then
        some ("unhedged residual " ++ record.unhedgedResidual.toText) else none
  | .unhedged gap =>
    entry.status = "unhedged" ∧ entry.time = gap.fill.time ∧
      entry.fillOrderId = gap.fill.orderId ∧ entry.fillSide = gap.fill.side.text ∧
      entry.fillPrice.value = gap.fill.price.value ∧
      entry.fillAmount.value = gap.fill.amount.value ∧
      entry.hedgeOrderId = none ∧ entry.hedgePrice = none ∧ entry.hedgeAmount = none ∧
      entry.profit.value = 0 ∧ entry.reason = some gap.reason.message

/-- The state that was saved, up to the sign of a zero. -/
def SavedState.Agrees (loaded state : SavedState) : Prop :=
  loaded.profit.total.value = state.profit.total.value ∧
    loaded.profit.hedgeCount = state.profit.hedgeCount ∧
    loaded.profit.unhedgedCount = state.profit.unhedgedCount ∧
    loaded.halted = state.halted ∧ loaded.lastSaved = state.lastSaved

namespace Ledger

inductive Request
  | save (state : SavedState)
  | tick (venue : String) (pair : Pair) (report : TickReport) (now : Instant)
  | outcome (handled : HedgeOutcome)

/-- What is recorded, and whether that failed. -/
def perform (ledger : Ledger) : Request → Except StoreError Unit × Ledger
  | .save state =>
    match ledger.save state with
    | .ok saved => (.ok (), saved)
    | .error e => (.error e, ledger)
  | .tick venue pair report now => (.ok (), ledger.recordTick venue pair report now)
  | .outcome handled => (.ok (), ledger.recordOutcome handled)

/-- The ledger after a log of requests. -/
def recorded (log : List Request) : Ledger :=
  log.foldl (fun ledger request => (ledger.perform request).2) .empty

namespace Request

/-- The state, if it could be saved. -/
def saved? : Request → Option SavedState
  | .save state => if state.Fits then some state else none
  | _ => none

/-- The outcome, if it is one that is recorded. -/
def outcome? : Request → Option HedgeOutcome
  | .outcome handled => if handled = .ignored then none else some handled
  | _ => none

def report? : Request → Option TickReport
  | .tick _ _ report _ => some report
  | _ => none

/-- Times have a year of four digits. -/
def Dated : Request → Prop
  | .save state => state.lastSaved.FourDigitYear
  | .tick _ _ _ now => now.FourDigitYear
  | .outcome (.hedged record) => record.time.FourDigitYear
  | .outcome (.unhedged gap) => gap.fill.time.FourDigitYear
  | .outcome .ignored => True

end Request

/-- How many placements and cancellations of a report are recorded under the name of an event. -/
def occurrences (event : String) (report : TickReport) : ℕ :=
  (if event = "placed" then report.placed else 0) +
    report.cancellations.countP fun outcome => eventName outcome = event

/-! ### Reading back -/

theorem readTime_toText {t : Instant} (year : t.FourDigitYear) (now : Instant) :
    readTime now t.toText = t := by
  rw [readTime, Instant.ofText_toText year]
  rfl

theorem value_readDecimal (a : Decimal) : (readDecimal a.toText).value = a.value := by
  rw [readDecimal_toText, Decimal.value_unsignedZero]

theorem shows_hedgedRow {record : HedgeRecord} (year : record.time.FourDigitYear) (now : Instant) :
    (entry now (hedgedRow record)).Shows (.hedged record) := by
  simp only [HedgeEntry.Shows, entry, hedgedRow, readTime_toText year, value_readDecimal,
    Option.map_some, Decimal.pos_iff_value, and_self]

theorem shows_unhedgedRow {gap : UnhedgedFill} (year : gap.fill.time.FourDigitYear) (now : Instant) :
    (entry now (unhedgedRow gap)).Shows (.unhedged gap) := by
  have zero : readDecimal "0" = 0 := by decide
  simp only [HedgeEntry.Shows, entry, unhedgedRow, readTime_toText year, value_readDecimal, zero,
    Decimal.value_zero, Option.map_none, and_self]

theorem countP_placements (event venue : String) (pair : Pair) (now : Instant)
    (placements : List (Side × Placement)) :
    (placements.filterMap (placementEvent? venue pair now)).countP (fun row => row.event == event) =
      if event = "placed" then placements.countP fun entry => entry.2.isPlaced else 0 := by
  induction placements with
  | nil => simp
  | cons entry placements ih =>
    obtain ⟨side, placement⟩ := entry
    cases placement with
    | placed id price amount =>
      rw [List.filterMap_cons, placementEvent?, List.countP_cons, ih, List.countP_cons]
      by_cases named : event = "placed"
      · simp [named, Placement.isPlaced]
      · simp [named, Ne.symm named]
    | _ => simpa [List.filterMap_cons, placementEvent?, Placement.isPlaced] using ih

theorem event_cancellationEvent (venue : String) (pair : Pair) (now : Instant)
    (outcome : CancelOutcome) :
    (cancellationEvent venue pair now outcome).event = eventName outcome := by
  cases outcome <;> rfl

/-- What a tick adds to the count of an event. -/
theorem eventCount_recordTick (ledger : Ledger) (venue : String) (pair : Pair) (report : TickReport)
    (now : Instant) (event : String) :
    (ledger.recordTick venue pair report now).eventCount event =
      ledger.eventCount event + occurrences event report := by
  have cancelled : (report.cancellations.map (cancellationEvent venue pair now)).countP
      (fun row => row.event == event) =
        report.cancellations.countP fun outcome => eventName outcome = event := by
    rw [List.countP_map]
    exact List.countP_congr fun outcome _ => by
      simp [event_cancellationEvent]
  rw [eventCount, recordTick, List.countP_append, List.countP_append, countP_placements, cancelled,
    Nat.add_assoc]
  rfl

theorem perform_save (ledger : Ledger) (state : SavedState) : ledger.perform (.save state) =
    if state.Fits then (.ok (), { ledger with totals := some state.row })
    else (.error .countTooLarge, ledger) := by
  rw [perform, save_eq]
  by_cases fits : state.Fits
  · rw [if_pos fits, if_pos fits]
  · rw [if_neg fits, if_neg fits]

/-! ### The log -/

section FilterMap

variable {α β : Type} {f : α → Option β} {xs : List α} {x : α}

theorem filterMap_concat_none (none : f x = none) : (xs ++ [x]).filterMap f = xs.filterMap f := by
  rw [List.filterMap_append, List.filterMap_cons_none none, List.filterMap_nil, List.append_nil]

theorem filterMap_concat_some {y : β} (some : f x = some y) :
    (xs ++ [x]).filterMap f = xs.filterMap f ++ [y] := by
  rw [List.filterMap_append, List.filterMap_cons_some some, List.filterMap_nil]

end FilterMap

/-- The ledger shows what was recorded in the log. -/
structure Keeps (ledger : Ledger) (log : List Request) : Prop where
  totals : ∀ now, Option.Rel SavedState.Agrees (ledger.load? now)
    (log.filterMap Request.saved?).getLast?
  hedges : List.Forall₂ (fun row outcome => ∀ now, (entry now row).Shows outcome) ledger.hedges
    (log.filterMap Request.outcome?)
  events : ∀ event, ledger.eventCount event =
    ((log.filterMap Request.report?).map (occurrences event)).sum

namespace Keeps

variable {ledger : Ledger} {log : List Request} {request : Request}

theorem totals_perform (kept : ledger.Keeps log) (dated : request.Dated) (now : Instant) :
    Option.Rel SavedState.Agrees ((ledger.perform request).2.load? now)
      ((log ++ [request]).filterMap Request.saved?).getLast? := by
  cases request with
  | save state =>
    rw [perform_save]
    by_cases fits : state.Fits
    · have saved : Request.saved? (.save state) = some state := if_pos fits
      rw [if_pos fits, filterMap_concat_some saved, List.getLast?_concat]
      simp only [load?, Option.map_some, SavedState.row, readTime_toText dated]
      exact .some ⟨value_readDecimal _, rfl, rfl, rfl, rfl⟩
    · have unsaved : Request.saved? (.save state) = none := if_neg fits
      rw [if_neg fits, filterMap_concat_none unsaved]
      exact kept.totals now
  | tick | outcome =>
    rw [filterMap_concat_none rfl]
    exact kept.totals now

theorem hedges_perform (kept : ledger.Keeps log) (dated : request.Dated) :
    List.Forall₂ (fun row outcome => ∀ now, (entry now row).Shows outcome)
      (ledger.perform request).2.hedges ((log ++ [request]).filterMap Request.outcome?) := by
  cases request with
  | save state =>
    rw [filterMap_concat_none rfl, perform_save]
    split <;> exact kept.hedges
  | tick =>
    rw [filterMap_concat_none rfl]
    exact kept.hedges
  | outcome handled =>
    change List.Forall₂ _ (ledger.hedges ++ (outcomeRow? handled).toList) _
    cases handled with
    | ignored =>
      rw [filterMap_concat_none rfl, outcomeRow?, Option.toList_none, List.append_nil]
      exact kept.hedges
    | hedged record =>
      have kind : Request.outcome? (.outcome (.hedged record)) = some (.hedged record) := rfl
      rw [filterMap_concat_some kind]
      exact List.rel_append kept.hedges (.cons (shows_hedgedRow dated) .nil)
    | unhedged gap =>
      have kind : Request.outcome? (.outcome (.unhedged gap)) = some (.unhedged gap) := rfl
      rw [filterMap_concat_some kind]
      exact List.rel_append kept.hedges (.cons (shows_unhedgedRow dated) .nil)

theorem events_perform (kept : ledger.Keeps log) (event : String) :
    (ledger.perform request).2.eventCount event =
      (((log ++ [request]).filterMap Request.report?).map (occurrences event)).sum := by
  cases request with
  | save state =>
    rw [filterMap_concat_none rfl, ← kept.events event, perform_save]
    split <;> rfl
  | tick venue pair report now =>
    have reported : Request.report? (.tick venue pair report now) = some report := rfl
    rw [filterMap_concat_some reported, List.map_append, List.sum_append, ← kept.events event,
      List.map_singleton, List.sum_singleton]
    exact eventCount_recordTick ledger venue pair report now event
  | outcome =>
    rw [filterMap_concat_none rfl, ← kept.events event]
    rfl

/-- A request adds itself to the log. -/
theorem perform (kept : ledger.Keeps log) (dated : request.Dated) :
    (ledger.perform request).2.Keeps (log ++ [request]) :=
  ⟨kept.totals_perform dated, kept.hedges_perform dated, kept.events_perform⟩

end Keeps

theorem recorded_concat (log : List Request) (request : Request) :
    recorded (log ++ [request]) = ((recorded log).perform request).2 := by
  rw [recorded, List.foldl_append]
  rfl

theorem keeps_recorded {log : List Request} (dated : ∀ request ∈ log, request.Dated) :
    (recorded log).Keeps log := by
  induction log using List.reverseRecOn with
  | nil => exact ⟨fun _ => .none, .nil, fun _ => rfl⟩
  | append_singleton log request ih =>
    obtain ⟨earlier, last⟩ := List.forall_mem_append.1 dated
    rw [recorded_concat]
    exact (ih earlier).perform (last request List.mem_cons_self)

/-- The ledger is a log. A state is saved if its counts fit, and else nothing changes; the last one that
was saved is loaded; the last hedges are shown, newest first; and events are counted by their names. -/
theorem shows_log {log : List Request} (dated : ∀ request ∈ log, request.Dated) :
    (∀ state : SavedState, (state.Fits → ((recorded log).perform (.save state)).1 = .ok ()) ∧
      (¬ state.Fits → (recorded log).perform (.save state) = (.error .countTooLarge, recorded log))) ∧
    (∀ now, Option.Rel SavedState.Agrees ((recorded log).load? now)
      (log.filterMap Request.saved?).getLast?) ∧
    (∀ n < 2 ^ 63, ∀ now, ∃ entries, (recorded log).recentHedges n now = .ok entries ∧
      List.Forall₂ HedgeEntry.Shows entries ((log.filterMap Request.outcome?).reverse.take n)) ∧
    ∀ event, (recorded log).eventCount event =
      ((log.filterMap Request.report?).map (occurrences event)).sum := by
  obtain ⟨totals, hedges, events⟩ := keeps_recorded dated
  refine ⟨fun state => ⟨fun fits => ?_, fun unfit => ?_⟩, totals, fun n small now => ?_, events⟩
  · rw [perform_save, if_pos fits]
  · rw [perform_save, if_neg unfit]
  · refine ⟨_, if_pos (fits_iff.2 small), ?_⟩
    rw [List.forall₂_map_left_iff]
    exact (List.forall₂_take n (List.forall₂_reverse_iff.2 hedges)).imp fun _ _ shown => shown now

/-- A nanosecond into the last second of a leap day. -/
def leapDay : Instant := ⟨1709251199000000001⟩

def mixedState : SavedState := ⟨⟨-0, 3, 1⟩, true, leapDay⟩

def mixedHedge : HedgeRecord :=
  ⟨"bid-1", .buy, .of 10 2, .of 7 0, "hedge-1", .sell, .of 11 2, .of 5 0, .of 5 2, 0, .of 2 0, leapDay⟩

def mixedGap : UnhedgedFill :=
  ⟨⟨"ask-1", ⟨"DOGE", "USDT"⟩, .sell, .of 12 2, .of 1 0, leapDay⟩, .zeroAmount, 0⟩

def mixedReport : TickReport :=
  ⟨none, none, [(.buy, .placed "bid-1" (.of 10 2) (.of 7 0)), (.sell, .positionLimit)],
    [.released "ask-1" .sell]⟩

def mixedLog : List Request :=
  [.save mixedState, .tick "okx" ⟨"DOGE", "USDT"⟩ mixedReport leapDay, .outcome (.hedged mixedHedge),
    .save { mixedState with profit := ⟨.of 1 0, 9223372036854775808, 0⟩ }, .outcome .ignored,
    .outcome (.unhedged mixedGap)]

/-- A zero that was saved with its sign, a state that could not be saved after it, a hedge that left a
residual, and a fill that stayed open. -/
theorem shows_log_mixed : ∃ (log : List Request) (state : SavedState) (record : HedgeRecord)
    (gap : UnhedgedFill), (∀ request ∈ log, request.Dated) ∧ log.length = 6 ∧
      state.profit.total.negative = true ∧
      (∀ now, ∃ loaded, (recorded log).load? now = some loaded ∧ loaded.Agrees state) ∧
      (∀ now, ∃ last first, (recorded log).recentHedges 2 now = .ok [last, first] ∧
        last.Shows (.unhedged gap) ∧ first.Shows (.hedged record) ∧
          first.reason = some "unhedged residual 2") ∧
      (recorded log).eventCount "placed" = 1 ∧ (recorded log).eventCount "released" = 1 := by
  have year : leapDay.FourDigitYear := by decide +kernel
  have dated : ∀ request ∈ mixedLog, request.Dated := by
    simp [mixedLog, Request.Dated, mixedState, mixedHedge, mixedGap, year]
  have saved : mixedLog.filterMap Request.saved? = [mixedState] := by decide +kernel
  have outcomes : mixedLog.filterMap Request.outcome? = [.hedged mixedHedge, .unhedged mixedGap] := by
    decide +kernel
  obtain ⟨-, totals, hedges, events⟩ := shows_log dated
  refine ⟨mixedLog, mixedState, mixedHedge, mixedGap, dated, rfl, rfl, fun now => ?_, fun now => ?_, ?_,
    ?_⟩
  · have loaded := totals now
    rw [saved] at loaded
    change Option.Rel SavedState.Agrees _ (some mixedState) at loaded
    cases found : (recorded mixedLog).load? now with
    | none => rw [found] at loaded; cases loaded
    | some saved =>
      rw [found] at loaded
      cases loaded with
      | some agrees => exact ⟨saved, rfl, agrees⟩
  · obtain ⟨entries, done, shown⟩ := hedges 2 (by decide) now
    rw [outcomes] at shown
    change List.Forall₂ HedgeEntry.Shows entries [.unhedged mixedGap, .hedged mixedHedge] at shown
    obtain - | ⟨last, - | ⟨first, - | _⟩⟩ := shown
    have residual : 0 < mixedHedge.unhedgedResidual.value := Decimal.pos_iff_value.1 (by decide)
    have reason := first.2.2.2.2.2.2.2.2.2.2
    rw [if_pos residual] at reason
    exact ⟨_, _, done, last, first, reason.trans (by decide +kernel)⟩
  · exact (events "placed").trans (by decide +kernel)
  · exact (events "released").trans (by decide +kernel)

end Ledger

end MarketMaker
