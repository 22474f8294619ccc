import Mathlib.Data.List.DropRight
import MarketMaker.Decimal.Arithmetic
import MarketMaker.PaperMarket
import MarketMaker.Proofs.Steps
/-!
The mid prices that are made up for paper trading. The history is a window on the taker's mid prices: it
shows all of them while they are few, and the last ones later. So the maker repeats the taker, and until
its lag is over the taker's first mid price.
-/

namespace MarketMaker

namespace PaperMarket

/-- What a window shows next depends on the past only through what it shows now. -/
theorem rtake_slides {α : Type} (values : List α) (value : α) (width : ℕ) :
    (values.rtake width ++ [value]).rtake width = (values ++ [value]).rtake width := by
  cases width with
  | zero => rw [List.rtake_zero, List.rtake_zero]
  | succ width =>
    have narrower : (values.rtake (width + 1)).rtake width = values.rtake width := by
      simp only [List.rtake_eq_reverse_take_reverse, List.reverse_reverse, List.take_take]
      rw [Nat.min_eq_left (Nat.le_succ width)]
    rw [List.rtake_concat_succ, List.rtake_concat_succ, narrower]

variable {m next : PaperMarket} {mids : PaperMids} {ticks : List PaperMids} {lag n : ℕ}

/-- The ticks that the market went through, its maker so many ticks behind its taker. -/
structure Replays (m : PaperMarket) (lag : ℕ) (ticks : List PaperMids) : Prop where
  window : m.window = lag + 1
  history : m.history = (ticks.map PaperMids.taker).rtake (lag + 1)
  maker : ∀ i (inside : i < ticks.length), ticks[i].maker = ticks[i - min i lag].taker

theorem Replays.length_history (replays : m.Replays lag ticks) : m.history.length ≤ lag + 1 := by
  rw [replays.history, List.rtake, List.length_drop]
  omega

theorem replays_new {config : PaperConfig} {maker taker : Market}
    (fits : config.makerLagTicks.toNat < 2 ^ 64 - 1) :
    (new config maker taker).Replays config.makerLagTicks.toNat [] where
  window := by
    change (config.makerLagTicks + 1).toNat = _
    rw [UInt64.toNat_add, UInt64.toNat_one]
    exact Nat.mod_eq_of_lt (by omega)
  history := (List.rtake_nil _).symm
  maker := fun i inside => absurd inside (Nat.not_lt_zero i)

section Ticks

variable [Arithmetic]

/-- The mid prices of the first `n` ticks, and the market after them. -/
def run (m : PaperMarket) : ℕ → Checked (List PaperMids × PaperMarket)
  | 0 => .ok ([], m)
  | n + 1 => do
    let (ticks, m) ← m.run n
    let (mids, m) ← m.nextMids
    return (ticks ++ [mids], m)

theorem nextMids_config (done : m.nextMids = .ok (mids, next)) : next.config = m.config := by
  simp only [nextMids, Checked.bind_ok, Checked.pure_ok, Prod.mk.injEq] at done
  obtain ⟨mid, -, -, rfl⟩ := done
  rfl

/-- The taker's mid price enters the window, and the maker's is the oldest there. -/
theorem nextMids_history (done : m.nextMids = .ok (mids, next)) :
    next.history = (m.history ++ [mids.taker]).rtake m.window ∧
      mids.maker = next.history.headD mids.taker := by
  simp only [nextMids, Checked.bind_ok, Checked.pure_ok, Prod.mk.injEq] at done
  obtain ⟨mid, -, rfl, rfl⟩ := done
  exact ⟨rfl, rfl⟩

namespace Replays

theorem next_history (replays : m.Replays lag ticks) (done : m.nextMids = .ok (mids, next)) :
    next.history = ((ticks ++ [mids]).map PaperMids.taker).rtake (lag + 1) := by
  rw [(nextMids_history done).1, replays.window, replays.history, rtake_slides, List.map_append,
    List.map_singleton]

theorem next_maker (replays : m.Replays lag ticks) (done : m.nextMids = .ok (mids, next))
    (inside : ticks.length - min ticks.length lag < (ticks ++ [mids]).length) :
    mids.maker = (ticks ++ [mids])[ticks.length - min ticks.length lag].taker := by
  have oldest : ((ticks ++ [mids]).map PaperMids.taker).length - (lag + 1) =
      ticks.length - min ticks.length lag := by
    rw [List.length_map, List.length_append, List.length_singleton]
    omega
  rw [(nextMids_history done).2, replays.next_history done, List.headD_eq_head?_getD, List.rtake,
    List.head?_drop, oldest, List.getElem?_map, List.getElem?_eq_getElem inside]
  rfl

theorem tick (replays : m.Replays lag ticks) (done : m.nextMids = .ok (mids, next)) :
    next.Replays lag (ticks ++ [mids]) where
  window := by
    rw [PaperMarket.window, nextMids_config done]
    exact replays.window
  history := replays.next_history done
  maker := by
    intro i inside
    rcases Nat.lt_or_ge i ticks.length with earlier | last
    · rw [List.getElem_append_left earlier, List.getElem_append_left (by omega)]
      exact replays.maker i earlier
    · have same : i = ticks.length := by
        rw [List.length_append, List.length_singleton] at inside
        omega
      subst same
      rw [List.getElem_concat_length rfl]
      exact replays.next_maker done _

theorem run (start : m.Replays lag []) (ran : m.run n = .ok (ticks, next)) :
    ticks.length = n ∧ next.Replays lag ticks := by
  induction n generalizing ticks next with
  | zero =>
    cases ran
    exact ⟨rfl, start⟩
  | succ n ih =>
    simp only [PaperMarket.run, Checked.bind_ok, Checked.pure_ok, Prod.exists, Prod.mk.injEq] at ran
    obtain ⟨earlier, before, ran, mids, _, done, rfl, rfl⟩ := ran
    obtain ⟨length, replays⟩ := ih ran
    exact ⟨by rw [List.length_append, length, List.length_singleton], replays.tick done⟩

end Replays

/-- In every tick that completes the maker's mid price is the taker's of as many ticks before as it lags,
or of the first tick. No more mid prices than that and one are kept. -/
theorem maker_replays {config : PaperConfig} {maker taker : Market}
    (fits : config.makerLagTicks.toNat < 2 ^ 64 - 1)
    (ran : (new config maker taker).run n = .ok (ticks, next)) :
    ticks.length = n ∧
      (∀ i (inside : i < ticks.length),
        ticks[i].maker = ticks[i - min i config.makerLagTicks.toNat].taker) ∧
      next.history.length ≤ config.makerLagTicks.toNat + 1 := by
  obtain ⟨length, replays⟩ := (replays_new fits).run ran
  exact ⟨length, replays.maker, replays.length_history⟩

end Ticks

/-- The taker turns every three ticks, and the maker is two ticks behind. -/
def sawtooth : PaperConfig :=
  { startMid := .of 100 0, driftBps := .of 10 0, swingTicks := 3, makerLagTicks := 2 }

/-- The taker comes back to no mid price that it had, so the maker's tells how far it is behind. -/
theorem maker_replays_sawtooth :
    sawtooth.makerLagTicks.toNat < 2 ^ 64 - 1 ∧ ∃ ticks next,
      @run .rounding (new sawtooth ⟨"okx", ⟨"DOGE", "USDT"⟩, 0, 0⟩ ⟨"binance", ⟨"DOGE", "USDT"⟩, 0, 0⟩)
        8 = .ok (ticks, next) ∧ (ticks.map PaperMids.taker).Nodup ∧ ticks.length = 8 ∧
      (∀ i (inside : i < ticks.length), ticks[i].maker = ticks[i - min i 2].taker) ∧
      next.history.length ≤ 3 := by
  let _ : Arithmetic := .rounding
  have fits : sawtooth.makerLagTicks.toNat < 2 ^ 64 - 1 := by decide
  have works : (@run .rounding (new sawtooth ⟨"okx", ⟨"DOGE", "USDT"⟩, 0, 0⟩
      ⟨"binance", ⟨"DOGE", "USDT"⟩, 0, 0⟩) 8).toOption.any
        (fun out => decide (out.1.map PaperMids.taker).Nodup) = true := by
    decide +kernel
  obtain ⟨⟨ticks, next⟩, ran, apart⟩ := Checked.toOption_any works
  exact ⟨fits, ticks, next, ran, of_decide_eq_true apart, maker_replays fits ran⟩

end PaperMarket

end MarketMaker
