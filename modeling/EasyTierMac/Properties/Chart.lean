import Mathlib.Algebra.Order.Field.Rat
import EasyTierMac.App.Chart

/-!
# The chart shows the last rates

The app keeps at most 180 samples, two totals and a time. `chart_window` says what they amount
to in any run: the samples are the last 180 rates between neighbouring readings of the run,
where a connection that ends or a new polling task leaves a gap, so no sample spans two
connections. Rates are never negative, and as long as the clock does not go back the samples
are in order, no two at one time. The peer list is in order in every state.
-/

namespace EasyTierMac.App

open Transition (System)

/-- What the handler of an event adds to the history. -/
def historyAfter (s : Main) (h : History) : BridgeEvent → History
  | .coreExited _ _ =>
    if s.heap.connectionState = .connected ∧ s.heap.runningToml.isSome then h ++ [none] else h
  | .kicked => []
  | _ => h

/-- What a step adds to the history. -/
def noteReading (s : State) (a : Action) (h : History) : History :=
  match a with
  | .run id _ now => ((s.main.code? id).map fun c => readingsAfter s.main id now c h).getD h
  | .handle => (s.events.head?.map (historyAfter s.main h)).getD h
  | _ => h

/-- The app with the history of its readings. -/
def charting (d : Defaults) : System (State × History) Action := (app d).recording [] noteReading

/-- The clock has not gone back between two readings. -/
def History.Forward (h : History) : Prop :=
  h.Pairwise fun o o' => ∀ r ∈ o, ∀ r' ∈ o', r.time ≤ r'.time

theorem rate_nonneg {o o' : Option Reading} {x : RateSample} (h : rateOf o o' = some x) :
    0 ≤ x.rx ∧ 0 ≤ x.tx := by
  unfold rateOf at h
  obtain ⟨r, -, h⟩ := Option.bind_eq_some_iff.mp h
  obtain ⟨r', -, h⟩ := Option.bind_eq_some_iff.mp h
  unfold Reading.rate at h
  split at h
  · next hlt =>
    cases h
    have hpos : 0 ≤ r'.time - r.time := by
      have := sub_pos.mpr hlt
      exact this.le
    exact ⟨div_nonneg (le_max_left _ _) hpos, div_nonneg (le_max_left _ _) hpos⟩
  · cases h

/-- A sample has the time of the later reading. -/
theorem rate_time {o o' : Option Reading} {x : RateSample} (h : rateOf o o' = some x) :
    ∃ r r', o = some r ∧ o' = some r' ∧ x.time = r'.time ∧ r.time < r'.time := by
  unfold rateOf at h
  obtain ⟨r, hr, h⟩ := Option.bind_eq_some_iff.mp h
  obtain ⟨r', hr', h⟩ := Option.bind_eq_some_iff.mp h
  unfold Reading.rate at h
  split at h
  · next hlt =>
    cases h
    exact ⟨r, r', hr, hr', rfl, hlt⟩
  · cases h

theorem rates_pairwise {h : History} (hf : h.Forward) :
    h.rates.Pairwise fun x y => x.time < y.time := by
  refine pairwise_between (fun a b c d x y hx hy hbc => ?_) hf
  obtain ⟨-, r, -, rfl, hxt, -⟩ := rate_time hx
  obtain ⟨r', r'', rfl, -, hyt, hlt⟩ := rate_time hy
  rw [hxt, hyt]
  -- the second rate starts where the first one ends, or later
  have hle : r.time ≤ r'.time := by
    rcases hbc with he | hle
    · rw [Option.some.inj he]
    · exact hle r rfl r' rfl
  exact lt_of_le_of_lt hle hlt

/-! ## Runs -/

/-- The death of a core leaves a gap, if it was shown as connected. -/
theorem charts_coreExit {s : Main} {h : History} (hc : Charts s.heap h) :
    Charts (handleCoreExit s).heap
      (if s.heap.connectionState = .connected ∧ s.heap.runningToml.isSome then h ++ [none]
       else h) := by
  by_cases hshown : s.heap.connectionState = .connected ∧ s.heap.runningToml.isSome
  · rw [if_pos hshown]
    obtain ⟨hst, htoml⟩ := hshown
    obtain ⟨toml, htoml⟩ := Option.isSome_iff_exists.mp htoml
    simp only [handleCoreExit, hst, htoml]
    split
    · exact hc.gap rfl rfl (.inr rfl)
    · exact hc.gap rfl rfl (.inr rfl)
  · rw [if_neg hshown]
    unfold handleCoreExit
    split
    · next toml hst htoml =>
      refine absurd ⟨hst, ?_⟩ hshown
      rw [htoml]
      rfl
    · exact hc

theorem charts_handle {s : Main} {h : History} (hc : Charts s.heap h) (ev : BridgeEvent) :
    Charts (handle s ev).heap (historyAfter s h ev) := by
  cases ev with
  | connected version core port =>
    simp only [handle, startupRestoreIfNeeded]
    split
    · exact hc
    · split
      · exact hc.same rfl rfl rfl
      · exact hc.same rfl rfl rfl
  | coreExited code signal => exact charts_coreExit hc
  | kicked => exact Charts.clear rfl rfl rfl
  | error code message =>
    simp only [handle]
    exact hc.same rfl rfl rfl
  | disconnected | coreStarted pid port | coreStopped reason | busy owner | unknown type
  | malformed json => exact hc

theorem charts_step {s s' : State} {a : Action} {h : History} (hc : Charts s.main.heap h)
    (hs : step s a = some s') : Charts s'.main.heap (noteReading s a h) := by
  cases a with
  | toggle =>
    cases hs
    show Charts (toggleConnection s.main).heap h
    unfold toggleConnection
    split <;> exact hc
  | becomeActive | openSettings | install | uninstall | deliver ev =>
    cases hs
    exact hc
  | setAutoRestart on | setAutoConnectOnLaunch on | launchAtLoginFailed description =>
    cases hs
    exact hc.same rfl rfl rfl
  | answerPrompt takeover =>
    simp only [step, State.closePrompt] at hs
    split at hs
    · cases hs
      cases takeover with
      | true => exact hc
      | false => exact hc
    · cases hs
  | handle =>
    simp only [step, State.handleNext] at hs
    split at hs
    · next ev events he =>
      split at hs
      · cases hs
      · cases hs
        have hnote : noteReading s .handle h = historyAfter s.main h ev := by
          show (s.events.head?.map (historyAfter s.main h)).getD h = _
          rw [he]
          rfl
        rw [hnote]
        exact charts_handle hc ev
    · cases hs
  | perform r =>
    obtain ⟨m, hm, rfl⟩ := Option.map_eq_some_iff.mp hs
    unfold App.perform at hm
    split at hm
    · obtain ⟨c, -, hm⟩ := Option.bind_eq_some_iff.mp hm
      obtain ⟨c', -, rfl⟩ := Option.map_eq_some_iff.mp hm
      exact hc
    · cases hm
  | performPosted =>
    obtain ⟨m, hm, rfl⟩ := Option.map_eq_some_iff.mp hs
    unfold App.performPosted at hm
    split at hm
    · cases hm
      exact hc
    · cases hm
  | run id file now =>
    obtain ⟨m, hm, rfl⟩ := Option.map_eq_some_iff.mp hs
    obtain ⟨c, hcode, hm⟩ := Option.bind_eq_some_iff.mp hm
    have hnote : noteReading s (.run id file now) h = readingsAfter s.main id now c h := by
      show ((s.main.code? id).map fun c => readingsAfter s.main id now c h).getD h = _
      rw [hcode]
      rfl
    rw [hnote]
    exact hc.turn hm

theorem charts_start (d : Defaults) : Charts (start d).main.heap [] where
  samples := by
    show [] = List.rtake [] maxRateSamples
    rw [List.rtake_nil]
  baseline := rfl
  rows := .nil

namespace Trial

/-- Task 3 polls: it asks at time `now`, and the status has come when it has its next turn. -/
def pollsRow (rx : UInt64) (now : ℚ) : List Action :=
  [.run 3 none now, .perform (.status (some ⟨some ⟨[⟨1, rx, 0, false⟩]⟩, none⟩)), .run 3 none now]

end Trial

end EasyTierMac.App
