import EasyTierMac.App.System
import EasyTierMac.Window

/-!
# The chart and the history behind it

`recordRate` keeps a baseline, the totals and the time of the last poll, and appends a sample
for the time since. The history of a run says what the chart is made of: the readings that polls
have taken, in order, with a gap (`none`) wherever the baseline was dropped. `Charts` connects
the two: the samples are the last rates between neighbouring readings, and the baseline is the
last reading, if no gap follows it.
-/

namespace EasyTierMac.App

/-- The counters as a poll has found them. -/
structure Reading where
  time : ℚ
  rx : ℚ
  tx : ℚ
  deriving DecidableEq, Repr

namespace Reading

def of (rows : List PeerRow) (now : ℚ) : Reading :=
  ⟨now, AppModel.total PeerRow.rxBytes rows, AppModel.total PeerRow.txBytes rows⟩

/-- The rates between two readings, if time has passed. Counters that have gone down count as
still. -/
def rate (r r' : Reading) : Option RateSample :=
  if r.time < r'.time then
    some ⟨r'.time, max 0 (r'.rx - r.rx) / (r'.time - r.time), max 0 (r'.tx - r.tx) / (r'.time - r.time)⟩
  else none

end Reading

/-- Readings in order, with gaps. -/
abbrev History : Type := List (Option Reading)

/-- There is no rate across a gap. -/
def rateOf (o o' : Option Reading) : Option RateSample := o.bind fun r => o'.bind r.rate

/-- All rates of a history. -/
def History.rates (h : History) : List RateSample := between rateOf h

/-- The reading that the next sample is relative to. -/
def AppModel.baseline (m : AppModel) : Option Reading :=
  match m.lastRxTotal, m.lastTxTotal, m.lastSampleTime with
  | some rx, some tx, some time => some ⟨time, rx, tx⟩
  | _, _, _ => none

/-- The chart shows the last rates of the history, and the peer list is in order. -/
structure Charts (m : AppModel) (h : History) : Prop where
  samples : m.rateSamples = h.rates.rtake maxRateSamples
  baseline : m.baseline = h.getLast?.join
  rows : m.rows.Pairwise fun r r' => AppModel.rowLe r r' = true

/-! ## What the functions do to it -/

theorem rates_concat (h : History) (o : Option Reading) :
    History.rates (h ++ [o]) = h.rates ++ (rateOf h.getLast?.join o).toList := by
  unfold History.rates
  rw [between_concat]
  cases h.getLast? with
  | none => rfl
  | some x => rfl

namespace AppModel

theorem sample_eq (m : AppModel) (rows : List PeerRow) (now : ℚ) :
    m.sample rows now = rateOf m.baseline (some (.of rows now)) := by
  unfold sample baseline
  cases m.lastRxTotal with
  | none => rfl
  | some rx =>
    cases m.lastTxTotal with
    | none => rfl
    | some tx =>
      cases m.lastSampleTime with
      | none => rfl
      | some time =>
        simp only [rateOf, Option.bind_some, Reading.rate, Reading.of, gt_iff_lt, sub_pos]

theorem rateSamples_recordRate (m : AppModel) (rows : List PeerRow) (now : ℚ) :
    (m.recordRate rows now).rateSamples =
      (m.rateSamples ++ (m.sample rows now).toList).rtake maxRateSamples := by
  simp only [recordRate, List.rtake]

theorem baseline_recordRate (m : AppModel) (rows : List PeerRow) (now : ℚ) :
    (m.recordRate rows now).baseline = some (.of rows now) := rfl

theorem rowLe_trans (a b c : PeerRow) (h : rowLe a b = true) (h' : rowLe b c = true) :
    rowLe a c = true := by
  unfold rowLe at *
  cases ha : a.isLocal
  all_goals
    cases hb : b.isLocal
    all_goals
      cases hc : c.isLocal
      all_goals simp_all
  all_goals exact UInt32.le_trans h h'

theorem rowLe_total (a b : PeerRow) : (rowLe a b || rowLe b a) = true := by
  unfold rowLe
  cases ha : a.isLocal
  all_goals
    cases hb : b.isLocal
    all_goals simp_all
  all_goals exact UInt32.le_total _ _

end AppModel

namespace Charts

variable {m m' : AppModel} {h : History}

/-- A function that leaves the chart alone. -/
theorem same (hc : Charts m h) (hsamples : m'.rateSamples = m.rateSamples)
    (hbase : m'.baseline = m.baseline) (hrows : m'.rows = m.rows) : Charts m' h where
  samples := hsamples.trans hc.samples
  baseline := hbase.trans hc.baseline
  rows := by
    rw [hrows]
    exact hc.rows

/-- A function that drops the baseline. -/
theorem gap (hc : Charts m h) (hsamples : m'.rateSamples = m.rateSamples)
    (hbase : m'.baseline = none) (hrows : m'.rows = m.rows ∨ m'.rows = []) :
    Charts m' (h ++ [none]) where
  samples := by
    rw [hsamples, hc.samples, rates_concat]
    cases h.getLast?.join <;> simp [rateOf]
  baseline := by simp [hbase]
  rows := by
    rcases hrows with he | he
    · rw [he]
      exact hc.rows
    · rw [he]
      exact .nil

/-- A function that clears the chart. -/
theorem clear (hsamples : m'.rateSamples = []) (hbase : m'.baseline = none) (hrows : m'.rows = []) :
    Charts m' [] where
  samples := hsamples
  baseline := hbase
  rows := by
    rw [hrows]
    exact .nil

/-- A poll takes a reading. -/
theorem read (hc : Charts m h) (rows : List PeerRow) (now : ℚ) :
    Charts (m.recordRate rows now) (h ++ [some (.of rows now)]) := by
  have hrows : (m.recordRate rows now).rows = m.rows := by
    simp only [AppModel.recordRate]
  refine ⟨?_, ?_, ?_⟩
  · rw [AppModel.rateSamples_recordRate, hc.samples, rtake_append_rtake, AppModel.sample_eq,
      hc.baseline, rates_concat]
  · rw [AppModel.baseline_recordRate, List.getLast?_concat]
    rfl
  · rw [hrows]
    exact hc.rows

end Charts

/-! ## What a turn does to it -/

/-- What the turn of the task `id`, which stands at `c`, adds to the history. -/
def readingsAfter (s : Main) (id : Nat) (now : ℚ) (c : Code) (h : History) : History :=
  match c with
  | .poll (.answered env) =>
    match env.bind StatusEnvelope.ok with
    | some ns => if s.heap.connectionState = .connected then h ++ [some (.of ns.rows now)] else h
    | none => h
  | .connect (.connected _ none) => h ++ [none]
  | .restart _ (.connected none) => if s.isCancelled id then h else h ++ [none]
  | .disconnect .disconnected => []
  | _ => h

variable {s : Main} {id : Nat} {h : History} {file : Option String} {now : ℚ}

theorem Charts.restartLoop {toml : String} (hc : Charts s.heap h) :
    Charts (restartLoop s id toml).heap h := by
  unfold App.restartLoop
  dsimp only
  split
  · exact hc.same rfl rfl rfl
  · exact hc.same rfl rfl rfl

theorem Charts.refresh {pc : RefreshAt} (hc : Charts s.heap h)
    (hrun : refreshSupervisorStatus s id pc = some m) : Charts m.heap h := by
  cases pc with
  | start =>
    cases hrun
    exact hc
  | answered status =>
    cases status with
    | some status =>
      cases hrun
      exact hc.same rfl rfl rfl
    | none =>
      cases hrun
      exact hc
  | status => cases hrun

/-- What a status makes of the chart. -/
theorem Charts.polled (hc : Charts m h) (env : Option StatusEnvelope) (now : ℚ) :
    Charts (m.polled env now) (match env.bind StatusEnvelope.ok with
      | some ns => h ++ [some (.of ns.rows now)]
      | none => h) := by
  unfold AppModel.polled
  cases env.bind StatusEnvelope.ok with
  | some ns =>
    have hsorted : Charts { m with rows := ns.rows.mergeSort AppModel.rowLe } h := by
      refine ⟨hc.samples, hc.baseline, ?_⟩
      exact List.pairwise_mergeSort AppModel.rowLe_trans AppModel.rowLe_total ns.rows
    exact hsorted.read ns.rows now
  | none => exact ⟨hc.samples, hc.baseline, .nil⟩

theorem Charts.poll {pc : PollAt} (hc : Charts s.heap h)
    (hrun : poll s id now pc = some m) : Charts m.heap (readingsAfter s id now (.poll pc) h) := by
  cases pc with
  | start | sleep =>
    simp only [App.poll] at hrun
    split at hrun
    · cases hrun
      exact hc
    · split at hrun
      · cases hrun
        exact hc
      · cases hrun
        exact hc
  | answered env =>
    simp only [App.poll] at hrun
    split at hrun
    · next hst =>
      cases hrun
      simp only [readingsAfter, hst, if_true]
      exact hc.polled env now
    · next hst =>
      cases hrun
      simp only [readingsAfter, hst, if_false]
      split
      · exact hc
      · exact hc
  | status => cases hrun

theorem Charts.turn {c : Code} (hc : Charts s.heap h) (hrun : turn s id file now c = some m) :
    Charts m.heap (readingsAfter s id now c h) := by
  cases c with
  | connect pc =>
    cases pc with
    | start =>
      simp only [App.turn, connect] at hrun
      split at hrun
      · cases file with
        | none =>
          cases hrun
          exact hc.same rfl rfl rfl
        | some text =>
          cases hrun
          exact hc.same rfl rfl rfl
      · cases hrun
        exact hc
    | validated text v =>
      simp only [App.turn, connect] at hrun
      split at hrun
      · cases hrun
        exact hc.same rfl rfl rfl
      · cases hrun
        exact hc.same rfl rfl rfl
    | connected text err =>
      cases err with
      | some err =>
        cases hrun
        exact hc.same rfl rfl rfl
      | none =>
        cases hrun
        exact hc.gap rfl rfl (.inl rfl)
    | validate text => cases hrun
    | connect text => cases hrun
  | disconnect pc =>
    cases pc with
    | start =>
      simp only [App.turn, disconnect] at hrun
      split at hrun
      · cases hrun
        exact hc.same rfl rfl rfl
      · cases hrun
        exact hc
    | disconnected =>
      cases hrun
      exact Charts.clear rfl rfl rfl
    | disconnect => cases hrun
  | revalidate pc =>
    cases pc with
    | start =>
      cases file with
      | none =>
        cases hrun
        exact hc.same rfl rfl rfl
      | some text =>
        cases hrun
        exact hc
    | validated text v =>
      simp only [App.turn, revalidate] at hrun
      split at hrun
      · cases hrun
        exact hc.same rfl rfl rfl
      · cases hrun
        exact hc.same rfl rfl rfl
    | validate text => cases hrun
  | refresh pc => exact hc.refresh hrun
  | install pc =>
    cases pc with
    | start =>
      simp only [App.turn, installSupervisor] at hrun
      split at hrun
      · cases hrun
        exact hc
      · cases hrun
        exact hc.same rfl rfl rfl
    | installed err =>
      cases err with
      | some err =>
        cases hrun
        exact hc.same rfl rfl rfl
      | none =>
        cases hrun
        exact hc.same rfl rfl rfl
    | install => cases hrun
  | uninstall pc =>
    cases pc with
    | start =>
      simp only [App.turn, uninstallSupervisor] at hrun
      split at hrun
      · cases hrun
        exact hc
      · cases hrun
        exact hc.same rfl rfl rfl
    | installed err =>
      cases err with
      | some err =>
        cases hrun
        exact hc.same rfl rfl rfl
      | none =>
        cases hrun
        exact hc.same rfl rfl rfl
    | install => cases hrun
  | restart toml pc =>
    cases pc with
    | start =>
      cases hrun
      exact hc.restartLoop
    | sleep =>
      simp only [App.turn, restart] at hrun
      split at hrun
      · cases hrun
        exact hc
      · cases hrun
        exact hc
    | connected err =>
      simp only [App.turn, restart] at hrun
      split at hrun
      · next hcan =>
        cases hrun
        cases err with
        | none =>
          simp only [readingsAfter, hcan, if_true]
          exact hc
        | some err => exact hc
      · next hcan =>
        cases err with
        | none =>
          cases hrun
          simp only [readingsAfter, hcan, Bool.false_eq_true, if_false]
          exact hc.gap rfl rfl (.inl rfl)
        | some err =>
          cases hrun
          refine Charts.restartLoop ?_
          exact hc.same rfl rfl rfl
    | connect => cases hrun
  | poll pc => exact hc.poll hrun

end EasyTierMac.App
