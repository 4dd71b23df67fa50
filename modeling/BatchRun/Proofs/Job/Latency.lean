import BatchRun.Proofs.Job.Judgement
import Mathlib.Algebra.Group.Action.Defs
import Mathlib.Algebra.Order.BigOperators.Group.List

/-!
# Latencies that are added up

A window can be judged exactly as long as its latencies fit in 64 bits together.  A sample is put
into the window before they are added up, so one that does not fit breaks off its caller, and then
everybody who looks at the destination until enough samples have followed it.

**Types.**
`Made` says what becomes of a caller who records samples one after the other.  `Monitor.after` is
the monitor behind a history of samples of any callers, those included whose recording failed.  An
answer about a window `Tells` of it: of an empty window nothing, of one that fits its mean latency,
of any other one the fault.

**Results.**
* `averages_of_fits`: the mean is rounded down and lies between two latencies of the window.
* `find?_of_recorded`: a window holds the latest samples of its destination.
* `made_recordAll`: a caller breaks off at the first sample that does not fit, and only there.
* `accounts_of_allocatable`: the answers to every call behind any history.
-/

namespace BatchRun

/-- Whether the latencies of samples fit in 64 bits together. -/
def Fits (window : List Sample) : Prop := (window.map Sample.latency).sum < Nat.pow 2 64

instance (window : List Sample) : Decidable (Fits window) := by
  unfold Fits
  infer_instance

/-- What the view of a window says of its latencies. -/
structure Summary.Averages (window : List Sample) (summary : Summary) : Prop where
  samples : summary.samples = window.length
  /-- The mean is the greatest whole number that is not above the exact mean. -/
  rounded : summary.meanLatency * window.length ≤ (window.map Sample.latency).sum ∧
    (window.map Sample.latency).sum < (summary.meanLatency + 1) * window.length
  least : ∃ sample ∈ window, sample.latency ≤ summary.meanLatency
  greatest : ∃ sample ∈ window, summary.meanLatency ≤ sample.latency
  high : ∃ sample ∈ window, sample.latency = summary.highLatency

/-- What can be answered about a window. -/
inductive Tells (window : List Sample) : Except HealthFault (Option Summary) → Prop
  | nothing
      (empty : window = []) :
      Tells window (.ok none)
  | overflow
      (large : ¬ Fits window) :
      Tells window (.error .latencyOverflow)
  | view
      {summary : Summary}
      (filled : window ≠ [])
      (fits : Fits window)
      (averages : summary.Averages window) :
      Tells window (.ok (some summary))

section Windows

variable {settings : HealthSettings} {window : List Sample}

/-- The mean of a window lies between two of its latencies. -/
theorem mean_between
    (filled : window ≠ []) :
    (∃ sample ∈ window, sample.latency ≤ (window.map Sample.latency).sum / window.length) ∧
      ∃ sample ∈ window, (window.map Sample.latency).sum / window.length ≤ sample.latency := by
  have hlength : 0 < window.length := List.length_pos_iff.mpr filled
  have hdiv := Nat.div_add_mod (window.map Sample.latency).sum window.length
  have hmod := Nat.mod_lt (window.map Sample.latency).sum hlength
  generalize (window.map Sample.latency).sum / window.length = mean at hdiv ⊢
  constructor
  · by_contra hnone
    have habove : ∀ latency ∈ window.map Sample.latency, mean + 1 ≤ latency := by
      intro latency hlatency
      obtain ⟨sample, hsample, rfl⟩ := List.mem_map.mp hlatency
      exact Nat.lt_of_not_le fun hle => hnone ⟨sample, hsample, hle⟩
    have hsum := List.card_nsmul_le_sum _ _ habove
    rw [List.length_map, smul_eq_mul, Nat.mul_succ] at hsum
    omega
  · by_contra hnone
    have hbelow : ∀ sample ∈ window, sample.latency ≤ mean - 1 := by
      intro sample hsample
      have hlt : sample.latency < mean := Nat.lt_of_not_le fun hle => hnone ⟨sample, hsample, hle⟩
      omega
    have hpositive : 0 < mean := by
      obtain ⟨sample, hsample⟩ := List.exists_mem_of_ne_nil window filled
      exact Nat.pos_of_ne_zero fun hzero => hnone ⟨sample, hsample, hzero ▸ Nat.zero_le _⟩
    have hsum := Monitor.sum_latency_le hbelow
    have hless : window.length * (mean - 1) + window.length = window.length * mean := by
      rw [← Nat.mul_succ, Nat.succ_eq_add_one, Nat.sub_add_cancel hpositive]
    omega

/-- The rank of the 95th percentile is that of a sample. -/
theorem highRank_le
    {samples : Nat}
    (some : 0 < samples) :
    highRank samples - 1 < samples := by
  unfold highRank
  dsimp only
  omega

theorem summarize_of_overflow
    (large : ¬ Fits window) :
    summarize settings window = .error .latencyOverflow := by
  unfold summarize
  simp only [total_eq]
  exact if_pos (Nat.le_of_not_lt large)

/-- A window that fits is summed up. -/
theorem averages_of_fits
    (filled : window ≠ [])
    (fits : Fits window) :
    ∃ summary, summarize settings window = .ok summary ∧ summary.Averages window := by
  have hlength : 0 < window.length := List.length_pos_iff.mpr filled
  obtain ⟨hleast, hgreatest⟩ := mean_between filled
  unfold summarize
  simp only [total_eq, if_neg (Nat.not_le.mpr fits)]
  refine ⟨_, rfl, rfl, ⟨?_, ?_⟩, hleast, hgreatest, ?_⟩
  · exact Nat.div_mul_le_self _ _
  · exact Nat.lt_mul_of_div_lt (Nat.lt_succ_self _) hlength
  · have hrank : highRank window.length - 1 < (window.map Sample.latency).mergeSort.length := by
      rw [List.length_mergeSort, List.length_map]
      exact highRank_le hlength
    have hmem := (List.mergeSort_perm (window.map Sample.latency) _).mem_iff.mp
      (List.getElem_mem hrank)
    obtain ⟨sample, hsample, hlatency⟩ := List.mem_map.mp hmem
    refine ⟨sample, hsample, ?_⟩
    rw [hlatency, List.getD_eq_getElem?_getD, List.getElem?_eq_getElem hrank, Option.getD_some]

end Windows

/-- Latest samples of a destination in a history, as many as a window keeps. -/
def HealthSettings.latest (settings : HealthSettings) (key : String)
    (history : List (String × Sample)) : List Sample :=
  (samplesOf key history).rtake settings.capacity

/-- Whether each of some calls, made one after the other, finds that its window fits. -/
def HealthSettings.Bears (settings : HealthSettings) (calls : List (String × Sample)) : Prop :=
  ∀ done call, done ++ [call] <+: calls → Fits (settings.latest call.1 (done ++ [call]))

namespace Monitor

/-- Monitor behind a history of samples.  Several callers share a monitor, so that others go on
with it when one of them has broken off. -/
def after (settings : HealthSettings) (history : List (String × Sample)) : Monitor :=
  history.foldl (fun monitor entry => (monitor.record entry.1 entry.2).1) { settings }

/-- What becomes of a caller who makes some calls one after the other. -/
inductive Made (settings : HealthSettings) (calls : List (String × Sample)) :
    Monitor × Except HealthFault Unit → Prop
  | ends
      (bears : settings.Bears calls) :
      Made settings calls (after settings calls, .ok ())
  /-- The first sample that does not fit stays, and the calls behind it are not made. -/
  | breaksOff
      {done rest : List (String × Sample)}
      {call : String × Sample}
      (first : calls = done ++ call :: rest)
      (bears : settings.Bears done)
      (large : ¬ Fits (settings.latest call.1 (done ++ [call]))) :
      Made settings calls (after settings (done ++ [call]), .error .latencyOverflow)

/-- The answers behind a history of samples. -/
structure Accounts (settings : HealthSettings) (history : List (String × Sample)) : Prop where
  /-- A caller with these calls makes all of them, or those up to the first that does not fit. -/
  caller : Made settings history (({ settings } : Monitor).recordAll history)
  /-- Recording fails if the new sample and those before it do not fit, and only then. -/
  record : ∀ key sample, ((after settings history).record key sample).2 =
    if Fits (settings.latest key (history ++ [(key, sample)])) then .ok ()
    else .error .latencyOverflow
  summary : ∀ key, Tells (settings.latest key history) ((after settings history).summary? key)
  /-- A snapshot fails if one of the windows does not fit. -/
  unfit : (∃ key, ¬ Fits (settings.latest key history)) →
    (after settings history).snapshot = .error .latencyOverflow
  /-- Otherwise it shows what is answered about each destination. -/
  snapshot : (∀ key, Fits (settings.latest key history)) →
    ∃ views, (after settings history).snapshot = .ok views ∧ (after settings history).Shows views

section Histories

variable {settings : HealthSettings} {history : List (String × Sample)}

theorem after_append
    (settings : HealthSettings)
    (history : List (String × Sample))
    (entry : String × Sample) :
    after settings (history ++ [entry]) = ((after settings history).record entry.1 entry.2).1 := by
  rw [after, List.foldl_append]
  rfl

/-- A sample is put into a window that is opened if it has to be. -/
theorem record_of_opened
    {monitor opened : Monitor} {key : String} {sample : Sample}
    (h : monitor.opened key = .ok opened) :
    monitor.record key sample =
      (opened.push key sample, ((opened.push key sample).summary? key).map fun _ => ()) := by
  unfold record
  rw [h]

theorem opened_of_allocatable
    {monitor : Monitor}
    (allocatable : monitor.settings.windowSize < HealthSettings.unallocatable)
    (key : String) :
    ∃ opened, monitor.opened key = .ok opened ∧ opened.settings = monitor.settings ∧
      ∀ other, other ≠ key → Keyed.find? opened.windows other = Keyed.find? monitor.windows other := by
  unfold opened
  split
  case h_1 => exact ⟨monitor, rfl, rfl, fun _ _ => rfl⟩
  case h_2 =>
      rw [if_neg (Nat.not_le.mpr allocatable)]
      exact ⟨_, rfl, rfl, fun _ hne => Keyed.find?_insert_ne hne⟩

/-- Recording puts the sample into its window, whatever is answered. -/
structure Recorded (settings : HealthSettings) (history : List (String × Sample))
    (monitor : Monitor) : Prop where
  settings : monitor.settings = settings
  follows : Follows history monitor
  /-- There are no windows but those of destinations with samples. -/
  seen : ∀ key, samplesOf key history = [] → Keyed.find? monitor.windows key = none

theorem recorded_record
    {monitor : Monitor}
    (allocatable : settings.windowSize < HealthSettings.unallocatable)
    (recorded : Recorded settings history monitor)
    (key : String)
    (sample : Sample) :
    ∃ next, monitor.record key sample = (next, (next.summary? key).map fun _ => ()) ∧
      Recorded settings (history ++ [(key, sample)]) next := by
  obtain ⟨opened, hopened, hsettings, hother⟩ :=
    opened_of_allocatable (recorded.settings ▸ allocatable) key
  have hfollows := follows_push (follows_opened recorded.follows hopened) key sample
  refine ⟨opened.push key sample, record_of_opened hopened, hsettings.trans recorded.settings,
    hfollows, fun other hnone => ?_⟩
  rw [samplesOf_append, List.append_eq_nil_iff] at hnone
  have hne : other ≠ key := by
    rintro rfl
    simp [samplesOf] at hnone
  unfold push
  rw [Keyed.find?_insert_ne hne, hother other hne]
  exact recorded.seen other hnone.1

theorem recorded_after
    (allocatable : settings.windowSize < HealthSettings.unallocatable)
    (history : List (String × Sample)) :
    Recorded settings history (after settings history) := by
  induction history using List.reverseRecOn with
  | nil => exact ⟨rfl, follows_new settings, fun _ _ => rfl⟩
  | append_singleton history entry ih =>
      obtain ⟨next, hrecord, hnext⟩ := recorded_record allocatable ih entry.1 entry.2
      rw [after_append, hrecord]
      exact hnext

/-- A window holds the latest samples of its destination. -/
theorem find?_of_recorded
    {monitor : Monitor}
    (recorded : Recorded settings history monitor)
    (key : String) :
    Keyed.find? monitor.windows key =
      if samplesOf key history = [] then none else some (settings.latest key history) := by
  split
  case isTrue hnone => exact recorded.seen key hnone
  case isFalse hsome =>
      obtain ⟨window, hwindow⟩ := Option.isSome_iff_exists.mp (recorded.follows.known key hsome)
      rw [hwindow, recorded.follows.window key window hwindow, recorded.settings]
      rfl

theorem latest_eq_nil
    {key : String} :
    settings.latest key history = [] ↔ samplesOf key history = [] := by
  have hpos : 1 ≤ settings.capacity := Nat.le_max_right _ _
  rw [← List.length_eq_zero_iff, ← List.length_eq_zero_iff, HealthSettings.latest, length_rtake]
  omega

/-- What is answered about a destination tells of its latest samples. -/
theorem tells_of_recorded
    {monitor : Monitor}
    (recorded : Recorded settings history monitor)
    (key : String) :
    Tells (settings.latest key history) (monitor.summary? key) := by
  have hfind := find?_of_recorded recorded key
  split at hfind
  case isTrue hnone =>
      rw [summary?_eq_none.mpr hfind]
      exact .nothing (latest_eq_nil.mpr hnone)
  case isFalse hsome =>
      have hfilled : settings.latest key history ≠ [] := fun hnil => hsome (latest_eq_nil.mp hnil)
      rw [summary?_of_find? hfind]
      by_cases hfits : Fits (settings.latest key history)
      · obtain ⟨summary, hsummary, haverages⟩ := averages_of_fits hfilled hfits
        rw [hsummary]
        exact .view hfilled hfits haverages
      · rw [summarize_of_overflow hfits]
        exact .overflow hfits

theorem snapshot_of_overflow
    {monitor : Monitor} {key : String} {window : List Sample}
    (h : Keyed.find? monitor.windows key = some window)
    (large : ¬ Fits window) :
    monitor.snapshot = .error .latencyOverflow := by
  have hmem := Keyed.mem_of_find? h
  unfold snapshot
  generalize monitor.settings = settings
  generalize monitor.windows = windows at hmem
  induction windows with
  | nil => cases hmem
  | cons first windows ih =>
      rw [List.mapM_cons]
      by_cases hfirst : Fits first.2
      · obtain ⟨summary, hsummary⟩ : ∃ summary, summarize settings first.2 = .ok summary :=
          summarize_of_fits hfirst
        have hrest : (key, window) ∈ windows := by
          rcases List.mem_cons.mp hmem with rfl | hrest
          · exact absurd hfirst large
          · exact hrest
        rw [ih hrest]
        simp [hsummary, Except.map]
        rfl
      · simp [summarize_of_overflow hfirst, Except.map]
        rfl

/-- A sample is recorded if it fits together with those before it, and stays in any case. -/
theorem record_after
    (allocatable : settings.windowSize < HealthSettings.unallocatable)
    (history : List (String × Sample))
    (key : String)
    (sample : Sample) :
    (after settings history).record key sample = (after settings (history ++ [(key, sample)]),
      if Fits (settings.latest key (history ++ [(key, sample)])) then .ok ()
      else .error .latencyOverflow) := by
  obtain ⟨next, hrecord, hnext⟩ :=
    recorded_record allocatable (recorded_after allocatable history) key sample
  have htells := tells_of_recorded hnext key
  rw [after_append, hrecord]
  generalize next.summary? key = answer at htells ⊢
  cases htells with
  | nothing hempty =>
      rw [latest_eq_nil, samplesOf_append] at hempty
      simp [samplesOf] at hempty
  | overflow hlarge => rw [if_neg hlarge]; rfl
  | view _ hfits => rw [if_pos hfits]; rfl

theorem recordAll_append
    (monitor : Monitor)
    (calls more : List (String × Sample)) :
    monitor.recordAll (calls ++ more) =
      match monitor.recordAll calls with
      | (monitor, .ok ()) => monitor.recordAll more
      | (monitor, .error fault) => (monitor, .error fault) := by
  induction calls generalizing monitor with
  | nil => rfl
  | cons call calls ih =>
      rw [List.cons_append, recordAll, recordAll]
      split
      case h_1 next _ => exact ih next
      case h_2 => rfl

theorem bears_concat
    {calls : List (String × Sample)} {call : String × Sample}
    (bears : settings.Bears calls)
    (fits : Fits (settings.latest call.1 (calls ++ [call]))) :
    settings.Bears (calls ++ [call]) := by
  intro done last h
  rcases List.prefix_concat_iff.mp h with hwhole | hearlier
  · obtain ⟨rfl, hlast⟩ := List.append_inj' hwhole rfl
    cases hlast
    exact fits
  · exact bears done last hearlier

/-- A caller breaks off at the first sample that does not fit, and only there. -/
theorem made_recordAll
    (allocatable : settings.windowSize < HealthSettings.unallocatable)
    (calls : List (String × Sample)) :
    Made settings calls (({ settings } : Monitor).recordAll calls) := by
  induction calls using List.reverseRecOn with
  | nil => exact .ends fun done call h => by simp at h
  | append_singleton calls call ih =>
      rw [recordAll_append]
      generalize ({ settings } : Monitor).recordAll calls = answer at ih ⊢
      cases ih with
      | ends bears =>
          have hrecord := record_after allocatable calls call.1 call.2
          simp only [recordAll, hrecord]
          by_cases hfits : Fits (settings.latest call.1 (calls ++ [call]))
          · rw [if_pos hfits]
            exact .ends (bears_concat bears hfits)
          · rw [if_neg hfits]
            exact .breaksOff rfl bears hfits
      | @breaksOff done rest last first bears large =>
          have hfirst : calls ++ [call] = done ++ last :: (rest ++ [call]) := by
            rw [first, List.append_assoc]
            rfl
          exact .breaksOff hfirst bears large

/-- The answers behind any history, as long as a window can be allocated. -/
theorem accounts_of_allocatable
    (settings : HealthSettings)
    (history : List (String × Sample))
    (allocatable : settings.windowSize < HealthSettings.unallocatable) :
    Accounts settings history := by
  have hrecorded := recorded_after allocatable history
  refine ⟨made_recordAll allocatable history, fun key sample => ?_, tells_of_recorded hrecorded,
    fun ⟨key, hlarge⟩ => ?_, fun hfits => ?_⟩
  · rw [record_after allocatable]
  · have hfind := find?_of_recorded hrecorded key
    rw [if_neg fun hnone => ?_] at hfind
    · exact snapshot_of_overflow hfind hlarge
    · rw [latest_eq_nil.mpr hnone] at hlarge
      exact hlarge (by decide)
  · refine snapshot_of_fits hrecorded.follows.ascending fun key window hwindow => ?_
    have hfind := find?_of_recorded hrecorded key
    rw [hwindow] at hfind
    split at hfind
    case isTrue => cases hfind
    case isFalse =>
        cases hfind
        exact hfits key

/-- The longest latency in a window of two samples, and a sample of another destination. -/
def longestLatency : List (String × Sample) := [("a", ⟨true, Nat.pow 2 64 - 1⟩), ("b", ⟨false, 7⟩)]

/-- One millisecond more does not fit.  It breaks off its caller, who makes no call behind it, and
the sample stays: a snapshot fails from then on, but the other destination can still be looked
at. -/
theorem accounts_of_longestLatency :
    let settings : HealthSettings := { windowSize := 2 }
    let overfull := longestLatency ++ [("a", ⟨true, 1⟩)]
    settings.windowSize < HealthSettings.unallocatable ∧
      Accounts settings longestLatency ∧
      (({ settings } : Monitor).recordAll longestLatency).2 = .ok () ∧
      (({ settings } : Monitor).recordAll (overfull ++ [("b", ⟨true, 3⟩)])).2 =
        .error .latencyOverflow ∧
      Accounts settings overfull ∧
      (after settings overfull).snapshot = .error .latencyOverflow ∧
      ((after settings overfull).summary? "b").toOption.isSome = true := by
  intro settings overfull
  have hallocatable : settings.windowSize < HealthSettings.unallocatable := by decide
  have hlarge : ¬ Fits (settings.latest "a" overfull) := by decide +kernel
  have hbehind := accounts_of_allocatable settings overfull hallocatable
  refine ⟨hallocatable, accounts_of_allocatable settings longestLatency hallocatable,
    by decide +kernel, ?_, hbehind, hbehind.unfit ⟨"a", hlarge⟩, by decide +kernel⟩
  have hcaller := (accounts_of_allocatable settings (overfull ++ [("b", ⟨true, 3⟩)])
    hallocatable).caller
  generalize ({ settings } : Monitor).recordAll (overfull ++ [("b", ⟨true, 3⟩)]) = answer
    at hcaller ⊢
  cases hcaller with
  | ends bears => exact absurd (bears longestLatency ("a", ⟨true, 1⟩) ⟨_, rfl⟩) hlarge
  | breaksOff => rfl

end Histories

end Monitor

end BatchRun
