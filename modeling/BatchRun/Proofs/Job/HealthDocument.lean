import BatchRun.Job.HealthDocument
import BatchRun.Proofs.Job.Latency
import BatchRun.Proofs.Job.Recording
import BatchRun.Proofs.Json.Exact
import BatchRun.Proofs.Json.Reals

/-!
# Documents of health reports that are read back

**Types.**
A view is `Fitting` if its numbers are in range.  `Summary.reread` is the view with the rate of
successes that is read of its text.

**Results.**
* `accepts_summary`, `accepts_snapshot`: documents of fitting views are read, and only their rates
  may become other numbers.
* `fitting_of_summarize`: a window that is not too long has a fitting view.
* `entries_of_snapshot`: a snapshot has the views of all windows, each with its destination.
-/

namespace BatchRun

open Json
open Number
open Number.Binary64

namespace Summary

/-- A view whose numbers are in range. -/
structure Fitting (summary : Summary) : Prop where
  samples : summary.samples < 2 ^ 64
  successRate : Yields (summary.successRate.text .document).toList summary.successRate.readBack
  meanLatency : summary.meanLatency < 2 ^ 64
  highLatency : summary.highLatency < 2 ^ 64

/-- The view with the rate of successes that is read of its text. -/
def reread (summary : Summary) : Summary :=
  { summary with successRate := summary.successRate.readBack }

section Fields

variable {fields : Fields} {depth : Nat}

theorem takes_verdict
    (verdict : Verdict)
    (empty : fields.verdict = none) :
    Takes (member depth) ("status", .string verdict.name) fields
      { fields with verdict := some verdict } := by
  have hcase : Accepts (Reader.unitCase depth Verdict.cases) (.string verdict.name) verdict :=
    accepts_unitCase (by cases verdict <;> rfl)
  exact takes_of_fill empty hcase rfl rfl

theorem takes_samples
    {samples : Nat}
    (h : samples < 2 ^ 64)
    (empty : fields.samples = none) :
    Takes (member depth) ("samples", .nat samples) fields
      { fields with samples := some samples } :=
  takes_of_fill empty (accepts_word h (Nat.le_pred_of_lt h)) rfl rfl

theorem takes_successRate
    {x y : Binary64}
    (h : Yields (x.text .document).toList y)
    (empty : fields.successRate = none) :
    Takes (member depth) ("success_rate", .real x) fields
      { fields with successRate := some y } :=
  takes_of_fill empty (accepts_real h) rfl rfl

theorem takes_meanLatency
    {latency : Nat}
    (h : latency < 2 ^ 64)
    (empty : fields.meanLatency = none) :
    Takes (member depth) ("avg_latency_ms", .nat latency) fields
      { fields with meanLatency := some latency } :=
  takes_of_fill empty (accepts_word h (Nat.le_pred_of_lt h)) rfl rfl

theorem takes_highLatency
    {latency : Nat}
    (h : latency < 2 ^ 64)
    (empty : fields.highLatency = none) :
    Takes (member depth) ("p95_latency_ms", .nat latency) fields
      { fields with highLatency := some latency } :=
  takes_of_fill empty (accepts_word h (Nat.le_pred_of_lt h)) rfl rfl

end Fields

/-- The document of a fitting view is read, and only its rate may become another number. -/
theorem accepts_summary
    {summary : Summary}
    (depth : Nat)
    (h : summary.Fitting) :
    Accepts (reader (depth + 1)) summary.document summary.reread :=
  accepts_record rfl
    (.further (takes_verdict summary.verdict rfl)
      (.further (takes_samples h.samples rfl)
        (.further (takes_successRate h.successRate rfl)
          (.further (takes_meanLatency h.meanLatency rfl)
            (.further (takes_highLatency h.highLatency rfl) (.none _))))))
    fun _ => rfl

end Summary

namespace Snapshot

/-- The views with the rates of successes that are read of their texts. -/
def reread (snapshot : Snapshot) : Snapshot :=
  snapshot.map fun entry => (entry.1, entry.2.reread)

variable {snapshot : Snapshot}

theorem keys_reread
    (snapshot : Snapshot) :
    snapshot.reread.map Prod.fst = snapshot.map Prod.fst := by
  rw [reread, List.map_map]
  rfl

/-- Views are read back as they are exactly if their rates are. -/
theorem reread_eq_iff :
    snapshot.reread = snapshot ↔
      ∀ entry ∈ snapshot, entry.2.successRate.readBack = entry.2.successRate := by
  have hid : snapshot.reread = snapshot ↔ snapshot.reread = snapshot.map id := by
    rw [List.map_id]
  rw [hid, reread, List.map_inj_left]
  refine forall₂_congr fun entry _ => ?_
  obtain ⟨key, verdict, samples, rate, mean, high⟩ := entry
  simp [Summary.reread]

/-- The document of fitting views is read. -/
theorem accepts_snapshot
    (depth : Nat)
    (ascending : Keyed.Ascending (snapshot.map Prod.fst))
    (fitting : ∀ entry ∈ snapshot, entry.2.Fitting) :
    Accepts (snapshotReader (depth + 2)) (snapshotDocument snapshot) snapshot.reread := by
  have haccepts : Accepts (snapshotReader (depth + 2)) (snapshotDocument snapshot)
      (Keyed.sort snapshot.reread) :=
    accepts_map_read fun entry hentry => Summary.accepts_summary depth (fitting entry hentry)
  rwa [Keyed.sort_eq ((keys_reread snapshot).symm ▸ ascending)] at haccepts

end Snapshot

section Windows

variable {settings : HealthSettings} {window : List Sample} {summary : Summary}

/-- What a view is made of. -/
theorem summarize_eq_ok
    (h : summarize settings window = .ok summary) :
    BatchRun.Fits window ∧ summary.samples = window.length ∧
      summary.successRate = (if window.length = 0 then 1
        else ofNat (window.countP Sample.succeeded) / ofNat window.length) ∧
      summary.meanLatency = (window.map Sample.latency).sum / window.length ∧
      summary.highLatency =
        (window.map Sample.latency).mergeSort.getD (highRank window.length - 1) 0 := by
  unfold summarize at h
  simp only [total_eq] at h
  split at h
  case isTrue => cases h
  case isFalse hfits =>
      cases h
      exact ⟨Nat.lt_of_not_le hfits, rfl, rfl, rfl, rfl⟩

/-- No latency is above the sum of all. -/
theorem getD_latencies_le
    (window : List Sample)
    (index : Nat) :
    (window.map Sample.latency).mergeSort.getD index 0 ≤ (window.map Sample.latency).sum := by
  rw [List.getD_eq_getElem?_getD]
  cases hget : (window.map Sample.latency).mergeSort[index]? with
  | none => exact Nat.zero_le _
  | some latency =>
      have hmem := (List.mergeSort_perm (window.map Sample.latency) _).mem_iff.mp
        (List.mem_of_getElem? hget)
      exact List.le_sum_of_mem hmem

/-- The rate of a window is a share. -/
theorem share_of_summarize
    {exponent : Nat}
    (h : summarize settings window = .ok summary)
    (few : window.length ≤ 2 ^ exponent)
    (finite : exponent ≤ lastPower) :
    ∃ rank : Fin (infiniteRank + 1), summary.successRate = signed false rank ∧
      rank.val < infiniteRank ∧ Share (2 ^ exponent) rank.val := by
  obtain ⟨-, -, hrate, -⟩ := summarize_eq_ok h
  rw [hrate]
  split
  case isTrue => exact share_of_one (Nat.two_pow_pos exponent)
  case isFalse hsome =>
      exact share_of_div (Nat.pos_of_ne_zero hsome) List.countP_le_length few finite

/-- A window that is not too long has a fitting view. -/
theorem fitting_of_summarize
    (h : summarize settings window = .ok summary)
    (few : window.length ≤ HealthSettings.unallocatable) :
    summary.Fitting := by
  obtain ⟨hfits, hsamples, -, hmean, hhigh⟩ := summarize_eq_ok h
  obtain ⟨rank, hrate, hfinite, hshare⟩ := share_of_summarize h few (by decide)
  refine ⟨?_, ?_, ?_, ?_⟩
  · rw [hsamples]
    exact Nat.lt_of_le_of_lt few (by decide)
  · rw [hrate]
    exact yields_share hshare hfinite (by decide)
  · rw [hmean]
    exact Nat.lt_of_le_of_lt (Nat.div_le_self _ _) hfits
  · rw [hhigh]
    exact Nat.lt_of_le_of_lt (getD_latencies_le window _) hfits

/-- How the rate of a window and what is read of its text differ. -/
structure Summary.Rereads (window : List Sample) (summary : Summary) : Prop where
  near : Near 2 summary.successRate.readBack summary.successRate
  nearer : window.length ≤ 2 ^ 19 → Near 1 summary.successRate.readBack summary.successRate
  /-- A rate whose digits are no more than `2 ^ 53` is read back as it is. -/
  short : window.length ≤ 2 ^ 19 → summary.successRate.significand ≤ 2 ^ 53 →
    summary.successRate.readBack = summary.successRate
  /-- A rate that has no more than fifteen places is read back as it is. -/
  kept : window.length ≤ 2 ^ 19 → window.length ∣ window.countP Sample.succeeded * 10 ^ 15 →
    summary.successRate.readBack = summary.successRate

theorem rereads_of_summarize
    (h : summarize settings window = .ok summary)
    (few : window.length ≤ HealthSettings.unallocatable) :
    summary.Rereads window := by
  refine ⟨?_, fun fewer => ?_, fun fewer digits => ?_, fun fewer places => ?_⟩
  · obtain ⟨rank, hrate, hfinite, hshare⟩ := share_of_summarize h few (by decide)
    rw [hrate]
    exact near_readBack hshare hfinite (by decide)
  · obtain ⟨rank, hrate, hfinite, hshare⟩ := share_of_summarize h fewer (by decide)
    rw [hrate]
    exact near_readBack_of_few hshare hfinite (by decide)
  · obtain ⟨rank, hrate, hfinite, hshare⟩ := share_of_summarize h fewer (by decide)
    rw [hrate] at digits ⊢
    exact readBack_of_short hshare hfinite (by decide) digits
  · obtain ⟨-, -, hrate, -⟩ := summarize_eq_ok h
    rw [hrate]
    split
    case isTrue => exact readBack_one
    case isFalse hsome =>
        exact readBack_of_dvd (Nat.pos_of_ne_zero hsome) List.countP_le_length fewer places

end Windows

namespace Monitor

/-- Answers about all elements are those about each of them. -/
theorem forall₂_of_mapM
    {α β ε : Type} {f : α → Except ε β} {elements : List α} {answers : List β}
    (h : elements.mapM f = .ok answers) :
    List.Forall₂ (fun element answer => f element = .ok answer) elements answers := by
  induction elements generalizing answers with
  | nil =>
      cases h
      exact .nil
  | cons element elements ih =>
      rw [List.mapM_cons] at h
      cases hfirst : f element with
      | error fault =>
          rw [hfirst] at h
          cases h
      | ok answer =>
          rw [hfirst] at h
          cases hrest : elements.mapM f with
          | error fault =>
              rw [hrest] at h
              cases h
          | ok others =>
              rw [hrest] at h
              cases h
              exact .cons hfirst (ih hrest)

variable {monitor : Monitor} {views : Snapshot}

/-- A snapshot has the view of each window, with its destination. -/
theorem entries_of_snapshot
    (h : monitor.snapshot = .ok views) :
    List.Forall₂ (fun entry view => entry.1 = view.1 ∧
      summarize monitor.settings entry.2 = .ok view.2) monitor.windows views := by
  refine (forall₂_of_mapM h).imp fun entry view hview => ?_
  cases hsummary : summarize monitor.settings entry.2 with
  | error fault =>
      simp only [hsummary, Except.map] at hview
      cases hview
  | ok summary =>
      simp only [hsummary, Except.map] at hview
      cases hview
      exact ⟨rfl, rfl⟩

theorem keys_of_snapshot
    (h : monitor.snapshot = .ok views) :
    monitor.windows.map Prod.fst = views.map Prod.fst := by
  have hkeys : List.Forall₂ Eq (monitor.windows.map Prod.fst) (views.map Prod.fst) := by
    rw [List.forall₂_map_left_iff, List.forall₂_map_right_iff]
    exact (entries_of_snapshot h).imp fun _ _ hentry => hentry.1
  rwa [List.forall₂_eq_eq_eq] at hkeys

/-- Each view of a snapshot is that of a window. -/
theorem window_of_snapshot
    (h : monitor.snapshot = .ok views)
    {view : String × Summary}
    (hview : view ∈ views) :
    ∃ window, (view.1, window) ∈ monitor.windows ∧
      summarize monitor.settings window = .ok view.2 := by
  have hentries := entries_of_snapshot h
  clear h
  generalize monitor.windows = windows at hentries ⊢
  induction hentries with
  | nil => cases hview
  | @cons entry first windows views hentry _ ih =>
      rcases List.mem_cons.mp hview with rfl | hrest
      · exact ⟨entry.2, hentry.1 ▸ List.mem_cons_self, hentry.2⟩
      · obtain ⟨window, hwindow, hsummary⟩ := ih hrest
        exact ⟨window, List.mem_cons_of_mem entry hwindow, hsummary⟩

end Monitor

namespace SharedMonitor

section Windows

variable {s next : SharedMonitor} {number : Nat}

/-- There are windows only where memory can hold them. -/
theorem allocatable_of_step
    (h : Step s number next)
    (before : s.index = [] ∨ s.settings.windowSize < HealthSettings.unallocatable) :
    next.index = [] ∨ next.settings.windowSize < HealthSettings.unallocatable := by
  cases h with
  | rests | finds | misses | refuses | fills => exact before
  | makes _ _ _ allocatable => exact .inr allocatable

/-- A window has the latest samples of its destination, and is not too long. -/
theorem window_of_run
    (settings : HealthSettings)
    (samples : List (String × Sample))
    (schedule : List Nat)
    {key : String} {window : List Sample}
    (h : (key, window) ∈ ((opened settings samples).run schedule).view.windows) :
    window = settings.latest key ((opened settings samples).run schedule).history ∧
      window.length ≤ HealthSettings.unallocatable := by
  have tracks := tracks_of_run settings samples schedule
  have hsettings := settings_of_run settings samples schedule
  have hallocatable := invariant_of_run allocatable_of_step
    (.inl rfl : (opened settings samples).index = [] ∨ _) schedule
  generalize (opened settings samples).run schedule = s at tracks hsettings hallocatable h ⊢
  subst hsettings
  have hwindow := tracks.follows.window key window (Keyed.find?_of_mem tracks.follows.ascending h)
  refine ⟨hwindow, ?_⟩
  rcases hallocatable with hnone | hsize
  · have hempty : s.view.windows = [] := by
      unfold view
      rw [hnone]
      rfl
    rw [hempty] at h
    cases h
  · have hlength := length_rtake (samplesOf key s.history) s.settings.capacity
    have hcapacity : s.settings.capacity ≤ HealthSettings.unallocatable :=
      Nat.max_le.mpr ⟨Nat.le_of_lt hsize, by decide⟩
    rw [hwindow]
    exact Nat.le_trans (hlength ▸ Nat.min_le_right _ _) hcapacity

end Windows

end SharedMonitor

end BatchRun
