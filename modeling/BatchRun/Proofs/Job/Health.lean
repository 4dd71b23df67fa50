import BatchRun.Job.Health
import BatchRun.Proofs.Keyed
import Mathlib.Algebra.GroupWithZero.Nat

/-!
# Windows that can be kept

**Invariant.**
No window of a monitor is longer than its settings say, and no latency in it is greater than a
bound with which all of them fit in 64 bits together (`Monitor.Roomy`).

**Results.**
* `record_of_roomy`: a sample within the bound can be recorded, and the invariant stays.
* `snapshot_of_roomy`: all windows can be judged.
-/

namespace BatchRun
namespace Monitor

/-- All windows can be kept if latencies do not exceed a bound. -/
structure Roomy (monitor : Monitor) (longest : Nat) : Prop where
  allocatable : monitor.settings.windowSize < HealthSettings.unallocatable
  fits : monitor.settings.capacity * longest < Nat.pow 2 64
  short : ∀ entry ∈ monitor.windows, entry.2.length ≤ monitor.settings.capacity
  bounded : ∀ entry ∈ monitor.windows, ∀ sample ∈ entry.2, sample.latency ≤ longest

section Windows

variable {settings : HealthSettings} {window : List Sample} {sample : Sample} {longest : Nat}

theorem length_slide_le
    (short : window.length ≤ settings.capacity) :
    (slide settings window sample).length ≤ settings.capacity := by
  have hpos : 1 ≤ settings.capacity := Nat.le_max_right _ _
  unfold slide
  split
  case isTrue full =>
      simp only [List.length_append, List.length_drop, List.length_singleton]
      omega
  case isFalse =>
      simp only [List.length_append, List.length_singleton]
      omega

theorem mem_slide
    {other : Sample}
    (h : other ∈ slide settings window sample) :
    other ∈ window ∨ other = sample := by
  unfold slide at h
  rcases List.mem_append.mp h with hold | hnew
  · split at hold
    case isTrue => exact .inl (List.mem_of_mem_drop hold)
    case isFalse => exact .inl hold
  · exact .inr (List.mem_singleton.mp hnew)

theorem sum_latency_le
    (bounded : ∀ sample ∈ window, sample.latency ≤ longest) :
    (window.map Sample.latency).sum ≤ window.length * longest := by
  induction window with
  | nil => simp
  | cons sample window ih =>
      have hfirst := bounded sample List.mem_cons_self
      have hrest := ih fun other hother => bounded other (List.mem_cons_of_mem sample hother)
      rw [List.map_cons, List.sum_cons, List.length_cons, Nat.succ_mul]
      omega

theorem summarize_isOk
    (short : window.length ≤ settings.capacity)
    (bounded : ∀ sample ∈ window, sample.latency ≤ longest)
    (fits : settings.capacity * longest < Nat.pow 2 64) :
    ∃ summary, summarize settings window = .ok summary := by
  have htotal : ((window.map Sample.latency).mergeSort).sum ≤ window.length * longest := by
    rw [(List.mergeSort_perm _ _).sum_nat]
    exact sum_latency_le bounded
  have hcapacity : window.length * longest ≤ settings.capacity * longest :=
    Nat.mul_le_mul_right longest short
  have hfits : ((window.map Sample.latency).mergeSort).sum < Nat.pow 2 64 :=
    Nat.lt_of_le_of_lt (Nat.le_trans htotal hcapacity) fits
  unfold summarize
  exact ⟨_, if_neg (Nat.not_le.mpr hfits)⟩

end Windows

section Monitors

variable {monitor : Monitor} {key : String} {sample : Sample} {longest : Nat}

theorem opened_of_roomy
    (roomy : monitor.Roomy longest)
    (key : String) :
    ∃ next, monitor.opened key = .ok next ∧ next.Roomy longest := by
  unfold opened
  split
  case h_1 => exact ⟨monitor, rfl, roomy⟩
  case h_2 =>
      rw [if_neg (Nat.not_le.mpr roomy.allocatable)]
      refine ⟨_, rfl, roomy.allocatable, roomy.fits, ?_, ?_⟩
      · intro entry hentry
        rcases Keyed.mem_of_mem_insert hentry with rfl | hold
        · exact Nat.zero_le _
        · exact roomy.short entry hold
      · intro entry hentry
        rcases Keyed.mem_of_mem_insert hentry with rfl | hold
        · exact fun _ hsample => absurd hsample List.not_mem_nil
        · exact roomy.bounded entry hold

theorem window_of_roomy
    (roomy : monitor.Roomy longest)
    (key : String) :
    ((Keyed.find? monitor.windows key).getD []).length ≤ monitor.settings.capacity ∧
      ∀ sample ∈ (Keyed.find? monitor.windows key).getD [], sample.latency ≤ longest := by
  cases hfind : Keyed.find? monitor.windows key with
  | none => simp
  | some window =>
      have hmem := Keyed.mem_of_find? hfind
      exact ⟨roomy.short _ hmem, roomy.bounded _ hmem⟩

theorem push_of_roomy
    (roomy : monitor.Roomy longest)
    (key : String)
    (h : sample.latency ≤ longest) :
    (monitor.push key sample).Roomy longest := by
  obtain ⟨hshort, hbounded⟩ := window_of_roomy roomy key
  refine ⟨roomy.allocatable, roomy.fits, ?_, ?_⟩
  · intro entry hentry
    rcases Keyed.mem_of_mem_insert hentry with rfl | hold
    · exact length_slide_le hshort
    · exact roomy.short entry hold
  · intro entry hentry
    rcases Keyed.mem_of_mem_insert hentry with rfl | hold
    · intro other hother
      rcases mem_slide hother with hold | rfl
      · exact hbounded other hold
      · exact h
    · exact roomy.bounded entry hold

theorem summary?_of_roomy
    (roomy : monitor.Roomy longest)
    (key : String) :
    ∃ summary, monitor.summary? key = .ok summary := by
  unfold summary?
  cases hfind : Keyed.find? monitor.windows key with
  | none => exact ⟨none, rfl⟩
  | some window =>
      have hmem := Keyed.mem_of_find? hfind
      obtain ⟨summary, hsummary⟩ :=
        summarize_isOk (roomy.short _ hmem) (roomy.bounded _ hmem) roomy.fits
      exact ⟨some summary, by simp [hsummary, Except.map]⟩

/-- A sample within the bound can be recorded. -/
theorem record_of_roomy
    (roomy : monitor.Roomy longest)
    (key : String)
    (h : sample.latency ≤ longest) :
    ∃ next, monitor.record key sample = (next, .ok ()) ∧ next.Roomy longest := by
  obtain ⟨opened, hopened, hroomy⟩ := opened_of_roomy roomy key
  have hpushed := push_of_roomy hroomy key h
  obtain ⟨summary, hsummary⟩ := summary?_of_roomy hpushed key
  refine ⟨opened.push key sample, ?_, hpushed⟩
  simp [record, hopened, hsummary, Except.map]

/-- All windows can be judged. -/
theorem snapshot_of_roomy
    (roomy : monitor.Roomy longest) :
    ∃ health, monitor.snapshot = .ok health := by
  unfold snapshot
  have hall : ∀ entry ∈ monitor.windows,
      ∃ summary, summarize monitor.settings entry.2 = .ok summary := fun entry hentry =>
    summarize_isOk (roomy.short entry hentry) (roomy.bounded entry hentry) roomy.fits
  generalize monitor.settings = settings at hall ⊢
  generalize monitor.windows = windows at hall ⊢
  induction windows with
  | nil => exact ⟨[], rfl⟩
  | cons entry windows ih =>
      obtain ⟨summary, hsummary⟩ := hall entry List.mem_cons_self
      obtain ⟨health, hhealth⟩ := ih fun other hother => hall other (List.mem_cons_of_mem _ hother)
      refine ⟨(entry.1, summary) :: health, ?_⟩
      rw [List.mapM_cons, hhealth]
      simp [hsummary, Except.map]
      rfl

end Monitors

end Monitor
end BatchRun
