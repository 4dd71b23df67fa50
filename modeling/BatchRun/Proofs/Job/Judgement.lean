import BatchRun.Proofs.Job.Health
import BatchRun.Proofs.Number.Rounding
import Mathlib.Data.List.DropRight
import Mathlib.Data.List.Sort

/-!
# Judgement of a window

**Types.**
`Summary.Describes` says what the view of a window is, with the percentile and the rate as exact
numbers.  A monitor `Monitor.Follows` a history of samples when it holds the last ones of each
destination, and it `Monitor.Shows` a snapshot.

**Results.**
`highRank_eq` gives the place that is computed with rounded numbers: the two factors are within a
rounding of an integer and of the rank below it, and a product is never rounded past a number that
is a binary fraction itself.  `Monitor.follows_push` slides a window along the history, and
`Monitor.snapshot_of_fits` views all windows.
-/

namespace BatchRun

open Number
open Number.Binary64

section Rank

variable {samples : Nat}

/-- Exponent of the number 95/100. -/
def shareExponent : Nat := 1021

/-- The number 95/100 is a little too small. -/
theorem share_eq :
    ∃ rank : Fin (infiniteRank + 1), Binary64.ofRatio 95 100 = .signed false rank ∧
      rank.val < infiniteRank ∧ unitsOfRank rank.val = 8556839292003942 * 2 ^ shareExponent := by
  have hexponent : shareExponent = 1021 := rfl
  refine ⟨⟨4606732058837280358, by decide +kernel⟩, by decide +kernel, by decide +kernel, ?_⟩
  rw [← Nat.pow_eq, hexponent]
  decide +kernel

/-- Nearest rank of the 95th percentile, without rounding. -/
theorem highRank_eq
    (some : 1 ≤ samples)
    (few : samples ≤ 2 ^ 32) :
    highRank samples = (19 * samples + 19) / 20 := by
  obtain ⟨share, hshare, hfinite, hunits⟩ := share_eq
  have hsize : binadeSize = 4503599627370496 := rfl
  have hshort : samples < 2 * binadeSize := by omega
  generalize hrank : (19 * samples + 19) / 20 = rank
  have hbounds : 19 * samples ≤ 20 * rank ∧ 20 * rank ≤ 19 * samples + 19 := by omega
  have hexponent : exponentOfOne = shareExponent + 53 := rfl
  have hone : unitsPerOne = 9007199254740992 * 2 ^ shareExponent := by
    rw [unitsPerOne_eq, hexponent, Nat.pow_add, Nat.mul_comm]
  have hlowBound : 32 * (rank - 1) + 1 < 2 * binadeSize := by omega
  have hhighBound : rank < 2 * binadeSize := by omega
  obtain ⟨low, hlow, hlowUnits⟩ := exists_rank hlowBound (show shareExponent + 48 ≤ _ by decide)
  obtain ⟨high, hhigh, hhighUnits⟩ := exists_rank hhighBound (show shareExponent + 53 ≤ _ by decide)
  have hproduct : samples * unitsOfRank share.val
      = samples * 8556839292003942 * 2 ^ shareExponent := by
    rw [hunits, Nat.mul_assoc]
  have hpos : 0 < 2 ^ shareExponent := Nat.two_pow_pos _
  -- The product lies between two magnitudes, the upper one of which is the rank.
  have hge : low ≤ roundRank (samples * unitsOfRank share.val) 1 := by
    refine le_roundRank (Nat.le_of_lt hlow) Nat.one_pos ?_
    rw [Nat.mul_one, hlowUnits, hproduct, Nat.pow_add, Nat.mul_comm (2 ^ shareExponent),
      ← Nat.mul_assoc]
    exact Nat.mul_le_mul_right _ (by omega)
  have hle : roundRank (samples * unitsOfRank share.val) 1 ≤ high := by
    refine roundRank_le (Nat.le_of_lt hhigh) Nat.one_pos ?_
    rw [Nat.mul_one, hhighUnits, hproduct, Nat.pow_add, Nat.mul_comm (2 ^ shareExponent),
      ← Nat.mul_assoc]
    exact Nat.mul_le_mul_right _ (by omega)
  have hceil : (Binary64.ofNat samples * Binary64.ofRatio 95 100).ceilWithin (Nat.pow 2 64 - 1)
      = rank := by
    rw [hshare, ofNat_mul hshort hfinite, round_eq]
    refine ceilWithin_of_bounds (Nat.lt_of_le_of_lt hle hhigh) ?_ ?_ ?_
    · refine Nat.lt_of_lt_of_le ?_ (unitsOfRank_mono (roundRank_le_infiniteRank _ _) hge)
      rw [hlowUnits, hone, Nat.pow_add, Nat.mul_comm (2 ^ shareExponent), ← Nat.mul_assoc,
        ← Nat.mul_assoc]
      exact Nat.mul_lt_mul_of_pos_right (by omega) hpos
    · refine Nat.le_trans (unitsOfRank_mono (Nat.le_of_lt hhigh) hle) ?_
      rw [hhighUnits, hone, Nat.pow_add, Nat.mul_comm (2 ^ shareExponent)]
    · have hword : Nat.pow 2 64 - 1 = 18446744073709551615 := rfl
      omega
  unfold highRank
  dsimp only
  rw [hceil]
  omega

end Rank

/-- What the view of a window says of it. -/
structure Summary.Describes (settings : HealthSettings) (window : List Sample)
    (summary : Summary) : Prop where
  samples : summary.samples = window.length
  successRate : summary.successRate =
    .ofRatio (window.countP Sample.succeeded) window.length
  meanLatency : summary.meanLatency = (window.map Sample.latency).sum / window.length
  /-- The latency at the nearest rank of the 95th percentile. -/
  highLatency : ∀ latencies : List Nat, latencies.Perm (window.map Sample.latency) →
    latencies.Pairwise (· ≤ ·) →
    latencies[(19 * window.length + 19) / 20 - 1]? = some summary.highLatency
  verdict : summary.verdict =
    if window.length < settings.minSamples ∨
        settings.healthyThreshold.le summary.successRate = true then .healthy
    else if settings.degradedThreshold.le summary.successRate = true then .degraded
    else .unhealthy

section Windows

variable {settings : HealthSettings} {window : List Sample}

theorem pairwise_mergeSort_latency
    (window : List Sample) :
    ((window.map Sample.latency).mergeSort).Pairwise (· ≤ ·) := by
  let le : Nat → Nat → Bool := fun a b => a ≤ b
  have htrans : ∀ a b c, le a b = true → le b c = true → le a c = true := by
    intro a b c hab hbc
    exact decide_eq_true (Nat.le_trans (of_decide_eq_true hab) (of_decide_eq_true hbc))
  have htotal : ∀ a b, (le a b || le b a) = true := by
    intro a b
    simpa [le] using Nat.le_total a b
  exact (List.pairwise_mergeSort htrans htotal (window.map Sample.latency)).imp of_decide_eq_true

theorem total_eq
    (window : List Sample) :
    (window.map Sample.latency).mergeSort.foldr (· + ·) 0 = (window.map Sample.latency).sum :=
  (List.mergeSort_perm _ _).sum_nat

/-- A window with samples, whose latencies fit in 64 bits together, is described by its view. -/
theorem describes_of_window
    (some : window ≠ [])
    (few : window.length ≤ 2 ^ 32)
    (fits : (window.map Sample.latency).sum < Nat.pow 2 64) :
    ∃ summary, summarize settings window = .ok summary ∧ summary.Describes settings window := by
  have hlength : 1 ≤ window.length := List.length_pos_iff.mpr some
  have hsize : binadeSize = 4503599627370496 := rfl
  have hcount : window.countP Sample.succeeded ≤ window.length := List.countP_le_length
  have hrate : Binary64.ofNat (window.countP Sample.succeeded) / Binary64.ofNat window.length
      = .ofRatio (window.countP Sample.succeeded) window.length :=
    ofNat_div_ofNat (by omega) (by omega) hlength
  unfold summarize
  simp only [total_eq, if_neg (Nat.not_le.mpr fits)]
  refine ⟨_, rfl, rfl, ?_, rfl, fun latencies hperm hsorted => ?_, ?_⟩
  · rw [if_neg (Nat.ne_of_gt hlength), hrate]
  · have hsame : latencies = (window.map Sample.latency).mergeSort :=
      (hperm.trans (List.mergeSort_perm _ _).symm).eq_of_pairwise
        (fun _ _ _ _ => Nat.le_antisymm) hsorted (pairwise_mergeSort_latency window)
    have hin : (19 * window.length + 19) / 20 - 1
        < (window.map Sample.latency).mergeSort.length := by
      rw [List.length_mergeSort, List.length_map]
      omega
    rw [hsame, highRank_eq hlength few, List.getD_eq_getElem?_getD,
      List.getElem?_eq_getElem hin, Option.getD_some]
  · simp only [HealthSettings.judge, Bool.or_eq_true, decide_eq_true_eq]

theorem length_rtake
    {α : Type*}
    (list : List α)
    (count : Nat) :
    (list.rtake count).length = min list.length count := by
  unfold List.rtake
  rw [List.length_drop]
  omega

/-- A window slides along a list that grows: it holds the last elements. -/
theorem slide_rtake
    (samples : List Sample)
    (sample : Sample) :
    Monitor.slide settings (samples.rtake settings.capacity) sample =
      (samples ++ [sample]).rtake settings.capacity := by
  have hpos : 1 ≤ settings.capacity := Nat.le_max_right _ _
  unfold Monitor.slide List.rtake
  simp only [List.length_drop, List.length_append, List.length_singleton]
  split
  case isTrue full =>
      rw [List.drop_drop, List.drop_append_of_le_length (by omega)]
      congr 2
      omega
  case isFalse short =>
      rw [List.drop_append_of_le_length (by omega)]
      congr 2
      omega

end Windows

/-- Samples of a destination among those of all destinations. -/
def samplesOf (key : String) (history : List (String × Sample)) : List Sample :=
  (history.filter fun entry => entry.1 == key).map Prod.snd

theorem samplesOf_append
    (key : String)
    (history other : List (String × Sample)) :
    samplesOf key (history ++ other) = samplesOf key history ++ samplesOf key other := by
  simp [samplesOf]

theorem samplesOf_eq_nil
    {key : String} {history : List (String × Sample)} :
    samplesOf key history = [] ↔ ∀ entry ∈ history, entry.1 ≠ key := by
  unfold samplesOf
  rw [List.map_eq_nil_iff, List.filter_eq_nil_iff]
  simp

namespace Monitor

/-- A monitor holds the last samples of each destination in a history. -/
structure Follows (history : List (String × Sample)) (monitor : Monitor) : Prop where
  ascending : Keyed.Ascending (monitor.windows.map Prod.fst)
  window : ∀ key window, Keyed.find? monitor.windows key = some window →
    window = (samplesOf key history).rtake monitor.settings.capacity
  known : ∀ key, samplesOf key history ≠ [] → (Keyed.find? monitor.windows key).isSome = true

section Follows

variable {monitor next : Monitor} {history : List (String × Sample)} {key : String}

theorem follows_new
    (settings : HealthSettings) :
    Follows [] { settings } where
  ascending := .nil
  window _ _ h := by cases h
  known _ h := absurd rfl h

theorem find?_of_follows
    (follows : Follows history monitor)
    (key : String) :
    (Keyed.find? monitor.windows key).getD [] =
      (samplesOf key history).rtake monitor.settings.capacity := by
  cases hfind : Keyed.find? monitor.windows key with
  | some window => exact follows.window key window hfind
  | none =>
      have hnone : samplesOf key history = [] := by
        by_contra h
        have hknown := follows.known key h
        rw [hfind] at hknown
        cases hknown
      simp [hnone, List.rtake]

/-- A window that is opened is empty, as nothing was recorded for its destination. -/
theorem follows_opened
    (follows : Follows history monitor)
    (h : monitor.opened key = .ok next) :
    Follows history next := by
  unfold opened at h
  split at h
  case h_1 =>
      cases h
      exact follows
  case h_2 hfind =>
      split at h
      case isTrue => cases h
      case isFalse =>
          cases h
          have hempty := find?_of_follows follows key
          rw [hfind, Option.getD_none] at hempty
          refine ⟨Keyed.ascending_insert follows.ascending, fun other window hother => ?_,
            fun other hsome => ?_⟩
          · by_cases hkey : other = key
            · subst hkey
              rw [Keyed.find?_insert_self] at hother
              cases hother
              exact hempty
            · rw [Keyed.find?_insert_ne hkey] at hother
              exact follows.window other window hother
          · by_cases hkey : other = key
            · subst hkey
              rw [Keyed.find?_insert_self]
              rfl
            · rw [Keyed.find?_insert_ne hkey]
              exact follows.known other hsome

/-- A sample goes into the window of its destination alone. -/
theorem follows_push
    (follows : Follows history monitor)
    (key : String)
    (sample : Sample) :
    Follows (history ++ [(key, sample)]) (monitor.push key sample) := by
  have hself : samplesOf key [(key, sample)] = [sample] := by
    simp [samplesOf]
  have hother : ∀ other, other ≠ key → samplesOf other [(key, sample)] = [] := by
    intro other hne
    simp [samplesOf, Ne.symm hne]
  have hslide : slide monitor.settings ((samplesOf key history).rtake monitor.settings.capacity) sample
      = (samplesOf key history ++ [sample]).rtake monitor.settings.capacity := slide_rtake _ _
  unfold push
  refine ⟨Keyed.ascending_insert follows.ascending, fun other window hfind => ?_,
    fun other hsome => ?_⟩
  · rw [samplesOf_append]
    by_cases hkey : other = key
    · subst hkey
      rw [Keyed.find?_insert_self, find?_of_follows follows, hslide] at hfind
      cases hfind
      rw [hself]
    · rw [Keyed.find?_insert_ne hkey] at hfind
      rw [hother other hkey, List.append_nil]
      exact follows.window other window hfind
  · by_cases hkey : other = key
    · subst hkey
      rw [Keyed.find?_insert_self]
      rfl
    · rw [samplesOf_append, hother other hkey, List.append_nil] at hsome
      rw [Keyed.find?_insert_ne hkey]
      exact follows.known other hsome

theorem summary?_of_find?
    {window : List Sample}
    (h : Keyed.find? monitor.windows key = some window) :
    monitor.summary? key = (summarize monitor.settings window).map some := by
  unfold summary?
  rw [h]

theorem summary?_eq_none :
    monitor.summary? key = .ok none ↔ Keyed.find? monitor.windows key = none := by
  cases hfind : Keyed.find? monitor.windows key with
  | none => simp [summary?, hfind]
  | some window =>
      rw [summary?_of_find? hfind]
      cases summarize monitor.settings window <;> simp [Except.map]

end Follows

section Snapshots

variable {monitor : Monitor}

theorem summarize_of_fits
    {settings : HealthSettings} {window : List Sample}
    (fits : (window.map Sample.latency).sum < Nat.pow 2 64) :
    ∃ summary, summarize settings window = .ok summary := by
  unfold summarize
  simp only [total_eq]
  exact ⟨_, if_neg (Nat.not_le.mpr fits)⟩

/-- A snapshot shows the destinations with their views, and no others. -/
structure Shows (monitor : Monitor) (views : List (String × Summary)) : Prop where
  ascending : Keyed.Ascending (views.map Prod.fst)
  view : ∀ key, monitor.summary? key = .ok (Keyed.find? views key)

theorem snapshot_of_fits
    (ascending : Keyed.Ascending (monitor.windows.map Prod.fst))
    (fits : ∀ key window, Keyed.find? monitor.windows key = some window →
      (window.map Sample.latency).sum < Nat.pow 2 64) :
    ∃ views, monitor.snapshot = .ok views ∧ monitor.Shows views := by
  have hfits : ∀ entry ∈ monitor.windows,
      (entry.2.map Sample.latency).sum < Nat.pow 2 64 := fun entry hentry =>
    fits entry.1 entry.2 (Keyed.find?_of_mem ascending hentry)
  suffices hviews : ∃ views, monitor.snapshot = .ok views ∧
      views.map Prod.fst = monitor.windows.map Prod.fst ∧
      ∀ key, monitor.summary? key = .ok (Keyed.find? views key) by
    obtain ⟨views, hsnapshot, hkeys, hview⟩ := hviews
    exact ⟨views, hsnapshot, hkeys ▸ ascending, hview⟩
  unfold snapshot summary?
  generalize monitor.settings = settings
  generalize monitor.windows = windows at hfits
  induction windows with
  | nil => exact ⟨[], rfl, rfl, fun _ => rfl⟩
  | cons entry windows ih =>
      obtain ⟨summary, hsummary⟩ : ∃ summary, summarize settings entry.2 = .ok summary :=
        summarize_of_fits (hfits entry List.mem_cons_self)
      obtain ⟨views, hviews, hkeys, hview⟩ := ih fun other hother =>
        hfits other (List.mem_cons_of_mem entry hother)
      refine ⟨(entry.1, summary) :: views, ?_, by rw [List.map_cons, List.map_cons, hkeys],
        fun key => ?_⟩
      · rw [List.mapM_cons, hviews]
        simp [hsummary, Except.map]
        rfl
      · rw [Keyed.find?_cons, Keyed.find?_cons]
        by_cases hkey : entry.1 = key
        · rw [if_pos hkey, if_pos hkey]
          simp [hsummary, Except.map]
        · rw [if_neg hkey, if_neg hkey]
          exact hview key

end Snapshots

end Monitor

end BatchRun
