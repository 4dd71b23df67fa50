import BatchRun.Output.Report
import BatchRun.Proofs.Job.HealthDocument
import BatchRun.Proofs.Storage.Path
import BatchRun.Proofs.Storage.Tree

/-!
# Reports that are read back

**Type.**
What is read of the report on a monitor `Rereads` a snapshot of it: the same destinations with the
same views, but for the rates of successes that their texts do not keep.

**Results.**
* `read_of_writeReport`: a report that is written leaves the views of destinations in their file.
* `whole_fileText`: the text of that file is read.
* `readHealth_of_writeReport`: what is found there is the snapshot exactly if every rate is read
  back as it is.
-/

namespace BatchRun

open Json
open Number
open Number.Binary64
open Storage
open Text

section Files

variable {tree next : Tree} {path : Path} {bytes : Bytes}

theorem writeFiles_cons
    {commands : List Command} {files : List (Path × List Command)}
    (h : JobOutcome.writeFiles tree ((path, commands) :: files) = (next, none)) :
    ∃ between, tree.performAll commands = (between, none) ∧
      JobOutcome.writeFiles between files = (next, none) := by
  unfold JobOutcome.writeFiles JobOutcome.onBehalf at h
  cases hperform : tree.performAll commands with
  | mk between fault =>
      rw [hperform] at h
      cases fault with
      | none => exact ⟨between, rfl, h⟩
      | some fault => cases h

/-- A file that is rewritten has its new bytes. -/
theorem read_rewriting
    (h : tree.performAll (JobOutcome.rewriting path bytes) = (next, none)) :
    next.read path = .ok bytes := by
  obtain ⟨emptied, hcreate, hwrite⟩ := Tree.performAll_cons h
  have hempty : emptied.read path = .ok [] := Tree.read_changeFile hcreate
  rw [Tree.performAll_cons_ok (Tree.perform_write_eq_ok hempty)] at hwrite
  cases hwrite
  exact Tree.read_put_of_read hempty bytes

/-- Other files are left. -/
theorem read_rewriting_ne
    {other : Path} {old : Bytes}
    (h : tree.performAll (JobOutcome.rewriting path bytes) = (next, none))
    (hread : tree.read other = .ok old)
    (ne : other.place ≠ path.place) :
    next.read other = .ok old := by
  obtain ⟨emptied, hcreate, hwrite⟩ := Tree.performAll_cons h
  obtain ⟨written, hwritten, hend⟩ := Tree.performAll_cons hwrite
  cases hend
  exact Tree.read_changeFile_ne hwritten (Tree.read_changeFile_ne hcreate hread ne) ne

theorem fileName_health : Path.FileName healthName :=
  ⟨by decide, by decide, by decide, by decide⟩

theorem fileName_summary : Path.FileName summaryName :=
  ⟨by decide, by decide, by decide, by decide⟩

/-- A report that is written leaves the views of destinations in their file. -/
theorem read_of_writeReport
    {outcome : JobOutcome} {directory : Path}
    (h : outcome.writeReport directory tree = (next, none)) :
    next.read (directory.join ⟨healthName⟩) =
      .ok (snapshotDocument (outcome.health.getD [])).fileText := by
  obtain ⟨_, -, hfiles⟩ := writeFiles_cons h
  obtain ⟨_, hhealth, hfiles⟩ := writeFiles_cons hfiles
  obtain ⟨_, hsummary, hend⟩ := writeFiles_cons hfiles
  cases hend
  exact read_rewriting_ne hsummary (read_rewriting hhealth)
    (Path.place_join_ne directory fileName_health fileName_summary (by decide))

/-- The text of a file with a document that is accepted is read. -/
theorem whole_fileText
    {α : Type} {reader : Reader α} {doc : Json} {value : α}
    (h : Accepts reader doc value) :
    whole reader doc.fileText = .ok value := by
  have htext : doc.fileText = encoded (Spacing.pretty.chars 0 doc) ++ encoded ['\n'] := by
    rw [chars_pretty, ← encoded_append, Json.fileText, bytesOf_eq_encoded, pretty,
      String.toList_append, String.toList_ofList]
    rfl
  rw [htext]
  exact whole_append_of_accepts h .pretty 0 (allSpace_encoded (List.all_eq_true.mp rfl))

end Files

/-- What is read of the report on a monitor. -/
structure Snapshot.Rereads (settings : HealthSettings) (history : List (String × Sample))
    (snapshot found : Snapshot) : Prop where
  /-- Only rates of successes may become other numbers. -/
  reread : found = snapshot.reread
  same : found = snapshot ↔
    ∀ entry ∈ snapshot, entry.2.successRate.readBack = entry.2.successRate
  rates : ∀ entry ∈ snapshot, entry.2.Rereads (settings.latest entry.1 history)

section Monitors

variable {settings : HealthSettings} {samples : List (String × Sample)} {schedule : List Nat}
  {snapshot : Snapshot} {outcome : JobOutcome} {directory : Path} {tree next : Tree}

/-- The report on a monitor is read, whatever its calls have recorded and wherever they stand, and
what is found is the snapshot exactly if every rate is read back as it is. -/
theorem readHealth_of_writeReport
    (viewed : ((SharedMonitor.opened settings samples).run schedule).view.snapshot = .ok snapshot)
    (carried : outcome.health = some snapshot)
    (written : outcome.writeReport directory tree = (next, none)) :
    ∃ found, readHealth directory next = .ok found ∧
      Snapshot.Rereads settings ((SharedMonitor.opened settings samples).run schedule).history
        snapshot found := by
  have hascending := (SharedMonitor.tracks_of_run settings samples schedule).follows.ascending
  rw [Monitor.keys_of_snapshot viewed] at hascending
  have hwindow : ∀ entry ∈ snapshot, entry.2.Fitting ∧ entry.2.Rereads
      (settings.latest entry.1 ((SharedMonitor.opened settings samples).run schedule).history) := by
    intro entry hentry
    obtain ⟨window, hmem, hsummary⟩ := Monitor.window_of_snapshot viewed hentry
    obtain ⟨hlatest, hshort⟩ := SharedMonitor.window_of_run settings samples schedule hmem
    rw [← hlatest]
    exact ⟨fitting_of_summarize hsummary hshort, rereads_of_summarize hsummary hshort⟩
  have hread := read_of_writeReport written
  rw [carried, Option.getD_some] at hread
  have hwhole : whole (snapshotReader maxDepth) (snapshotDocument snapshot).fileText =
      .ok snapshot.reread :=
    whole_fileText (Snapshot.accepts_snapshot 125 hascending fun entry hentry =>
      (hwindow entry hentry).1)
  refine ⟨snapshot.reread, ?_, rfl, Snapshot.reread_eq_iff, fun entry hentry =>
    (hwindow entry hentry).2⟩
  unfold readHealth
  simp only [hread, hwhole]

/-- Ten calls that succeed and one that fails, for one destination. -/
def tenOfEleven : List (String × Sample) :=
  List.replicate 10 ("ep", ⟨true, 10⟩) ++ [("ep", ⟨false, 10⟩)]

/-- Each call comes to its end before the next one begins. -/
def oneByOne : List Nat := (List.range 11).flatMap fun number => [number, number, number]

/-- The view of the destination, with a rate of successes. -/
def viewOfEleven (rate : Binary64) : Snapshot := [("ep", ⟨.healthy, 11, rate, 10, 10⟩)]

/-- A job without items that carries the view. -/
def carriesView : JobOutcome :=
  { JobOutcome.ofItems {} "ep" [] ⟨0, 0⟩ ⟨0, 0⟩ with
    health := some (viewOfEleven (.ofRatio 10 11)) }

/-- The rate is written as 0.9090909090909091, and read as the number behind it. -/
theorem readHealth_of_tenOfEleven :
    ∃ next found,
      ((SharedMonitor.opened {} tenOfEleven).run oneByOne).view.snapshot =
          .ok (viewOfEleven (.ofRatio 10 11)) ∧
        carriesView.writeReport ⟨"out"⟩ {} = (next, none) ∧
        readHealth ⟨"out"⟩ next = .ok found ∧
        Snapshot.Rereads {} ((SharedMonitor.opened {} tenOfEleven).run oneByOne).history
          (viewOfEleven (.ofRatio 10 11)) found ∧
        (Binary64.ofRatio 10 11).text .document = "0.9090909090909091" ∧
        (Binary64.ofRatio 10 11).readBack.text .document = "0.9090909090909092" ∧
        found ≠ viewOfEleven (.ofRatio 10 11) := by
  have hwindows : ((SharedMonitor.opened {} tenOfEleven).run oneByOne).view.windows =
      [("ep", tenOfEleven.map Prod.snd)] := by decide +kernel
  have hsorted : ((tenOfEleven.map Prod.snd).map Sample.latency).mergeSort =
      List.replicate 11 10 := List.mergeSort_of_pairwise (by decide)
  have hsummary : summarize {} (tenOfEleven.map Prod.snd) =
      .ok ⟨.healthy, 11, .ofRatio 10 11, 10, 10⟩ := by
    unfold summarize
    rw [hsorted]
    decide +kernel
  have hviewed : ((SharedMonitor.opened {} tenOfEleven).run oneByOne).view.snapshot =
      .ok (viewOfEleven (.ofRatio 10 11)) := by
    have hsettings := SharedMonitor.settings_of_run {} tenOfEleven oneByOne
    generalize (SharedMonitor.opened {} tenOfEleven).run oneByOne = s at hwindows hsettings ⊢
    have hview : s.view.settings = {} := hsettings
    rw [Monitor.snapshot, hwindows, hview, List.mapM_cons]
    simp only [hsummary, Except.map]
    rfl
  have hnone : (carriesView.writeReport ⟨"out"⟩ {}).2 = none := by decide +kernel
  have hwritten : carriesView.writeReport ⟨"out"⟩ {} =
      ((carriesView.writeReport ⟨"out"⟩ {}).1, none) := Prod.ext rfl hnone
  have hother : (Binary64.ofRatio 10 11).readBack ≠ .ofRatio 10 11 := by decide +kernel
  obtain ⟨found, hfound, hrereads⟩ := readHealth_of_writeReport hviewed rfl hwritten
  refine ⟨_, found, hviewed, hwritten, hfound, hrereads, by decide +kernel, by decide +kernel,
    fun hsame => ?_⟩
  generalize Binary64.ofRatio 10 11 = rate at hother hrereads hsame
  exact hother (hrereads.same.mp hsame ("ep", ⟨.healthy, 11, rate, 10, 10⟩) List.mem_cons_self)

end Monitors

end BatchRun
