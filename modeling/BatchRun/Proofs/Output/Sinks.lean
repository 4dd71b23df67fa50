import BatchRun.Proofs.Json.OneLine
import BatchRun.Proofs.Output.Files
import BatchRun.Proofs.Storage.Path

/-!
# Sinks that are open

**Type.**
A `Debt` is what failed appends have left in a file: whole lines that the number of lines does not
count, and bytes behind the last line.  An open sink is `Ready` with the debts of its two files.

**Results.**
* `ready_openIn`: a sink that is opened has no debts.
* `persisted_of_ready`: a record that is persisted stands behind the bytes that were left, on a line
  whose number is higher by the lines that are not counted.
* `ready_torn`: what an append that fails adds to the debts.
-/

namespace BatchRun

open Number
open Storage
open Text

/-- Name of the file for the record of an item. -/
def Item.recordName (item : Item) : String :=
  if item.status = .failed then Sink.errorsName else Sink.resultsName

/-- The record of an item is on one line. -/
theorem Item.lineEnd_not_mem_recordLine
    (item : Item) :
    lineEnd ∉ item.recordLine :=
  Json.lineFeed_not_mem_compact item.record

/-- What failed appends have left in a file. -/
@[ext]
structure Debt where
  /-- Number of whole lines. -/
  whole : Nat := 0
  /-- Bytes behind the last line. -/
  left : Bytes := []
deriving DecidableEq

namespace Debt

/-- After an append of which only the first bytes have arrived. -/
def torn (debt : Debt) (line : Bytes) (count : Nat) : Debt :=
  if count ≤ line.length then { debt with left := debt.left ++ line.take count }
  else { whole := debt.whole + 1 }

/-- After a line that was added. -/
def settled (debt : Debt) : Debt := { debt with left := [] }

end Debt

namespace RecordFile

open BatchRun.Tree

section Filed

variable {directory : Path} {tree next : Tree} {file : RecordFile} {name : String} {debt : Debt}
  {line : Bytes}

/-- An open file with what failed appends have left in it. -/
structure Filed (directory : Path) (tree : Tree) (name : String) (debt : Debt)
    (file : RecordFile) : Prop where
  named : file.name = name
  located : file.path = directory.join ⟨name⟩
  held : ∃ bytes, tree.read (directory.join ⟨name⟩) = .ok bytes ∧
    (completeLines bytes).length = file.lines + debt.whole ∧ remainder bytes = debt.left

theorem filed_of_others
    (filed : Filed directory tree name debt file)
    (others : ∀ bytes, tree.read (directory.join ⟨name⟩) = .ok bytes →
      next.read (directory.join ⟨name⟩) = .ok bytes) :
    Filed directory next name debt file := by
  obtain ⟨bytes, hread, hheld⟩ := filed.held
  exact { filed with held := ⟨bytes, others bytes hread, hheld⟩ }

/-- A line that is added settles the bytes that were left. -/
theorem filed_written
    (filed : Filed directory tree name debt file)
    (plain : lineEnd ∉ line)
    (adds : Adds tree next (directory.join ⟨name⟩) (line ++ [lineEnd])) :
    Filed directory next name debt.settled { file with lines := file.lines + 1 } := by
  obtain ⟨bytes, hread, hlines, hleft⟩ := filed.held
  refine ⟨filed.named, filed.located, _, adds.file _ _ hread rfl, ?_, ?_⟩
  · simp [completeLines_written bytes plain, hlines, Debt.settled]
    omega
  · rw [← List.append_assoc, remainder_ended]
    rfl

/-- Bytes of an append that has failed are left behind the last line, or are a whole line. -/
theorem filed_torn
    {count : Nat}
    (filed : Filed directory tree name debt file)
    (plain : lineEnd ∉ line)
    (adds : Adds tree next (directory.join ⟨name⟩) (arrived line count)) :
    Filed directory next name (debt.torn line count) file := by
  obtain ⟨bytes, hread, hlines, hleft⟩ := filed.held
  refine ⟨filed.named, filed.located, _, adds.file _ _ hread rfl, ?_⟩
  unfold Debt.torn
  split
  case isTrue hpart =>
      have hplain : lineEnd ∉ line.take count := fun h => plain (List.mem_of_mem_take h)
      rw [arrived_of_le hpart, completeLines_torn bytes hplain, remainder_torn bytes hplain, hleft]
      exact ⟨hlines, rfl⟩
  case isFalse hall =>
      rw [arrived_of_lt (Nat.lt_of_not_le hall), completeLines_written bytes plain]
      rw [← List.append_assoc, remainder_ended]
      simp [hlines]
      omega

/-- The line of a record that was added. -/
theorem line_written
    (filed : Filed directory tree name debt file)
    (plain : lineEnd ∉ line)
    (adds : Adds tree next (directory.join ⟨name⟩) (line ++ [lineEnd])) :
    ∃ bytes, next.read (directory.join ⟨name⟩) = .ok bytes ∧
      (completeLines bytes)[file.lines + debt.whole]? = some (debt.left ++ line) := by
  obtain ⟨bytes, hread, hlines, hleft⟩ := filed.held
  refine ⟨_, adds.file _ _ hread rfl, ?_⟩
  rw [completeLines_written bytes plain, ← hlines, hleft]
  exact List.getElem?_concat_length

end Filed

end RecordFile

namespace Sink

open RecordFile
open BatchRun.Tree

section Ready

variable {directory : Path} {tree next : Tree} {sink : Sink} {debts : String → Debt} {item : Item}

theorem fileName_results : Path.FileName resultsName :=
  ⟨by decide, by decide, by decide, by decide⟩

theorem fileName_errors : Path.FileName errorsName :=
  ⟨by decide, by decide, by decide, by decide⟩

/-- The files lie at different places. -/
theorem place_ne
    (directory : Path) :
    (directory.join ⟨resultsName⟩).place ≠ (directory.join ⟨errorsName⟩).place :=
  Path.place_join_ne directory fileName_results fileName_errors (by decide)

/-- An open sink with what failed appends have left in its files. -/
structure Ready (directory : Path) (tree : Tree) (debts : String → Debt) (sink : Sink) : Prop where
  results : Filed directory tree resultsName (debts resultsName) sink.results
  errors : Filed directory tree errorsName (debts errorsName) sink.errors

/-- File for the record of an item. -/
def fileOf (sink : Sink) (item : Item) : RecordFile :=
  if item.status = .failed then sink.errors else sink.results

/-- The sink with another file for the record of an item. -/
def withFile (sink : Sink) (item : Item) (file : RecordFile) : Sink :=
  if item.status = .failed then { sink with errors := file } else { sink with results := file }

theorem persist_eq
    (sink : Sink)
    (tree : Tree)
    (item : Item) :
    sink.persist tree item =
      (sink.withFile item ((sink.fileOf item).append tree item.recordLine).1,
        ((sink.fileOf item).append tree item.recordLine).2) := by
  unfold persist withFile fileOf
  split <;> rfl

theorem withFile_fileOf
    (sink : Sink)
    (item : Item) :
    sink.withFile item (sink.fileOf item) = sink := by
  unfold withFile fileOf
  split <;> rfl

theorem fileOf_of_recordName
    {other : Item}
    (sink : Sink)
    (h : item.recordName = other.recordName) :
    sink.fileOf item = sink.fileOf other := by
  unfold Item.recordName at h
  unfold fileOf
  split at h <;> split at h
  case isTrue.isTrue hfirst hsecond => rw [if_pos hfirst, if_pos hsecond]
  case isFalse.isFalse hfirst hsecond => rw [if_neg hfirst, if_neg hsecond]
  all_goals exact absurd h (by decide)

theorem filed_fileOf
    (ready : Ready directory tree debts sink)
    (item : Item) :
    Filed directory tree item.recordName (debts item.recordName) (sink.fileOf item) := by
  unfold Item.recordName fileOf
  split
  case isTrue => exact ready.errors
  case isFalse => exact ready.results

/-- Debts of which those of one file have changed. -/
def change (debts : String → Debt) (name : String) (debt : Debt) : String → Debt :=
  fun other => if name = other then debt else debts other

/-- A change of the file for an item leaves the other one. -/
theorem ready_withFile
    {debt : Debt} {file : RecordFile}
    (ready : Ready directory tree debts sink)
    (others : ∀ other bytes, tree.read other = .ok bytes →
      other.place ≠ (directory.join ⟨item.recordName⟩).place → next.read other = .ok bytes)
    (filed : Filed directory next item.recordName debt file) :
    Ready directory next (change debts item.recordName debt) (sink.withFile item file) := by
  have hne := place_ne directory
  by_cases hfailed : item.status = .failed
  · have hname : item.recordName = errorsName := if_pos hfailed
    have hsink : sink.withFile item file = { sink with errors := file } := if_pos hfailed
    rw [hname] at others filed
    rw [hname, hsink]
    exact ⟨filed_of_others ready.results fun bytes h => others _ bytes h hne, filed⟩
  · have hname : item.recordName = resultsName := if_neg hfailed
    have hsink : sink.withFile item file = { sink with results := file } := if_neg hfailed
    rw [hname] at others filed
    rw [hname, hsink]
    exact ⟨filed, filed_of_others ready.errors fun bytes h => others _ bytes h hne.symm⟩

/-- What a record that was persisted leaves behind. -/
structure Persisted (directory : Path) (tree : Tree) (debts : String → Debt) (sink : Sink)
    (item : Item) (after : Sink) (next : Tree) : Prop where
  answer : sink.persist tree item =
    (after, next, .ok (item.recordName ++ ":" ++ natText ((sink.fileOf item).lines + 1)))
  ready : Ready directory next (change debts item.recordName (debts item.recordName).settled) after
  adds : Adds tree next (directory.join ⟨item.recordName⟩) (item.recordLine ++ [lineEnd])

/-- A record is persisted in an open sink. -/
theorem persisted_of_ready
    (ready : Ready directory tree debts sink)
    (item : Item) :
    ∃ after next, Persisted directory tree debts sink item after next := by
  have hfiled := filed_fileOf ready item
  obtain ⟨bytes, hread, -⟩ := hfiled.held
  rw [← hfiled.located] at hread
  obtain ⟨next, happend, hadds⟩ := append_eq_ok hread item.recordLine
  rw [hfiled.located] at hadds
  have hwritten := filed_written hfiled item.lineEnd_not_mem_recordLine hadds
  refine ⟨_, next, ?_, ready_withFile ready hadds.others hwritten, hadds⟩
  rw [persist_eq, happend, hfiled.named]

/-- An append that has failed adds to the debts. -/
theorem ready_torn
    {count : Nat}
    (ready : Ready directory tree debts sink)
    (h : tree.perform (.write (sink.fileOf item).path (arrived item.recordLine count)) = .ok next) :
    Ready directory next
      (change debts item.recordName ((debts item.recordName).torn item.recordLine count)) sink := by
  have hfiled := filed_fileOf ready item
  rw [hfiled.located] at h
  have hadds := adds_write h
  have htorn := filed_torn hfiled item.lineEnd_not_mem_recordLine hadds
  have hready := ready_withFile ready hadds.others htorn
  rwa [withFile_fileOf] at hready

end Ready

section Opening

variable {directory : Path} {tree next : Tree} {name : String} {answer : Except OutputFault Sink}

theorem keepsLines_opens
    {answer : Except OutputFault RecordFile}
    (h : Opens directory name tree next answer) :
    KeepsLines tree next := by
  cases h with
  | refused fault h =>
      rw [h]
      exact .refl tree
  | opened new lines h counted ended kept =>
      refine keepsLines_changeFile h fun bytes other hnode hother => ?_
      cases hother
      obtain ⟨found, -, hfind, -⟩ := changeFile_eq_ok.mp h
      have hfound : found = some (.file bytes) := by
        rw [← node?_of_find hfind, hnode]
      rw [hfound] at hfind
      exact kept bytes (read_eq_ok.mpr hfind) ▸ List.prefix_rfl

theorem filed_opens
    {file : RecordFile}
    (h : Opens directory name tree next (.ok file)) :
    Filed directory next name {} file := by
  cases h with
  | opened new lines h counted ended kept =>
      exact ⟨rfl, rfl, new, read_changeFile h, counted, ended⟩

theorem others_opens
    {answer : Except OutputFault RecordFile} {other : Path} {bytes : Bytes}
    (h : Opens directory name tree next answer)
    (hread : tree.read other = .ok bytes)
    (ne : other.place ≠ (directory.join ⟨name⟩).place) :
    next.read other = .ok bytes := by
  cases h with
  | refused fault h =>
      rw [h]
      exact hread
  | opened new lines h counted ended kept => exact read_changeFile_ne h hread ne

/-- A sink that is opened keeps all complete lines and has no debts. -/
theorem ready_openIn
    (h : openIn directory tree = (next, answer)) :
    KeepsLines tree next ∧ ∀ sink, answer = .ok sink → Ready directory next (fun _ => {}) sink := by
  unfold openIn at h
  split at h
  case h_1 hmade =>
      cases h
      exact ⟨keepsLines_makeDirectories hmade, nofun⟩
  case h_2 made hmade =>
      have hkept : KeepsLines tree made := keepsLines_makeDirectories hmade
      split at h
      case h_1 between fault hresults =>
          cases h
          exact ⟨hkept.trans (keepsLines_opens (opens_openIn hresults)), nofun⟩
      case h_2 between results hresults =>
          have hfirst := opens_openIn hresults
          have hmiddle := hkept.trans (keepsLines_opens hfirst)
          split at h
          case h_1 herrors =>
              cases h
              exact ⟨hmiddle.trans (keepsLines_opens (opens_openIn herrors)), nofun⟩
          case h_2 errors herrors =>
              cases h
              have hsecond := opens_openIn herrors
              refine ⟨hmiddle.trans (keepsLines_opens hsecond), ?_⟩
              rintro sink ⟨⟩
              refine ⟨filed_of_others (filed_opens hfirst) fun bytes hread => ?_,
                filed_opens hsecond⟩
              exact others_opens hsecond hread (place_ne directory)

end Opening

end Sink
end BatchRun
