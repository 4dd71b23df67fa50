import BatchRun.Proofs.Checkpoint.Document
import BatchRun.Proofs.Storage.Tree

/-!
# Checkpoints that are written

**Results.**
* `read_of_written`: after a checkpoint has been written the file holds its text.
* `written_again`: where one checkpoint has been written any other one can be.
* `appendAll_eq_ok`: entries that are added are in the file and are remembered.
-/

namespace BatchRun

open Storage
open Text
open Time

namespace Checkpoint

variable {tree next : Tree} {path : Path} {checkpoint : Checkpoint}

/-- Changes that make the directory around a checkpoint. -/
def directoryCommands (path : Path) : List Command :=
  match path.parent? with
  | some parent => if parent.text.isEmpty then [] else [.makeDirectories parent]
  | none => []

theorem commands_eq
    (path : Path)
    (checkpoint : Checkpoint) :
    commands path checkpoint =
      directoryCommands path ++ Tree.replacing (draftPath path) path checkpoint.text :=
  rfl

/-- After a checkpoint has been written the file holds its text. -/
theorem read_of_written
    (h : tree.performAll (commands path checkpoint) = (next, none)) :
    next.read path = .ok checkpoint.text := by
  rw [commands_eq] at h
  obtain ⟨made, -, hreplace⟩ := Tree.performAll_append h
  exact Tree.read_replacing hreplace

theorem directoryCommands_cases
    (path : Path) :
    directoryCommands path = [] ∨
      ∃ parent, path.parent? = some parent ∧ directoryCommands path = [.makeDirectories parent] := by
  unfold directoryCommands
  split
  case h_1 parent hparent =>
      split
      case isTrue => exact .inl rfl
      case isFalse => exact .inr ⟨parent, hparent, rfl⟩
  case h_2 => exact .inl rfl

theorem directoryCommands_again
    {made : Tree}
    (h : tree.performAll (directoryCommands path) = (made, none))
    (keeps : Tree.KeepsDirectories made next) :
    next.performAll (directoryCommands path) = (next, none) := by
  rcases directoryCommands_cases path with hnone | ⟨parent, -, hone⟩
  · rw [hnone]
    rfl
  · rw [hone] at h ⊢
    obtain ⟨other, hmade, hend⟩ := Tree.performAll_cons h
    cases hend
    have hagain : next.perform (.makeDirectories parent) = .ok next :=
      Tree.perform_makeDirectories.mpr
        (Tree.makeDirectories_again (Tree.perform_makeDirectories.mp hmade) keeps)
    exact Tree.performAll_cons_ok hagain

/-- Where one checkpoint has been written any other one can be. -/
theorem written_again
    (h : tree.performAll (commands path checkpoint) = (next, none))
    (other : Checkpoint) :
    ∃ final, next.performAll (commands path other) = (final, none) := by
  rw [commands_eq] at h
  obtain ⟨made, hmade, hreplace⟩ := Tree.performAll_append h
  have hsame := Tree.sameDirectories_replacing hreplace
  have hagain := directoryCommands_again hmade fun place => (hsame place).mp
  obtain ⟨final, hfinal⟩ := Tree.replacing_again hsame hreplace other.text
  rw [commands_eq]
  exact ⟨final, Tree.performAll_append_ok hagain hfinal⟩

end Checkpoint

namespace CheckpointStore

variable {store next : CheckpointStore} {tree changed : Tree} {entries : List CheckpointEntry}
  {now : Timestamp}

theorem load_eq_ok
    {checkpoint : Checkpoint}
    (h : store.load tree = (next, .ok checkpoint)) :
    Checkpoint.read store.path tree = .ok checkpoint ∧ next = store.remember checkpoint := by
  unfold load at h
  split at h
  case h_1 hread =>
      cases h
      exact ⟨hread, rfl⟩
  case h_2 => cases h

/-- Entries that are added are written and remembered. -/
theorem appendAll_eq_ok
    (h : store.appendAll tree entries now = (next, changed, none))
    (filled : entries ≠ []) :
    ∃ old, store.current tree = .ok old ∧ next = store.remember (grown old entries now) ∧
      tree.performAll ((grown old entries now).commands store.path) = (changed, none) := by
  unfold appendAll at h
  split at h
  case isTrue hempty => exact absurd (List.isEmpty_iff.mp hempty) filled
  case isFalse =>
      split at h
      case h_1 => cases h
      case h_2 old hold =>
          simp only at h
          split at h
          case h_1 => cases h
          case h_2 hwritten =>
              cases h
              exact ⟨old, hold, rfl, hwritten⟩

theorem path_of_appendAll
    (h : store.appendAll tree entries now = (next, changed, none)) :
    next.path = store.path := by
  by_cases hempty : entries = []
  · subst hempty
    cases h
    rfl
  · obtain ⟨old, -, rfl, -⟩ := appendAll_eq_ok h hempty
    rfl

theorem appendAll_of_written
    {old : Checkpoint}
    (current : store.current tree = .ok old)
    (filled : entries ≠ [])
    (written : tree.performAll ((grown old entries now).commands store.path) = (changed, none)) :
    store.appendAll tree entries now = (store.remember (grown old entries now), changed, none) := by
  have hempty : ¬ entries.isEmpty = true := by simpa using filled
  unfold appendAll
  simp only [hempty, current, written]
  rfl

/-- What is in the file before entries are added is ordered. -/
theorem ordered_of_current
    {old : Checkpoint}
    (remembered : ∀ checkpoint, store.remembered = some checkpoint → checkpoint.Ordered)
    (h : store.current tree = .ok old) :
    old.Ordered := by
  unfold current at h
  split at h
  case h_1 hremembered =>
      cases h
      exact remembered old hremembered
  case h_2 => exact Checkpoint.ordered_of_read h

/-- The file holds what was written to it. -/
theorem read_of_grown
    {old : Checkpoint}
    (ordered : old.Ordered)
    (civil : now.Civil)
    (h : tree.performAll ((grown old entries now).commands store.path) = (changed, none)) :
    Checkpoint.read store.path changed = .ok (grown old entries now) :=
  Checkpoint.read_text (Checkpoint.storable_grown ordered entries civil)
    (Checkpoint.read_of_written h)

end CheckpointStore
end BatchRun
