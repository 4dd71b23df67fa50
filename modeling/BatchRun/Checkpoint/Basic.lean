import BatchRun.Item.Basic
import BatchRun.Keyed
import BatchRun.Storage.Path

/-!
# Checkpoints

**Types.**
A `Checkpoint` lists the items that are finished, each with a `ResultPointer` to its record.

**Resuming.**
`Checkpoint.plan` splits items into those that an earlier run finished, which take over their
recorded status, and those that are still to be dispatched.
-/

namespace BatchRun

open Time

/-- Status of a finished item and the place of its record. -/
structure ResultPointer where
  status : Status
  location : Option String := none
deriving DecidableEq

/-- Finished items. -/
structure Checkpoint where
  version : Nat := 1
  /-- Ids of the finished items, ascending. -/
  completed : List String := []
  /-- Pointers by id, ascending. -/
  pointers : List (String × ResultPointer) := []
  savedAt : Option Timestamp := none
deriving DecidableEq

/-- A finished item with its pointer. -/
abbrev CheckpointEntry := String × ResultPointer

/-- Entry for a finished item. -/
def Item.checkpointEntry (item : Item) : CheckpointEntry := (item.id, ⟨item.status, item.location⟩)

/-- Items by whether an earlier run finished them, each part in the order of the source. -/
structure ResumePlan where
  restored : List Item
  pending : List Item

namespace Checkpoint

/-- Whether an item is finished. -/
def contains (checkpoint : Checkpoint) (id : String) : Bool := checkpoint.completed.contains id

/-- Pointer of an item. -/
def pointer? (checkpoint : Checkpoint) (id : String) : Option ResultPointer :=
  Keyed.find? checkpoint.pointers id

/-- Adds a finished item. -/
def record (checkpoint : Checkpoint) (entry : CheckpointEntry) : Checkpoint :=
  { checkpoint with
    pointers := Keyed.insert entry.1 entry.2 checkpoint.pointers
    completed := Keyed.insertKey entry.1 checkpoint.completed }

/-- Adds finished items in their order. -/
def recordAll (checkpoint : Checkpoint) (entries : List CheckpointEntry) : Checkpoint :=
  entries.foldl record checkpoint

@[simp] theorem recordAll_nil (checkpoint : Checkpoint) :
    checkpoint.recordAll [] = checkpoint := rfl

/-- A finished item with the status that was recorded; without a pointer it counts as skipped. -/
def restored (checkpoint : Checkpoint) (item : Item) (now : Timestamp) : Item :=
  match checkpoint.pointer? item.id with
  | some pointer => item.restore pointer.status pointer.location now
  | none => item.restore .skipped none now

/-- Splits items by whether they are finished. -/
def plan (checkpoint : Checkpoint) (items : List Item) (now : Timestamp) : ResumePlan where
  restored :=
    (items.filter fun item => checkpoint.contains item.id).map (checkpoint.restored · now)
  pending := items.filter fun item => !checkpoint.contains item.id

end Checkpoint

end BatchRun
