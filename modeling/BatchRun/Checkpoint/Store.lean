import BatchRun.Checkpoint.Document
import BatchRun.Storage.Tree
import BatchRun.Text.Blank

/-!
# Checkpoints in files

**Type.**
A `CheckpointStore` is bound to the path of a file and remembers what it last read or wrote there.

**Writing.**
A new checkpoint is written to another file beside the old one, which it then replaces, so that a
write that breaks off leaves the old checkpoint.

**Results.**
`CheckpointStore.load` reads the file.  `CheckpointStore.appendAll` adds entries to what is
remembered and writes all of it; if nothing is remembered it reads the file first.
-/

namespace BatchRun

open Storage
open Text
open Time

/-- Why a checkpoint was not read or written. -/
inductive CheckpointFault where
  | unreadable (path : Path) (fault : Storage.Fault)
  | malformed (path : Path) (description : String)
  | unwritable (path : Path) (fault : Storage.Fault)
deriving DecidableEq

namespace CheckpointFault

/-- Wording of a fault. -/
def message : CheckpointFault → String
  | unreadable path fault => "checkpoint " ++ path.text ++ " is unreadable: " ++ fault.message
  | malformed path description => "checkpoint " ++ path.text ++ " is unreadable: " ++ description
  | unwritable path fault => "failed to write checkpoint " ++ path.text ++ ": " ++ fault.message

/-- The fault behind one of writing. -/
def cause? : CheckpointFault → Option Storage.Fault
  | unwritable _ fault => some fault
  | _ => none

end CheckpointFault

namespace Checkpoint

/-- Checkpoint in the bytes of a file; a file of white space alone has an empty one. -/
def ofFile (path : Path) (bytes : Bytes) : Except CheckpointFault Checkpoint :=
  if bytes.all isBlankByte then .ok {}
  else
    match parse? bytes with
    | .ok checkpoint => .ok checkpoint
    | .error fault => .error (.malformed path (fault.describe bytes))

/-- Checkpoint in a file; a missing file has an empty one. -/
def read (path : Path) (tree : Tree) : Except CheckpointFault Checkpoint :=
  match tree.read path with
  | .ok bytes => ofFile path bytes
  | .error .notFound => .ok {}
  | .error fault => .error (.unreadable path fault)

/-- Path of the file in which a new checkpoint is prepared. -/
def draftPath (path : Path) : Path :=
  path.withFileName ((path.fileName?.getD "checkpoint") ++ ".tmp")

/-- Changes that replace a checkpoint. -/
def commands (path : Path) (checkpoint : Checkpoint) : List Command :=
  let draft := draftPath path
  (match path.parent? with
    | some parent => if parent.text.isEmpty then [] else [.makeDirectories parent]
    | none => [])
    ++ [.create draft, .write draft checkpoint.text, .sync draft, .rename draft path]

end Checkpoint

/-- A checkpoint in a file. -/
structure CheckpointStore where
  path : Path
  /-- What is in the file, once that is known. -/
  remembered : Option Checkpoint := none
deriving DecidableEq

namespace CheckpointStore

/-- Store that remembers a checkpoint. -/
def remember (store : CheckpointStore) (checkpoint : Checkpoint) : CheckpointStore :=
  { store with remembered := some checkpoint }

/-- Reads the checkpoint. -/
def load (store : CheckpointStore) (tree : Tree) :
    CheckpointStore × Except CheckpointFault Checkpoint :=
  match Checkpoint.read store.path tree with
  | .ok checkpoint => (store.remember checkpoint, .ok checkpoint)
  | .error fault => (store, .error fault)

/-- What is in the file: remembered, or read now. -/
def current (store : CheckpointStore) (tree : Tree) : Except CheckpointFault Checkpoint :=
  match store.remembered with
  | some checkpoint => .ok checkpoint
  | none => Checkpoint.read store.path tree

/-- Checkpoint with more entries, written at a time. -/
def grown (checkpoint : Checkpoint) (entries : List CheckpointEntry) (now : Timestamp) :
    Checkpoint :=
  { checkpoint.recordAll entries with savedAt := some now }

/-- Adds entries and writes the checkpoint.  After a fault the store remembers what was in the
file before. -/
def appendAll (store : CheckpointStore) (tree : Tree) (entries : List CheckpointEntry)
    (now : Timestamp) : CheckpointStore × Tree × Option CheckpointFault :=
  if entries.isEmpty then (store, tree, none)
  else
    match store.current tree with
    | .error fault => (store, tree, some fault)
    | .ok old =>
      let new := grown old entries now
      match tree.performAll (new.commands store.path) with
      | (tree, some fault) => (store.remember old, tree, some (.unwritable store.path fault))
      | (tree, none) => (store.remember new, tree, none)

end CheckpointStore

end BatchRun
