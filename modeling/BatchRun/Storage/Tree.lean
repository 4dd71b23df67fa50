import BatchRun.Storage.Fault
import BatchRun.Storage.Path
import BatchRun.Text.Utf8

/-!
# Trees of files

**Type.**
A `Tree` is a directory with all that lies below it.  Each node has a place, the names on the way
to it, and is a file with its bytes or a directory.

**Commands.**
A `Command` is one change.  `Tree.perform` makes it or tells why it cannot be made, and
`Tree.performAll` makes one change after another up to the first that fails.

**Interruptions.**
A change that breaks off leaves the tree as it was, except that some of the bytes of a write may
have arrived and some of the directories may have been made: `Tree.Broken`.  `Tree.Interrupted`
relates a tree to all that a sequence of changes may leave behind when it breaks off anywhere.
-/

namespace BatchRun
namespace Storage

open Text

/-- What lies at a place. -/
inductive Node where
  | file (bytes : Bytes)
  | directory
deriving DecidableEq

/-- Names on the way from the top of a tree. -/
abbrev Place := List String

/-- Where a component leads to; a step up leaves the directory. -/
def Place.step (place : Place) : Component → Place
  | .name text => place ++ [text]
  | .up => place.dropLast
  | .root => place
  | .here => place

/-- One change of a tree. -/
inductive Command where
  /-- Makes a directory and those around it, as far as they are missing. -/
  | makeDirectories (path : Path)
  /-- Makes an empty file, or empties the one that is there. -/
  | create (path : Path)
  /-- Makes an empty file if there is none. -/
  | ensure (path : Path)
  /-- Writes bytes behind those of a file. -/
  | write (path : Path) (bytes : Bytes)
  /-- Cuts a file down to its first bytes. -/
  | cut (path : Path) (length : Nat)
  /-- Waits until a file is safe from crashes. -/
  | sync (path : Path)
  /-- Puts a file into the place of another one. -/
  | rename (source target : Path)

end Storage

open Storage
open Text

/-- Place that the components of a path lead to. -/
def Path.place (path : Path) : Place := path.components.foldl Place.step []

/-- A directory with all that lies below it. -/
structure Tree where
  nodes : List (Place × Node) := []
deriving DecidableEq

namespace Tree

/-- Node at a place; the top is a directory. -/
def node? (tree : Tree) : Place → Option Node
  | [] => some .directory
  | place => (tree.nodes.find? (fun node => node.1 == place)).map Prod.snd

/-- Tree with another node at a place. -/
def put (tree : Tree) (place : Place) (node : Node) : Tree :=
  if tree.nodes.any (fun old => old.1 == place) then
    ⟨tree.nodes.map fun old => if old.1 = place then (place, node) else old⟩
  else ⟨tree.nodes ++ [(place, node)]⟩

/-- Tree without the node at a place. -/
def remove (tree : Tree) (place : Place) : Tree :=
  ⟨tree.nodes.filter fun node => !(node.1 == place)⟩

/-- Why a path cannot be followed from a place: a directory on the way is missing or is a file. -/
def obstacle? (tree : Tree) (place : Place) : List Component → Option Fault
  | [] => none
  | [_] => none
  | component :: next :: components =>
    match tree.node? (place.step component) with
    | none => some .notFound
    | some (.file _) => some .notDirectory
    | some .directory => tree.obstacle? (place.step component) (next :: components)

/-- Node at a path, if the path can be followed; only a directory is found at a path that does not
end with a name. -/
def find (tree : Tree) (path : Path) : Except Fault (Option Node) :=
  if path.text.isEmpty then .error .notFound
  else
    match tree.obstacle? [] path.components with
    | some fault => .error fault
    | none =>
      match tree.node? path.place with
      | some .directory => .ok (some .directory)
      | found =>
        if path.ending = .name then .ok found
        else .error (if found = none then .notFound else .notDirectory)

/-- Bytes of the file at a path. -/
def read (tree : Tree) (path : Path) : Except Fault Bytes :=
  match tree.find path with
  | .error fault => .error fault
  | .ok none => .error .notFound
  | .ok (some .directory) => .error .isDirectory
  | .ok (some (.file bytes)) => .ok bytes

/-- Makes the directories that components lead to from a place, up to the first that cannot be
made; also gives the fault of that one. -/
def makeDirectories (tree : Tree) (place : Place) : List Component → Tree × Option Fault
  | [] => (tree, none)
  | component :: components =>
    match tree.node? (place.step component) with
    | some .directory => tree.makeDirectories (place.step component) components
    | some (.file _) =>
      (tree, some (if components.isEmpty then .alreadyExists else .notDirectory))
    | none =>
      (tree.put (place.step component) .directory).makeDirectories (place.step component) components

/-- Changes the bytes at a path; without `old` bytes there is no file yet. -/
def changeFile (tree : Tree) (path : Path) (change : (old : Option Bytes) → Except Fault Bytes) :
    Except Fault Tree := do
  let old ← match ← tree.find path with
    | none => pure none
    | some .directory => .error .isDirectory
    | some (.file bytes) => pure (some bytes)
  let bytes ← change old
  pure (tree.put path.place (.file bytes))

/-- Changes the bytes of a file that has to be there. -/
def changeOldFile (tree : Tree) (path : Path) (change : Bytes → Bytes) : Except Fault Tree :=
  tree.changeFile path fun old =>
    match old with
    | none => .error .notFound
    | some bytes => .ok (change bytes)

/-- Why no file can be put at a path that does not end with a name. -/
def misfit (tree : Tree) (path : Path) : Fault :=
  match tree.obstacle? [] path.components with
  | some fault => fault
  | none =>
    if path.ending = .slash then .notDirectory
    else
      match tree.find path with
      | .error fault => fault
      | .ok _ => .busy

/-- Makes one change. -/
def perform (tree : Tree) : Command → Except Fault Tree
  | .makeDirectories path =>
    match tree.makeDirectories [] path.components with
    | (tree, none) => .ok tree
    | (_, some fault) => .error fault
  | .create path => tree.changeFile path fun _ => .ok []
  | .ensure path => tree.changeFile path fun old => .ok (old.getD [])
  | .write path bytes => tree.changeOldFile path (· ++ bytes)
  | .cut path length => tree.changeOldFile path (·.take length)
  | .sync _ => .ok tree
  | .rename source target => do
    let bytes ← tree.read source
    if target.ending = .name then (tree.remove source.place).changeFile target fun _ => .ok bytes
    else .error (tree.misfit target)

/-- What a change that cannot be made leaves behind: the directories in front of the one that
cannot be made. -/
def leftover (tree : Tree) : Command → Tree
  | .makeDirectories path => (tree.makeDirectories [] path.components).1
  | _ => tree

/-- Makes changes up to the first that fails; also gives the fault of that one. -/
def performAll (tree : Tree) : List Command → Tree × Option Fault
  | [] => (tree, none)
  | command :: commands =>
    match tree.perform command with
    | .error fault => (tree.leftover command, some fault)
    | .ok tree => tree.performAll commands

/-- What one change may leave behind when it breaks off. -/
inductive Broken : Tree → Command → Tree → Prop
  | unchanged (tree : Tree) (command : Command) : Broken tree command tree
  | made (tree : Tree) (path : Path) (count : Nat) :
      Broken tree (.makeDirectories path)
        (tree.makeDirectories [] (path.components.take count)).1
  | written (tree : Tree) (path : Path) (bytes : Bytes) (count : Nat) (torn : Tree)
      (h : tree.perform (.write path (bytes.take count)) = .ok torn) :
      Broken tree (.write path bytes) torn

/-- What a sequence of changes may leave behind when it breaks off. -/
inductive Interrupted : Tree → List Command → Tree → Prop
  | done (tree : Tree) : Interrupted tree [] tree
  | here {tree torn : Tree} {command : Command} (commands : List Command)
      (h : Broken tree command torn) : Interrupted tree (command :: commands) torn
  | later {tree next torn : Tree} {command : Command} {commands : List Command}
      (h : tree.perform command = .ok next) (rest : Interrupted next commands torn) :
      Interrupted tree (command :: commands) torn

end Tree

end BatchRun
