import BatchRun.Program.Files
import Std.Time.DateTime.Timestamp

/-!
# Command line

Fetches the files that a call of the program depends on, calls it, and puts back the files that it
changed.  No request leaves the machine: every destination is out of reach.
-/

namespace BatchRun
namespace CommandLine

open Storage
open Text

/-- What lies at a path of the file system; what cannot be read as a file counts as a directory. -/
def nodeAt (path : Path) : IO (Option Node) := do
  try
    let bytes ← IO.FS.readBinFile path.text
    return some (.file bytes.data.toList)
  catch
    | .noFileOrDirectory .. => return none
    | _ => return some .directory

/-- Paths on the way to a path, and the path itself. -/
def waypoints (path : Path) : List Path :=
  let components := path.components
  (List.range components.length).map fun n => Path.ofComponents (components.take (n + 1))

/-- Files with what lies at a path and on the way to it. -/
def fetch (tree : Tree) (path : Path) : IO Tree :=
  (waypoints path).foldlM
    (fun tree path => do
      match path.place, ← nodeAt path with
      | [], _ => return tree
      | _, none => return tree
      | place, some node => return tree.put place node)
    tree

/-- Puts what lies at a path back, if it has changed. -/
def restore (before after : Tree) (path : Path) : IO Unit := do
  let node := after.node? path.place
  if node = before.node? path.place then return
  match node with
  | none => return
  | some .directory => IO.FS.createDirAll path.text
  | some (.file bytes) =>
    match path.parent? with
    | none => pure ()
    | some parent => unless parent.text.isEmpty do IO.FS.createDirAll parent.text
    IO.FS.writeBinFile path.text ⟨bytes.toArray⟩

/-- A new identifier of a job: random apart from its version and its variant. -/
def newJobId : IO JobId := do
  let time ← IO.rand 0 (Nat.pow 2 48 - 1)
  let middle ← IO.rand 0 (Nat.pow 2 12 - 1)
  let node ← IO.rand 0 (Nat.pow 2 62 - 1)
  return ⟨((time * 16 + 4) * Nat.pow 2 12 + middle) * Nat.pow 2 64 + Nat.pow 2 63 + node⟩

/-- Calls the program with arguments. -/
def run (arguments : List String) : IO Program.Ending := do
  let endpoint ← IO.getEnv Config.endpointVariable
  let tree ← (Program.configPaths arguments).foldlM fetch {}
  let paths := Program.workPaths tree arguments
  let tree ← paths.foldlM fetch tree
  let ending := Program.call
    { tree
      lookup := fun name => if name = Config.endpointVariable then endpoint else none
      deliver := fun _ => .unreachable
      now := (← Std.Time.Timestamp.now).toMillisecondsSinceUnixEpoch.val.toNat
      jobId := ← newJobId }
    arguments
  paths.forM (restore tree ending.tree)
  return ending

end CommandLine
end BatchRun

/-- The program. -/
def main (arguments : List String) : IO UInt32 := do
  let ending ← BatchRun.CommandLine.run arguments
  IO.print ending.output
  IO.eprint ending.errors
  return ending.code.toUInt32
