import BatchRun.Item.Document
import BatchRun.Output.Fault
import BatchRun.Storage.Tree

/-!
# Records of finished items

**Type.**
A `RecordFile` is a file with one record a line, and a `Sink` is the pair of such files in the
directory of an output: one for items that failed and one for all others.

**Locations.**
A record is told by the name of its file and the number of its line, counted from one over all
runs.  A last line that does not end is what a write that broke off has left; it is cut off when
the file is opened.
-/

namespace BatchRun

open Json
open Number
open Storage
open Text

/-- Record of a finished item. -/
def Item.record (item : Item) : Json :=
  let duplicateOf : Option Json :=
    match item.skipReason with
    | some (.duplicate firstId) => some (.string firstId)
    | _ => none
  .object
    ([("id", .string item.id), ("position", .nat item.position),
        ("status", .string item.status.name), ("attempts", .nat item.attempts),
        ("payload", item.payload)]
      ++ (if item.metadata.isEmpty then [] else [("metadata", .object item.metadata)])
      ++ optionalField "result" item.result
      ++ optionalField "error" (item.failure.map ItemFailure.document)
      ++ optionalField "duplicate_of" duplicateOf
      ++ [("duration_ms", .nat item.durationMillis)]
      ++ optionalField "finished_at" (item.finishedAt.map Time.Timestamp.document))

/-- End of a line. -/
def lineEnd : UInt8 := 10

/-- Line with the record of an item, without its end. -/
def Item.recordLine (item : Item) : Bytes := bytesOf item.record.compact

/-- A file with one record a line. -/
structure RecordFile where
  name : String
  path : Path
  /-- Number of lines in the file. -/
  lines : Nat
deriving DecidableEq

namespace RecordFile

/-- Number of complete lines. -/
def lineCount (bytes : Bytes) : Nat := bytes.countP (· == lineEnd)

/-- Number of bytes in complete lines. -/
def completeLength (bytes : Bytes) : Nat :=
  bytes.length - (bytes.reverse.takeWhile (· != lineEnd)).length

/-- Changes that cut off a last line without an end. -/
def mending (path : Path) (bytes : Bytes) : List Command :=
  if completeLength bytes = bytes.length then []
  else [.cut path (completeLength bytes), .sync path]

/-- Opens the file with some name in a directory. -/
def openIn (directory : Path) (name : String) (tree : Tree) :
    Tree × Except OutputFault RecordFile :=
  let path := directory.join ⟨name⟩
  let opened (lines : Nat) (commands : List Command) : Tree × Except OutputFault RecordFile :=
    match tree.performAll (commands ++ [.ensure path]) with
    | (tree, none) => (tree, .ok ⟨name, path, lines⟩)
    | (tree, some fault) => (tree, .error ⟨path, fault⟩)
  match tree.read path with
  | .ok bytes => opened (lineCount bytes) (mending path bytes)
  | .error .notFound => opened 0 []
  | .error fault => (tree, .error ⟨path, fault⟩)

/-- Changes that add a line. -/
def appending (path : Path) (line : Bytes) : List Command :=
  [.write path line, .write path [lineEnd], .sync path]

/-- Adds a line and gives its location. -/
def append (file : RecordFile) (tree : Tree) (line : Bytes) :
    RecordFile × Tree × Except OutputFault String :=
  match tree.performAll (appending file.path line) with
  | (tree, some fault) => (file, tree, .error ⟨file.path, fault⟩)
  | (tree, none) =>
    let lines := file.lines + 1
    ({ file with lines }, tree, .ok (file.name ++ ":" ++ natText lines))

end RecordFile

/-- Files for the records of an output. -/
structure Sink where
  results : RecordFile
  errors : RecordFile
deriving DecidableEq

namespace Sink

/-- Name of the file for items that did not fail. -/
def resultsName : String := "results.jsonl"

/-- Name of the file for items that failed. -/
def errorsName : String := "errors.jsonl"

/-- Opens the files in a directory, which is made if it is missing. -/
def openIn (directory : Path) (tree : Tree) : Tree × Except OutputFault Sink :=
  match tree.performAll [.makeDirectories directory] with
  | (tree, some fault) => (tree, .error ⟨directory, fault⟩)
  | (tree, none) =>
    match RecordFile.openIn directory resultsName tree with
    | (tree, .error fault) => (tree, .error fault)
    | (tree, .ok results) =>
      match RecordFile.openIn directory errorsName tree with
      | (tree, .error fault) => (tree, .error fault)
      | (tree, .ok errors) => (tree, .ok ⟨results, errors⟩)

/-- Writes the record of an item and gives its location. -/
def persist (sink : Sink) (tree : Tree) (item : Item) :
    Sink × Tree × Except OutputFault String :=
  if item.status = .failed then
    let (errors, tree, answer) := sink.errors.append tree item.recordLine
    ({ sink with errors }, tree, answer)
  else
    let (results, tree, answer) := sink.results.append tree item.recordLine
    ({ sink with results }, tree, answer)

end Sink

end BatchRun
