import BatchRun.Config.Document
import BatchRun.Run.Fault

/-!
# Faults of the program

**Type.**
A `ProgramFault` is why the program gives up.

**Text.**
`ProgramFault.text` tells what could not be done, and below it the chain of what caused that.
Several causes are numbered.
-/

namespace BatchRun
namespace Program

open Number
open Run
open Storage

/-- Why the program gives up. -/
inductive ProgramFault where
  | config (fault : ConfigFault)
  | input (path : Path) (error : Input.InputError)
  | noEndpoint
  | output (fault : OutputFault)
  | run (fault : RunFault)
  | noCheckpoint (path : Path)
  | checkpoint (fault : CheckpointFault)
deriving DecidableEq

/-- Causes of an error in a source, the nearest one first. -/
def inputCauses (error : Input.InputError) : List String := error.cause?.toList

/-- Causes of a fault of a run, the nearest one first. -/
def runCauses : RunFault → List String
  | .input error => error.message :: inputCauses error
  | .checkpoint fault => (fault.cause?.map Storage.Fault.message).toList
  | .output fault => [fault.fault.message]
  | _ => []

/-- A text with further lines moved to the right. -/
def indented (margin text : String) : String :=
  ("\n" ++ margin).intercalate ((splitAt '\n' text.toList).map String.ofList)

/-- A number in front of a cause, to the right of a margin. -/
def numbered (n : Nat) : String :=
  let digits := natText n
  "".pushn ' ' (5 - digits.length) ++ digits ++ ": "

/-- Lines of causes. -/
def causeLines (causes : List String) : String :=
  match causes with
  | [] => ""
  | [cause] => "\n\nCaused by:\n    " ++ indented "    " cause
  | causes =>
    "\n\nCaused by:"
      ++ String.join ((causes.zip (List.range causes.length)).map fun (cause, n) =>
        "\n" ++ numbered n ++ indented "       " cause)

namespace ProgramFault

/-- What could not be done. -/
def message : ProgramFault → String
  | config fault => fault.message
  | input path _ => "failed to read input " ++ path.text
  | noEndpoint =>
    "no endpoint configured: pass --endpoint, set FANOUT_ENDPOINT or add "
      ++ Json.inAccents "endpoint" ++ " to fanout.toml"
  | output fault => fault.message
  | run fault => fault.message
  | noCheckpoint path => "checkpoint " ++ path.text ++ " does not exist"
  | checkpoint fault => fault.message

/-- What caused it, the nearest cause first. -/
def causes : ProgramFault → List String
  | config fault => (fault.cause?.map Storage.Fault.message).toList
  | input _ error => error.message :: inputCauses error
  | noEndpoint => []
  | output fault => [fault.fault.message]
  | run fault => runCauses fault
  | noCheckpoint _ => []
  | checkpoint fault => (fault.cause?.map Storage.Fault.message).toList

/-- Text of the fault with its causes. -/
def text (fault : ProgramFault) : String :=
  "Error: " ++ fault.message ++ causeLines fault.causes ++ "\n"

end ProgramFault

end Program
end BatchRun
