import BatchRun.Storage.Path
import BatchRun.Storage.Fault

/-!
# Faults of outputs

**Type.**
`OutputFault` says which file of an output could not be written, and why.
-/

namespace BatchRun

open Storage

/-- Why a file was not written. -/
structure OutputFault where
  path : Path
  fault : Storage.Fault
deriving DecidableEq

/-- Wording of a fault. -/
def OutputFault.message (fault : OutputFault) : String :=
  "failed to persist result to " ++ fault.path.text ++ ": " ++ fault.fault.message

end BatchRun
