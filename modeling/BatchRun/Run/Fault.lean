import BatchRun.Checkpoint.Store
import BatchRun.Input.Error
import BatchRun.Job.Settings
import BatchRun.Output.Fault

/-!
# Faults of runs

**Type.**
`RunFault` lists what makes a whole run fail.  The failure of an item is no fault of its run.
-/

namespace BatchRun
namespace Run

/-- Why a run failed. -/
inductive RunFault where
  | settings (fault : SettingsFault)
  | input (error : Input.InputError)
  | checkpoint (fault : CheckpointFault)
  | output (fault : OutputFault)
  | move (rejected : RejectedMove)
  /-- The processing of an item broke off. -/
  | panicked (id message : String)
deriving DecidableEq

/-- Wording of a fault. -/
def RunFault.message : RunFault → String
  | settings fault => "invalid job configuration: " ++ fault.message
  | input error => "input error: " ++ error.message
  | checkpoint fault => fault.message
  | output fault => fault.message
  | move rejected => rejected.message
  | panicked id message => "item " ++ id ++ ": processing panicked: " ++ message

end Run
end BatchRun
