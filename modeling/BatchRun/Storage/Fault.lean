/-!
# Faults of files

**Type.**
`Fault` lists why an operation on a file or a directory can fail, with the wording of the
operating system.
-/

namespace BatchRun
namespace Storage

/-- Why an operation failed. -/
inductive Fault where
  | notFound
  | alreadyExists
  | notDirectory
  | isDirectory
  | busy
  | notText
  | other (message : String)
deriving DecidableEq

/-- Wording of a fault. -/
def Fault.message : Fault → String
  | notFound => "No such file or directory (os error 2)"
  | alreadyExists => "File exists (os error 17)"
  | notDirectory => "Not a directory (os error 20)"
  | isDirectory => "Is a directory (os error 21)"
  | busy => "Device or resource busy (os error 16)"
  | notText => "stream did not contain valid UTF-8"
  | other message => message

end Storage
end BatchRun
