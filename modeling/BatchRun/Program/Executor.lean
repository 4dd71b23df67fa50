import BatchRun.Http.Exchange
import BatchRun.Output.Sink
import BatchRun.Run.Environment

/-!
# Executors of the program

**Types.**
An `Executor` gives payloads back or sends them to an endpoint.  A `Workspace` is what a run of the
program changes: its files, and what its checkpoint and its records remember of them.

**Result.**
`Executor.environment` is the environment of a run of the program, in which calls take no time.
-/

namespace BatchRun
namespace Program

open Http
open Run
open Storage

/-- What becomes of payloads. -/
inductive Executor where
  /-- They are given back. -/
  | echo
  /-- They are sent. -/
  | send (endpoint : Endpoint) (deliver : Request → Delivery)

/-- What a run of the program changes. -/
structure Workspace where
  tree : Tree
  sink : Sink
  store : CheckpointStore

/-- An item given back. -/
def echoed (item : Item) : Json := .object [("id", .string item.id), ("payload", item.payload)]

namespace Executor

/-- Reply to a call for an item, with a limit in nanoseconds. -/
def reply (executor : Executor) (limit : Nat) (item : Item) : Reply :=
  match executor with
  | echo => .value (echoed item)
  | send endpoint deliver =>
    match endpoint.attempt item.payload limit deliver with
    | .ok value => .value value
    | .error failure => .failure failure

/-- Environment of a run of the program. -/
def environment (executor : Executor) (limit : Nat) : Environment Workspace where
  call workspace item := (workspace, { reply := some (executor.reply limit item) })
  persist workspace item :=
    let (sink, tree, answer) := workspace.sink.persist workspace.tree item
    ({ workspace with sink, tree }, answer)
  save workspace entries now :=
    let (store, tree, fault) := workspace.store.appendAll workspace.tree entries now
    ({ workspace with store, tree }, fault)
  panics _ _ := none
  persistTurns := 3
  saveTurns := 5

end Executor

end Program
end BatchRun
