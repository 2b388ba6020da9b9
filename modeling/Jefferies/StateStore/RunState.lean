import Jefferies.Pipelines.Pipeline

/-!
# The stored state of a run

A run is stored as the status and the dependencies of every node, with the pipeline and a version. A value
stands for its JSON text, which every store writes and reads back whole.
-/

namespace Jefferies.StateStore

open Pipelines

inductive NodeStatus where
  | pending
  | running
  | success
  | failed
  deriving DecidableEq, Repr

structure RunState where
  version : Nat
  statuses : HashMap String NodeStatus
  dependencies : HashMap String (List String)
  pipeline : Pipeline

structure LeaseData where
  version : Nat
  serverId : String
  deriving DecidableEq

/-- The kinds of error, each with its text. -/
inductive StateStoreError where
  | redis (message : String)
  | pool (message : String)
  | serialization (message : String)
  | store (message : String)
  | runtime (message : String)
  deriving DecidableEq

/-- The status of a node is Success. -/
def succeeded (statuses : HashMap String NodeStatus) (node : String) : Bool :=
  statuses.lookup node = some .success

@[simp] theorem succeeded_eq_true {statuses : HashMap String NodeStatus} {node : String} :
    succeeded statuses node = true ↔ statuses.lookup node = some .success := by
  simp [succeeded]

/-- `has_dispatchable`: some node is Pending and all its dependencies are Success. -/
def hasDispatchable (state : RunState) : Bool :=
  decide (∃ node ∈ state.dependencies.keys, state.statuses.lookup node = some .pending ∧
    ((state.dependencies.lookup node).getD []).all (succeeded state.statuses))

def runStateIsTerminal (state : RunState) : Bool :=
  if state.statuses.anyValue (· = .running) then false else !hasDispatchable state

end Jefferies.StateStore
