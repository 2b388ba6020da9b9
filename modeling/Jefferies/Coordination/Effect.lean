import Jefferies.Coordination.Message
import Jefferies.Coordination.Run
import Jefferies.Interaction.Program

/-!
# Coordinators and their calls

A coordinator is a record. What it does besides computing on that record is one of the calls below; the
services that answer them are the state store, the run history, the dispatcher, the backplane, the status
reporter and the runtime.
-/

namespace Jefferies.Coordination

open Pipelines StateStore RunHistory Interaction

inductive TimerPhase where
  | startup
  | runtime
  deriving DecidableEq

/-- A timer task, known by the handle of its task. -/
structure PhaseTimer where
  phase : TimerPhase
  handle : Nat
  deriving DecidableEq

/-- `podWatcher` says that the watcher's handles and its command channel are there; they come and go
together. -/
structure Coordinator where
  runId : String
  run : PipelineRun
  pipeline : Pipeline
  config : AppConfig
  nodeInfoCache : HashMap String NodeInfo
  nodePhaseHandles : HashMap String PhaseTimer
  stateVersion : Nat
  leaseVersion : Nat
  serverId : String
  runContext : RunContext
  statusReporter : Bool
  podWatcher : Bool
  isRehydrate : Bool

inductive Effect where
  -- the runtime
  | newUuid
  | utcNow
  | systemTimeMs
  | iterate (names : Finset String)
  | sleep (secs : Nat)
  | interval (secs : Nat)
  | spawnTimer (runId nodeName : String) (phase : TimerPhase) (secs : Nat)
  | abortTimer (handle : Nat)
  | spawnCoordinator (coordinator : Coordinator)
  | watcherCommand (runId : String) (command : WatcherCommand)
  | abortWatcher (runId : String)
  -- the state store
  | saveRun (runId : String) (state : RunState) (expectedVersion : Nat)
  | loadRun (runId : String)
  | deleteRun (runId : String)
  | tryAcquireLease (runId serverId : String) (ttlSecs : Nat)
  | renewLease (runId serverId : String) (leaseVersion ttlSecs : Nat)
  | releaseLease (runId : String)
  | stateKeys
  | leaseExists (runId : String)
  -- the run history
  | recordPipelineStarted (record : PipelineStartRecord)
  | recordPipelineRun (record : PipelineRunRecord)
  | finalizePipelineRunStatus (runId : String) (status : RunStatus) (completedAt : DateTime)
  | recordNodeDispatched (record : NodeDispatchRecord)
  | recordNodeRun (record : NodeRunRecord)
  | listInProgressRuns
  | getPipelineRun (runId : String)
  | listNodeRuns (runId : String)
  | getNodeRun (runId nodeName : String)
  -- the dispatcher
  | dispatch (runId : String) (metadata : RunMetadata) (node : NodeInfo) (pipeline : Pipeline)
  | cancelNode (runId nodeName : String)
  | cleanupRun (runId : String)
  | getNodeOutcome (runId nodeName : String)
  | readOutcomes (runId : String) (nodes : List String)
  | getNodeLog (runId nodeName : String)
  | nodePodExists (runId nodeName : String)
  | startPodWatcher (runId : String) (seedRunning : Finset String)
  | listManagedRunIds
  -- the backplane and the status reporter
  | subscribeRun (runId : String)
  | reporterForRun (context : RunContext)
  | reportCompleted (runId : String) (status : RunStatus)

/-- The names of a set in the order in which one iteration meets them. -/
abbrev Ordering (names : Finset String) : Type := { l : List String // l.Nodup ∧ l.toFinset = names }

/-- Some iteration meets the given names first. -/
theorem Ordering.exists_append (names : Finset String) (l : List String) (hl : l.Nodup)
    (hsub : ∀ n ∈ l, n ∈ names) : ∃ (order : Ordering names) (rest : List String), order.1 = l ++ rest := by
  refine ⟨⟨l ++ (names \ l.toFinset).toList, ?_, ?_⟩, _, rfl⟩
  · apply hl.append (Finset.nodup_toList _)
    intro n hn hrest
    simp [hn] at hrest
  · ext n
    simp only [List.toFinset_append, Finset.toList_toFinset, Finset.mem_union, List.mem_toFinset,
      Finset.mem_sdiff]
    constructor
    · rintro (hn | hn)
      · exact hsub n hn
      · exact hn.1
    · intro hn
      by_cases h : n ∈ l
      · exact .inl h
      · exact .inr ⟨hn, h⟩

/-- What a call is answered with. `readOutcomes` is answered with nothing when it takes longer than its
budget of seven seconds. -/
@[reducible] def Resp : Effect → Type
  | .newUuid => String
  | .utcNow => DateTime
  | .systemTimeMs => Nat
  | .iterate names => Ordering names
  | .sleep _ => Unit
  | .interval _ => Unit
  | .spawnTimer .. => Nat
  | .abortTimer _ => Unit
  | .spawnCoordinator _ => Unit
  | .watcherCommand .. => Bool
  | .abortWatcher _ => Unit
  | .saveRun .. => Except StateStoreError Bool
  | .loadRun _ => Except StateStoreError (Option RunState)
  | .deleteRun _ => Except StateStoreError Unit
  | .tryAcquireLease .. => Except StateStoreError (Option Nat)
  | .renewLease .. => Except StateStoreError Bool
  | .releaseLease _ => Except StateStoreError Unit
  | .stateKeys => Except StateStoreError (List String)
  | .leaseExists _ => Except StateStoreError Bool
  | .recordPipelineStarted _ => Except RunHistoryError Unit
  | .recordPipelineRun _ => Except RunHistoryError Unit
  | .finalizePipelineRunStatus .. => Except RunHistoryError Bool
  | .recordNodeDispatched _ => Except RunHistoryError Unit
  | .recordNodeRun _ => Except RunHistoryError Unit
  | .listInProgressRuns => Except RunHistoryError (List PipelineRunRow)
  | .getPipelineRun _ => Except RunHistoryError (Option PipelineRunRow)
  | .listNodeRuns _ => Except RunHistoryError (List NodeRunRow)
  | .getNodeRun .. => Except RunHistoryError (Option NodeRunRow)
  | .dispatch .. => Except DispatchError Unit
  | .cancelNode .. => Except DispatchError Unit
  | .cleanupRun _ => Except DispatchError Unit
  | .getNodeOutcome .. => Except DispatchError (Option NodeOutcome)
  | .readOutcomes .. => Option (HashMap String ReconcileResult)
  | .getNodeLog .. => Except DispatchError (Option String)
  | .nodePodExists .. => Except DispatchError Bool
  | .startPodWatcher .. => Bool
  | .listManagedRunIds => Except DispatchError (List String)
  | .subscribeRun _ => Except BackplaneError Unit
  | .reporterForRun _ => Bool
  | .reportCompleted .. => Unit

/-- Make the call `e`. -/
abbrev call {S : Type} (e : Effect) : Interact S Resp (Resp e) := Interact.perform e

/-- A computation of a coordinator. -/
abbrev Coord (α : Type) : Type := Interact Coordinator Resp α

/-- A computation of a task without state of its own. -/
abbrev Task (α : Type) : Type := Interact Unit Resp α

end Jefferies.Coordination
