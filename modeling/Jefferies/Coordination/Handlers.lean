import Jefferies.Coordination.Effect

/-!
# Handlers of a coordinator

The methods of `Coordinator` below its select loop. A handler that returns `true` asks for the run to be
aborted.
-/

namespace Jefferies.Coordination

open Pipelines StateStore RunHistory Interaction Interact

namespace Coordinator

/-! ## Persisting and timers -/

def outcomeStatus (self : Coordinator) : RunStatus :=
  if self.run.statuses.allValues (· = .success) then .success else .failure

def failFastEnabled (self : Coordinator) : Bool :=
  self.pipeline.failFastOverride.getD self.config.defaultFailFast

def setRun (self : Coordinator) (run : PipelineRun) : Coordinator := { self with run := run }

def setVersion (self : Coordinator) (version : Nat) : Coordinator := { self with stateVersion := version }

def setTimer (self : Coordinator) (nodeName : String) (timer : PhaseTimer) : Coordinator :=
  { self with nodePhaseHandles := self.nodePhaseHandles.insert nodeName timer }

def removeTimer (self : Coordinator) (nodeName : String) : Coordinator :=
  { self with nodePhaseHandles := self.nodePhaseHandles.erase nodeName }

/-- A change of the run that reports whether it was one. -/
def mark (f : PipelineRun → Bool × PipelineRun) : Coord Bool :=
  modifyGet fun self => ((f self.run).1, self.setRun (f self.run).2)

def persistState : Coord (Except StateStoreError Unit) := do
  let self ← get
  let newVersion := self.stateVersion + 1
  let state := self.run.toRunState newVersion self.pipeline
  match ← call (.saveRun self.runId state self.stateVersion) with
  | .ok true => do
      modify fun self => self.setVersion newVersion
      return .ok ()
  | .ok false => return .error (.store ("Version fencing rejected save for run " ++ self.runId))
  | .error e => return .error e

def cancelNodeTimeout (nodeName : String) : Coord Unit := do
  let self ← get
  match self.nodePhaseHandles.lookup nodeName with
  | none => return ()
  | some timer => do
      modify fun self => self.removeTimer nodeName
      call (.abortTimer timer.handle)

def notifyWatcherOfDeletion (nodeName : String) : Coord Unit := do
  let self ← get
  if self.podWatcher then
    let _ ← call (.watcherCommand self.runId (.expectDeletion nodeName))
  else return ()

/-- Spawn a timer for the phase and put it in the node's place. -/
def armTimer (nodeName : String) (phase : TimerPhase) (secs : Nat) : Coord Unit := do
  let self ← get
  let handle ← call (.spawnTimer self.runId nodeName phase secs)
  modify fun self => self.setTimer nodeName ⟨phase, handle⟩

def spawnStartupTimeout (nodeName : String) (timeoutSecs : Nat) : Coord Unit :=
  armTimer nodeName .startup timeoutSecs

def spawnRuntimeTimeout (nodeName : String) (overrideSecs : Option Nat) : Coord Unit := do
  let self ← get
  armTimer nodeName .runtime (overrideSecs.getD self.config.defaultNodeTimeoutSecs)

def handlePodRunning (nodeName : String) : Coord Unit := do
  let self ← get
  if (self.nodePhaseHandles.lookup nodeName).any (·.phase = .runtime) then return ()
  let runtimeSecs := (self.nodeInfoCache.lookup nodeName).bind (·.timeoutSecs)
  cancelNodeTimeout nodeName
  spawnRuntimeTimeout nodeName runtimeSecs

/-! ## History -/

/-- The outcome of a node; an error counts as no outcome. -/
def fetchOutcome (runId nodeName : String) : Coord (Option NodeOutcome) := do
  match ← call (.getNodeOutcome runId nodeName) with
  | .ok outcome => return outcome
  | .error _ => return none

def fetchLog (runId nodeName : String) : Coord (Option String) := do
  match ← call (.getNodeLog runId nodeName) with
  | .ok log => return log
  | .error _ => return none

/-- `or_else`: the present moment, where nothing else is known and `wanted` holds. -/
def orNow (known : Option DateTime) (wanted : Bool) : Coord (Option DateTime) :=
  match known with
  | some t => return some t
  | none => if wanted then do return some (← call .utcNow) else return none

def recordNodeCompleted (nodeName : String) (failureReason : Option InfraFailureReason) : Coord Unit := do
  let self ← get
  let outcome ← fetchOutcome self.runId nodeName
  let completedAt ← orNow ((outcome.bind (·.finishedAt)).bind msToDatetime) failureReason.isSome
  let outputLog ← fetchLog self.runId nodeName
  let createdAt ← call .utcNow
  let _ ← call (.recordNodeRun {
    runId := self.runId
    nodeName := nodeName
    nodeDefinition := self.nodeInfoCache.lookup nodeName
    success := succeeded self.run.statuses nodeName
    createdAt := createdAt
    startedAt := (outcome.bind (·.startedAt)).bind msToDatetime
    completedAt := completedAt
    outputLog := outputLog
    failureReason := failureReason.map (·.stableCode) })

def recordDispatchFailed (nodeName error : String) : Coord Unit := do
  let self ← get
  let now ← call .utcNow
  let _ ← call (.recordNodeRun {
    runId := self.runId
    nodeName := nodeName
    nodeDefinition := self.nodeInfoCache.lookup nodeName
    success := false
    createdAt := now
    startedAt := none
    completedAt := some now
    outputLog := some ("Dispatch failed: " ++ error)
    failureReason := some (InfraFailureReason.dispatchFailed error).stableCode })

def recordNodeDispatched (nodeName : String) (node : NodeInfo) : Coord Unit := do
  let self ← get
  let createdAt ← call .utcNow
  let _ ← call (.recordNodeDispatched {
    runId := self.runId
    nodeName := nodeName
    nodeDefinition := some node
    createdAt := createdAt })

def recordRunningNodeTerminated (nodeName : String) : Coord Unit := do
  let self ← get
  let outcome ← fetchOutcome self.runId nodeName
  let completedAt ← orNow ((outcome.bind (·.finishedAt)).bind msToDatetime) true
  let outputLog ← fetchLog self.runId nodeName
  let createdAt ← call .utcNow
  let _ ← call (.recordNodeRun {
    runId := self.runId
    nodeName := nodeName
    nodeDefinition := self.nodeInfoCache.lookup nodeName
    success := (outcome.bind (·.success)).getD false
    createdAt := createdAt
    startedAt := (outcome.bind (·.startedAt)).bind msToDatetime
    completedAt := completedAt
    outputLog := outputLog
    failureReason := none })

def pipelineRunRecord (self : Coordinator) (status : RunStatus) (completedAt : DateTime) :
    PipelineRunRecord where
  runId := self.runId
  pipelineName := self.pipeline.name
  owner := self.runContext.owner
  repo := self.runContext.repo
  sha := self.runContext.sha
  branch := self.runContext.branch
  targetBranch := self.runContext.targetBranch
  tag := self.runContext.tag
  prNumber := self.runContext.prNumber
  trigger := self.runContext.trigger
  pipelineDefinition := self.runContext.pipelineYaml
  status := status
  createdAt := self.runContext.createdAt
  completedAt := some completedAt
  retryOf := self.runContext.retryOf
  tenantSlug := self.runContext.tenantSlug
  githubCheckRunId := self.runContext.githubCheckRunId

/-- The Running nodes, in the order in which one iteration over the statuses meets them. -/
def runningNodes : Coord (List String) := do
  let self ← get
  return (← call (.iterate (self.run.nodesWith (· = .running)))).1

def recordHistory (status : RunStatus) : Coord Unit := do
  (← runningNodes).forM fun nodeName => do
    recordRunningNodeTerminated nodeName
    let _ ← mark (·.markFailed nodeName)
  let self ← get
  let completedAt ← call .utcNow
  let _ ← call (.recordPipelineRun (self.pipelineRunRecord status completedAt))

def finalizeRun (status : RunStatus) : Coord Unit := do
  recordHistory status
  let self ← get
  if self.statusReporter then call (.reportCompleted self.runId status) else return ()

/-! ## The end of a run -/

def cleanup : Coord Unit := do
  let self ← get
  let _ ← call (.cleanupRun self.runId)
  let _ ← call (.releaseLease self.runId)
  let _ ← call (.deleteRun self.runId)

def shutdownPodWatcher : Coord Unit := do
  let self ← get
  if self.podWatcher then
    modify fun self => { self with podWatcher := false }
    let _ ← call (.watcherCommand self.runId .shutdown)
    call (.abortWatcher self.runId)
  else return ()

def summary (self : Coordinator) (status : RunStatus) : RunSummary := ⟨self.runId, status, self.run.statuses⟩

def buildSummary (status : RunStatus) : Coord RunSummary := do
  shutdownPodWatcher
  let self ← get
  return self.summary status

def terminateRunningNodes (status : RunStatus) : Coord RunSummary := do
  let self ← get
  (← call (.iterate self.nodePhaseHandles.keys)).1.forM cancelNodeTimeout
  (← runningNodes).forM fun nodeName => do
    notifyWatcherOfDeletion nodeName
    let self ← get
    let _ ← call (.cancelNode self.runId nodeName)
  shutdownPodWatcher
  let self ← get
  return self.summary status

/-! ## Dispatching -/

def persistStateAfterDispatchTransition : Coord Unit := do
  let _ ← persistState

/-- The body of the loop of `dispatchReadyNodes`. -/
def dispatchReadyNode (nodeName : String) : Coord Unit := do
  let self ← get
  match self.nodeInfoCache.lookup nodeName with
  | none => do
      let _ ← mark (·.markDispatchFailed nodeName)
      persistStateAfterDispatchTransition
      recordDispatchFailed nodeName "Node info not found in pipeline"
  | some node => do
      let startupSecs := node.startupTimeoutSecs.getD self.config.defaultNodeStartupTimeoutSecs
      match ← call (.dispatch self.runId self.runContext.runMetadata node self.pipeline) with
      | .ok () => do
          if ← mark (·.markRunning nodeName) then
            persistStateAfterDispatchTransition
            recordNodeDispatched nodeName node
            spawnStartupTimeout nodeName startupSecs
          else return ()
      | .error e => do
          let _ ← mark (·.markDispatchFailed nodeName)
          persistStateAfterDispatchTransition
          recordDispatchFailed nodeName e.toText

def dispatchReadyNodes : Coord Unit := do
  let self ← get
  (← call (.iterate self.run.readyNodes)).1.forM dispatchReadyNode

/-- What follows a recorded failure: the run is aborted, or it goes on. -/
def failFastOrDispatch : Coord Bool := do
  let self ← get
  if self.failFastEnabled then return true
  dispatchReadyNodes
  return false

/-! ## Failures and completions -/

def handleNodeInfraFailed (nodeName : String) (reason : InfraFailureReason) : Coord Bool := do
  let self ← get
  if (self.run.statuses.lookup nodeName).any fun s => s = .success || s = .failed then return false
  if !(← mark (·.markFailed nodeName)) then return false
  cancelNodeTimeout nodeName
  match ← persistState with
  | .error _ => return true
  | .ok () => do
      notifyWatcherOfDeletion nodeName
      let self ← get
      let _ ← call (.cancelNode self.runId nodeName)
      recordNodeCompleted nodeName (some reason)
      failFastOrDispatch

def handlePodStartTimedOut (nodeName : String) : Coord Bool :=
  handleNodeInfraFailed nodeName .podStartTimeout

def handleNodeTimedOut (nodeName : String) : Coord Bool := do
  if !(← mark (·.markFailed nodeName)) then return false
  match ← persistState with
  | .error _ => return true
  | .ok () => do
      notifyWatcherOfDeletion nodeName
      let self ← get
      let _ ← call (.cancelNode self.runId nodeName)
      recordNodeCompleted nodeName none
      failFastOrDispatch

def handleNodeCompleted (nodeName : String) (success : Bool) : Coord Bool := do
  if success then
    let _ ← mark (·.markSuccess nodeName)
    match ← persistState with
    | .error _ => return true
    | .ok () => do
        recordNodeCompleted nodeName none
        dispatchReadyNodes
        return false
  else
    let _ ← mark (·.markFailed nodeName)
    match ← persistState with
    | .error _ => return true
    | .ok () => do
        recordNodeCompleted nodeName none
        failFastOrDispatch

/-! ## Outcomes read from S3 -/

def isNonTerminal (s : NodeStatus) : Bool := s = .running || s = .pending

def readOutcomesForNonTerminal : Coord (HashMap String ReconcileResult) := do
  let self ← get
  let nodes := (← call (.iterate (self.run.nodesWith isNonTerminal))).1
  if nodes.isEmpty then return ∅
  return (← call (.readOutcomes self.runId nodes)).getD ∅

/-- The body of the loop of `foldCompletionsFromOutcomes`. -/
def foldCompletion (outcomes : HashMap String ReconcileResult) (nodeName : String) : Coord Bool := do
  match outcomes.lookup nodeName with
  | some (.completed success _ _) => do
      cancelNodeTimeout nodeName
      handleNodeCompleted nodeName success
  | _ => return false

def foldCompletionsFromOutcomes (outcomes : HashMap String ReconcileResult) : Coord Bool := do
  (← call (.iterate outcomes.keys)).1.anyM (foldCompletion outcomes)

/-- An outcome that shows a node started which the run has as Pending. -/
def isPromotable (run : PipelineRun) (outcomes : HashMap String ReconcileResult) (nodeName : String) : Bool :=
  match outcomes.lookup nodeName with
  | some (.inProgress _) => run.statuses.lookup nodeName = some .pending
  | _ => false

/-- The body of the loop of `promoteStartedPendingToRunning`. -/
def promoteNode (nodeName : String) : Coord Bool := do
  if !(← mark (·.markRunning nodeName)) then return false
  let _ ← persistState
  let self ← get
  match ← call (.nodePodExists self.runId nodeName) with
  | .ok true => return false
  | .ok false => handleNodeInfraFailed nodeName .podDeletedUnexpectedly
  | .error _ => return false

def promoteStartedPendingToRunning (outcomes : HashMap String ReconcileResult) : Coord Bool := do
  let self ← get
  let names ← call (.iterate outcomes.keys)
  (names.1.filter (isPromotable self.run outcomes)).anyM promoteNode

def reconcileRunningAgainstS3 : Coord Bool := do
  let outcomes ← readOutcomesForNonTerminal
  foldCompletionsFromOutcomes outcomes

/-- The timer of a Running node of which S3 shows no start: the startup timer from the time of its dispatch,
or else the runtime timer with its whole budget. -/
def rehydrateFromHistory (nodeName : String) (startupSecs runtimeSecs : Nat) : Coord Unit := do
  let self ← get
  match ← call (.getNodeRun self.runId nodeName) with
  | .ok (some row) => do
      let now ← call .utcNow
      let elapsedSecs := (max (now.numSecondsSince row.createdAt) 0).toNat
      spawnStartupTimeout nodeName (startupSecs - elapsedSecs)
  | _ => spawnRuntimeTimeout nodeName (some runtimeSecs)

/-- The body of the loop of `rehydratePhaseTimers`. -/
def rehydratePhaseTimer (nowMs : Nat) (outcomes : HashMap String ReconcileResult) (nodeName : String) :
    Coord Unit := do
  let self ← get
  let node := self.nodeInfoCache.lookup nodeName
  let runtimeSecs := (node.bind (·.timeoutSecs)).getD self.config.defaultNodeTimeoutSecs
  let startupSecs := (node.bind (·.startupTimeoutSecs)).getD self.config.defaultNodeStartupTimeoutSecs
  match outcomes.lookup nodeName with
  | some (.inProgress startedAtMs) =>
      let elapsedSecs := ((nowMs - startedAtMs) / 1000) % 2 ^ 64
      spawnRuntimeTimeout nodeName (some (runtimeSecs - elapsedSecs))
  | _ => rehydrateFromHistory nodeName startupSecs runtimeSecs

def rehydratePhaseTimers (outcomes : HashMap String ReconcileResult) : Coord Unit := do
  let nowMs ← call .systemTimeMs
  (← runningNodes).forM (rehydratePhaseTimer nowMs outcomes)

end Coordinator

end Jefferies.Coordination
