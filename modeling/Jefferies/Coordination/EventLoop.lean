import Jefferies.Coordination.Handlers

/-!
# Starting a coordinator and its select loop

`startCoordinator` is the task that takes the lease and spawns a coordinator. A coordinator first does all
that comes before its select loop; then it waits, and each event is handled on its own. It answers with
its summary where the run ends and with nothing where it goes on waiting.
-/

namespace Jefferies.Coordination

open Pipelines StateStore RunHistory Interaction Interact

namespace Coordinator

/-! ## How a run ends -/

def abortRun (status : RunStatus) : Coord (Option RunSummary) := do
  finalizeRun status
  cleanup
  return some (← terminateRunningNodes status)

def completeRun : Coord (Option RunSummary) := do
  let self ← get
  let status := self.outcomeStatus
  finalizeRun status
  cleanup
  return some (← buildSummary status)

/-- What follows a handler: the run is aborted where it asks for that, else completed or waited for. -/
def afterHandler (aborted : Bool) : Coord (Option RunSummary) := do
  if aborted then abortRun .failure
  else
    let self ← get
    if self.run.isComplete then completeRun else return none

/-! ## Before the loop -/

/-- The part from the subscription to the loop. -/
def subscribeAndDispatch : Coord (Option RunSummary) := do
  let self ← get
  match ← call (.subscribeRun self.runId) with
  | .error _ => return some (← buildSummary .failure)
  | .ok () => do
      call (.interval 15)
      call (.interval self.config.s3ReconcileIntervalSecs)
      dispatchReadyNodes
      afterHandler false

/-- The part that only a rehydrated coordinator goes through. -/
def rehydrate : Coord (Option RunSummary) := do
  let outcomes ← readOutcomesForNonTerminal
  if ← foldCompletionsFromOutcomes outcomes then abortRun .failure
  else if ← promoteStartedPendingToRunning outcomes then abortRun .failure
  else
    rehydratePhaseTimers outcomes
    afterHandler false

def pipelineTimeoutSecs (self : Coordinator) : Nat :=
  self.pipeline.pipelineTimeoutSecs.getD self.config.defaultPipelineTimeoutSecs

/-- `Coordinator::run` up to its select loop. -/
def start : Coord (Option RunSummary) := do
  let self ← get
  call (.sleep self.pipelineTimeoutSecs)
  if self.isRehydrate then
    match ← rehydrate with
    | some summary => return some summary
    | none => subscribeAndDispatch
  else subscribeAndDispatch

/-! ## The loop -/

def handleHeartbeat : Coord (Option RunSummary) := do
  let self ← get
  match ← call (.renewLease self.runId self.serverId self.leaseVersion 30) with
  | .ok true => return none
  | _ => return some (← buildSummary .failure)

def handleMessage : CoordinatorMessage → Coord (Option RunSummary)
  | .nodeTimedOut nodeName => do afterHandler (← handleNodeTimedOut nodeName)
  | .nodePodRunning nodeName => do
      handlePodRunning nodeName
      return none
  | .nodeInfraFailed nodeName reason => do afterHandler (← handleNodeInfraFailed nodeName reason)
  | .nodePodStartTimedOut nodeName => do afterHandler (← handlePodStartTimedOut nodeName)

/-- One pass of the select loop. -/
def handleEvent : LoopEvent → Coord (Option RunSummary)
  | .pipelineDeadline => abortRun .failure
  | .heartbeat => handleHeartbeat
  | .s3Reconcile => do afterHandler (← reconcileRunningAgainstS3)
  | .internal (some msg) => handleMessage msg
  | .internal none => return none
  | .backplane (some (.nodeCompleted nodeName success)) => do
      cancelNodeTimeout nodeName
      afterHandler (← handleNodeCompleted nodeName success)
  | .backplane (some .cancel) => abortRun .cancelled
  | .backplane none => abortRun .failure

end Coordinator

/-! ## Starting -/

def buildPipelineStartRecord (runId : String) (pipeline : Pipeline) (runContext : RunContext) :
    PipelineStartRecord where
  runId := runId
  pipelineName := pipeline.name
  owner := runContext.owner
  repo := runContext.repo
  sha := runContext.sha
  branch := runContext.branch
  targetBranch := runContext.targetBranch
  tag := runContext.tag
  prNumber := runContext.prNumber
  trigger := runContext.trigger
  pipelineDefinition := runContext.pipelineYaml
  createdAt := runContext.createdAt
  retryOf := runContext.retryOf
  tenantSlug := runContext.tenantSlug
  githubCheckRunId := runContext.githubCheckRunId

def nodeInfoCacheOf (nodeInfos : List NodeInfo) : HashMap String NodeInfo :=
  HashMap.ofList (nodeInfos.map fun n => (n.name, n))

/-- The information in the cache is that of the node it is looked up for. -/
def NamesAgree (cache : HashMap String NodeInfo) : Prop :=
  ∀ name info, cache.lookup name = some info → info.name = name

theorem namesAgree_nodeInfoCacheOf (nodes : List NodeInfo) : NamesAgree (nodeInfoCacheOf nodes) := by
  intro name info h
  rw [nodeInfoCacheOf, HashMap.lookup_ofList, Option.map_eq_some_iff] at h
  obtain ⟨p, hp, rfl⟩ := h
  have hname : p.1 = name := by simpa using List.find?_some hp
  obtain ⟨n, _, rfl⟩ := List.mem_map.mp (List.mem_reverse.mp (List.mem_of_find?_eq_some hp))
  exact hname

/-- The run, its state version and whether it is rehydrated. -/
def initializeRunState (runId : String) (nodeInfos : List NodeInfo) (pipeline : Pipeline) :
    Task (PipelineRun × Nat × Bool) := do
  match ← call (.loadRun runId) with
  | .ok (some existing) => return (PipelineRun.fromRunState existing, existing.version, true)
  | .ok none => do
      let run := PipelineRun.new nodeInfos
      let _ ← call (.saveRun runId (run.toRunState 0 pipeline) 0)
      return (run, 0, false)
  | .error _ => return (PipelineRun.new nodeInfos, 0, false)

/-- The coordinator that is spawned for a run. -/
def newCoordinator (config : AppConfig) (runId : String) (pipeline : Pipeline) (statusReporter : Bool)
    (runContext : RunContext) (serverId : String) (leaseVersion : Nat) (run : PipelineRun)
    (stateVersion : Nat) (isRehydrate podWatcher : Bool) : Coordinator where
  runId := runId
  run := run
  pipeline := pipeline
  config := config
  nodeInfoCache := nodeInfoCacheOf pipeline.nodeInfo
  nodePhaseHandles := ∅
  stateVersion := stateVersion
  leaseVersion := leaseVersion
  serverId := serverId
  runContext := runContext
  statusReporter := statusReporter
  podWatcher := podWatcher
  isRehydrate := isRehydrate

/-- The coordinator of a new run, as the first server to take its lease spawns it. -/
def freshCoordinator (config : AppConfig) (runId : String) (pipeline : Pipeline) : Coordinator :=
  newCoordinator config runId pipeline false (.push "acme" "app" "") "server" 1 (.new pipeline.nodeInfo) 0
    false false

/-- The coordinator of a stored run, as the next server to take its lease spawns it. -/
def rehydratedCoordinator (config : AppConfig) (runId : String) (pipeline : Pipeline) (state : RunState) :
    Coordinator :=
  newCoordinator config runId pipeline false (.push "acme" "app" "") "server" 2 (.fromRunState state)
    state.version true false

/-- `startCoordinator` answers whether a coordinator was spawned. -/
def startCoordinator (config : AppConfig) (runId : String) (pipeline : Pipeline) (statusReporter : Bool)
    (runContext : RunContext) : Task Bool := do
  let serverId ← call .newUuid
  match ← call (.tryAcquireLease runId serverId 30) with
  | .ok (some leaseVersion) => do
      let _ ← call (.recordPipelineStarted (buildPipelineStartRecord runId pipeline runContext))
      let (run, stateVersion, isRehydrate) ← initializeRunState runId pipeline.nodeInfo pipeline
      let podWatcher ← call (.startPodWatcher runId (run.nodesWith (· = .running)))
      call (.spawnCoordinator (newCoordinator config runId pipeline statusReporter runContext serverId
        leaseVersion run stateVersion isRehydrate podWatcher))
      return true
  | _ => return false

end Jefferies.Coordination
