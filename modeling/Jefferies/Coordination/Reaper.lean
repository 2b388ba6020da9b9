import Jefferies.Coordination.EventLoop
import Jefferies.Pipelines.Validate

/-!
# The reaper

The passes that take up orphaned runs and remove what finished runs left behind. The listing operations of
the Redis store are several commands each, and other processes may come between them.
-/

namespace Jefferies.Coordination

open Pipelines StateStore RunHistory Interaction Interact

/-- What the tasks of a server are given: its settings, the parser of pipelines and whether there is a
factory for status reporters. -/
structure Services where
  config : AppConfig
  parsePipeline : String → Except PipelineError Pipeline
  statusReporterFactory : Bool

/-! ## Listing runs -/

/-- The loop over the keys, for the runs without a lease whose state is as wanted. A state that cannot be
decoded is left out, and a lease that cannot be looked up counts as absent. -/
def collectUnleased (wanted : RunState → Bool) : List String → Task (Except StateStoreError (List String))
  | [] => return .ok []
  | runId :: rest => do
      match ← call (.loadRun runId) with
      | .error (.serialization _) => collectUnleased wanted rest
      | .error e => return .error e
      | .ok none => collectUnleased wanted rest
      | .ok (some state) =>
          if !wanted state then collectUnleased wanted rest
          else do
            match ← call (.leaseExists runId) with
            | .ok true => collectUnleased wanted rest
            | _ => return (← collectUnleased wanted rest).map (runId :: ·)

def listUnleased (wanted : RunState → Bool) : Task (Except StateStoreError (List String)) := do
  match ← call .stateKeys with
  | .error e => return .error e
  | .ok runIds => collectUnleased wanted runIds

def getOrphanedRuns : Task (Except StateStoreError (List String)) :=
  listUnleased fun state => !runStateIsTerminal state

def listTerminalUnleasedRuns : Task (Except StateStoreError (List String)) :=
  listUnleased runStateIsTerminal

/-! ## Orphaned runs -/

def runContextFromRow (row : PipelineRunRow) : RunContext where
  owner := row.owner
  repo := row.repo
  sha := row.sha
  branch := row.branch
  targetBranch := row.targetBranch
  tag := row.tag
  prNumber := row.prNumber
  trigger := row.trigger
  pipelineYaml := row.pipelineDefinition
  createdAt := row.createdAt
  retryOf := row.retryOf
  tenantSlug := row.tenantSlug
  githubCheckRunId := row.githubCheckRunId

def finalizeUnrecoverableOrphan (runId : String) : Task Unit := do
  let _ ← call (.cleanupRun runId)
  let _ ← call (.releaseLease runId)
  let _ ← call (.deleteRun runId)

/-- Resume a run whose row and pipeline are known. -/
def resumeRun (services : Services) (runId : String) (pipeline : Pipeline) (row : PipelineRunRow) :
    Task Unit := do
  let runContext := runContextFromRow row
  let statusReporter ←
    if services.statusReporterFactory then call (.reporterForRun runContext) else pure false
  let _ ← startCoordinator services.config runId pipeline statusReporter runContext

/-- The body of the loop of `reclaimOrphanedRuns`. -/
def reclaimOrphanedRun (services : Services) (runId : String) : Task Unit := do
  match ← call (.loadRun runId) with
  | .ok (some _) => do
      match ← call (.getPipelineRun runId) with
      | .ok (some row) => do
          match ← call (.loadRun runId) with
          | .ok (some state) => resumeRun services runId state.pipeline row
          | _ => return ()
      | .ok none => finalizeUnrecoverableOrphan runId
      | .error _ => return ()
  | _ => return ()

def reclaimOrphanedRuns (services : Services) : Task Unit := do
  match ← getOrphanedRuns with
  | .ok orphaned => orphaned.forM (reclaimOrphanedRun services)
  | .error _ => return ()

/-! ## Terminal runs -/

def outcomeStatusFor (state : RunState) : RunStatus :=
  if state.statuses.allValues (· = .success) then .success else .failure

def reapRun (runId : String) : Task Unit := do
  let _ ← call (.cleanupRun runId)
  let _ ← call (.releaseLease runId)
  let _ ← call (.deleteRun runId)

/-- The body of the loop of `sweepTerminalRedisRuns`. -/
def sweepTerminalRedisRun (runId : String) : Task Unit := do
  match ← call (.loadRun runId) with
  | .ok (some state) => do
      let now ← call .utcNow
      match ← call (.finalizePipelineRunStatus runId (outcomeStatusFor state) now) with
      | .ok _ => reapRun runId
      | .error _ => return ()
  | .ok none => reapRun runId
  | .error _ => return ()

def sweepTerminalRedisRuns : Task Unit := do
  match ← listTerminalUnleasedRuns with
  | .ok terminal => terminal.forM sweepTerminalRedisRun
  | .error _ => return ()

/-! ## Runs in progress without stored state -/

/-- `ms_to_datetime` of the reaper. -/
def reaperMsToDatetime (ms : Nat) : Option DateTime :=
  if ms / 1000 < 2 ^ 63 ∧ ms % 1000 * 1000000 < 2 ^ 32 then
    DateTime.fromTimestamp (ms / 1000 : Nat) (ms % 1000 * 1000000)
  else none

def statusFromRow : Option NodeRunRow → NodeStatus
  | none => .pending
  | some row =>
      match row.success with
      | some true => .success
      | some false => .failed
      | none => .running

def reconstructRunStateFromPostgres (pipeline : Pipeline) (nodeRunsByName : HashMap String NodeRunRow) :
    RunState where
  version := 0
  statuses := HashMap.ofList
    (pipeline.nodeInfo.map fun node => (node.name, statusFromRow (nodeRunsByName.lookup node.name)))
  dependencies := HashMap.ofList (pipeline.nodeInfo.map fun node => (node.name, node.dependencies))
  pipeline := pipeline

/-- The body of the loop over the expected nodes: a row without a result is completed from S3. -/
def refreshNodeRun (runId : String) (byName : HashMap String NodeRunRow) (nodeName : String) :
    Task (HashMap String NodeRunRow) := do
  match byName.lookup nodeName with
  | none => return byName
  | some existing =>
      if existing.success.isSome then return byName
      match ← call (.getNodeOutcome runId nodeName) with
      | .ok (some outcome) =>
          match outcome.success, outcome.finishedAt with
          | some success, some finishedMs => do
              let startedAt := outcome.startedAt.bind reaperMsToDatetime
              let completedAt := reaperMsToDatetime finishedMs
              match ← call (.recordNodeRun {
                runId := runId
                nodeName := nodeName
                nodeDefinition := existing.nodeDefinition
                success := success
                createdAt := existing.createdAt
                startedAt := startedAt
                completedAt := completedAt
                outputLog := none
                failureReason := none }) with
              | .error _ => return byName
              | .ok () =>
                  return byName.insert nodeName
                    { existing with success := some success, startedAt := startedAt, completedAt := completedAt }
          | _, _ => return byName
      | _ => return byName

def refreshNodeRuns (runId : String) (byName : HashMap String NodeRunRow) :
    List String → Task (HashMap String NodeRunRow)
  | [] => return byName
  | nodeName :: rest => do
      let byName ← refreshNodeRun runId byName nodeName
      refreshNodeRuns runId byName rest

/-- The result that the rows have for a node. -/
def resultOf (byName : HashMap String NodeRunRow) (nodeName : String) : Option Bool :=
  (byName.lookup nodeName).bind (·.success)

def reconcilePostgresInProgressRun (services : Services) (runId : String) (row : PipelineRunRow) :
    Task (Except RunHistoryError Unit) := do
  match services.parsePipeline row.pipelineDefinition with
  | .error _ => return .ok ()
  | .ok pipeline => do
      let expected := pipeline.nodeInfo.map NodeInfo.name
      match ← call (.listNodeRuns runId) with
      | .error e => return .error e
      | .ok nodeRuns => do
          let byName ← refreshNodeRuns runId (HashMap.ofList (nodeRuns.map fun nr => (nr.nodeName, nr))) expected
          if expected.all fun n => (resultOf byName n).isSome then
            let status : RunStatus :=
              if expected.all fun n => resultOf byName n = some true then .success else .failure
            let now ← call .utcNow
            let _ ← call (.finalizePipelineRunStatus runId status now)
            let _ ← call (.cleanupRun runId)
            return .ok ()
          else
            match ← call (.saveRun runId (reconstructRunStateFromPostgres pipeline byName) 0) with
            | .ok true => do
                resumeRun services runId pipeline row
                return .ok ()
            | _ => return .ok ()

/-- The body of the loop of `sweepPostgresInProgressRuns`. -/
def sweepPostgresInProgressRun (services : Services) (row : PipelineRunRow) : Task Unit := do
  match ← call (.loadRun row.runId) with
  | .ok none => do
      let _ ← reconcilePostgresInProgressRun services row.runId row
  | _ => return ()

def sweepPostgresInProgressRuns (services : Services) : Task Unit := do
  match ← call .listInProgressRuns with
  | .ok inProgress => inProgress.forM (sweepPostgresInProgressRun services)
  | .error _ => return ()

/-! ## Kubernetes resources without a run -/

/-- The body of the loop of `sweepOrphanKubeResources`. -/
def sweepOrphanKubeResource (runId : String) : Task Unit := do
  match ← call (.loadRun runId) with
  | .ok (some _) => return ()
  | .ok none => do
      let _ ← call (.cleanupRun runId)
  | .error _ => do
      let _ ← call (.cleanupRun runId)
      let _ ← call (.deleteRun runId)

def sweepOrphanKubeResources : Task Unit := do
  match ← call .listManagedRunIds with
  | .ok managed => managed.forM sweepOrphanKubeResource
  | .error _ => return ()

def sweepStrandedResources (services : Services) : Task Unit := do
  sweepTerminalRedisRuns
  sweepPostgresInProgressRuns services
  sweepOrphanKubeResources

/-! ## The reaper's loop -/

inductive ReaperTick where
  | lease
  | sweep
  deriving DecidableEq

/-- `startReaper` up to its loop. -/
def reaperStart (services : Services) : Task (Option Unit) := do
  reclaimOrphanedRuns services
  sweepStrandedResources services
  return none

/-- One pass of the reaper's loop. -/
def reaperTick (services : Services) : ReaperTick → Task (Option Unit)
  | .lease => do
      reclaimOrphanedRuns services
      return none
  | .sweep => do
      sweepStrandedResources services
      return none

end Jefferies.Coordination
