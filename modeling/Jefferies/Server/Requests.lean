import Jefferies.Auth.Login
import Jefferies.Server.LiveStatus

/-!
# The requests of the API

A protected request names a tenant, and is served if the session of the user is authorized for it. The handlers read
the run history, the state store and S3, and publish events.
-/

namespace Jefferies.Server

open Pipelines RunHistory StateStore Coordination Sources Auth Interaction Interact

inductive ApiEffect where
  | getPipelineRun (runId : String)
  | listPipelineRuns (query : ListRunsQuery)
  | countPipelineRuns (filters : RunFilters)
  | listNodeRuns (runId : String)
  | getNodeRun (runId nodeName : String)
  | getNodeLog (runId nodeName : String)
  | loadRun (runId : String)
  | nodeStatus (runId nodeName : String)
  | liveLog (runId nodeName : String)
  | publishNodeCompleted (runId nodeName : String) (success : Bool)
  | publishCancel (runId : String)

@[reducible] def ApiResp : ApiEffect → Type
  | .getPipelineRun _ => Except RunHistoryError (Option PipelineRunRow)
  | .listPipelineRuns _ => Except RunHistoryError (List PipelineRunRow)
  | .countPipelineRuns _ => Except RunHistoryError Nat
  | .listNodeRuns _ => Except RunHistoryError (List NodeRunRow)
  | .getNodeRun _ _ => Except RunHistoryError (Option NodeRunRow)
  | .getNodeLog _ _ => Except RunHistoryError (Option String)
  | .loadRun _ => Except StateStoreError (Option RunState)
  | .nodeStatus _ _ => Except SourceError NodeOutcome
  | .liveLog _ _ => Except SourceError (Option String)
  | .publishNodeCompleted .. => Except BackplaneError Unit
  | .publishCancel _ => Except BackplaneError Unit

/-- A handler of a request. -/
abbrev ApiHandler (α : Type) : Type := Interact Unit ApiResp α

/-- Make the call `e`. -/
abbrev ask (e : ApiEffect) : ApiHandler (ApiResp e) := perform e

/-! ## Responses -/

/-- `user_message_from_code`. -/
def userMessageFromCode (code : String) : Option String :=
  if code = "ImagePullFailed" then
    some "Failed to pull the container image. Verify the image name, tag, and registry permissions."
  else if code = "OOMKilled" then
    some "The container ran out of memory. Increase its memory limit or reduce its memory usage."
  else if code = "ContainerCreateError" then
    some "The container could not be created. Check the pod configuration for invalid mounts, environment variables, or security settings."
  else if code = "ContainerTerminated" then
    some "The container exited unexpectedly before reporting completion. Check the container's logs for the failure cause."
  else if code = "PodStartTimeout" then
    some "The pod did not start in time. The cluster may be out of capacity, or the image may be very large."
  else if code = "DispatchFailed" then
    some "Kubernetes rejected the Pod for this node. Check the node's resource limits, image, and any cluster admission policies (SCC, ResourceQuota, LimitRange)."
  else none

/-- `user_message`. -/
def userMessage : InfraFailureReason → Option String
  | .imagePullFailed image _ =>
      some ("Failed to pull image '" ++ image ++ "'. Verify the image name, tag, and registry permissions.")
  | .dispatchFailed message =>
      some ("Kubernetes rejected the Pod for this node: " ++ message ++
        ". Check the node's resource limits, image, and any cluster admission policies (SCC, ResourceQuota, LimitRange).")
  | .oomKilled => userMessageFromCode InfraFailureReason.oomKilled.stableCode
  | .containerCreateError message => userMessageFromCode (InfraFailureReason.containerCreateError message).stableCode
  | .podStartTimeout => userMessageFromCode InfraFailureReason.podStartTimeout.stableCode
  | .containerTerminated exitCode _ _ =>
      some ("The container exited unexpectedly with code " ++ toString exitCode ++
        " before reporting completion. Check the container's logs for the failure cause.")
  | .initContainerFailed _ _ => none
  | .podDeletedUnexpectedly => none
  | .nodeLost => none

structure NodeRunResponse where
  row : NodeRunRow
  userMessage : Option String

def buildNodeRunResponse (row : NodeRunRow) : NodeRunResponse := ⟨row, row.failureReason.bind userMessageFromCode⟩

inductive Payload where
  | none
  | state (state : Option RunState)
  | runs (runs : List PipelineRunRow) (total : Nat)
  | run (row : Option PipelineRunRow)
  | nodes (rows : List NodeRunResponse)
  | node (row : Option NodeRunResponse)
  | log (text : String)

structure ApiResponse where
  code : Nat
  payload : Payload

/-! ## The handlers -/

def validatePokeOutcome (outcome : NodeOutcome) : Option Bool :=
  match outcome.success, outcome.finishedAt with
  | some success, some _ => some success
  | _, _ => none

def handleNodePoke (runId nodeName : String) : ApiHandler ApiResponse := do
  match ← ask (.nodeStatus runId nodeName) with
  | .error (.notFound _) => return ⟨404, .none⟩
  | .error _ => return ⟨500, .none⟩
  | .ok outcome =>
      match validatePokeOutcome outcome with
      | none => return ⟨400, .none⟩
      | some success => do
          match ← ask (.publishNodeCompleted runId nodeName success) with
          | .ok () => return ⟨200, .none⟩
          | .error _ => return ⟨500, .none⟩

def checkRunInSlug (runId slug : String) : ApiHandler (Except Nat Unit) := do
  match ← ask (.getPipelineRun runId) with
  | .ok (some row) => return if row.tenantSlug = some slug then .ok () else .error 404
  | .ok none => return .error 404
  | .error _ => return .error 500

def cancelPipelineRun (slug runId : String) : ApiHandler ApiResponse := do
  match ← checkRunInSlug runId slug with
  | .error code => return ⟨code, .none⟩
  | .ok () => do
      match ← ask (.publishCancel runId) with
      | .error _ => return ⟨500, .none⟩
      | .ok () => return ⟨200, .none⟩

def getRunStatus (slug runId : String) : ApiHandler ApiResponse := do
  match ← checkRunInSlug runId slug with
  | .error code => return ⟨code, .state none⟩
  | .ok () => do
      match ← ask (.loadRun runId) with
      | .ok (some runState) => return ⟨200, .state (some runState)⟩
      | .ok none => return ⟨404, .state none⟩
      | .error _ => return ⟨500, .state none⟩

def parseSortColumn (s : String) : Option SortColumn :=
  if s = "created_at" then some .createdAt
  else if s = "completed_at" then some .completedAt
  else if s = "pipeline_name" then some .pipelineName
  else if s = "owner" then some .owner
  else if s = "status" then some .status
  else none

def parseSortOrder (s : String) : Option SortOrder :=
  if s = "asc" then some .asc
  else if s = "desc" then some .desc
  else none

structure ListRunsParams where
  limit : Option Int
  offset : Option Int
  sortBy : Option String
  order : Option String
  repo : Option String
  pipelineName : Option String
  sha : Option String

/-- The query of a listing; the sort column and the order may be unknown. -/
def listRunsQuery (slug : String) (params : ListRunsParams) : Option ListRunsQuery := do
  let sortBy ← parseSortColumn (params.sortBy.getD "created_at")
  let order ← parseSortOrder (params.order.getD "desc")
  return {
    limit := min (max (params.limit.getD 50) 1) 200
    offset := max (params.offset.getD 0) 0
    sortBy := sortBy
    order := order
    filters := ⟨some slug, params.repo, params.pipelineName, params.sha⟩ }

def listRuns (slug : String) (params : ListRunsParams) : ApiHandler ApiResponse := do
  match listRunsQuery slug params with
  | none => return ⟨400, .none⟩
  | some query => do
      match ← ask (.listPipelineRuns query) with
      | .error _ => return ⟨500, .none⟩
      | .ok runs => do
          match ← ask (.countPipelineRuns query.filters) with
          | .error _ => return ⟨500, .none⟩
          | .ok total => return ⟨200, .runs runs total⟩

def getRun (slug runId : String) : ApiHandler ApiResponse := do
  match ← ask (.getPipelineRun runId) with
  | .ok (some row) => return if row.tenantSlug = some slug then ⟨200, .run (some row)⟩ else ⟨404, .run none⟩
  | .ok none => return ⟨404, .run none⟩
  | .error _ => return ⟨500, .run none⟩

/-- The row as S3 shows it; a row that is completed is not looked up. -/
def augmentRow (row : NodeRunRow) : ApiHandler NodeRunRow :=
  if row.completedAt.isSome then return row
  else do return augmentWithLive row (← ask (.nodeStatus row.runId row.nodeName))

def listRunNodes (slug runId : String) : ApiHandler ApiResponse := do
  match ← checkRunInSlug runId slug with
  | .error code => return ⟨code, .nodes []⟩
  | .ok () => do
      match ← ask (.listNodeRuns runId) with
      | .error _ => return ⟨500, .nodes []⟩
      | .ok rows => do
          let augmented ← rows.mapM augmentRow
          return ⟨200, .nodes (augmented.map buildNodeRunResponse)⟩

def getRunNode (slug runId nodeName : String) : ApiHandler ApiResponse := do
  match ← checkRunInSlug runId slug with
  | .error code => return ⟨code, .node none⟩
  | .ok () => do
      match ← ask (.getNodeRun runId nodeName) with
      | .error _ => return ⟨500, .node none⟩
      | .ok none => return ⟨404, .node none⟩
      | .ok (some row) => do
          let augmented ← augmentRow row
          return ⟨200, .node (some (buildNodeRunResponse augmented))⟩

/-- The log that is recorded, as long as S3 has no live one. -/
def recordedLog (runId nodeName : String) : ApiHandler ApiResponse := do
  match ← ask (.getNodeLog runId nodeName) with
  | .ok (some log) => return ⟨200, .log log⟩
  | .ok none => return ⟨404, .log ""⟩
  | .error _ => return ⟨500, .log ""⟩

def getNodeLog (slug runId nodeName : String) : ApiHandler ApiResponse := do
  match ← checkRunInSlug runId slug with
  | .error code => return ⟨code, .log ""⟩
  | .ok () => do
      match ← ask (.getNodeRun runId nodeName) with
      | .error _ => return ⟨500, .log ""⟩
      | .ok none => return ⟨404, .log ""⟩
      | .ok (some row) =>
          if row.completedAt.isNone then do
            match ← ask (.liveLog runId nodeName) with
            | .ok (some log) => return ⟨200, .log log⟩
            | _ => recordedLog runId nodeName
          else recordedLog runId nodeName

/-! ## Routes -/

inductive ApiRequest where
  | poke (runId nodeName : String)
  | cancel (slug runId : String)
  | status (slug runId : String)
  | list (slug : String) (params : ListRunsParams)
  | run (slug runId : String)
  | nodes (slug runId : String)
  | node (slug runId nodeName : String)
  | log (slug runId nodeName : String)

namespace ApiRequest

/-- The tenant that a protected request names. -/
def slug : ApiRequest → Option String
  | poke _ _ => none
  | cancel slug _ => some slug
  | status slug _ => some slug
  | list slug _ => some slug
  | run slug _ => some slug
  | nodes slug _ => some slug
  | node slug _ _ => some slug
  | log slug _ _ => some slug

def handler : ApiRequest → ApiHandler ApiResponse
  | poke runId nodeName => handleNodePoke runId nodeName
  | cancel slug runId => cancelPipelineRun slug runId
  | status slug runId => getRunStatus slug runId
  | list slug params => listRuns slug params
  | run slug runId => getRun slug runId
  | nodes slug runId => listRunNodes slug runId
  | node slug runId nodeName => getRunNode slug runId nodeName
  | log slug runId nodeName => getNodeLog slug runId nodeName

end ApiRequest

/-- What the router does with a request. -/
def route (auth : Except SessionError (Option AuthSession)) (request : ApiRequest) : ApiHandler ApiResponse :=
  match request.slug with
  | none => request.handler
  | some slug =>
      match authorizedTenant auth slug with
      | .error code => return ⟨code, .none⟩
      | .ok _ => request.handler

end Jefferies.Server
