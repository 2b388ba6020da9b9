import Jefferies.Coordination.EventLoop
import Jefferies.Pipelines.Validate
import Jefferies.Tenancy.Registry

/-!
# GitHub webhooks

What the provider does with a request of GitHub: it finds the app whose secret verifies the body and the tenant of
the body's owner under that app, and starts a coordinator for each pipeline that the event triggers. The crates
that read JSON and compute HMACs are parameters; GitHub, the run history and the coordinators answer calls.
-/

namespace Jefferies.Providers

open Pipelines RunHistory Coordination Tenancy Interaction Interact

/-- The bytes of a request. -/
abbrev Body : Type := List UInt8

/-- The headers of a request: the text of the first value under a name. -/
abbrev Headers : Type := String → Option String

inductive StatusCode where
  | ok
  | unauthorized
  | notFound
  | internalServerError
  | notImplemented
  deriving DecidableEq

/-! ## Payloads -/

/-- `serde_json::Value`. -/
inductive Json where
  | null
  | bool (b : Bool)
  | number (text : String)
  | string (s : String)
  | array (items : List Json)
  | object (fields : List (String × Json))

namespace Json

def get : Json → String → Option Json
  | .object fields, key => fields.lookup key
  | _, _ => none

/-- `pointer`, given the tokens of the path; none of them is a number, which would count into an array. -/
def pointer (self : Json) (tokens : List String) : Option Json := tokens.foldlM get self

def asStr : Json → Option String
  | .string s => some s
  | _ => none

end Json

/-- A repository as an event has it; the owner is given by the login. -/
structure EventRepository where
  name : String
  owner : Option String

inductive PullRequestAction where
  | opened
  | synchronize
  | other
  deriving DecidableEq

inductive CheckAction where
  | rerequested
  | other
  deriving DecidableEq

structure PullRequest where
  number : Nat
  headRepo : Option EventRepository
  headSha : String
  headRef : String
  baseRef : String

inductive EventPayload where
  | push (after gitRef : String)
  | pullRequest (action : PullRequestAction) (pullRequest : PullRequest)
  | checkRun (action : CheckAction) (checkRun : Json)
  | checkSuite (action : CheckAction) (checkSuite : Json)
  | other

structure WebhookEvent where
  repository : Option EventRepository
  specific : EventPayload

inductive GithubError where
  | octocrab (message : String)
  | invalidAppId
  | invalidPrivateKey (message : String)
  | invalidPayload (message : String)
  | tenantBindingMissing (slug : String)

/-- What other crates compute: the HMAC of a message under a secret, a body as JSON and as the event of a type,
and a pipeline from its document. -/
structure Crates where
  hmacSha256 : String → Body → List UInt8
  fromSlice : Body → Option Json
  tryFromHeaderAndBody : String → Body → Except String WebhookEvent
  parsePipeline : String → Except PipelineError Pipeline

/-! ## Calls -/

structure ContentItem where
  type : String
  name : String
  path : String
  decodedContent : Option String

inductive ContentError where
  | notFound
  | other (message : String)

/-- What the provider asks for. The client `crab` of an installation is the number of the installation. -/
inductive ProviderEffect where
  | iterate (names : Finset String)
  | newUuid
  | utcNow
  -- GitHub
  | installationClient (app : GithubAppConfig) (owner repo : String)
  | getContent (crab : Nat) (owner repo path sha : String)
  | createCheckRun (crab : Nat) (owner repo pipelineName sha runId : String)
  | uploadSource (crab : Nat) (runId owner repo sha : String)
  -- the run history
  | getPipelineRun (runId : String)
  | listOriginatingRunsForSha (tenantSlug owner repo sha : String)
  -- coordinators
  | startCoordinator (runId : String) (pipeline : Pipeline) (statusReporter : Bool) (runContext : RunContext)

@[reducible] def ProviderResp : ProviderEffect → Type
  | .iterate names => Ordering names
  | .newUuid => String
  | .utcNow => DateTime
  | .installationClient .. => Except GithubError Nat
  | .getContent .. => Except ContentError (List ContentItem)
  | .createCheckRun .. => Except String Nat
  | .uploadSource .. => Except String Unit
  | .getPipelineRun _ => Except RunHistoryError (Option PipelineRunRow)
  | .listOriginatingRunsForSha .. => Except RunHistoryError (List PipelineRunRow)
  | .startCoordinator .. => Bool

/-- A computation of the provider, which has no state of its own. -/
abbrev Provider (α : Type) : Type := Interact Unit ProviderResp α

abbrev call (e : ProviderEffect) : Provider (ProviderResp e) := Interact.perform e

/-- `n as i64`. -/
def asI64 (n : Nat) : Int := if n < 2 ^ 63 then n else n - 2 ^ 64

/-! ## Launching runs -/

section Launching

variable (crates : Crates)

def buildInstallationClient (owner repo : String) (app : GithubAppConfig) : Provider (Except GithubError Nat) :=
  match parseU64 app.appId with
  | none => return .error .invalidAppId
  | some _ => call (.installationClient app owner repo)

/-- The check run of a run; the reporter is given by its number. -/
def createCheckRunReporter (crab : Nat) (owner repo sha runId pipelineName : String) : Provider (Option Int) := do
  match ← call (.createCheckRun crab owner repo pipelineName sha runId) with
  | .ok id => return some (asI64 id)
  | .error _ => return none

/-- The source is uploaded where some node checks it out. -/
def uploadSource (pipeline : Pipeline) (runContext : RunContext) (crab : Nat) (runId : String) :
    Provider (Except String Unit) :=
  if pipeline.nodeInfo.any (·.checkout) then
    call (.uploadSource crab runId runContext.owner runContext.repo runContext.sha)
  else return .ok ()

def launchCoordinatorForPipeline (pipeline : Pipeline) (runContext : RunContext) (crab : Nat) :
    Provider (Option String) := do
  let runId ← call .newUuid
  match ← uploadSource pipeline runContext crab runId with
  | .error _ => return none
  | .ok () => do
      let checkRunId ←
        createCheckRunReporter crab runContext.owner runContext.repo runContext.sha runId pipeline.name
      let handle ← call (.startCoordinator runId pipeline checkRunId.isSome
        { runContext with githubCheckRunId := checkRunId })
      return if handle then some runId else none

/-! ## Pipelines of a repository -/

def jefferiesDir : String := ".jefferies"

def fetchFileContent (crab : Nat) (owner repo path sha : String) :
    Provider (Except ContentError (Option String)) := do
  match ← call (.getContent crab owner repo path sha) with
  | .ok items => return .ok (items.head?.bind (·.decodedContent))
  | .error e => return .error e

/-- The body of the loop of `findMatchingPipelines`. -/
def matchingPipeline (crab : Nat) (owner repo sha : String) (matchesEvent : Pipeline → Bool) (item : ContentItem) :
    Provider (Option (String × Pipeline)) :=
  if item.type ≠ "file" then return none
  else if !endsWith item.name ".yaml" && !endsWith item.name ".yml" then return none
  else do
    match ← fetchFileContent crab owner repo item.path sha with
    | .ok (some yamlContent) =>
        match crates.parsePipeline yamlContent with
        | .ok pipeline => return if matchesEvent pipeline then some (yamlContent, pipeline) else none
        | .error _ => return none
    | _ => return none

def matchingPipelines (crab : Nat) (owner repo sha : String) (matchesEvent : Pipeline → Bool) :
    List ContentItem → Provider (List (String × Pipeline))
  | [] => return []
  | item :: items => do
      let found ← matchingPipeline crates crab owner repo sha matchesEvent item
      let others ← matchingPipelines crab owner repo sha matchesEvent items
      return found.toList ++ others

def findMatchingPipelines (crab : Nat) (owner repo sha : String) (matchesEvent : Pipeline → Bool) :
    Provider (Except GithubError (List (String × Pipeline))) := do
  match ← call (.getContent crab owner repo jefferiesDir sha) with
  | .ok items => return .ok (← matchingPipelines crates crab owner repo sha matchesEvent items)
  | .error .notFound => return .ok []
  | .error (.other message) => return .error (.octocrab message)

/-- What follows the choice of the pipelines that an event triggers. -/
def launchAll (runContext : String → DateTime → RunContext) (crab : Nat) (found : List (String × Pipeline)) :
    Provider Unit :=
  found.forM fun p => do
    let createdAt ← call .utcNow
    let _ ← launchCoordinatorForPipeline p.2 (runContext p.1 createdAt) crab

end Launching

/-! ## Events that start pipelines -/

def triggerRetry : String := "retry"

section Events

variable (crates : Crates) (state : TenancyRegistry)

def resolveAppForTenant (tenant : TenantConfig) : Option GithubAppConfig :=
  state.apps.byId.lookup tenant.provider.binding.appRef

/-- Start the pipelines of a repository that an event triggers. -/
def startPipelines (owner repo sha : String) (matchesEvent : Pipeline → Bool)
    (runContext : String → DateTime → RunContext) (tenant : TenantConfig) : Provider (Except GithubError Unit) :=
  match resolveAppForTenant state tenant with
  | none => return .error (.tenantBindingMissing tenant.slug)
  | some app => do
      match ← buildInstallationClient owner repo app with
      | .error e => return .error e
      | .ok crab => do
          match ← findMatchingPipelines crates crab owner repo sha matchesEvent with
          | .error e => return .error e
          | .ok found => do
              launchAll runContext crab found
              return .ok ()

def parsePushRef (gitRef : String) : Option String × Option String :=
  match stripPrefix gitRef "refs/heads/", stripPrefix gitRef "refs/tags/" with
  | some branch, _ => (some branch, none)
  | none, some tag => (none, some tag)
  | none, none => (none, none)

def startPushPipelines (owner repo sha gitRef : String) (tenant : TenantConfig) :
    Provider (Except GithubError Unit) :=
  let (branch, tag) := parsePushRef gitRef
  startPipelines crates state owner repo sha (·.triggeredByPush branch tag)
    (fun rawYaml createdAt => {
      owner := owner
      repo := repo
      sha := sha
      branch := branch
      targetBranch := none
      tag := tag
      prNumber := none
      trigger := "push"
      pipelineYaml := rawYaml
      createdAt := createdAt
      retryOf := none
      tenantSlug := some tenant.slug
      githubCheckRunId := none }) tenant

structure PullRequestEventInfo where
  owner : String
  repo : String
  sha : String
  headBranch : String
  baseBranch : String
  prNumber : Int

def startPrPipelines (event : PullRequestEventInfo) (tenant : TenantConfig) : Provider (Except GithubError Unit) :=
  startPipelines crates state event.owner event.repo event.sha (·.triggeredByPullRequest event.baseBranch)
    (fun rawYaml createdAt => {
      owner := event.owner
      repo := event.repo
      sha := event.sha
      branch := some event.headBranch
      targetBranch := some event.baseBranch
      tag := none
      prNumber := some event.prNumber
      trigger := "pull_request"
      pipelineYaml := rawYaml
      createdAt := createdAt
      retryOf := none
      tenantSlug := some tenant.slug
      githubCheckRunId := none }) tenant

/-! ## Retries -/

/-- `UnknownRun`, and the kinds of `Backend`. -/
inductive RetryError where
  | unknownRun
  | historyLookup (e : RunHistoryError)
  | missingTenantSlug
  | tenantUnregistered
  | tenantBindingMissing
  | pipelineParse (e : PipelineError)
  | installClient (e : GithubError)
  | launchFailed

/-- The run of a retry: the original's, but for what says where it comes from. -/
def retryContext (original : PipelineRunRow) (runId tenantSlug : String) (createdAt : DateTime) : RunContext where
  owner := original.owner
  repo := original.repo
  sha := original.sha
  branch := original.branch
  targetBranch := original.targetBranch
  tag := original.tag
  prNumber := original.prNumber
  trigger := triggerRetry
  pipelineYaml := original.pipelineDefinition
  createdAt := createdAt
  retryOf := some runId
  tenantSlug := some tenantSlug
  githubCheckRunId := none

/-- The part of `retryPipelineRun` behind the checks of the tenant. -/
def relaunch (original : PipelineRunRow) (runId tenantSlug : String) (app : GithubAppConfig) :
    Provider (Except RetryError String) :=
  match crates.parsePipeline original.pipelineDefinition with
  | .error e => return .error (.pipelineParse e)
  | .ok pipeline => do
      match ← buildInstallationClient original.owner original.repo app with
      | .error e => return .error (.installClient e)
      | .ok crab => do
          let createdAt ← call .utcNow
          match ← launchCoordinatorForPipeline pipeline (retryContext original runId tenantSlug createdAt) crab with
          | some newRunId => return .ok newRunId
          | none => return .error .launchFailed

def retryPipelineRun (expectedSlug runId : String) : Provider (Except RetryError String) := do
  match ← call (.getPipelineRun runId) with
  | .error e => return .error (.historyLookup e)
  | .ok none => return .error .unknownRun
  | .ok (some original) =>
      match original.tenantSlug with
      | none => return .error .missingTenantSlug
      | some tenantSlug =>
          if tenantSlug ≠ expectedSlug then return .error .unknownRun
          else
            match state.tenants.bySlug.lookup tenantSlug with
            | none => return .error .tenantUnregistered
            | some tenant =>
                match resolveAppForTenant state tenant with
                | none => return .error .tenantBindingMissing
                | some app => relaunch crates original runId tenantSlug app

def retryRun (slug runId : String) : Provider (StatusCode × Option String) := do
  match ← retryPipelineRun crates state slug runId with
  | .ok newRunId => return (.ok, some newRunId)
  | .error .unknownRun => return (.notFound, none)
  | .error _ => return (.internalServerError, none)

def triggerRetryForRun (tenant : TenantConfig) (runId : String) : Provider Unit := do
  let _ ← retryPipelineRun crates state tenant.slug runId

/-! ## Handlers -/

/-- The event of a body, as one of the type. -/
def eventOf (eventType : String) (payload : Body) : Except GithubError WebhookEvent :=
  match crates.tryFromHeaderAndBody eventType payload with
  | .ok event => .ok event
  | .error e => .error (.invalidPayload e)

def handlePush (payload : Body) (tenant : TenantConfig) : Provider (Except GithubError StatusCode) :=
  match eventOf crates "push" payload with
  | .error e => return .error e
  | .ok event =>
      match event.specific with
      | .push after gitRef =>
          match event.repository with
          | none => return .error (.invalidPayload "Missing repository information in push event")
          | some repo =>
              match repo.owner with
              | none => return .error (.invalidPayload "Missing owner information in push event")
              | some owner => do
                  match ← startPushPipelines crates state owner repo.name after gitRef tenant with
                  | .error e => return .error e
                  | .ok () => return .ok .ok
      | _ => return .error (.invalidPayload "Bad push event payload")

def handlePullRequest (payload : Body) (tenant : TenantConfig) : Provider (Except GithubError StatusCode) :=
  match eventOf crates "pull_request" payload with
  | .error e => return .error e
  | .ok event =>
      match event.specific with
      | .pullRequest action pr =>
          if action ≠ .opened ∧ action ≠ .synchronize then return .ok .notImplemented
          else
            match pr.headRepo with
            | none => return .error (.invalidPayload "Missing repository information in pull request event")
            | some headRepo =>
                match headRepo.owner with
                | none => return .error (.invalidPayload "Missing owner information in pull request event")
                | some owner => do
                    match ← startPrPipelines crates state {
                        owner := owner
                        repo := headRepo.name
                        sha := pr.headSha
                        headBranch := pr.headRef
                        baseBranch := pr.baseRef
                        prNumber := asI64 pr.number } tenant with
                    | .error e => return .error e
                    | .ok () => return .ok .ok
      | _ => return .error (.invalidPayload "Bad pull request event payload")

/-- A text of the object that is not empty. -/
def textOf (self : Json) (key : String) : Option String :=
  ((self.get key).bind Json.asStr).filter fun s => !s.isEmpty

def handleCheckRun (payload : Body) (tenant : TenantConfig) : Provider (Except GithubError StatusCode) :=
  match eventOf crates "check_run" payload with
  | .error e => return .error e
  | .ok event =>
      match event.specific with
      | .checkRun action checkRun =>
          if action ≠ .rerequested then return .ok .ok
          else
            match textOf checkRun "external_id" with
            | none => return .ok .ok
            | some externalId => do
                triggerRetryForRun crates state tenant externalId
                return .ok .ok
      | _ => return .error (.invalidPayload "Bad check_run event payload")

/-- The runs of a commit of the repository are tried again. -/
def retryOriginatingRuns (owner repo headSha : String) (tenant : TenantConfig) : Provider Unit := do
  match ← call (.listOriginatingRunsForSha tenant.slug owner repo headSha) with
  | .error _ => return ()
  | .ok originating => originating.forM fun row => triggerRetryForRun crates state tenant row.runId

def handleCheckSuite (payload : Body) (tenant : TenantConfig) : Provider (Except GithubError StatusCode) :=
  match eventOf crates "check_suite" payload with
  | .error e => return .error e
  | .ok event =>
      match event.specific with
      | .checkSuite action checkSuite =>
          if action ≠ .rerequested then return .ok .ok
          else
            match event.repository with
            | none => return .error (.invalidPayload "Missing repository information in check_suite event")
            | some repo =>
                match repo.owner with
                | none => return .error (.invalidPayload "Missing owner information in check_suite event")
                | some owner =>
                    match textOf checkSuite "head_sha" with
                    | none => return .ok .ok
                    | some headSha => do
                        retryOriginatingRuns crates state owner repo.name headSha tenant
                        return .ok .ok
      | _ => return .error (.invalidPayload "Bad check_suite event payload")

/-! ## The signer and the owner -/

def hexDigit (c : Char) : Option UInt8 :=
  if c.isDigit then some (c.toNat - 48).toUInt8
  else if 'a' ≤ c ∧ c ≤ 'f' then some (c.toNat - 87).toUInt8
  else if 'A' ≤ c ∧ c ≤ 'F' then some (c.toNat - 55).toUInt8
  else none

/-- `hex::decode`. -/
def hexDecode : List Char → Option (List UInt8)
  | [] => some []
  | [_] => none
  | hi :: lo :: rest => do
      let hi ← hexDigit hi
      let lo ← hexDigit lo
      let rest ← hexDecode rest
      return (hi * 16 + lo) :: rest

def signatureMatches (payload : Body) (signatureHeader secret : String) : Bool :=
  match stripPrefix signatureHeader "sha256=" with
  | none => false
  | some hexHash =>
      match hexDecode hexHash.toList with
      | none => false
      | some expectedSignature => crates.hmacSha256 secret payload = expectedSignature

/-- The first app, in the order in which the registry is iterated, whose secret verifies the body. -/
def identifySigningApp (order : Ordering state.apps.byId.keys) (body : Body) (signatureHeader : String) :
    Option GithubAppConfig :=
  (order.1.filterMap state.apps.byId.lookup).find? fun app =>
    signatureMatches crates body signatureHeader app.webhookSecret

inductive OwnerKind where
  | user
  | organization
  | unknown
  deriving DecidableEq

structure OwnerInfo where
  login : String
  kind : OwnerKind

def parseOwnerKind : Option String → OwnerKind
  | some "Organization" => .organization
  | some "User" => .user
  | _ => .unknown

/-- The text at the path. -/
def textAt (value : Json) (tokens : List String) : Option String := (value.pointer tokens).bind Json.asStr

def extractOwnerInfo (body : Body) : Option OwnerInfo := do
  let value ← crates.fromSlice body
  match textAt value ["repository", "owner", "login"] with
  | some login => some ⟨login, parseOwnerKind (textAt value ["repository", "owner", "type"])⟩
  | none =>
      match textAt value ["organization", "login"] with
      | some login => some ⟨login, .organization⟩
      | none => do
          let login ← textAt value ["installation", "account", "login"]
          return ⟨login, parseOwnerKind (textAt value ["installation", "account", "type"])⟩

/-- The status where a handler fails. -/
def statusOf : Except GithubError StatusCode → StatusCode
  | .ok status => status
  | .error _ => .internalServerError

def getHeader (headers : Headers) (key : String) : String := (headers key).getD ""

/-- What follows once the tenant is known. -/
def handleEvent (eventType : String) (body : Body) (tenant : TenantConfig) : Provider StatusCode :=
  match eventType with
  | "push" => do return statusOf (← handlePush crates state body tenant)
  | "pull_request" => do return statusOf (← handlePullRequest crates state body tenant)
  | "check_run" => do return statusOf (← handleCheckRun crates state body tenant)
  | "check_suite" => do return statusOf (← handleCheckSuite crates state body tenant)
  | _ => return .ok

/-- An installation event is logged and no more. -/
def handleWebhook (headers : Headers) (body : Body) : Provider StatusCode :=
  let eventType := getHeader headers "X-GitHub-Event"
  if eventType = "installation" then return .ok
  else do
    let signature := getHeader headers "X-Hub-Signature-256"
    let order ← call (.iterate state.apps.byId.keys)
    match identifySigningApp crates state order body signature with
    | none => return .unauthorized
    | some matchedApp =>
        match extractOwnerInfo crates body with
        | none => return .ok
        | some ownerInfo =>
            if ownerInfo.kind ≠ .organization then return .ok
            else
              match state.tenants.byAppAndOrg.lookup (matchedApp.id, ownerInfo.login) with
              | none => return .ok
              | some tenant => handleEvent crates state eventType body tenant

end Events

end Jefferies.Providers
