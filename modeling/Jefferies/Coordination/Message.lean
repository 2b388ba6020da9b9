import Jefferies.RunHistory.Records
import Jefferies.StateStore.RunState

/-!
# What coordinators are told

Messages, events and outcomes that reach a coordinator, and the settings and the context of a run.
-/

namespace Jefferies.Coordination

open RunHistory StateStore

inductive InfraFailureReason where
  | imagePullFailed (image message : String)
  | oomKilled
  | initContainerFailed (name message : String)
  | containerCreateError (message : String)
  | containerTerminated (exitCode : Int) (reason message : String)
  | podStartTimeout
  | podDeletedUnexpectedly
  | nodeLost
  | dispatchFailed (message : String)
  deriving DecidableEq

def InfraFailureReason.stableCode : InfraFailureReason → String
  | .imagePullFailed .. => "ImagePullFailed"
  | .oomKilled => "OOMKilled"
  | .initContainerFailed .. => "InitContainerFailed"
  | .containerCreateError _ => "ContainerCreateError"
  | .containerTerminated .. => "ContainerTerminated"
  | .podStartTimeout => "PodStartTimeout"
  | .podDeletedUnexpectedly => "PodDeletedUnexpectedly"
  | .nodeLost => "NodeLost"
  | .dispatchFailed _ => "DispatchFailed"

inductive CoordinatorMessage where
  | nodeTimedOut (nodeName : String)
  | nodePodRunning (nodeName : String)
  | nodeInfraFailed (nodeName : String) (reason : InfraFailureReason)
  | nodePodStartTimedOut (nodeName : String)
  deriving DecidableEq

inductive BackplaneEvent where
  | nodeCompleted (nodeName : String) (success : Bool)
  | cancel
  deriving DecidableEq

/-- What the select loop of a coordinator can take up. -/
inductive LoopEvent where
  | pipelineDeadline
  | heartbeat
  | s3Reconcile
  | internal (msg : Option CoordinatorMessage)
  | backplane (event : Option BackplaneEvent)
  deriving DecidableEq

inductive WatcherCommand where
  | expectDeletion (nodeName : String)
  | shutdown
  deriving DecidableEq

/-- The content of a node's status.json. -/
structure NodeOutcome where
  success : Option Bool
  startedAt : Option Nat
  finishedAt : Option Nat
  deriving DecidableEq

inductive ReconcileResult where
  | completed (success : Bool) (startedAtMs : Option Nat) (finishedAtMs : Nat)
  | inProgress (startedAtMs : Nat)
  | stillRunning
  | transientReadError (message : String)
  deriving DecidableEq

def ReconcileResult.ofOutcome (outcome : NodeOutcome) : ReconcileResult :=
  match outcome.success, outcome.finishedAt, outcome.startedAt with
  | some success, some finishedAtMs, startedAtMs => .completed success startedAtMs finishedAtMs
  | _, _, some startedAtMs => .inProgress startedAtMs
  | _, _, _ => .stillRunning

inductive DispatchError where
  | failed (message : String)
  | source (message : String)
  | kube (message : String)
  deriving DecidableEq

def DispatchError.toText : DispatchError → String
  | .failed message => "Dispatch failed: " ++ message
  | .source message => "Source error: " ++ message
  | .kube message => "Kubernetes error: " ++ message

inductive BackplaneError where
  | amqp (message : String)
  | pool (message : String)
  | serialization (message : String)
  | other (message : String)

structure AppConfig where
  defaultPipelineTimeoutSecs : Nat
  defaultNodeTimeoutSecs : Nat
  defaultNodeStartupTimeoutSecs : Nat
  defaultFailFast : Bool
  s3ReconcileIntervalSecs : Nat

/-- The settings of the configuration file that comes with the program. -/
def AppConfig.default : AppConfig where
  defaultPipelineTimeoutSecs := 3600
  defaultNodeTimeoutSecs := 600
  defaultNodeStartupTimeoutSecs := 300
  defaultFailFast := true
  s3ReconcileIntervalSecs := 60

structure RunMetadata where
  owner : String
  repo : String
  sha : String
  branch : Option String
  targetBranch : Option String
  tag : Option String
  prNumber : Option Int
  trigger : String

structure RunContext where
  owner : String
  repo : String
  sha : String
  branch : Option String
  targetBranch : Option String
  tag : Option String
  prNumber : Option Int
  trigger : String
  pipelineYaml : String
  createdAt : DateTime
  retryOf : Option String
  tenantSlug : Option String
  githubCheckRunId : Option Int

def RunContext.runMetadata (self : RunContext) : RunMetadata where
  owner := self.owner
  repo := self.repo
  sha := self.sha
  branch := self.branch
  targetBranch := self.targetBranch
  tag := self.tag
  prNumber := self.prNumber
  trigger := self.trigger

/-- The context of a run that a push started. -/
def RunContext.push (owner repo pipelineYaml : String) : RunContext where
  owner := owner
  repo := repo
  sha := "0123abc"
  branch := some "main"
  targetBranch := none
  tag := none
  prNumber := none
  trigger := "push"
  pipelineYaml := pipelineYaml
  createdAt := ⟨0, 0⟩
  retryOf := none
  tenantSlug := some owner
  githubCheckRunId := none

structure RunSummary where
  runId : String
  status : RunStatus
  nodeStatuses : HashMap String NodeStatus

/-- `(ms / 1000) as i64` and `((ms % 1000) * 1_000_000) as u32`. -/
def msToDatetime (ms : Nat) : Option DateTime :=
  DateTime.fromTimestamp (Int.bmod (ms / 1000) (2 ^ 64)) ((ms % 1000) * 1000000 % 2 ^ 32)

end Jefferies.Coordination
