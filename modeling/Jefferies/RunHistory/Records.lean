import Mathlib.Data.Int.DivMod
import Jefferies.Pipelines.Pipeline

/-!
# Records of the run history

A node definition is the JSON text of the node's information, and empty where there is none. Here the
information itself stands for its text, and `none` for the empty text.
-/

namespace Jefferies.RunHistory

open Pipelines

/-- An instant: seconds after the epoch and nanoseconds within the second. -/
structure DateTime where
  secs : Int
  nanos : Nat
  deriving DecidableEq, Repr

namespace DateTime

/-- The first second that a date can have: the start of the year -262143. -/
def minSecs : Int := -8334601228800

/-- The last second that a date can have: the end of the year 262142. -/
def maxSecs : Int := 8210266876799

/-- `DateTime::from_timestamp`. -/
def fromTimestamp (secs : Int) (nanos : Nat) : Option DateTime :=
  if minSecs ≤ secs ∧ secs ≤ maxSecs ∧ (nanos < 1000000000 ∨ (nanos < 2000000000 ∧ secs % 60 = 59)) then
    some ⟨secs, nanos⟩
  else none

/-- `(later - earlier).num_seconds()`: whole seconds, towards zero. -/
def numSecondsSince (later earlier : DateTime) : Int :=
  Int.tdiv ((later.secs - earlier.secs) * 1000000000 + (later.nanos - earlier.nanos)) 1000000000

/-- In nanoseconds. -/
def instant (t : DateTime) : Int := t.secs * 1000000000 + t.nanos

/-- Whole seconds, where the later time is indeed later. -/
theorem numSecondsSince_toNat (later earlier : DateTime) :
    (max (later.numSecondsSince earlier) 0).toNat = ((later.instant - earlier.instant) / 1000000000).toNat := by
  unfold numSecondsSince instant
  have hdiff : (later.secs - earlier.secs) * 1000000000 + ((later.nanos : Int) - earlier.nanos) =
      later.secs * 1000000000 + later.nanos - (earlier.secs * 1000000000 + earlier.nanos) := by omega
  rw [hdiff]
  generalize later.secs * 1000000000 + later.nanos - (earlier.secs * 1000000000 + earlier.nanos) = d
  rcases Int.le_total 0 d with hd | hd
  · rw [Int.tdiv_eq_ediv_of_nonneg hd]
    omega
  · obtain ⟨e, rfl⟩ : ∃ e, d = -e := ⟨-d, (Int.neg_neg d).symm⟩
    rw [Int.neg_tdiv, Int.tdiv_eq_ediv_of_nonneg (by omega)]
    omega

end DateTime

inductive RunHistoryError where
  | database (message : String)
  | migration (message : String)
  | invalidRunId (message : String)
  deriving DecidableEq

inductive RunStatus where
  | inProgress
  | success
  | failure
  | cancelled
  deriving DecidableEq, Repr

def RunStatus.asStr : RunStatus → String
  | .inProgress => "in_progress"
  | .success => "success"
  | .failure => "failure"
  | .cancelled => "cancelled"

structure PipelineStartRecord where
  runId : String
  pipelineName : String
  owner : String
  repo : String
  sha : String
  branch : Option String
  targetBranch : Option String
  tag : Option String
  prNumber : Option Int
  trigger : String
  pipelineDefinition : String
  createdAt : DateTime
  retryOf : Option String
  tenantSlug : Option String
  githubCheckRunId : Option Int

structure PipelineRunRecord extends PipelineStartRecord where
  status : RunStatus
  completedAt : Option DateTime

structure NodeDispatchRecord where
  runId : String
  nodeName : String
  nodeDefinition : Option NodeInfo
  createdAt : DateTime

structure NodeRunRecord extends NodeDispatchRecord where
  success : Bool
  startedAt : Option DateTime
  completedAt : Option DateTime
  outputLog : Option String
  failureReason : Option String

structure PipelineRunRow where
  runId : String
  pipelineName : String
  owner : String
  repo : String
  sha : String
  branch : Option String
  targetBranch : Option String
  tag : Option String
  prNumber : Option Int
  trigger : String
  pipelineDefinition : String
  status : RunStatus
  createdAt : DateTime
  completedAt : Option DateTime
  retryOf : Option String
  tenantSlug : Option String
  githubCheckRunId : Option Int
  deriving DecidableEq

structure NodeRunRow where
  runId : String
  nodeName : String
  nodeDefinition : Option NodeInfo
  success : Option Bool
  createdAt : DateTime
  startedAt : Option DateTime
  completedAt : Option DateTime
  failureReason : Option String

end Jefferies.RunHistory
