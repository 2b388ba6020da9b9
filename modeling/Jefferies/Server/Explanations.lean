import Jefferies.Coordination.Proper
import Jefferies.Server.Requests

/-!
# How a failed node is explained

The code of the reason for which a node failed is recorded with its row. What the server tells a user of the node is
made from that code.
-/

namespace Jefferies.Server

open RunHistory Coordination Sources Interaction Transition Deployment

variable {d : Deployment} {h : List Event} {σ : Servers}

/-- There is a message for a code if there is one for the reasons that have it. -/
theorem userMessageFromCode_stableCode (reason : InfraFailureReason) :
    (userMessageFromCode reason.stableCode).isSome = (userMessage reason).isSome := by
  cases reason <;> simp [userMessage, userMessageFromCode, InfraFailureReason.stableCode]

/-- In every run of the servers, a node with a reason is recorded as failed and as completed, and shown so whatever S3
says of it; the reason is one that a coordinator gives, and its message is shown if it has one. A node without a result
has neither a time, a log nor a reason. -/
theorem runs_explained (hr : d.Runs h σ) : ∀ e ∈ σ.world.history.nodeRuns,
    (e.row.success = none → e.row.startedAt = none ∧ e.row.completedAt = none ∧ e.row.failureReason = none ∧
      e.outputLog = none) ∧
    ∀ code ∈ e.row.failureReason,
      e.row.success = some false ∧ e.row.completedAt.isSome ∧ (∀ status, augmentWithLive e.row status = e.row) ∧
      ∃ reason : InfraFailureReason, reason.stableCode = code ∧
        (buildNodeRunResponse e.row).userMessage.isSome = (userMessage reason).isSome := by
  intro e he
  have hnode := (runs_consistent hr).nodes e he
  refine ⟨hnode.open_, fun code hcode => ?_⟩
  obtain ⟨hsuccess, hcompleted⟩ := hnode.failed (Option.isSome_of_mem hcode)
  obtain ⟨reason, rfl⟩ := hnode.coded code hcode
  refine ⟨hsuccess, hcompleted, fun status => ?_, reason, rfl, ?_⟩
  · exact if_pos hcompleted
  · rw [buildNodeRunResponse, Option.mem_def.mp hcode, ← userMessageFromCode_stableCode]
    rfl

/-- A server whose dispatcher refuses the first node. -/
def refused (runId : String) : List (Act Input Reply Outside) :=
  (begun runId).take 13 ++
    [.answer 1 (.dispatcherFails (.kube "exceeded quota") false), .answer 1 .done, .answer 1 (.time ⟨0, 0⟩),
      .answer 1 .done]

theorem runs_explained_refused : ∃ h σ, buildAndTest.Runs h σ ∧ ∃ e ∈ σ.world.history.nodeRuns,
    "DispatchFailed" ∈ e.row.failureReason ∧ e.row.success = some false ∧
    ∀ status, augmentWithLive e.row status = e.row := by
  obtain ⟨h, σ, hr, hcheck⟩ := buildAndTest.exists_runs (refused "7d444840-9dc0-11d1-b245-5ffdce74fad2")
    (fun a => a.2.world.history.nodeRuns.any fun e => e.row.failureReason = some "DispatchFailed") (by decide +kernel)
  obtain ⟨e, he, hreason⟩ := List.any_eq_true.mp hcheck
  simp only [decide_eq_true_eq] at hreason
  obtain ⟨hsuccess, _, hshown, _⟩ := (runs_explained hr e he).2 _ (Option.mem_def.mpr hreason)
  exact ⟨h, σ, hr, e, he, Option.mem_def.mpr hreason, hsuccess, hshown⟩

end Jefferies.Server
