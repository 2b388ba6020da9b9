import Jefferies.Coordination.Run
import Jefferies.Scheduling.Blame

/-!
# Nodes that are never executed

Why a run that has ended still has Pending nodes. This holds of every `PipelineRun`, also of one whose
statuses and dependencies do not speak of the same nodes.
-/

namespace Jefferies.Coordination

open StateStore Scheduling PipelineRun Relation

namespace PipelineRun

/-- The Pending node `n` is not ready because its dependency `dep` is not Success. -/
def HeldBy (run : PipelineRun) (n dep : String) : Prop :=
  run.statuses.lookup n = some .pending ∧ dep ∈ run.depsOf n ∧ run.statuses.lookup dep ≠ some .success

/-- A sequence of names from `n` that follows, from every Pending node, a dependency that is not Success. -/
def FollowsFrom (run : PipelineRun) (n : String) (w : ℕ → String) : Prop :=
  w 0 = n ∧ ∀ i, run.statuses.lookup (w i) = some .pending → run.HeldBy (w i) (w (i + 1))

variable {run : PipelineRun} {n : String} {w : ℕ → String}

/-! ## Over the graph of the run -/

theorem pending_iff :
    run.statuses.lookup n = some .pending ↔ n ∈ run.graph.tasks ∧ run.board n = .waiting := by
  have htask : n ∈ run.graph.tasks ↔ ∃ a, run.statuses.lookup n = some a := HashMap.mem_keys_iff_lookup
  rw [htask, board]
  rcases run.statuses.lookup n with _ | a
  · simp
  · cases a <;> simp [phase]

theorem heldBy_iff {dep : String} : run.HeldBy n dep ↔ run.graph.HeldBy run.board n dep := by
  have hsucc : run.board dep = .succeeded ↔ run.statuses.lookup dep = some .success := phase_eq_succeeded
  rw [HeldBy, Graph.HeldBy, pending_iff, and_assoc, Ne, Ne, hsucc]
  rfl

theorem graph_heldBy : run.graph.HeldBy run.board = run.HeldBy :=
  funext fun _ => funext fun _ => propext heldBy_iff.symm

theorem followsFrom_iff : run.FollowsFrom n w ↔ w 0 = n ∧ run.graph.Follows run.board w := by
  simp only [FollowsFrom, Graph.Follows, pending_iff, heldBy_iff, and_imp]

/-! ## Complete runs -/

theorem isComplete_iff_heldBy : run.isComplete = true ↔
    (∀ m, run.statuses.lookup m ≠ some .running) ∧
      ∀ m, run.statuses.lookup m = some .pending →
        ∃ dep ∈ run.depsOf m, run.statuses.lookup dep ≠ some .success := by
  rw [isComplete_iff, Finset.eq_empty_iff_forall_notMem]
  refine and_congr_right fun _ => forall_congr' fun m => ?_
  rw [mem_readyNodes]
  push Not
  rfl

/-- In a complete run every sequence from a Pending node ends. -/
theorem FollowsFrom.blame (h : run.FollowsFrom n w) (hcomplete : run.isComplete = true)
    (hn : run.statuses.lookup n = some .pending) :
    ∃ k ≤ run.statuses.keys.card, (∀ i < k, run.statuses.lookup (w i) = some .pending) ∧
      (run.statuses.lookup (w k) = some .failed ∨ run.statuses.lookup (w k) = none ∨
        TransGen run.HeldBy (w k) (w k)) := by
  obtain ⟨rfl, hfollows⟩ := followsFrom_iff.mp h
  have hst := isComplete_iff_stalled.mp hcomplete
  obtain ⟨k, hk, hbefore, hend⟩ := hst.blame hfollows (pending_iff.mp hn).2
  refine ⟨k, hk, fun i hi => pending_iff.mpr (hbefore i hi), ?_⟩
  rcases hend with hout | hfailed | hcycle
  · right; left
    cases hlook : run.statuses.lookup (w k) with
    | none => rfl
    | some a => exact absurd (HashMap.mem_keys_iff_lookup.mpr ⟨a, hlook⟩) hout
  · exact Or.inl (phase_eq_failed.mp hfailed)
  · rw [graph_heldBy] at hcycle
    exact Or.inr (Or.inr hcycle)

/-- A run is complete when no node is Running and every Pending node has a dependency that is not Success.
Then such dependencies lead from every Pending node to a Failed node, to a name that is no node, or into a
cycle of Pending nodes. -/
theorem isComplete_explained (run : PipelineRun) :
    (run.isComplete = true ↔
      (∀ n, run.statuses.lookup n ≠ some .running) ∧
        ∀ n, run.statuses.lookup n = some .pending →
          ∃ dep ∈ run.depsOf n, run.statuses.lookup dep ≠ some .success) ∧
    (run.isComplete = true → ∀ n, run.statuses.lookup n = some .pending →
      (∃ w, run.FollowsFrom n w) ∧
      ∀ w, run.FollowsFrom n w →
        ∃ k ≤ run.statuses.keys.card, (∀ i < k, run.statuses.lookup (w i) = some .pending) ∧
          (run.statuses.lookup (w k) = some .failed ∨ run.statuses.lookup (w k) = none ∨
            TransGen run.HeldBy (w k) (w k))) := by
  refine ⟨isComplete_iff_heldBy, fun hcomplete n hn => ⟨?_, fun w hw => hw.blame hcomplete hn⟩⟩
  obtain ⟨w, h0, hw⟩ := (isComplete_iff_stalled.mp hcomplete).exists_follows n
  exact ⟨w, followsFrom_iff.mpr ⟨h0, hw⟩⟩

/-- A run whose first node failed, so that the second one stays Pending. -/
def downstreamBlocked : PipelineRun :=
  ((new Pipelines.Pipeline.buildAndTest.nodeInfo).markFailed "build").2

theorem isComplete_explained_downstreamBlocked :
    downstreamBlocked.isComplete = true ∧
      ∃ w, downstreamBlocked.FollowsFrom "test" w :=
  ⟨by decide,
    (((isComplete_explained downstreamBlocked).2 (by decide)) "test" (by decide)).1⟩

end PipelineRun

end Jefferies.Coordination
