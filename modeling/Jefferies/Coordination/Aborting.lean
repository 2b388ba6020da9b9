import Jefferies.Coordination.Confluence
import Jefferies.Coordination.Ignoring

/-!
# What an abort cancels

All paths that end a run early record its history, clean up and then cancel the nodes that are Running. The history
marks these nodes Failed, so that none is left to cancel.
-/

namespace Jefferies.Coordination

open RunHistory Interaction Interact Coordinator Monitor

/-- The nodes that were cancelled and those whose deletion was announced to the watcher. -/
structure Cancellations where
  cancelled : Finset String
  announced : Finset String

namespace Cancellations

def none : Cancellations := ⟨∅, ∅⟩

def asked (self : Cancellations) : Effect → Cancellations
  | .cancelNode _ n => { self with cancelled := insert n self.cancelled }
  | .watcherCommand _ (.expectDeletion n) => { self with announced := insert n self.announced }
  | _ => self

end Cancellations

/-- The watcher of cancellations. -/
def cancelling : Monitor Cancellations Coordinator LoopEvent Resp where
  assume _ _ := True
  ok _ _ _ := True
  next
    | γ, .answered _ e _ => γ.asked e
    | γ, .received _ _ => γ

/-- Exactly the nodes that are Running in `c` were cancelled, and the watcher was told so. -/
def CancelsRunning (c : Coordinator) (γ : Cancellations) : Prop :=
  γ.cancelled = c.run.nodesWith (· = .running) ∧ γ.announced = c.run.nodesWith (· = .running)

variable {γ : Cancellations} {c : Coordinator}

theorem cancelling_ignores {e : Effect} (h : ∀ γ : Cancellations, γ.asked e = γ) : Ignores cancelling e :=
  ⟨fun _ _ => trivial, fun γ _ _ => h γ⟩

theorem recordRunningNodeTerminated_unnoticed (n : String) :
    cancelling.Obeys (recordRunningNodeTerminated n c) γ (Unnoticed γ c) := by
  unfold recordRunningNodeTerminated
  simp only [get_bind]
  refine (fetchOutcome_unnoticed (cancelling_ignores fun _ => rfl)).seq ?_
  rintro _ _ outcome ⟨rfl, rfl⟩
  refine (orNow_unnoticed (cancelling_ignores fun _ => rfl) _ true).seq ?_
  rintro _ _ completedAt ⟨⟨rfl, rfl⟩, _⟩
  refine (fetchLog_unnoticed (cancelling_ignores fun _ => rfl)).seq ?_
  rintro _ _ log ⟨rfl, rfl⟩
  refine (cancelling_ignores fun _ => rfl).call.seq ?_
  rintro _ _ createdAt ⟨rfl, rfl⟩
  exact (cancelling_ignores fun _ => rfl).call.seq fun _ _ _ h => h

/-- No node is Running. -/
def Still (c : Coordinator) : Prop := ∀ n, c.run.statuses.lookup n ≠ some .running

theorem still_iff : Still c ↔ c.run.nodesWith (· = .running) = ∅ := by
  simp [Still, Finset.eq_empty_iff_forall_notMem, PipelineRun.mem_nodesWith]

/-- No node is Running once the history is recorded, and none was cancelled. -/
theorem recordHistory_stills (status : RunStatus) :
    cancelling.Obeys (recordHistory status c) γ fun γ' c' _ => γ' = γ ∧ Still c' := by
  unfold recordHistory runningNodes
  simp only [bind_assoc, pure_bind, get_bind]
  refine ⟨trivial, fun order _ => ?_⟩
  have hstart : ∀ n, c.run.statuses.lookup n = some .running → n ∈ order.1 := by
    intro n hn
    rw [← List.mem_toFinset, order.2.2]
    exact PipelineRun.mem_nodesWith.mpr ⟨_, hn, rfl⟩
  refine (obeys_forM (P := fun rest γ' c' => γ' = γ ∧ ∀ n, c'.run.statuses.lookup n = some .running → n ∈ rest) ?_
    order.1 ⟨rfl, hstart⟩).seq ?_
  · rintro n rest _ c' ⟨rfl, hrest⟩
    refine (recordRunningNodeTerminated_unnoticed n).seq ?_
    rintro _ _ _ ⟨rfl, rfl⟩
    refine ⟨rfl, fun m hm => ?_⟩
    -- a node that is marked is Running no more
    have hne : m ≠ n := by
      rintro rfl
      exact (PipelineRun.lookup_markFailed _ m).1 hm
    have hold := ((PipelineRun.marks_markFailed _ n).lookup_of_ne hne).symm.trans hm
    exact (List.mem_cons.mp (hrest m hold)).resolve_left hne
  · rintro _ c' _ ⟨rfl, hnone⟩
    simp only [get_bind]
    refine (cancelling_ignores fun _ => rfl).call.seq ?_
    rintro _ _ now ⟨rfl, rfl⟩
    refine (cancelling_ignores fun _ => rfl).call.seq ?_
    rintro _ _ _ ⟨rfl, rfl⟩
    exact ⟨rfl, fun n hn => absurd (hnone n hn) List.not_mem_nil⟩

theorem finalizeRun_stills (status : RunStatus) :
    cancelling.Obeys (finalizeRun status c) γ fun γ' c' _ => γ' = γ ∧ Still c' := by
  unfold finalizeRun
  refine (recordHistory_stills status).seq ?_
  rintro _ c' _ ⟨rfl, hstill⟩
  simp only [get_bind]
  split
  · refine (cancelling_ignores fun _ => rfl).call.mono ?_
    rintro _ _ _ ⟨rfl, rfl⟩
    exact ⟨rfl, hstill⟩
  · exact ⟨rfl, hstill⟩

theorem cleanup_unnoticed : cancelling.Obeys (cleanup c) γ (Unnoticed γ c) := by
  unfold cleanup
  simp only [get_bind]
  refine (cancelling_ignores fun _ => rfl).call.seq ?_
  rintro _ _ _ ⟨rfl, rfl⟩
  refine (cancelling_ignores fun _ => rfl).call.seq ?_
  rintro _ _ _ ⟨rfl, rfl⟩
  exact (cancelling_ignores fun _ => rfl).call.seq fun _ _ _ h => h

/-- Where no node is Running, none is cancelled. -/
theorem terminateRunningNodes_idle (status : RunStatus) (h : Still c) :
    cancelling.Obeys (terminateRunningNodes status c) γ fun γ' _ _ => γ' = γ := by
  unfold terminateRunningNodes runningNodes
  simp only [bind_assoc, pure_bind, get_bind]
  refine (cancelling_ignores fun _ => rfl).call.seq ?_
  rintro _ _ timers ⟨rfl, rfl⟩
  refine (obeys_forM (P := fun _ γ₁ c₁ => γ₁ = _ ∧ Still c₁) ?_ timers.1 ⟨rfl, h⟩).seq ?_
  · rintro n _ _ c' ⟨rfl, hstill⟩
    refine (cancelNodeTimeout_spared (fun _ => cancelling_ignores fun _ => rfl) n).mono ?_
    rintro _ c'' _ ⟨rfl, hrun⟩
    exact ⟨rfl, fun m => hrun ▸ hstill m⟩
  · rintro _ c' _ ⟨rfl, hstill⟩
    simp only [get_bind]
    refine (cancelling_ignores fun _ => rfl).call.seq ?_
    rintro _ _ order ⟨rfl, rfl⟩
    have hnone : order.1 = [] := by
      rw [← List.toFinset_eq_empty_iff, order.2.2, still_iff.mp hstill]
    rw [hnone]
    refine (shutdownPodWatcher_spared (fun _ => cancelling_ignores fun _ => rfl)
      fun _ => cancelling_ignores fun _ => rfl).seq ?_
    rintro _ _ _ ⟨rfl, _⟩
    rfl

/-- An abort cancels no node at all. -/
theorem abortRun_idle (status : RunStatus) :
    cancelling.Obeys (abortRun status c) γ fun γ' _ _ => γ' = γ := by
  unfold abortRun
  refine (finalizeRun_stills status).seq ?_
  rintro _ c₁ _ ⟨rfl, hstill⟩
  refine cleanup_unnoticed.seq ?_
  rintro _ _ _ ⟨rfl, rfl⟩
  exact (terminateRunningNodes_idle status hstill).seq fun _ _ _ h => h

/-- However its calls are answered, an abort cancels exactly the Running nodes only where there are none. -/
theorem abort_cancels_iff (status : RunStatus) (c : Coordinator) :
    cancelling.Obeys (abortRun status c) .none fun γ _ _ =>
      CancelsRunning c γ ↔ c.run.nodesWith (· = .running) = ∅ := by
  refine (abortRun_idle status).mono ?_
  rintro _ _ _ rfl
  constructor
  · exact fun h => h.1.symm
  · exact fun h => ⟨h.symm, h.symm⟩

/-- The coordinator of a new run once its first node is dispatched. -/
def building : Coordinator :=
  let c := freshCoordinator .default "run" .buildAndTest
  c.setRun (c.run.markRunning "build").2

/-- The node that is Running when the run is cancelled is not. -/
theorem abort_spares_running :
    ¬cancelling.Obeys (abortRun .cancelled building) .none fun γ _ _ => CancelsRunning building γ := by
  intro h
  obtain ⟨γ, _, _, hcancels, rfl⟩ := (h.and (abortRun_idle .cancelled)).ended fun γ s e =>
    ⟨(callsSucceed_answerable s e).choose, trivial⟩
  have hrunning : "build" ∈ building.run.nodesWith (· = .running) := by decide
  rw [← hcancels.1] at hrunning
  exact Finset.notMem_empty "build" hrunning

end Jefferies.Coordination
