import Jefferies.Coordination.EventLoop
import Jefferies.Interaction.Monitor

/-!
# Calls that a monitor ignores

A monitor that grants a call and stays as it is does not notice the steps of a coordinator that make only such calls.
-/

namespace Jefferies.Coordination

open RunHistory Interaction Interact Coordinator Monitor

variable {Γ α : Type} {M : Monitor Γ Coordinator LoopEvent Resp} {γ : Γ} {c : Coordinator}

/-- The monitor grants the call and stays as it is, whatever the answer. -/
structure Ignores (M : Monitor Γ Coordinator LoopEvent Resp) (e : Effect) : Prop where
  ok : ∀ γ c, M.ok γ c e
  next : ∀ γ c r, M.next γ (.answered c e r) = γ

/-- The monitor and the coordinator are as they were. -/
def Unnoticed (γ : Γ) (c : Coordinator) (γ' : Γ) (c' : Coordinator) (_ : α) : Prop := γ' = γ ∧ c' = c

/-- The monitor and the run of the coordinator are as they were. -/
def RunKept (γ : Γ) (c : Coordinator) (γ' : Γ) (c' : Coordinator) (_ : α) : Prop := γ' = γ ∧ c'.run = c.run

theorem Ignores.call {e : Effect} (h : Ignores M e) : M.Obeys ((call e : Coord _) c) γ (Unnoticed γ c) :=
  ⟨h.ok γ c, fun r _ => ⟨h.next γ c r, rfl⟩⟩

theorem fetchOutcome_unnoticed {runId n : String} (h : Ignores M (.getNodeOutcome runId n)) :
    M.Obeys (fetchOutcome runId n c) γ (Unnoticed γ c) := by
  refine h.call.seq ?_
  rintro γ' c' r hr
  cases r with
  | error => exact hr
  | ok => exact hr

theorem fetchLog_unnoticed {runId n : String} (h : Ignores M (.getNodeLog runId n)) :
    M.Obeys (fetchLog runId n c) γ (Unnoticed γ c) := by
  refine h.call.seq ?_
  rintro γ' c' r hr
  cases r with
  | error => exact hr
  | ok => exact hr

/-- The present moment takes the place of an unknown one where it is wanted. -/
theorem orNow_unnoticed (h : Ignores M .utcNow) (known : Option DateTime) (wanted : Bool) :
    M.Obeys (orNow known wanted c) γ fun γ' c' t =>
      Unnoticed γ c γ' c' t ∧ (t.isSome = true ↔ known.isSome = true ∨ wanted = true) := by
  unfold orNow
  cases known with
  | some t => exact ⟨⟨rfl, rfl⟩, by simp⟩
  | none =>
      cases wanted with
      | true => exact h.call.seq fun _ _ _ hr => ⟨hr, by simp⟩
      | false => exact ⟨⟨rfl, rfl⟩, by simp⟩

theorem persistState_spared (h : ∀ runId state version, Ignores M (.saveRun runId state version)) :
    M.Obeys (persistState c) γ (RunKept γ c) := by
  unfold persistState
  simp only [get_bind]
  refine (h _ _ _).call.seq ?_
  rintro _ _ r ⟨rfl, rfl⟩
  cases r with
  | error => exact ⟨rfl, rfl⟩
  | ok b =>
      cases b with
      | true => exact ⟨rfl, rfl⟩
      | false => exact ⟨rfl, rfl⟩

theorem cancelNodeTimeout_spared (h : ∀ handle, Ignores M (.abortTimer handle)) (n : String) :
    M.Obeys (cancelNodeTimeout n c) γ (RunKept γ c) := by
  unfold cancelNodeTimeout
  simp only [get_bind]
  cases c.nodePhaseHandles.lookup n with
  | none => exact ⟨rfl, rfl⟩
  | some timer =>
      simp only [modify_bind]
      refine (h timer.handle).call.mono ?_
      rintro _ _ _ ⟨rfl, rfl⟩
      exact ⟨rfl, rfl⟩

theorem notifyWatcherOfDeletion_unnoticed (h : ∀ runId n, Ignores M (.watcherCommand runId (.expectDeletion n)))
    (n : String) : M.Obeys (notifyWatcherOfDeletion n c) γ (Unnoticed γ c) := by
  unfold notifyWatcherOfDeletion
  simp only [get_bind]
  split
  · exact (h _ n).call.seq fun _ _ _ hr => hr
  · exact ⟨rfl, rfl⟩

theorem armTimer_spared (h : ∀ runId n phase secs, Ignores M (.spawnTimer runId n phase secs)) (n : String)
    (phase : TimerPhase) (secs : Nat) : M.Obeys (armTimer n phase secs c) γ (RunKept γ c) := by
  unfold armTimer
  simp only [get_bind]
  refine (h _ _ _ _).call.seq ?_
  rintro _ _ handle ⟨rfl, rfl⟩
  exact ⟨rfl, rfl⟩

theorem recordNodeDispatched_unnoticed (hnow : Ignores M .utcNow)
    (h : ∀ record, Ignores M (.recordNodeDispatched record)) (n : String) (node : Pipelines.NodeInfo) :
    M.Obeys (recordNodeDispatched n node c) γ (Unnoticed γ c) := by
  unfold recordNodeDispatched
  simp only [get_bind]
  refine hnow.call.seq ?_
  rintro _ _ createdAt ⟨rfl, rfl⟩
  exact (h _).call.seq fun _ _ _ hr => hr

theorem shutdownPodWatcher_spared (hcommand : ∀ runId, Ignores M (.watcherCommand runId .shutdown))
    (habort : ∀ runId, Ignores M (.abortWatcher runId)) : M.Obeys (shutdownPodWatcher c) γ (RunKept γ c) := by
  unfold shutdownPodWatcher
  simp only [get_bind]
  split
  · simp only [modify_bind]
    refine (hcommand _).call.seq ?_
    rintro _ _ _ ⟨rfl, rfl⟩
    refine (habort _).call.mono ?_
    rintro _ _ _ ⟨rfl, rfl⟩
    exact ⟨rfl, rfl⟩
  · exact ⟨rfl, rfl⟩

end Jefferies.Coordination
