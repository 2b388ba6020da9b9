import Jefferies.Coordination.Outcomes
import Jefferies.Interaction.Can

/-!
# Calls that a coordinator gets past

Most calls can be answered so that the coordinator goes on as it was. Where the surroundings may answer them so, a
run can be led past everything but the calls that matter.
-/

namespace Jefferies.Coordination

open Pipelines StateStore RunHistory Interaction Interact Coordinator PipelineRun

/-- Calls other than those that dispatch a node, read outcomes or delete objects. -/
def Plain : Effect → Prop
  | .dispatch .. => False
  | .readOutcomes .. => False
  | .cancelNode .. => False
  | .cleanupRun _ => False
  | _ => True

/-- The plain calls may be answered in every way, and nothing comes of it. -/
def Lenient {W : Type} (answers : W → Coordinator → (e : Effect) → Resp e → W → Prop) : Prop :=
  ∀ w c e r, Plain e → answers w c e r w

/-- The coordinators agree in what decides about dispatches. -/
structure Alike (c c' : Coordinator) : Prop where
  run : c'.run = c.run
  cache : c'.nodeInfoCache = c.nodeInfoCache
  failFast : c'.failFastEnabled = c.failFastEnabled
  runId : c'.runId = c.runId
  runContext : c'.runContext = c.runContext

theorem Alike.refl (c : Coordinator) : Alike c c := ⟨rfl, rfl, rfl, rfl, rfl⟩

theorem Alike.trans {c c' c'' : Coordinator} (h : Alike c c') (h' : Alike c' c'') : Alike c c'' :=
  ⟨h'.run.trans h.run, h'.cache.trans h.cache, h'.failFast.trans h.failFast, h'.runId.trans h.runId,
    h'.runContext.trans h.runContext⟩

section Calls

variable {W : Type} {answers : W → Coordinator → (e : Effect) → Resp e → W → Prop}
  {goal : W → Coordinator → Effect → Prop} (hlenient : Lenient answers) {w : W} {c : Coordinator}

/-- With some answers, the program ends in the same world, with a coordinator that is alike. -/
def Passes {α : Type} (answers : W → Coordinator → (e : Effect) → Resp e → W → Prop)
    (goal : W → Coordinator → Effect → Prop) (w : W) (c : Coordinator) (Q : α → Prop) (p : Prog Coordinator Resp α) :
    Prop :=
  Can answers goal (fun w' c' a => w' = w ∧ Alike c c' ∧ Q a) w p

include hlenient

theorem cancelNodeTimeout_passes (n : String) : Passes answers goal w c (fun _ => True) (cancelNodeTimeout n c) := by
  unfold Coordinator.cancelNodeTimeout
  simp only [get_bind]
  cases c.nodePhaseHandles.lookup n with
  | none => exact .ret ⟨rfl, .refl c, trivial⟩
  | some timer => exact .call () w (hlenient _ _ _ _ trivial) (.ret ⟨rfl, ⟨rfl, rfl, rfl, rfl, rfl⟩, trivial⟩)

theorem notifyWatcherOfDeletion_passes (n : String) :
    Passes answers goal w c (fun _ => True) (notifyWatcherOfDeletion n c) := by
  unfold Coordinator.notifyWatcherOfDeletion
  simp only [get_bind]
  split
  · exact .call true w (hlenient _ _ _ _ trivial) (.ret ⟨rfl, .refl c, trivial⟩)
  · exact .ret ⟨rfl, .refl c, trivial⟩

/-- The save is accepted. -/
theorem persistState_passes : Passes answers goal w c (· = .ok ()) (persistState c) :=
  .call (.ok true) w (hlenient _ _ _ _ trivial) (.ret ⟨rfl, ⟨rfl, rfl, rfl, rfl, rfl⟩, rfl⟩)

theorem persistTransition_passes :
    Passes answers goal w c (fun _ => True) (persistStateAfterDispatchTransition c) :=
  (persistState_passes hlenient).seq fun _ _ _ h => .ret ⟨h.1, h.2.1, trivial⟩

theorem recordNodeCompleted_passes (n : String) (reason : Option InfraFailureReason) :
    Passes answers goal w c (fun _ => True) (recordNodeCompleted n reason c) := by
  refine .call (.ok none) w (hlenient _ _ _ _ trivial) ?_
  cases reason with
  | none =>
      refine .call (.ok none) w (hlenient _ _ _ _ trivial) ?_
      refine .call ⟨0, 0⟩ w (hlenient _ _ _ _ trivial) ?_
      exact .call (.ok ()) w (hlenient _ _ _ _ trivial) (.ret ⟨rfl, .refl c, trivial⟩)
  | some reason =>
      refine .call ⟨0, 0⟩ w (hlenient _ _ _ _ trivial) ?_
      refine .call (.ok none) w (hlenient _ _ _ _ trivial) ?_
      refine .call ⟨0, 0⟩ w (hlenient _ _ _ _ trivial) ?_
      exact .call (.ok ()) w (hlenient _ _ _ _ trivial) (.ret ⟨rfl, .refl c, trivial⟩)

theorem recordNodeDispatched_passes (n : String) (node : NodeInfo) :
    Passes answers goal w c (fun _ => True) (recordNodeDispatched n node c) := by
  refine .call ⟨0, 0⟩ w (hlenient _ _ _ _ trivial) ?_
  exact .call (.ok ()) w (hlenient _ _ _ _ trivial) (.ret ⟨rfl, .refl c, trivial⟩)

theorem armTimer_passes (n : String) (phase : TimerPhase) (secs : Nat) :
    Passes answers goal w c (fun _ => True) (armTimer n phase secs c) :=
  .call (0 : Nat) w (hlenient _ _ _ _ trivial) (.ret ⟨rfl, ⟨rfl, rfl, rfl, rfl, rfl⟩, trivial⟩)

/-- Without completions there is nothing to fold. -/
theorem fold_passes {m : HashMap String ReconcileResult} (h : ∀ n b, ¬Completes m n b) :
    Passes answers goal w c (· = false) (foldCompletionsFromOutcomes m c) := by
  obtain ⟨order, _, _⟩ := Ordering.exists_append m.keys [] .nil (by simp)
  refine .call order w (hlenient _ _ _ _ trivial) ?_
  show Passes answers goal w c _ (order.1.anyM (Coordinator.foldCompletion m) c)
  rw [← order.1.append_nil]
  apply Can.anyM_append (P := fun _ w' c' => w' = w ∧ c' = c) _ _ order.1 ⟨rfl, rfl⟩
  · rintro n l _ _ ⟨rfl, rfl⟩
    unfold Coordinator.foldCompletion
    rcases ho : m.lookup n with _ | (⟨b, s, f⟩ | _ | _ | _)
    · exact .ret ⟨rfl, rfl, rfl⟩
    · exact absurd ⟨s, f, ho⟩ (h n b)
    · exact .ret ⟨rfl, rfl, rfl⟩
    · exact .ret ⟨rfl, rfl, rfl⟩
    · exact .ret ⟨rfl, rfl, rfl⟩
  · rintro _ _ ⟨rfl, rfl⟩
    exact .ret ⟨rfl, .refl _, rfl⟩

/-- Without started nodes there is nothing to promote. -/
theorem promote_passes {m : HashMap String ReconcileResult} (h : ∀ n, ¬Started m n) :
    Passes answers goal w c (· = false) (promoteStartedPendingToRunning m c) := by
  obtain ⟨order, _, _⟩ := Ordering.exists_append m.keys [] .nil (by simp)
  refine .call order w (hlenient _ _ _ _ trivial) ?_
  have hnone : order.1.filter (isPromotable c.run m) = [] :=
    List.filter_eq_nil_iff.mpr fun n _ hn => h n (started_of_promotable hn)
  show Passes answers goal w c _ ((order.1.filter (isPromotable c.run m)).anyM Coordinator.promoteNode c)
  rw [hnone]
  exact .ret ⟨rfl, .refl c, rfl⟩

/-- The Running nodes get their timers. -/
theorem rehydratePhaseTimers_passes (m : HashMap String ReconcileResult) :
    Passes answers goal w c (fun _ => True) (rehydratePhaseTimers m c) := by
  obtain ⟨order, _, _⟩ :=
    Ordering.exists_append (c.run.nodesWith (· = .running)) [] .nil (by simp)
  refine .call (0 : Nat) w (hlenient _ _ _ _ trivial) ?_
  refine .call order w (hlenient _ _ _ _ trivial) ?_
  have hhistory : ∀ {c' : Coordinator} n startup runtime, Alike c c' →
      Can answers goal (fun w' c'' _ => w' = w ∧ Alike c c'') w (rehydrateFromHistory n startup runtime c') := by
    intro c' n startup runtime hc
    refine .call (.ok none) w (hlenient _ _ _ _ trivial) ?_
    exact (armTimer_passes hlenient n .runtime _).mono fun _ _ _ h => ⟨h.1, hc.trans h.2.1⟩
  have hloop : Can answers goal (fun w' c' _ => w' = w ∧ Alike c c') w
      (order.1.forM (Coordinator.rehydratePhaseTimer 0 m) c) := by
    refine Can.forM (P := fun _ w' c' => w' = w ∧ Alike c c') ?_ order.1 ⟨rfl, .refl c⟩
    rintro n l _ c' ⟨rfl, hc⟩
    unfold Coordinator.rehydratePhaseTimer
    simp only [get_bind]
    rcases m.lookup n with _ | (_ | s | _ | _)
    · exact hhistory n _ _ hc
    · exact hhistory n _ _ hc
    · exact (armTimer_passes hlenient n .runtime _).mono fun _ _ _ h => ⟨h.1, hc.trans h.2.1⟩
    · exact hhistory n _ _ hc
    · exact hhistory n _ _ hc
  exact hloop.mono fun _ _ _ h => ⟨h.1, h.2, trivial⟩

end Calls

end Jefferies.Coordination
