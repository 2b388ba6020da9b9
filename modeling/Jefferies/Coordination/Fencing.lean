import Mathlib.Data.Set.Basic
import Jefferies.Coordination.Calling
import Jefferies.Coordination.DependencyOrder

/-!
# Fencing

A save that the store rejects tells a coordinator that another one has written its run. Of the places where a
coordinator saves, only those behind a dispatch and behind a promotion let it go on quietly; behind every
other one it ends the run. `fencing` says which rejections, answers and events leave a fenced coordinator
without an effect on what the coordinators of the run share.
-/

namespace Jefferies.Coordination.Fencing

open Pipelines StateStore RunHistory Interaction Interact Monitor Coordinator PipelineRun

/-- The call acts on the world that the coordinators of a run share. -/
def SharedEffect : Effect → Prop
  | .dispatch .. => True
  | .cancelNode .. => True
  | .recordNodeRun _ => True
  | .recordPipelineRun _ => True
  | .reportCompleted .. => True
  | .cleanupRun _ => True
  | .releaseLease _ => True
  | .deleteRun _ => True
  | _ => False

/-- Version fencing rejects the save. -/
def Rejects : (e : Effect) → Resp e → Prop
  | .saveRun .., .ok false => True
  | _, _ => False

def IsDispatch : Effect → Prop
  | .dispatch .. => True
  | _ => False

/-- The nodes that the outcomes report as completed. -/
def completedIn (outcomes : HashMap String ReconcileResult) : Set String :=
  {n | ∃ success startedAtMs finishedAtMs,
    outcomes.lookup n = some (.completed success startedAtMs finishedAtMs)}

/-- The nodes read as completed that are still to be recorded, after an answer. -/
def leftAfter (left : Set String) : (e : Effect) → Resp e → Set String
  | .readOutcomes .., some outcomes => completedIn outcomes
  | .readOutcomes .., none => ∅
  | .recordNodeRun record, _ => {n | n ∈ left ∧ (record.failureReason = none → n ≠ record.nodeName)}
  | _, _ => left

/-- What the watcher keeps: whether a save was rejected, the statuses of the moment before, whether that was
a dispatch, and the nodes that the present handler has read as completed and not yet recorded. -/
structure Fence where
  fenced : Prop
  statuses : HashMap String NodeStatus
  dispatched : Prop
  left : Set String

/-- The watcher of a coordinator as it is spawned; `fenced` where the save of the new run was rejected. -/
def Fence.start (c : Coordinator) (fenced : Prop) : Fence := ⟨fenced, c.run.statuses, False, ∅⟩

def Fence.next (γ : Fence) : Moment Coordinator LoopEvent Resp → Fence
  | .received c _ => ⟨γ.fenced, c.run.statuses, False, ∅⟩
  | .answered c e r => ⟨γ.fenced ∨ Rejects e r, c.run.statuses, IsDispatch e, leftAfter γ.left e r⟩

/-- The save follows the start of a node, behind a dispatch no other node is ready, and no completion is left
to be handled. -/
def QuietRejection (γ : Fence) (run : PipelineRun) : Prop :=
  (∃ n, γ.statuses.lookup n = some .pending ∧ run.statuses.lookup n = some .running) ∧
    (γ.dispatched → run.readyNodes = ∅) ∧ γ.left = ∅

/-- The node has completed, or the run does not have it. -/
def Ended (run : PipelineRun) (n : String) : Prop :=
  run.statuses.lookup n ≠ some .running ∧ run.statuses.lookup n ≠ some .pending

/-- The events that a fenced coordinator takes up without an effect. -/
def Harmless (run : PipelineRun) : LoopEvent → Prop
  | .pipelineDeadline => False
  | .heartbeat => True
  | .s3Reconcile => True
  | .internal none => True
  | .internal (some (.nodePodRunning _)) => True
  | .internal (some (.nodeTimedOut n)) => Ended run n
  | .internal (some (.nodeInfraFailed n _)) => Ended run n
  | .internal (some (.nodePodStartTimedOut n)) => Ended run n
  | .backplane _ => False

/-- Some node runs. -/
def Busy (run : PipelineRun) : Prop := ∃ n, run.statuses.lookup n = some .running

/-- The watcher assumes that saves are rejected only where the coordinator goes on quietly, and that what
reaches it from then on brings it to no effect. It promises that a fenced coordinator has none. -/
def fencing : Monitor Fence Coordinator LoopEvent Resp where
  assume γ
    | .answered c (.saveRun ..) (.ok false) => QuietRejection γ c.run
    | .answered c (.subscribeRun _) (.ok ()) => γ.fenced → c.run.readyNodes = ∅ ∧ Busy c.run
    | .answered _ (.nodePodExists ..) (.ok false) => ¬γ.fenced
    | .answered _ (.readOutcomes ..) (some outcomes) => γ.fenced → completedIn outcomes = ∅
    | .received c event => γ.fenced → Harmless c.run event
    | _ => True
  ok γ _ e := γ.fenced → ¬SharedEffect e
  next := Fence.next

/-! ## What calls keep -/

variable {f : Prop} {L : Set String} {γ : Fence} {c : Coordinator}

/-- A call other than a save and a reading, without an effect on what is shared where `f` holds, that records
no completion of a node of `L`. -/
def Plain (f : Prop) (L : Set String) : Effect → Prop
  | .saveRun .. => False
  | .readOutcomes .. => False
  | .recordNodeRun record => ¬f ∧ (record.failureReason = none → record.nodeName ∉ L)
  | e => SharedEffect e → ¬f

/-- The coordinator is fenced as `f` says, the nodes of `L` are still to be recorded, and no node has started
since the moment before. -/
structure Steady (f : Prop) (L : Set String) (γ : Fence) (c : Coordinator) : Prop where
  fenced : γ.fenced ↔ f
  left : L ⊆ γ.left
  still : ∀ n, γ.statuses.lookup n = some .pending → c.run.statuses.lookup n ≠ some .running

/-- Marking a node with an end is no start of a node. -/
theorem Steady.mark {run' : PipelineRun} {n : String} {a : NodeStatus} (h : Steady f L γ c)
    (hm : Marks c.run run' n a) (ha : a ≠ .running) : Steady f L γ (c.setRun run') := by
  refine ⟨h.fenced, h.left, fun m hpend hrun => ?_⟩
  rcases hm.lookup_eq hrun with hold | ⟨_, hrun⟩
  · exact h.still m hpend hold
  · exact ha hrun.symm

theorem still_of_eq {statuses : HashMap String NodeStatus} (n : String)
    (h : statuses.lookup n = some .pending) : statuses.lookup n ≠ some .running := by
  rw [h]
  simp

theorem Plain.not_shared {e : Effect} (h : Plain f L e) (hf : f) : ¬SharedEffect e := by
  intro hs
  cases e with
  | saveRun => exact hs
  | readOutcomes => exact hs
  | recordNodeRun record => exact h.1 hf
  | _ => exact h hs hf

theorem Plain.not_rejects {e : Effect} (h : Plain f L e) (r : Resp e) : ¬Rejects e r := by
  cases e with
  | saveRun => exact h.elim
  | _ => exact id

theorem Plain.left {e : Effect} (h : Plain f L e) {left : Set String} (hl : L ⊆ left) (r : Resp e) :
    L ⊆ leftAfter left e r := by
  cases e with
  | saveRun => exact h.elim
  | readOutcomes => exact h.elim
  | recordNodeRun record =>
      intro n hn
      refine ⟨hl hn, fun hr hname => h.2 hr ?_⟩
      rwa [← hname]
  | _ => exact hl

theorem call_steady {e : Effect} (h : Steady f L γ c) (hp : Plain f L e) :
    fencing.Obeys ((call e : Coord _) c) γ fun γ' c' _ => Steady f L γ' c' ∧ c' = c := by
  refine ⟨fun hf => hp.not_shared (h.fenced.mp hf), fun r _ => ⟨⟨?_, hp.left h.left r, still_of_eq⟩, rfl⟩⟩
  show γ.fenced ∨ Rejects e r ↔ f
  rw [h.fenced]
  exact or_iff_left (hp.not_rejects r)

/-- The watcher keeps up and the run is as it was in `c`. -/
def Kept {α : Type} (f : Prop) (L : Set String) (c : Coordinator) (γ' : Fence) (c' : Coordinator) (_ : α) :
    Prop :=
  Steady f L γ' c' ∧ c'.run = c.run

theorem cancelNodeTimeout_kept (h : Steady f L γ c) (n : String) :
    fencing.Obeys (cancelNodeTimeout n c) γ (Kept f L c) := by
  unfold cancelNodeTimeout
  simp only [get_bind]
  cases c.nodePhaseHandles.lookup n with
  | none => exact ⟨h, rfl⟩
  | some timer =>
      simp only [modify_bind]
      have h' : Steady f L γ (c.removeTimer n) := ⟨h.fenced, h.left, h.still⟩
      refine (call_steady h' (by exact False.elim)).mono ?_
      rintro γ₁ _ _ ⟨h₁, rfl⟩
      exact ⟨h₁, rfl⟩

theorem notifyWatcherOfDeletion_kept (h : Steady f L γ c) (n : String) :
    fencing.Obeys (notifyWatcherOfDeletion n c) γ fun γ' c' _ => Steady f L γ' c' ∧ c' = c := by
  unfold notifyWatcherOfDeletion
  simp only [get_bind]
  split
  · exact (call_steady h (by exact False.elim)).seq fun _ _ _ h₁ => h₁
  · exact ⟨h, rfl⟩

theorem armTimer_kept (h : Steady f L γ c) (n : String) (phase : TimerPhase) (secs : Nat) :
    fencing.Obeys (armTimer n phase secs c) γ (Kept f L c) := by
  unfold armTimer
  simp only [get_bind]
  refine (call_steady h (by exact False.elim)).seq ?_
  rintro γ₁ _ handle ⟨h₁, rfl⟩
  exact ⟨⟨h₁.fenced, h₁.left, h₁.still⟩, rfl⟩

theorem spawnRuntimeTimeout_kept (h : Steady f L γ c) (n : String) (secs : Option Nat) :
    fencing.Obeys (spawnRuntimeTimeout n secs c) γ (Kept f L c) := armTimer_kept h n .runtime _

theorem handlePodRunning_kept (h : Steady f L γ c) (n : String) :
    fencing.Obeys (handlePodRunning n c) γ (Kept f L c) := by
  unfold handlePodRunning
  simp only [get_bind]
  split
  · exact ⟨h, rfl⟩
  · refine (cancelNodeTimeout_kept h n).seq ?_
    rintro γ₁ c₁ _ ⟨h₁, hrun₁⟩
    refine (spawnRuntimeTimeout_kept h₁ n _).mono ?_
    rintro γ₂ c₂ _ ⟨h₂, hrun₂⟩
    exact ⟨h₂, hrun₂.trans hrun₁⟩

theorem recordNodeDispatched_kept (h : Steady f L γ c) (n : String) (node : NodeInfo) :
    fencing.Obeys (recordNodeDispatched n node c) γ fun γ' c' _ => Steady f L γ' c' ∧ c' = c := by
  unfold recordNodeDispatched
  simp only [get_bind]
  refine (call_steady h (by exact False.elim)).seq ?_
  rintro γ₁ c _ ⟨h₁, rfl⟩
  exact (call_steady h₁ (by exact False.elim)).seq fun _ _ _ h₂ => h₂

theorem fetchOutcome_kept (h : Steady f L γ c) (n : String) :
    fencing.Obeys (fetchOutcome c.runId n c) γ fun γ' c' _ => Steady f L γ' c' ∧ c' = c := by
  refine (call_steady h (by exact False.elim)).seq ?_
  rintro γ₁ c₁ r h₁
  rcases r with e | o <;> exact h₁

theorem fetchLog_kept (h : Steady f L γ c) (n : String) :
    fencing.Obeys (fetchLog c.runId n c) γ fun γ' c' _ => Steady f L γ' c' ∧ c' = c := by
  refine (call_steady h (by exact False.elim)).seq ?_
  rintro γ₁ c₁ r h₁
  rcases r with e | o <;> exact h₁

theorem orNow_kept (h : Steady f L γ c) (known : Option DateTime) (wanted : Bool) :
    fencing.Obeys (orNow known wanted c) γ fun γ' c' _ => Steady f L γ' c' ∧ c' = c := by
  unfold orNow
  cases known with
  | some t => exact ⟨h, rfl⟩
  | none =>
      cases wanted with
      | true => exact (call_steady h (by exact False.elim)).seq fun _ _ _ h₁ => h₁
      | false => exact ⟨h, rfl⟩

theorem recordNodeCompleted_kept (h : Steady False L γ c) {n : String} (hn : n ∉ L)
    (reason : Option InfraFailureReason) :
    fencing.Obeys (recordNodeCompleted n reason c) γ fun γ' c' _ => Steady False L γ' c' ∧ c' = c := by
  unfold recordNodeCompleted
  simp only [get_bind]
  refine (fetchOutcome_kept h n).seq ?_
  rintro γ₁ c o ⟨h₁, rfl⟩
  refine (orNow_kept h₁ _ _).seq ?_
  rintro γ₂ c t ⟨h₂, rfl⟩
  refine (fetchLog_kept h₂ n).seq ?_
  rintro γ₃ c log ⟨h₃, rfl⟩
  refine (call_steady h₃ (by exact False.elim)).seq ?_
  rintro γ₄ c now ⟨h₄, rfl⟩
  exact (call_steady h₄ (by exact ⟨id, fun _ => hn⟩)).seq fun _ _ _ h₅ => h₅

theorem recordDispatchFailed_kept (h : Steady False L γ c) (n error : String) :
    fencing.Obeys (recordDispatchFailed n error c) γ fun γ' c' _ => Steady False L γ' c' ∧ c' = c := by
  unfold recordDispatchFailed
  simp only [get_bind]
  refine (call_steady h (by exact False.elim)).seq ?_
  rintro γ₁ c now ⟨h₁, rfl⟩
  refine Obeys.seq (call_steady h₁ ⟨id, fun hr => ?_⟩) fun _ _ _ h₂ => h₂
  exact absurd hr (by simp)

/-! ## Saving -/

/-- What a save leaves: the coordinator is fenced only if the save was rejected quietly. -/
def Saved (L : Set String) (γ : Fence) (c : Coordinator) (γ' : Fence) (c' : Coordinator)
    (r : Except StateStoreError Unit) : Prop :=
  c'.run = c.run ∧ (Steady False L γ' c' ∨
    (Steady True ∅ γ' c' ∧ QuietRejection γ c.run ∧ ∃ e, r = .error e))

theorem persistState_saved (hf : ¬γ.fenced) (hl : L ⊆ γ.left) :
    fencing.Obeys (persistState c) γ (Saved L γ c) := by
  refine ⟨fun h => absurd h hf, fun r hr => ?_⟩
  have hfree : ∀ r, ¬Rejects (.saveRun c.runId (c.run.toRunState (c.stateVersion + 1) c.pipeline)
      c.stateVersion) r → Steady False L (Fence.next γ (.answered c _ r)) c := fun r hr =>
    ⟨⟨fun h => (h.elim hf hr).elim, False.elim⟩, hl, still_of_eq⟩
  rcases r with e | b
  · exact ⟨rfl, Or.inl (hfree _ id)⟩
  · cases b with
    | true =>
        have h := hfree (.ok true) id
        exact ⟨rfl, Or.inl ⟨h.fenced, h.left, h.still⟩⟩
    | false => exact ⟨rfl, Or.inr ⟨⟨⟨fun _ => trivial, fun _ => Or.inr trivial⟩, by simp, still_of_eq⟩, hr, _, rfl⟩⟩

/-- Where no node has started since the moment before, a save is not rejected. -/
theorem persistState_still (h : Steady False L γ c) :
    fencing.Obeys (persistState c) γ fun γ' c' _ => Steady False L γ' c' ∧ c'.run = c.run := by
  refine (persistState_saved h.fenced.mp h.left).mono ?_
  rintro γ₁ c₁ r ⟨hrun, h₁ | ⟨_, ⟨⟨n, hpend, hbusy⟩, _⟩, _⟩⟩
  · exact ⟨h₁, hrun⟩
  · exact absurd hbusy (h.still n hpend)

/-! ## Dispatching -/

/-- A handler that dispatches goes on as before, or it was fenced quietly and has nothing more to do. -/
def Settled (L : Set String) (γ : Fence) (c : Coordinator) : Prop :=
  Steady False L γ c ∨ (Steady True ∅ γ c ∧ Busy c.run ∧ c.run.readyNodes = ∅ ∧ L = ∅)

theorem recordAndArm_kept (h : Steady f L γ c) (n : String) (node : NodeInfo) (secs : Nat) :
    fencing.Obeys ((recordNodeDispatched n node >>= fun _ => spawnStartupTimeout n secs) c) γ
      (Kept f L c) := by
  refine (recordNodeDispatched_kept h n node).seq ?_
  rintro γ₁ c _ ⟨h₁, rfl⟩
  exact armTimer_kept h₁ n .startup secs

theorem transition_saved (hf : ¬γ.fenced) (hl : L ⊆ γ.left) :
    fencing.Obeys (persistStateAfterDispatchTransition c) γ fun γ' c' _ => ∃ r, Saved L γ c γ' c' r :=
  (persistState_saved hf hl).seq fun _ _ r hs => ⟨r, hs⟩

theorem transition_still (h : Steady False L γ c) :
    fencing.Obeys (persistStateAfterDispatchTransition c) γ (Kept False L c) :=
  (persistState_still h).seq fun _ _ _ h₁ => h₁

theorem persistThenFail_kept (h : Steady False L γ c) (n error : String) :
    fencing.Obeys ((persistStateAfterDispatchTransition >>= fun _ => recordDispatchFailed n error) c) γ
      (Kept False L c) := by
  refine (transition_still h).seq ?_
  rintro γ₁ c₂ _ ⟨h₁, hrun⟩
  refine (recordDispatchFailed_kept h₁ n error).mono ?_
  rintro γ₂ _ _ ⟨h₂, rfl⟩
  exact ⟨h₂, hrun⟩

theorem dispatchReadyNode_settled (h : Steady False L γ c) {n : String} (hn : n ∈ c.run.readyNodes) :
    fencing.Obeys (dispatchReadyNode n c) γ fun γ' c' _ => Settled L γ' c' ∧
      ∃ a, Marks c.run c'.run n a := by
  unfold dispatchReadyNode
  simp only [get_bind]
  have hfailed := marks_markDispatchFailed c.run n
  cases c.nodeInfoCache.lookup n with
  | none =>
      simp only [mark, modifyGet_bind]
      refine (persistThenFail_kept (h.mark hfailed (by simp)) n _).mono ?_
      rintro γ₁ c₁ _ ⟨h₁, hrun⟩
      exact ⟨Or.inl h₁, _, by rw [hrun]; exact hfailed⟩
  | some node =>
      refine Obeys.seq (P := fun γ₁ c₁ _ => Steady False L γ₁ c₁ ∧ γ₁.dispatched ∧ c₁ = c)
        ⟨fun hf => (h.fenced.mp hf).elim, fun r _ =>
          ⟨⟨⟨fun hf => hf.elim h.fenced.mp id, False.elim⟩, h.left, still_of_eq⟩, trivial, rfl⟩⟩ ?_
      rintro γ₁ c₁ r ⟨h₁, hdispatched, rfl⟩
      have hpend := (mem_readyNodes.mp hn).1
      have hmarks := marks_markRunning c₁.run n
      rcases r with e | ⟨⟩
      · simp only [mark, modifyGet_bind]
        refine (persistThenFail_kept (h₁.mark hfailed (by simp)) n _).mono ?_
        rintro γ₂ c₂ _ ⟨h₂, hrun⟩
        exact ⟨Or.inl h₂, _, by rw [hrun]; exact hfailed⟩
      · simp only [mark, modifyGet_bind]
        split
        · refine (transition_saved h₁.fenced.mp h₁.left).seq ?_
          rintro γ₂ c₂ _ ⟨r, hrun, h₂ | ⟨h₂, hq, _⟩⟩
          · refine (recordAndArm_kept h₂ n node _).mono ?_
            rintro γ₃ c₃ _ ⟨h₃, hrun₃⟩
            exact ⟨Or.inl h₃, _, by rw [hrun₃, hrun]; exact hmarks⟩
          · refine (recordAndArm_kept h₂ n node _).mono ?_
            rintro γ₃ c₃ _ ⟨h₃, hrun₃⟩
            have hrun' := hrun₃.trans hrun
            obtain ⟨⟨m, _, hbusy⟩, hready, hleft⟩ := hq
            refine ⟨Or.inr ⟨h₃, ?_, ?_, ?_⟩, _, by rw [hrun']; exact hmarks⟩
            · rw [hrun']
              exact ⟨m, hbusy⟩
            · rw [hrun']
              exact hready hdispatched
            · exact Set.subset_empty_iff.mp (hleft ▸ h₁.left)
        · rename_i hmark
          simp [PipelineRun.markRunning, hpend] at hmark

theorem dispatchReadyNodes_settled (h : Steady False L γ c) :
    fencing.Obeys (dispatchReadyNodes c) γ fun γ' c' _ => Settled L γ' c' := by
  unfold dispatchReadyNodes
  simp only [get_bind]
  refine (call_steady h (by exact False.elim)).seq ?_
  rintro γ₁ c ⟨names, hnodup, hnames⟩ ⟨h₁, rfl⟩
  -- the names still to come are ready, so there are none once nothing is ready
  let inv := fun (l : List String) γ c => Settled L γ c ∧ l.Nodup ∧ ∀ n ∈ l, n ∈ c.run.readyNodes
  have hready : ∀ n ∈ names, n ∈ c.run.readyNodes := fun n hn => by
    rw [← hnames]
    exact List.mem_toFinset.mpr hn
  refine (obeys_forM (P := inv) ?_ names ⟨Or.inl h₁, hnodup, hready⟩).mono fun _ _ _ h => h.1
  rintro n l γ c ⟨h | ⟨_, _, hnone, _⟩, hnd, hall⟩
  · refine (dispatchReadyNode_settled h (hall n (by simp))).mono ?_
    rintro γ' c' _ ⟨h', a, hm⟩
    refine ⟨h', (List.nodup_cons.mp hnd).2, fun m hmem => ?_⟩
    exact Keeps.ready_of_marks hm (hall m (by simp [hmem])) fun h => (List.nodup_cons.mp hnd).1 (h ▸ hmem)
  · have hmem := hall n (by simp)
    rw [hnone] at hmem
    simp at hmem

/-- Where nothing is ready, nothing is dispatched. -/
theorem dispatchReadyNodes_none (h : Steady f L γ c) (hnone : c.run.readyNodes = ∅) :
    fencing.Obeys (dispatchReadyNodes c) γ (Kept f L c) := by
  unfold dispatchReadyNodes
  simp only [get_bind]
  refine (call_steady h (by exact False.elim)).seq ?_
  rintro γ₁ c ⟨names, hnodup, hnames⟩ ⟨h₁, rfl⟩
  have hnil : names = [] := List.toFinset_eq_empty_iff names |>.mp (hnames.trans hnone)
  subst hnil
  exact ⟨h₁, rfl⟩

/-! ## Handlers -/

/-- A handler that asks for the run to be aborted is not fenced. -/
def Answered (L : Set String) (γ : Fence) (c : Coordinator) (abort : Bool) : Prop :=
  Steady False L γ c ∨
    (abort = false ∧ Steady True ∅ γ c ∧ Busy c.run ∧ c.run.readyNodes = ∅ ∧ L = ∅)

theorem Settled.answered (h : Settled L γ c) : Answered L γ c false := h.imp id fun h => ⟨rfl, h⟩

theorem failFastOrDispatch_answered (h : Steady False L γ c) :
    fencing.Obeys (failFastOrDispatch c) γ (Answered L) := by
  unfold failFastOrDispatch
  simp only [get_bind]
  split
  · exact Or.inl h
  · exact (dispatchReadyNodes_settled h).seq fun _ _ _ hs => hs.answered

theorem cancelAndRecord_answered (h : Steady False L γ c) {n : String} (hn : n ∉ L)
    (reason : Option InfraFailureReason) :
    fencing.Obeys ((notifyWatcherOfDeletion n >>= fun _ => get >>= fun self =>
      call (.cancelNode self.runId n) >>= fun _ => recordNodeCompleted n reason >>= fun _ =>
      failFastOrDispatch) c) γ (Answered L) := by
  refine (notifyWatcherOfDeletion_kept h n).seq ?_
  rintro γ₁ c _ ⟨h₁, rfl⟩
  simp only [get_bind]
  refine (call_steady h₁ (by exact fun _ => id)).seq ?_
  rintro γ₂ c _ ⟨h₂, rfl⟩
  refine (recordNodeCompleted_kept h₂ hn reason).seq ?_
  rintro γ₃ c _ ⟨h₃, rfl⟩
  exact failFastOrDispatch_answered h₃

theorem handleNodeInfraFailed_answered (h : Steady False L γ c) {n : String} (hn : n ∉ L)
    (reason : InfraFailureReason) :
    fencing.Obeys (handleNodeInfraFailed n reason c) γ (Answered L) := by
  unfold handleNodeInfraFailed
  simp only [get_bind]
  split
  · exact Or.inl h
  · simp only [mark, modifyGet_bind]
    have h₁ := h.mark (marks_markFailed c.run n) (by simp)
    split
    · exact Or.inl h₁
    · refine (cancelNodeTimeout_kept h₁ n).seq ?_
      rintro γ₂ c₂ _ ⟨h₂, _⟩
      refine (persistState_still h₂).seq ?_
      rintro γ₃ c₃ r ⟨h₃, _⟩
      cases r with
      | error e => exact Or.inl h₃
      | ok _ => exact cancelAndRecord_answered h₃ hn (some reason)

theorem handleNodeTimedOut_answered (h : Steady False L γ c) {n : String} (hn : n ∉ L) :
    fencing.Obeys (handleNodeTimedOut n c) γ (Answered L) := by
  unfold handleNodeTimedOut
  simp only [mark, modifyGet_bind]
  have h₁ := h.mark (marks_markFailed c.run n) (by simp)
  split
  · exact Or.inl h₁
  · refine (persistState_still h₁).seq ?_
    rintro γ₂ c₂ r ⟨h₂, _⟩
    cases r with
    | error e => exact Or.inl h₂
    | ok _ => exact cancelAndRecord_answered h₂ hn none

theorem handleNodeCompleted_answered (h : Steady False L γ c) {n : String} (hn : n ∉ L) (success : Bool) :
    fencing.Obeys (handleNodeCompleted n success c) γ (Answered L) := by
  unfold handleNodeCompleted
  cases success with
  | true =>
      simp only [↓reduceIte, mark, modifyGet_bind]
      refine (persistState_still (h.mark (marks_markSuccess c.run n) (by simp))).seq ?_
      rintro γ₁ c₁ r ⟨h₁, _⟩
      cases r with
      | error e => exact Or.inl h₁
      | ok _ =>
          refine (recordNodeCompleted_kept h₁ hn none).seq ?_
          rintro γ₂ c _ ⟨h₂, rfl⟩
          exact (dispatchReadyNodes_settled h₂).seq fun _ _ _ hs => hs.answered
  | false =>
      simp only [Bool.false_eq_true, ↓reduceIte, mark, modifyGet_bind]
      refine (persistState_still (h.mark (marks_markFailed c.run n) (by simp))).seq ?_
      rintro γ₁ c₁ r ⟨h₁, _⟩
      cases r with
      | error e => exact Or.inl h₁
      | ok _ =>
          refine (recordNodeCompleted_kept h₁ hn none).seq ?_
          rintro γ₂ c _ ⟨h₂, rfl⟩
          exact failFastOrDispatch_answered h₂

/-- A failure of a node that has ended changes nothing. -/
theorem markFailed_ended {run : PipelineRun} {n : String} (h : Ended run n) :
    run.markFailed n = (false, run) := by
  simp [PipelineRun.markFailed, h.1, h.2]

theorem handleNodeInfraFailed_ended (h : Steady f L γ c) {n : String} (hn : Ended c.run n)
    (reason : InfraFailureReason) :
    fencing.Obeys (handleNodeInfraFailed n reason c) γ fun γ' c' abort =>
      abort = false ∧ Steady f L γ' c' ∧ c'.run = c.run := by
  unfold handleNodeInfraFailed
  simp only [get_bind]
  split
  · exact ⟨rfl, h, rfl⟩
  · simp only [mark, modifyGet_bind, markFailed_ended hn]
    exact ⟨rfl, h, rfl⟩

theorem handleNodeTimedOut_ended (h : Steady f L γ c) {n : String} (hn : Ended c.run n) :
    fencing.Obeys (handleNodeTimedOut n c) γ fun γ' c' abort =>
      abort = false ∧ Steady f L γ' c' ∧ c'.run = c.run := by
  unfold handleNodeTimedOut
  simp only [mark, modifyGet_bind, markFailed_ended hn]
  exact ⟨rfl, h, rfl⟩

/-! ## Outcomes read from S3 -/

/-- All nodes that are read as completed are still to be recorded. -/
theorem readOutcomes_left (h : Steady False ∅ γ c) :
    fencing.Obeys (readOutcomesForNonTerminal c) γ fun γ' c' outcomes =>
      Steady False (completedIn outcomes) γ' c' ∧ c' = c := by
  have hempty : completedIn ∅ = ∅ := by simp [completedIn]
  unfold readOutcomesForNonTerminal
  simp only [get_bind]
  refine (call_steady h (by exact False.elim)).seq ?_
  rintro γ₁ c names ⟨h₁, rfl⟩
  split
  · refine ⟨?_, rfl⟩
    rw [hempty]
    exact h₁
  · refine ⟨fun hf => (h₁.fenced.mp hf).elim, fun r _ => ⟨⟨⟨fun hf => hf.elim h₁.fenced.mp id, False.elim⟩, ?_,
      still_of_eq⟩, rfl⟩⟩
    cases r with
    | none =>
        rw [Option.getD_none, hempty]
        exact Set.empty_subset _
    | some outcomes => exact subset_rfl

/-- A fenced coordinator reads no completion. -/
theorem readOutcomes_fenced (h : Steady True ∅ γ c) :
    fencing.Obeys (readOutcomesForNonTerminal c) γ fun γ' c' outcomes =>
      (Steady True ∅ γ' c' ∧ c' = c) ∧ completedIn outcomes = ∅ := by
  have hempty : completedIn ∅ = ∅ := by simp [completedIn]
  unfold readOutcomesForNonTerminal
  simp only [get_bind]
  refine (call_steady h (by exact False.elim)).seq ?_
  rintro γ₁ c names ⟨h₁, rfl⟩
  split
  · exact ⟨⟨h₁, rfl⟩, hempty⟩
  · refine ⟨fun _ => id, fun r hr => ⟨⟨⟨⟨fun _ => trivial, fun _ => Or.inl (h₁.fenced.mpr trivial)⟩,
      Set.empty_subset _, still_of_eq⟩, rfl⟩, ?_⟩⟩
    cases r with
    | none => exact hempty
    | some outcomes => exact hr (h₁.fenced.mpr trivial)

/-- The coordinator is not fenced, or some node runs. -/
def Idle (γ : Fence) (c : Coordinator) : Prop := Steady False ∅ γ c ∨ (Steady True ∅ γ c ∧ Busy c.run)

/-- The same of a handler, which asks for the run to be aborted only where it is not fenced. -/
def Onward (γ : Fence) (c : Coordinator) (abort : Bool) : Prop :=
  Steady False ∅ γ c ∨ (abort = false ∧ Steady True ∅ γ c ∧ Busy c.run)

theorem Idle.onward (h : Idle γ c) : Onward γ c false := h.imp id fun h => ⟨rfl, h⟩

theorem Steady.weaken {L' : Set String} (h : Steady f L γ c) (hl : L' ⊆ L) : Steady f L' γ c :=
  ⟨h.fenced, hl.trans h.left, h.still⟩

theorem Answered.onward {b : Bool} (h : Answered L γ c b) : Onward γ c b :=
  h.imp (fun h => h.weaken (Set.empty_subset _)) fun h => ⟨h.1, h.2.1, h.2.2.1⟩

/-- The completed nodes among those that the loop has still to handle. -/
def completedOf (outcomes : HashMap String ReconcileResult) (names : List String) : Set String :=
  {n | n ∈ completedIn outcomes ∧ n ∈ names}

theorem foldCompletion_answered {outcomes : HashMap String ReconcileResult} {n : String} {l : List String}
    (h : Steady False (completedOf outcomes (n :: l)) γ c) (hn : n ∉ l) :
    fencing.Obeys (foldCompletion outcomes n c) γ (Answered (completedOf outcomes l)) := by
  have h' : Steady False (completedOf outcomes l) γ c :=
    h.weaken fun m hm => ⟨hm.1, List.mem_cons_of_mem _ hm.2⟩
  unfold foldCompletion
  cases outcomes.lookup n with
  | none => exact Or.inl h'
  | some result =>
      cases result with
      | completed success startedAtMs finishedAtMs =>
          refine (cancelNodeTimeout_kept h' n).seq ?_
          rintro γ₁ c₁ _ ⟨h₁, _⟩
          exact handleNodeCompleted_answered h₁ (fun hm => hn hm.2) _
      | inProgress s => exact Or.inl h'
      | stillRunning => exact Or.inl h'
      | transientReadError e => exact Or.inl h'

/-- A node that was not read as completed is passed over. -/
theorem foldCompletion_other {outcomes : HashMap String ReconcileResult} {n : String}
    (hn : n ∉ completedIn outcomes) : foldCompletion outcomes n = pure false := by
  unfold foldCompletion
  cases ho : outcomes.lookup n with
  | none => rfl
  | some result =>
      cases result with
      | completed success startedAtMs finishedAtMs => exact absurd ⟨_, _, _, ho⟩ hn
      | inProgress s => rfl
      | stillRunning => rfl
      | transientReadError e => rfl

theorem foldCompletions_onward {outcomes : HashMap String ReconcileResult}
    (h : Steady False (completedIn outcomes) γ c ∨
      (Steady True ∅ γ c ∧ Busy c.run ∧ completedIn outcomes = ∅)) :
    fencing.Obeys (foldCompletionsFromOutcomes outcomes c) γ Onward := by
  -- a coordinator that is fenced in the loop has no completion left to handle
  let inv := fun (l : List String) γ c => l.Nodup ∧ (Steady False (completedOf outcomes l) γ c ∨
    (Steady True ∅ γ c ∧ Busy c.run ∧ completedOf outcomes l = ∅))
  unfold foldCompletionsFromOutcomes
  refine Obeys.seq (P := fun γ' c' names => inv names.1 γ' c') ?_ ?_
  · have hsub : ∀ l, completedOf outcomes l ⊆ completedIn outcomes := fun l n hn => hn.1
    rcases h with h | ⟨h, hbusy, hnone⟩
    · refine (call_steady h (by exact False.elim)).mono ?_
      rintro γ₁ c names ⟨h₁, rfl⟩
      exact ⟨names.2.1, Or.inl (h₁.weaken (hsub _))⟩
    · refine (call_steady h (by exact False.elim)).mono ?_
      rintro γ₁ c names ⟨h₁, rfl⟩
      exact ⟨names.2.1, Or.inr ⟨h₁, hbusy, Set.subset_empty_iff.mp (hnone ▸ hsub _)⟩⟩
  · rintro γ₁ c₁ names hinv
    refine obeys_anyM (P := inv) ?_ ?_ names.1 hinv
    · rintro n l γ c ⟨hnd, hcase⟩
      obtain ⟨hn, hl⟩ := List.nodup_cons.mp hnd
      rcases hcase with h | ⟨h, hbusy, hnone⟩
      · refine (foldCompletion_answered h hn).mono ?_
        rintro γ' c' b hb
        rcases hb with h' | ⟨rfl, h', hbusy, _, hnone⟩
        · cases b with
          | true => exact Or.inl (h'.weaken (Set.empty_subset _))
          | false => exact ⟨hl, Or.inl h'⟩
        · exact ⟨hl, Or.inr ⟨h', hbusy, hnone⟩⟩
      · have hmem : ∀ m ∈ n :: l, m ∉ completedIn outcomes := by
          intro m hm hc
          have hcm : m ∈ completedOf outcomes (n :: l) := ⟨hc, hm⟩
          rw [hnone] at hcm
          exact hcm
        rw [foldCompletion_other (hmem n (by simp))]
        refine ⟨hl, Or.inr ⟨h, hbusy, ?_⟩⟩
        exact Set.eq_empty_of_forall_notMem fun m hm => hmem m (List.mem_cons_of_mem _ hm.2) hm.1
    · rintro γ c ⟨_, h | ⟨h, hbusy, _⟩⟩
      · exact Or.inl (h.weaken (Set.empty_subset _))
      · exact Or.inr ⟨rfl, h, hbusy⟩

theorem reconcileRunningAgainstS3_onward (h : Idle γ c) :
    fencing.Obeys (reconcileRunningAgainstS3 c) γ Onward := by
  unfold reconcileRunningAgainstS3
  rcases h with h | ⟨h, hbusy⟩
  · refine (readOutcomes_left h).seq ?_
    rintro γ₁ c outcomes ⟨h₁, rfl⟩
    exact foldCompletions_onward (Or.inl h₁)
  · refine (readOutcomes_fenced h).seq ?_
    rintro γ₁ c outcomes ⟨⟨h₁, rfl⟩, hnone⟩
    exact foldCompletions_onward (Or.inr ⟨h₁, hbusy, hnone⟩)

/-! ## Rehydration -/

/-- A save behind the start of a node may be rejected; the node runs. -/
theorem persistState_started (h : Idle γ c) {n : String} {c₁ : Coordinator}
    (hc : c₁.run.statuses.lookup n = some .running) :
    fencing.Obeys (persistState c₁) γ fun γ' c' _ => Idle γ' c' ∧ c'.run = c₁.run := by
  rcases h with h | ⟨h, _⟩
  · refine (persistState_saved h.fenced.mp h.left).mono ?_
    rintro γ₁ c₂ r ⟨hrun, h₁ | ⟨h₁, _⟩⟩
    · exact ⟨Or.inl h₁, hrun⟩
    · exact ⟨Or.inr ⟨h₁, n, by rw [hrun]; exact hc⟩, hrun⟩
  · refine ⟨fun _ => id, fun r _ => ?_⟩
    have h' : Steady True ∅ (Fence.next γ (.answered c₁ (.saveRun c₁.runId
        (c₁.run.toRunState (c₁.stateVersion + 1) c₁.pipeline) c₁.stateVersion) r)) c₁ :=
      ⟨⟨fun _ => trivial, fun _ => Or.inl (h.fenced.mpr trivial)⟩, Set.empty_subset _, still_of_eq⟩
    rcases r with e | b
    · exact ⟨Or.inr ⟨h', n, hc⟩, rfl⟩
    · cases b with
      | true => exact ⟨Or.inr ⟨⟨h'.fenced, h'.left, h'.still⟩, n, hc⟩, rfl⟩
      | false => exact ⟨Or.inr ⟨h', n, hc⟩, rfl⟩

theorem promoteNode_onward (h : Idle γ c) (n : String) :
    fencing.Obeys (promoteNode n c) γ Onward := by
  unfold promoteNode
  simp only [mark, modifyGet_bind]
  by_cases hpend : c.run.statuses.lookup n = some .pending
  · simp only [PipelineRun.markRunning, hpend, ↓reduceIte, Bool.not_true, Bool.false_eq_true]
    refine (persistState_started h (n := n) (by simp [Coordinator.setRun])).seq ?_
    rintro γ₁ c₁ _ ⟨h₁, _⟩
    simp only [get_bind]
    rcases h₁ with h₁ | ⟨h₁, hbusy⟩
    · refine (call_steady h₁ (by exact False.elim)).seq ?_
      rintro γ₂ c r ⟨h₂, rfl⟩
      rcases r with e | b
      · exact Or.inl h₂
      · cases b with
        | true => exact Or.inl h₂
        | false =>
            exact (handleNodeInfraFailed_answered h₂ (by simp) _).mono fun _ _ _ ha => ha.onward
    · refine ⟨fun _ => id, fun r hr => ?_⟩
      have h₂ : Steady True ∅ (Fence.next γ₁ (.answered c₁ (.nodePodExists c₁.runId n) r)) c₁ :=
        ⟨⟨fun _ => trivial, fun _ => Or.inl (h₁.fenced.mpr trivial)⟩, Set.empty_subset _, still_of_eq⟩
      rcases r with e | b
      · exact Or.inr ⟨rfl, h₂, hbusy⟩
      · cases b with
        | true => exact Or.inr ⟨rfl, h₂, hbusy⟩
        | false => exact absurd (h₁.fenced.mpr trivial) hr
  · simp only [PipelineRun.markRunning, hpend, ↓reduceIte, Bool.not_false]
    exact h.onward

theorem promoteStartedPendingToRunning_onward (h : Idle γ c) (outcomes : HashMap String ReconcileResult) :
    fencing.Obeys (promoteStartedPendingToRunning outcomes c) γ Onward := by
  unfold promoteStartedPendingToRunning
  simp only [get_bind]
  refine Obeys.seq (P := fun γ' c' _ => Idle γ' c') ?_ ?_
  · rcases h with h | ⟨h, hbusy⟩
    · exact (call_steady h (by exact False.elim)).mono fun _ _ _ h₁ => Or.inl h₁.1
    · refine (call_steady h (by exact False.elim)).mono ?_
      rintro γ₁ c _ ⟨h₁, rfl⟩
      exact Or.inr ⟨h₁, hbusy⟩
  · rintro γ₁ c₁ names h₁
    refine obeys_anyM (P := fun _ => Idle) ?_ (fun _ _ h => h.onward) _ h₁
    intro n l γ c h
    refine (promoteNode_onward h n).mono ?_
    rintro γ' c' b hb
    cases b with
    | true => exact hb
    | false => exact hb.imp id fun h => h.2

theorem rehydrateFromHistory_kept (h : Steady f L γ c) (n : String) (startup runtime : Nat) :
    fencing.Obeys (rehydrateFromHistory n startup runtime c) γ (Kept f L c) := by
  unfold rehydrateFromHistory
  simp only [get_bind]
  refine (call_steady h (by exact False.elim)).seq ?_
  rintro γ₁ c r ⟨h₁, rfl⟩
  rcases r with e | _ | row
  · exact spawnRuntimeTimeout_kept h₁ n _
  · exact spawnRuntimeTimeout_kept h₁ n _
  · refine (call_steady h₁ (by exact False.elim)).seq ?_
    rintro γ₂ c now ⟨h₂, rfl⟩
    exact armTimer_kept h₂ n .startup _

theorem rehydratePhaseTimer_kept (h : Steady f L γ c) (nowMs : Nat)
    (outcomes : HashMap String ReconcileResult) (n : String) :
    fencing.Obeys (rehydratePhaseTimer nowMs outcomes n c) γ (Kept f L c) := by
  unfold rehydratePhaseTimer
  simp only [get_bind]
  rcases outcomes.lookup n with _ | ⟨_ | s | _ | _⟩ <;> dsimp only
  · exact rehydrateFromHistory_kept h n _ _
  · exact rehydrateFromHistory_kept h n _ _
  · exact spawnRuntimeTimeout_kept h n _
  · exact rehydrateFromHistory_kept h n _ _
  · exact rehydrateFromHistory_kept h n _ _

theorem rehydratePhaseTimers_kept (h : Steady f L γ c) (outcomes : HashMap String ReconcileResult) :
    fencing.Obeys (rehydratePhaseTimers outcomes c) γ (Kept f L c) := by
  unfold rehydratePhaseTimers
  refine (call_steady h (by exact False.elim)).seq ?_
  rintro γ₁ c nowMs ⟨h₁, rfl⟩
  unfold runningNodes
  simp only [bind_assoc, get_bind]
  refine (call_steady h₁ (by exact False.elim)).seq ?_
  rintro γ₂ c names ⟨h₂, rfl⟩
  refine obeys_forM (P := fun _ γ' c' => Steady f L γ' c' ∧ c'.run = c.run) ?_ _ ⟨h₂, rfl⟩
  rintro n l γ c₁ ⟨h, hrun⟩
  refine (rehydratePhaseTimer_kept h nowMs outcomes n).mono ?_
  rintro γ' c' _ ⟨h', hrun'⟩
  exact ⟨h', hrun'.trans hrun⟩

theorem rehydratePhaseTimers_idle (h : Idle γ c) (outcomes : HashMap String ReconcileResult) :
    fencing.Obeys (rehydratePhaseTimers outcomes c) γ fun γ' c' _ => Idle γ' c' := by
  rcases h with h | ⟨h, hbusy⟩
  · exact (rehydratePhaseTimers_kept h outcomes).mono fun _ _ _ h' => Or.inl h'.1
  · refine (rehydratePhaseTimers_kept h outcomes).mono ?_
    rintro γ' c' _ ⟨h', hrun⟩
    exact Or.inr ⟨h', by rw [hrun]; exact hbusy⟩

/-! ## The end of a run -/

/-- Not a save. -/
def NoSave : Effect → Prop
  | .saveRun .. => False
  | _ => True

theorem NoSave.not_rejects {e : Effect} (h : NoSave e) (r : Resp e) : ¬Rejects e r := by
  cases e with
  | saveRun => exact h.elim
  | _ => exact id

/-- A coordinator that is not fenced may do everything, and is fenced by nothing but a save. -/
theorem obeys_noSave {α : Type} {m : Coord α} (hm : Calls NoSave m) (hf : ¬γ.fenced) :
    fencing.Obeys (m c) γ fun γ' _ _ => ¬γ'.fenced :=
  obeys_calls (P := NoSave) (fun _ _ _ hf he =>
    ⟨fun h => absurd h hf, fun r _ h => h.elim hf (he.not_rejects r)⟩) (hm c) hf

/-- A program without an effect on what is shared keeps the promise anyhow. -/
theorem obeys_unshared {α : Type} {m : Coord α} (hm : Calls (fun e => ¬SharedEffect e) m) :
    fencing.Obeys (m c) γ fun _ _ _ => True :=
  obeys_calls (Q := fun _ => True) (fun _ _ _ _ he => ⟨fun _ => he, fun _ _ => trivial⟩) (hm c) trivial

theorem NoSave.of_concluding {e : Effect} (h : e.concluding = true) : NoSave e := by
  cases e with
  | saveRun => cases h
  | _ => trivial

/-! ## The select loop -/

/-- A coordinator that waits is not fenced, or some node runs. -/
def Waits (γ : Fence) (c : Coordinator) (r : Option RunSummary) : Prop := r = none → Idle γ c

theorem buildSummary_waits (γ : Fence) (c : Coordinator) (status : RunStatus) :
    fencing.Obeys ((buildSummary status >>= fun summary => pure (some summary)) c) γ Waits :=
  (obeys_unshared (calls_buildSummary (fun _ => ⟨id, id⟩) status)).seq fun _ _ _ _ h => by cases h

theorem abortRun_waits (hf : ¬γ.fenced) (status : RunStatus) :
    fencing.Obeys (abortRun status c) γ Waits := by
  refine (obeys_noSave (calls_finalizeRun (fun _ => NoSave.of_concluding) status) hf).seq fun γ₁ c₁ _ h₁ => ?_
  refine (obeys_noSave (calls_cleanup fun _ => NoSave.of_concluding) h₁).seq fun γ₂ c₂ _ h₂ => ?_
  exact (obeys_noSave (calls_terminateRunningNodes (fun _ => NoSave.of_concluding) status) h₂).seq fun _ _ _ _ h => by cases h

theorem completeRun_waits (hf : ¬γ.fenced) : fencing.Obeys (completeRun c) γ Waits := by
  unfold completeRun
  simp only [get_bind]
  refine (obeys_noSave (calls_finalizeRun (fun _ => NoSave.of_concluding) _) hf).seq fun γ₁ c₁ _ h₁ => ?_
  exact (obeys_noSave (calls_cleanup fun _ => NoSave.of_concluding) h₁).seq fun γ₂ c₂ _ _ => buildSummary_waits γ₂ c₂ _

theorem Busy.not_complete {run : PipelineRun} (h : Busy run) : run.isComplete = false := by
  obtain ⟨n, hn⟩ := h
  cases hc : run.isComplete with
  | false => rfl
  | true => exact absurd hn ((isComplete_iff.mp hc).1 n)

theorem afterHandler_waits {abort : Bool} (h : Onward γ c abort) :
    fencing.Obeys (afterHandler abort c) γ Waits := by
  unfold afterHandler
  rcases h with h | ⟨rfl, h, hbusy⟩
  · cases abort with
    | true => exact abortRun_waits h.fenced.mp _
    | false =>
        simp only [Bool.false_eq_true, ↓reduceIte, get_bind]
        split
        · exact completeRun_waits h.fenced.mp
        · exact fun _ => Or.inl h
  · simp only [Bool.false_eq_true, ↓reduceIte, get_bind, hbusy.not_complete]
    exact fun _ => Or.inr ⟨h, hbusy⟩

/-- A fenced coordinator subscribes only where it has nothing to dispatch. -/
theorem subscribeAndDispatch_waits (h : Steady f ∅ γ c) :
    fencing.Obeys (subscribeAndDispatch c) γ Waits := by
  unfold subscribeAndDispatch
  simp only [get_bind]
  have hcalm := call_steady (e := .subscribeRun c.runId) h (by exact False.elim)
  refine Obeys.seq (P := fun γ₁ c₁ r => (Steady f ∅ γ₁ c₁ ∧ c₁ = c) ∧
    ∀ u, r = .ok u → f → c.run.readyNodes = ∅ ∧ Busy c.run) ⟨hcalm.1, fun r hr => ⟨hcalm.2 r hr, ?_⟩⟩ ?_
  · rintro u rfl hf
    exact hr (h.fenced.mpr hf)
  rintro γ₁ c r ⟨⟨h₁, rfl⟩, hquiet⟩
  rcases r with e | ⟨⟩
  · exact buildSummary_waits γ₁ c .failure
  · refine (call_steady h₁ (by exact False.elim)).seq ?_
    rintro γ₂ c _ ⟨h₂, rfl⟩
    refine (call_steady h₂ (by exact False.elim)).seq ?_
    rintro γ₃ c _ ⟨h₃, rfl⟩
    by_cases hf : f
    · obtain ⟨hnone, hbusy⟩ := hquiet () rfl hf
      refine (dispatchReadyNodes_none h₃ hnone).seq ?_
      rintro γ₄ c₄ _ ⟨h₄, hrun⟩
      refine afterHandler_waits (Or.inr ⟨rfl, ?_, by rw [hrun]; exact hbusy⟩)
      exact ⟨h₄.fenced.trans (iff_true_intro hf), h₄.left, h₄.still⟩
    · have h₃' : Steady False ∅ γ₃ c := ⟨h₃.fenced.trans (iff_false_intro hf), h₃.left, h₃.still⟩
      refine (dispatchReadyNodes_settled h₃').seq ?_
      intro γ₄ c₄ _ h₄
      exact afterHandler_waits h₄.answered.onward

theorem rehydrate_waits (h : Steady False ∅ γ c) : fencing.Obeys (rehydrate c) γ Waits := by
  unfold rehydrate
  refine (readOutcomes_left h).seq ?_
  rintro γ₁ c outcomes ⟨h₁, rfl⟩
  refine (foldCompletions_onward (Or.inl h₁)).seq ?_
  intro γ₂ c₂ b h₂
  cases b with
  | true =>
      rcases h₂ with h₂ | ⟨hb, _⟩
      · exact abortRun_waits h₂.fenced.mp _
      · cases hb
  | false =>
      refine (promoteStartedPendingToRunning_onward (h₂.imp id fun h => h.2) outcomes).seq ?_
      intro γ₃ c₃ b h₃
      cases b with
      | true =>
          rcases h₃ with h₃ | ⟨hb, _⟩
          · exact abortRun_waits h₃.fenced.mp _
          · cases hb
      | false =>
          refine (rehydratePhaseTimers_idle (h₃.imp id fun h => h.2) outcomes).seq ?_
          intro γ₄ c₄ _ h₄
          exact afterHandler_waits h₄.onward

/-- Only the coordinator of a new run may be fenced as it starts. -/
theorem start_waits (h : Steady f ∅ γ c) (hnew : f → c.isRehydrate = false) :
    fencing.Obeys (start c) γ Waits := by
  unfold start
  simp only [get_bind]
  refine (call_steady h (by exact False.elim)).seq ?_
  rintro γ₁ c _ ⟨h₁, rfl⟩
  split
  · rename_i hre
    have h₁' : Steady False ∅ γ₁ c :=
      ⟨h₁.fenced.trans (iff_false_intro fun hf => by simp [hnew hf] at hre), h₁.left, h₁.still⟩
    refine (rehydrate_waits h₁').seq ?_
    intro γ₂ c₂ r h₂
    cases r with
    | some summary => exact fun h => by cases h
    | none =>
        rcases h₂ rfl with h₂ | ⟨h₂, _⟩
        · exact subscribeAndDispatch_waits h₂
        · exact subscribeAndDispatch_waits h₂
  · exact subscribeAndDispatch_waits h₁

/-- What the coordinator's state shows after a handler of a node that has ended. -/
theorem ended_waits {abort : Bool} {c₀ : Coordinator} (hbusy : Busy c₀.run)
    (h : abort = false ∧ Steady True ∅ γ c ∧ c.run = c₀.run) :
    fencing.Obeys (afterHandler abort c) γ Waits :=
  afterHandler_waits (Or.inr ⟨h.1, h.2.1, by rw [h.2.2]; exact hbusy⟩)

theorem handleMessage_waits (h : Idle γ c) {msg : CoordinatorMessage}
    (hm : γ.fenced → Harmless c.run (.internal (some msg))) :
    fencing.Obeys (handleMessage msg c) γ Waits := by
  have hnot : ∀ n, n ∉ (∅ : Set String) := fun n => id
  rcases h with h | ⟨h, hbusy⟩
  · cases msg with
    | nodeTimedOut n =>
        exact (handleNodeTimedOut_answered h (hnot n)).seq fun _ _ _ h₁ => afterHandler_waits h₁.onward
    | nodePodRunning n => exact (handlePodRunning_kept h n).seq fun _ _ _ h₁ _ => Or.inl h₁.1
    | nodeInfraFailed n reason =>
        exact (handleNodeInfraFailed_answered h (hnot n) reason).seq fun _ _ _ h₁ =>
          afterHandler_waits h₁.onward
    | nodePodStartTimedOut n =>
        exact (handleNodeInfraFailed_answered h (hnot n) _).seq fun _ _ _ h₁ =>
          afterHandler_waits h₁.onward
  · have hm := hm (h.fenced.mpr trivial)
    cases msg with
    | nodeTimedOut n =>
        exact (handleNodeTimedOut_ended h hm).seq fun _ _ _ h₁ => ended_waits hbusy h₁
    | nodePodRunning n =>
        refine (handlePodRunning_kept h n).seq fun _ _ _ h₁ _ => Or.inr ⟨h₁.1, ?_⟩
        rw [h₁.2]
        exact hbusy
    | nodeInfraFailed n reason =>
        exact (handleNodeInfraFailed_ended h hm reason).seq fun _ _ _ h₁ => ended_waits hbusy h₁
    | nodePodStartTimedOut n =>
        exact (handleNodeInfraFailed_ended h hm _).seq fun _ _ _ h₁ => ended_waits hbusy h₁

theorem handleHeartbeat_waits (h : Idle γ c) : fencing.Obeys (handleHeartbeat c) γ Waits := by
  unfold handleHeartbeat
  simp only [get_bind]
  refine Obeys.seq (P := fun γ' c' _ => Idle γ' c') ?_ ?_
  · rcases h with h | ⟨h, hbusy⟩
    · exact (call_steady h (by exact False.elim)).mono fun _ _ _ h₁ => Or.inl h₁.1
    · refine (call_steady h (by exact False.elim)).mono ?_
      rintro γ₁ c _ ⟨h₁, rfl⟩
      exact Or.inr ⟨h₁, hbusy⟩
  · intro γ₁ c₁ r h₁
    rcases r with e | b
    · exact buildSummary_waits γ₁ c₁ .failure
    · cases b with
      | true => exact fun _ => h₁
      | false => exact buildSummary_waits γ₁ c₁ .failure

theorem handleEvent_waits (h : Idle γ c) {event : LoopEvent} (he : γ.fenced → Harmless c.run event) :
    fencing.Obeys (handleEvent event c) γ Waits := by
  -- an event that is not harmless finds the coordinator not fenced
  have hfree : ¬Harmless c.run event → Steady False ∅ γ c := fun hh =>
    h.elim id fun hf => absurd (he (hf.1.fenced.mpr trivial)) hh
  cases event with
  | pipelineDeadline => exact abortRun_waits (hfree id).fenced.mp _
  | heartbeat => exact handleHeartbeat_waits h
  | s3Reconcile =>
      exact (reconcileRunningAgainstS3_onward h).seq fun _ _ _ h₁ => afterHandler_waits h₁
  | internal msg =>
      cases msg with
      | none => exact fun _ => h
      | some msg => exact handleMessage_waits h he
  | backplane event =>
      have h₀ := hfree id
      rcases event with _ | ⟨n, b⟩ | _
      · exact abortRun_waits h₀.fenced.mp _
      · refine (cancelNodeTimeout_kept h₀ n).seq ?_
        rintro γ₁ c₁ _ ⟨h₁, _⟩
        exact (handleNodeCompleted_answered h₁ id b).seq fun _ _ _ h₂ => afterHandler_waits h₂.onward
      · exact abortRun_waits h₀.fenced.mp _

theorem waits_handlers {r : Option RunSummary} (h : Waits γ c r) (hr : r = none) {event : LoopEvent}
    (he : fencing.assume γ (.received c event)) :
    fencing.Obeys (handleEvent event c) (fencing.next γ (.received c event)) Waits := by
  refine handleEvent_waits ((h hr).imp ?_ ?_) he
  · exact fun h => ⟨h.fenced, Set.empty_subset _, still_of_eq⟩
  · exact fun h => ⟨⟨h.1.fenced, Set.empty_subset _, still_of_eq⟩, h.2⟩

/-! ## Fenced coordinators -/

/-- A save is rejected at the moment. -/
def Rejection {S : Type} : Moment S LoopEvent Resp → Prop
  | .answered _ e r => Rejects e r
  | .received .. => False

/-- A watcher that notices rejections has noticed those among the moments. -/
theorem noticed_after {Γ S : Type} {M : Monitor Γ S LoopEvent Resp} {N : Γ → Prop}
    (hnext : ∀ γ m, N (M.next γ m) ↔ N γ ∨ Rejection m) (γ : Γ)
    (tr : List (Moment S LoopEvent Resp)) :
    N (M.after γ tr) ↔ N γ ∨ ∃ m ∈ tr, Rejection m := by
  induction tr generalizing γ with
  | nil => simp [Monitor.after]
  | cons m tr ih =>
      rw [Monitor.after, List.foldl_cons, ← Monitor.after, ih, hnext]
      simp only [List.mem_cons, exists_eq_or_imp, or_assoc]

theorem fencing_next (γ : Fence) (m : Moment Coordinator LoopEvent Resp) :
    (fencing.next γ m).fenced ↔ γ.fenced ∨ Rejection m := by
  cases m with
  | answered s e r => rfl
  | received s i => exact (or_iff_left id).symm

/-- The watcher of a task that starts a coordinator. -/
def starting : Monitor Prop Unit LoopEvent Resp where
  assume _ _ := True
  ok fenced _ e := ∀ c, e = .spawnCoordinator c → fenced → c.isRehydrate = false
  next fenced m := fenced ∨ Rejection m

/-- The task that starts a coordinator, which ends with whether one was spawned. -/
def startTask (config : AppConfig) (runId : String) (pipeline : Pipeline) (statusReporter : Bool)
    (runContext : RunContext) : Task (Option Bool) := do
  return some (← startCoordinator config runId pipeline statusReporter runContext)

/-- A task that starts a coordinator has come to spawn `c`; `fenced` says whether the store has rejected the
new run's state. -/
def Spawned (c : Coordinator) (fenced : Prop) : Prop :=
  ∃ config runId pipeline statusReporter runContext tr k,
    Exec (fun (_ : LoopEvent) s => .ret s none) (startTask config runId pipeline statusReporter runContext ()) tr
      (.call () (.spawnCoordinator c) k) ∧ (fenced ↔ ∃ m ∈ tr, Rejection m)

theorem startCoordinator_starting (config : AppConfig) (runId : String) (pipeline : Pipeline)
    (statusReporter : Bool) (runContext : RunContext) :
    starting.Obeys (startCoordinator config runId pipeline statusReporter runContext ()) False
      fun _ _ _ => True := by
  have hcall : ∀ {fenced : Prop} {e : Effect}, (∀ c, e ≠ .spawnCoordinator c) →
      starting.Obeys ((call e : Task _) ()) fenced fun fenced' _ r => fenced' = (fenced ∨ Rejects e r) :=
    fun he => ⟨fun c hc => absurd hc (he c), fun _ _ => rfl⟩
  have hrun : starting.Obeys (initializeRunState runId pipeline.nodeInfo pipeline ()) False
      fun fenced _ result => fenced → result.2.2 = false := by
    refine (hcall (by simp)).seq ?_
    rintro fenced _ r rfl
    rcases r with e | _ | state
    · exact fun _ => rfl
    · refine (hcall (by simp)).seq ?_
      rintro fenced' _ r rfl
      exact fun _ => rfl
    · exact fun h => absurd h (by simp [Rejects])
  refine (hcall (by simp)).seq ?_
  rintro fenced₁ _ serverId rfl
  refine (hcall (by simp)).seq ?_
  rintro fenced₂ _ r rfl
  rcases r with e | _ | leaseVersion
  · trivial
  · trivial
  · refine (hcall (by simp)).seq ?_
    rintro fenced₃ _ _ rfl
    simp only [Rejects, or_false]
    refine hrun.seq ?_
    rintro fenced₄ _ ⟨run, stateVersion, isRehydrate⟩ h₄
    refine (hcall (by simp)).seq ?_
    rintro fenced₅ _ podWatcher rfl
    refine ⟨?_, fun _ _ => trivial⟩
    rintro c hc hf
    cases hc
    exact h₄ (hf.elim id False.elim)

theorem Spawned.new {c : Coordinator} {fenced : Prop} (h : Spawned c fenced) (hf : fenced) :
    c.isRehydrate = false := by
  obtain ⟨config, runId, pipeline, statusReporter, runContext, tr, k, he, hiff⟩ := h
  have hob : starting.Obeys (startTask config runId pipeline statusReporter runContext ()) False
      fun _ _ r => r ≠ none :=
    (startCoordinator_starting config runId pipeline statusReporter runContext).seq fun _ _ _ _ =>
      Option.some_ne_none _
  have hend := obeys_exec (fun _ _ _ h => absurd rfl h) he hob
    (starting.assumed_of_forall (fun _ _ => trivial) _ _)
  exact hend.1 c rfl ((noticed_after (N := id) (fun _ _ => Iff.rfl) False tr).mpr (Or.inr (hiff.mp hf)))

/-- Once a save was rejected, a coordinator has no effect on what is shared, as long as saves are rejected
only where it goes on quietly and only harmless events and answers reach it from then on. -/
theorem fenced_stops {c : Coordinator} {fenced : Prop} (hc : Spawned c fenced)
    {tr : List (Moment Coordinator LoopEvent Resp)} {q : Prog Coordinator Resp (Option RunSummary)}
    (he : Exec handleEvent (start c) tr q) (ha : fencing.Assumed (.start c fenced) tr)
    (hf : fenced ∨ ∃ m ∈ tr, Rejection m) : ∀ e, q.pending = some e → ¬SharedEffect e := by
  have hstart : Steady fenced ∅ (Fence.start c fenced) c := ⟨Iff.rfl, subset_rfl, still_of_eq⟩
  have hob := obeys_exec (fun γ c i h hi => waits_handlers h rfl hi) he (start_waits hstart hc.new) ha
  intro e hp
  cases q with
  | ret s r => cases hp
  | call s e' k =>
      cases hp
      exact hob.1 ((noticed_after fencing_next _ tr).mpr hf)

/-- A task that starts the coordinator of a new run. -/
theorem spawned_fresh :
    Spawned (freshCoordinator .default "run" .buildAndTest) False := by
  have h : starting.Leads (fun _ s => .ret s none) False
      (startTask .default "run" .buildAndTest false (.push "acme" "app" "") ())
      fun fenced q => ¬fenced ∧
        ∃ k, q = .call () (.spawnCoordinator (freshCoordinator .default "run" .buildAndTest)) k := by
    refine .call "server" trivial ?_
    refine .call (.ok (some 1)) trivial ?_
    refine .call (.ok ()) trivial ?_
    refine .call (.ok none) trivial ?_
    refine .call (.ok true) trivial ?_
    refine .call false trivial ?_
    exact .here ⟨by simp [starting, Rejection, Rejects], _, rfl⟩
  obtain ⟨tr, q, he, _, hf, k, rfl⟩ := h
  refine ⟨_, _, _, _, _, tr, k, he, ?_⟩
  exact ⟨False.elim, fun hm => hf ((noticed_after (N := id) (fun _ _ => Iff.rfl) False tr).mpr (Or.inr hm))⟩

/-- A coordinator whose save behind a dispatch was rejected goes on to renew its lease. -/
theorem fenced_stops_buildAndTest :
    ∃ tr q, Exec handleEvent (start (freshCoordinator .default "run" .buildAndTest)) tr q ∧
      (∃ m ∈ tr, Rejection m) ∧ q.pending = some (.renewLease "run" "server" 1 30) ∧
      ¬SharedEffect (.renewLease "run" "server" 1 30) := by
  let c := freshCoordinator .default "run" .buildAndTest
  have h : fencing.Leads handleEvent (.start c False) (start c) fun γ q =>
      γ.fenced ∧ q.pending = some (.renewLease "run" "server" 1 30) := by
    refine .call () trivial ?_
    refine .call (.ok ()) (fun h => by simp [Fence.start, fencing, Fence.next, Rejects] at h) ?_
    refine .call () trivial ?_
    refine .call () trivial ?_
    refine .call ⟨["build"], by decide⟩ trivial ?_
    refine .call (.ok ()) trivial ?_
    refine .call (.ok false) ⟨⟨"build", by decide, by decide⟩, fun _ => by decide, rfl⟩ ?_
    refine .call ⟨0, 0⟩ trivial ?_
    refine .call (.ok ()) trivial ?_
    refine .call (0 : Nat) trivial ?_
    refine .receive .heartbeat (fun _ => trivial) ?_
    exact .here ⟨by simp [fencing, Fence.next, Rejects], rfl⟩
  obtain ⟨tr, q, he, ha, hf, hp⟩ := h
  have hm := ((noticed_after fencing_next _ tr).mp hf).resolve_left id
  exact ⟨tr, q, he, hm, hp, fenced_stops spawned_fresh he ha (Or.inr hm) _ hp⟩

/-- The watcher that notices rejections and asks for nothing. -/
def noticing : Monitor Prop Coordinator LoopEvent Resp where
  assume _ _ := True
  ok _ _ _ := True
  next fenced m := fenced ∨ Rejection m

/-- A coordinator whose save of a completed node was rejected records the end of the run. -/
theorem fenced_continues :
    ∃ c tr q, Spawned c False ∧ Exec handleEvent (start c) tr q ∧ (∃ m ∈ tr, Rejection m) ∧
      ∃ record, q.pending = some (.recordPipelineRun record) := by
  let c := freshCoordinator .default "run" .buildAndTest
  have h : noticing.Leads handleEvent False (start c) fun fenced q =>
      fenced ∧ ∃ record, q.pending = some (.recordPipelineRun record) := by
    refine .call () trivial ?_
    refine .call (.ok ()) trivial ?_
    refine .call () trivial ?_
    refine .call () trivial ?_
    refine .call ⟨["build"], by decide⟩ trivial ?_
    refine .call (.ok ()) trivial ?_
    refine .call (.ok true) trivial ?_
    refine .call ⟨0, 0⟩ trivial ?_
    refine .call (.ok ()) trivial ?_
    refine .call (0 : Nat) trivial ?_
    refine .receive (.backplane (some (.nodeCompleted "build" true))) trivial ?_
    refine .call () trivial ?_
    refine .call (.ok false) trivial ?_
    refine .call ⟨[], by decide⟩ trivial ?_
    refine .call ⟨0, 0⟩ trivial ?_
    exact .here ⟨by simp [noticing, Rejection, Rejects], _, rfl⟩
  obtain ⟨tr, q, he, _, hf, hp⟩ := h
  have hm := ((noticed_after (N := id) (fun _ _ => Iff.rfl) False tr).mp hf).resolve_left id
  exact ⟨c, tr, q, spawned_fresh, he, hm, hp⟩

end Jefferies.Coordination.Fencing
