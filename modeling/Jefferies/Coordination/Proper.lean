import Jefferies.Coordination.Account
import Jefferies.Coordination.Calling
import Jefferies.Interaction.Making

/-!
# What is written of runs and nodes

Every process of a server records the end of a run with a status that is an end and with its time, and gives a
reason only for a node that failed.
-/

namespace Jefferies.Coordination

open Pipelines StateStore RunHistory Interaction Interact Coordinator

/-- What the record of a node says goes together. -/
structure ProperNodeRun (record : NodeRunRecord) : Prop where
  failed : record.failureReason.isSome → record.success = false
  completed : record.failureReason.isSome → record.completedAt.isSome
  coded : ∀ code ∈ record.failureReason, ∃ reason : InfraFailureReason, reason.stableCode = code

/-- What the call writes goes together. -/
def Effect.Proper : Effect → Prop
  | .recordPipelineRun record => record.status ≠ .inProgress ∧ record.completedAt.isSome
  | .finalizePipelineRunStatus _ status _ => status ≠ .inProgress
  | .reportCompleted _ status => status ≠ .inProgress
  | .recordNodeRun record => ProperNodeRun record
  | _ => True

/-- A record without a reason goes together. -/
theorem proper_recordNodeRun {record : NodeRunRecord} (h : record.failureReason = none) :
    (Effect.recordNodeRun record).Proper := by
  constructor <;> simp [h]

theorem outcomeStatus_ne (c : Coordinator) : c.outcomeStatus ≠ .inProgress := by
  unfold outcomeStatus
  split <;> simp

theorem outcomeStatusFor_ne (state : RunState) : outcomeStatusFor state ≠ .inProgress := by
  unfold outcomeStatusFor
  split <;> simp

/-- The calls of a computation are proper. -/
abbrev Properly {S α : Type} (m : Interact S Resp α) : Prop := Calls Effect.Proper m

/-! ## Parts of a coordinator -/

theorem properly_cancelNodeTimeout (n : String) : Properly (cancelNodeTimeout n) :=
  calls_cancelNodeTimeout (fun _ => trivial) n

theorem properly_shutdownPodWatcher : Properly shutdownPodWatcher :=
  calls_shutdownPodWatcher fun _ => ⟨trivial, trivial⟩

theorem properly_buildSummary (status : RunStatus) : Properly (buildSummary status) :=
  calls_buildSummary (fun _ => ⟨trivial, trivial⟩) status

theorem properly_notifyWatcherOfDeletion (n : String) : Properly (notifyWatcherOfDeletion n) := by
  refine calls_get.seq fun c => ?_
  split
  · exact (calls_perform trivial).seq fun _ => calls_pure _
  · exact calls_pure _

theorem properly_persistState : Properly persistState := by
  refine calls_get.seq fun c => (calls_perform trivial).seq fun r => ?_
  split
  · exact (calls_modify _).seq fun _ => calls_pure _
  · exact calls_pure _
  · exact calls_pure _

theorem properly_armTimer (n : String) (phase : TimerPhase) (secs : Nat) : Properly (armTimer n phase secs) :=
  calls_get.seq fun _ => (calls_perform trivial).seq fun _ => calls_modify _

theorem properly_spawnRuntimeTimeout (n : String) (overrideSecs : Option Nat) :
    Properly (spawnRuntimeTimeout n overrideSecs) := calls_get.seq fun _ => properly_armTimer n .runtime _

theorem properly_handlePodRunning (n : String) : Properly (handlePodRunning n) := by
  refine calls_get.seq fun c => ?_
  split
  · exact calls_pure _
  · exact (properly_cancelNodeTimeout n).seq fun _ => properly_spawnRuntimeTimeout n _

theorem properly_fetchOutcome (runId n : String) : Properly (fetchOutcome runId n) := by
  refine Calls.seq (calls_perform trivial) fun r => ?_
  cases r with
  | ok o => exact calls_pure _
  | error e => exact calls_pure _

theorem properly_fetchLog (runId n : String) : Properly (fetchLog runId n) := by
  refine Calls.seq (calls_perform trivial) fun r => ?_
  cases r with
  | ok o => exact calls_pure _
  | error e => exact calls_pure _

theorem properly_orNow (known : Option DateTime) (wanted : Bool) : Properly (orNow known wanted) := by
  cases known with
  | some t => exact calls_pure _
  | none =>
      cases wanted with
      | true => exact (calls_perform trivial).seq fun _ => calls_pure _
      | false => exact calls_pure _

theorem properly_runningNodes : Properly runningNodes :=
  calls_get.seq fun _ => (calls_perform trivial).seq fun _ => calls_pure _

/-! ## Records of nodes -/

/-- A computation of a coordinator whose calls are proper and that ends in `Q`. -/
abbrev ProperlyEnds {α : Type} (p : Prog Coordinator Resp α) (Q : Coordinator → α → Prop) : Prop :=
  (making Effect.Proper : Monitor Unit Coordinator LoopEvent Resp).Obeys p () fun _ => Q

theorem Properly.ends {α : Type} {m : Coord α} (h : Properly m) (c : Coordinator) : ProperlyEnds (m c) fun _ _ => True :=
  obeys_making (h c)

/-- A time that is wanted is known in the end. -/
theorem orNow_ends (known : Option DateTime) (wanted : Bool) (c : Coordinator) :
    ProperlyEnds (orNow known wanted c) fun _ t => wanted = true → t.isSome = true := by
  cases known with
  | some t => exact fun _ => rfl
  | none =>
      cases wanted with
      | true => exact ⟨trivial, fun _ _ _ => rfl⟩
      | false => exact fun h => nomatch h

/-- A node that has not succeeded may be recorded with a reason. -/
theorem recordNodeCompleted_ends {c : Coordinator} {n : String} {reason : Option InfraFailureReason}
    (hfailed : reason.isSome = true → succeeded c.run.statuses n = false) :
    ProperlyEnds (recordNodeCompleted n reason c) fun _ _ => True := by
  apply ((properly_fetchOutcome c.runId n).ends c).seq
  intro _ c₁ outcome _
  apply (orNow_ends _ _ c₁).seq
  intro _ c₂ completedAt hcompleted
  apply ((properly_fetchLog c.runId n).ends c₂).seq
  intro _ c₃ outputLog _
  refine ⟨trivial, fun createdAt _ => ⟨⟨?_, ?_, ?_⟩, fun _ _ => trivial⟩⟩
  · intro hreason
    exact hfailed (by simpa using hreason)
  · intro hreason
    exact hcompleted (by simpa using hreason)
  · intro code hcode
    obtain ⟨reason, _, rfl⟩ := Option.map_eq_some_iff.mp hcode
    exact ⟨reason, rfl⟩

theorem properly_recordNodeCompleted (n : String) : Properly (recordNodeCompleted n none) := fun _ =>
  making_calls (recordNodeCompleted_ends fun h => nomatch h)

theorem properly_recordDispatchFailed (n error : String) : Properly (recordDispatchFailed n error) :=
  calls_get.seq fun _ => (calls_perform trivial).seq fun _ => (calls_perform ⟨fun _ => rfl, fun _ => rfl, by
    intro code hcode
    cases hcode
    exact ⟨_, rfl⟩⟩).seq fun _ => calls_pure _

theorem properly_recordRunningNodeTerminated (n : String) : Properly (recordRunningNodeTerminated n) :=
  calls_get.seq fun _ => (properly_fetchOutcome _ _).seq fun _ => (properly_orNow _ _).seq fun _ =>
    (properly_fetchLog _ _).seq fun _ => (calls_perform trivial).seq fun _ =>
      (calls_perform (proper_recordNodeRun rfl)).seq fun _ => calls_pure _

/-! ## The end of a run -/

section

variable {status : RunStatus}

theorem properly_finalizeRun (hstatus : status ≠ .inProgress) : Properly (finalizeRun status) := by
  have hhistory : Properly (recordHistory status) :=
    properly_runningNodes.seq fun names => (calls_forM (fun n => (properly_recordRunningNodeTerminated n).seq
      fun _ => (calls_modifyGet _).seq fun _ => calls_pure _) names).seq fun _ => calls_get.seq fun _ =>
        (calls_perform trivial).seq fun _ => (calls_perform ⟨hstatus, rfl⟩).seq fun _ => calls_pure _
  refine hhistory.seq fun _ => calls_get.seq fun c => ?_
  split
  · exact calls_perform hstatus
  · exact calls_pure _

theorem properly_cleanup : Properly cleanup :=
  calls_get.seq fun _ => (calls_perform trivial).seq fun _ => (calls_perform trivial).seq fun _ =>
    (calls_perform trivial).seq fun _ => calls_pure _

theorem properly_terminateRunningNodes (status : RunStatus) : Properly (terminateRunningNodes status) := by
  refine calls_get.seq fun c => (calls_perform trivial).seq fun names => ?_
  refine (calls_forM properly_cancelNodeTimeout _).seq fun _ => properly_runningNodes.seq fun running => ?_
  refine (calls_forM (fun n => ?_) _).seq fun _ => ?_
  · exact (properly_notifyWatcherOfDeletion n).seq fun _ => calls_get.seq fun _ =>
      (calls_perform trivial).seq fun _ => calls_pure _
  · exact properly_shutdownPodWatcher.seq fun _ => calls_get.seq fun _ => calls_pure _

theorem properly_abortRun (hstatus : status ≠ .inProgress) : Properly (abortRun status) :=
  (properly_finalizeRun hstatus).seq fun _ => properly_cleanup.seq fun _ =>
    (properly_terminateRunningNodes status).seq fun _ => calls_pure _

theorem properly_completeRun : Properly completeRun :=
  calls_get.seq fun c => (properly_finalizeRun (outcomeStatus_ne c)).seq fun _ => properly_cleanup.seq fun _ =>
    (properly_buildSummary _).seq fun _ => calls_pure _

theorem properly_afterHandler (aborted : Bool) : Properly (afterHandler aborted) := by
  cases aborted with
  | true => exact properly_abortRun (by simp)
  | false =>
      refine calls_get.seq fun c => ?_
      split
      · exact properly_completeRun
      · exact calls_pure _

end

/-! ## Handlers -/

theorem properly_recordNodeDispatched (n : String) (node : NodeInfo) : Properly (recordNodeDispatched n node) :=
  calls_get.seq fun _ => (calls_perform trivial).seq fun _ => (calls_perform trivial).seq fun _ => calls_pure _

theorem properly_dispatchReadyNode (n : String) : Properly (dispatchReadyNode n) := by
  have hsave : Properly persistStateAfterDispatchTransition := properly_persistState.seq fun _ => calls_pure _
  have hfail : ∀ error, Properly (persistStateAfterDispatchTransition >>= fun _ => recordDispatchFailed n error) :=
    fun error => hsave.seq fun _ => properly_recordDispatchFailed n error
  refine calls_get.seq fun c => ?_
  split
  · exact (calls_modifyGet _).seq fun _ => hfail _
  · refine (calls_perform trivial).seq fun r => ?_
    cases r with
    | ok =>
        refine (calls_modifyGet _).seq fun marked => ?_
        cases marked with
        | true => exact hsave.seq fun _ => (properly_recordNodeDispatched n _).seq fun _ => properly_armTimer n .startup _
        | false => exact calls_pure _
    | error e => exact (calls_modifyGet _).seq fun _ => hfail _

theorem properly_dispatchReadyNodes : Properly dispatchReadyNodes :=
  calls_get.seq fun _ => (calls_perform trivial).seq fun _ => calls_forM properly_dispatchReadyNode _

theorem properly_failFastOrDispatch : Properly failFastOrDispatch := by
  refine calls_get.seq fun c => ?_
  split
  · exact calls_pure _
  · exact properly_dispatchReadyNodes.seq fun _ => calls_pure _

/-- Neither a timer nor a save touches the run, and the watcher does not know it. -/
theorem cancelNodeTimeout_ends (n : String) (c : Coordinator) :
    ProperlyEnds (cancelNodeTimeout n c) fun c' _ => c'.run = c.run := by
  unfold cancelNodeTimeout
  rw [get_bind]
  cases c.nodePhaseHandles.lookup n with
  | none => rfl
  | some timer => exact ⟨trivial, fun _ _ => rfl⟩

theorem persistState_ends (c : Coordinator) : ProperlyEnds (persistState c) fun c' _ => c'.run = c.run := by
  refine ⟨trivial, fun r _ => ?_⟩
  rcases r with e | _ | _ <;> rfl

theorem notifyWatcherOfDeletion_ends (n : String) (c : Coordinator) :
    ProperlyEnds (notifyWatcherOfDeletion n c) fun c' _ => c'.run = c.run := by
  unfold notifyWatcherOfDeletion
  rw [get_bind]
  split
  · exact ⟨trivial, fun _ _ => rfl⟩
  · rfl

/-- A node gets a reason only once it is marked as failed. -/
theorem properly_handleNodeInfraFailed (n : String) (reason : InfraFailureReason) :
    Properly (handleNodeInfraFailed n reason) := by
  refine calls_get.seq fun c => ?_
  split
  · exact calls_pure _
  · intro c
    apply making_calls (I := LoopEvent) (Q := fun _ _ _ => True)
    show (making Effect.Proper).Obeys ((mark (·.markFailed n) >>= fun marked => _) c) () _
    unfold mark
    rw [modifyGet_bind]
    split
    · trivial
    · rename_i hmarked
      have hfailed : succeeded (c.run.markFailed n).2.statuses n = false := by
        have hopen : c.run.statuses.lookup n = some .running ∨ c.run.statuses.lookup n = some .pending := by
          simpa using hmarked
        rcases hopen with h | h <;> simp [PipelineRun.markFailed, succeeded, h]
      apply (cancelNodeTimeout_ends n _).seq
      intro _ c₁ _ hrun₁
      apply (persistState_ends c₁).seq
      intro _ c₂ r hrun₂
      cases r with
      | error e => trivial
      | ok =>
          apply (notifyWatcherOfDeletion_ends n c₂).seq
          intro _ c₃ _ hrun₃
          refine ⟨trivial, fun _ _ => ?_⟩
          refine (recordNodeCompleted_ends fun _ => ?_).seq fun _ c₄ _ _ => properly_failFastOrDispatch.ends c₄
          rw [hrun₃, hrun₂, hrun₁]
          exact hfailed

theorem properly_handleNodeTimedOut (n : String) : Properly (handleNodeTimedOut n) := by
  refine (calls_modifyGet _).seq fun marked => ?_
  split
  · exact calls_pure _
  · refine properly_persistState.seq fun r => ?_
    cases r with
    | error e => exact calls_pure _
    | ok =>
        exact (properly_notifyWatcherOfDeletion n).seq fun _ => calls_get.seq fun _ => (calls_perform trivial).seq
          fun _ => (properly_recordNodeCompleted n).seq fun _ => properly_failFastOrDispatch

theorem properly_handleNodeCompleted (n : String) (success : Bool) : Properly (handleNodeCompleted n success) := by
  cases success with
  | true =>
      refine (calls_modifyGet _).seq fun _ => properly_persistState.seq fun r => ?_
      cases r with
      | error e => exact calls_pure _
      | ok =>
          exact (properly_recordNodeCompleted n).seq fun _ => properly_dispatchReadyNodes.seq fun _ => calls_pure _
  | false =>
      refine (calls_modifyGet _).seq fun _ => properly_persistState.seq fun r => ?_
      cases r with
      | error e => exact calls_pure _
      | ok => exact (properly_recordNodeCompleted n).seq fun _ => properly_failFastOrDispatch

/-! ## Outcomes -/

theorem properly_readOutcomesForNonTerminal : Properly readOutcomesForNonTerminal := by
  refine calls_get.seq fun c => (calls_perform trivial).seq fun names => ?_
  dsimp only
  split
  · exact calls_pure _
  · exact (calls_perform trivial).seq fun _ => calls_pure _

theorem properly_foldCompletionsFromOutcomes (outcomes : HashMap String ReconcileResult) :
    Properly (foldCompletionsFromOutcomes outcomes) := by
  refine Calls.seq (calls_perform trivial) fun order => calls_anyM (fun n => ?_) order.1
  unfold foldCompletion
  split
  · exact (properly_cancelNodeTimeout n).seq fun _ => properly_handleNodeCompleted n _
  · exact calls_pure _

theorem properly_promoteNode (n : String) : Properly (promoteNode n) := by
  refine (calls_modifyGet _).seq fun marked => ?_
  split
  · exact calls_pure _
  · refine properly_persistState.seq fun _ => calls_get.seq fun _ => (calls_perform trivial).seq fun r => ?_
    split
    · exact calls_pure _
    · exact properly_handleNodeInfraFailed n _
    · exact calls_pure _

theorem properly_rehydrateFromHistory (n : String) (startupSecs runtimeSecs : Nat) :
    Properly (rehydrateFromHistory n startupSecs runtimeSecs) := by
  refine calls_get.seq fun c => (calls_perform trivial).seq fun r => ?_
  split
  · exact (calls_perform trivial).seq fun _ => properly_armTimer n .startup _
  · exact properly_spawnRuntimeTimeout n _

theorem properly_rehydratePhaseTimer (nowMs : Nat) (outcomes : HashMap String ReconcileResult) (n : String) :
    Properly (rehydratePhaseTimer nowMs outcomes n) := by
  refine calls_get.seq fun c => ?_
  dsimp only
  split
  · exact properly_spawnRuntimeTimeout n _
  · exact properly_rehydrateFromHistory n _ _

theorem properly_rehydrate : Properly rehydrate := by
  refine properly_readOutcomesForNonTerminal.seq fun outcomes => ?_
  refine (properly_foldCompletionsFromOutcomes outcomes).seq fun aborted => ?_
  split
  · exact properly_abortRun (by simp)
  · refine Calls.seq ?_ fun aborted => ?_
    · exact calls_get.seq fun _ => (calls_perform trivial).seq fun _ => calls_anyM properly_promoteNode _
    · split
      · exact properly_abortRun (by simp)
      · refine Calls.seq ?_ fun _ => properly_afterHandler false
        exact (calls_perform trivial).seq fun nowMs => properly_runningNodes.seq fun names =>
          calls_forM (properly_rehydratePhaseTimer nowMs outcomes) names

/-! ## The coordinator -/

theorem properly_subscribeAndDispatch : Properly subscribeAndDispatch := by
  refine calls_get.seq fun c => (calls_perform trivial).seq fun r => ?_
  cases r with
  | error e => exact (properly_buildSummary _).seq fun _ => calls_pure _
  | ok =>
      exact (calls_perform trivial).seq fun _ => (calls_perform trivial).seq fun _ =>
        properly_dispatchReadyNodes.seq fun _ => properly_afterHandler false

theorem properly_start : Properly start := by
  refine calls_get.seq fun c => (calls_perform trivial).seq fun _ => ?_
  split
  · refine properly_rehydrate.seq fun summary => ?_
    cases summary with
    | some summary => exact calls_pure _
    | none => exact properly_subscribeAndDispatch
  · exact properly_subscribeAndDispatch

theorem properly_handleEvent (event : LoopEvent) : Properly (handleEvent event) := by
  cases event with
  | pipelineDeadline => exact properly_abortRun (by simp)
  | heartbeat =>
      refine calls_get.seq fun c => (calls_perform trivial).seq fun r => ?_
      split
      · exact calls_pure _
      · exact (properly_buildSummary _).seq fun _ => calls_pure _
  | s3Reconcile =>
      exact (properly_readOutcomesForNonTerminal.seq properly_foldCompletionsFromOutcomes).seq properly_afterHandler
  | internal msg =>
      rcases msg with _ | n | n | ⟨n, reason⟩ | n
      · exact calls_pure _
      · exact (properly_handleNodeTimedOut n).seq properly_afterHandler
      · exact (properly_handlePodRunning n).seq fun _ => calls_pure _
      · exact (properly_handleNodeInfraFailed n reason).seq properly_afterHandler
      · exact (properly_handleNodeInfraFailed n _).seq properly_afterHandler
  | backplane event =>
      rcases event with _ | ⟨n, success⟩ | _
      · exact properly_abortRun (by simp)
      · exact (properly_cancelNodeTimeout n).seq fun _ =>
          (properly_handleNodeCompleted n success).seq properly_afterHandler
      · exact properly_abortRun (by simp)

/-! ## Tasks -/

section

variable {services : Services}

theorem properly_startCoordinator (config : AppConfig) (runId : String) (pipeline : Pipeline) (statusReporter : Bool)
    (runContext : RunContext) : Properly (startCoordinator config runId pipeline statusReporter runContext) := by
  have hinit : Properly (initializeRunState runId pipeline.nodeInfo pipeline) := by
    refine Calls.seq (calls_perform trivial) fun r => ?_
    split
    · exact calls_pure _
    · exact (calls_perform trivial).seq fun _ => calls_pure _
    · exact calls_pure _
  refine Calls.seq (calls_perform trivial) fun serverId => (calls_perform trivial).seq fun r => ?_
  split
  · exact (calls_perform trivial).seq fun _ => hinit.seq fun _ => (calls_perform trivial).seq fun _ =>
      (calls_perform trivial).seq fun _ => calls_pure _
  · exact calls_pure _

theorem properly_resumeRun (runId : String) (pipeline : Pipeline) (row : PipelineRunRow) :
    Properly (resumeRun services runId pipeline row) := by
  unfold resumeRun
  dsimp only
  split
  · exact (calls_perform trivial).seq fun _ => (properly_startCoordinator _ _ _ _ _).seq fun _ => calls_pure _
  · exact (properly_startCoordinator _ _ _ _ _).seq fun _ => calls_pure _

theorem properly_collectUnleased (wanted : RunState → Bool) (runIds : List String) :
    Properly (collectUnleased wanted runIds) := by
  induction runIds with
  | nil => exact calls_pure _
  | cons runId rest ih =>
      refine Calls.seq (calls_perform trivial) fun r => ?_
      split
      · exact ih
      · exact calls_pure _
      · exact ih
      · split
        · exact ih
        · refine Calls.seq (calls_perform trivial) fun r => ?_
          split
          · exact ih
          · exact ih.seq fun _ => calls_pure _

theorem properly_listUnleased (wanted : RunState → Bool) : Properly (listUnleased wanted) := by
  refine Calls.seq (calls_perform trivial) fun r => ?_
  cases r with
  | error e => exact calls_pure _
  | ok runIds => exact properly_collectUnleased wanted runIds

theorem properly_reapRun (runId : String) : Properly (reapRun runId) :=
  Calls.seq (calls_perform trivial) fun _ => (calls_perform trivial).seq fun _ =>
    (calls_perform trivial).seq fun _ => calls_pure _

theorem properly_reclaimOrphanedRuns : Properly (reclaimOrphanedRuns services) := by
  refine (properly_listUnleased _).seq fun r => ?_
  cases r with
  | error e => exact calls_pure _
  | ok orphaned =>
      refine calls_forM (fun runId => ?_) orphaned
      refine Calls.seq (calls_perform trivial) fun r => ?_
      split
      · refine Calls.seq (calls_perform trivial) fun r => ?_
        split
        · refine Calls.seq (calls_perform trivial) fun r => ?_
          split
          · exact properly_resumeRun _ _ _
          · exact calls_pure _
        · exact properly_reapRun runId
        · exact calls_pure _
      · exact calls_pure _

theorem properly_sweepTerminalRedisRuns : Properly sweepTerminalRedisRuns := by
  refine (properly_listUnleased _).seq fun r => ?_
  cases r with
  | error e => exact calls_pure _
  | ok terminal =>
      refine calls_forM (fun runId => ?_) terminal
      refine Calls.seq (calls_perform trivial) fun r => ?_
      split
      · refine Calls.seq (calls_perform trivial) fun now =>
          Calls.seq (calls_perform (outcomeStatusFor_ne _)) fun r => ?_
        split
        · exact properly_reapRun runId
        · exact calls_pure _
      · exact properly_reapRun runId
      · exact calls_pure _

theorem properly_refreshNodeRun (runId : String) (byName : HashMap String NodeRunRow) (n : String) :
    Properly (refreshNodeRun runId byName n) := by
  unfold refreshNodeRun
  split
  · exact calls_pure _
  · split
    · exact calls_pure _
    · refine Calls.seq (calls_perform trivial) fun r => ?_
      split
      · split
        · refine Calls.seq (calls_perform (proper_recordNodeRun rfl)) fun r => ?_
          split
          · exact calls_pure _
          · exact calls_pure _
        · exact calls_pure _
      · exact calls_pure _

theorem properly_refreshNodeRuns (runId : String) (byName : HashMap String NodeRunRow) (names : List String) :
    Properly (refreshNodeRuns runId byName names) := by
  induction names generalizing byName with
  | nil => exact calls_pure _
  | cons n rest ih => exact (properly_refreshNodeRun runId byName n).seq ih

theorem properly_reconcilePostgresInProgressRun (runId : String) (row : PipelineRunRow) :
    Properly (reconcilePostgresInProgressRun services runId row) := by
  unfold reconcilePostgresInProgressRun
  split
  · exact calls_pure _
  · refine Calls.seq (calls_perform trivial) fun r => ?_
    cases r with
    | error e => exact calls_pure _
    | ok nodeRuns =>
        refine (properly_refreshNodeRuns _ _ _).seq fun byName => ?_
        split
        · refine Calls.seq (calls_perform trivial) fun now => Calls.seq (calls_perform ?_) fun _ =>
            (calls_perform trivial).seq fun _ => calls_pure _
          show (if _ then _ else _ : RunStatus) ≠ _
          split <;> simp
        · refine Calls.seq (calls_perform trivial) fun r => ?_
          split
          · exact (properly_resumeRun _ _ _).seq fun _ => calls_pure _
          · exact calls_pure _

theorem properly_sweepPostgresInProgressRuns : Properly (sweepPostgresInProgressRuns services) := by
  refine Calls.seq (calls_perform trivial) fun r => ?_
  cases r with
  | error e => exact calls_pure _
  | ok inProgress =>
      refine calls_forM (fun row => ?_) inProgress
      refine Calls.seq (calls_perform trivial) fun r => ?_
      split
      · exact (properly_reconcilePostgresInProgressRun _ _).seq fun _ => calls_pure _
      · exact calls_pure _

theorem properly_sweepOrphanKubeResources : Properly sweepOrphanKubeResources := by
  refine Calls.seq (calls_perform trivial) fun r => ?_
  cases r with
  | error e => exact calls_pure _
  | ok managed =>
      refine calls_forM (fun runId => ?_) managed
      refine Calls.seq (calls_perform trivial) fun r => ?_
      split
      · exact calls_pure _
      · exact (calls_perform trivial).seq fun _ => calls_pure _
      · exact (calls_perform trivial).seq fun _ => (calls_perform trivial).seq fun _ => calls_pure _

theorem properly_sweepStrandedResources : Properly (sweepStrandedResources services) :=
  properly_sweepTerminalRedisRuns.seq fun _ => properly_sweepPostgresInProgressRuns.seq fun _ =>
    properly_sweepOrphanKubeResources

end

/-! ## The servers -/

open Deployment

variable {d : Deployment}

theorem makes_proper : d.cluster.Makes Effect.Proper where
  handle input s := by
    rcases input with event | tick <;> cases s
    · trivial
    · exact (properly_handleEvent event _).map _ _
    · cases tick with
      | lease => exact ((properly_reclaimOrphanedRuns.seq fun _ => calls_pure _) ()).map _ _
      | sweep => exact ((properly_sweepStrandedResources.seq fun _ => calls_pure _) ()).map _ _
    · trivial
  spawned e p hp := by
    cases e with
    | spawnCoordinator c =>
        obtain rfl := List.mem_singleton.mp hp
        exact (properly_start c).map _ _
    | _ => cases hp
  outside w l a ha p hp := by
    cases l with
    | launch runId yaml reporter context =>
        obtain ⟨pipeline, _, _, _, rfl⟩ := outside_launch ha
        obtain rfl := List.mem_singleton.mp hp
        exact ((properly_startCoordinator _ _ _ _ _).seq (fun _ => calls_pure _) ()).map _ _
    | startReaper =>
        cases ha
        obtain rfl := List.mem_singleton.mp hp
        exact ((properly_reclaimOrphanedRuns.seq fun _ => properly_sweepStrandedResources.seq
          fun _ => calls_pure _) ()).map _ _
    | expireLease runId =>
        cases ha
        cases hp

/-- Whatever a process of a server is about to write goes together. -/
theorem proper_call {h : List Event} {σ : Servers} (hr : d.Runs h σ) {i : Nat} {s : Local} {e : Effect}
    (hcall : callOf σ i = some (s, e)) : e.Proper := by
  have hmaking : System.Making Effect.Proper σ := by
    apply makes_proper.run ?_ hr
    rintro _ rfl p hp
    cases hp
  obtain ⟨k, hp⟩ := callOf_eq_some.mp hcall
  exact (hmaking _ (List.mem_of_getElem? hp)).1

/-! ## The rows -/

/-- A run is in progress as long as it has no time of completion. -/
def ConsistentRun (row : PipelineRunRow) : Prop := row.status = .inProgress ↔ row.completedAt = none

/-- A node without a result has nothing that a result comes with, and one with a reason has failed. -/
structure ConsistentNode (e : NodeRunEntry) : Prop where
  open_ : e.row.success = none →
    e.row.startedAt = none ∧ e.row.completedAt = none ∧ e.row.failureReason = none ∧ e.outputLog = none
  failed : e.row.failureReason.isSome → e.row.success = some false ∧ e.row.completedAt.isSome
  coded : ∀ code ∈ e.row.failureReason, ∃ reason : InfraFailureReason, reason.stableCode = code

/-- The rows of the history are consistent. -/
structure Consistent (history : PostgresRunHistory) : Prop where
  runs : ∀ row ∈ history.pipelineRuns, ConsistentRun row
  nodes : ∀ e ∈ history.nodeRuns, ConsistentNode e

theorem ProperNodeRun.consistent {record : NodeRunRecord} (h : ProperNodeRun record) {e : NodeRunEntry}
    (hsuccess : e.row.success = some record.success) (hcompleted : e.row.completedAt = record.completedAt)
    (hreason : e.row.failureReason = record.failureReason) : ConsistentNode e where
  open_ hnone := by
    rw [hsuccess] at hnone
    cases hnone
  failed hsome := by
    rw [hreason] at hsome
    rw [hsuccess, hcompleted, h.failed hsome]
    exact ⟨rfl, h.completed hsome⟩
  coded := by
    rw [hreason]
    exact h.coded

open PostgresRunHistory in
/-- What goes together when it is written makes consistent rows. -/
theorem Consistent.historyAfter {parseRunId : String → Option String} {history : PostgresRunHistory}
    (h : Consistent history) {e : Effect} (he : e.Proper) : Consistent (e.historyAfter parseRunId history) := by
  cases e with
  | recordPipelineStarted record =>
      refine kept_induction _ h fun history' hok => ⟨?_, ?_⟩
      · obtain ⟨uuid, retryOf, _, hup⟩ := recordPipelineStarted_ok hok
        exact forall_upsertPipelineRun hup h.runs (fun _ hrow => hrow) ⟨fun _ => rfl, fun _ => rfl⟩
      · rw [recordPipelineStarted_nodeRuns hok]
        exact h.nodes
  | recordPipelineRun record =>
      have hrecord : record.status = .inProgress ↔ record.completedAt = none := by
        obtain ⟨t, ht⟩ := Option.isSome_iff_exists.mp he.2
        simp [he.1, ht]
      refine kept_induction _ h fun history' hok => ⟨?_, ?_⟩
      · obtain ⟨uuid, retryOf, _, _, hup⟩ := recordPipelineRun_ok hok
        exact forall_upsertPipelineRun hup h.runs (fun _ _ => hrecord) hrecord
      · rw [recordPipelineRun_nodeRuns hok]
        exact h.nodes
  | finalizePipelineRunStatus runId status completedAt =>
      refine kept_induction _ h fun history' hok => ?_
      obtain ⟨a, hfinalized, rfl⟩ := except_map_ok hok
      obtain ⟨uuid, _, hrows⟩ := finalizePipelineRunStatus_ok hfinalized
      rw [hrows]
      refine ⟨fun row hrow => ?_, h.nodes⟩
      obtain ⟨old, hold, rfl⟩ := List.mem_map.mp hrow
      split
      · exact ⟨fun hstatus => absurd hstatus he, fun hnone => nomatch hnone⟩
      · exact h.runs old hold
  | recordNodeDispatched record =>
      refine kept_induction _ h fun history' hok => ⟨?_, ?_⟩
      · rw [recordNodeDispatched_pipelineRuns hok]
        exact h.runs
      · obtain ⟨uuid, _, hup⟩ := recordNodeDispatched_ok hok
        refine forall_upsertNodeRun hup h.nodes (fun e he _ _ => h.nodes e he) ⟨?_, ?_, ?_⟩
        · exact fun _ => ⟨rfl, rfl, rfl, rfl⟩
        · exact fun hsome => nomatch hsome
        · exact fun _ hcode => nomatch hcode
  | recordNodeRun record =>
      refine kept_induction _ h fun history' hok => ⟨?_, ?_⟩
      · rw [recordNodeRun_pipelineRuns hok]
        exact h.runs
      · obtain ⟨uuid, _, hup⟩ := recordNodeRun_ok hok
        exact forall_upsertNodeRun hup h.nodes (fun _ _ _ _ => he.consistent rfl rfl rfl) (he.consistent rfl rfl rfl)
  | _ => exact h

theorem runs_consistent {h : List Event} {σ : Servers} (hr : d.Runs h σ) : Consistent σ.world.history := by
  apply hr.invariant
  · rintro _ rfl
    exact ⟨by simp [World.empty, PostgresRunHistory.empty], by simp [World.empty, PostgresRunHistory.empty]⟩
  · intro h σ l σ' hr hconsistent hstep
    rcases step_cases (t := ⟨σ, l, σ'⟩) hstep with ⟨i, s, e, reply, a, hcall, ha, hw⟩ | ⟨_, a, _, ha, hw⟩ | ⟨_, _, hw⟩
    · obtain ⟨hlabel, k, hp⟩ := answeredCall_eq_some.mp hcall
      have hproper : e.Proper := proper_call hr (callOf_eq_some.mpr ⟨k, hp⟩)
      rw [hw, respond_history ha]
      split
      · exact hconsistent.historyAfter hproper
      · exact hconsistent
    · rw [hw, outside_history ha]
      exact hconsistent
    · rw [hw]
      exact hconsistent

/-- In every run of the servers, a run is in progress as long as it has no time of completion, and no reporter is told
that a run ended that way. -/
theorem runs_completed {h : List Event} {σ : Servers} (hr : d.Runs h σ) :
    (∀ row ∈ σ.world.history.pipelineRuns, row.status = .inProgress ↔ row.completedAt = none) ∧
    ∀ t ∈ h, ∀ i s runId status reply, answeredCall t = some (i, s, .reportCompleted runId status, reply) →
      status ≠ .inProgress := by
  refine ⟨(runs_consistent hr).runs, fun t ht i s runId status reply hcall => ?_⟩
  obtain ⟨h₁, h₂, rfl⟩ := List.append_of_mem ht
  obtain ⟨_, k, hp⟩ := answeredCall_eq_some.mp hcall
  exact proper_call hr.split.1 (callOf_eq_some.mpr ⟨k, hp⟩)

theorem runs_completed_begun : ∃ h σ, buildAndTest.Runs h σ ∧ σ.world.history.pipelineRuns.length = 1 ∧
    ∀ row ∈ σ.world.history.pipelineRuns, row.status = .inProgress ↔ row.completedAt = none := by
  obtain ⟨h, σ, hr, hcheck⟩ := buildAndTest.exists_runs (begun "7d444840-9dc0-11d1-b245-5ffdce74fad2")
    (fun a => a.2.world.history.pipelineRuns.length = 1) (by decide +kernel)
  exact ⟨h, σ, hr, by simpa using hcheck, (runs_completed hr).1⟩

end Jefferies.Coordination
