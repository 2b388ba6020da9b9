import Jefferies.Coordination.EventLoop

/-!
# Which calls a coordinator makes where

It sets the deadline of the run as it starts, reads the clock of the system before it arms timers again and reads
outcomes before it folds them. Once it is at the end of the run it neither saves nor arms a timer.
-/

namespace Jefferies.Coordination

open Pipelines StateStore RunHistory Interaction Interact Coordinator

/-- The call sets no deadline of the run, and does not read the clock to arm timers again. -/
def Effect.untimed : Effect → Bool
  | .sleep _ => false
  | .systemTimeMs => false
  | _ => true

/-- Neither does it read outcomes. -/
def Effect.handling : Effect → Bool
  | .readOutcomes _ _ => false
  | e => e.untimed

/-- Nor does it save the run or arm a timer. -/
def Effect.concluding : Effect → Bool
  | .saveRun _ _ _ => false
  | .spawnTimer _ _ _ _ => false
  | e => e.handling

theorem Effect.handling_of_concluding {e : Effect} (h : e.concluding = true) : e.handling = true := by
  cases e with
  | saveRun => cases h
  | spawnTimer => cases h
  | _ => exact h

theorem Effect.untimed_of_handling {e : Effect} (h : e.handling = true) : e.untimed = true := by
  cases e with
  | readOutcomes => cases h
  | _ => exact h

variable {P : Effect → Prop}

theorem calls_cancelNodeTimeout (h : ∀ handle, P (.abortTimer handle)) (n : String) :
    Calls P (cancelNodeTimeout n) := by
  refine calls_get.seq fun c => ?_
  cases c.nodePhaseHandles.lookup n with
  | none => exact calls_pure _
  | some timer => exact (calls_modify _).seq fun _ => calls_perform (h _)

theorem calls_shutdownPodWatcher (h : ∀ runId, P (.watcherCommand runId .shutdown) ∧ P (.abortWatcher runId)) :
    Calls P shutdownPodWatcher := by
  refine calls_get.seq fun c => ?_
  split
  · exact (calls_modify _).seq fun _ => (calls_perform (h _).1).seq fun _ => calls_perform (h _).2
  · exact calls_pure _

theorem calls_buildSummary (h : ∀ runId, P (.watcherCommand runId .shutdown) ∧ P (.abortWatcher runId))
    (status : RunStatus) : Calls P (buildSummary status) :=
  (calls_shutdownPodWatcher h).seq fun _ => calls_get.seq fun _ => calls_pure _

/-! ## The end of a run -/

section

variable (hP : ∀ e : Effect, e.concluding = true → P e)

include hP

theorem calls_runningNodes : Calls P runningNodes :=
  calls_get.seq fun _ => (calls_perform (hP _ rfl)).seq fun _ => calls_pure _

theorem calls_fetchOutcome (runId n : String) : Calls P (fetchOutcome runId n) := by
  refine Calls.seq (calls_perform (hP _ rfl)) fun r => ?_
  cases r with
  | ok o => exact calls_pure _
  | error e => exact calls_pure _

theorem calls_fetchLog (runId n : String) : Calls P (fetchLog runId n) := by
  refine Calls.seq (calls_perform (hP _ rfl)) fun r => ?_
  cases r with
  | ok o => exact calls_pure _
  | error e => exact calls_pure _

theorem calls_orNow (known : Option DateTime) (wanted : Bool) : Calls P (orNow known wanted) := by
  cases known with
  | some t => exact calls_pure _
  | none =>
      cases wanted with
      | true => exact (calls_perform (hP _ rfl)).seq fun _ => calls_pure _
      | false => exact calls_pure _

theorem calls_recordRunningNodeTerminated (n : String) : Calls P (recordRunningNodeTerminated n) :=
  calls_get.seq fun _ => (calls_fetchOutcome hP _ _).seq fun _ => (calls_orNow hP _ _).seq fun _ =>
    (calls_fetchLog hP _ _).seq fun _ => (calls_perform (hP _ rfl)).seq fun _ =>
      (calls_perform (hP _ rfl)).seq fun _ => calls_pure _

theorem calls_finalizeRun (status : RunStatus) : Calls P (finalizeRun status) := by
  have hhistory : Calls P (recordHistory status) :=
    (calls_runningNodes hP).seq fun names => (calls_forM (fun n => (calls_recordRunningNodeTerminated hP n).seq
      fun _ => (calls_modifyGet _).seq fun _ => calls_pure _) names).seq fun _ => calls_get.seq fun _ =>
        (calls_perform (hP _ rfl)).seq fun _ => (calls_perform (hP _ rfl)).seq fun _ => calls_pure _
  refine hhistory.seq fun _ => calls_get.seq fun c => ?_
  split
  · exact calls_perform (hP _ rfl)
  · exact calls_pure _

theorem calls_cleanup : Calls P cleanup :=
  calls_get.seq fun _ => (calls_perform (hP _ rfl)).seq fun _ => (calls_perform (hP _ rfl)).seq fun _ =>
    (calls_perform (hP _ rfl)).seq fun _ => calls_pure _

theorem calls_notifyWatcherOfDeletion (n : String) : Calls P (notifyWatcherOfDeletion n) := by
  refine calls_get.seq fun c => ?_
  split
  · exact (calls_perform (hP _ rfl)).seq fun _ => calls_pure _
  · exact calls_pure _

theorem calls_terminateRunningNodes (status : RunStatus) : Calls P (terminateRunningNodes status) := by
  refine calls_get.seq fun c => (calls_perform (hP _ rfl)).seq fun names => ?_
  refine (calls_forM (calls_cancelNodeTimeout fun _ => hP _ rfl) _).seq fun _ => ?_
  refine (calls_runningNodes hP).seq fun running => ?_
  refine (calls_forM (fun n => ?_) _).seq fun _ => ?_
  · exact (calls_notifyWatcherOfDeletion hP n).seq fun _ => calls_get.seq fun _ =>
      (calls_perform (hP _ rfl)).seq fun _ => calls_pure _
  · exact (calls_shutdownPodWatcher fun _ => ⟨hP _ rfl, hP _ rfl⟩).seq fun _ => calls_get.seq fun _ =>
      calls_pure _

theorem calls_abortRun (status : RunStatus) : Calls P (abortRun status) :=
  (calls_finalizeRun hP status).seq fun _ => (calls_cleanup hP).seq fun _ =>
    (calls_terminateRunningNodes hP status).seq fun _ => calls_pure _

theorem calls_afterHandler (aborted : Bool) : Calls P (afterHandler aborted) := by
  cases aborted with
  | true => exact calls_abortRun hP _
  | false =>
      refine calls_get.seq fun c => ?_
      split
      · exact calls_get.seq fun _ => (calls_finalizeRun hP _).seq fun _ => (calls_cleanup hP).seq fun _ =>
          (calls_buildSummary (fun _ => ⟨hP _ rfl, hP _ rfl⟩) _).seq fun _ => calls_pure _
      · exact calls_pure _

theorem calls_recordNodeCompleted (n : String) (reason : Option InfraFailureReason) :
    Calls P (recordNodeCompleted n reason) :=
  calls_get.seq fun _ => (calls_fetchOutcome hP _ _).seq fun _ => (calls_orNow hP _ _).seq fun _ =>
    (calls_fetchLog hP _ _).seq fun _ => (calls_perform (hP _ rfl)).seq fun _ =>
      (calls_perform (hP _ rfl)).seq fun _ => calls_pure _

theorem calls_recordDispatchFailed (n error : String) : Calls P (recordDispatchFailed n error) :=
  calls_get.seq fun _ => (calls_perform (hP _ rfl)).seq fun _ => (calls_perform (hP _ rfl)).seq fun _ => calls_pure _

end

/-! ## Handlers -/

section

variable (hP : ∀ e : Effect, e.handling = true → P e)

include hP

theorem calls_persistState : Calls P persistState := by
  refine calls_get.seq fun c => (calls_perform (hP _ rfl)).seq fun r => ?_
  split
  · exact (calls_modify _).seq fun _ => calls_pure _
  · exact calls_pure _
  · exact calls_pure _

theorem calls_armTimer (n : String) (phase : TimerPhase) (secs : Nat) : Calls P (armTimer n phase secs) :=
  calls_get.seq fun _ => (calls_perform (hP _ rfl)).seq fun _ => calls_modify _

theorem calls_handlePodRunning (n : String) : Calls P (handlePodRunning n) := by
  refine calls_get.seq fun c => ?_
  split
  · exact calls_pure _
  · exact (calls_cancelNodeTimeout (fun _ => hP _ rfl) n).seq fun _ => calls_get.seq fun _ =>
      calls_armTimer hP n .runtime _

theorem calls_dispatchReadyNode (n : String) : Calls P (dispatchReadyNode n) := by
  have hconclude : ∀ e : Effect, e.concluding = true → P e := fun e he => hP e (Effect.handling_of_concluding he)
  have hfail : ∀ error, Calls P (persistStateAfterDispatchTransition >>= fun _ => recordDispatchFailed n error) :=
    fun error => ((calls_persistState hP).seq fun _ => calls_pure _).seq fun _ =>
      calls_recordDispatchFailed hconclude n error
  refine calls_get.seq fun c => ?_
  split
  · exact (calls_modifyGet _).seq fun _ => hfail _
  · refine (calls_perform (hP _ rfl)).seq fun r => ?_
    cases r with
    | ok =>
        refine (calls_modifyGet _).seq fun marked => ?_
        cases marked with
        | true =>
            exact ((calls_persistState hP).seq fun _ => calls_pure _).seq fun _ => (calls_get.seq fun _ =>
              (calls_perform (hP _ rfl)).seq fun _ => (calls_perform (hP _ rfl)).seq fun _ => calls_pure _).seq fun _ =>
                calls_armTimer hP n .startup _
        | false => exact calls_pure _
    | error e => exact (calls_modifyGet _).seq fun _ => hfail _

theorem calls_dispatchReadyNodes : Calls P dispatchReadyNodes :=
  calls_get.seq fun _ => (calls_perform (hP _ rfl)).seq fun _ => calls_forM (calls_dispatchReadyNode hP) _

theorem calls_failFastOrDispatch : Calls P failFastOrDispatch := by
  refine calls_get.seq fun c => ?_
  split
  · exact calls_pure _
  · exact (calls_dispatchReadyNodes hP).seq fun _ => calls_pure _

/-- What follows the saved failure of a node. -/
theorem calls_cancelAndRecord (n : String) (reason : Option InfraFailureReason) :
    Calls P (notifyWatcherOfDeletion n >>= fun _ => get >>= fun self =>
      call (.cancelNode self.runId n) >>= fun _ => recordNodeCompleted n reason >>= fun _ =>
      failFastOrDispatch) := by
  have hconclude : ∀ e : Effect, e.concluding = true → P e := fun e he => hP e (Effect.handling_of_concluding he)
  exact (calls_notifyWatcherOfDeletion hconclude n).seq fun _ => calls_get.seq fun _ =>
    (calls_perform (hP _ rfl)).seq fun _ => (calls_recordNodeCompleted hconclude n reason).seq fun _ =>
      calls_failFastOrDispatch hP

theorem calls_handleNodeInfraFailed (n : String) (reason : InfraFailureReason) :
    Calls P (handleNodeInfraFailed n reason) := by
  refine calls_get.seq fun c => ?_
  split
  · exact calls_pure _
  · refine (calls_modifyGet _).seq fun marked => ?_
    split
    · exact calls_pure _
    · refine (calls_cancelNodeTimeout (fun _ => hP _ rfl) n).seq fun _ => (calls_persistState hP).seq fun r => ?_
      cases r with
      | error => exact calls_pure _
      | ok => exact calls_cancelAndRecord hP n (some reason)

theorem calls_handleNodeTimedOut (n : String) : Calls P (handleNodeTimedOut n) := by
  refine (calls_modifyGet _).seq fun marked => ?_
  split
  · exact calls_pure _
  · refine (calls_persistState hP).seq fun r => ?_
    cases r with
    | error => exact calls_pure _
    | ok => exact calls_cancelAndRecord hP n none

theorem calls_handleNodeCompleted (n : String) (success : Bool) : Calls P (handleNodeCompleted n success) := by
  have hrecord : Calls P (recordNodeCompleted n none) :=
    calls_recordNodeCompleted (fun e he => hP e (Effect.handling_of_concluding he)) n none
  cases success with
  | true =>
      refine (calls_modifyGet _).seq fun _ => (calls_persistState hP).seq fun r => ?_
      cases r with
      | error => exact calls_pure _
      | ok => exact hrecord.seq fun _ => (calls_dispatchReadyNodes hP).seq fun _ => calls_pure _
  | false =>
      refine (calls_modifyGet _).seq fun _ => (calls_persistState hP).seq fun r => ?_
      cases r with
      | error => exact calls_pure _
      | ok => exact hrecord.seq fun _ => calls_failFastOrDispatch hP

theorem calls_foldCompletionsFromOutcomes (outcomes : HashMap String ReconcileResult) :
    Calls P (foldCompletionsFromOutcomes outcomes) := by
  refine Calls.seq (calls_perform (hP _ rfl)) fun order => calls_anyM (fun n => ?_) order.1
  unfold foldCompletion
  split
  · exact (calls_cancelNodeTimeout (fun _ => hP _ rfl) n).seq fun _ => calls_handleNodeCompleted hP n _
  · exact calls_pure _

theorem calls_promoteStartedPendingToRunning (outcomes : HashMap String ReconcileResult) :
    Calls P (promoteStartedPendingToRunning outcomes) := by
  refine calls_get.seq fun c => (calls_perform (hP _ rfl)).seq fun names => calls_anyM (fun n => ?_) _
  refine (calls_modifyGet _).seq fun marked => ?_
  split
  · exact calls_pure _
  · refine (calls_persistState hP).seq fun _ => calls_get.seq fun _ => (calls_perform (hP _ rfl)).seq fun r => ?_
    split
    · exact calls_pure _
    · exact calls_handleNodeInfraFailed hP n _
    · exact calls_pure _

end

/-! ## The select loop -/

section

variable (hP : ∀ e : Effect, e.untimed = true → P e)

include hP

theorem calls_readOutcomesForNonTerminal : Calls P readOutcomesForNonTerminal := by
  refine calls_get.seq fun c => (calls_perform (hP _ rfl)).seq fun names => ?_
  dsimp only
  split
  · exact calls_pure _
  · exact (calls_perform (hP _ rfl)).seq fun _ => calls_pure _

theorem calls_subscribeAndDispatch : Calls P subscribeAndDispatch := by
  have hhandle : ∀ e : Effect, e.handling = true → P e := fun e he => hP e (Effect.untimed_of_handling he)
  refine calls_get.seq fun c => (calls_perform (hP _ rfl)).seq fun r => ?_
  cases r with
  | error => exact (calls_buildSummary (fun _ => ⟨hP _ rfl, hP _ rfl⟩) _).seq fun _ => calls_pure _
  | ok =>
      exact (calls_perform (hP _ rfl)).seq fun _ => (calls_perform (hP _ rfl)).seq fun _ =>
        (calls_dispatchReadyNodes hhandle).seq fun _ =>
          calls_afterHandler (fun e he => hhandle e (Effect.handling_of_concluding he)) false

/-- In its loop a coordinator sets no deadline of the run, and it arms no timers again. -/
theorem calls_handleEvent (i : LoopEvent) : Calls P (handleEvent i) := by
  have hhandle : ∀ e : Effect, e.handling = true → P e := fun e he => hP e (Effect.untimed_of_handling he)
  have hconclude : ∀ e : Effect, e.concluding = true → P e := fun e he => hhandle e (Effect.handling_of_concluding he)
  cases i with
  | pipelineDeadline => exact calls_abortRun hconclude _
  | heartbeat =>
      refine calls_get.seq fun c => (calls_perform (hP _ rfl)).seq fun r => ?_
      split
      · exact calls_pure _
      · exact (calls_buildSummary (fun _ => ⟨hP _ rfl, hP _ rfl⟩) _).seq fun _ => calls_pure _
  | s3Reconcile =>
      exact ((calls_readOutcomesForNonTerminal hP).seq (calls_foldCompletionsFromOutcomes hhandle)).seq
        (calls_afterHandler hconclude)
  | internal msg =>
      cases msg with
      | none => exact calls_pure _
      | some msg =>
          cases msg with
          | nodeTimedOut n => exact (calls_handleNodeTimedOut hhandle n).seq (calls_afterHandler hconclude)
          | nodePodRunning n => exact (calls_handlePodRunning hhandle n).seq fun _ => calls_pure _
          | nodeInfraFailed n reason =>
              exact (calls_handleNodeInfraFailed hhandle n reason).seq (calls_afterHandler hconclude)
          | nodePodStartTimedOut n =>
              exact (calls_handleNodeInfraFailed hhandle n _).seq (calls_afterHandler hconclude)
  | backplane event =>
      rcases event with _ | ⟨n, success⟩ | _
      · exact calls_abortRun hconclude _
      · exact (calls_cancelNodeTimeout (fun _ => hP _ rfl) n).seq fun _ =>
          (calls_handleNodeCompleted hhandle n success).seq (calls_afterHandler hconclude)
      · exact calls_abortRun hconclude _

end

end Jefferies.Coordination
