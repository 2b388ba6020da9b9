import Jefferies.Coordination.Invariant
import Jefferies.Interaction.Outline

/-!
# The course of a coordinator

An outline of `start` and `handleEvent`: the stages a coordinator goes through, what it changes in each and
which calls it makes there. It leaves out what decides nothing, such as the reading of logs and outcomes
for the history.
-/

namespace Jefferies.Coordination

open Pipelines StateStore RunHistory Interaction Interact Coordinator

/-- Where a handler returns to: the select loop, or a loop over outcomes with names still to come. -/
inductive Caller where
  | loop
  | folding (rehydrates : Bool) (outcomes : HashMap String ReconcileResult) (rest : List String)
  | promoting (outcomes : HashMap String ReconcileResult) (rest : List String)

/-- The change of the run that is to be saved. -/
inductive Change where
  | completed (node : String) (success : Bool)
  | failed (node : String) (reason : InfraFailureReason)
  | timedOut (node : String)
  | promoted (node : String)
  | started (node : String) (rest : List String)
  | refused (node : String) (rest : List String)

inductive Stage where
  -- what comes before the loop
  | entering
  | sifting (outcomes : HashMap String ReconcileResult)
  | promoting (outcomes : HashMap String ReconcileResult) (names : List String)
  | probing (node : String) (k : Caller)
  | rearming (outcomes : HashMap String ReconcileResult)
  | listing (outcomes : HashMap String ReconcileResult)
  | rearmed (outcomes : HashMap String ReconcileResult) (names : List String)
  | subscribing
  -- the loop
  | waiting
  | taken (event : LoopEvent)
  | renewing
  | returned (aborted : Bool) (k : Caller)
  -- the outcomes
  | gathering (rehydrates : Bool)
  | reading (rehydrates : Bool) (names : List String)
  | gathered (rehydrates : Bool) (outcomes : HashMap String ReconcileResult)
  | folding (rehydrates : Bool) (outcomes : HashMap String ReconcileResult) (names : List String)
  -- the handlers
  | switching (node : String)
  | timing (node : String)
  | failing (node : String) (reason : InfraFailureReason) (k : Caller)
  | completing (node : String) (success : Bool) (k : Caller)
  | saving (change : Change) (k : Caller)
  | registering (node : String) (rest : List String) (k : Caller)
  | recording (node : String) (reason : Option InfraFailureReason) (success : Bool) (k : Caller)
  | settling (success : Bool) (k : Caller)
  | dispatch (k : Caller)
  | dispatching (names : List String) (k : Caller)
  | blaming (node : String) (rest : List String) (k : Caller)
  -- the timers
  | relieving (node : String) (next : Stage)
  | aborting (handle : Nat) (next : Stage)
  | arming (node : String) (phase : TimerPhase) (next : Stage)
  -- the end
  | closing (status : RunStatus)
  | concluding (status : RunStatus) (names : List String)
  | terminated (status : RunStatus) (node : String) (rest : List String)
  | closed (status : RunStatus)
  | quitting
  | ended

/-- The handler was called while the run is rehydrated. -/
def Caller.rehydrates : Caller → Bool
  | .loop => false
  | .folding rehydrates _ _ => rehydrates
  | .promoting _ _ => true

/-- A timer is taken out of its node's place and aborted. -/
def Stage.relieves : Stage → Bool
  | .relieving _ _ => true
  | .aborting _ _ => true
  | _ => false

/-- The stage passes before the coordinator makes a call that decides nothing. -/
def Stage.prompt : Stage → Bool
  | .taken _ => true
  | .timing _ => true
  | .failing _ _ _ => true
  | .terminated _ _ _ => true
  | .relieving _ _ => true
  | .aborting _ _ => true
  | _ => false

/-- The coordinator goes on to the stage from the work on a timer. -/
def Stage.resumes : Stage → Bool
  | .entering => false
  | .listing _ => false
  | .relieving _ _ => false
  | .aborting _ _ => false
  | _ => true

theorem Stage.relieves_of_resumes {t : Stage} (h : t.resumes = true) : t.relieves = false := by
  cases t with
  | relieving => cases h
  | aborting => cases h
  | _ => rfl

theorem Stage.ne_entering_of_resumes {t : Stage} (h : t.resumes = true) : t ≠ .entering := by
  rintro rfl
  cases h

theorem Stage.ne_listing_of_resumes {t : Stage} (h : t.resumes = true) (m : HashMap String ReconcileResult) :
    t ≠ .listing m := by
  rintro rfl
  cases h

/-- The run is being rehydrated. -/
def Stage.rehydrates : Stage → Bool
  | .entering => true
  | .sifting _ => true
  | .promoting _ _ => true
  | .rearming _ => true
  | .listing _ => true
  | .rearmed _ _ => true
  | .gathering re => re
  | .reading re _ => re
  | .gathered re _ => re
  | .folding re _ _ => re
  | .returned _ k => k.rehydrates
  | .failing _ _ k => k.rehydrates
  | .completing _ _ k => k.rehydrates
  | .saving _ k => k.rehydrates
  | .probing _ k => k.rehydrates
  | .registering _ _ k => k.rehydrates
  | .recording _ _ _ k => k.rehydrates
  | .settling _ k => k.rehydrates
  | .dispatch k => k.rehydrates
  | .dispatching _ k => k.rehydrates
  | .blaming _ _ k => k.rehydrates
  | .relieving _ next => next.rehydrates
  | .aborting _ next => next.rehydrates
  | .arming _ _ next => next.rehydrates
  | _ => false

/-- The stage behind a save, which was accepted or not. -/
def Change.next (k : Caller) : Change → Bool → Stage
  | .completed n success, true => .recording n none success k
  | .failed n reason, true => .recording n (some reason) false k
  | .timedOut n, true => .recording n none false k
  | .completed .., false => .returned true k
  | .failed .., false => .returned true k
  | .timedOut _, false => .returned true k
  | .promoted n, _ => .probing n k
  | .started n rest, _ => .registering n rest k
  | .refused n rest, _ => .blaming n rest k

/-- The stage behind the answer to a dispatch. -/
def Stage.dispatched (run : PipelineRun) (n : String) (rest : List String) (k : Caller) :
    Except DispatchError Unit → Stage
  | .ok () => if (run.markRunning n).1 then .saving (.started n rest) k else .dispatching rest k
  | .error _ => .saving (.refused n rest) k

theorem next_resumes (change : Change) (k : Caller) (b : Bool) : (change.next k b).resumes = true := by
  cases change <;> cases b <;> rfl

theorem dispatched_resumes (run : PipelineRun) (n : String) (rest : List String) (k : Caller)
    (r : Except DispatchError Unit) : (Stage.dispatched run n rest k r).resumes = true := by
  cases r with
  | error e => rfl
  | ok _ =>
      show (if _ then _ else _ : Stage).resumes = true
      split <;> rfl

def accepted : Except StateStoreError Bool → Bool
  | .ok true => true
  | _ => false

/-- Where the select loop takes an event. -/
def Stage.ofEvent : LoopEvent → Stage
  | .pipelineDeadline => .closing .failure
  | .heartbeat => .renewing
  | .s3Reconcile => .gathering false
  | .internal none => .waiting
  | .internal (some (.nodeTimedOut n)) => .timing n
  | .internal (some (.nodePodRunning n)) => .switching n
  | .internal (some (.nodeInfraFailed n reason)) => .failing n reason .loop
  | .internal (some (.nodePodStartTimedOut n)) => .failing n .podStartTimeout .loop
  | .backplane (some (.nodeCompleted n success)) => .relieving n (.completing n success .loop)
  | .backplane (some .cancel) => .closing .cancelled
  | .backplane none => .closing .failure

/-- What a coordinator computes. -/
inductive Moves : Stage → Coordinator → Stage → Coordinator → Prop
  | rehydrates {c} : c.isRehydrate = true → Moves .entering c (.gathering true) c
  | begins {c} : c.isRehydrate = false → Moves .entering c .subscribing c
  | event {c} (event) : Moves (.taken event) c (.ofEvent event) c
  -- a handler returns
  | aborts {c k} : Moves (.returned true k) c (.closing .failure) c
  | completes {c} : c.run.isComplete = true → Moves (.returned false .loop) c (.closing c.outcomeStatus) c
  | waits {c} : c.run.isComplete = false → Moves (.returned false .loop) c .waiting c
  | folds {c re m rest} : Moves (.returned false (.folding re m rest)) c (.folding re m rest) c
  | promotes {c m rest} : Moves (.returned false (.promoting m rest)) c (.promoting m rest) c
  -- outcomes are read and folded
  | unread {c re} : Moves (.reading re []) c (.gathered re ∅) c
  | folded {c m} : Moves (.folding true m []) c (.sifting m) c
  | reconciled {c m} : Moves (.folding false m []) c (.returned false .loop) c
  | skip {c re m n rest} : (∀ b s f, m.lookup n ≠ some (.completed b s f)) →
      Moves (.folding re m (n :: rest)) c (.folding re m rest) c
  | fold {c re m n rest b s f} : m.lookup n = some (.completed b s f) →
      Moves (.folding re m (n :: rest)) c (.relieving n (.completing n b (.folding re m rest))) c
  -- started nodes are promoted and timers armed again
  | promoted {c m} : Moves (.promoting m []) c (.rearming m) c
  | unpromoted {c m n rest} : (c.run.markRunning n).1 = false →
      Moves (.promoting m (n :: rest)) c (.promoting m rest) c
  | promote {c m n rest} : (c.run.markRunning n).1 = true →
      Moves (.promoting m (n :: rest)) c (.saving (.promoted n) (.promoting m rest))
        (c.setRun (c.run.markRunning n).2)
  | rearm {c m n rest} (phase) : (∀ s, m.lookup n = some (.inProgress s) → phase = .runtime) →
      Moves (.rearmed m (n :: rest)) c (.arming n phase (.rearmed m rest)) c
  | rehydrated {c m} : c.run.isComplete = false → Moves (.rearmed m []) c .subscribing c
  | stalled {c m} : c.run.isComplete = true → Moves (.rearmed m []) c (.closing c.outcomeStatus) c
  -- the handlers
  | switched {c n} : (c.nodePhaseHandles.lookup n).any (·.phase = .runtime) = true →
      Moves (.switching n) c .waiting c
  | switch {c n} : (c.nodePhaseHandles.lookup n).any (·.phase = .runtime) = false →
      Moves (.switching n) c (.relieving n (.arming n .runtime .waiting)) c
  | late {c n} : (c.run.markFailed n).1 = false → Moves (.timing n) c (.returned false .loop) c
  | time {c n} : (c.run.markFailed n).1 = true →
      Moves (.timing n) c (.saving (.timedOut n) .loop) (c.setRun (c.run.markFailed n).2)
  | ignore {c n reason k} : (c.run.markFailed n).1 = false →
      Moves (.failing n reason k) c (.returned false k) c
  | fail {c n reason k} : (c.run.markFailed n).1 = true →
      Moves (.failing n reason k) c (.relieving n (.saving (.failed n reason) k))
        (c.setRun (c.run.markFailed n).2)
  | succeed {c n k} : Moves (.completing n true k) c (.saving (.completed n true) k)
      (c.setRun (c.run.markSuccess n).2)
  | unsucceed {c n k} : Moves (.completing n false k) c (.saving (.completed n false) k)
      (c.setRun (c.run.markFailed n).2)
  | failFast {c k} : c.failFastEnabled = true → Moves (.settling false k) c (.returned true k) c
  | goesOn {c b k} : b = true ∨ c.failFastEnabled = false → Moves (.settling b k) c (.dispatch k) c
  | dispatched {c k} : Moves (.dispatching [] k) c (.returned false k) c
  | unknown {c n rest k} : c.nodeInfoCache.lookup n = none →
      Moves (.dispatching (n :: rest) k) c (.saving (.refused n rest) k)
        (c.setRun (c.run.markDispatchFailed n).2)
  -- the timers
  | unarmed {c n next} : c.nodePhaseHandles.lookup n = none → next.resumes = true →
      Moves (.relieving n next) c next c
  | relieve {c n next timer} : c.nodePhaseHandles.lookup n = some timer →
      Moves (.relieving n next) c (.aborting timer.handle next) (c.removeTimer n)
  -- the end
  | terminated {c status n rest} : Moves (.terminated status n rest) c (.concluding status rest)
      (c.setRun (c.run.markFailed n).2)
  | relieves {c status} (n) : Moves (.closed status) c (.relieving n (.closed status)) c
  | unwatches {c status} : Moves (.closed status) c (.closed status) { c with podWatcher := false }
  | ends {c status} : Moves (.closed status) c .ended c
  | leaves {c} : Moves .quitting c .quitting { c with podWatcher := false }
  | gone {c} : Moves .quitting c .ended c

/-- Calls that decide nothing. -/
inductive Idle (c : Coordinator) : Effect → Prop
  | utcNow : Idle c .utcNow
  | sleep (secs) : Idle c (.sleep secs)
  | interval (secs) : Idle c (.interval secs)
  | watcherCommand (command) : Idle c (.watcherCommand c.runId command)
  | abortWatcher : Idle c (.abortWatcher c.runId)
  | getNodeRun (n) : Idle c (.getNodeRun c.runId n)
  | cancelNode (n) : Idle c (.cancelNode c.runId n)
  | getNodeOutcome (n) : Idle c (.getNodeOutcome c.runId n)
  | getNodeLog (n) : Idle c (.getNodeLog c.runId n)

/-- Calls made once the end of the run is recorded as `status`. -/
inductive Parting (c : Coordinator) (status : RunStatus) : Effect → Prop
  | iterate (names) : Parting c status (.iterate names)
  | cleanupRun : Parting c status (.cleanupRun c.runId)
  | releaseLease : Parting c status (.releaseLease c.runId)
  | deleteRun : Parting c status (.deleteRun c.runId)
  | reportCompleted : Parting c status (.reportCompleted c.runId status)

/-- What a coordinator asks for, and where the answer leads it. -/
inductive Asks : Stage → Coordinator → (e : Effect) → (Resp e → Stage × Coordinator) → Prop
  | idle {t c e} : Idle c e → t.prompt = false → Asks t c e fun _ => (t, c)
  | renew {c} : Asks .renewing c (.renewLease c.runId c.serverId c.leaseVersion 30) fun r =>
      (if accepted r then .waiting else .quitting, c)
  | subscribe {c} : Asks .subscribing c (.subscribeRun c.runId) fun r =>
      (match r with | .ok () => .dispatch .loop | .error _ => .quitting, c)
  | gather {c re} : Asks (.gathering re) c (.iterate (c.run.nodesWith isNonTerminal)) fun names =>
      (.reading re names.1, c)
  | read {c re names} : Asks (.reading re names) c (.readOutcomes c.runId names) fun r =>
      (.gathered re (r.getD ∅), c)
  | walk {c re m} : Asks (.gathered re m) c (.iterate m.keys) fun names => (.folding re m names.1, c)
  | sift {c m} : Asks (.sifting m) c (.iterate m.keys) fun names =>
      (.promoting m (names.1.filter (isPromotable c.run m)), c)
  | probe {c n k} : Asks (.probing n k) c (.nodePodExists c.runId n) fun r =>
      (match r with | .ok false => .failing n .podDeletedUnexpectedly k | _ => .returned false k, c)
  | clock {c m} : Asks (.rearming m) c .systemTimeMs fun _ => (.listing m, c)
  | rearm {c m} : Asks (.listing m) c (.iterate (c.run.nodesWith (· = .running))) fun names =>
      (.rearmed m names.1, c)
  | save {c change k} : Asks (.saving change k) c
      (.saveRun c.runId (c.run.toRunState (c.stateVersion + 1) c.pipeline) c.stateVersion) fun r =>
      (change.next k (accepted r), afterSave c r)
  | register {c n rest k rec} : rec.runId = c.runId → rec.nodeName = n →
      Asks (.registering n rest k) c (.recordNodeDispatched rec) fun _ =>
      (.arming n .startup (.dispatching rest k), c)
  | record {c n reason b k rec} : rec.runId = c.runId → rec.nodeName = n →
      rec.success = succeeded c.run.statuses n → rec.failureReason = reason.map (·.stableCode) →
      Asks (.recording n reason b k) c (.recordNodeRun rec) fun _ => (.settling b k, c)
  | blame {c n rest k rec} : rec.runId = c.runId → rec.nodeName = n → rec.success = false →
      Asks (.blaming n rest k) c (.recordNodeRun rec) fun _ => (.dispatching rest k, c)
  | ready {c k} : Asks (.dispatch k) c (.iterate c.run.readyNodes) fun names => (.dispatching names.1 k, c)
  | dispatch {c n rest k info} : c.nodeInfoCache.lookup n = some info →
      Asks (.dispatching (n :: rest) k) c
        (.dispatch c.runId c.runContext.runMetadata info c.pipeline) fun r =>
        (.dispatched c.run n rest k r, afterDispatch c n r)
  | abort {c handle next} : next.resumes = true →
      Asks (.aborting handle next) c (.abortTimer handle) fun _ => (next, c)
  | arm {c n phase next} (secs) : next.resumes = true →
      Asks (.arming n phase next) c (.spawnTimer c.runId n phase secs) fun handle =>
      (next, c.setTimer n ⟨phase, handle⟩)
  | close {c status} : Asks (.closing status) c (.iterate (c.run.nodesWith (· = .running))) fun names =>
      (.concluding status names.1, c)
  | terminate {c status n rest rec} : rec.runId = c.runId → rec.nodeName = n →
      Asks (.concluding status (n :: rest)) c (.recordNodeRun rec) fun _ => (.terminated status n rest, c)
  | conclude {c status} (t) : Asks (.concluding status []) c
      (.recordPipelineRun (c.pipelineRunRecord status t)) fun _ => (.closed status, c)
  | part {c status e} : Parting c status e → Asks (.closed status) c e fun _ => (.closed status, c)

/-- The outline of a coordinator. -/
def course : Outline Stage Coordinator LoopEvent Resp where
  first := .entering
  idle := .waiting
  ended := .ended
  taken := .taken
  moves := Moves
  asks := Asks

/-- A coordinator as a process. -/
def coordinator : Process Coordinator LoopEvent Resp RunSummary where
  start := start
  handle := handleEvent

/-- Whatever a coordinator computes, its run stays or a node is marked. -/
theorem Moves.marks {t t' : Stage} {c c' : Coordinator} (hm : Moves t c t' c') :
    ∃ n a, a ≠ .pending ∧ PipelineRun.Marks c.run c'.run n a := by
  cases hm with
  | promote => exact ⟨_, .running, by decide, PipelineRun.marks_markRunning _ _⟩
  | time => exact ⟨_, .failed, by decide, PipelineRun.marks_markFailed _ _⟩
  | fail => exact ⟨_, .failed, by decide, PipelineRun.marks_markFailed _ _⟩
  | succeed => exact ⟨_, .success, by decide, PipelineRun.marks_markSuccess _ _⟩
  | unsucceed => exact ⟨_, .failed, by decide, PipelineRun.marks_markFailed _ _⟩
  | unknown => exact ⟨_, .failed, by decide, PipelineRun.marks_markDispatchFailed _ _⟩
  | terminated => exact ⟨_, .failed, by decide, PipelineRun.marks_markFailed _ _⟩
  | _ => exact ⟨"", .failed, by decide, .inl rfl⟩

/-- What a coordinator computes changes neither what it runs nor the version it has saved. -/
theorem Moves.fixed {t t' : Stage} {c c' : Coordinator} (hm : Moves t c t' c') :
    c'.runId = c.runId ∧ c'.pipeline = c.pipeline ∧ c'.stateVersion = c.stateVersion := by
  cases hm <;> exact ⟨rfl, rfl, rfl⟩

theorem Moves.ne_entering {t t' : Stage} {c c' : Coordinator} (hm : Moves t c t' c') : t' ≠ .entering := by
  cases hm with
  | unarmed _ hnext => exact Stage.ne_entering_of_resumes hnext
  | event event =>
      rcases event with _ | _ | _ | (_ | (_ | _ | _ | _)) | (_ | (_ | _)) <;> exact Stage.noConfusion
  | _ => exact Stage.noConfusion

/-- What is fixed for a coordinator's life. -/
theorem Moves.settings {t t' : Stage} {c c' : Coordinator} (hm : Moves t c t' c') :
    c'.pipeline = c.pipeline ∧ c'.nodeInfoCache = c.nodeInfoCache ∧
      c'.failFastEnabled = c.failFastEnabled := by
  cases hm <;> exact ⟨rfl, rfl, rfl⟩

theorem Asks.settings {t : Stage} {c : Coordinator} {e : Effect} {k : Resp e → Stage × Coordinator}
    (hk : Asks t c e k) (r : Resp e) :
    (k r).2.pipeline = c.pipeline ∧ (k r).2.nodeInfoCache = c.nodeInfoCache ∧
      (k r).2.failFastEnabled = c.failFastEnabled := by
  cases hk with
  | save => rcases r with _ | _ | _ <;> exact ⟨rfl, rfl, rfl⟩
  | dispatch => cases r <;> exact ⟨rfl, rfl, rfl⟩
  | _ => exact ⟨rfl, rfl, rfl⟩

namespace Course

variable {t next : Stage} {c : Coordinator} {k : Caller}

/-- The stage is `t` and the coordinator is as it was in `c`. -/
def At {α : Type} (t : Stage) (c : Coordinator) (t' : Stage) (c' : Coordinator) (_ : α) : Prop :=
  t' = t ∧ c' = c

/-- The stage is `t`. -/
def Comes {α : Type} (t t' : Stage) (_ : Coordinator) (_ : α) : Prop := t' = t

/-- The handler has returned its answer to `k`. -/
def Returns (k : Caller) (t : Stage) (_ : Coordinator) (aborted : Bool) : Prop := t = .returned aborted k

section Rules

variable {α : Type} {Q : Stage → Coordinator → α → Prop}

theorem move {t' : Stage} {c' : Coordinator} {p : Prog Coordinator Resp α} (hm : Moves t c t' c')
    (h : course.Follows Q t' c' p) : course.Follows Q t c p := .move hm h

theorem ask {e : Effect} {k : Resp e → Prog Coordinator Resp α} {k' : Resp e → Stage × Coordinator}
    (hk : Asks t c e k') (h : ∀ r, course.Follows Q (k' r).1 (k' r).2 (k r)) :
    course.Follows Q t c (.call c e k) := .call k' hk h

theorem rest {a : α} (h : Q t c a) : course.Follows Q t c (.ret c a) := .ret h

end Rules

/-! ## Calls that decide nothing -/

theorem idle {e : Effect} (he : Idle c e) (ht : t.prompt = false) :
    course.Follows (At t c) t c ((call e : Coord _) c) := by
  apply ask (.idle he ht)
  intro r
  exact rest ⟨rfl, rfl⟩

theorem notifyWatcherOfDeletion (n : String) (ht : t.prompt = false) :
    course.Follows (At t c) t c (notifyWatcherOfDeletion n c) := by
  unfold Coordinator.notifyWatcherOfDeletion
  simp only [get_bind]
  split
  · apply (idle (.watcherCommand _) ht).seq
    intro _ _ _ h
    exact .ret h
  · exact rest ⟨rfl, rfl⟩

theorem fetchOutcome (n : String) (ht : t.prompt = false) :
    course.Follows (At t c) t c (fetchOutcome c.runId n c) := by
  apply (idle (.getNodeOutcome n) ht).seq
  intro _ _ r h
  cases r with
  | error e => exact .ret h
  | ok o => exact .ret h

theorem fetchLog (n : String) (ht : t.prompt = false) :
    course.Follows (At t c) t c (fetchLog c.runId n c) := by
  apply (idle (.getNodeLog n) ht).seq
  intro _ _ r h
  cases r with
  | error e => exact .ret h
  | ok log => exact .ret h

theorem orNow (known : Option DateTime) (wanted : Bool) (ht : t.prompt = false) :
    course.Follows (At t c) t c (orNow known wanted c) := by
  unfold Coordinator.orNow
  cases known with
  | some time => exact rest ⟨rfl, rfl⟩
  | none =>
      cases wanted with
      | true =>
          apply (idle .utcNow ht).seq
          intro _ _ _ h
          exact .ret h
      | false => exact rest ⟨rfl, rfl⟩

theorem recordNodeDispatched (n : String) (node : NodeInfo) (names : List String) :
    course.Follows (At (.arming n .startup (.dispatching names k)) c) (.registering n names k) c
      (recordNodeDispatched n node c) := by
  unfold Coordinator.recordNodeDispatched
  simp only [get_bind]
  apply (idle .utcNow (by rfl)).seq
  rintro _ _ now ⟨rfl, rfl⟩
  exact ask (.register rfl rfl) fun _ => rest ⟨rfl, rfl⟩

/-! ## Timers -/

theorem cancelNodeTimeout (n : String) (hnext : next.resumes = true) :
    course.Follows (Comes next) (.relieving n next) c (cancelNodeTimeout n c) := by
  unfold Coordinator.cancelNodeTimeout
  simp only [get_bind]
  cases h : c.nodePhaseHandles.lookup n with
  | none => exact move (.unarmed h hnext) (rest rfl)
  | some timer =>
      apply move (.relieve h)
      exact ask (.abort hnext) fun _ => rest rfl

theorem armTimer (n : String) (phase : TimerPhase) (secs : Nat) (hnext : next.resumes = true) :
    course.Follows (Comes next) (.arming n phase next) c (armTimer n phase secs c) := by
  unfold Coordinator.armTimer
  simp only [get_bind]
  exact ask (.arm secs hnext) fun _ => rest rfl

theorem spawnRuntimeTimeout (n : String) (secs : Option Nat) (hnext : next.resumes = true) :
    course.Follows (Comes next) (.arming n .runtime next) c (spawnRuntimeTimeout n secs c) :=
  armTimer n .runtime _ hnext

theorem handlePodRunning (n : String) :
    course.Follows (Comes .waiting) (.switching n) c (handlePodRunning n c) := by
  unfold Coordinator.handlePodRunning
  simp only [get_bind]
  split
  · rename_i h
    exact move (.switched h) (rest rfl)
  · rename_i h
    apply move (.switch (by simpa using h))
    apply (cancelNodeTimeout n (by rfl)).seq
    rintro _ c' _ rfl
    exact spawnRuntimeTimeout n _ (by rfl)

/-! ## History -/

theorem recordNodeCompleted (n : String) (reason : Option InfraFailureReason) (b : Bool) :
    course.Follows (At (.settling b k) c) (.recording n reason b k) c (recordNodeCompleted n reason c) := by
  unfold Coordinator.recordNodeCompleted
  simp only [get_bind]
  apply (fetchOutcome n (by rfl)).seq
  rintro _ _ outcome ⟨rfl, rfl⟩
  apply (orNow _ _ (by rfl)).seq
  rintro _ _ completedAt ⟨rfl, rfl⟩
  apply (fetchLog n (by rfl)).seq
  rintro _ _ log ⟨rfl, rfl⟩
  apply (idle .utcNow (by rfl)).seq
  rintro _ _ createdAt ⟨rfl, rfl⟩
  exact ask (.record rfl rfl rfl rfl) fun _ => rest ⟨rfl, rfl⟩

theorem recordDispatchFailed (n error : String) (names : List String) :
    course.Follows (At (.dispatching names k) c) (.blaming n names k) c
      (recordDispatchFailed n error c) := by
  unfold Coordinator.recordDispatchFailed
  simp only [get_bind]
  apply (idle .utcNow (by rfl)).seq
  rintro _ _ now ⟨rfl, rfl⟩
  exact ask (.blame rfl rfl rfl) fun _ => rest ⟨rfl, rfl⟩

theorem recordRunningNodeTerminated (status : RunStatus) (n : String) (names : List String) :
    course.Follows (At (.terminated status n names) c) (.concluding status (n :: names)) c
      (recordRunningNodeTerminated n c) := by
  unfold Coordinator.recordRunningNodeTerminated
  simp only [get_bind]
  apply (fetchOutcome n (by rfl)).seq
  rintro _ _ outcome ⟨rfl, rfl⟩
  apply (orNow _ _ (by rfl)).seq
  rintro _ _ completedAt ⟨rfl, rfl⟩
  apply (fetchLog n (by rfl)).seq
  rintro _ _ log ⟨rfl, rfl⟩
  apply (idle .utcNow (by rfl)).seq
  rintro _ _ createdAt ⟨rfl, rfl⟩
  exact ask (.terminate rfl rfl) fun _ => rest ⟨rfl, rfl⟩

/-! ## Saving and dispatching -/

theorem persistState (change : Change) :
    course.Follows (fun t _ r => (∃ e, r = .error e ∧ t = change.next k false) ∨ (r = .ok () ∧ t = change.next k true))
      (.saving change k) c (persistState c) := by
  unfold Coordinator.persistState
  simp only [get_bind]
  apply ask .save
  intro r
  rcases r with e | _ | _
  · exact rest (.inl ⟨_, rfl, rfl⟩)
  · exact rest (.inl ⟨_, rfl, rfl⟩)
  · exact rest (.inr ⟨rfl, rfl⟩)

theorem persistTransition (change : Change) :
    course.Follows (fun t _ _ => ∃ b : Bool, t = change.next k b) (.saving change k) c
      (persistStateAfterDispatchTransition c) := by
  apply (persistState change).seq
  rintro _ c' _ (⟨_, _, rfl⟩ | ⟨_, rfl⟩)
  · exact rest ⟨false, rfl⟩
  · exact rest ⟨true, rfl⟩

theorem persistThenFail (n error : String) (names : List String) :
    course.Follows (Comes (.dispatching names k)) (.saving (.refused n names) k) c
      ((persistStateAfterDispatchTransition >>= fun _ => Coordinator.recordDispatchFailed n error) c) := by
  apply (persistTransition _).seq
  rintro _ c' _ ⟨b, rfl⟩
  apply (recordDispatchFailed n error names).mono
  intro _ _ _ h
  exact h.1

theorem dispatchReadyNode (n : String) (names : List String) :
    course.Follows (Comes (.dispatching names k)) (.dispatching (n :: names) k) c
      (dispatchReadyNode n c) := by
  unfold Coordinator.dispatchReadyNode
  simp only [get_bind]
  cases hinfo : c.nodeInfoCache.lookup n with
  | none => exact move (.unknown hinfo) (persistThenFail n _ names)
  | some node =>
      apply ask (.dispatch hinfo)
      intro r
      rcases r with e | ⟨⟩
      · exact persistThenFail n _ names
      · simp only [Prog.ret_bind, mark, modifyGet_bind, afterDispatch, Stage.dispatched]
        cases (c.run.markRunning n).1 with
        | false => exact rest rfl
        | true =>
            apply (persistTransition _).seq
            rintro _ c₁ _ ⟨b, rfl⟩
            apply (recordNodeDispatched n node names).seq
            rintro _ c₂ _ ⟨rfl, rfl⟩
            exact armTimer n .startup _ (by rfl)

theorem dispatchAll (names : List String) :
    course.Follows (Comes (.dispatching [] k)) (.dispatching names k) c
      (names.forM Coordinator.dispatchReadyNode c) := by
  apply Outline.Follows.forM (P := fun l t _ => t = Stage.dispatching l k) _ names rfl
  rintro n l _ c rfl
  exact dispatchReadyNode n l

theorem dispatchReadyNodes :
    course.Follows (Comes (.returned false k)) (.dispatch k) c (dispatchReadyNodes c) := by
  unfold Coordinator.dispatchReadyNodes
  simp only [get_bind]
  apply ask .ready
  intro names
  apply (dispatchAll names.1).andThen
  rintro _ c' _ rfl
  exact move .dispatched (rest rfl)

theorem failFastOrDispatch :
    course.Follows (Returns k) (.settling false k) c (failFastOrDispatch c) := by
  unfold Coordinator.failFastOrDispatch
  simp only [get_bind]
  split
  · rename_i h
    exact move (.failFast h) (rest rfl)
  · rename_i h
    apply move (.goesOn (.inr (by simpa using h)))
    apply dispatchReadyNodes.seq
    rintro _ c' _ rfl
    exact rest rfl

/-! ## Handlers -/

/-- What follows the save of a failure: the node is cancelled and recorded, and the run aborted or not. -/
theorem recordFailure (n : String) (reason : Option InfraFailureReason) :
    course.Follows (Returns k) (.recording n reason false k) c
      ((do
        Coordinator.notifyWatcherOfDeletion n
        let self ← get
        let _ ← call (.cancelNode self.runId n)
        Coordinator.recordNodeCompleted n reason
        Coordinator.failFastOrDispatch : Coord Bool) c) := by
  apply (notifyWatcherOfDeletion n (by rfl)).seq
  rintro _ _ _ ⟨rfl, rfl⟩
  simp only [get_bind]
  apply (idle (.cancelNode n) (by rfl)).seq
  rintro _ _ _ ⟨rfl, rfl⟩
  apply (recordNodeCompleted n reason false).seq
  rintro _ _ _ ⟨rfl, rfl⟩
  exact failFastOrDispatch

theorem handleNodeInfraFailed (n : String) (reason : InfraFailureReason) :
    course.Follows (Returns k) (.failing n reason k) c (handleNodeInfraFailed n reason c) := by
  unfold Coordinator.handleNodeInfraFailed
  simp only [get_bind]
  split
  · rename_i h
    have hm : (c.run.markFailed n).1 = false := by
      rw [← Bool.not_eq_true, PipelineRun.markFailed_fst]
      cases hs : c.run.statuses.lookup n with
      | none => simp
      | some s => cases s <;> simp [hs] at h ⊢
    exact move (.ignore hm) (rest rfl)
  · simp only [mark, modifyGet_bind]
    cases hm : (c.run.markFailed n).1 with
    | false =>
        rw [PipelineRun.markFailed_of_false hm]
        exact move (.ignore hm) (rest rfl)
    | true =>
        apply move (.fail hm)
        apply (cancelNodeTimeout n (by rfl)).seq
        rintro _ c₁ _ rfl
        apply (persistState _).seq
        rintro _ c₂ _ (⟨e, rfl, rfl⟩ | ⟨rfl, rfl⟩)
        · exact rest rfl
        · exact recordFailure n (some reason)

theorem handleNodeTimedOut (n : String) :
    course.Follows (Returns .loop) (.timing n) c (handleNodeTimedOut n c) := by
  unfold Coordinator.handleNodeTimedOut
  simp only [mark, modifyGet_bind]
  cases hm : (c.run.markFailed n).1 with
  | false =>
      rw [PipelineRun.markFailed_of_false hm]
      exact move (.late hm) (rest rfl)
  | true =>
      apply move (.time hm)
      apply (persistState _).seq
      rintro _ c₂ _ (⟨e, rfl, rfl⟩ | ⟨rfl, rfl⟩)
      · exact rest rfl
      · exact recordFailure n none

theorem handleNodeCompleted (n : String) (success : Bool) :
    course.Follows (Returns k) (.completing n success k) c (handleNodeCompleted n success c) := by
  unfold Coordinator.handleNodeCompleted
  cases success with
  | true =>
      simp only [↓reduceIte, mark, modifyGet_bind]
      apply move .succeed
      apply (persistState _).seq
      rintro _ c₁ _ (⟨e, rfl, rfl⟩ | ⟨rfl, rfl⟩)
      · exact rest rfl
      · apply (recordNodeCompleted n none true).seq
        rintro _ c₂ _ ⟨rfl, rfl⟩
        apply move (.goesOn (.inl rfl))
        apply dispatchReadyNodes.seq
        rintro _ c₃ _ rfl
        exact rest rfl
  | false =>
      simp only [Bool.false_eq_true, ↓reduceIte, mark, modifyGet_bind]
      apply move .unsucceed
      apply (persistState _).seq
      rintro _ c₁ _ (⟨e, rfl, rfl⟩ | ⟨rfl, rfl⟩)
      · exact rest rfl
      · apply (recordNodeCompleted n none false).seq
        rintro _ c₂ _ ⟨rfl, rfl⟩
        exact failFastOrDispatch

/-! ## Outcomes -/

/-- A loop over outcomes has stopped: with `true` where a handler asked for that, else behind the last
name. -/
def Loops (last : Stage) (t : Stage) (_ : Coordinator) (aborted : Bool) : Prop :=
  if aborted then ∃ k, t = .returned true k else t = last

theorem readOutcomesForNonTerminal (re : Bool) :
    course.Follows (fun t c' outcomes => t = .gathered re outcomes ∧ c' = c) (.gathering re) c
      (readOutcomesForNonTerminal c) := by
  unfold Coordinator.readOutcomesForNonTerminal
  simp only [get_bind]
  apply ask .gather
  rintro ⟨names, hnames⟩
  cases names with
  | nil => exact move .unread (rest ⟨rfl, rfl⟩)
  | cons n names => exact ask .read fun r => rest ⟨rfl, rfl⟩

theorem foldCompletion (re : Bool) (outcomes : HashMap String ReconcileResult) (n : String)
    (names : List String) :
    course.Follows (Loops (.folding re outcomes names)) (.folding re outcomes (n :: names)) c
      (foldCompletion outcomes n c) := by
  unfold Coordinator.foldCompletion
  cases ho : outcomes.lookup n with
  | none => exact move (.skip (by simp [ho])) (rest rfl)
  | some result =>
      cases result with
      | inProgress s => exact move (.skip (by simp [ho])) (rest rfl)
      | stillRunning => exact move (.skip (by simp [ho])) (rest rfl)
      | transientReadError e => exact move (.skip (by simp [ho])) (rest rfl)
      | completed b s f =>
          apply move (.fold ho)
          apply (cancelNodeTimeout n (by rfl)).seq
          rintro _ c₁ _ rfl
          apply (handleNodeCompleted n b).andThen
          rintro _ c₂ aborted rfl
          cases aborted with
          | true => exact rest ⟨_, rfl⟩
          | false => exact move .folds (rest rfl)

theorem foldCompletionsFromOutcomes (re : Bool) (outcomes : HashMap String ReconcileResult) :
    course.Follows (Loops (.folding re outcomes [])) (.gathered re outcomes) c
      (foldCompletionsFromOutcomes outcomes c) := by
  unfold Coordinator.foldCompletionsFromOutcomes
  apply ask .walk
  intro names
  apply Outline.Follows.anyM (P := fun l t _ => t = Stage.folding re outcomes l) _ _ names.1 rfl
  · rintro n l _ c rfl
    apply (foldCompletion re outcomes n l).mono
    intro t c' aborted h
    cases aborted with
    | true => exact h
    | false => exact h
  · rintro _ c rfl
    exact rest rfl

theorem promoteNode (outcomes : HashMap String ReconcileResult) (n : String) (names : List String) :
    course.Follows (Loops (.promoting outcomes names)) (.promoting outcomes (n :: names)) c
      (promoteNode n c) := by
  unfold Coordinator.promoteNode
  simp only [mark, modifyGet_bind]
  cases hm : (c.run.markRunning n).1 with
  | false =>
      rw [PipelineRun.markRunning_of_false hm]
      exact move (.unpromoted hm) (rest rfl)
  | true =>
      apply move (.promote hm)
      apply (persistState _).seq
      intro t c₁ _ h
      -- the pod is probed whether the save was accepted or not
      obtain rfl : t = .probing n (.promoting outcomes names) := by
        rcases h with ⟨_, _, rfl⟩ | ⟨_, rfl⟩
        · rfl
        · rfl
      simp only [get_bind]
      apply ask .probe
      intro r
      rcases r with e | _ | _
      · exact move .promotes (rest rfl)
      · apply (handleNodeInfraFailed n _).andThen
        rintro _ c₂ aborted rfl
        cases aborted with
        | true => exact rest ⟨_, rfl⟩
        | false => exact move .promotes (rest rfl)
      · exact move .promotes (rest rfl)

theorem promoteStartedPendingToRunning (outcomes : HashMap String ReconcileResult) :
    course.Follows (Loops (.promoting outcomes [])) (.sifting outcomes) c
      (promoteStartedPendingToRunning outcomes c) := by
  unfold Coordinator.promoteStartedPendingToRunning
  simp only [get_bind]
  apply ask .sift
  intro names
  apply Outline.Follows.anyM (P := fun l t _ => t = Stage.promoting outcomes l) _ _ _ rfl
  · rintro n l _ c rfl
    apply (promoteNode outcomes n l).mono
    intro t c' aborted h
    cases aborted with
    | true => exact h
    | false => exact h
  · rintro _ c rfl
    exact rest rfl

theorem reconcileRunningAgainstS3 :
    course.Follows (fun t _ b => ∃ k, t = .returned b k ∧ (b = false → k = .loop)) (.gathering false) c
      (reconcileRunningAgainstS3 c) := by
  unfold Coordinator.reconcileRunningAgainstS3
  apply (readOutcomesForNonTerminal false).seq
  rintro _ _ outcomes ⟨rfl, rfl⟩
  apply (foldCompletionsFromOutcomes false outcomes).andThen
  intro t c' aborted h
  cases aborted with
  | true =>
      obtain ⟨k, rfl⟩ := h
      exact rest ⟨k, rfl, by simp⟩
  | false =>
      cases h
      exact move .reconciled (rest ⟨.loop, rfl, by simp⟩)

/-! ## Timers of a rehydrated run -/

theorem rehydrateFromHistory (outcomes : HashMap String ReconcileResult) (n : String) (names : List String)
    (startupSecs runtimeSecs : Nat) (hn : ∀ s, outcomes.lookup n ≠ some (.inProgress s)) :
    course.Follows (Comes (.rearmed outcomes names)) (.rearmed outcomes (n :: names)) c
      (rehydrateFromHistory n startupSecs runtimeSecs c) := by
  have hphase : ∀ {phase : TimerPhase} s, outcomes.lookup n = some (.inProgress s) → phase = .runtime :=
    fun s h => absurd h (hn s)
  unfold Coordinator.rehydrateFromHistory
  simp only [get_bind]
  apply (idle (.getNodeRun n) (by rfl)).seq
  rintro _ _ r ⟨rfl, rfl⟩
  rcases r with e | _ | row
  · exact move (.rearm .runtime hphase) (spawnRuntimeTimeout n _ (by rfl))
  · exact move (.rearm .runtime hphase) (spawnRuntimeTimeout n _ (by rfl))
  · apply (idle .utcNow (by rfl)).seq
    rintro _ _ now ⟨rfl, rfl⟩
    exact move (.rearm .startup hphase) (armTimer n .startup _ (by rfl))

theorem rehydratePhaseTimer (nowMs : Nat) (outcomes : HashMap String ReconcileResult) (n : String)
    (names : List String) :
    course.Follows (Comes (.rearmed outcomes names)) (.rearmed outcomes (n :: names)) c
      (rehydratePhaseTimer nowMs outcomes n c) := by
  unfold Coordinator.rehydratePhaseTimer
  simp only [get_bind]
  cases ho : outcomes.lookup n with
  | none => exact rehydrateFromHistory outcomes n names _ _ (by simp [ho])
  | some result =>
      cases result with
      | inProgress s => exact move (.rearm .runtime fun _ _ => rfl) (spawnRuntimeTimeout n _ (by rfl))
      | completed b s f => exact rehydrateFromHistory outcomes n names _ _ (by simp [ho])
      | stillRunning => exact rehydrateFromHistory outcomes n names _ _ (by simp [ho])
      | transientReadError e => exact rehydrateFromHistory outcomes n names _ _ (by simp [ho])

theorem rehydratePhaseTimers (outcomes : HashMap String ReconcileResult) :
    course.Follows (Comes (.rearmed outcomes [])) (.promoting outcomes []) c
      (rehydratePhaseTimers outcomes c) := by
  unfold Coordinator.rehydratePhaseTimers
  apply move .promoted
  apply ask .clock
  intro nowMs
  unfold Coordinator.runningNodes
  simp only [bind_assoc, pure_bind, get_bind]
  apply ask .rearm
  intro names
  apply Outline.Follows.forM (P := fun l t _ => t = Stage.rearmed outcomes l) _ names.1 rfl
  rintro n l _ c rfl
  exact rehydratePhaseTimer nowMs outcomes n l

/-! ## The end of a run -/

theorem recordHistory (status : RunStatus) :
    course.Follows (Comes (.closed status)) (.closing status) c (recordHistory status c) := by
  unfold Coordinator.recordHistory Coordinator.runningNodes
  simp only [bind_assoc, pure_bind, get_bind]
  apply ask .close
  intro names
  have hloop : course.Follows (Comes (.concluding status [])) (.concluding status names.1) c
      ((names.1.forM fun n => do
        Coordinator.recordRunningNodeTerminated n
        let _ ← mark (·.markFailed n) : Coord Unit) c) := by
    apply Outline.Follows.forM (P := fun l t _ => t = Stage.concluding status l) _ names.1 rfl
    rintro n l _ c rfl
    apply (recordRunningNodeTerminated status n l).seq
    rintro _ _ _ ⟨rfl, rfl⟩
    exact move .terminated (rest rfl)
  apply hloop.seq
  rintro _ c₁ _ rfl
  simp only [get_bind]
  apply (idle .utcNow (by rfl)).seq
  rintro _ _ now ⟨rfl, rfl⟩
  exact ask (.conclude now) fun _ => rest rfl

theorem part {status : RunStatus} {e : Effect} (he : Parting c status e) :
    course.Follows (At (.closed status) c) (.closed status) c ((call e : Coord _) c) :=
  ask (.part he) fun _ => rest ⟨rfl, rfl⟩

theorem finalizeRun (status : RunStatus) :
    course.Follows (Comes (.closed status)) (.closing status) c (finalizeRun status c) := by
  unfold Coordinator.finalizeRun
  apply (recordHistory status).seq
  rintro _ c₁ _ rfl
  simp only [get_bind]
  split
  · apply (part .reportCompleted).mono
    intro _ _ _ h
    exact h.1
  · exact rest rfl

theorem cleanup (status : RunStatus) :
    course.Follows (Comes (.closed status)) (.closed status) c (cleanup c) := by
  unfold Coordinator.cleanup
  simp only [get_bind]
  apply (part .cleanupRun).seq
  rintro _ c _ ⟨rfl, rfl⟩
  apply (part .releaseLease).seq
  rintro _ c _ ⟨rfl, rfl⟩
  apply (part .deleteRun).seq
  rintro _ c _ ⟨rfl, rfl⟩
  exact rest rfl

theorem shutdownPodWatcher (hstop : ∀ c, Moves t c t { c with podWatcher := false })
    (ht : t.prompt = false) : course.Follows (Comes t) t c (shutdownPodWatcher c) := by
  unfold Coordinator.shutdownPodWatcher
  simp only [get_bind]
  split
  · simp only [modify_bind]
    apply move (hstop c)
    apply (idle (.watcherCommand _) ht).seq
    rintro _ c _ ⟨rfl, rfl⟩
    apply (idle .abortWatcher ht).mono
    intro _ _ _ h
    exact h.1
  · exact rest rfl

theorem buildSummary (status : RunStatus) (hstop : ∀ c, Moves t c t { c with podWatcher := false })
    (ht : t.prompt = false) : course.Follows (Comes t) t c (buildSummary status c) := by
  apply (shutdownPodWatcher hstop ht).seq
  rintro _ c₁ _ rfl
  exact rest rfl

theorem terminateRunningNodes (status : RunStatus) :
    course.Follows (Comes (.closed status)) (.closed status) c (terminateRunningNodes status c) := by
  unfold Coordinator.terminateRunningNodes
  simp only [get_bind]
  apply (part (.iterate _)).seq
  rintro _ c timers ⟨rfl, rfl⟩
  have hcancel : course.Follows (Comes (.closed status)) (.closed status) c
      (timers.1.forM Coordinator.cancelNodeTimeout c) := by
    apply Outline.Follows.forM (P := fun _ t _ => t = Stage.closed status) _ timers.1 rfl
    rintro n l _ c rfl
    exact move (.relieves n) (cancelNodeTimeout n (by rfl))
  apply hcancel.seq
  rintro _ c₁ _ rfl
  unfold Coordinator.runningNodes
  simp only [bind_assoc, pure_bind, get_bind]
  apply (part (.iterate _)).seq
  rintro _ c names ⟨rfl, rfl⟩
  have hnotify : course.Follows (Comes (.closed status)) (.closed status) c
      ((names.1.forM fun n => do
        Coordinator.notifyWatcherOfDeletion n
        let self ← get
        let _ ← call (.cancelNode self.runId n) : Coord Unit) c) := by
    apply Outline.Follows.forM (P := fun _ t _ => t = Stage.closed status) _ names.1 rfl
    rintro n l _ c rfl
    apply (notifyWatcherOfDeletion n (by rfl)).seq
    rintro _ c _ ⟨rfl, rfl⟩
    simp only [get_bind]
    apply (idle (.cancelNode n) (by rfl)).seq
    rintro _ c _ ⟨rfl, rfl⟩
    exact rest rfl
  apply hnotify.seq
  rintro _ c₂ _ rfl
  apply (shutdownPodWatcher (fun _ => .unwatches) (by rfl)).seq
  rintro _ c₃ _ rfl
  exact rest rfl

/-- The run is over, with a summary. -/
def Ends (t : Stage) (_ : Coordinator) (r : Option RunSummary) : Prop := t = .ended ∧ r ≠ none

theorem abortRun (status : RunStatus) :
    course.Follows Ends (.closing status) c (abortRun status c) := by
  apply (finalizeRun status).seq
  rintro _ c₁ _ rfl
  apply (cleanup status).seq
  rintro _ c₂ _ rfl
  apply (terminateRunningNodes status).seq
  rintro _ c₃ _ rfl
  exact move .ends (rest ⟨rfl, Option.some_ne_none _⟩)

theorem completeRun : course.Follows Ends (.closing c.outcomeStatus) c (completeRun c) := by
  unfold Coordinator.completeRun
  simp only [get_bind]
  apply (finalizeRun _).seq
  rintro _ c₁ _ rfl
  apply (cleanup _).seq
  rintro _ c₂ _ rfl
  apply (buildSummary _ (fun _ => .unwatches) (by rfl)).seq
  rintro _ c₃ _ rfl
  exact move .ends (rest ⟨rfl, Option.some_ne_none _⟩)

theorem quit (status : RunStatus) :
    course.Follows Ends .quitting c
      ((Coordinator.buildSummary status >>= fun summary => pure (some summary) : Coord _) c) := by
  apply (buildSummary status (fun _ => .leaves) (by rfl)).seq
  rintro _ c₁ _ rfl
  exact move .gone (rest ⟨rfl, Option.some_ne_none _⟩)

/-- The run is over, or the coordinator goes on in the stage `next`. -/
def EndsOr (next t : Stage) (_ : Coordinator) : Option RunSummary → Prop
  | none => t = next
  | some _ => t = .ended

theorem Ends.or {next t : Stage} {c : Coordinator} {r : Option RunSummary} (h : Ends t c r) :
    EndsOr next t c r := by
  cases r with
  | none => exact absurd rfl h.2
  | some summary => exact h.1

/-- What follows a handler that has returned `aborted` in the stage `t`. -/
theorem afterHandler {aborted : Bool}
    (habort : aborted = true → Moves t c (.closing .failure) c)
    (hcomplete : aborted = false → c.run.isComplete = true → Moves t c (.closing c.outcomeStatus) c)
    (hnext : aborted = false → c.run.isComplete = false → Moves t c next c) :
    course.Follows (EndsOr next) t c (afterHandler aborted c) := by
  unfold Coordinator.afterHandler
  cases aborted with
  | true => exact move (habort rfl) ((abortRun .failure).mono fun _ _ _ => Ends.or)
  | false =>
      simp only [Bool.false_eq_true, ↓reduceIte, get_bind]
      split
      · rename_i h
        exact move (hcomplete rfl h) (completeRun.mono fun _ _ _ => Ends.or)
      · rename_i h
        exact move (hnext rfl (by simpa using h)) (rest rfl)

/-- What follows a handler, from its return to the loop. -/
theorem afterReturn {aborted : Bool} (hk : aborted = false → k = .loop) :
    course.Follows (EndsOr .waiting) (.returned aborted k) c (Coordinator.afterHandler aborted c) := by
  apply afterHandler
  · rintro rfl
    exact .aborts
  · rintro rfl h
    obtain rfl := hk rfl
    exact .completes h
  · rintro rfl h
    obtain rfl := hk rfl
    exact .waits h

/-! ## Before the loop -/

theorem subscribeAndDispatch :
    course.Follows (EndsOr .waiting) .subscribing c (subscribeAndDispatch c) := by
  unfold Coordinator.subscribeAndDispatch
  simp only [get_bind]
  apply ask .subscribe
  rintro (e | ⟨⟩)
  · exact (quit .failure).mono fun _ _ _ => Ends.or
  · apply (idle (.interval 15) (by rfl)).seq
    rintro _ c _ ⟨rfl, rfl⟩
    apply (idle (.interval _) (by rfl)).seq
    rintro _ c _ ⟨rfl, rfl⟩
    apply dispatchReadyNodes.seq
    rintro _ c₁ _ rfl
    exact afterReturn fun _ => rfl

theorem rehydrate : course.Follows (EndsOr .subscribing) (.gathering true) c (rehydrate c) := by
  unfold Coordinator.rehydrate
  apply (readOutcomesForNonTerminal true).seq
  rintro _ _ outcomes ⟨rfl, rfl⟩
  apply (foldCompletionsFromOutcomes true outcomes).seq
  intro t c₁ aborted h
  cases aborted with
  | true =>
      obtain ⟨k, rfl⟩ := h
      exact move .aborts ((abortRun .failure).mono fun _ _ _ => Ends.or)
  | false =>
      cases h
      apply move .folded
      apply (promoteStartedPendingToRunning outcomes).seq
      intro t c₂ aborted h
      cases aborted with
      | true =>
          obtain ⟨k, rfl⟩ := h
          exact move .aborts ((abortRun .failure).mono fun _ _ _ => Ends.or)
      | false =>
          cases h
          apply (rehydratePhaseTimers outcomes).seq
          rintro _ c₃ _ rfl
          apply afterHandler
          · simp
          · exact fun _ h => .stalled h
          · exact fun _ h => .rehydrated h

theorem start : course.Follows (EndsOr .waiting) .entering c (start c) := by
  unfold Coordinator.start
  simp only [get_bind]
  apply (idle (.sleep _) (by rfl)).seq
  rintro _ c _ ⟨rfl, rfl⟩
  split
  · rename_i h
    apply move (.rehydrates h)
    apply rehydrate.seq
    intro t c₁ r hr
    cases r with
    | none =>
        cases hr
        exact subscribeAndDispatch
    | some summary => exact rest hr
  · rename_i h
    exact move (.begins (by simpa using h)) subscribeAndDispatch

/-! ## The loop -/

theorem handleHeartbeat : course.Follows (EndsOr .waiting) .renewing c (handleHeartbeat c) := by
  unfold Coordinator.handleHeartbeat
  simp only [get_bind]
  apply ask .renew
  intro r
  rcases r with e | _ | _
  · exact (quit .failure).mono fun _ _ _ => Ends.or
  · exact (quit .failure).mono fun _ _ _ => Ends.or
  · exact rest rfl

theorem handleMessage (msg : CoordinatorMessage) :
    course.Follows (EndsOr .waiting) (.ofEvent (.internal (some msg))) c (handleMessage msg c) := by
  cases msg with
  | nodeTimedOut n =>
      apply (handleNodeTimedOut n).seq
      rintro _ c₁ aborted rfl
      exact afterReturn fun _ => rfl
  | nodePodRunning n =>
      apply (handlePodRunning n).seq
      rintro _ c₁ _ rfl
      exact rest rfl
  | nodeInfraFailed n reason =>
      apply (handleNodeInfraFailed n reason).seq
      rintro _ c₁ aborted rfl
      exact afterReturn fun _ => rfl
  | nodePodStartTimedOut n =>
      apply (handleNodeInfraFailed n .podStartTimeout).seq
      rintro _ c₁ aborted rfl
      exact afterReturn fun _ => rfl

theorem handleEvent (event : LoopEvent) :
    course.Follows (EndsOr .waiting) (.taken event) c (handleEvent event c) := by
  apply move (.event event)
  cases event with
  | pipelineDeadline => exact (abortRun .failure).mono fun _ _ _ => Ends.or
  | heartbeat => exact handleHeartbeat
  | s3Reconcile =>
      apply reconcileRunningAgainstS3.seq
      rintro _ c₁ aborted ⟨k, rfl, hk⟩
      exact afterReturn hk
  | internal msg =>
      cases msg with
      | none => exact rest rfl
      | some msg => exact handleMessage msg
  | backplane event =>
      rcases event with _ | ⟨n, success⟩ | _
      · exact (abortRun .failure).mono fun _ _ _ => Ends.or
      · show course.Follows _ (.relieving n (.completing n success .loop)) c _
        apply (cancelNodeTimeout n (by rfl)).seq
        rintro _ c₁ _ rfl
        apply (handleNodeCompleted n success).seq
        rintro _ c₂ aborted rfl
        exact afterReturn fun _ => rfl
      · exact (abortRun .cancelled).mono fun _ _ _ => Ends.or

theorem EndsOr.rests {t : Stage} {c : Coordinator} {r : Option RunSummary} (h : EndsOr .waiting t c r) :
    course.Rests t c r := by
  cases r with
  | none => exact h
  | some summary => exact h

/-- A coordinator follows its outline. -/
theorem describes : course.Describes coordinator where
  start _ := start.mono fun _ _ _ => EndsOr.rests
  handle event _ := (handleEvent event).mono fun _ _ _ => EndsOr.rests

end Course

/-! ## How a coordinator begins -/

/-- A coordinator as `startCoordinator` spawns it: for a new run, or for a stored one that it rehydrates. -/
structure Begins (c : Coordinator) : Prop where
  cache : c.nodeInfoCache = nodeInfoCacheOf c.pipeline.nodeInfo
  timers : c.nodePhaseHandles = ∅
  run : (c.isRehydrate = false ∧ c.run = .new c.pipeline.nodeInfo ∧ c.stateVersion = 0) ∨
    (c.isRehydrate = true ∧ ∃ state, c.run = .fromRunState state ∧ c.stateVersion = state.version)

/-- A new run has no Running node. -/
theorem Begins.idle {c : Coordinator} (h : Begins c) (hc : c.isRehydrate = false) (n : String) :
    c.run.statuses.lookup n ≠ some .running := by
  rcases h.run with ⟨_, hrun, _⟩ | ⟨hre, _⟩
  · intro hn
    rw [hrun] at hn
    cases PipelineRun.new_lookup hn
  · rw [hc] at hre
    cases hre

theorem Begins.named {c : Coordinator} (h : Begins c) : NamesAgree c.nodeInfoCache := by
  rw [h.cache]
  exact namesAgree_nodeInfoCacheOf _

theorem begins_fresh (config : AppConfig) (runId : String) (pipeline : Pipeline) :
    Begins (freshCoordinator config runId pipeline) := ⟨rfl, rfl, .inl ⟨rfl, rfl, rfl⟩⟩

theorem begins_rehydrated (config : AppConfig) (runId : String) (pipeline : Pipeline) (state : RunState) :
    Begins (rehydratedCoordinator config runId pipeline state) := ⟨rfl, rfl, .inr ⟨rfl, state, rfl, rfl⟩⟩

/-- The watcher of a task that starts a coordinator. -/
def spawning : Monitor Unit Unit LoopEvent Resp where
  assume _ _ := True
  ok _ _ e := ∀ c, e = .spawnCoordinator c → Begins c
  next _ _ := ()

/-- Whatever it is answered, the task spawns only a coordinator that begins so. -/
theorem startCoordinator_begins (config : AppConfig) (runId : String) (pipeline : Pipeline)
    (statusReporter : Bool) (runContext : RunContext) :
    spawning.Obeys (startCoordinator config runId pipeline statusReporter runContext ()) ()
      fun _ _ _ => True := by
  have hcall : ∀ {e : Effect}, (∀ c, e ≠ .spawnCoordinator c) →
      spawning.Obeys ((call e : Task _) ()) () fun _ _ _ => True :=
    fun he => ⟨fun c hc => absurd hc (he c), fun _ _ => trivial⟩
  have hrun : spawning.Obeys (initializeRunState runId pipeline.nodeInfo pipeline ()) () fun _ _ result =>
      (result.2.2 = false ∧ result.1 = .new pipeline.nodeInfo ∧ result.2.1 = 0) ∨
        (result.2.2 = true ∧ ∃ state, result.1 = .fromRunState state ∧ result.2.1 = state.version) := by
    apply (hcall (e := .loadRun runId) (by simp)).seq
    intro _ _ r _
    rcases r with e | _ | state
    · exact .inl ⟨rfl, rfl, rfl⟩
    · apply (hcall (by simp)).seq
      intro _ _ _ _
      exact .inl ⟨rfl, rfl, rfl⟩
    · exact .inr ⟨rfl, state, rfl, rfl⟩
  apply (hcall (e := .newUuid) (by simp)).seq
  intro _ _ serverId _
  apply (hcall (e := .tryAcquireLease runId serverId 30) (by simp)).seq
  intro _ _ r _
  rcases r with e | _ | leaseVersion
  · trivial
  · trivial
  · apply (hcall (by simp)).seq
    intro _ _ _ _
    apply hrun.seq
    rintro _ _ ⟨run, stateVersion, isRehydrate⟩ hbegins
    apply (hcall (e := .startPodWatcher runId (run.nodesWith (· = .running))) (by simp)).seq
    intro _ _ podWatcher _
    refine ⟨?_, fun _ _ => trivial⟩
    rintro c hc
    cases hc
    exact ⟨rfl, rfl, hbegins⟩

end Jefferies.Coordination
