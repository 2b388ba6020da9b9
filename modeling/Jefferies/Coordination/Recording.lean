import Jefferies.Coordination.Course
import Jefferies.Coordination.Ignoring

/-!
# The records of nodes that have come to an end

A node is recorded when it completes, fails, times out, cannot be dispatched or is terminated with its run. What the
record says goes by the transition and by the outcome that S3 has of the node.
-/

namespace Jefferies.Coordination

open RunHistory StateStore Interaction Interact Coordinator Monitor

/-- The status of a node after the transition that is recorded. A node that is recorded while it is Running is marked
Failed next. -/
def statusAfter (s : Coordinator) (n : String) : Option NodeStatus := (s.run.markFailed n).2.statuses.lookup n

/-- The record has a time of completion and agrees with the node's status. -/
def Complete (s : Coordinator) (record : NodeRunRecord) : Prop :=
  record.completedAt.isSome = true ∧ (record.success = true ↔ statusAfter s record.nodeName = some .success)

/-- The outcome has a finish that is a date. -/
def Finished (outcome : Option NodeOutcome) : Prop :=
  ((outcome.bind (·.finishedAt)).bind msToDatetime).isSome = true

/-- What precedes a record: whether a failure of the infrastructure is at hand, and the outcome that was read, if the
coordinator has asked for one. -/
structure Circumstances where
  failing : Bool
  read : Option (Option NodeOutcome)

def Circumstances.none : Circumstances := ⟨false, .none⟩

/-- A node that is Running is recorded at the end of its run: its outcome must not be a success. The outcome of any
other node must show that it has finished, unless the infrastructure failed or none was asked for. -/
def Attested (γ : Circumstances) (s : Coordinator) (n : String) : Prop :=
  if s.run.statuses.lookup n = some .running then γ.read.join.bind (·.success) ≠ some true
  else γ.failing = true ∨ ∀ outcome, γ.read = some outcome → Finished outcome

/-- What a coordinator takes from the answer of `getNodeOutcome`. -/
def readOutcome : Except DispatchError (Option NodeOutcome) → Option NodeOutcome
  | .ok outcome => outcome
  | .error _ => none

def podGone : Except DispatchError Bool → Bool
  | .ok alive => !alive
  | .error _ => false

/-- The event is a failure of the infrastructure. -/
def LoopEvent.infraFailure : LoopEvent → Bool
  | .internal (some (.nodeInfraFailed _ _)) => true
  | .internal (some (.nodePodStartTimedOut _)) => true
  | _ => false

/-- The watcher of records. -/
def recording : Monitor Circumstances Coordinator LoopEvent Resp where
  assume _ _ := True
  ok
    | γ, s, .recordNodeRun record => Complete s record ↔ Attested γ s record.nodeName
    | _, _, _ => True
  next
    | γ, .answered _ (.getNodeOutcome _ _) r => { γ with read := some (readOutcome r) }
    | γ, .answered _ (.nodePodExists _ _) r => { γ with failing := podGone r }
    | _, .answered _ (.recordNodeRun _) _ => .none
    | _, .received _ i => ⟨i.infraFailure, none⟩
    | γ, _ => γ

variable {γ : Circumstances} {c : Coordinator} {n : String}

/-- The call neither is a record nor changes its circumstances. -/
def Effect.unrecorded : Effect → Bool
  | .recordNodeRun _ => false
  | .getNodeOutcome _ _ => false
  | .nodePodExists _ _ => false
  | _ => true

theorem recording_ignores {e : Effect} (he : e.unrecorded = true) : Ignores recording e := by
  cases e with
  | recordNodeRun => cases he
  | getNodeOutcome => cases he
  | nodePodExists => cases he
  | _ => exact ⟨fun _ _ => trivial, fun _ _ _ => rfl⟩

theorem persistState_unrecorded : recording.Obeys (persistState c) γ (RunKept γ c) :=
  persistState_spared fun _ _ _ => recording_ignores rfl

/-! ## The three ways of recording -/

theorem fetchOutcome_read (runId n : String) :
    recording.Obeys (fetchOutcome runId n c) γ fun γ' c' outcome =>
      γ' = { γ with read := some outcome } ∧ c' = c := by
  refine ⟨trivial, fun r _ => ?_⟩
  cases r with
  | error => exact ⟨rfl, rfl⟩
  | ok => exact ⟨rfl, rfl⟩

theorem statusAfter_of_ended (hn : ¬c.run.Unfinished n) : statusAfter c n = c.run.statuses.lookup n := by
  have hfalse : (c.run.markFailed n).1 = false := by
    rw [← Bool.not_eq_true, PipelineRun.markFailed_fst]
    exact hn
  rw [statusAfter, PipelineRun.markFailed_of_false hfalse]

theorem statusAfter_running (hn : c.run.statuses.lookup n = some .running) : statusAfter c n = some .failed := by
  rw [statusAfter, PipelineRun.markFailed_running hn]
  exact Finmap.lookup_insert _

/-- A node that has come to an end is recorded with its status. What can be missing is the time. -/
theorem complete_of_ended {record : NodeRunRecord} (hn : ¬c.run.Unfinished record.nodeName)
    (hsuccess : record.success = succeeded c.run.statuses record.nodeName)
    (hcompleted : record.completedAt.isSome = true ↔
      γ.failing = true ∨ ∀ outcome, γ.read = some outcome → Finished outcome) :
    Complete c record ↔ Attested γ c record.nodeName := by
  have hagrees : record.success = true ↔ statusAfter c record.nodeName = some .success := by
    rw [statusAfter_of_ended hn, hsuccess, succeeded_eq_true]
  have hrunning : c.run.statuses.lookup record.nodeName ≠ some .running := fun h => hn (.inl h)
  rw [Complete, Attested, if_neg hrunning, and_iff_left hagrees, hcompleted]

/-- A node that is still Running is recorded as S3 has it, and marked Failed. -/
theorem complete_of_running {record : NodeRunRecord} {outcome : Option NodeOutcome}
    (hn : c.run.statuses.lookup record.nodeName = some .running) (hread : γ.read = some outcome)
    (hsuccess : record.success = (outcome.bind (·.success)).getD false)
    (hcompleted : record.completedAt.isSome = true) : Complete c record ↔ Attested γ c record.nodeName := by
  rw [Complete, Attested, if_pos hn, and_iff_right hcompleted, statusAfter_running hn, hsuccess, hread,
    Option.join_some]
  cases outcome.bind (·.success) with
  | none => simp
  | some success => cases success <;> simp

theorem recordNodeCompleted_attested (hn : ¬c.run.Unfinished n) {reason : Option InfraFailureReason}
    (hfailing : γ.failing = reason.isSome) :
    recording.Obeys (recordNodeCompleted n reason c) γ fun γ' c' _ => γ' = .none ∧ c' = c := by
  unfold recordNodeCompleted
  simp only [get_bind]
  refine (fetchOutcome_read c.runId n).seq ?_
  rintro _ c outcome ⟨rfl, rfl⟩
  refine (orNow_unnoticed (recording_ignores rfl) _ _).seq ?_
  rintro _ c completedAt ⟨⟨rfl, rfl⟩, hcompleted⟩
  refine (fetchLog_unnoticed (recording_ignores rfl)).seq ?_
  rintro _ c log ⟨rfl, rfl⟩
  refine (recording_ignores rfl).call.seq ?_
  rintro _ c createdAt ⟨rfl, rfl⟩
  refine ⟨complete_of_ended hn rfl ?_, fun _ _ => ⟨rfl, rfl⟩⟩
  rw [hcompleted, or_comm, hfailing]
  simp [Finished]

theorem recordDispatchFailed_attested (hn : c.run.statuses.lookup n = some .failed) (hread : γ.read = none)
    (error : String) : recording.Obeys (recordDispatchFailed n error c) γ fun γ' c' _ => γ' = .none ∧ c' = c := by
  unfold recordDispatchFailed
  simp only [get_bind]
  refine (recording_ignores rfl).call.seq ?_
  rintro _ c now ⟨rfl, rfl⟩
  refine ⟨complete_of_ended ?_ ?_ ?_, fun _ _ => ⟨rfl, rfl⟩⟩
  · rintro (h | h)
    · exact absurd (hn.symm.trans h) (by decide)
    · exact absurd (hn.symm.trans h) (by decide)
  · simp [succeeded, hn]
  · simp [hread]

theorem recordRunningNodeTerminated_attested (hn : c.run.statuses.lookup n = some .running) :
    recording.Obeys (recordRunningNodeTerminated n c) γ fun _ c' _ => c' = c := by
  unfold recordRunningNodeTerminated
  simp only [get_bind]
  refine (fetchOutcome_read c.runId n).seq ?_
  rintro _ c outcome ⟨rfl, rfl⟩
  refine (orNow_unnoticed (recording_ignores rfl) _ _).seq ?_
  rintro _ c completedAt ⟨⟨rfl, rfl⟩, hcompleted⟩
  refine (fetchLog_unnoticed (recording_ignores rfl)).seq ?_
  rintro _ c log ⟨rfl, rfl⟩
  refine (recording_ignores rfl).call.seq ?_
  rintro _ c createdAt ⟨rfl, rfl⟩
  exact ⟨complete_of_running hn rfl rfl (hcompleted.mpr (.inr rfl)), fun _ _ => rfl⟩

/-! ## Computations that record as attested -/

/-- From circumstances `I`, whenever the computation records a node, the record is complete just where it is attested;
it ends in circumstances `J`. -/
def Attests {α : Type} (I : Circumstances → Prop) (m : Coord α) (J : Circumstances → α → Prop) : Prop :=
  ∀ γ c, I γ → recording.Obeys (m c) γ fun γ' _ a => J γ' a

/-- Nothing is known yet of a next record. -/
def Blank (γ : Circumstances) : Prop := γ = .none

/-- A failure of the infrastructure is at hand, and no outcome was asked for. -/
def Alarmed (γ : Circumstances) : Prop := γ = ⟨true, none⟩

namespace Attests

variable {α β : Type} {I : Circumstances → Prop} {J : Circumstances → α → Prop} {K : Circumstances → β → Prop}

theorem mono {m : Coord α} {J' : Circumstances → α → Prop} (h : Attests I m J) (hJ : ∀ γ a, J γ a → J' γ a) :
    Attests I m J' := fun γ c hγ => (h γ c hγ).mono fun γ' _ a => hJ γ' a

theorem seq {m : Coord α} {f : α → Coord β} (hm : Attests I m J) (hf : ∀ a, Attests (J · a) (f a) K) :
    Attests I (m >>= f) K := fun γ c hγ => (hm γ c hγ).seq fun γ' c' a hγ' => hf a γ' c' hγ'

theorem ret {a : α} (h : ∀ γ, I γ → J γ a) : Attests I (pure a : Coord α) J := fun γ _ hγ => h γ hγ

theorem get : Attests I (Interact.get : Coord Coordinator) fun γ _ => I γ := fun _ _ hγ => hγ

theorem call {e : Effect} (he : e.unrecorded = true) : Attests I (call e : Coord _) fun γ _ => I γ := by
  intro γ c hγ
  refine (recording_ignores he).call.mono ?_
  rintro _ _ _ ⟨rfl, rfl⟩
  exact hγ

theorem of_unnoticed {m : Coord α} (h : ∀ γ c, recording.Obeys (m c) γ (Unnoticed γ c)) :
    Attests I m fun γ _ => I γ := by
  intro γ c hγ
  refine (h γ c).mono ?_
  rintro _ _ _ ⟨rfl, _⟩
  exact hγ

theorem of_spared {m : Coord α} (h : ∀ γ c, recording.Obeys (m c) γ (RunKept γ c)) :
    Attests I m fun γ _ => I γ := by
  intro γ c hγ
  refine (h γ c).mono ?_
  rintro _ _ _ ⟨rfl, _⟩
  exact hγ

theorem forM {f : β → Coord PUnit} (hf : ∀ x, Attests I (f x) fun γ _ => I γ) (l : List β) :
    Attests I (l.forM f) fun γ _ => I γ := by
  induction l with
  | nil => exact ret fun _ hγ => hγ
  | cons x l ih => exact (hf x).seq fun _ => ih

/-- A loop that stops at the first `true`. -/
theorem anyM {f : β → Coord Bool} (hf : ∀ x, Attests I (f x) fun γ b => b = false → I γ) (l : List β) :
    Attests I (l.anyM f) fun γ b => b = false → I γ := by
  induction l with
  | nil => exact ret fun _ hγ _ => hγ
  | cons x l ih =>
      apply (hf x).seq
      intro b
      cases b with
      | true => exact ret fun _ _ h => by cases h
      | false => exact fun γ c hγ => ih γ c (hγ rfl)

theorem persistState : Attests I persistState fun γ _ => I γ :=
  of_spared fun _ _ => persistState_unrecorded

theorem cancelNodeTimeout (n : String) : Attests I (cancelNodeTimeout n) fun γ _ => I γ :=
  of_spared fun _ _ => cancelNodeTimeout_spared (fun _ => recording_ignores rfl) n

theorem shutdownPodWatcher : Attests I shutdownPodWatcher fun γ _ => I γ :=
  of_spared fun _ _ => shutdownPodWatcher_spared (fun _ => recording_ignores rfl) fun _ => recording_ignores rfl

theorem runningNodes : Attests I runningNodes fun γ _ => I γ :=
  get.seq fun _ => (call rfl).seq fun _ => ret fun _ hγ => hγ

theorem armTimer (n : String) (phase : TimerPhase) (secs : Nat) : Attests I (armTimer n phase secs) fun γ _ => I γ :=
  of_spared fun _ _ => armTimer_spared (fun _ _ _ _ => recording_ignores rfl) n phase secs

theorem spawnRuntimeTimeout (n : String) (secs : Option Nat) :
    Attests I (spawnRuntimeTimeout n secs) fun γ _ => I γ := get.seq fun _ => armTimer n .runtime _

theorem notifyWatcherOfDeletion (n : String) : Attests I (notifyWatcherOfDeletion n) fun γ _ => I γ :=
  of_unnoticed fun _ _ => notifyWatcherOfDeletion_unnoticed (fun _ _ => recording_ignores rfl) n

theorem handlePodRunning (n : String) : Attests I (handlePodRunning n) fun γ _ => I γ := by
  apply get.seq
  intro c
  split
  · exact ret fun _ hγ => hγ
  · exact (cancelNodeTimeout n).seq fun _ => spawnRuntimeTimeout n _

end Attests

/-! ## Dispatching -/

/-- Where a node that is dispatched was Pending, its failure is recorded of a Failed node. -/
theorem failDispatch_attested (hn : c.run.statuses.lookup n = some .pending) (hγ : Blank γ) (error : String) :
    recording.Obeys ((persistStateAfterDispatchTransition >>= fun _ => recordDispatchFailed n error)
      (c.setRun (c.run.markDispatchFailed n).2)) γ fun γ' c' _ =>
        Blank γ' ∧ c'.run = (c.run.markDispatchFailed n).2 := by
  have hfailed : (c.run.markDispatchFailed n).2.statuses.lookup n = some .failed := by
    rw [PipelineRun.markDispatchFailed, if_pos hn]
    exact Finmap.lookup_insert _
  refine Obeys.seq (P := RunKept γ (c.setRun (c.run.markDispatchFailed n).2)) ?_ ?_
  · exact persistState_unrecorded.seq fun _ _ _ h => h
  · rintro _ c₁ _ ⟨rfl, hrun⟩
    have hn₁ : c₁.run.statuses.lookup n = some .failed := hrun ▸ hfailed
    refine (recordDispatchFailed_attested hn₁ (by rw [hγ]; rfl) error).mono ?_
    rintro _ _ _ ⟨rfl, rfl⟩
    exact ⟨rfl, hrun⟩

/-- The dispatch of a node marks no other. -/
theorem dispatchReadyNode_attested (hn : c.run.statuses.lookup n = some .pending) (hγ : Blank γ) :
    recording.Obeys (dispatchReadyNode n c) γ fun γ' c' _ =>
      Blank γ' ∧ ∀ m, m ≠ n → c'.run.statuses.lookup m = c.run.statuses.lookup m := by
  have hfailed {c' : Coordinator} (hrun : c'.run = (c.run.markDispatchFailed n).2) (m : String) (hm : m ≠ n) :
      c'.run.statuses.lookup m = c.run.statuses.lookup m := by
    rw [hrun, (PipelineRun.marks_markDispatchFailed c.run n).lookup_of_ne hm]
  have hstarted {c' : Coordinator} (hrun : c'.run = (c.run.markRunning n).2) (m : String) (hm : m ≠ n) :
      c'.run.statuses.lookup m = c.run.statuses.lookup m := by
    rw [hrun, (PipelineRun.marks_markRunning c.run n).lookup_of_ne hm]
  unfold dispatchReadyNode
  simp only [get_bind]
  cases c.nodeInfoCache.lookup n with
  | none => exact (failDispatch_attested hn hγ _).mono fun _ _ _ h => ⟨h.1, hfailed h.2⟩
  | some node =>
      refine (recording_ignores rfl).call.seq ?_
      rintro _ c r ⟨rfl, rfl⟩
      cases r with
      | error e => exact (failDispatch_attested hn hγ _).mono fun _ _ _ h => ⟨h.1, hfailed h.2⟩
      | ok =>
          simp only [mark, modifyGet_bind]
          split
          · unfold persistStateAfterDispatchTransition
            simp only [bind_assoc, pure_bind]
            refine persistState_unrecorded.seq ?_
            rintro _ c₁ _ ⟨rfl, hrun⟩
            refine (recordNodeDispatched_unnoticed (recording_ignores rfl) (fun _ => recording_ignores rfl) n
              node).seq ?_
            rintro _ _ _ ⟨rfl, rfl⟩
            refine (armTimer_spared (fun _ _ _ _ => recording_ignores rfl) n .startup _).mono ?_
            rintro _ _ _ ⟨rfl, hrun'⟩
            exact ⟨hγ, hstarted (hrun'.trans hrun)⟩
          · exact ⟨hγ, hstarted rfl⟩

theorem dispatchReadyNodes_attested : Attests Blank dispatchReadyNodes fun γ _ => Blank γ := by
  intro γ c hγ
  unfold dispatchReadyNodes
  simp only [get_bind]
  refine (recording_ignores rfl).call.seq ?_
  rintro _ c order ⟨rfl, rfl⟩
  -- the nodes still to come are distinct and Pending
  refine (obeys_forM (P := fun rest γ c' => Blank γ ∧ rest.Nodup ∧
    ∀ n ∈ rest, c'.run.statuses.lookup n = some .pending) ?_ order.1 ⟨hγ, order.2.1, ?_⟩).mono fun _ _ _ h => h.1
  · rintro n rest γ c' ⟨hγ, hnodup, hpending⟩
    obtain ⟨hnotin, hrest⟩ := List.nodup_cons.mp hnodup
    refine (dispatchReadyNode_attested (hpending n List.mem_cons_self) hγ).mono ?_
    rintro γ' c'' _ ⟨hγ', hothers⟩
    refine ⟨hγ', hrest, fun m hm => ?_⟩
    rw [hothers m (ne_of_mem_of_not_mem hm hnotin)]
    exact hpending m (List.mem_cons_of_mem n hm)
  · intro n hn
    rw [← List.mem_toFinset, order.2.2] at hn
    exact (PipelineRun.mem_readyNodes.mp hn).1

theorem failFastOrDispatch_attested : Attests Blank failFastOrDispatch fun γ _ => Blank γ := by
  apply Attests.get.seq
  intro c
  split
  · exact .ret fun _ hγ => hγ
  · exact dispatchReadyNodes_attested.seq fun _ => .ret fun _ hγ => hγ

/-! ## Failures and completions -/

theorem ended_markFailed (c : Coordinator) (n : String) : ¬(c.run.markFailed n).2.Unfinished n := by
  rintro (h | h)
  · exact (PipelineRun.lookup_markFailed c.run n).1 h
  · exact (PipelineRun.lookup_markFailed c.run n).2 h

theorem ended_markSuccess (c : Coordinator) (n : String) : ¬(c.run.markSuccess n).2.Unfinished n := by
  rintro (h | h)
  · exact (PipelineRun.lookup_markSuccess c.run n).1 h
  · exact (PipelineRun.lookup_markSuccess c.run n).2 h

/-- What follows the saved failure of a node. -/
theorem cancelAndRecord_attested (hn : ¬c.run.Unfinished n) {reason : Option InfraFailureReason}
    (hfailing : γ.failing = reason.isSome) :
    recording.Obeys ((notifyWatcherOfDeletion n >>= fun _ => get >>= fun self =>
      call (.cancelNode self.runId n) >>= fun _ => recordNodeCompleted n reason >>= fun _ =>
      failFastOrDispatch) c) γ fun γ' _ _ => Blank γ' := by
  refine (notifyWatcherOfDeletion_unnoticed (fun _ _ => recording_ignores rfl) n).seq ?_
  rintro _ c _ ⟨rfl, rfl⟩
  simp only [get_bind]
  refine (recording_ignores rfl).call.seq ?_
  rintro _ c _ ⟨rfl, rfl⟩
  refine (recordNodeCompleted_attested hn hfailing).seq ?_
  rintro γ' c' _ ⟨hγ', _⟩
  exact failFastOrDispatch_attested γ' c' hγ'

/-- A failure that is not heeded is one of a node that has come to an end. -/
theorem handleNodeInfraFailed_attested (hγ : Alarmed γ) (n : String) (reason : InfraFailureReason) :
    recording.Obeys (handleNodeInfraFailed n reason c) γ fun γ' _ aborted =>
      aborted = false → c.run.Unfinished n → Blank γ' := by
  unfold handleNodeInfraFailed
  simp only [get_bind]
  split
  -- the handler heeds no failure of a node that has ended
  · rename_i hended
    rintro - (h | h)
    · simp [h] at hended
    · simp [h] at hended
  · simp only [mark, modifyGet_bind]
    split
    · rename_i hmarked
      rintro - h
      simp [PipelineRun.markFailed_fst.mpr h] at hmarked
    · refine (cancelNodeTimeout_spared (fun _ => recording_ignores rfl) n).seq ?_
      rintro _ c₁ _ ⟨rfl, hrun₁⟩
      refine persistState_unrecorded.seq ?_
      rintro _ c₂ r ⟨rfl, hrun₂⟩
      cases r with
      | error => exact fun h => by cases h
      | ok =>
          refine (cancelAndRecord_attested ?_ (by rw [hγ]; rfl)).mono fun _ _ _ h _ _ => h
          rw [hrun₂, hrun₁]
          exact ended_markFailed c n

theorem handleNodeTimedOut_attested (n : String) :
    Attests Blank (handleNodeTimedOut n) fun γ b => b = false → Blank γ := by
  intro γ c hγ
  unfold handleNodeTimedOut
  simp only [mark, modifyGet_bind]
  split
  · exact fun _ => hγ
  · refine persistState_unrecorded.seq ?_
    rintro _ c₁ r ⟨rfl, hrun⟩
    cases r with
    | error => exact fun h => by cases h
    | ok =>
        refine (cancelAndRecord_attested ?_ (by rw [hγ]; rfl)).mono fun _ _ _ h _ => h
        rw [hrun]
        exact ended_markFailed c n

theorem handleNodeCompleted_attested (n : String) (success : Bool) :
    Attests Blank (handleNodeCompleted n success) fun γ b => b = false → Blank γ := by
  intro γ c hγ
  unfold handleNodeCompleted
  cases success with
  | true =>
      simp only [↓reduceIte, mark, modifyGet_bind]
      refine persistState_unrecorded.seq ?_
      rintro _ c₁ r ⟨rfl, hrun⟩
      cases r with
      | error => exact fun h => by cases h
      | ok =>
          refine (recordNodeCompleted_attested (hrun ▸ ended_markSuccess c n) (by rw [hγ]; rfl)).seq ?_
          rintro γ' c' _ ⟨hγ', _⟩
          exact dispatchReadyNodes_attested.seq (fun _ => .ret fun _ h _ => h) γ' c' hγ'
  | false =>
      simp only [Bool.false_eq_true, ↓reduceIte, mark, modifyGet_bind]
      refine persistState_unrecorded.seq ?_
      rintro _ c₁ r ⟨rfl, hrun⟩
      cases r with
      | error => exact fun h => by cases h
      | ok =>
          refine (recordNodeCompleted_attested (hrun ▸ ended_markFailed c n) (by rw [hγ]; rfl)).seq ?_
          rintro γ' c' _ ⟨hγ', _⟩
          exact (failFastOrDispatch_attested γ' c' hγ').mono fun _ _ _ h _ => h

/-! ## Outcomes read from S3 -/

theorem readOutcomesForNonTerminal_attested : Attests Blank readOutcomesForNonTerminal fun γ _ => Blank γ := by
  apply Attests.get.seq
  intro c
  apply (Attests.call rfl).seq
  intro names
  dsimp only
  split
  · exact .ret fun _ hγ => hγ
  · exact (Attests.call rfl).seq fun _ => .ret fun _ hγ => hγ

theorem foldCompletion_attested (outcomes : HashMap String ReconcileResult) (n : String) :
    Attests Blank (foldCompletion outcomes n) fun γ b => b = false → Blank γ := by
  unfold foldCompletion
  split
  · exact (Attests.cancelNodeTimeout n).seq fun _ => handleNodeCompleted_attested n _
  · exact .ret fun _ hγ _ => hγ

theorem foldCompletionsFromOutcomes_attested (outcomes : HashMap String ReconcileResult) :
    Attests Blank (foldCompletionsFromOutcomes outcomes) fun γ b => b = false → Blank γ :=
  (Attests.call rfl).seq fun order => .anyM (foldCompletion_attested outcomes) order.1

/-- A node that is promoted is Running, so that a failure of its is heeded. -/
theorem promoteNode_attested (n : String) : Attests Blank (promoteNode n) fun γ b => b = false → Blank γ := by
  intro γ c hγ
  unfold promoteNode
  simp only [mark, modifyGet_bind]
  split
  · exact fun _ => hγ
  · rename_i hmarked
    have hpending : c.run.statuses.lookup n = some .pending := by simpa using hmarked
    have hrunning : (c.run.markRunning n).2.statuses.lookup n = some .running := by
      rw [PipelineRun.markRunning, if_pos hpending]
      exact Finmap.lookup_insert _
    refine persistState_unrecorded.seq ?_
    rintro _ c₁ _ ⟨rfl, hrun⟩
    simp only [get_bind]
    refine ⟨trivial, fun r _ => ?_⟩
    rw [hγ]
    cases r with
    | error => exact fun _ => rfl
    | ok alive =>
        cases alive with
        | true => exact fun _ => rfl
        | false =>
            refine (handleNodeInfraFailed_attested rfl n _).mono fun _ _ _ h hb => h hb ?_
            rw [hrun]
            exact .inl hrunning

theorem promoteStartedPendingToRunning_attested (outcomes : HashMap String ReconcileResult) :
    Attests Blank (promoteStartedPendingToRunning outcomes) fun γ b => b = false → Blank γ :=
  Attests.get.seq fun _ => (Attests.call rfl).seq fun _ => .anyM promoteNode_attested _

variable {I : Circumstances → Prop}

theorem rehydrateFromHistory_attested (n : String) (startupSecs runtimeSecs : Nat) :
    Attests I (rehydrateFromHistory n startupSecs runtimeSecs) fun γ _ => I γ := by
  apply Attests.get.seq
  intro c
  apply (Attests.call rfl).seq
  intro r
  split
  · exact (Attests.call rfl).seq fun _ => .armTimer n .startup _
  · exact .spawnRuntimeTimeout n _

theorem rehydratePhaseTimer_attested (nowMs : Nat) (outcomes : HashMap String ReconcileResult) (n : String) :
    Attests I (rehydratePhaseTimer nowMs outcomes n) fun γ _ => I γ := by
  apply Attests.get.seq
  intro c
  dsimp only
  split
  · exact .spawnRuntimeTimeout n _
  · exact rehydrateFromHistory_attested n _ _

theorem rehydratePhaseTimers_attested (outcomes : HashMap String ReconcileResult) :
    Attests I (rehydratePhaseTimers outcomes) fun γ _ => I γ :=
  (Attests.call rfl).seq fun nowMs => Attests.runningNodes.seq fun names =>
    .forM (rehydratePhaseTimer_attested nowMs outcomes) names

/-! ## The end of a run -/

theorem recordHistory_attested (status : RunStatus) : Attests I (recordHistory status) fun _ _ => True := by
  intro γ c hγ
  unfold recordHistory runningNodes
  simp only [bind_assoc, pure_bind, get_bind]
  refine (recording_ignores rfl).call.seq ?_
  rintro _ c order ⟨rfl, rfl⟩
  -- the nodes still to come are distinct and Running
  refine (obeys_forM (P := fun rest _ c' => rest.Nodup ∧ ∀ n ∈ rest, c'.run.statuses.lookup n = some .running) ?_
    order.1 ⟨order.2.1, ?_⟩).seq ?_
  · rintro n rest _ c' ⟨hnodup, hrunning⟩
    obtain ⟨hnotin, hrest⟩ := List.nodup_cons.mp hnodup
    refine (recordRunningNodeTerminated_attested (hrunning n List.mem_cons_self)).seq ?_
    rintro _ c' _ rfl
    refine ⟨hrest, fun m hm => ?_⟩
    have hother := (PipelineRun.marks_markFailed c'.run n).lookup_of_ne (ne_of_mem_of_not_mem hm hnotin)
    exact hother.trans (hrunning m (List.mem_cons_of_mem n hm))
  · intro n hn
    rw [← List.mem_toFinset, order.2.2, PipelineRun.mem_nodesWith] at hn
    obtain ⟨a, ha, hrunning⟩ := hn
    rw [ha, of_decide_eq_true hrunning]
  · intro γ' c' _ _
    exact Attests.seq (I := fun _ => True) .get (fun c => (Attests.call rfl).seq fun _ =>
      (Attests.call rfl).seq fun _ => .ret fun _ _ => trivial) γ' c' trivial

theorem finalizeRun_attested (status : RunStatus) : Attests I (finalizeRun status) fun _ _ => True := by
  apply (recordHistory_attested status).seq
  intro _
  apply Attests.get.seq
  intro c
  split
  · exact .call rfl
  · exact .ret fun _ _ => trivial

theorem cleanup_attested : Attests I cleanup fun _ _ => True :=
  Attests.get.seq fun _ => (Attests.call rfl).seq fun _ => (Attests.call rfl).seq fun _ =>
    (Attests.call rfl).seq fun _ => .ret fun _ _ => trivial

theorem buildSummary_attested (status : RunStatus) : Attests I (buildSummary status) fun _ _ => True :=
  Attests.shutdownPodWatcher.seq fun _ => Attests.get.seq fun _ => .ret fun _ _ => trivial

theorem terminateRunningNodes_attested (status : RunStatus) :
    Attests I (terminateRunningNodes status) fun _ _ => True := by
  apply Attests.get.seq
  intro c
  apply (Attests.call rfl).seq
  intro order
  apply (Attests.forM Attests.cancelNodeTimeout order.1).seq
  intro _
  apply Attests.runningNodes.seq
  intro names
  refine (Attests.forM (fun n => ?_) names).seq fun _ => ?_
  · exact (Attests.notifyWatcherOfDeletion n).seq fun _ => Attests.get.seq fun _ => (Attests.call rfl).seq fun _ =>
      .ret fun _ hγ => hγ
  · exact Attests.shutdownPodWatcher.seq fun _ => Attests.get.seq fun _ => .ret fun _ _ => trivial

theorem abortRun_attested (status : RunStatus) : Attests I (abortRun status) fun _ r => r ≠ none :=
  (finalizeRun_attested status).seq fun _ => cleanup_attested.seq fun _ =>
    (terminateRunningNodes_attested status).seq fun _ => .ret fun _ _ => Option.some_ne_none _

theorem completeRun_attested : Attests I completeRun fun _ r => r ≠ none :=
  Attests.get.seq fun _ => (finalizeRun_attested _).seq fun _ => cleanup_attested.seq fun _ =>
    (buildSummary_attested _).seq fun _ => .ret fun _ _ => Option.some_ne_none _

/-- A run that goes on does so in the circumstances that its handler left. -/
theorem afterHandler_attested (aborted : Bool) :
    Attests (fun γ => aborted = false → I γ) (afterHandler aborted) fun γ r => r = none → I γ := by
  unfold afterHandler
  cases aborted with
  | true => exact (abortRun_attested _).mono fun _ _ h hr => absurd hr h
  | false =>
      apply Attests.get.seq
      intro c
      split
      · exact completeRun_attested.mono fun _ _ h hr => absurd hr h
      · exact .ret fun _ hγ _ => hγ rfl

/-! ## The select loop -/

theorem subscribeAndDispatch_attested : Attests Blank subscribeAndDispatch fun _ _ => True := by
  apply Attests.get.seq
  intro c
  apply (Attests.call rfl).seq
  intro r
  split
  · exact (buildSummary_attested _).seq fun _ => .ret fun _ _ => trivial
  · refine (Attests.call rfl).seq fun _ => (Attests.call rfl).seq fun _ =>
      dispatchReadyNodes_attested.seq fun _ => ?_
    exact fun γ c hγ => ((afterHandler_attested false) γ c fun _ => hγ).mono fun _ _ _ _ => trivial

theorem rehydrate_attested : Attests Blank rehydrate fun γ r => r = none → Blank γ := by
  apply readOutcomesForNonTerminal_attested.seq
  intro outcomes
  apply (foldCompletionsFromOutcomes_attested outcomes).seq
  intro aborted
  cases aborted with
  | true => exact (abortRun_attested _).mono fun _ _ h hr => absurd hr h
  | false =>
      refine Attests.seq (I := fun γ => false = false → Blank γ) (J := fun γ b => b = false → Blank γ) ?_ ?_
      · exact fun γ c hγ => promoteStartedPendingToRunning_attested outcomes γ c (hγ rfl)
      · intro aborted
        cases aborted with
        | true => exact (abortRun_attested _).mono fun _ _ h hr => absurd hr h
        | false => exact (rehydratePhaseTimers_attested outcomes).seq fun _ => afterHandler_attested false

theorem start_attested : Attests Blank start fun _ _ => True := by
  apply Attests.get.seq
  intro c
  apply (Attests.call rfl).seq
  intro _
  split
  · apply rehydrate_attested.seq
    intro r
    cases r with
    | some summary => exact .ret fun _ _ => trivial
    | none => exact fun γ c hγ => subscribeAndDispatch_attested γ c (hγ rfl)
  · exact subscribeAndDispatch_attested

theorem handleHeartbeat_attested : Attests I handleHeartbeat fun _ _ => True := by
  apply Attests.get.seq
  intro c
  apply (Attests.call rfl).seq
  intro r
  split
  · exact .ret fun _ _ => trivial
  · exact (buildSummary_attested _).seq fun _ => .ret fun _ _ => trivial

theorem reconcileRunningAgainstS3_attested :
    Attests Blank reconcileRunningAgainstS3 fun γ b => b = false → Blank γ :=
  readOutcomesForNonTerminal_attested.seq foldCompletionsFromOutcomes_attested

/-- The handler of an event that asks for an abort or not. -/
theorem Attests.handled {handler : Coord Bool} {J : Circumstances → Bool → Prop} (h : Attests I handler J) :
    Attests I (handler >>= afterHandler) fun _ _ => True := by
  refine h.seq fun aborted γ c _ => ?_
  exact (afterHandler_attested (I := fun _ => True) aborted γ c fun _ => trivial).mono fun _ _ _ _ => trivial

theorem infraFailure_attested (n : String) (reason : InfraFailureReason) :
    Attests Alarmed (handleNodeInfraFailed n reason >>= afterHandler) fun _ _ => True :=
  Attests.handled (J := fun _ _ => True) fun _ _ hγ =>
    (handleNodeInfraFailed_attested hγ n reason).mono fun _ _ _ _ => trivial

theorem handleEvent_attested (i : LoopEvent) :
    Attests (· = ⟨i.infraFailure, none⟩) (handleEvent i) fun _ _ => True := by
  cases i with
  | pipelineDeadline => exact (abortRun_attested _).mono fun _ _ _ => trivial
  | heartbeat => exact handleHeartbeat_attested
  | s3Reconcile => exact reconcileRunningAgainstS3_attested.handled
  | internal msg =>
      cases msg with
      | none => exact .ret fun _ _ => trivial
      | some msg =>
          cases msg with
          | nodeTimedOut n => exact (handleNodeTimedOut_attested n).handled
          | nodePodRunning n => exact (Attests.handlePodRunning n).seq fun _ => .ret fun _ _ => trivial
          | nodeInfraFailed n reason => exact infraFailure_attested n reason
          | nodePodStartTimedOut n => exact infraFailure_attested n .podStartTimeout
  | backplane event =>
      rcases event with _ | ⟨n, success⟩ | _
      · exact (abortRun_attested _).mono fun _ _ _ => trivial
      · exact (Attests.cancelNodeTimeout n).seq fun _ => (handleNodeCompleted_attested n success).handled
      · exact (abortRun_attested _).mono fun _ _ _ => trivial

/-- Whatever happens, the record that a coordinator writes of a node is complete exactly where it is attested. -/
theorem recorded_complete_iff {tr : List (Moment Coordinator LoopEvent Resp)} {s : Coordinator}
    {record : NodeRunRecord} {k : Resp (.recordNodeRun record) → Prog Coordinator Resp (Option RunSummary)}
    (he : Exec handleEvent (start c) tr (.call s (.recordNodeRun record) k)) :
    Complete s record ↔ Attested (recording.after .none tr) s record.nodeName := by
  have hobeys := obeys_exec (fun γ c i _ _ => handleEvent_attested i _ c rfl) he (start_attested .none c rfl)
    (recording.assumed_of_forall (fun _ _ => trivial) .none tr)
  exact hobeys.1

/-- The record of a node that could not be dispatched is complete. -/
theorem recorded_complete_refused : ∃ tr s record k,
    Exec handleEvent (start (freshCoordinator .default "run" .buildAndTest)) tr (.call s (.recordNodeRun record) k) ∧
      Complete s record := by
  have h : recording.Leads handleEvent .none (start (freshCoordinator .default "run" .buildAndTest)) fun γ q =>
      γ = .none ∧ ∃ s record k, q = .call s (.recordNodeRun record) k ∧
        s.run.statuses.lookup record.nodeName = some .failed := by
    refine .call () trivial ?_
    refine .call (.ok ()) trivial ?_
    refine .call () trivial ?_
    refine .call () trivial ?_
    refine .call ⟨["build"], by decide⟩ trivial ?_
    refine .call (.error (.kube "forbidden")) trivial ?_
    refine .call (.ok true) trivial ?_
    refine .call ⟨0, 0⟩ trivial ?_
    exact .here ⟨rfl, _, _, _, rfl, by decide⟩
  obtain ⟨tr, _, he, _, hγ, s, record, k, rfl, hfailed⟩ := h
  refine ⟨tr, s, record, k, he, (recorded_complete_iff he).mpr ?_⟩
  rw [hγ, Attested, hfailed]
  exact .inr fun _ h => by cases h

/-- A node that exceeds its runtime is recorded without a time of completion where S3 has no outcome of it. -/
theorem timedOut_incomplete : ∃ tr s record k,
    Exec handleEvent (start (freshCoordinator .default "run" .buildAndTest)) tr (.call s (.recordNodeRun record) k) ∧
      record.nodeName = "build" ∧ s.run.statuses.lookup "build" = some .failed ∧ ¬Complete s record := by
  have h : recording.Leads handleEvent .none (start (freshCoordinator .default "run" .buildAndTest)) fun _ q =>
      ∃ s record k, q = .call s (.recordNodeRun record) k ∧
        record.nodeName = "build" ∧ s.run.statuses.lookup "build" = some .failed ∧ record.completedAt = none := by
    refine .call () trivial ?_
    refine .call (.ok ()) trivial ?_
    refine .call () trivial ?_
    refine .call () trivial ?_
    refine .call ⟨["build"], by decide⟩ trivial ?_
    refine .call (.ok ()) trivial ?_
    refine .call (.ok true) trivial ?_
    refine .call ⟨0, 0⟩ trivial ?_
    refine .call (.ok ()) trivial ?_
    refine .call (0 : Nat) trivial ?_
    refine .receive (.internal (some (.nodeTimedOut "build"))) trivial ?_
    refine .call (.ok true) trivial ?_
    refine .call (.ok ()) trivial ?_
    refine .call (.ok none) trivial ?_
    refine .call (.ok none) trivial ?_
    refine .call ⟨0, 0⟩ trivial ?_
    exact .here ⟨_, _, _, rfl, rfl, by decide, rfl⟩
  obtain ⟨tr, _, he, _, s, record, k, rfl, hname, hfailed, hcompleted⟩ := h
  refine ⟨tr, s, record, k, he, hname, hfailed, fun hcomplete => ?_⟩
  rw [Complete, hcompleted] at hcomplete
  cases hcomplete.1

end Jefferies.Coordination
