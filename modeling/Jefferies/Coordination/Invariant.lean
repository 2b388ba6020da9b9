import Jefferies.Coordination.EventLoop
import Jefferies.Interaction.Monitor

/-!
# Invariants of a coordinator

`Keeps` lists what a monitor has to grant a coordinator: one obligation for each kind of call and for each
change of the coordinator's own state. A coordinator then obeys the monitor, in whatever order events
arrive and calls are answered.
-/

namespace Jefferies.Coordination

open Pipelines StateStore RunHistory Interaction Interact Coordinator

variable {Γ : Type}

/-- Calls that a coordinator makes at any time and that decide nothing. -/
inductive Quiet (c : Coordinator) : Effect → Prop
  | utcNow : Quiet c .utcNow
  | systemTimeMs : Quiet c .systemTimeMs
  | iterate (names) : Quiet c (.iterate names)
  | sleep (secs) : Quiet c (.sleep secs)
  | interval (secs) : Quiet c (.interval secs)
  | spawnTimer (nodeName phase secs) : Quiet c (.spawnTimer c.runId nodeName phase secs)
  | abortTimer (handle) : Quiet c (.abortTimer handle)
  | watcherCommand (command) : Quiet c (.watcherCommand c.runId command)
  | abortWatcher : Quiet c (.abortWatcher c.runId)
  | renewLease : Quiet c (.renewLease c.runId c.serverId c.leaseVersion 30)
  | recordNodeDispatched (record) : record.runId = c.runId → Quiet c (.recordNodeDispatched record)
  | getNodeRun (nodeName) : Quiet c (.getNodeRun c.runId nodeName)
  | cancelNode (nodeName) : Quiet c (.cancelNode c.runId nodeName)
  | getNodeOutcome (nodeName) : Quiet c (.getNodeOutcome c.runId nodeName)
  | readOutcomes (nodes) : Quiet c (.readOutcomes c.runId nodes)
  | getNodeLog (nodeName) : Quiet c (.getNodeLog c.runId nodeName)
  | nodePodExists (nodeName) : Quiet c (.nodePodExists c.runId nodeName)
  | subscribeRun : Quiet c (.subscribeRun c.runId)

/-- Calls that a coordinator makes once it has recorded the end of the run. -/
inductive Closing (c : Coordinator) : Effect → Prop
  | iterate (names) : Closing c (.iterate names)
  | abortTimer (handle) : Closing c (.abortTimer handle)
  | watcherCommand (command) : Closing c (.watcherCommand c.runId command)
  | abortWatcher : Closing c (.abortWatcher c.runId)
  | cancelNode (nodeName) : Closing c (.cancelNode c.runId nodeName)
  | cleanupRun : Closing c (.cleanupRun c.runId)
  | releaseLease : Closing c (.releaseLease c.runId)
  | deleteRun : Closing c (.deleteRun c.runId)
  | reportCompleted (status) : (status = .success → c.outcomeStatus = .success) →
      Closing c (.reportCompleted c.runId status)

/-- The coordinator once its state was saved: an accepted save moves its version on. -/
def afterSave (c : Coordinator) : Except StateStoreError Bool → Coordinator
  | .ok true => c.setVersion (c.stateVersion + 1)
  | _ => c

/-- The coordinator once the answer to a dispatch is marked. -/
def afterDispatch (c : Coordinator) (nodeName : String) : Except DispatchError Unit → Coordinator
  | .ok () => c.setRun (c.run.markRunning nodeName).2
  | .error _ => c.setRun (c.run.markDispatchFailed nodeName).2

/-- What a monitor grants a coordinator. `live` is the invariant before the end of the run is recorded and
`done` the one after. `told`, `started` and `read` are what the coordinator has learned of a node: a
completion, that it was started, and a success in its status file. -/
structure Keeps (M : Monitor Γ Coordinator LoopEvent Resp) where
  live : Γ → Coordinator → Prop
  done : Γ → Coordinator → Prop
  told : Γ → String → Bool → Prop
  started : Γ → String → Prop
  read : Γ → String → Prop
  told_next : ∀ γ m n b, told γ n b → told (M.next γ m) n b
  started_next : ∀ γ m n, started γ n → started (M.next γ m) n
  read_next : ∀ γ m n, read γ n → read (M.next γ m) n
  receive : ∀ γ c i, live γ c → M.assume γ (.received c i) → live (M.next γ (.received c i)) c ∧
    ∀ n b, i = .backplane (some (.nodeCompleted n b)) → told (M.next γ (.received c i)) n b
  outcomes : ∀ γ c nodes m, live γ c → M.assume γ (.answered c (.readOutcomes c.runId nodes) (some m)) →
    (∀ n b s f, m.lookup n = some (.completed b s f) →
      told (M.next γ (.answered c (.readOutcomes c.runId nodes) (some m))) n b) ∧
    ∀ n s, m.lookup n = some (.inProgress s) →
      started (M.next γ (.answered c (.readOutcomes c.runId nodes) (some m))) n
  outcome : ∀ γ c n o, live γ c → M.assume γ (.answered c (.getNodeOutcome c.runId n) (.ok (some o))) →
    o.success = some true → read (M.next γ (.answered c (.getNodeOutcome c.runId n) (.ok (some o)))) n
  frame : ∀ γ c handles watcher, live γ c →
    live γ { c with nodePhaseHandles := handles, podWatcher := watcher }
  success : ∀ γ c n, live γ c → told γ n true → live γ (c.setRun (c.run.markSuccess n).2)
  failed : ∀ γ c n, live γ c → live γ (c.setRun (c.run.markFailed n).2)
  promoted : ∀ γ c n, live γ c → started γ n → live γ (c.setRun (c.run.markRunning n).2)
  quiet : ∀ γ c e, live γ c → Quiet c e → M.ok γ c e ∧
    ∀ r, M.assume γ (.answered c e r) → live (M.next γ (.answered c e r)) c
  record : ∀ γ c rec, live γ c → rec.runId = c.runId →
    (rec.success = true → c.run.statuses.lookup rec.nodeName = some .success ∨ read γ rec.nodeName) →
    M.ok γ c (.recordNodeRun rec) ∧ ∀ r, M.assume γ (.answered c (.recordNodeRun rec) r) →
      live (M.next γ (.answered c (.recordNodeRun rec) r)) c
  save : ∀ γ c, live γ c →
    M.ok γ c (.saveRun c.runId (c.run.toRunState (c.stateVersion + 1) c.pipeline) c.stateVersion) ∧
    ∀ r, M.assume γ (.answered c
        (.saveRun c.runId (c.run.toRunState (c.stateVersion + 1) c.pipeline) c.stateVersion) r) →
      live (M.next γ (.answered c
          (.saveRun c.runId (c.run.toRunState (c.stateVersion + 1) c.pipeline) c.stateVersion) r))
        (afterSave c r)
  dispatch : ∀ γ c n info metadata, live γ c → n ∈ c.run.readyNodes → c.nodeInfoCache.lookup n = some info →
    M.ok γ c (.dispatch c.runId metadata info c.pipeline) ∧
    ∀ r, M.assume γ (.answered c (.dispatch c.runId metadata info c.pipeline) r) →
      live (M.next γ (.answered c (.dispatch c.runId metadata info c.pipeline) r))
        (afterDispatch c n r)
  finalize : ∀ γ c status t, live γ c → (status = .success → c.outcomeStatus = .success) →
    M.ok γ c (.recordPipelineRun (c.pipelineRunRecord status t)) ∧
    ∀ r, M.assume γ (.answered c (.recordPipelineRun (c.pipelineRunRecord status t)) r) →
      done (M.next γ (.answered c (.recordPipelineRun (c.pipelineRunRecord status t)) r)) c
  doneFrame : ∀ γ c handles watcher, done γ c →
    done γ { c with nodePhaseHandles := handles, podWatcher := watcher }
  closing : ∀ γ c e, done γ c → Closing c e → M.ok γ c e ∧
    ∀ r, M.assume γ (.answered c e r) → done (M.next γ (.answered c e r)) c

namespace Keeps

open Monitor

variable {M : Monitor Γ Coordinator LoopEvent Resp} (K : Keeps M) {γ : Γ} {c : Coordinator}

/-- A coordinator that waits keeps the invariant; one that has ended may have recorded the end. -/
def post (γ : Γ) (c : Coordinator) : Option RunSummary → Prop
  | none => K.live γ c
  | some _ => K.live γ c ∨ K.done γ c

/-- The invariant holds and the run is as it was in `c`. -/
def Same {α : Type} (c : Coordinator) (γ' : Γ) (c' : Coordinator) (_ : α) : Prop :=
  K.live γ' c' ∧ c'.run = c.run

/-! ## Calls -/

theorem quietCall {e : Effect} (hl : K.live γ c) (he : Quiet c e) :
    M.Obeys ((call e : Coord _) c) γ fun γ' c' _ => K.live γ' c' ∧ c' = c :=
  ⟨(K.quiet γ c e hl he).1, fun r hr => ⟨(K.quiet γ c e hl he).2 r hr, rfl⟩⟩

theorem closingCall {e : Effect} (hd : K.done γ c) (he : Closing c e) :
    M.Obeys ((call e : Coord _) c) γ fun γ' c' _ => K.done γ' c' ∧ c' = c :=
  ⟨(K.closing γ c e hd he).1, fun r hr => ⟨(K.closing γ c e hd he).2 r hr, rfl⟩⟩

/-! ## Persisting and timers -/

theorem persistState (hl : K.live γ c) : M.Obeys (persistState c) γ (K.Same c) := by
  refine ⟨(K.save γ c hl).1, fun r hr => ?_⟩
  have h := (K.save γ c hl).2 r hr
  rcases r with e | b
  · exact ⟨h, rfl⟩
  · cases b with
    | true => exact ⟨h, rfl⟩
    | false => exact ⟨h, rfl⟩

theorem cancelNodeTimeout (hl : K.live γ c) (n : String) :
    M.Obeys (cancelNodeTimeout n c) γ (K.Same c) := by
  unfold Coordinator.cancelNodeTimeout
  simp only [get_bind]
  cases c.nodePhaseHandles.lookup n with
  | none => exact ⟨hl, rfl⟩
  | some timer =>
      simp only [modify_bind]
      refine (K.quietCall (K.frame γ c _ c.podWatcher hl) (.abortTimer timer.handle)).mono ?_
      rintro γ' _ _ ⟨hl', rfl⟩
      exact ⟨hl', rfl⟩

theorem notifyWatcherOfDeletion (hl : K.live γ c) (n : String) :
    M.Obeys (notifyWatcherOfDeletion n c) γ fun γ' c' _ => K.live γ' c' ∧ c' = c := by
  unfold Coordinator.notifyWatcherOfDeletion
  simp only [get_bind]
  split
  · exact (K.quietCall hl (.watcherCommand _)).seq fun _ _ _ h => h
  · exact ⟨hl, rfl⟩

theorem armTimer (hl : K.live γ c) (n : String) (phase : TimerPhase) (secs : Nat) :
    M.Obeys (armTimer n phase secs c) γ (K.Same c) := by
  unfold Coordinator.armTimer
  simp only [get_bind]
  refine (K.quietCall hl (.spawnTimer n phase secs)).seq ?_
  rintro γ' _ handle ⟨hl', rfl⟩
  exact ⟨K.frame γ' _ _ _ hl', rfl⟩

theorem spawnRuntimeTimeout (hl : K.live γ c) (n : String) (secs : Option Nat) :
    M.Obeys (spawnRuntimeTimeout n secs c) γ (K.Same c) := K.armTimer hl n .runtime _

theorem handlePodRunning (hl : K.live γ c) (n : String) : M.Obeys (handlePodRunning n c) γ (K.Same c) := by
  unfold Coordinator.handlePodRunning
  simp only [get_bind]
  split
  · exact ⟨hl, rfl⟩
  · refine (K.cancelNodeTimeout hl n).seq ?_
    rintro γ' c' _ ⟨hl', hrun⟩
    refine (K.spawnRuntimeTimeout hl' n _).mono ?_
    rintro γ'' c'' _ ⟨hl'', hrun'⟩
    exact ⟨hl'', hrun'.trans hrun⟩

/-! ## History -/

theorem fetchOutcome (hl : K.live γ c) (n : String) :
    M.Obeys (fetchOutcome c.runId n c) γ fun γ' c' o => (K.live γ' c' ∧ c' = c) ∧
      ((o.bind (·.success)).getD false = true → K.read γ' n) := by
  refine ⟨(K.quiet γ c _ hl (.getNodeOutcome n)).1, fun r hr => ?_⟩
  have hl' := (K.quiet γ c _ hl (.getNodeOutcome n)).2 r hr
  rcases r with e | o
  · exact ⟨⟨hl', rfl⟩, by simp⟩
  · refine ⟨⟨hl', rfl⟩, fun ho => ?_⟩
    rcases o with _ | o
    · simp at ho
    · exact K.outcome γ c n o hl hr (by simpa [Option.getD_eq_iff] using ho)

theorem fetchLog (hl : K.live γ c) (n : String) :
    M.Obeys (fetchLog c.runId n c) γ fun γ' c' _ => K.live γ' c' ∧ c' = c := by
  refine (K.quietCall hl (.getNodeLog n)).seq ?_
  rintro γ' c' r h
  rcases r with e | log <;> exact h

theorem orNow (hl : K.live γ c) (known : Option DateTime) (wanted : Bool) :
    M.Obeys (orNow known wanted c) γ fun γ' c' _ => K.live γ' c' ∧ c' = c := by
  unfold Coordinator.orNow
  cases known with
  | some t => exact ⟨hl, rfl⟩
  | none =>
      cases wanted with
      | true => exact (K.quietCall hl .utcNow).seq fun _ _ _ h => h
      | false => exact ⟨hl, rfl⟩

theorem recordCall {rec : NodeRunRecord} (hl : K.live γ c) (hid : rec.runId = c.runId)
    (hs : rec.success = true → c.run.statuses.lookup rec.nodeName = some .success ∨ K.read γ rec.nodeName) :
    M.Obeys ((call (.recordNodeRun rec) : Coord _) c) γ fun γ' c' _ => K.live γ' c' ∧ c' = c :=
  ⟨(K.record γ c rec hl hid hs).1, fun r hr => ⟨(K.record γ c rec hl hid hs).2 r hr, rfl⟩⟩

theorem recordNodeCompleted (hl : K.live γ c) (n : String) (reason : Option InfraFailureReason) :
    M.Obeys (recordNodeCompleted n reason c) γ fun γ' c' _ => K.live γ' c' ∧ c' = c := by
  unfold Coordinator.recordNodeCompleted
  simp only [get_bind]
  refine (K.fetchOutcome hl n).seq ?_
  rintro γ₁ c o ⟨⟨hl₁, rfl⟩, _⟩
  refine (K.orNow hl₁ _ _).seq ?_
  rintro γ₂ c t ⟨hl₂, rfl⟩
  refine (K.fetchLog hl₂ n).seq ?_
  rintro γ₃ c log ⟨hl₃, rfl⟩
  refine (K.quietCall hl₃ .utcNow).seq ?_
  rintro γ₄ c now ⟨hl₄, rfl⟩
  refine Obeys.seq (K.recordCall hl₄ ?_ ?_) ?_
  · rfl
  · exact fun hs => Or.inl (succeeded_eq_true.mp hs)
  · exact fun _ _ _ h => h

theorem recordDispatchFailed (hl : K.live γ c) (n error : String) :
    M.Obeys (recordDispatchFailed n error c) γ fun γ' c' _ => K.live γ' c' ∧ c' = c := by
  unfold Coordinator.recordDispatchFailed
  simp only [get_bind]
  refine (K.quietCall hl .utcNow).seq ?_
  rintro γ₁ c now ⟨hl₁, rfl⟩
  refine Obeys.seq (K.recordCall hl₁ ?_ ?_) ?_
  · rfl
  · exact fun hs => absurd hs Bool.false_ne_true
  · exact fun _ _ _ h => h

theorem recordNodeDispatched (hl : K.live γ c) (n : String) (node : NodeInfo) :
    M.Obeys (recordNodeDispatched n node c) γ fun γ' c' _ => K.live γ' c' ∧ c' = c := by
  unfold Coordinator.recordNodeDispatched
  simp only [get_bind]
  refine (K.quietCall hl .utcNow).seq ?_
  rintro γ₁ c now ⟨hl₁, rfl⟩
  refine Obeys.seq (K.quietCall hl₁ (.recordNodeDispatched _ ?_)) ?_
  · rfl
  · exact fun _ _ _ h => h

theorem recordRunningNodeTerminated (hl : K.live γ c) (n : String) :
    M.Obeys (recordRunningNodeTerminated n c) γ fun γ' c' _ => K.live γ' c' ∧ c' = c := by
  unfold Coordinator.recordRunningNodeTerminated
  simp only [get_bind]
  refine (K.fetchOutcome hl n).seq ?_
  rintro γ₁ c o ⟨⟨hl₁, rfl⟩, hread⟩
  have hkeep : ∀ γ m, ((o.bind (·.success)).getD false = true → K.read γ n) →
      (o.bind (·.success)).getD false = true → K.read (M.next γ m) n :=
    fun γ m h hs => K.read_next _ _ _ (h hs)
  refine ((K.orNow hl₁ _ _).stable hkeep hread).seq ?_
  rintro γ₂ c t ⟨⟨hl₂, rfl⟩, hread₂⟩
  refine ((K.fetchLog hl₂ n).stable hkeep hread₂).seq ?_
  rintro γ₃ c log ⟨⟨hl₃, rfl⟩, hread₃⟩
  refine ((K.quietCall hl₃ .utcNow).stable hkeep hread₃).seq ?_
  rintro γ₄ c now ⟨⟨hl₄, rfl⟩, hread₄⟩
  refine Obeys.seq (K.recordCall hl₄ ?_ ?_) ?_
  · rfl
  · exact fun hs => Or.inr (hread₄ hs)
  · exact fun _ _ _ h => h

/-! ## Dispatching -/

/-- A node that is ready stays ready when another one is marked, unless with Success taken away. -/
theorem ready_of_marks {run run' : PipelineRun} {n m : String} {a : NodeStatus}
    (h : PipelineRun.Marks run run' m a) (hn : n ∈ run.readyNodes) (hne : n ≠ m) : n ∈ run'.readyNodes := by
  obtain ⟨hpend, hdeps⟩ := PipelineRun.mem_readyNodes.mp hn
  refine PipelineRun.mem_readyNodes.mpr ⟨by rwa [h.lookup_of_ne hne], fun d hd => ?_⟩
  rw [h.depsOf] at hd
  exact h.success_stays (hdeps d hd)

theorem markDispatchFailed_cases (run : PipelineRun) (n : String) :
    (run.markDispatchFailed n).2 = run ∨ (run.markDispatchFailed n).2 = (run.markFailed n).2 := by
  unfold PipelineRun.markDispatchFailed
  split
  · rename_i h
    exact Or.inr (by simp [PipelineRun.markFailed, h])
  · exact Or.inl rfl

theorem dispatchFailed (hl : K.live γ c) (n : String) : K.live γ (c.setRun (c.run.markDispatchFailed n).2) := by
  rcases markDispatchFailed_cases c.run n with h | h <;> rw [h]
  · exact hl
  · exact K.failed γ c n hl

/-- What dispatching a node leaves: the invariant, and a run in which at most this node was marked. -/
def Marked {α : Type} (c : Coordinator) (n : String) (γ' : Γ) (c' : Coordinator) (_ : α) : Prop :=
  K.live γ' c' ∧ ∃ a, PipelineRun.Marks c.run c'.run n a

theorem persistTransition (hl : K.live γ c) :
    M.Obeys (persistStateAfterDispatchTransition c) γ (K.Same c) :=
  (K.persistState hl).seq fun _ _ _ h => h

theorem persistThenFail (hl : K.live γ c) (n error : String) :
    M.Obeys ((persistStateAfterDispatchTransition >>= fun _ => Coordinator.recordDispatchFailed n error) c) γ
      (K.Same c) := by
  refine (K.persistTransition hl).seq ?_
  rintro γ₁ c₁ _ ⟨hl₁, hrun⟩
  refine (K.recordDispatchFailed hl₁ n error).mono ?_
  rintro γ₂ _ _ ⟨hl₂, rfl⟩
  exact ⟨hl₂, hrun⟩

theorem dispatchReadyNode (hl : K.live γ c) {n : String} (hn : n ∈ c.run.readyNodes) :
    M.Obeys (dispatchReadyNode n c) γ (K.Marked c n) := by
  unfold Coordinator.dispatchReadyNode
  simp only [get_bind]
  cases hinfo : c.nodeInfoCache.lookup n with
  | none =>
      simp only [mark, modifyGet_bind]
      refine (K.persistThenFail (K.dispatchFailed hl n) n _).mono ?_
      rintro γ₁ c₁ _ ⟨hl₁, hrun⟩
      exact ⟨hl₁, _, by rw [hrun]; exact PipelineRun.marks_markDispatchFailed c.run n⟩
  | some node =>
      have hd := fun metadata => K.dispatch γ c n node metadata hl hn hinfo
      refine Obeys.seq (P := fun γ₁ c₁ r => c₁ = c ∧ K.live γ₁ (afterDispatch c n r))
        ⟨(hd _).1, fun r hr => ⟨rfl, (hd _).2 r hr⟩⟩ ?_
      rintro γ₁ c r ⟨rfl, hl₁⟩
      rcases r with e | ⟨⟩
      · simp only [mark, modifyGet_bind]
        refine (K.persistThenFail hl₁ n _).mono ?_
        rintro γ₂ c₂ _ ⟨hl₂, hrun⟩
        exact ⟨hl₂, _, by rw [hrun]; exact PipelineRun.marks_markDispatchFailed c.run n⟩
      · simp only [mark, modifyGet_bind]
        have hmarks := PipelineRun.marks_markRunning c.run n
        split
        · refine (K.persistTransition hl₁).seq ?_
          rintro γ₂ c₂ _ ⟨hl₂, hrun⟩
          refine (K.recordNodeDispatched hl₂ n node).seq ?_
          rintro γ₃ c₃ _ ⟨hl₃, rfl⟩
          refine (K.armTimer hl₃ n .startup _).mono ?_
          rintro γ₄ c₄ _ ⟨hl₄, hrun₄⟩
          exact ⟨hl₄, _, by rw [hrun₄, hrun]; exact hmarks⟩
        · exact ⟨hl₁, _, hmarks⟩

theorem dispatchReadyNodes (hl : K.live γ c) :
    M.Obeys (dispatchReadyNodes c) γ fun γ' c' _ => K.live γ' c' := by
  unfold Coordinator.dispatchReadyNodes
  simp only [get_bind]
  refine (K.quietCall hl (.iterate _)).seq ?_
  rintro γ₁ c ⟨names, hnodup, hnames⟩ ⟨hl₁, rfl⟩
  -- the names still to come are distinct and still ready
  let inv := fun (l : List String) γ c => K.live γ c ∧ l.Nodup ∧ ∀ n ∈ l, n ∈ c.run.readyNodes
  have hready : ∀ n ∈ names, n ∈ c.run.readyNodes := fun n hn => by
    rw [← hnames]
    exact List.mem_toFinset.mpr hn
  refine (obeys_forM (P := inv) ?_ names ⟨hl₁, hnodup, hready⟩).mono fun _ _ _ h => h.1
  rintro n l γ c ⟨hl, hnd, hall⟩
  refine (K.dispatchReadyNode hl (hall n (by simp))).mono ?_
  rintro γ' c' _ ⟨hl', a, hm⟩
  refine ⟨hl', (List.nodup_cons.mp hnd).2, fun m hmem => ?_⟩
  exact ready_of_marks hm (hall m (by simp [hmem])) fun h => (List.nodup_cons.mp hnd).1 (h ▸ hmem)

theorem failFastOrDispatch (hl : K.live γ c) :
    M.Obeys (failFastOrDispatch c) γ fun γ' c' _ => K.live γ' c' := by
  unfold Coordinator.failFastOrDispatch
  simp only [get_bind]
  split
  · exact hl
  · exact (K.dispatchReadyNodes hl).seq fun _ _ _ h => h

/-! ## Failures and completions -/

theorem cancelAndRecord (hl : K.live γ c) (n : String) (reason : Option InfraFailureReason) :
    M.Obeys ((Coordinator.notifyWatcherOfDeletion n >>= fun _ => get >>= fun self =>
      call (.cancelNode self.runId n) >>= fun _ => Coordinator.recordNodeCompleted n reason >>= fun _ =>
      Coordinator.failFastOrDispatch) c) γ fun γ' c' _ => K.live γ' c' := by
  refine (K.notifyWatcherOfDeletion hl n).seq ?_
  rintro γ₁ c _ ⟨hl₁, rfl⟩
  simp only [get_bind]
  refine (K.quietCall hl₁ (.cancelNode n)).seq ?_
  rintro γ₂ c _ ⟨hl₂, rfl⟩
  refine (K.recordNodeCompleted hl₂ n reason).seq ?_
  rintro γ₃ c _ ⟨hl₃, rfl⟩
  exact K.failFastOrDispatch hl₃

theorem handleNodeInfraFailed (hl : K.live γ c) (n : String) (reason : InfraFailureReason) :
    M.Obeys (handleNodeInfraFailed n reason c) γ fun γ' c' _ => K.live γ' c' := by
  unfold Coordinator.handleNodeInfraFailed
  simp only [get_bind]
  split
  · exact hl
  · simp only [mark, modifyGet_bind]
    have hl₁ := K.failed γ c n hl
    split
    · exact hl₁
    · refine (K.cancelNodeTimeout hl₁ n).seq ?_
      rintro γ₂ c₂ _ ⟨hl₂, _⟩
      refine (K.persistState hl₂).seq ?_
      rintro γ₃ c₃ r ⟨hl₃, _⟩
      rcases r with e | ⟨⟩
      · exact hl₃
      · exact K.cancelAndRecord hl₃ n (some reason)

theorem handleNodeTimedOut (hl : K.live γ c) (n : String) :
    M.Obeys (handleNodeTimedOut n c) γ fun γ' c' _ => K.live γ' c' := by
  unfold Coordinator.handleNodeTimedOut
  simp only [mark, modifyGet_bind]
  have hl₁ := K.failed γ c n hl
  split
  · exact hl₁
  · refine (K.persistState hl₁).seq ?_
    rintro γ₂ c₂ r ⟨hl₂, _⟩
    rcases r with e | ⟨⟩
    · exact hl₂
    · exact K.cancelAndRecord hl₂ n none

theorem handleNodeCompleted (hl : K.live γ c) {n : String} {b : Bool} (ht : K.told γ n b) :
    M.Obeys (handleNodeCompleted n b c) γ fun γ' c' _ => K.live γ' c' := by
  unfold Coordinator.handleNodeCompleted
  cases b with
  | true =>
      simp only [↓reduceIte, mark, modifyGet_bind]
      refine (K.persistState (K.success γ c n hl ht)).seq ?_
      rintro γ₁ c₁ r ⟨hl₁, _⟩
      rcases r with e | ⟨⟩
      · exact hl₁
      · refine (K.recordNodeCompleted hl₁ n none).seq ?_
        rintro γ₂ c _ ⟨hl₂, rfl⟩
        exact (K.dispatchReadyNodes hl₂).seq fun _ _ _ h => h
  | false =>
      simp only [Bool.false_eq_true, ↓reduceIte, mark, modifyGet_bind]
      refine (K.persistState (K.failed γ c n hl)).seq ?_
      rintro γ₁ c₁ r ⟨hl₁, _⟩
      rcases r with e | ⟨⟩
      · exact hl₁
      · refine (K.recordNodeCompleted hl₁ n none).seq ?_
        rintro γ₂ c _ ⟨hl₂, rfl⟩
        exact K.failFastOrDispatch hl₂

/-! ## Outcomes read from S3 -/

/-- What the coordinator knows of the nodes in a map of outcomes. -/
def Knows (outcomes : HashMap String ReconcileResult) (γ : Γ) : Prop :=
  (∀ n b s f, outcomes.lookup n = some (.completed b s f) → K.told γ n b) ∧
    ∀ n s, outcomes.lookup n = some (.inProgress s) → K.started γ n

theorem Knows.next {outcomes : HashMap String ReconcileResult} (γ : Γ)
    (m : Moment Coordinator LoopEvent Resp) (h : K.Knows outcomes γ) : K.Knows outcomes (M.next γ m) :=
  ⟨fun n b s f hn => K.told_next _ _ _ _ (h.1 n b s f hn), fun n s hn => K.started_next _ _ _ (h.2 n s hn)⟩

theorem knows_empty (γ : Γ) : K.Knows ∅ γ := by
  constructor <;> intros <;> simp_all

theorem readOutcomesForNonTerminal (hl : K.live γ c) :
    M.Obeys (readOutcomesForNonTerminal c) γ fun γ' c' outcomes =>
      (K.live γ' c' ∧ c' = c) ∧ K.Knows outcomes γ' := by
  unfold Coordinator.readOutcomesForNonTerminal
  simp only [get_bind]
  refine (K.quietCall hl (.iterate _)).seq ?_
  rintro γ₁ c names ⟨hl₁, rfl⟩
  split
  · exact ⟨⟨hl₁, rfl⟩, K.knows_empty _⟩
  · refine ⟨(K.quiet _ _ _ hl₁ (.readOutcomes _)).1, fun r hr => ?_⟩
    have hl₂ := (K.quiet _ _ _ hl₁ (.readOutcomes _)).2 r hr
    rcases r with _ | m
    · exact ⟨⟨hl₂, rfl⟩, K.knows_empty _⟩
    · exact ⟨⟨hl₂, rfl⟩, K.outcomes _ _ _ m hl₁ hr⟩

theorem foldCompletionsFromOutcomes (hl : K.live γ c) {outcomes : HashMap String ReconcileResult}
    (hk : K.Knows outcomes γ) :
    M.Obeys (foldCompletionsFromOutcomes outcomes c) γ fun γ' c' _ => K.live γ' c' := by
  unfold Coordinator.foldCompletionsFromOutcomes
  refine ((K.quietCall hl (.iterate _)).stable (Knows.next K) hk).seq ?_
  rintro γ₁ c names ⟨⟨hl₁, rfl⟩, hk₁⟩
  refine obeys_anyM (P := fun _ γ c => K.live γ c ∧ K.Knows outcomes γ) ?_ (fun _ _ h => h.1) names.1
    ⟨hl₁, hk₁⟩
  rintro n l γ c ⟨hl, hk⟩
  have hdone : M.Obeys (foldCompletion outcomes n c) γ fun γ' c' _ => K.live γ' c' := by
    unfold Coordinator.foldCompletion
    cases ho : outcomes.lookup n with
    | none => exact hl
    | some result =>
        cases result with
        | completed b s f =>
            refine ((K.cancelNodeTimeout hl n).stable (Knows.next K) hk).seq ?_
            rintro γ₁ c₁ _ ⟨⟨hl₁, _⟩, hk₁⟩
            exact K.handleNodeCompleted hl₁ (hk₁.1 n b s f ho)
        | inProgress s => exact hl
        | stillRunning => exact hl
        | transientReadError e => exact hl
  refine (hdone.stable (Knows.next K) hk).mono ?_
  rintro γ' c' b ⟨hl', hk'⟩
  split
  · exact hl'
  · exact ⟨hl', hk'⟩

theorem promoteNode (hl : K.live γ c) {n : String} (hs : K.started γ n) :
    M.Obeys (promoteNode n c) γ fun γ' c' _ => K.live γ' c' := by
  unfold Coordinator.promoteNode
  simp only [mark, modifyGet_bind]
  have hl₁ := K.promoted γ c n hl hs
  split
  · exact hl₁
  · refine (K.persistState hl₁).seq ?_
    rintro γ₂ c₂ _ ⟨hl₂, _⟩
    simp only [get_bind]
    refine (K.quietCall hl₂ (.nodePodExists n)).seq ?_
    rintro γ₃ c r ⟨hl₃, rfl⟩
    rcases r with e | b
    · exact hl₃
    · cases b with
      | true => exact hl₃
      | false => exact K.handleNodeInfraFailed hl₃ n _

theorem promoteStartedPendingToRunning (hl : K.live γ c) {outcomes : HashMap String ReconcileResult}
    (hk : K.Knows outcomes γ) :
    M.Obeys (promoteStartedPendingToRunning outcomes c) γ fun γ' c' _ => K.live γ' c' := by
  unfold Coordinator.promoteStartedPendingToRunning
  simp only [get_bind]
  refine ((K.quietCall hl (.iterate _)).stable (Knows.next K) hk).seq ?_
  rintro γ₁ c names ⟨⟨hl₁, rfl⟩, hk₁⟩
  let inv := fun (l : List String) γ c => (K.live γ c ∧ K.Knows outcomes γ) ∧
    ∀ n ∈ l, ∃ s, outcomes.lookup n = some (.inProgress s)
  refine obeys_anyM (P := inv) ?_ (fun _ _ h => h.1.1) _ ⟨⟨hl₁, hk₁⟩, ?_⟩
  · rintro n l γ c ⟨⟨hl, hk⟩, hall⟩
    obtain ⟨s, hs⟩ := hall n (by simp)
    refine ((K.promoteNode hl (hk.2 n s hs)).stable (Knows.next K) hk).mono ?_
    rintro γ' c' b ⟨hl', hk'⟩
    split
    · exact hl'
    · exact ⟨⟨hl', hk'⟩, fun m hm => hall m (by simp [hm])⟩
  · intro n hn
    have hp := (List.mem_filter.mp hn).2
    unfold isPromotable at hp
    split at hp
    · exact ⟨_, ‹_›⟩
    · simp at hp

theorem reconcileRunningAgainstS3 (hl : K.live γ c) :
    M.Obeys (reconcileRunningAgainstS3 c) γ fun γ' c' _ => K.live γ' c' := by
  refine (K.readOutcomesForNonTerminal hl).seq ?_
  rintro γ₁ c₁ outcomes ⟨⟨hl₁, _⟩, hk⟩
  exact K.foldCompletionsFromOutcomes hl₁ hk

theorem runningNodes (hl : K.live γ c) :
    M.Obeys (runningNodes c) γ fun γ' c' names => (K.live γ' c' ∧ c' = c) ∧
      ∀ n, n ∈ names ↔ c.run.statuses.lookup n = some .running := by
  refine (K.quietCall hl (.iterate _)).seq ?_
  rintro γ₁ c ⟨names, hnd, hnames⟩ ⟨hl₁, rfl⟩
  refine ⟨⟨hl₁, rfl⟩, fun n => ?_⟩
  rw [← List.mem_toFinset, hnames, PipelineRun.mem_nodesWith]
  constructor
  · rintro ⟨a, ha, hrun⟩
    rw [ha, of_decide_eq_true hrun]
  · exact fun h => ⟨_, h, by simp⟩

theorem rehydrateFromHistory (hl : K.live γ c) (n : String) (startup runtime : Nat) :
    M.Obeys (rehydrateFromHistory n startup runtime c) γ fun γ' c' _ => K.live γ' c' := by
  unfold Coordinator.rehydrateFromHistory
  simp only [get_bind]
  refine (K.quietCall hl (.getNodeRun n)).seq ?_
  rintro γ₁ c r ⟨hl₁, rfl⟩
  rcases r with e | _ | row
  · exact (K.spawnRuntimeTimeout hl₁ n _).mono fun _ _ _ h => h.1
  · exact (K.spawnRuntimeTimeout hl₁ n _).mono fun _ _ _ h => h.1
  · refine (K.quietCall hl₁ .utcNow).seq ?_
    rintro γ₂ c now ⟨hl₂, rfl⟩
    exact (K.armTimer hl₂ n .startup _).mono fun _ _ _ h => h.1

theorem rehydratePhaseTimer (hl : K.live γ c) (nowMs : Nat) (outcomes : HashMap String ReconcileResult)
    (n : String) : M.Obeys (rehydratePhaseTimer nowMs outcomes n c) γ fun γ' c' _ => K.live γ' c' := by
  unfold Coordinator.rehydratePhaseTimer
  simp only [get_bind]
  cases outcomes.lookup n with
  | none => exact K.rehydrateFromHistory hl n _ _
  | some result =>
      cases result with
      | inProgress s => exact (K.spawnRuntimeTimeout hl n _).mono fun _ _ _ h => h.1
      | completed b s f => exact K.rehydrateFromHistory hl n _ _
      | stillRunning => exact K.rehydrateFromHistory hl n _ _
      | transientReadError e => exact K.rehydrateFromHistory hl n _ _

theorem rehydratePhaseTimers (hl : K.live γ c) (outcomes : HashMap String ReconcileResult) :
    M.Obeys (rehydratePhaseTimers outcomes c) γ fun γ' c' _ => K.live γ' c' := by
  unfold Coordinator.rehydratePhaseTimers
  refine (K.quietCall hl .systemTimeMs).seq ?_
  rintro γ₁ c now ⟨hl₁, rfl⟩
  refine (K.runningNodes hl₁).seq ?_
  rintro γ₂ c names ⟨⟨hl₂, rfl⟩, _⟩
  exact obeys_forM (P := fun _ γ c => K.live γ c)
    (fun n _ _ _ hl => K.rehydratePhaseTimer hl now outcomes n) names hl₂

/-! ## The end of a run -/

theorem allSuccess_of_outcomeStatus (h : c.outcomeStatus = .success) {n : String} {a : NodeStatus}
    (hn : c.run.statuses.lookup n = some a) : a = .success := by
  unfold Coordinator.outcomeStatus at h
  split at h
  · rename_i hall
    simpa using HashMap.allValues_eq_true.mp hall n a hn
  · simp at h

theorem recordHistory (hl : K.live γ c) {status : RunStatus}
    (hs : status = .success → c.outcomeStatus = .success) :
    M.Obeys (recordHistory status c) γ fun γ' c' _ =>
      K.done γ' c' ∧ (status = .success → c'.outcomeStatus = .success) := by
  unfold Coordinator.recordHistory
  refine (K.runningNodes hl).seq ?_
  rintro γ₁ c names ⟨⟨hl₁, rfl⟩, hnames⟩
  -- a run that ends in success has no Running node, and so none is marked
  let inv := fun (l : List String) γ c' => K.live γ c' ∧
    (status = .success → l = [] ∧ c'.outcomeStatus = .success)
  have hnil : status = .success → names = [] := by
    intro h
    refine List.eq_nil_iff_forall_not_mem.mpr fun n hn => ?_
    simpa using allSuccess_of_outcomeStatus (hs h) ((hnames n).mp hn)
  refine (obeys_forM (P := inv) ?_ names ⟨hl₁, fun h => ⟨hnil h, hs h⟩⟩).seq ?_
  · rintro n l γ c ⟨hl, hst⟩
    refine (K.recordRunningNodeTerminated hl n).seq ?_
    rintro γ₂ c _ ⟨hl₂, rfl⟩
    exact ⟨K.failed _ _ n hl₂, fun h => absurd (hst h).1 (by simp)⟩
  · rintro γ₂ c _ ⟨hl₂, hst⟩
    simp only [get_bind]
    refine (K.quietCall hl₂ .utcNow).seq ?_
    rintro γ₃ c now ⟨hl₃, rfl⟩
    have hf := K.finalize _ _ status now hl₃ fun h => (hst h).2
    exact ⟨hf.1, fun r hr => ⟨hf.2 r hr, fun h => (hst h).2⟩⟩

theorem finalizeRun (hl : K.live γ c) {status : RunStatus}
    (hs : status = .success → c.outcomeStatus = .success) :
    M.Obeys (finalizeRun status c) γ fun γ' c' _ => K.done γ' c' := by
  unfold Coordinator.finalizeRun
  refine (K.recordHistory hl hs).seq ?_
  rintro γ₁ c _ ⟨hd, hs⟩
  simp only [get_bind]
  split
  · exact (K.closingCall hd (.reportCompleted status hs)).mono fun _ _ _ h => h.1
  · exact hd

theorem cleanup (hd : K.done γ c) : M.Obeys (cleanup c) γ fun γ' c' _ => K.done γ' c' := by
  unfold Coordinator.cleanup
  simp only [get_bind]
  refine (K.closingCall hd .cleanupRun).seq ?_
  rintro γ₁ c _ ⟨hd₁, rfl⟩
  refine (K.closingCall hd₁ .releaseLease).seq ?_
  rintro γ₂ c _ ⟨hd₂, rfl⟩
  refine (K.closingCall hd₂ .deleteRun).seq ?_
  exact fun _ _ _ h => h.1

theorem shutdownPodWatcher (hd : K.done γ c) :
    M.Obeys (shutdownPodWatcher c) γ fun γ' c' _ => K.done γ' c' := by
  unfold Coordinator.shutdownPodWatcher
  simp only [get_bind]
  split
  · simp only [modify_bind]
    refine (K.closingCall (K.doneFrame _ _ c.nodePhaseHandles false hd) (.watcherCommand _)).seq ?_
    rintro γ₁ c₁ _ ⟨hd₁, rfl⟩
    exact (K.closingCall hd₁ .abortWatcher).mono fun _ _ _ h => h.1
  · exact hd

theorem doneTimeout (hd : K.done γ c) (n : String) :
    M.Obeys (Coordinator.cancelNodeTimeout n c) γ fun γ' c' _ => K.done γ' c' := by
  unfold Coordinator.cancelNodeTimeout
  simp only [get_bind]
  cases c.nodePhaseHandles.lookup n with
  | none => exact hd
  | some timer =>
      exact (K.closingCall (K.doneFrame γ c _ c.podWatcher hd) (.abortTimer timer.handle)).mono
        fun _ _ _ h => h.1

theorem doneNotify (hd : K.done γ c) (n : String) :
    M.Obeys (Coordinator.notifyWatcherOfDeletion n c) γ fun γ' c' _ => K.done γ' c' := by
  unfold Coordinator.notifyWatcherOfDeletion
  simp only [get_bind]
  split
  · exact (K.closingCall hd (.watcherCommand _)).seq fun _ _ _ h => h.1
  · exact hd

theorem terminateRunningNodes (hd : K.done γ c) (status : RunStatus) :
    M.Obeys (terminateRunningNodes status c) γ fun γ' c' _ => K.done γ' c' := by
  unfold Coordinator.terminateRunningNodes
  simp only [get_bind]
  refine (K.closingCall hd (.iterate _)).seq ?_
  rintro γ₁ c timers ⟨hd₁, rfl⟩
  refine (obeys_forM (P := fun _ γ c => K.done γ c) (fun n _ _ _ hd => K.doneTimeout hd n) _ hd₁).seq ?_
  intro γ₂ c₂ _ hd₂
  unfold Coordinator.runningNodes
  simp only [bind_assoc, pure_bind, get_bind]
  refine (K.closingCall hd₂ (.iterate _)).seq ?_
  rintro γ₃ c names ⟨hd₃, rfl⟩
  refine (obeys_forM (P := fun _ γ c => K.done γ c) ?_ _ hd₃).seq ?_
  · intro n _ γ c hd
    refine (K.doneNotify hd n).seq ?_
    intro γ₁ c₁ _ hd₁
    simp only [get_bind]
    exact (K.closingCall hd₁ (.cancelNode n)).seq fun _ _ _ h => h.1
  · intro γ₄ c₄ _ hd₄
    exact (K.shutdownPodWatcher hd₄).seq fun _ _ _ h => h

theorem abortRun (hl : K.live γ c) {status : RunStatus} (hs : status ≠ .success) :
    M.Obeys (abortRun status c) γ K.post := by
  refine (K.finalizeRun hl fun h => absurd h hs).seq ?_
  intro γ₁ c₁ _ hd₁
  refine (K.cleanup hd₁).seq ?_
  intro γ₂ c₂ _ hd₂
  exact (K.terminateRunningNodes hd₂ status).seq fun _ _ _ hd₃ => Or.inr hd₃

theorem buildSummary (hl : K.live γ c) (status : RunStatus) :
    M.Obeys ((Coordinator.buildSummary status >>= fun summary => pure (some summary) : Coord _) c) γ
      K.post := by
  unfold Coordinator.buildSummary Coordinator.shutdownPodWatcher
  simp only [bind_assoc, get_bind]
  split
  · simp only [bind_assoc, modify_bind]
    refine (K.quietCall (K.frame _ _ c.nodePhaseHandles false hl) (.watcherCommand _)).seq ?_
    rintro γ₁ c₁ _ ⟨hl₁, rfl⟩
    exact (K.quietCall hl₁ .abortWatcher).seq fun _ _ _ h => Or.inl h.1
  · exact Or.inl hl

theorem completeRun (hl : K.live γ c) : M.Obeys (completeRun c) γ K.post := by
  unfold Coordinator.completeRun
  simp only [get_bind]
  refine (K.finalizeRun hl fun h => h).seq ?_
  intro γ₁ c₁ _ hd₁
  refine (K.cleanup hd₁).seq ?_
  intro γ₂ c₂ _ hd₂
  unfold Coordinator.buildSummary
  simp only [bind_assoc]
  exact (K.shutdownPodWatcher hd₂).seq fun _ _ _ hd₃ => Or.inr hd₃

theorem afterHandler (hl : K.live γ c) (aborted : Bool) : M.Obeys (afterHandler aborted c) γ K.post := by
  unfold Coordinator.afterHandler
  cases aborted with
  | true => exact K.abortRun hl (by simp)
  | false =>
      simp only [Bool.false_eq_true, ↓reduceIte, get_bind]
      split
      · exact K.completeRun hl
      · exact hl

/-! ## The select loop -/

theorem subscribeAndDispatch (hl : K.live γ c) : M.Obeys (subscribeAndDispatch c) γ K.post := by
  unfold Coordinator.subscribeAndDispatch
  simp only [get_bind]
  refine (K.quietCall hl .subscribeRun).seq ?_
  rintro γ₁ c r ⟨hl₁, rfl⟩
  rcases r with e | ⟨⟩
  · exact K.buildSummary hl₁ .failure
  · refine (K.quietCall hl₁ (.interval 15)).seq ?_
    rintro γ₂ c _ ⟨hl₂, rfl⟩
    refine (K.quietCall hl₂ (.interval _)).seq ?_
    rintro γ₃ c _ ⟨hl₃, rfl⟩
    refine (K.dispatchReadyNodes hl₃).seq ?_
    intro γ₄ c₄ _ hl₄
    exact K.afterHandler hl₄ false

theorem rehydrate (hl : K.live γ c) : M.Obeys (rehydrate c) γ K.post := by
  unfold Coordinator.rehydrate
  refine (K.readOutcomesForNonTerminal hl).seq ?_
  rintro γ₁ c outcomes ⟨⟨hl₁, rfl⟩, hk₁⟩
  refine ((K.foldCompletionsFromOutcomes hl₁ hk₁).stable (Knows.next K) hk₁).seq ?_
  rintro γ₂ c₂ b ⟨hl₂, hk₂⟩
  split
  · exact K.abortRun hl₂ (by simp)
  · refine (K.promoteStartedPendingToRunning hl₂ hk₂).seq ?_
    intro γ₃ c₃ b hl₃
    split
    · exact K.abortRun hl₃ (by simp)
    · refine (K.rehydratePhaseTimers hl₃ outcomes).seq ?_
      intro γ₄ c₄ _ hl₄
      exact K.afterHandler hl₄ false

/-- A coordinator obeys the monitor up to its select loop. -/
theorem start (hl : K.live γ c) : M.Obeys (start c) γ K.post := by
  unfold Coordinator.start
  simp only [get_bind]
  refine (K.quietCall hl (.sleep _)).seq ?_
  rintro γ₁ c _ ⟨hl₁, rfl⟩
  split
  · refine (K.rehydrate hl₁).seq ?_
    intro γ₂ c₂ r hpost
    cases r with
    | none => exact K.subscribeAndDispatch hpost
    | some summary => exact hpost
  · exact K.subscribeAndDispatch hl₁

theorem handleHeartbeat (hl : K.live γ c) : M.Obeys (handleHeartbeat c) γ K.post := by
  unfold Coordinator.handleHeartbeat
  simp only [get_bind]
  refine (K.quietCall hl .renewLease).seq ?_
  rintro γ₁ c r ⟨hl₁, rfl⟩
  rcases r with e | b
  · exact K.buildSummary hl₁ .failure
  · cases b with
    | true => exact hl₁
    | false => exact K.buildSummary hl₁ .failure

theorem handleMessage (hl : K.live γ c) (msg : CoordinatorMessage) :
    M.Obeys (handleMessage msg c) γ K.post := by
  cases msg with
  | nodeTimedOut n => exact (K.handleNodeTimedOut hl n).seq fun _ _ b hl' => K.afterHandler hl' b
  | nodePodRunning n => exact (K.handlePodRunning hl n).seq fun _ _ _ h => h.1
  | nodeInfraFailed n reason =>
      exact (K.handleNodeInfraFailed hl n reason).seq fun _ _ b hl' => K.afterHandler hl' b
  | nodePodStartTimedOut n =>
      exact (K.handleNodeInfraFailed hl n _).seq fun _ _ b hl' => K.afterHandler hl' b

theorem handleEvent (hl : K.live γ c) (i : LoopEvent)
    (ht : ∀ n b, i = .backplane (some (.nodeCompleted n b)) → K.told γ n b) :
    M.Obeys (handleEvent i c) γ K.post := by
  cases i with
  | pipelineDeadline => exact K.abortRun hl (by simp)
  | heartbeat => exact K.handleHeartbeat hl
  | s3Reconcile => exact (K.reconcileRunningAgainstS3 hl).seq fun _ _ b hl' => K.afterHandler hl' b
  | internal msg =>
      cases msg with
      | none => exact hl
      | some msg => exact K.handleMessage hl msg
  | backplane event =>
      rcases event with _ | ⟨n, b⟩ | _
      · exact K.abortRun hl (by simp)
      · refine ((K.cancelNodeTimeout hl n).stable (P := fun γ => K.told γ n b)
          (fun _ _ => K.told_next _ _ n b) (ht n b rfl)).seq ?_
        rintro γ₁ c₁ _ ⟨⟨hl₁, _⟩, ht₁⟩
        exact (K.handleNodeCompleted hl₁ ht₁).seq fun _ _ b hl' => K.afterHandler hl' b
      · exact K.abortRun hl (by simp)

/-- A coordinator that waits obeys the monitor whatever event it takes up. -/
theorem handlers (hpost : K.post γ c none) {i : LoopEvent} (hi : M.assume γ (.received c i)) :
    M.Obeys (Coordinator.handleEvent i c) (M.next γ (.received c i)) K.post := by
  have h := K.receive γ c i hpost hi
  exact K.handleEvent h.1 i h.2

/-- Along every execution a coordinator obeys the monitor. -/
theorem execution {q : Prog Coordinator Resp (Option RunSummary)}
    {tr : List (Moment Coordinator LoopEvent Resp)} (hl : K.live γ c)
    (he : Exec Coordinator.handleEvent (Coordinator.start c) tr q) (ha : M.Assumed γ tr) :
    M.Obeys q (M.after γ tr) K.post :=
  obeys_exec (fun _ _ _ hpost hi => K.handlers hpost hi) he (K.start hl) ha

end Keeps

end Jefferies.Coordination
