import Jefferies.Coordination.Invariant

/-!
# Confluence of scheduling

A run is scheduled by dispatching what is ready and completing what runs. When every dispatch and every
save succeeds and fail-fast is off, each such step is a step of the dependency graph; so the schedule ends,
and the statuses it ends in do not depend on its order.
-/

namespace Jefferies.Coordination

open Pipelines StateStore RunHistory Interaction Interact Coordinator Monitor PipelineRun Scheduling

/-- Dispatches and saves succeed; other calls are answered in any way. -/
def CallsSucceed (_ : Coordinator) : (e : Effect) → Resp e → Prop
  | .dispatch .., r => r = .ok ()
  | .saveRun .., r => r = .ok true
  | _, _ => True

/-- `Schedule o c₀ completed c`: from `c₀`, after the dispatch of what is ready and the completions of the
nodes `completed`, each while it is Running and with the outcome `o` has for it, the coordinator is `c`. -/
inductive Schedule (o : String → Bool) (c₀ : Coordinator) : List String → Coordinator → Prop
  | start {c} : (dispatchReadyNodes c₀).Ends CallsSucceed c () → Schedule o c₀ [] c
  | complete {completed c n c' b} : Schedule o c₀ completed c → c.run.statuses.lookup n = some .running →
      (handleNodeCompleted n (o n) c).Ends CallsSucceed c' b → Schedule o c₀ (completed ++ [n]) c'

/-- The monitor of the calls that succeed, which promises nothing. -/
def callsSucceed : Monitor Unit Coordinator LoopEvent Resp where
  assume _
    | .answered c e r => CallsSucceed c e r
    | .received _ _ => True
  ok _ _ _ := True
  next _ _ := ()

/-- What no step changes: the information on the nodes, the pipeline and the settings. -/
structure Setting where
  cache : HashMap String NodeInfo
  pipeline : Pipeline
  config : AppConfig

def Coordinator.setting (c : Coordinator) : Setting := ⟨c.nodeInfoCache, c.pipeline, c.config⟩

def keepsSetting (s : Setting) : Keeps callsSucceed where
  live _ c := c.setting = s
  done _ _ := True
  told _ _ _ := True
  started _ _ := True
  read _ _ := True
  told_next _ _ _ _ h := h
  started_next _ _ _ h := h
  read_next _ _ _ h := h
  receive _ _ _ hl _ := ⟨hl, fun _ _ _ => trivial⟩
  outcomes _ _ _ _ _ _ := ⟨fun _ _ _ _ _ => trivial, fun _ _ _ => trivial⟩
  outcome _ _ _ _ _ _ _ := trivial
  frame _ _ _ _ hl := hl
  success _ _ _ hl _ := hl
  failed _ _ _ hl := hl
  promoted _ _ _ hl _ := hl
  quiet _ _ _ hl _ := ⟨trivial, fun _ _ => hl⟩
  record _ _ _ hl _ _ := ⟨trivial, fun _ _ => hl⟩
  save _ _ hl := ⟨trivial, fun r _ => by rcases r with _ | _ | _ <;> exact hl⟩
  dispatch _ _ _ _ _ hl _ _ := ⟨trivial, fun r _ => by rcases r with _ | _ <;> exact hl⟩
  finalize _ _ _ _ _ _ := ⟨trivial, fun _ _ => trivial⟩
  doneFrame _ _ _ _ h := h
  closing _ _ _ h _ := ⟨trivial, fun _ _ => h⟩

/-! ## Steps of the coordinator -/

section Steps

variable {s : Setting} {c : Coordinator} {n : String}

/-- The setting is as before and the run is `run`. -/
def Now {α : Type} (s : Setting) (run : PipelineRun) (_ : Unit) (c : Coordinator) (_ : α) : Prop :=
  c.setting = s ∧ c.run = run

theorem persist_succeeds (hs : c.setting = s) :
    callsSucceed.Obeys (persistState c) () fun γ c' r => Now s c.run γ c' r ∧ r = .ok () := by
  refine ⟨trivial, fun r hr => ?_⟩
  have hok : r = .ok true := hr
  subst hok
  exact ⟨⟨hs, rfl⟩, rfl⟩

/-- A node that is ready is marked Running, and nothing else changes. -/
theorem dispatchReadyNode_marks (hs : c.setting = s) (hn : c.run.statuses.lookup n = some .pending)
    (hinfo : ∃ info, c.nodeInfoCache.lookup n = some info) :
    callsSucceed.Obeys (dispatchReadyNode n c) () (Now s (c.run.markRunning n).2) := by
  obtain ⟨info, hinfo⟩ := hinfo
  have hmark : (c.run.markRunning n).1 = true := by simp [markRunning, hn]
  unfold dispatchReadyNode
  simp only [get_bind, hinfo]
  refine Obeys.seq (P := fun _ c' (r : Except DispatchError Unit) => c' = c ∧ r = .ok ())
    ⟨trivial, fun r hr => ⟨rfl, hr⟩⟩ ?_
  rintro _ c r ⟨rfl, rfl⟩
  simp only [mark, modifyGet_bind, hmark, ↓reduceIte]
  have hs₀ : (c.setRun (c.run.markRunning n).2).setting = s := hs
  refine ((keepsSetting s).persistTransition hs₀).seq ?_
  rintro _ c₁ _ ⟨hs₁, hrun₁⟩
  refine ((keepsSetting s).recordNodeDispatched hs₁ n info).seq ?_
  rintro _ c₂ _ ⟨hs₂, rfl⟩
  refine ((keepsSetting s).armTimer hs₂ n .startup _).mono ?_
  rintro _ c₃ _ ⟨hs₃, hrun₃⟩
  exact ⟨hs₃, hrun₃.trans hrun₁⟩

/-! ## Steps on the board -/

variable {may : String → Bool → Prop} {g : Graph String}

/-- The coordinator knows its nodes, and its board is one that the graph reaches. -/
structure OnBoard (s : Setting) (g : Graph String) (may : String → Bool → Prop) (c : Coordinator) : Prop where
  setting : c.setting = s
  graph : c.run.graph = g
  reach : g.Reach may c.run.board
  cached : ∀ n ∈ g.tasks, ∃ info, s.cache.lookup n = some info

theorem OnBoard.lookup_cached (h : OnBoard s g may c) {a : NodeStatus} (hn : c.run.statuses.lookup n = some a) :
    ∃ info, c.nodeInfoCache.lookup n = some info := by
  have hmem : n ∈ g.tasks := by
    rw [← h.graph]
    exact HashMap.mem_keys_iff_lookup.mpr ⟨a, hn⟩
  have hcache : s.cache = c.nodeInfoCache := by rw [← h.setting]; rfl
  rw [← hcache]
  exact h.cached n hmem

/-- Dispatching is the start of a task. -/
theorem OnBoard.markRunning (h : OnBoard s g may c) (hn : n ∈ c.run.readyNodes) {c' : Coordinator}
    (hs : c'.setting = s) (hrun : c'.run = (c.run.markRunning n).2) : OnBoard s g may c' := by
  obtain ⟨hpend, hdeps⟩ := mem_readyNodes.mp hn
  have hmarks := marks_markRunning c.run n
  refine ⟨hs, by rw [hrun, hmarks.graph, h.graph], ?_, h.cached⟩
  have heq : (c.run.markRunning n).2 = { c.run with statuses := c.run.statuses.insert n .running } := by
    simp [PipelineRun.markRunning, hpend]
  rw [hrun, heq, board_update]
  refine h.reach.tail (.start ?_ ?_ ?_)
  · rw [← h.graph]
    exact HashMap.mem_keys_iff_lookup.mpr ⟨_, hpend⟩
  · simp [board, hpend, phase]
  · rw [← h.graph]
    exact board_free_iff.mpr hdeps

/-- Nothing that was not ready becomes ready when a node is marked Running. -/
theorem readyNodes_markRunning (run : PipelineRun) (n : String) (hn : run.statuses.lookup n = some .pending)
    {m : String} (hm : m ∈ (run.markRunning n).2.readyNodes) : m ≠ n ∧ m ∈ run.readyNodes := by
  have hmarks := marks_markRunning run n
  obtain ⟨hpend, hdeps⟩ := mem_readyNodes.mp hm
  have hne : m ≠ n := by
    rintro rfl
    simp [markRunning, hn] at hpend
  rw [hmarks.lookup_of_ne hne] at hpend
  refine ⟨hne, mem_readyNodes.mpr ⟨hpend, fun d hd => ?_⟩⟩
  rw [← hmarks.depsOf] at hd
  rcases hmarks.lookup_eq (hdeps d hd) with h | ⟨_, h⟩
  · exact h
  · simp at h

/-- No node of `run` that has left Pending is changed in `run'`. -/
def Stays (run run' : PipelineRun) : Prop :=
  ∀ m a, run.statuses.lookup m = some a → a ≠ .pending → run'.statuses.lookup m = some a

theorem stays_markRunning (run : PipelineRun) (n : String) : Stays run (run.markRunning n).2 := by
  intro m a hm ha
  unfold markRunning
  split
  · rename_i hn
    have hne : m ≠ n := fun h => ha (by rw [h, hn] at hm; exact (Option.some.inj hm).symm)
    exact (Finmap.lookup_insert_of_ne _ hne).trans hm
  · exact hm

/-- After the dispatch loop the run is still on the board, and nothing is ready any more. -/
theorem dispatchReadyNodes_board (h : OnBoard s g may c) :
    callsSucceed.Obeys (dispatchReadyNodes c) () fun _ c' _ =>
      OnBoard s g may c' ∧ c'.run.readyNodes = ∅ ∧ Stays c.run c'.run := by
  unfold dispatchReadyNodes
  simp only [get_bind]
  refine ((keepsSetting s).quietCall h.setting (.iterate _)).seq ?_
  rintro _ c ⟨names, hnodup, hnames⟩ ⟨_, rfl⟩
  -- what is ready is what is still to come
  let inv := fun (l : List String) (_ : Unit) c' =>
    (OnBoard s g may c' ∧ Stays c.run c'.run) ∧ l.Nodup ∧ ∀ n, n ∈ c'.run.readyNodes ↔ n ∈ l
  have hstart : ∀ n, n ∈ c.run.readyNodes ↔ n ∈ names := fun n => by rw [← hnames, List.mem_toFinset]
  refine (obeys_forM (P := inv) ?_ names
    ⟨⟨h, fun _ _ hm _ => hm⟩, hnodup, hstart⟩).mono ?_
  · rintro n l _ c ⟨⟨h, hstays⟩, hnd, hready⟩
    have hn : n ∈ c.run.readyNodes := (hready n).mpr (by simp)
    have hpend := (mem_readyNodes.mp hn).1
    refine (dispatchReadyNode_marks h.setting hpend (h.lookup_cached hpend)).mono ?_
    rintro _ c' _ ⟨hs', hrun'⟩
    have hstays' := stays_markRunning c.run n
    refine ⟨⟨h.markRunning hn hs' hrun', fun m a hm ha => ?_⟩, (List.nodup_cons.mp hnd).2, fun m => ?_⟩
    · rw [hrun']
      exact hstays' m a (hstays m a hm ha) ha
    rw [hrun']
    constructor
    · intro hm
      obtain ⟨hne, hm⟩ := readyNodes_markRunning c.run n hpend hm
      exact (List.mem_cons.mp ((hready m).mp hm)).resolve_left hne
    · intro hm
      have hne : m ≠ n := fun h => (List.nodup_cons.mp hnd).1 (h ▸ hm)
      exact Keeps.ready_of_marks (marks_markRunning c.run n) ((hready m).mpr (by simp [hm])) hne
  · rintro _ c' _ ⟨⟨h, hstays⟩, _, hready⟩
    exact ⟨h, Finset.eq_empty_of_forall_notMem fun n hn => by simpa using (hready n).mp hn, hstays⟩

/-- The run after a node that runs is completed. -/
def completed (run : PipelineRun) (n : String) (b : Bool) : PipelineRun :=
  { run with statuses := run.statuses.insert n (if b then .success else .failed) }

theorem OnBoard.completed (h : OnBoard s g may c) (hn : c.run.statuses.lookup n = some .running) {b : Bool}
    (hmay : may n b) {c' : Coordinator} (hs : c'.setting = s) (hrun : c'.run = completed c.run n b) :
    OnBoard s g may c' := by
  have hmarks : Marks c.run (Coordination.completed c.run n b) n (if b then .success else .failed) :=
    Or.inr ⟨Or.inl hn, rfl⟩
  refine ⟨hs, by rw [hrun, hmarks.graph, h.graph], ?_, h.cached⟩
  have hphase : phase (some (if b then .success else .failed)) = Graph.ended b := by cases b <;> rfl
  rw [hrun, Coordination.completed, board_update, hphase]
  exact h.reach.tail (.finish (by simp [board, hn, phase]) hmay)

/-- Completing a node that runs is the end of its task, and then what is ready is dispatched. -/
theorem handleNodeCompleted_board (h : OnBoard s g may c)
    (hff : s.pipeline.failFastOverride.getD s.config.defaultFailFast = false)
    (hn : c.run.statuses.lookup n = some .running) {b : Bool} (hmay : may n b) :
    callsSucceed.Obeys (handleNodeCompleted n b c) () fun _ c' aborted =>
      (OnBoard s g may c' ∧ c'.run.readyNodes = ∅) ∧ Stays (completed c.run n b) c'.run ∧
        aborted = false := by
  have hmark : c.setRun (if b then c.run.markSuccess n else c.run.markFailed n).2 =
      c.setRun (completed c.run n b) := by
    cases b <;> simp [markSuccess, markFailed, completed, hn]
  have hboard : OnBoard s g may (c.setRun (completed c.run n b)) := h.completed hn hmay h.setting rfl
  have hrest : ∀ c₁, c₁.setting = s → c₁.run = completed c.run n b →
      callsSucceed.Obeys ((dispatchReadyNodes >>= fun _ => pure false : Coord Bool) c₁) () fun _ c' aborted =>
        (OnBoard s g may c' ∧ c'.run.readyNodes = ∅) ∧ Stays (completed c.run n b) c'.run ∧
          aborted = false := by
    intro c₁ hs₁ hrun₁
    refine (dispatchReadyNodes_board (h.completed hn hmay hs₁ hrun₁)).seq ?_
    rintro _ c₂ _ ⟨h₂, hready, hstays⟩
    exact ⟨⟨h₂, hready⟩, hrun₁ ▸ hstays, rfl⟩
  unfold handleNodeCompleted
  cases b with
  | true =>
      simp only [↓reduceIte] at hmark
      simp only [↓reduceIte, mark, modifyGet_bind, hmark]
      refine (persist_succeeds hboard.setting).seq ?_
      rintro _ c₁ r ⟨⟨hs₁, hrun₁⟩, rfl⟩
      refine ((keepsSetting s).recordNodeCompleted hs₁ n none).seq ?_
      rintro _ c₂ _ ⟨_, rfl⟩
      exact hrest _ hs₁ hrun₁
  | false =>
      simp only [Bool.false_eq_true, ↓reduceIte] at hmark
      simp only [Bool.false_eq_true, ↓reduceIte, mark, modifyGet_bind, hmark]
      refine (persist_succeeds hboard.setting).seq ?_
      rintro _ c₁ r ⟨⟨hs₁, hrun₁⟩, rfl⟩
      refine ((keepsSetting s).recordNodeCompleted hs₁ n none).seq ?_
      rintro _ c₂ _ ⟨_, rfl⟩
      have hoff : c₂.failFastEnabled = false := by rw [← hff, ← hs₁]; rfl
      unfold failFastOrDispatch
      simp only [get_bind, hoff, Bool.false_eq_true, ↓reduceIte]
      exact hrest _ hs₁ hrun₁

end Steps

/-! ## Schedules -/

theorem callsSucceed_answerable (c : Coordinator) (e : Effect) : ∃ r, CallsSucceed c e r := by
  cases e with
  | dispatch _ _ _ _ => exact ⟨.ok (), rfl⟩
  | saveRun _ _ _ => exact ⟨.ok true, rfl⟩
  | newUuid => exact ⟨"", trivial⟩
  | utcNow => exact ⟨⟨0, 0⟩, trivial⟩
  | systemTimeMs => exact ⟨(0 : Nat), trivial⟩
  | iterate names => exact ⟨⟨names.toList, names.nodup_toList, names.toList_toFinset⟩, trivial⟩
  | spawnTimer _ _ _ _ => exact ⟨(0 : Nat), trivial⟩
  | watcherCommand _ _ => exact ⟨true, trivial⟩
  | startPodWatcher _ _ => exact ⟨true, trivial⟩
  | reporterForRun _ => exact ⟨true, trivial⟩
  | readOutcomes _ _ => exact ⟨none, trivial⟩
  | sleep _ => exact ⟨(), trivial⟩
  | interval _ => exact ⟨(), trivial⟩
  | abortTimer _ => exact ⟨(), trivial⟩
  | spawnCoordinator _ => exact ⟨(), trivial⟩
  | abortWatcher _ => exact ⟨(), trivial⟩
  | reportCompleted _ _ => exact ⟨(), trivial⟩
  | loadRun _ => exact ⟨.ok none, trivial⟩
  | tryAcquireLease _ _ _ => exact ⟨.ok none, trivial⟩
  | getPipelineRun _ => exact ⟨.ok none, trivial⟩
  | getNodeRun _ _ => exact ⟨.ok none, trivial⟩
  | getNodeOutcome _ _ => exact ⟨.ok none, trivial⟩
  | getNodeLog _ _ => exact ⟨.ok none, trivial⟩
  | renewLease _ _ _ _ => exact ⟨.ok true, trivial⟩
  | leaseExists _ => exact ⟨.ok true, trivial⟩
  | finalizePipelineRunStatus _ _ _ => exact ⟨.ok true, trivial⟩
  | nodePodExists _ _ => exact ⟨.ok true, trivial⟩
  | stateKeys => exact ⟨.ok [], trivial⟩
  | listInProgressRuns => exact ⟨.ok [], trivial⟩
  | listNodeRuns _ => exact ⟨.ok [], trivial⟩
  | listManagedRunIds => exact ⟨.ok [], trivial⟩
  | deleteRun _ => exact ⟨.ok (), trivial⟩
  | releaseLease _ => exact ⟨.ok (), trivial⟩
  | recordPipelineStarted _ => exact ⟨.ok (), trivial⟩
  | recordPipelineRun _ => exact ⟨.ok (), trivial⟩
  | recordNodeDispatched _ => exact ⟨.ok (), trivial⟩
  | recordNodeRun _ => exact ⟨.ok (), trivial⟩
  | cancelNode _ _ => exact ⟨.ok (), trivial⟩
  | cleanupRun _ => exact ⟨.ok (), trivial⟩
  | subscribeRun _ => exact ⟨.ok (), trivial⟩

section Schedules

variable {nodes : List NodeInfo} {o : String → Bool} {c₀ c : Coordinator} {done : List String}

/-- A coordinator that starts a new run of the nodes, with fail-fast off. -/
structure FreshRun (nodes : List NodeInfo) (c : Coordinator) : Prop where
  run : c.run = .new nodes
  cache : c.nodeInfoCache = nodeInfoCacheOf nodes
  failFast : c.failFastEnabled = false

theorem FreshRun.onBoard (h : FreshRun nodes c₀) (o : String → Bool) :
    OnBoard c₀.setting (PipelineRun.new nodes).graph (fun n b => b = o n) c₀ where
  setting := rfl
  graph := by rw [h.run]
  reach := by
    have hboard : c₀.run.board = fun _ => .waiting := by
      funext n
      rw [h.run, board]
      cases hn : (PipelineRun.new nodes).statuses.lookup n with
      | none => rfl
      | some a => rw [new_lookup hn]; rfl
    rw [hboard]
    exact .refl
  cached n hn := by
    have hname : n ∈ nodes.map NodeInfo.name := (new_statuses_keys nodes n).mp hn
    obtain ⟨node, hmem, rfl⟩ := List.mem_map.mp hname
    have hkeys : node.name ∈ (nodeInfoCacheOf nodes).keys :=
      HashMap.mem_keys_ofList.mpr (List.mem_map.mpr ⟨_, List.mem_map.mpr ⟨node, hmem, rfl⟩, rfl⟩)
    simpa [Coordinator.setting, h.cache] using HashMap.mem_keys_iff_lookup.mp hkeys

/-- What holds along a schedule: the board, nothing left to dispatch, and the completed nodes are distinct
and terminal. -/
theorem Schedule.onBoard (h : Schedule o c₀ done c) (h₀ : FreshRun nodes c₀) :
    (OnBoard c₀.setting (PipelineRun.new nodes).graph (fun n b => b = o n) c ∧ c.run.readyNodes = ∅) ∧
      done.Nodup ∧ ∀ n ∈ done, c.run.statuses.lookup n = some (if o n then .success else .failed) := by
  have hallow : ∀ γ c e r, CallsSucceed c e r → callsSucceed.assume γ (.answered c e r) := fun _ _ _ _ h => h
  induction h with
  | start he =>
      have h := (dispatchReadyNodes_board (h₀.onBoard o)).ends hallow he
      exact ⟨⟨h.1, h.2.1⟩, List.nodup_nil, by simp⟩
  | @complete done c n c' b _ hn he ih =>
      obtain ⟨⟨hboard, _⟩, hnd, hdone⟩ := ih
      have h := (handleNodeCompleted_board hboard h₀.failFast hn (b := o n) rfl).ends hallow he
      obtain ⟨hboard', hstays, _⟩ := h
      have hnew : n ∉ done := fun hmem => by
        have hrun := Option.some.inj ((hdone n hmem).symm.trans hn)
        split at hrun <;> simp at hrun
      refine ⟨hboard', ?_, fun m hm => ?_⟩
      · exact List.Nodup.append hnd (List.nodup_singleton n) (by simpa using hnew)
      · refine hstays m _ ?_ (by cases o m <;> simp)
        rcases List.mem_append.mp hm with hm | hm
        · have hne : m ≠ n := fun h => hnew (h ▸ hm)
          exact (Finmap.lookup_insert_of_ne _ hne).trans (hdone m hm)
        · obtain rfl := List.mem_singleton.mp hm
          exact Finmap.lookup_insert _

/-- The statuses that the outcomes `o` lead to: a node is Success if it ends well and its dependencies are
Success, Failed if it does not and they are, and Pending otherwise; and no set of nodes closed under this
leaves out a node that is Success. -/
structure Settled (nodes : List NodeInfo) (o : String → Bool) (run : PipelineRun) : Prop where
  success : ∀ node ∈ nodes, run.statuses.lookup node.name = some .success ↔
    o node.name = true ∧ ∀ dep ∈ node.dependencies, run.statuses.lookup dep = some .success
  failed : ∀ node ∈ nodes, run.statuses.lookup node.name = some .failed ↔
    o node.name = false ∧ ∀ dep ∈ node.dependencies, run.statuses.lookup dep = some .success
  pending : ∀ node ∈ nodes, run.statuses.lookup node.name = some .pending ↔
    ∃ dep ∈ node.dependencies, run.statuses.lookup dep ≠ some .success
  least : ∀ X : Set String, (∀ node ∈ nodes, o node.name = true → (∀ dep ∈ node.dependencies, dep ∈ X) →
    node.name ∈ X) → ∀ n, run.statuses.lookup n = some .success → n ∈ X

/-- The graph of a new run, in terms of its nodes. -/
theorem mem_graph_new (hnd : (nodes.map NodeInfo.name).Nodup) {node : NodeInfo} (hnode : node ∈ nodes) :
    node.name ∈ (PipelineRun.new nodes).graph.tasks ∧
      (PipelineRun.new nodes).graph.deps node.name = {d | d ∈ node.dependencies} :=
  ⟨(new_statuses_keys nodes _).mpr (List.mem_map.mpr ⟨node, hnode, rfl⟩),
    Set.ext fun _ => mem_depsOf_new hnd hnode⟩

theorem OnBoard.lookup_isSome {s : Setting} {may : String → Bool → Prop}
    (h : OnBoard s (PipelineRun.new nodes).graph may c) {node : NodeInfo} (hnode : node ∈ nodes) :
    ∃ a, c.run.statuses.lookup node.name = some a := by
  have hmem : node.name ∈ (PipelineRun.new nodes).graph.tasks :=
    (new_statuses_keys nodes _).mpr (List.mem_map.mpr ⟨node, hnode, rfl⟩)
  rw [← h.graph] at hmem
  exact HashMap.mem_keys_iff_lookup.mp hmem

theorem OnBoard.settled (hnd : (nodes.map NodeInfo.name).Nodup) {s : Setting}
    (h : OnBoard s (PipelineRun.new nodes).graph (fun n b => b = o n) c)
    (hst : c.run.isComplete = true) : Settled nodes o c.run := by
  have hmay : ∀ n b, b = o n → (b = true ↔ o n = true) := by
    rintro n b rfl
    exact Iff.rfl
  have hstalled : (PipelineRun.new nodes).graph.Stalled c.run.board := by
    rw [← h.graph]
    exact isComplete_iff_stalled.mp hst
  obtain ⟨hsucc, hfail⟩ := h.reach.stalled_eq hmay hstalled
  have hlook : ∀ n, c.run.statuses.lookup n = some .success ↔
      n ∈ (PipelineRun.new nodes).graph.succeeds fun n => o n = true :=
    fun n => phase_eq_succeeded.symm.trans (hsucc n)
  have hs : ∀ node ∈ nodes, c.run.statuses.lookup node.name = some .success ↔
      o node.name = true ∧ ∀ dep ∈ node.dependencies, c.run.statuses.lookup dep = some .success := by
    intro node hnode
    obtain ⟨htask, hdeps⟩ := mem_graph_new hnd hnode
    rw [hlook, Graph.mem_succeeds, hdeps]
    simp only [htask, true_and, Set.subset_def, Set.mem_ofPred_eq, hlook]
  have hf : ∀ node ∈ nodes, c.run.statuses.lookup node.name = some .failed ↔
      o node.name = false ∧ ∀ dep ∈ node.dependencies, c.run.statuses.lookup dep = some .success := by
    intro node hnode
    obtain ⟨htask, hdeps⟩ := mem_graph_new hnd hnode
    rw [← phase_eq_failed]
    refine (hfail node.name).trans ?_
    rw [hdeps]
    simp only [htask, true_and, Set.subset_def, Set.mem_ofPred_eq, hlook, Bool.not_eq_true]
  refine ⟨hs, hf, fun node hnode => ?_, fun X hX n hn => ?_⟩
  · obtain ⟨a, ha⟩ := h.lookup_isSome hnode
    have hrun := (isComplete_iff.mp hst).1 node.name
    have hs' := hs node hnode
    have hf' := hf node hnode
    rw [ha] at hs' hf' hrun ⊢
    by_cases hdeps : ∀ dep ∈ node.dependencies, c.run.statuses.lookup dep = some .success
    · have hno : ¬∃ dep ∈ node.dependencies, c.run.statuses.lookup dep ≠ some .success := by
        push Not
        exact hdeps
      cases a with
      | running => exact absurd rfl hrun
      | success => exact iff_of_false (by simp) hno
      | failed => exact iff_of_false (by simp) hno
      | pending =>
          cases ho : o node.name with
          | true => exact absurd (hs'.mpr ⟨ho, hdeps⟩) (by simp)
          | false => exact absurd (hf'.mpr ⟨ho, hdeps⟩) (by simp)
    · have hyes : ∃ dep ∈ node.dependencies, c.run.statuses.lookup dep ≠ some .success := by
        push Not at hdeps
        exact hdeps
      cases a with
      | running => exact absurd rfl hrun
      | success => exact absurd (hs'.mp rfl).2 hdeps
      | failed => exact absurd (hf'.mp rfl).2 hdeps
      | pending => exact iff_of_true rfl hyes
  · have hsub : (PipelineRun.new nodes).graph.succeeds (fun n => o n = true) ⊆ X := by
      refine Graph.succeeds_subset fun m hm ho hd => ?_
      obtain ⟨node, hnode, rfl⟩ := List.mem_map.mp ((new_statuses_keys nodes m).mp hm)
      rw [(mem_graph_new hnd hnode).2] at hd
      exact hX node hnode ho fun dep hdep => hd hdep
    exact hsub ((hlook n).mp hn)

/-- Two runs of the same nodes that are settled for the same outcomes have the same statuses. -/
theorem Settled.unique {run run' : PipelineRun} (h : Settled nodes o run) (h' : Settled nodes o run')
    (hk : ∀ n, n ∈ run.statuses.keys ↔ n ∈ nodes.map NodeInfo.name)
    (hk' : ∀ n, n ∈ run'.statuses.keys ↔ n ∈ nodes.map NodeInfo.name) (hr : run.isComplete = true) :
    run.statuses = run'.statuses := by
  have hsucc : ∀ n, run.statuses.lookup n = some .success ↔ run'.statuses.lookup n = some .success := by
    have hclosed : ∀ {r : PipelineRun}, Settled nodes o r → ∀ node ∈ nodes, o node.name = true →
        (∀ dep ∈ node.dependencies, dep ∈ {n | r.statuses.lookup n = some .success}) →
        node.name ∈ {n | r.statuses.lookup n = some .success} :=
      fun hr node hnode ho hd => (hr.success node hnode).mpr ⟨ho, hd⟩
    exact fun n => ⟨h.least _ (hclosed h') n, h'.least _ (hclosed h) n⟩
  refine Finmap.ext_lookup fun n => ?_
  by_cases hn : n ∈ nodes.map NodeInfo.name
  · obtain ⟨node, hnode, rfl⟩ := List.mem_map.mp hn
    obtain ⟨a, ha⟩ := HashMap.mem_keys_iff_lookup.mp ((hk _).mpr hn)
    have hrun := (isComplete_iff.mp hr).1 node.name
    rw [ha] at hrun ⊢
    symm
    cases a with
    | running => exact absurd rfl hrun
    | success => exact (hsucc _).mp ha
    | failed =>
        refine (h'.failed node hnode).mpr ⟨((h.failed node hnode).mp ha).1, fun dep hdep => ?_⟩
        exact (hsucc dep).mp (((h.failed node hnode).mp ha).2 dep hdep)
    | pending =>
        obtain ⟨dep, hdep, hne⟩ := (h.pending node hnode).mp ha
        exact (h'.pending node hnode).mpr ⟨dep, hdep, fun hs => hne ((hsucc dep).mpr hs)⟩
  · have hnone : ∀ {r : PipelineRun}, (∀ n, n ∈ r.statuses.keys ↔ n ∈ nodes.map NodeInfo.name) →
        r.statuses.lookup n = none := by
      intro r hk
      cases hl : r.statuses.lookup n with
      | none => rfl
      | some a => exact absurd ((hk n).mp (HashMap.mem_keys_iff_lookup.mpr ⟨a, hl⟩)) hn
    rw [hnone hk, hnone hk']

/-- A schedule completes every node at most once, goes on as long as a node is Running and never aborts.
Where no node is Running the run is complete, and its statuses are those that the outcomes lead to,
whatever the order. -/
theorem schedule_confluent (hnd : (nodes.map NodeInfo.name).Nodup) (h₀ : FreshRun nodes c₀)
    (h : Schedule o c₀ done c) :
    done.length ≤ nodes.length ∧
      (∀ n, c.run.statuses.lookup n = some .running → ∃ c', Schedule o c₀ (done ++ [n]) c') ∧
      (∀ n c' aborted, c.run.statuses.lookup n = some .running →
        (handleNodeCompleted n (o n) c).Ends CallsSucceed c' aborted → aborted = false) ∧
      ((∀ n, c.run.statuses.lookup n ≠ some .running) →
        c.run.isComplete = true ∧ Settled nodes o c.run ∧
        ∀ done' c', Schedule o c₀ done' c' → (∀ n, c'.run.statuses.lookup n ≠ some .running) →
          c'.run.statuses = c.run.statuses) := by
  have hkeys : ∀ {done c}, Schedule o c₀ done c → ∀ n, n ∈ c.run.statuses.keys ↔
      n ∈ nodes.map NodeInfo.name := fun h n => by
    rw [← new_statuses_keys]
    exact Finset.ext_iff.mp (congrArg Graph.tasks (h.onBoard h₀).1.1.graph) n
  have hend : ∀ {done c}, Schedule o c₀ done c → (∀ n, c.run.statuses.lookup n ≠ some .running) →
      c.run.isComplete = true ∧ Settled nodes o c.run := fun h hrun => by
    obtain ⟨⟨hboard, hready⟩, _⟩ := h.onBoard h₀
    have hcomplete := isComplete_iff.mpr ⟨hrun, hready⟩
    exact ⟨hcomplete, hboard.settled hnd hcomplete⟩
  obtain ⟨⟨hboard, _⟩, hdistinct, hdone⟩ := h.onBoard h₀
  refine ⟨?_, fun n hn => ?_, fun n c' aborted hn he => ?_, fun hrun => ?_⟩
  · have hsub : done ⊆ nodes.map NodeInfo.name := fun n hn =>
      (hkeys h n).mp (HashMap.mem_keys_iff_lookup.mpr ⟨_, hdone n hn⟩)
    simpa using (hdistinct.subperm hsub).length_le
  · obtain ⟨c', b, he⟩ := Prog.exists_ends callsSucceed_answerable (handleNodeCompleted n (o n) c)
    exact ⟨c', .complete h hn he⟩
  · have hpost := handleNodeCompleted_board hboard h₀.failFast hn (b := o n) rfl
    exact (hpost.ends (fun _ _ _ _ h => h) he).2.2
  · obtain ⟨hcomplete, hsettled⟩ := hend h hrun
    refine ⟨hcomplete, hsettled, fun done' c' h' hrun' => ?_⟩
    obtain ⟨hcomplete', hsettled'⟩ := hend h' hrun'
    exact hsettled'.unique hsettled (hkeys h') (hkeys h) hcomplete'

end Schedules

/-- Both nodes of a pipeline are dispatched and completed, the second one with a failure. -/
theorem buildAndTest_schedule : ∃ c₀ c, FreshRun Pipeline.buildAndTest.nodeInfo c₀ ∧
    Schedule (· = "build") c₀ ["build", "test"] c ∧ c.run.statuses.lookup "test" = some .failed ∧
    ∀ n, c.run.statuses.lookup n ≠ some .running := by
  let c₀ := freshCoordinator .default "run" .buildAndTest
  have h : (dispatchReadyNodes c₀).CanEnd CallsSucceed fun c₁ _ =>
      c₁.run.statuses.lookup "build" = some .running ∧
      (handleNodeCompleted "build" true c₁).CanEnd CallsSucceed fun c₂ _ =>
      c₂.run.statuses.lookup "test" = some .running ∧
      (handleNodeCompleted "test" false c₂).CanEnd CallsSucceed fun c₃ _ =>
      c₃.run.statuses.lookup "test" = some .failed ∧ c₃.run.statuses.anyValue (· = .running) = false := by
    refine .call ⟨["build"], by decide⟩ trivial ?_
    refine .call (.ok ()) rfl ?_
    refine .call (.ok true) rfl ?_
    refine .call ⟨0, 0⟩ trivial ?_
    refine .call (.ok ()) trivial ?_
    refine .call (0 : Nat) trivial ?_
    refine .ret ⟨by decide, ?_⟩
    refine .call (.ok true) rfl ?_
    refine .call (.ok none) trivial ?_
    refine .call (.ok none) trivial ?_
    refine .call ⟨0, 0⟩ trivial ?_
    refine .call (.ok ()) trivial ?_
    refine .call ⟨["test"], by decide⟩ trivial ?_
    refine .call (.ok ()) rfl ?_
    refine .call (.ok true) rfl ?_
    refine .call ⟨0, 0⟩ trivial ?_
    refine .call (.ok ()) trivial ?_
    refine .call (1 : Nat) trivial ?_
    refine .ret ⟨by decide, ?_⟩
    refine .call (.ok true) rfl ?_
    refine .call (.ok none) trivial ?_
    refine .call (.ok none) trivial ?_
    refine .call ⟨0, 0⟩ trivial ?_
    refine .call (.ok ()) trivial ?_
    refine .call ⟨[], by decide⟩ trivial ?_
    exact .ret (by decide)
  obtain ⟨c₁, _, h₁, hb, c₂, _, h₂, ht, c₃, _, h₃, hf, hrun⟩ := h
  refine ⟨c₀, c₃, ⟨rfl, rfl, rfl⟩, ?_, hf, fun n hn => ?_⟩
  · exact .complete (.complete (.start h₁) hb h₂) ht h₃
  · simpa using HashMap.anyValue_eq_false.mp hrun n _ hn

theorem schedule_confluent_buildAndTest : ∃ c₀ c, FreshRun Pipeline.buildAndTest.nodeInfo c₀ ∧
    Schedule (· = "build") c₀ ["build", "test"] c ∧ c.run.isComplete = true ∧
    Settled Pipeline.buildAndTest.nodeInfo (· = "build") c.run := by
  obtain ⟨c₀, c, h₀, h, _, hrun⟩ := buildAndTest_schedule
  have hsettled := (schedule_confluent (by decide) h₀ h).2.2.2 hrun
  exact ⟨c₀, c, h₀, h, hsettled.1, hsettled.2.1⟩

end Jefferies.Coordination
