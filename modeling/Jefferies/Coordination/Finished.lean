import Jefferies.Coordination.Account

/-!
# When a stored run is finished

The state store calls a stored run terminal, and a coordinator calls the run it holds complete. The first
goes through the dependencies and the second through the statuses, so they agree as long as both maps have
the same nodes; every state that is written is one of these.
-/

namespace Jefferies.Coordination

open Pipelines StateStore RunHistory Interaction Monitor Transition Deployment

/-! ## What is written -/

inductive Mark where
  | running (node : String)
  | success (node : String)
  | failed (node : String)
  | dispatchFailed (node : String)

def Mark.apply (run : PipelineRun) : Mark → PipelineRun
  | .running node => (run.markRunning node).2
  | .success node => (run.markSuccess node).2
  | .failed node => (run.markFailed node).2
  | .dispatchFailed node => (run.markDispatchFailed node).2

/-- The run after the marks, the first one first. -/
def PipelineRun.marked (run : PipelineRun) (marks : List Mark) : PipelineRun := marks.foldl Mark.apply run

/-- The states that are ever written: of a new run, of a stored run that was resumed, each with some marks,
and the states that are built from the rows of a run. -/
inductive Written : RunState → Prop
  | started (nodes : List NodeInfo) (marks : List Mark) (version : Nat) (pipeline : Pipeline) :
      Written (((PipelineRun.new nodes).marked marks).toRunState version pipeline)
  | resumed {state : RunState} (h : Written state) (marks : List Mark) (version : Nat) (pipeline : Pipeline) :
      Written (((PipelineRun.fromRunState state).marked marks).toRunState version pipeline)
  | reconstructed (pipeline : Pipeline) (nodeRunsByName : HashMap String NodeRunRow) :
      Written (reconstructRunStateFromPostgres pipeline nodeRunsByName)

/-! ## The nodes of both maps -/

namespace PipelineRun

/-- Every node has a status and dependencies. -/
def Whole (run : PipelineRun) : Prop := run.statuses.keys = run.dependencies.keys

theorem Whole.of_marks {run run' : PipelineRun} {node : String} {status : NodeStatus} (h : run.Whole)
    (hm : Marks run run' node status) : run'.Whole := by
  rw [Whole, hm.keys, hm.dependencies]
  exact h

theorem Whole.apply {run : PipelineRun} (h : run.Whole) (mark : Mark) : (mark.apply run).Whole := by
  cases mark with
  | running node => exact h.of_marks (marks_markRunning run node)
  | success node => exact h.of_marks (marks_markSuccess run node)
  | failed node => exact h.of_marks (marks_markFailed run node)
  | dispatchFailed node => exact h.of_marks (marks_markDispatchFailed run node)

theorem Whole.marked {run : PipelineRun} (h : run.Whole) (marks : List Mark) : (run.marked marks).Whole := by
  induction marks generalizing run with
  | nil => exact h
  | cons mark marks ih => exact ih (h.apply mark)

theorem whole_new (nodes : List NodeInfo) : (new nodes).Whole := by
  ext name
  simp [new, HashMap.mem_keys_ofList]

theorem whole_fromRunState {state : RunState} (h : state.statuses.keys = state.dependencies.keys) :
    (fromRunState state).Whole := by
  simp only [Whole, fromRunState, HashMap.keys_mapValues]
  exact h

end PipelineRun

theorem reconstructed_keys (pipeline : Pipeline) (nodeRunsByName : HashMap String NodeRunRow) :
    (reconstructRunStateFromPostgres pipeline nodeRunsByName).statuses.keys =
      (reconstructRunStateFromPostgres pipeline nodeRunsByName).dependencies.keys := by
  ext name
  simp [reconstructRunStateFromPostgres, HashMap.mem_keys_ofList]

theorem Written.keys {state : RunState} (h : Written state) :
    state.statuses.keys = state.dependencies.keys := by
  induction h with
  | started nodes marks version pipeline => exact (PipelineRun.whole_new nodes).marked marks
  | resumed _ marks version pipeline ih => exact (PipelineRun.whole_fromRunState ih).marked marks
  | reconstructed pipeline nodeRunsByName => exact reconstructed_keys pipeline nodeRunsByName

/-! ## Both notions -/

/-- A node is dispatchable for the store where it is ready for the coordinator. -/
theorem hasDispatchable_iff {state : RunState} (h : state.statuses.keys = state.dependencies.keys) :
    hasDispatchable state = true ↔ ∃ node, node ∈ (PipelineRun.fromRunState state).readyNodes := by
  have hdeps : ∀ node, ((state.dependencies.lookup node).getD []).all (succeeded state.statuses) = true ↔
      ∀ dep ∈ (PipelineRun.fromRunState state).depsOf node, state.statuses.lookup dep = some .success := by
    intro node
    simp [PipelineRun.mem_depsOf_fromRunState]
  simp only [hasDispatchable, decide_eq_true_eq, PipelineRun.mem_readyNodes, hdeps,
    PipelineRun.fromRunState_statuses]
  constructor
  · intro ⟨node, _, hpending, hall⟩
    exact ⟨node, hpending, hall⟩
  · intro ⟨node, hpending, hall⟩
    have hkey : node ∈ state.dependencies.keys := by
      rw [← h]
      exact HashMap.mem_keys_iff_lookup.mpr ⟨_, hpending⟩
    exact ⟨node, hkey, hpending, hall⟩

theorem terminal_eq_complete {state : RunState} (h : state.statuses.keys = state.dependencies.keys) :
    runStateIsTerminal state = (PipelineRun.fromRunState state).isComplete := by
  unfold runStateIsTerminal PipelineRun.isComplete
  rw [PipelineRun.fromRunState_statuses]
  cases state.statuses.anyValue (· = .running) with
  | true => rfl
  | false =>
      have hnone : hasDispatchable state = false ↔ (PipelineRun.fromRunState state).readyNodes = ∅ := by
        rw [← Bool.not_eq_true, hasDispatchable_iff h, ← Finset.not_nonempty_iff_eq_empty]
        rfl
      cases hd : hasDispatchable state with
      | true => simp [← hnone, hd]
      | false => simp [hnone.mp hd]

/-- A written state is terminal for the store exactly when a coordinator that resumes it has nothing to do. -/
theorem Written.finished {state : RunState} (h : Written state) :
    state.statuses.keys = state.dependencies.keys ∧
      runStateIsTerminal state = (PipelineRun.fromRunState state).isComplete :=
  ⟨h.keys, terminal_eq_complete h.keys⟩

/-- After the first node of two the store and a coordinator go on. -/
theorem Written.finished_after_build : let state := ((PipelineRun.new Pipeline.buildAndTest.nodeInfo).marked
      [.running "build", .success "build"]).toRunState 2 .buildAndTest
    state.statuses.keys = state.dependencies.keys ∧
      runStateIsTerminal state = (PipelineRun.fromRunState state).isComplete :=
  (Written.started _ _ _ _).finished

/-! ## What the servers write -/

/-- The run of a coordinator: a new one or a stored one that was resumed, after some marks. -/
def PipelineRun.Held (run : PipelineRun) : Prop :=
  (∃ nodes marks, run = (PipelineRun.new nodes).marked marks) ∨
    ∃ state marks, Written state ∧ run = (PipelineRun.fromRunState state).marked marks

theorem PipelineRun.marked_append (run : PipelineRun) (marks : List Mark) (mark : Mark) :
    run.marked (marks ++ [mark]) = mark.apply (run.marked marks) := List.foldl_append

namespace PipelineRun.Held

variable {run : PipelineRun}

theorem apply (h : run.Held) (mark : Mark) : (mark.apply run).Held := by
  rcases h with ⟨nodes, marks, rfl⟩ | ⟨state, marks, hw, rfl⟩
  · exact Or.inl ⟨nodes, marks ++ [mark], (marked_append _ _ _).symm⟩
  · exact Or.inr ⟨state, marks ++ [mark], hw, (marked_append _ _ _).symm⟩

theorem written (h : run.Held) (version : Nat) (pipeline : Pipeline) :
    Written (run.toRunState version pipeline) := by
  rcases h with ⟨nodes, marks, rfl⟩ | ⟨state, marks, hw, rfl⟩
  · exact Written.started nodes marks version pipeline
  · exact Written.resumed hw marks version pipeline

end PipelineRun.Held

/-- Processes that load written states save written states. -/
def writing : Monitor Unit Local Input Resp where
  assume _
    | .answered _ (.loadRun _) (.ok (some state)) => Written state
    | _ => True
  ok _ _
    | .saveRun _ state _ => Written state
    | .spawnCoordinator c => c.run.Held
    | _ => True
  next _ _ := ()

def writingCoordinator : Keeps (writing.comap .coordinator .event) where
  live _ c := c.run.Held
  done _ _ := True
  told _ _ _ := True
  started _ _ := True
  read _ _ := True
  told_next _ _ _ _ _ := trivial
  started_next _ _ _ _ := trivial
  read_next _ _ _ _ := trivial
  receive _ _ _ hl _ := ⟨hl, fun _ _ _ => trivial⟩
  outcomes _ _ _ _ _ _ := ⟨fun _ _ _ _ _ => trivial, fun _ _ _ => trivial⟩
  outcome _ _ _ _ _ _ _ := trivial
  frame _ _ _ _ hl := hl
  success _ _ n hl _ := hl.apply (.success n)
  failed _ _ n hl := hl.apply (.failed n)
  promoted _ _ n hl _ := hl.apply (.running n)
  quiet γ c e hl he := by
    cases he <;> exact ⟨trivial, fun _ _ => hl⟩
  record _ _ _ hl _ _ := ⟨trivial, fun _ _ => hl⟩
  save γ c hl := by
    refine ⟨hl.written _ _, fun r _ => ?_⟩
    rcases r with e | b
    · exact hl
    · cases b <;> exact hl
  dispatch γ c n info metadata hl _ _ := by
    refine ⟨trivial, fun r _ => ?_⟩
    cases r with
    | ok _ => exact hl.apply (.running n)
    | error e => exact hl.apply (.dispatchFailed n)
  finalize _ _ _ _ _ _ := ⟨trivial, fun _ _ => trivial⟩
  doneFrame _ _ _ _ _ := trivial
  closing γ c e _ he := by
    cases he <;> exact ⟨trivial, fun _ _ => trivial⟩

def writingTask (services : Services) : Serves (writing.comap (fun _ => .task) .tick) services where
  live _ := True
  source _ _ _ _ := True
  row _ _ _ := True
  loaded _ _ st := Written st
  absent _ _ := True
  holds _ _ _ _ := True
  nodes _ _ _ := True
  reported _ _ _ _ := True
  source_next _ _ _ _ _ _ := trivial
  row_next _ _ _ _ _ := trivial
  nodes_next _ _ _ _ _ := trivial
  reported_next _ _ _ _ _ _ := trivial
  loaded_next _ _ _ _ _ _ h := h
  absent_next _ _ _ _ _ _ := trivial
  holds_next _ _ _ _ _ _ _ _ := trivial
  source_loaded _ _ _ _ _ _ := trivial
  source_parsed _ _ _ _ _ _ := trivial
  nodes_insert _ _ _ _ _ _ _ _ _ _ _ := trivial
  tick _ _ _ _ := trivial
  aside γ e _ he := by
    cases he <;> exact ⟨trivial, fun _ _ => trivial⟩
  load γ r _ := by
    refine ⟨trivial, fun a ha => ⟨trivial, ?_, fun _ => trivial⟩⟩
    intro st heq
    subst heq
    exact ha
  getRow _ _ _ _ _ := ⟨trivial, fun _ _ => ⟨trivial, fun _ _ => trivial⟩⟩
  listRows _ _ := ⟨trivial, fun _ _ => ⟨trivial, fun _ _ _ _ => trivial⟩⟩
  listNodes _ _ _ _ _ := ⟨trivial, fun _ _ => ⟨trivial, fun _ _ => trivial⟩⟩
  outcome _ _ _ _ _ _ := ⟨trivial, fun _ _ => ⟨trivial, fun _ _ _ _ => trivial⟩⟩
  recordNode _ _ _ _ := ⟨trivial, fun _ _ => trivial⟩
  finalizeLoaded _ _ _ _ _ _ := ⟨trivial, fun _ _ => trivial⟩
  finalizeNodes _ _ _ _ _ _ _ _ _ _ _ _ := ⟨trivial, fun _ _ => trivial⟩
  saveReconstructed _ _ _ p b _ _ _ _ _ := ⟨Written.reconstructed p b, fun _ _ => trivial⟩
  acquire _ _ _ _ := ⟨trivial, fun _ _ => ⟨trivial, fun _ _ => trivial⟩⟩
  started _ _ _ _ _ _ := ⟨trivial, fun _ _ => trivial⟩
  saveNew _ _ p _ _ _ _ := ⟨Written.started p.nodeInfo [] 0 p, fun _ _ => trivial⟩
  spawnLoaded γ r p x s v st reporter watcher c _ _ _ hloaded hc := by
    subst hc
    exact ⟨Or.inr ⟨st, [], hloaded, rfl⟩, fun _ _ => trivial⟩
  spawnNew γ r p x s v reporter watcher c _ _ _ hc := by
    subst hc
    exact ⟨Or.inl ⟨p.nodeInfo, [], rfl⟩, fun _ _ => trivial⟩

def writingDiscipline (d : Deployment) : Discipline d Unit where
  monitor := writing
  coordinator := writingCoordinator
  task := writingTask d.services

/-- Every stored state is a written one. -/
def World.Holding (w : World) : Prop := ∀ r state, w.store.runs.lookup r = some state → Written state

theorem World.Holding.assume {parseRunId : String → Option String} {w : World} (h : w.Holding) {s : Local}
    {e : Effect} {reply : Reply} {a : Resp e × World} (ha : respond parseRunId w e reply = some a) :
    writing.assume () (.answered s e a.1) := by
  cases e with
  | loadRun r =>
      rcases World.storeOp_cases ha with ⟨_, rfl⟩ | ⟨_, _, _, rfl⟩
      · cases hl : w.store.runs.lookup r with
        | none => simp [writing, RedisStateStore.loadRun, hl]
        | some state => simpa [writing, RedisStateStore.loadRun, hl] using h r state hl
      · trivial
  | _ => trivial

theorem World.Holding.answered {parseRunId : String → Option String} {w : World} (h : w.Holding) {s : Local}
    {e : Effect} {reply : Reply} {a : Resp e × World} (hok : writing.ok () s e)
    (ha : respond parseRunId w e reply = some a) : a.2.Holding := by
  intro r state hl
  rcases respond_runs_cases ha hl with hl | ⟨expected, rfl⟩
  · exact h r state hl
  · exact hok

def writingAccount (d : Deployment) : Account (writingDiscipline d) Unit where
  start := ()
  answered _ _ _ _ _ _ := ()
  outside _ _ _ := ()
  inv _ w _ := w.Holding
  rel _ _ _ _ := True
  inv_start r state h := by cases h
  received _ _ := ⟨trivial, trivial⟩
  own hinv _ _ hok ha := ⟨hinv.assume ha, hinv.answered hok ha, trivial⟩
  others _ _ _ _ _ _ _ := trivial
  spawn _ _ _ hok _ := ⟨(), hok, trivial⟩
  around hinv ha := by
    refine ⟨fun r state h => hinv r state ?_, fun _ _ _ _ => trivial⟩
    rwa [outside_runs ha] at h
  launch _ _ _ := ⟨(), trivial, trivial, trivial⟩
  reaper _ := ⟨(), trivial, trivial⟩

/-- In every run of the servers, every stored state is a written one. -/
theorem stored_written {d : Deployment} {h : List Event} {σ : Servers} (hr : d.Runs h σ) {r : String}
    {state : RunState} (hs : σ.world.store.runs.lookup r = some state) : Written state :=
  (writingAccount d).inv_after hr r state hs

/-- A sweep lists a stored run as terminal exactly when a coordinator that takes it up finds it complete. -/
theorem stored_finished {d : Deployment} {h : List Event} {σ : Servers} (hr : d.Runs h σ) {r : String}
    {state : RunState} (hs : σ.world.store.runs.lookup r = some state) :
    runStateIsTerminal state = (PipelineRun.fromRunState state).isComplete :=
  terminal_eq_complete (stored_written hr hs).keys

end Jefferies.Coordination
