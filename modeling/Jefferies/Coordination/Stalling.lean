import Jefferies.Coordination.Run
import Jefferies.Pipelines.Validate
import Mathlib.Data.String.Basic

/-!
# Stalling

A run stalls when it is complete and no node has failed, but some node was never executed. Whether runs of
a pipeline can stall depends on whether its nodes wait for each other in a cycle.
-/

namespace Jefferies.Coordination

open Pipelines StateStore Scheduling PipelineRun Relation

/-- The states of a run that are reached by dispatching nodes that are ready and completing nodes that are
Running. -/
inductive Reachable (nodes : List NodeInfo) : PipelineRun → Prop
  | new : Reachable nodes (.new nodes)
  | dispatch {run n} : Reachable nodes run → n ∈ run.readyNodes → Reachable nodes (run.markRunning n).2
  | success {run n} : Reachable nodes run → run.statuses.lookup n = some .running →
      Reachable nodes (run.markSuccess n).2
  | failure {run n} : Reachable nodes run → run.statuses.lookup n = some .running →
      Reachable nodes (run.markFailed n).2

/-- A complete run without a Failed node has only Success nodes. -/
def NeverStalls (pipeline : Pipeline) : Prop :=
  ∀ run, Reachable pipeline.nodeInfo run → run.isComplete = true →
    (∀ n, run.statuses.lookup n ≠ some .failed) →
    ∀ node ∈ pipeline.nodes, run.statuses.lookup node.name = some .success

/-- The node that counts under a name: of several nodes with this name the last. -/
def nodeNamed (pipeline : Pipeline) (name : String) : Option PipelineNode :=
  pipeline.nodes.reverse.find? fun node => node.name = name

/-- The node named `n` lists `dep` in its `after`. -/
def WaitsFor (pipeline : Pipeline) (n dep : String) : Prop :=
  ∃ node, nodeNamed pipeline n = some node ∧ dep ∈ node.after

/-- No node waits for itself, directly or through others. -/
def NoCycle (pipeline : Pipeline) : Prop := ∀ n, ¬TransGen (WaitsFor pipeline) n n

/-! ## The graph of a pipeline -/

variable {pipeline : Pipeline} {nodes : List NodeInfo} {run : PipelineRun}

theorem mem_tasks_new (n : String) :
    n ∈ (PipelineRun.new pipeline.nodeInfo).graph.tasks ↔ n ∈ pipeline.nodes.map PipelineNode.name := by
  rw [← Pipeline.nodeInfo_names]
  exact new_statuses_keys _ _

/-- The dependencies that a new run has for a name are those of the node that counts. -/
theorem mem_depsOf_nodeInfo {n dep : String} :
    dep ∈ (PipelineRun.new pipeline.nodeInfo).depsOf n ↔ WaitsFor pipeline n dep := by
  have hlook : (PipelineRun.new pipeline.nodeInfo).dependencies.lookup n =
      (nodeNamed pipeline n).map fun node => node.after.dedup := by
    simp only [PipelineRun.new, HashMap.lookup_ofList, Pipeline.nodeInfo, List.map_map, ← List.map_reverse,
      List.find?_map, Option.map_map, nodeNamed]
    rfl
  rw [depsOf, hlook, WaitsFor]
  cases nodeNamed pipeline n <;> simp

theorem nodeNamed_mem {n : String} {node : PipelineNode} (h : nodeNamed pipeline n = some node) :
    node ∈ pipeline.nodes ∧ node.name = n :=
  ⟨List.mem_reverse.mp (List.mem_of_find?_eq_some h), by simpa using List.find?_some h⟩

theorem graph_waitsFor (n dep : String) :
    (PipelineRun.new pipeline.nodeInfo).graph.WaitsFor n dep ↔ WaitsFor pipeline n dep := by
  have hdeps : dep ∈ (PipelineRun.new pipeline.nodeInfo).graph.deps n ↔ WaitsFor pipeline n dep :=
    mem_depsOf_nodeInfo
  refine ⟨fun h => hdeps.mp h.2, fun h => ⟨?_, hdeps.mpr h⟩⟩
  obtain ⟨node, hnode, _⟩ := h
  obtain ⟨hmem, rfl⟩ := nodeNamed_mem hnode
  exact (mem_tasks_new _).mpr (List.mem_map.mpr ⟨node, hmem, rfl⟩)

theorem noCycle_iff : NoCycle pipeline ↔ (PipelineRun.new pipeline.nodeInfo).graph.Acyclic := by
  have heq : (PipelineRun.new pipeline.nodeInfo).graph.WaitsFor = WaitsFor pipeline :=
    funext fun n => funext fun dep => propext (graph_waitsFor n dep)
  rw [NoCycle, Graph.Acyclic, heq]

/-! ## Runs and boards -/

theorem board_new (nodes : List NodeInfo) : (PipelineRun.new nodes).board = fun _ => .waiting := by
  funext n
  rw [board]
  cases hn : (PipelineRun.new nodes).statuses.lookup n with
  | none => rfl
  | some a => rw [new_lookup hn]; rfl

theorem mem_keys_of_running {n : String} {a : NodeStatus} (h : run.statuses.lookup n = some a) :
    n ∈ run.graph.tasks := HashMap.mem_keys_iff_lookup.mpr ⟨a, h⟩

theorem markRunning_ready {n : String} (h : n ∈ run.readyNodes) :
    (run.markRunning n).2 = { run with statuses := run.statuses.insert n .running } := by
  simp [markRunning, (mem_readyNodes.mp h).1]

theorem markSuccess_running {n : String} (h : run.statuses.lookup n = some .running) :
    (run.markSuccess n).2 = { run with statuses := run.statuses.insert n .success } := by
  simp [markSuccess, h]

theorem Reachable.graph (h : Reachable nodes run) : run.graph = (PipelineRun.new nodes).graph := by
  induction h with
  | new => rfl
  | dispatch _ _ ih => rw [(marks_markRunning _ _).graph, ih]
  | success _ _ ih => rw [(marks_markSuccess _ _).graph, ih]
  | failure _ _ ih => rw [(marks_markFailed _ _).graph, ih]

/-- Every reachable run shows a board that the graph reaches. -/
theorem Reachable.board (h : Reachable nodes run) :
    (PipelineRun.new nodes).graph.Reach (fun _ _ => True) run.board := by
  induction h with
  | new =>
      rw [board_new]
      exact .refl
  | @dispatch run n hr hn ih =>
      rw [markRunning_ready hn, board_update]
      obtain ⟨hpend, hdeps⟩ := mem_readyNodes.mp hn
      refine ih.tail (.start ?_ ?_ ?_)
      · rw [← hr.graph]
        exact mem_keys_of_running hpend
      · simp [PipelineRun.board, hpend, phase]
      · rw [← hr.graph]
        exact board_free_iff.mpr hdeps
  | @success run n _ hn ih =>
      rw [markSuccess_running hn, board_update]
      exact ih.tail (@Graph.Step.finish _ _ _ _ _ n true (by simp [PipelineRun.board, hn, phase]) trivial)
  | @failure run n _ hn ih =>
      rw [markFailed_running hn, board_update]
      exact ih.tail (@Graph.Step.finish _ _ _ _ _ n false (by simp [PipelineRun.board, hn, phase]) trivial)

/-- Every board that the graph reaches is shown by a reachable run. -/
theorem exists_reachable {b : Board String} (h : (PipelineRun.new nodes).graph.Reach (fun _ _ => True) b) :
    ∃ run, Reachable nodes run ∧ run.board = b := by
  induction h with
  | refl => exact ⟨_, .new, board_new nodes⟩
  | tail _ hs ih =>
      obtain ⟨run, hr, rfl⟩ := ih
      cases hs with
      | @start n hn hw hf =>
          rw [← hr.graph] at hn hf
          obtain ⟨a, ha⟩ := HashMap.mem_keys_iff_lookup.mp hn
          have hpend : run.statuses.lookup n = some .pending := by
            rw [PipelineRun.board, ha] at hw
            rw [ha]
            cases a <;> simp [phase] at hw ⊢
          have hready : n ∈ run.readyNodes := mem_readyNodes.mpr ⟨hpend, board_free_iff.mp hf⟩
          exact ⟨_, .dispatch hr hready, by rw [markRunning_ready hready, board_update]; rfl⟩
      | @finish n ok hrun _ =>
          have hrun' := phase_eq_running.mp hrun
          cases ok with
          | true => exact ⟨_, .success hr hrun', by rw [markSuccess_running hrun', board_update]; rfl⟩
          | false => exact ⟨_, .failure hr hrun', by rw [markFailed_running hrun', board_update]; rfl⟩

/-! ## When runs cannot stall -/

theorem neverStalls_iff (hdeps : ∀ node ∈ pipeline.nodes, ∀ dep ∈ node.after,
    dep ∈ pipeline.nodes.map PipelineNode.name) : NeverStalls pipeline ↔ NoCycle pipeline := by
  have hknown : ∀ n ∈ (PipelineRun.new pipeline.nodeInfo).graph.tasks,
      (PipelineRun.new pipeline.nodeInfo).graph.deps n ⊆ (PipelineRun.new pipeline.nodeInfo).graph.tasks := by
    intro n _ dep hdep
    obtain ⟨node, hnode, hafter⟩ := mem_depsOf_nodeInfo.mp hdep
    exact (mem_tasks_new dep).mpr (hdeps node (nodeNamed_mem hnode).1 dep hafter)
  rw [noCycle_iff, ← Graph.all_succeed_iff_acyclic hknown]
  constructor
  · intro h b hb hst hfail n hn
    obtain ⟨run, hr, rfl⟩ := exists_reachable hb
    have hcomplete : run.isComplete = true := isComplete_iff_stalled.mpr (by rwa [hr.graph])
    obtain ⟨node, hnode, rfl⟩ := List.mem_map.mp ((mem_tasks_new n).mp hn)
    exact phase_eq_succeeded.mpr
      (h run hr hcomplete (fun m hm => hfail m (phase_eq_failed.mpr hm)) node hnode)
  · intro h run hr hcomplete hfail node hnode
    have hst := isComplete_iff_stalled.mp hcomplete
    rw [hr.graph] at hst
    refine phase_eq_succeeded.mp (h run.board hr.board hst (fun m hm => ?_) node.name ?_)
    · exact hfail m (phase_eq_failed.mp hm)
    · exact (mem_tasks_new _).mpr (List.mem_map.mpr ⟨node, hnode, rfl⟩)

/-- The runs of an accepted pipeline never stall exactly when its nodes do not wait in a cycle. -/
theorem accepted_neverStalls_iff {serde : String → Except String Pipeline}
    {order : HashMap.IterOrder String String} {yaml : String}
    (h : Pipeline.fromYaml serde order yaml = .ok pipeline) : NeverStalls pipeline ↔ NoCycle pipeline :=
  neverStalls_iff fun node hnode dep hdep => (dependencies_known h node hnode dep hdep).2

theorem accepted_neverStalls_iff_buildAndTest : NeverStalls .buildAndTest ↔ NoCycle .buildAndTest :=
  accepted_neverStalls_iff
    (show Pipeline.fromYaml (reads Pipeline.buildAndTestYaml .buildAndTest) .sorted Pipeline.buildAndTestYaml = .ok _
      by simp only [Pipeline.fromYaml, reads, if_true]; rfl)

/-- Two nodes that wait for each other. -/
def mutualWait : Pipeline := .plain "ci" [.plain "lint" ["test"], .plain "test" ["lint"]]

/-- The document that declares them. -/
def mutualWaitYaml : String :=
  "name: ci\nnodes:\n- name: lint\n  after: [test]\n  steps: [make]\n- name: test\n  after: [lint]\n  steps: [make]\n"

/-- The validators accept two nodes that wait for each other, and their run is complete from the start. -/
theorem mutualWait_stalls :
    Pipeline.fromYaml (reads mutualWaitYaml mutualWait) .sorted mutualWaitYaml = .ok mutualWait ∧
      ¬NeverStalls mutualWait := by
  refine ⟨by simp only [Pipeline.fromYaml, reads, if_true]; rfl, fun h => ?_⟩
  have hs := h (.new mutualWait.nodeInfo) .new (by decide) (fun n hn => by simpa using new_lookup hn)
    (.plain "lint" ["test"]) (by simp [mutualWait, Pipeline.plain])
  simpa using new_lookup hs

end Jefferies.Coordination
