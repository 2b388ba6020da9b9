import Mathlib.Data.Set.Insert
import Jefferies.Coordination.Invariant

/-!
# Dependency order

In a run that is in order, every node that runs or has succeeded has only dependencies that have succeeded.
A coordinator keeps its run in order, and dispatches in that order, as long as completions are reported for
nodes that may have been executed.
-/

namespace Jefferies.Coordination

open Pipelines StateStore RunHistory Interaction Coordinator

namespace PipelineRun

/-- All dependencies of the node are Success. -/
def Unblocked (run : PipelineRun) (node : String) : Prop :=
  ∀ dep ∈ run.depsOf node, run.statuses.lookup dep = some .success

/-- Each Running or Success node has only Success dependencies. -/
def Ordered (run : PipelineRun) : Prop :=
  ∀ node, run.statuses.lookup node = some .running ∨ run.statuses.lookup node = some .success →
    run.Unblocked node

variable {run run' : PipelineRun} {n m : String} {a : NodeStatus}

theorem Unblocked.marks (h : run.Unblocked m) (hm : Marks run run' n a) : run'.Unblocked m := by
  intro dep hdep
  rw [hm.depsOf] at hdep
  exact hm.success_stays (h dep hdep)

theorem Ordered.marks (h : run.Ordered) (hm : Marks run run' n a)
    (hn : a = .running ∨ a = .success → run.Unblocked n) : run'.Ordered := by
  intro m hs
  have hcases : (run.statuses.lookup m = some .running ∨ run.statuses.lookup m = some .success) ∨
      (m = n ∧ (a = .running ∨ a = .success)) := by
    rcases hs with hs | hs
    · rcases hm.lookup_eq hs with h | ⟨rfl, rfl⟩
      · exact Or.inl (Or.inl h)
      · exact Or.inr ⟨rfl, Or.inl rfl⟩
    · rcases hm.lookup_eq hs with h | ⟨rfl, rfl⟩
      · exact Or.inl (Or.inr h)
      · exact Or.inr ⟨rfl, Or.inr rfl⟩
  rcases hcases with hold | ⟨rfl, ha⟩
  · exact (h m hold).marks hm
  · exact (hn ha).marks hm

theorem ordered_new (nodes : List NodeInfo) : (new nodes).Ordered := by
  intro n h
  rcases h with h | h <;> exact absurd (new_lookup h) (by simp)

theorem unblocked_of_ready (h : n ∈ run.readyNodes) : run.Unblocked n := (mem_readyNodes.mp h).2

end PipelineRun

open PipelineRun

/-- The outcome reports the node as completed or as started. -/
def Reports (outcomes : HashMap String ReconcileResult) (node : String) : Prop :=
  (∃ success startedAtMs finishedAtMs,
    outcomes.lookup node = some (.completed success startedAtMs finishedAtMs)) ∨
  ∃ startedAtMs, outcomes.lookup node = some (.inProgress startedAtMs)

/-- The watcher knows the nodes that may have been executed. It assumes that completions are reported only
for them, and adds every node that is dispatched. -/
def dispatchedFirst : Monitor (Set String) Coordinator LoopEvent Resp where
  assume executed
    | .received _ (.backplane (some (.nodeCompleted node _))) => node ∈ executed
    | .answered _ (.readOutcomes _ _) (some outcomes) => ∀ node, Reports outcomes node → node ∈ executed
    | _ => True
  ok _ c
    | .dispatch _ _ node _ => c.run.Ordered ∧ c.run.Unblocked node.name
    | _ => c.run.Ordered
  next executed
    | .answered _ (.dispatch _ _ node _) _ => insert node.name executed
    | _ => executed

/-- The run is in order, and so is every node that may have been executed. -/
def InOrder (executed : Set String) (c : Coordinator) : Prop :=
  c.run.Ordered ∧ NamesAgree c.nodeInfoCache ∧ ∀ node ∈ executed, c.run.Unblocked node

theorem InOrder.marks {executed : Set String} {c : Coordinator} {run : PipelineRun} {n : String}
    {a : NodeStatus} (h : InOrder executed c) (hm : Marks c.run run n a)
    (hn : a = .running ∨ a = .success → c.run.Unblocked n) : InOrder executed (c.setRun run) :=
  ⟨h.1.marks hm hn, h.2.1, fun node hnode => (h.2.2 node hnode).marks hm⟩

theorem InOrder.afterSave {executed : Set String} {c : Coordinator} (h : InOrder executed c)
    (r : Except StateStoreError Bool) : InOrder executed (afterSave c r) := by
  rcases r with _ | _ | _ <;> exact h

/-- After a dispatch the node may have been executed, and it was ready. -/
theorem InOrder.afterDispatch {executed : Set String} {c : Coordinator} {n : String}
    (h : InOrder executed c) (hn : n ∈ c.run.readyNodes) (r : Except DispatchError Unit) :
    InOrder (insert n executed) (afterDispatch c n r) := by
  have hfree := unblocked_of_ready hn
  have h' : InOrder (insert n executed) c := by
    refine ⟨h.1, h.2.1, fun node hnode => ?_⟩
    rcases Set.mem_insert_iff.mp hnode with rfl | hnode
    · exact hfree
    · exact h.2.2 node hnode
  rcases r with e | ⟨⟩
  · exact h'.marks (marks_markDispatchFailed _ _) fun _ => hfree
  · exact h'.marks (marks_markRunning _ _) fun _ => hfree

def keepsOrder : Keeps dispatchedFirst where
  live := InOrder
  done _ c := c.run.Ordered
  told executed node _ := node ∈ executed
  started executed node := node ∈ executed
  read _ _ := True
  told_next executed m node _ h := by
    rcases m with ⟨_, e, _⟩ | _
    · cases e <;> first | exact h | exact Set.mem_insert_of_mem _ h
    · exact h
  started_next executed m node h := by
    rcases m with ⟨_, e, _⟩ | _
    · cases e <;> first | exact h | exact Set.mem_insert_of_mem _ h
    · exact h
  read_next _ _ _ _ := trivial
  receive executed c i hl ha := by
    refine ⟨hl, ?_⟩
    rintro n b rfl
    exact ha
  outcomes executed c nodes m hl ha :=
    ⟨fun n b s f h => ha n (Or.inl ⟨b, s, f, h⟩), fun n s h => ha n (Or.inr ⟨s, h⟩)⟩
  outcome _ _ _ _ _ _ _ := trivial
  frame _ _ _ _ hl := hl
  success executed c n hl ht := hl.marks (marks_markSuccess _ _) fun _ => hl.2.2 n ht
  failed executed c n hl := hl.marks (marks_markFailed _ _) (by simp)
  promoted executed c n hl hs := hl.marks (marks_markRunning _ _) fun _ => hl.2.2 n hs
  quiet executed c e hl he := by cases he <;> exact ⟨hl.1, fun _ _ => hl⟩
  record executed c rec hl _ _ := ⟨hl.1, fun _ _ => hl⟩
  save executed c hl := ⟨hl.1, fun r _ => hl.afterSave r⟩
  dispatch executed c n info metadata hl hn hinfo := by
    have hname := hl.2.1 n info hinfo
    subst hname
    exact ⟨⟨hl.1, unblocked_of_ready hn⟩, fun r _ => hl.afterDispatch hn r⟩
  finalize executed c status t hl _ := ⟨hl.1, fun _ _ => hl.1⟩
  doneFrame _ _ _ _ hd := hd
  closing executed c e hd he := by cases he <;> exact ⟨hd, fun _ _ => hd⟩

/-! ## Dispatching in order -/

/-- The coordinator starts with a new run, or rehydrates a stored state that is in order. -/
def StartsInOrder (c : Coordinator) : Prop :=
  c.nodeInfoCache = nodeInfoCacheOf c.pipeline.nodeInfo ∧
    (c.run = .new c.pipeline.nodeInfo ∨ ∃ state, c.run = .fromRunState state ∧ (fromRunState state).Ordered)

theorem StartsInOrder.inOrder {c : Coordinator} (h : StartsInOrder c) :
    InOrder {node | c.run.Unblocked node} c := by
  refine ⟨?_, ?_, fun _ hnode => hnode⟩
  · rcases h.2 with hrun | ⟨state, hrun, hst⟩
    · rw [hrun]
      exact ordered_new _
    · rw [hrun]
      exact hst
  · rw [h.1]
    exact namesAgree_nodeInfoCacheOf _

/-- Every call of `dispatch` is made when all dependencies of its node are Success, and in every state of
the coordinator the run is in order. -/
theorem dispatch_in_order {c : Coordinator} (hc : StartsInOrder c)
    {tr : List (Moment Coordinator LoopEvent Resp)} {q : Prog Coordinator Resp (Option RunSummary)}
    (he : Exec handleEvent (start c) tr q)
    (ha : dispatchedFirst.Assumed {node | c.run.Unblocked node} tr) :
    (∀ runId metadata node pipeline, q.pending = some (.dispatch runId metadata node pipeline) →
      q.state.run.Unblocked node.name) ∧ q.state.run.Ordered := by
  have h := keepsOrder.execution hc.inOrder he ha
  cases q with
  | ret s r =>
      refine ⟨fun _ _ _ _ hp => absurd hp (by simp [Prog.pending]), ?_⟩
      cases r with
      | none => exact h.1
      | some summary => exact h.elim (fun hl => hl.1) id
  | call s e k =>
      have hok := h.1
      cases e with
      | dispatch runId metadata node pipeline =>
          refine ⟨fun _ _ _ _ hp => ?_, hok.1⟩
          cases hp
          exact hok.2
      | _ => exact ⟨fun _ _ _ _ hp => absurd hp (by simp [Prog.pending]), hok⟩

/-- The second node of a pipeline is dispatched once the first one has completed. -/
theorem dispatch_in_order_buildAndTest :
    ∃ q : Prog Coordinator Resp (Option RunSummary),
      (∃ runId metadata pipeline, q.pending = some (.dispatch runId metadata
        (Pipeline.buildAndTest.infoOf (.plain "test" ["build"])) pipeline)) ∧
      q.state.run.Unblocked "test" := by
  let c := freshCoordinator .default "run" .buildAndTest
  have h : dispatchedFirst.Leads handleEvent {node | c.run.Unblocked node} (start c) fun _ q =>
      ∃ runId metadata pipeline, q.pending = some (.dispatch runId metadata
        (Pipeline.buildAndTest.infoOf (.plain "test" ["build"])) pipeline) := by
    refine .call () trivial ?_
    refine .call (.ok ()) trivial ?_
    refine .call () trivial ?_
    refine .call () trivial ?_
    refine .call ⟨["build"], by decide⟩ trivial ?_
    refine .call (.ok ()) trivial ?_
    refine .call (.ok true) trivial ?_
    refine .call ⟨0, 0⟩ trivial ?_
    refine .call (.ok ()) trivial ?_
    refine .call (0 : Nat) trivial ?_
    refine .receive (.backplane (some (.nodeCompleted "build" true))) (Set.mem_insert _ _) ?_
    refine .call () trivial ?_
    refine .call (.ok true) trivial ?_
    refine .call (.ok none) trivial ?_
    refine .call (.ok none) trivial ?_
    refine .call ⟨0, 0⟩ trivial ?_
    refine .call (.ok ()) trivial ?_
    refine .call ⟨["test"], by decide⟩ trivial ?_
    exact .here ⟨_, _, _, rfl⟩
  obtain ⟨tr, q, he, ha, runId, metadata, pipeline, hp⟩ := h
  have horder := dispatch_in_order (c := c) ⟨rfl, Or.inl rfl⟩ he ha
  exact ⟨q, ⟨runId, metadata, pipeline, hp⟩, horder.1 _ _ _ _ hp⟩

end Jefferies.Coordination
