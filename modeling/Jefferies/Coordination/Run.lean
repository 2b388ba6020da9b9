import Jefferies.Scheduling.Graph
import Jefferies.StateStore.RunState

/-!
# The run of a pipeline

The statuses and the dependencies of the nodes of one run, and their transitions. A hash set of names is the
list of its elements, each once.
-/

namespace Jefferies.Coordination

open Pipelines StateStore Scheduling

structure PipelineRun where
  statuses : HashMap String NodeStatus
  dependencies : HashMap String (List String)

namespace PipelineRun

def new (nodes : List NodeInfo) : PipelineRun where
  statuses := HashMap.ofList (nodes.map fun n => (n.name, .pending))
  dependencies := HashMap.ofList (nodes.map fun n => (n.name, n.dependencies.dedup))

def depsSatisfied (self : PipelineRun) (node : String) : Bool :=
  ((self.dependencies.lookup node).map fun deps => deps.all (succeeded self.statuses)).getD true

/-- The names that `ready_nodes` returns, in an order that nothing fixes. -/
def readyNodes (self : PipelineRun) : Finset String :=
  self.statuses.keysWhere fun name status => status = .pending && self.depsSatisfied name

/-- The names of the nodes with one of the statuses. -/
def nodesWith (self : PipelineRun) (p : NodeStatus → Bool) : Finset String :=
  self.statuses.keysWhere fun _ status => p status

def markRunning (self : PipelineRun) (node : String) : Bool × PipelineRun :=
  if self.statuses.lookup node = some .pending then
    (true, { self with statuses := self.statuses.insert node .running })
  else (false, self)

def markSuccess (self : PipelineRun) (node : String) : Bool × PipelineRun :=
  if self.statuses.lookup node = some .running ∨ self.statuses.lookup node = some .pending then
    (true, { self with statuses := self.statuses.insert node .success })
  else (false, self)

def markFailed (self : PipelineRun) (node : String) : Bool × PipelineRun :=
  if self.statuses.lookup node = some .running ∨ self.statuses.lookup node = some .pending then
    (true, { self with statuses := self.statuses.insert node .failed })
  else (false, self)

def markDispatchFailed (self : PipelineRun) (node : String) : Bool × PipelineRun :=
  if self.statuses.lookup node = some .pending then
    (true, { self with statuses := self.statuses.insert node .failed })
  else (false, self)

def isComplete (self : PipelineRun) : Bool :=
  if self.statuses.anyValue (· = .running) then false else self.readyNodes = ∅

def fromRunState (state : RunState) : PipelineRun where
  statuses := state.statuses
  dependencies := state.dependencies.mapValues List.dedup

def toRunState (self : PipelineRun) (version : Nat) (pipeline : Pipeline) : RunState where
  version := version
  statuses := self.statuses
  dependencies := self.dependencies
  pipeline := pipeline

/-- The dependencies of a node; a node without an entry has none. -/
def depsOf (self : PipelineRun) (node : String) : List String := (self.dependencies.lookup node).getD []

/-! ## Ready nodes -/

theorem depsSatisfied_iff {self : PipelineRun} {node : String} :
    self.depsSatisfied node = true ↔
      ∀ dep ∈ self.depsOf node, self.statuses.lookup dep = some .success := by
  unfold depsSatisfied depsOf
  cases self.dependencies.lookup node <;> simp

theorem mem_readyNodes {self : PipelineRun} {node : String} :
    node ∈ self.readyNodes ↔ self.statuses.lookup node = some .pending ∧
      ∀ dep ∈ self.depsOf node, self.statuses.lookup dep = some .success := by
  rw [readyNodes, HashMap.mem_keysWhere, ← depsSatisfied_iff]
  simp only [Bool.and_eq_true, decide_eq_true_eq]
  constructor
  · rintro ⟨a, ha, rfl, hd⟩
    exact ⟨ha, hd⟩
  · rintro ⟨ha, hd⟩
    exact ⟨_, ha, rfl, hd⟩

theorem mem_nodesWith {self : PipelineRun} {p : NodeStatus → Bool} {node : String} :
    node ∈ self.nodesWith p ↔ ∃ a, self.statuses.lookup node = some a ∧ p a = true :=
  HashMap.mem_keysWhere

theorem isComplete_iff {self : PipelineRun} :
    self.isComplete = true ↔
      (∀ node, self.statuses.lookup node ≠ some .running) ∧ self.readyNodes = ∅ := by
  unfold isComplete
  cases h : self.statuses.anyValue (· = .running) with
  | true =>
      obtain ⟨k, a, hk, ha⟩ := HashMap.anyValue_eq_true.mp h
      have hrun : self.statuses.lookup k = some .running := by simpa [of_decide_eq_true ha] using hk
      simp only [↓reduceIte, Bool.false_eq_true, false_iff, not_and]
      intro hno
      exact absurd hrun (hno k)
  | false =>
      have hno : ∀ node, self.statuses.lookup node ≠ some .running := by
        intro node hrun
        simpa using HashMap.anyValue_eq_false.mp h node _ hrun
      simp [hno]

/-- The node still has to be run or to end. -/
def Unfinished (self : PipelineRun) (node : String) : Prop :=
  self.statuses.lookup node = some .running ∨ self.statuses.lookup node = some .pending

instance (self : PipelineRun) (node : String) : Decidable (self.Unfinished node) :=
  inferInstanceAs (Decidable (_ ∨ _))

/-! ## Marks

A mark changes the status of its node, where the node's status allows it, and nothing else. -/

/-- What a mark does: it sets the status of `node`, or leaves the run as it is. -/
def Marks (run run' : PipelineRun) (node : String) (status : NodeStatus) : Prop :=
  run' = run ∨ ((run.statuses.lookup node = some .running ∨ run.statuses.lookup node = some .pending) ∧
    run' = { run with statuses := run.statuses.insert node status })

theorem marks_markRunning (self : PipelineRun) (node : String) :
    Marks self (self.markRunning node).2 node .running := by
  unfold markRunning
  split
  · rename_i h
    exact Or.inr ⟨Or.inr h, rfl⟩
  · exact Or.inl rfl

theorem marks_markSuccess (self : PipelineRun) (node : String) :
    Marks self (self.markSuccess node).2 node .success := by
  unfold markSuccess
  split
  · rename_i h
    exact Or.inr ⟨h, rfl⟩
  · exact Or.inl rfl

theorem marks_markFailed (self : PipelineRun) (node : String) :
    Marks self (self.markFailed node).2 node .failed := by
  unfold markFailed
  split
  · rename_i h
    exact Or.inr ⟨h, rfl⟩
  · exact Or.inl rfl

theorem marks_markDispatchFailed (self : PipelineRun) (node : String) :
    Marks self (self.markDispatchFailed node).2 node .failed := by
  unfold markDispatchFailed
  split
  · rename_i h
    exact Or.inr ⟨Or.inr h, rfl⟩
  · exact Or.inl rfl

@[simp] theorem markRunning_fst {self : PipelineRun} {node : String} :
    (self.markRunning node).1 = true ↔ self.statuses.lookup node = some .pending := by
  unfold markRunning
  split <;> simp_all

@[simp] theorem markFailed_fst {self : PipelineRun} {node : String} :
    (self.markFailed node).1 = true ↔
      self.statuses.lookup node = some .running ∨ self.statuses.lookup node = some .pending := by
  unfold markFailed
  split <;> simp_all

/-- A mark that reports no change changes nothing. -/
theorem markRunning_of_false {self : PipelineRun} {node : String} (h : (self.markRunning node).1 = false) :
    (self.markRunning node).2 = self := by
  unfold markRunning at h ⊢
  split <;> simp_all

theorem markFailed_of_false {self : PipelineRun} {node : String} (h : (self.markFailed node).1 = false) :
    (self.markFailed node).2 = self := by
  unfold markFailed at h ⊢
  split <;> simp_all

theorem markFailed_running {self : PipelineRun} {node : String} (h : self.statuses.lookup node = some .running) :
    (self.markFailed node).2 = { self with statuses := self.statuses.insert node .failed } := by
  simp [markFailed, h]

namespace Marks

variable {run run' : PipelineRun} {node : String} {status : NodeStatus}

theorem dependencies (h : Marks run run' node status) : run'.dependencies = run.dependencies := by
  rcases h with rfl | ⟨_, rfl⟩ <;> rfl

theorem depsOf (h : Marks run run' node status) (n : String) : run'.depsOf n = run.depsOf n := by
  rw [PipelineRun.depsOf, h.dependencies, PipelineRun.depsOf]

theorem keys (h : Marks run run' node status) : run'.statuses.keys = run.statuses.keys := by
  rcases h with rfl | ⟨hs, rfl⟩
  · rfl
  · refine HashMap.keys_insert_of_mem ?_ _
    rw [HashMap.mem_keys_iff_lookup]
    rcases hs with hs | hs <;> exact ⟨_, hs⟩

theorem lookup_of_ne (h : Marks run run' node status) {n : String} (hn : n ≠ node) :
    run'.statuses.lookup n = run.statuses.lookup n := by
  rcases h with rfl | ⟨_, rfl⟩
  · rfl
  · exact Finmap.lookup_insert_of_ne _ hn

/-- A status after the mark was there before, or it is the one the mark set. -/
theorem lookup_eq (h : Marks run run' node status) {n : String} {a : NodeStatus}
    (hn : run'.statuses.lookup n = some a) :
    run.statuses.lookup n = some a ∨ (n = node ∧ a = status) := by
  rcases h with rfl | ⟨_, rfl⟩
  · exact Or.inl hn
  · rw [HashMap.lookup_insert_eq_ite] at hn
    split at hn
    · rename_i he
      exact Or.inr ⟨he, (Option.some.inj hn).symm⟩
    · exact Or.inl hn

/-- A mark adds no node. -/
theorem known (h : Marks run run' node status) {n : String} {a : NodeStatus}
    (hn : run'.statuses.lookup n = some a) : ∃ b, run.statuses.lookup n = some b := by
  have hkey : n ∈ run'.statuses.keys := HashMap.mem_keys_iff_lookup.mpr ⟨a, hn⟩
  rw [h.keys] at hkey
  exact HashMap.mem_keys_iff_lookup.mp hkey

/-- A mark makes no node Pending. -/
theorem pending (h : Marks run run' node status) (hs : status ≠ .pending) {n : String}
    (hn : run'.statuses.lookup n = some .pending) : run.statuses.lookup n = some .pending := by
  rcases h.lookup_eq hn with hold | ⟨_, he⟩
  · exact hold
  · exact absurd he.symm hs

theorem unfinished (h : Marks run run' node status) {n : String} (hn : run'.Unfinished n) : run.Unfinished n := by
  by_cases he : n = node
  · subst he
    rcases h with rfl | ⟨hs, _⟩
    · exact hn
    · exact hs
  · rwa [Unfinished, ← h.lookup_of_ne he]

/-- A terminal status stays. -/
theorem terminal_stays (h : Marks run run' node status) {n : String} {a : NodeStatus}
    (hn : run.statuses.lookup n = some a) (ha : a ≠ .running ∧ a ≠ .pending) :
    run'.statuses.lookup n = some a := by
  rcases h with rfl | ⟨hs, rfl⟩
  · exact hn
  · rw [Finmap.lookup_insert_of_ne _ ?_]
    · exact hn
    · rintro rfl
      rcases hs with hs | hs <;> rw [hn] at hs <;> simp_all

theorem success_stays (h : Marks run run' node status) {n : String}
    (hn : run.statuses.lookup n = some .success) : run'.statuses.lookup n = some .success :=
  h.terminal_stays hn (by simp)

/-- Only a success makes nodes ready. -/
theorem ready_of_ready (h : Marks run run' node status) (hs : status ≠ .success) (hp : status ≠ .pending)
    {n : String} (hn : n ∈ run'.readyNodes) : n ∈ run.readyNodes := by
  obtain ⟨hpend, hdeps⟩ := mem_readyNodes.mp hn
  apply mem_readyNodes.mpr
  constructor
  · rcases h.lookup_eq hpend with hold | ⟨_, hnew⟩
    · exact hold
    · exact absurd hnew.symm hp
  · intro d hd
    rw [← h.depsOf] at hd
    rcases h.lookup_eq (hdeps d hd) with hold | ⟨_, hnew⟩
    · exact hold
    · exact absurd hnew.symm hs

/-- A ready node stays ready when another one is marked. -/
theorem ready_stays (h : Marks run run' node status) {n : String} (hne : n ≠ node)
    (hn : n ∈ run.readyNodes) : n ∈ run'.readyNodes := by
  obtain ⟨hpend, hdeps⟩ := mem_readyNodes.mp hn
  apply mem_readyNodes.mpr
  constructor
  · rw [h.lookup_of_ne hne, hpend]
  · intro d hd
    rw [h.depsOf] at hd
    exact h.success_stays (hdeps d hd)

end Marks

theorem lookup_markRunning (self : PipelineRun) (node : String) :
    (self.markRunning node).2.statuses.lookup node ≠ some .pending := by
  unfold markRunning
  split <;> simp_all

theorem lookup_markFailed (self : PipelineRun) (node : String) :
    (self.markFailed node).2.statuses.lookup node ≠ some .running ∧
      (self.markFailed node).2.statuses.lookup node ≠ some .pending := by
  unfold markFailed
  split <;> simp_all

theorem lookup_markSuccess (self : PipelineRun) (node : String) :
    (self.markSuccess node).2.statuses.lookup node ≠ some .running ∧
      (self.markSuccess node).2.statuses.lookup node ≠ some .pending := by
  unfold markSuccess
  split <;> simp_all

theorem lookup_markDispatchFailed (self : PipelineRun) (node : String) :
    (self.markDispatchFailed node).2.statuses.lookup node ≠ some .pending := by
  unfold markDispatchFailed
  split <;> simp_all

/-- A node that is started is no longer ready. -/
theorem ready_markRunning {self : PipelineRun} {n m : String} (h : m ∈ (self.markRunning n).2.readyNodes) :
    m ∈ self.readyNodes ∧ m ≠ n := by
  constructor
  · exact (marks_markRunning self n).ready_of_ready (by simp) (by simp) h
  · rintro rfl
    exact lookup_markRunning self m (mem_readyNodes.mp h).1

theorem ready_markDispatchFailed {self : PipelineRun} {n m : String}
    (h : m ∈ (self.markDispatchFailed n).2.readyNodes) : m ∈ self.readyNodes ∧ m ≠ n := by
  constructor
  · exact (marks_markDispatchFailed self n).ready_of_ready (by simp) (by simp) h
  · rintro rfl
    exact lookup_markDispatchFailed self m (mem_readyNodes.mp h).1

/-! ## Rehydration -/

@[simp] theorem fromRunState_statuses (state : RunState) : (fromRunState state).statuses = state.statuses := rfl

theorem mem_depsOf_fromRunState {state : RunState} {node dep : String} :
    dep ∈ (fromRunState state).depsOf node ↔ dep ∈ (state.dependencies.lookup node).getD [] := by
  unfold depsOf fromRunState
  rw [HashMap.lookup_mapValues]
  cases state.dependencies.lookup node <;> simp

@[simp] theorem toRunState_statuses (self : PipelineRun) (version : Nat) (pipeline : Pipeline) :
    (self.toRunState version pipeline).statuses = self.statuses := rfl

/-! ## New runs -/

theorem new_statuses_keys (nodes : List NodeInfo) (name : String) :
    name ∈ (new nodes).statuses.keys ↔ name ∈ nodes.map NodeInfo.name := by
  rw [new, HashMap.mem_keys_ofList, List.map_map]
  rfl

theorem new_lookup {nodes : List NodeInfo} {name : String} {a : NodeStatus}
    (h : (new nodes).statuses.lookup name = some a) : a = .pending := by
  rw [new, HashMap.lookup_ofList, Option.map_eq_some_iff] at h
  obtain ⟨p, hp, rfl⟩ := h
  have hmem := List.mem_reverse.mp (List.mem_of_find?_eq_some hp)
  obtain ⟨n, _, rfl⟩ := List.mem_map.mp hmem
  rfl

/-- With distinct names, a node keeps its own dependencies. -/
theorem mem_depsOf_new {nodes : List NodeInfo} (hnd : (nodes.map NodeInfo.name).Nodup) {node : NodeInfo}
    (hnode : node ∈ nodes) {dep : String} : dep ∈ (new nodes).depsOf node.name ↔ dep ∈ node.dependencies := by
  have hkeys : ((nodes.map fun n => (n.name, n.dependencies.dedup)).map Prod.fst).Nodup := by
    rwa [List.map_map]
  have hlook := HashMap.lookup_ofList_of_nodup hkeys (List.mem_map.mpr ⟨node, hnode, rfl⟩)
  simp [depsOf, new, hlook]

/-! ## The board of a run -/

/-- The dependency graph of a run, over its nodes. -/
def graph (self : PipelineRun) : Graph String where
  tasks := self.statuses.keys
  deps n := {d | d ∈ self.depsOf n}

def phase : Option NodeStatus → Phase
  | some .running => .running
  | some .success => .succeeded
  | some .failed => .failed
  | some .pending => .waiting
  | none => .waiting

def board (self : PipelineRun) : Board String := fun n => phase (self.statuses.lookup n)

theorem phase_eq_succeeded {s : Option NodeStatus} : phase s = .succeeded ↔ s = some .success := by
  rcases s with _ | s
  · simp [phase]
  · cases s <;> simp [phase]

theorem phase_eq_failed {s : Option NodeStatus} : phase s = .failed ↔ s = some .failed := by
  rcases s with _ | s
  · simp [phase]
  · cases s <;> simp [phase]

theorem phase_eq_running {s : Option NodeStatus} : phase s = .running ↔ s = some .running := by
  rcases s with _ | s
  · simp [phase]
  · cases s <;> simp [phase]

theorem board_free_iff {self : PipelineRun} {n : String} :
    self.graph.Free self.board n ↔ ∀ dep ∈ self.depsOf n, self.statuses.lookup dep = some .success :=
  forall₂_congr fun _ _ => phase_eq_succeeded

theorem board_update (self : PipelineRun) (n : String) (a : NodeStatus) :
    ({ self with statuses := self.statuses.insert n a } : PipelineRun).board =
      Function.update self.board n (phase (some a)) := by
  funext m
  by_cases h : m = n
  · subst h
    simp [board]
  · simp [board, Function.update_of_ne h, Finmap.lookup_insert_of_ne _ h]

theorem Marks.graph {run run' : PipelineRun} {n : String} {a : NodeStatus} (h : Marks run run' n a) :
    run'.graph = run.graph := by
  have hdeps : ∀ m, run'.depsOf m = run.depsOf m := h.depsOf
  simp only [PipelineRun.graph, h.keys, hdeps]

/-- A run is complete exactly when its board is stalled. -/
theorem isComplete_iff_stalled {self : PipelineRun} :
    self.isComplete = true ↔ self.graph.Stalled self.board := by
  rw [isComplete_iff]
  constructor
  · rintro ⟨hrun, hready⟩
    refine ⟨fun n h => hrun n (phase_eq_running.mp h), fun n hn hw hf => ?_⟩
    obtain ⟨a, ha⟩ := HashMap.mem_keys_iff_lookup.mp hn
    have hpend : self.statuses.lookup n = some .pending := by
      rw [board, ha] at hw
      rw [ha]
      cases a <;> simp [phase] at hw ⊢
    have hmem : n ∈ self.readyNodes := mem_readyNodes.mpr ⟨hpend, board_free_iff.mp hf⟩
    simp [hready] at hmem
  · rintro ⟨hrun, hwait⟩
    refine ⟨fun n h => hrun n (phase_eq_running.mpr h), Finset.eq_empty_of_forall_notMem fun n hn => ?_⟩
    obtain ⟨hpend, hdeps⟩ := mem_readyNodes.mp hn
    refine hwait n (HashMap.mem_keys_iff_lookup.mpr ⟨_, hpend⟩) ?_ (board_free_iff.mpr hdeps)
    rw [board, hpend]
    rfl

end PipelineRun

end Jefferies.Coordination
