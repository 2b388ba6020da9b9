import Jefferies.Coordination.EventLoop
import Jefferies.Interaction.Can
import Jefferies.StateStore.Redis

/-!
# What a coordinator starts from

`startCoordinator` loads the stored state of the run and saves an initial one where there is none. Either operation
may fail, and other servers may write between them.
-/

namespace Jefferies.Coordination

open Pipelines StateStore RunHistory Interaction Interact Coordinator PipelineRun

/-- The store while a coordinator is started: what it has at the load and at the initial save, and the errors of the
two. A save that fails was carried out or not. -/
structure Storage where
  atLoad : RedisStateStore
  atSave : RedisStateStore
  loadFails : Option StateStoreError
  saveFails : Option (StateStoreError × Bool)

/-- The initial state of a run, as `initialize_run_state` saves it. -/
def initialState (pipeline : Pipeline) : RunState := (PipelineRun.new pipeline.nodeInfo).toRunState 0 pipeline

namespace Storage

variable (storage : Storage)

def load (runId : String) : Except StateStoreError (Option RunState) :=
  match storage.loadFails with
  | some e => .error e
  | none => .ok (storage.atLoad.loadRun runId)

def save (runId : String) (state : RunState) (expected : Nat) : Except StateStoreError Bool × RedisStateStore :=
  let saved := storage.atSave.saveRun runId state expected
  match storage.saveFails with
  | some (e, applied) => (.error e, if applied then saved.2 else storage.atSave)
  | none => (.ok saved.1, saved.2)

/-- How the calls are answered; whatever is not the store is answered freely. -/
def answers {S : Type} : Unit → S → (e : Effect) → Resp e → Unit → Prop
  | _, _, .loadRun runId, r, _ => r = storage.load runId
  | _, _, .saveRun runId state expected, r, _ => r = (storage.save runId state expected).1
  | _, _, _, _, _ => True

/-- The store once the state of the run is initialized. -/
def initialized (runId : String) (pipeline : Pipeline) : RedisStateStore :=
  match storage.load runId with
  | .ok none => (storage.save runId (initialState pipeline) 0).2
  | _ => storage.atLoad

end Storage

/-- With the answers of the store, the task spawns the coordinator. -/
def Spawns (storage : Storage) (task : Task Bool) (c : Coordinator) : Prop :=
  Can storage.answers (fun _ _ e => e = .spawnCoordinator c) (fun _ _ _ => False) () (task ())

/-- The coordinator starts from what is stored for its run. -/
def StartsFrom (c : Coordinator) (store : RedisStateStore) : Prop :=
  ∃ state, store.loadRun c.runId = some state ∧ c.run = .fromRunState state ∧ c.stateVersion = state.version

/-- The initial state is stored for the run. -/
def Untouched (store : RedisStateStore) (runId : String) (pipeline : Pipeline) : Prop :=
  ∃ state, store.loadRun runId = some state ∧ fromRunState state = .new pipeline.nodeInfo ∧ state.version = 0

namespace Storage

/-- The initial save is accepted and not lost. -/
def Carried (storage : Storage) (runId : String) : Prop :=
  storage.atSave.accepts runId 0 = true ∧ ∀ e applied, storage.saveFails = some (e, applied) → applied = true

/-- A stored state is read, or there is none and the initial one is written; a fresh start does no harm where the
stored state is the initial one anyway. -/
def Sound (storage : Storage) (runId : String) (pipeline : Pipeline) : Prop :=
  match storage.loadFails, storage.atLoad.loadRun runId with
  | none, some _ => True
  | none, none => storage.Carried runId ∨ Untouched storage.atSave runId pipeline
  | some _, _ => Untouched storage.atLoad runId pipeline

end Storage

/-! ## What is spawned -/

/-- What `initialize_run_state` makes of the answer to its load. -/
def initialRun (nodeInfos : List NodeInfo) : Except StateStoreError (Option RunState) → PipelineRun × Nat
  | .ok (some existing) => (.fromRunState existing, existing.version)
  | _ => (.new nodeInfos, 0)

/-- A coordinator is spawned with what was made of the load. -/
def loading (storage : Storage) (runId : String) (pipeline : Pipeline) : Monitor Unit Unit Empty Resp where
  assume
    | _, .answered s e r => storage.answers () s e r ()
    | _, .received _ _ => True
  ok
    | _, _, .spawnCoordinator c =>
        c.runId = runId ∧ (c.run, c.stateVersion) = initialRun pipeline.nodeInfo (storage.load runId)
    | _, _, _ => True
  next _ _ := ()

variable {storage : Storage} {config : AppConfig} {runId : String} {pipeline : Pipeline} {statusReporter : Bool}
  {runContext : RunContext} {c : Coordinator}

theorem initializeRunState_loading :
    (loading storage runId pipeline).Obeys (initializeRunState runId pipeline.nodeInfo pipeline ()) ()
      fun _ _ a => (a.1, a.2.1) = initialRun pipeline.nodeInfo (storage.load runId) := by
  refine ⟨trivial, fun r hr => ?_⟩
  have hload : r = storage.load runId := hr
  rw [← hload]
  rcases r with e | _ | existing
  · rfl
  · exact ⟨trivial, fun _ _ => rfl⟩
  · rfl

theorem startCoordinator_loading :
    (loading storage runId pipeline).Obeys
      (startCoordinator config runId pipeline statusReporter runContext ()) () fun _ _ _ => True := by
  refine ⟨trivial, fun serverId _ => ⟨trivial, fun lease _ => ?_⟩⟩
  rcases lease with e | _ | leaseVersion
  · trivial
  · trivial
  · refine ⟨trivial, fun _ _ => ?_⟩
    apply initializeRunState_loading.seq
    intro _ _ a ha
    exact ⟨trivial, fun podWatcher _ => ⟨⟨rfl, ha⟩, fun _ _ => trivial⟩⟩

theorem Spawns.started (h : Spawns storage (startCoordinator config runId pipeline statusReporter runContext) c) :
    c.runId = runId ∧ (c.run, c.stateVersion) = initialRun pipeline.nodeInfo (storage.load runId) := by
  rcases h.obeys (fun _ _ _ _ _ _ hr => hr) startCoordinator_loading with ⟨_, _, _, e, rfl, hok⟩ | ⟨_, _, _, _, hf, _⟩
  · exact hok
  · exact hf.elim

/-! ## The stored state -/

theorem fromRunState_initialState (pipeline : Pipeline) :
    fromRunState (initialState pipeline) = .new pipeline.nodeInfo := by
  have hdeps : (PipelineRun.new pipeline.nodeInfo).dependencies.mapValues List.dedup =
      (PipelineRun.new pipeline.nodeInfo).dependencies := by
    apply Finmap.ext_lookup
    intro n
    rw [HashMap.lookup_mapValues, PipelineRun.new, HashMap.lookup_ofList]
    cases hfind : ((pipeline.nodeInfo.map fun n => (n.name, n.dependencies.dedup)).reverse.find? fun p => p.1 = n) with
    | none => rfl
    | some p =>
        have hmem := List.mem_of_find?_eq_some hfind
        simp only [List.mem_reverse, List.mem_map] at hmem
        obtain ⟨node, _, rfl⟩ := hmem
        simp
  unfold fromRunState
  exact congrArg (PipelineRun.mk _) hdeps

/-- The initial run is what is stored exactly when the stored state is the initial one. -/
theorem startsFrom_new {store : RedisStateStore} (hrun : (c.run, c.stateVersion) = (.new pipeline.nodeInfo, 0))
    (hid : c.runId = runId) : StartsFrom c store ↔ Untouched store runId pipeline := by
  simp only [Prod.mk.injEq] at hrun
  unfold StartsFrom Untouched
  rw [hid, hrun.1, hrun.2]
  constructor
  · intro h
    obtain ⟨state, hl, hr, hv⟩ := h
    exact ⟨state, hl, hr.symm, hv.symm⟩
  · intro h
    obtain ⟨state, hl, hr, hv⟩ := h
    exact ⟨state, hl, hr.symm, hv.symm⟩

theorem untouched_saved (store : RedisStateStore) (runId : String) (pipeline : Pipeline)
    (h : store.accepts runId 0 = true) :
    Untouched (store.saveRun runId (initialState pipeline) 0).2 runId pipeline := by
  rw [RedisStateStore.saveRun_accepted h]
  exact ⟨_, Finmap.lookup_insert _, fromRunState_initialState pipeline, rfl⟩

/-- The initial save leaves the initial state exactly when it is carried out or that state was there. -/
theorem untouched_save : Untouched (storage.save runId (initialState pipeline) 0).2 runId pipeline ↔
    storage.Carried runId ∨ Untouched storage.atSave runId pipeline := by
  have haccepts : Untouched storage.atSave runId pipeline → storage.atSave.accepts runId 0 = true := by
    intro h
    obtain ⟨state, hl, _, hv⟩ := h
    exact RedisStateStore.accepts_iff.mpr (.inr ⟨state, hl, hv⟩)
  cases ha : storage.atSave.accepts runId 0 with
  | false =>
      have hnot : ¬ Untouched storage.atSave runId pipeline := by
        intro h
        simp [haccepts h] at ha
      have hsame : (storage.save runId (initialState pipeline) 0).2 = storage.atSave := by
        unfold Storage.save
        rw [RedisStateStore.saveRun_rejected ha]
        cases storage.saveFails <;> simp
      simp [hsame, hnot, Storage.Carried, ha]
  | true =>
      have hsaved := untouched_saved storage.atSave runId pipeline ha
      cases hf : storage.saveFails with
      | none => simp [Storage.save, hf, hsaved, Storage.Carried, ha]
      | some failure =>
          obtain ⟨e, applied⟩ := failure
          cases applied <;> simp [Storage.save, hf, hsaved, Storage.Carried, ha]

/-- A spawned coordinator starts from the stored state exactly when that was read, or when the initial one is
stored. -/
theorem starts_from_stored_iff (storage : Storage) (config : AppConfig) (runId : String) (pipeline : Pipeline)
    (statusReporter : Bool) (runContext : RunContext) (c : Coordinator)
    (h : Spawns storage (startCoordinator config runId pipeline statusReporter runContext) c) :
    StartsFrom c (storage.initialized runId pipeline) ↔ storage.Sound runId pipeline := by
  obtain ⟨hid, hrun⟩ := h.started
  unfold Storage.initialized Storage.Sound
  cases hf : storage.loadFails with
  | some e =>
      simp only [Storage.load, hf, initialRun] at hrun ⊢
      exact startsFrom_new hrun hid
  | none =>
      cases hl : storage.atLoad.loadRun runId with
      | none =>
          simp only [Storage.load, hf, hl, initialRun] at hrun ⊢
          rw [startsFrom_new hrun hid, untouched_save]
      | some state =>
          simp only [Storage.load, hf, hl, initialRun, Prod.mk.injEq] at hrun ⊢
          simp only [iff_true]
          exact ⟨state, hid ▸ hl, hrun⟩

/-- What a coordinator starts with is ready only where it is Pending in the stored state. -/
theorem StartsFrom.ready {store : RedisStateStore} (h : StartsFrom c store) {n : String}
    (hn : n ∈ c.run.readyNodes) :
    ∃ state, store.loadRun c.runId = some state ∧ state.statuses.lookup n = some .pending := by
  obtain ⟨state, hl, hr, _⟩ := h
  rw [hr, mem_readyNodes] at hn
  exact ⟨state, hl, hn.1⟩

/-- A new run, whose initial state is saved. -/
theorem starts_from_stored_new :
    let storage : Storage := ⟨.empty, .empty, none, none⟩
    StartsFrom (freshCoordinator .default "run" .buildAndTest) (storage.initialized "run" .buildAndTest) ↔
      storage.Sound "run" .buildAndTest := by
  intro storage
  apply starts_from_stored_iff storage .default "run" .buildAndTest false (.push "acme" "app" "")
  exact .call "server" () trivial (.call (.ok (some 1)) () trivial (.call (.ok ()) () trivial
    (.call (.ok none) () rfl (.call (.ok true) () rfl (.call false () trivial (.here rfl))))))

/-- A run whose first node is under way. -/
def underWay : RedisStateStore :=
  let run := ((PipelineRun.new Pipeline.buildAndTest.nodeInfo).markRunning "build").2
  { RedisStateStore.empty with runs := HashMap.ofList [("run", run.toRunState 1 .buildAndTest)] }

/-- The stored state cannot be read for a moment. The coordinator starts the run afresh and dispatches the node that
is under way. -/
theorem unread_state_starts_afresh :
    let storage : Storage := ⟨underWay, underWay, some (.redis "timed out"), none⟩
    let c := freshCoordinator .default "run" .buildAndTest
    Spawns storage (startCoordinator .default "run" .buildAndTest false (.push "acme" "app" "")) c ∧
      ¬ StartsFrom c (storage.initialized "run" .buildAndTest) ∧
      (∃ state, (storage.initialized "run" .buildAndTest).loadRun "run" = some state ∧
        state.statuses.lookup "build" = some .running) ∧
      Can storage.answers (fun _ _ e => ∃ runId metadata node pipeline, e = .dispatch runId metadata node pipeline ∧
        node.name = "build") (fun _ _ _ => False) () (Coordinator.start c) := by
  intro storage c
  have hstored : ∃ state, underWay.loadRun "run" = some state ∧ state.statuses.lookup "build" = some .running :=
    ⟨_, rfl, by decide⟩
  refine ⟨?_, ?_, hstored, ?_⟩
  · exact .call "server" () trivial (.call (.ok (some 1)) () trivial (.call (.ok ()) () trivial
      (.call (.error (.redis "timed out")) () rfl (.call false () trivial (.here rfl)))))
  · intro h
    obtain ⟨state, hl, hrun, _⟩ := h
    obtain ⟨state', hl', hrunning⟩ := hstored
    have hsame : state = state' := Option.some.inj (hl.symm.trans hl')
    have hpending : c.run.statuses.lookup "build" = some .pending := by decide
    rw [hrun, hsame, fromRunState_statuses, hrunning] at hpending
    cases hpending
  · refine .call () () trivial (.call (.ok ()) () trivial (.call () () trivial (.call () () trivial ?_)))
    refine .call ⟨["build"], by decide⟩ () trivial (.here ?_)
    exact ⟨_, _, _, _, rfl, rfl⟩

end Jefferies.Coordination
