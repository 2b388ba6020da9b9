import Jefferies.Coordination.Readiness
import Jefferies.StateStore.Redis

/-!
# Writing through

Where one coordinator writes a run and its store does not fail, the stored state is the one in memory
whenever the coordinator waits. A coordinator that starts from it goes on where the first one was killed.
-/

namespace Jefferies.Coordination

open Pipelines StateStore RunHistory Interaction Interact Coordinator PipelineRun

/-! ## The store -/

/-- The set of dependencies of each node that has an entry. -/
def dependencySets (dependencies : HashMap String (List String)) (n : String) : Option (Finset String) :=
  (dependencies.lookup n).map List.toFinset

/-- A set is written in any order: what is kept of a state is the state up to the order of dependencies. -/
structure Renders (state kept : RunState) : Prop where
  version : kept.version = state.version
  statuses : kept.statuses = state.statuses
  dependencies : dependencySets kept.dependencies = dependencySets state.dependencies
  pipeline : kept.pipeline = state.pipeline

/-- The state is what the coordinator has in memory. -/
structure Mirrors (state : RunState) (c : Coordinator) : Prop where
  version : state.version = c.stateVersion
  statuses : state.statuses = c.run.statuses
  dependencies : dependencySets state.dependencies = dependencySets c.run.dependencies
  pipeline : state.pipeline = c.pipeline

/-- The store of a run that one coordinator writes: `first` is the version it began with, and `persists`
counts the saves that were accepted since. -/
structure Shelf where
  store : RedisStateStore
  first : Nat
  persists : Nat

/-- Every call to the store succeeds. -/
def Shelf.Answers (w : Shelf) : (e : Effect) → Resp e → Shelf → Prop
  | .saveRun runId state expected, r, w' => ∃ kept, Renders state kept ∧
      r = .ok (w.store.saveRun runId kept expected).1 ∧
      w' = { w with
        store := (w.store.saveRun runId kept expected).2
        persists := if (w.store.saveRun runId kept expected).1 then w.persists + 1 else w.persists }
  | .deleteRun runId, r, w' => r = .ok () ∧ w' = { w with store := w.store.deleteRun runId }
  | _, _, w' => w' = w

/-- A single coordinator and its store. The other services answer in every way. -/
def storing : Surroundings Shelf Coordinator LoopEvent Resp where
  starts w c := Begins c ∧ w.first = c.stateVersion ∧ w.persists = 0 ∧
    ∃ state, w.store.loadRun c.runId = some state ∧ Mirrors state c
  answers w _ e r w' := w.Answers e r w'
  delivers w _ _ w' := w' = w
  drifts _ _ := False
  restarts _ _ _ := False

theorem dependencySets_fromRunState (state : RunState) :
    dependencySets (fromRunState state).dependencies = dependencySets state.dependencies := by
  funext n
  simp only [dependencySets, fromRunState, HashMap.lookup_mapValues]
  cases state.dependencies.lookup n with
  | none => rfl
  | some deps => simp [List.toFinset_eq_iff_perm_dedup]

theorem Renders.refl (state : RunState) : Renders state state := ⟨rfl, rfl, rfl, rfl⟩

/-! ## The start of a coordinator -/

/-- The watcher of a task that starts a coordinator, with the store as it is. It assumes that the calls to the
store succeed. -/
def opening : Monitor RedisStateStore Unit LoopEvent Resp where
  assume store
    | .answered _ (.loadRun runId) r => r = .ok (store.loadRun runId)
    | .answered _ (.saveRun runId state expected) r => r = .ok (store.saveRun runId state expected).1
    | _ => True
  ok store _ e := ∀ c, e = .spawnCoordinator c → Begins c ∧
    ∃ state, store.loadRun c.runId = some state ∧ Mirrors state c
  next store
    | .answered _ (.saveRun runId state expected) _ => (store.saveRun runId state expected).2
    | _ => store

/-- The state with which a coordinator is to be spawned is in the store. -/
theorem initializeRunState_mirrored {store : RedisStateStore} {runId : String} {pipeline : Pipeline}
    (hp : ∀ state, store.loadRun runId = some state → state.pipeline = pipeline) :
    opening.Obeys (initializeRunState runId pipeline.nodeInfo pipeline ()) store fun store' _ result =>
      ((result.2.2 = false ∧ result.1 = .new pipeline.nodeInfo ∧ result.2.1 = 0) ∨
        (result.2.2 = true ∧ ∃ state, result.1 = .fromRunState state ∧ result.2.1 = state.version)) ∧
      ∃ state, store'.loadRun runId = some state ∧ ∀ c : Coordinator, c.run = result.1 →
        c.stateVersion = result.2.1 → c.pipeline = pipeline → Mirrors state c := by
  have hload : opening.Obeys ((call (.loadRun runId) : Task _) ()) store fun store' _ r =>
      store' = store ∧ r = .ok (store.loadRun runId) :=
    ⟨fun c hc => absurd hc (by simp), fun r hr => ⟨rfl, hr⟩⟩
  apply hload.seq
  rintro store' _ r ⟨he, rfl⟩
  subst store'
  cases hl : store.loadRun runId with
  | none =>
      refine ⟨fun c hc => absurd hc (by simp), fun r _ => ⟨.inl ⟨rfl, rfl, rfl⟩, ?_⟩⟩
      have haccepts : store.accepts runId 0 = true := RedisStateStore.accepts_iff.mpr (.inl ⟨hl, rfl⟩)
      refine ⟨(PipelineRun.new pipeline.nodeInfo).toRunState 0 pipeline, ?_, ?_⟩
      · show (store.saveRun runId _ 0).2.loadRun runId = _
        rw [RedisStateStore.saveRun_accepted haccepts]
        exact Finmap.lookup_insert _
      · rintro c hrun hv hpipe
        exact ⟨hv.symm, by rw [hrun]; rfl, by rw [hrun]; rfl, hpipe.symm⟩
  | some state =>
      refine ⟨.inr ⟨rfl, state, rfl, rfl⟩, state, hl, ?_⟩
      rintro c hrun hv hpipe
      refine ⟨hv.symm, by rw [hrun]; rfl, ?_, by rw [hp state hl, hpipe]⟩
      rw [hrun, dependencySets_fromRunState]

/-- A coordinator is spawned only when the store has its state: for a new run, it has been saved first. A
stored run is started with the pipeline that is stored. -/
theorem startCoordinator_mirrored {store : RedisStateStore} {config : AppConfig} {runId : String}
    {pipeline : Pipeline} {statusReporter : Bool} {runContext : RunContext}
    (hp : ∀ state, store.loadRun runId = some state → state.pipeline = pipeline) :
    opening.Obeys (startCoordinator config runId pipeline statusReporter runContext ()) store
      fun _ _ _ => True := by
  have hcall : ∀ {e : Effect} {γ : RedisStateStore}, (∀ c, e ≠ .spawnCoordinator c) →
      (∀ r, opening.next γ (.answered () e r) = γ) →
      opening.Obeys ((call e : Task _) ()) γ fun γ' _ _ => γ' = γ :=
    fun he hnext => ⟨fun c hc => absurd hc (he c), fun r _ => hnext r⟩
  apply (hcall (e := .newUuid) (by simp) fun _ => rfl).seq
  rintro _ _ serverId rfl
  apply (hcall (e := .tryAcquireLease runId serverId 30) (by simp) fun _ => rfl).seq
  rintro _ _ r rfl
  rcases r with e | _ | leaseVersion
  · trivial
  · trivial
  · apply (hcall (by simp) fun _ => rfl).seq
    rintro _ _ _ rfl
    apply (initializeRunState_mirrored hp).seq
    rintro store' _ ⟨run, stateVersion, isRehydrate⟩ ⟨hbegins, state, hl, hm⟩
    apply (hcall (e := .startPodWatcher runId (run.nodesWith (· = .running))) (by simp) fun _ => rfl).seq
    rintro _ _ podWatcher rfl
    refine ⟨?_, fun _ _ => trivial⟩
    rintro c hc
    cases hc
    exact ⟨⟨rfl, rfl, hbegins⟩, state, hl, hm _ rfl rfl rfl⟩

/-! ## The stored state of a running coordinator -/

/-- The end of the run is being recorded, or the coordinator leaves. -/
def Stage.over : Stage → Bool
  | .closing _ => true
  | .concluding _ _ => true
  | .terminated _ _ _ => true
  | .closed _ => true
  | .quitting => true
  | .ended => true
  | .relieving _ next => next.over
  | .aborting _ next => next.over
  | .arming _ _ next => next.over
  | _ => false

/-- A change of the run is still to be saved. -/
def Stage.saves : Stage → Bool
  | .saving _ _ => true
  | .relieving _ next => next.saves
  | .aborting _ next => next.saves
  | .arming _ _ next => next.saves
  | t => t.over

/-- What is stored is the coordinator's own state, but for the statuses where a change is still to be saved. -/
structure Tracks (unsaved : Bool) (state : RunState) (c : Coordinator) : Prop where
  version : state.version = c.stateVersion
  statuses : unsaved = false → state.statuses = c.run.statuses
  dependencies : dependencySets state.dependencies = dependencySets c.run.dependencies
  pipeline : state.pipeline = c.pipeline

/-- The version counts the accepted saves, and until the end of the run the store tracks the coordinator. -/
structure Kept (t : Stage) (w : Shelf) (c : Coordinator) : Prop where
  counted : c.stateVersion = w.first + w.persists
  stored : t.over = true ∨ ∃ state, w.store.loadRun c.runId = some state ∧ Tracks t.saves state c

variable {w w' : Shelf} {c c' : Coordinator} {t t' : Stage} {n : String}

namespace Kept

/-- The run stays, and so does what the store has of it. -/
theorem next (h : Kept t w c) (hrun : c'.run = c.run)
    (hfixed : c'.runId = c.runId ∧ c'.pipeline = c.pipeline ∧ c'.stateVersion = c.stateVersion)
    (hover : t.over = true → t'.over = true) (hsaves : t.saves = true → t'.saves = true) : Kept t' w c' := by
  obtain ⟨hid, hp, hv⟩ := hfixed
  refine ⟨by rw [hv, h.counted], h.stored.imp hover ?_⟩
  rintro ⟨state, hl, ht⟩
  refine ⟨state, by rw [hid, hl], ?_⟩
  constructor
  · rw [hv, ht.version]
  · intro hno
    rw [hrun]
    apply ht.statuses
    exact Bool.eq_false_iff.mpr fun he => by rw [hsaves he] at hno; cases hno
  · rw [hrun, ht.dependencies]
  · rw [hp, ht.pipeline]

/-- A node was marked, and the change is still to be saved. -/
theorem mark (h : Kept t w c) {a : NodeStatus} (hm : Marks c.run c'.run n a)
    (hfixed : c'.runId = c.runId ∧ c'.pipeline = c.pipeline ∧ c'.stateVersion = c.stateVersion)
    (hover : t.over = true → t'.over = true) (hsaves : t'.saves = true) : Kept t' w c' := by
  obtain ⟨hid, hp, hv⟩ := hfixed
  refine ⟨by rw [hv, h.counted], h.stored.imp hover ?_⟩
  rintro ⟨state, hl, ht⟩
  refine ⟨state, by rw [hid, hl], ?_⟩
  constructor
  · rw [hv, ht.version]
  · intro hno
    rw [hsaves] at hno
    cases hno
  · rw [hm.dependencies, ht.dependencies]
  · rw [hp, ht.pipeline]

/-- A save is accepted, as the store has the version that the coordinator expects. -/
theorem save {change : Change} {k : Caller} (h : Kept (.saving change k) w c)
    {r : Except StateStoreError Bool}
    (hw : w.Answers (.saveRun c.runId (c.run.toRunState (c.stateVersion + 1) c.pipeline) c.stateVersion) r w') :
    r = .ok true ∧ Kept (change.next k true) w' (afterSave c r) := by
  obtain ⟨kept, hk, rfl, rfl⟩ := hw
  obtain ⟨state, hl, ht⟩ := h.stored.resolve_left (by simp [Stage.over])
  have haccepts : w.store.accepts c.runId c.stateVersion = true :=
    RedisStateStore.accepts_iff.mpr (.inr ⟨state, hl, ht.version⟩)
  rw [RedisStateStore.saveRun_accepted haccepts]
  refine ⟨rfl, ?_, .inr ⟨kept, ?_, ?_⟩⟩
  · show c.stateVersion + 1 = w.first + (w.persists + 1)
    rw [h.counted, Nat.add_assoc]
  · exact Finmap.lookup_insert _
  · exact ⟨hk.version, fun _ => hk.statuses, hk.dependencies, hk.pipeline⟩

end Kept

theorem Moves.kept (hm : Moves t c t' c') (h : Kept t w c) : Kept t' w c' := by
  have hfixed := hm.fixed
  cases hm with
  | event event =>
      refine h.next rfl hfixed (fun ht => by cases ht) fun ht => by cases ht
  | promote => exact h.mark (marks_markRunning _ _) hfixed (fun ht => by cases ht) rfl
  | time => exact h.mark (marks_markFailed _ _) hfixed (fun ht => by cases ht) rfl
  | fail => exact h.mark (marks_markFailed _ _) hfixed (fun ht => by cases ht) rfl
  | succeed => exact h.mark (marks_markSuccess _ _) hfixed (fun ht => by cases ht) rfl
  | unsucceed => exact h.mark (marks_markFailed _ _) hfixed (fun ht => by cases ht) rfl
  | unknown => exact h.mark (marks_markDispatchFailed _ _) hfixed (fun ht => by cases ht) rfl
  | terminated => exact h.mark (marks_markFailed _ _) hfixed (fun _ => rfl) rfl
  | unarmed => exact h.next rfl hfixed id id
  | relieve => exact h.next rfl hfixed id id
  | _ => exact h.next rfl hfixed (fun ht => by first | rfl | cases ht) fun ht => by first | rfl | cases ht

theorem Idle.answers {e : Effect} {r : Resp e} (he : Idle c e) (hw : w.Answers e r w') : w' = w := by
  cases he <;> exact hw

/-- A node that is dispatched is marked, and the change is to be saved. -/
theorem Kept.dispatched {rest : List String} {k : Caller} (h : Kept (.dispatching (n :: rest) k) w c)
    (r : Except DispatchError Unit) : Kept (.dispatched c.run n rest k r) w (afterDispatch c n r) := by
  cases r with
  | error e => exact h.mark (marks_markDispatchFailed _ _) ⟨rfl, rfl, rfl⟩ (fun ht => by cases ht) rfl
  | ok _ =>
      show Kept (if _ then _ else _) w _
      split
      · exact h.mark (marks_markRunning _ _) ⟨rfl, rfl, rfl⟩ (fun ht => by cases ht) rfl
      · rename_i hno
        have hrun : (c.run.markRunning n).2 = c.run := markRunning_of_false (Bool.eq_false_iff.mpr hno)
        exact h.next hrun ⟨rfl, rfl, rfl⟩ (fun ht => by cases ht) fun ht => by cases ht

theorem Asks.kept {e : Effect} {k : Resp e → Stage × Coordinator} (hk : Asks t c e k) (h : Kept t w c)
    {r : Resp e} (hw : w.Answers e r w') : Kept (k r).1 w' (k r).2 := by
  cases hk with
  | idle he ht =>
      rw [he.answers hw]
      exact h
  | save =>
      obtain ⟨rfl, hkept⟩ := h.save hw
      exact hkept
  | dispatch =>
      cases hw
      exact h.dispatched r
  | renew =>
      cases hw
      show Kept (if accepted r then .waiting else .quitting) w c
      split <;> exact h.next rfl ⟨rfl, rfl, rfl⟩ (fun ht => by cases ht) fun ht => by cases ht
  | subscribe =>
      cases hw
      rcases r with e | ⟨⟩ <;> exact h.next rfl ⟨rfl, rfl, rfl⟩ (fun ht => by cases ht) fun ht => by cases ht
  | probe =>
      cases hw
      rcases r with e | _ | _ <;> exact h.next rfl ⟨rfl, rfl, rfl⟩ (fun ht => by cases ht) fun ht => by cases ht
  | abort =>
      cases hw
      exact h.next rfl ⟨rfl, rfl, rfl⟩ id id
  | arm =>
      cases hw
      exact h.next rfl ⟨rfl, rfl, rfl⟩ id id
  | part he =>
      refine ⟨?_, .inl rfl⟩
      cases he with
      | deleteRun =>
          obtain ⟨_, rfl⟩ := hw
          exact h.counted
      | _ =>
          cases hw
          exact h.counted
  | close =>
      cases hw
      exact h.next rfl ⟨rfl, rfl, rfl⟩ id id
  | terminate =>
      cases hw
      exact h.next rfl ⟨rfl, rfl, rfl⟩ id id
  | conclude =>
      cases hw
      exact h.next rfl ⟨rfl, rfl, rfl⟩ id id
  | _ =>
      cases hw
      exact h.next rfl ⟨rfl, rfl, rfl⟩ (fun ht => by cases ht) fun ht => by cases ht

/-- The store tracks its single writer along every run. -/
def tracking : course.Invariant storing where
  holds := Kept
  start w c h := by
    obtain ⟨_, hfirst, hpersists, state, hl, hm⟩ := h
    exact ⟨by rw [hfirst, hpersists, Nat.add_zero],
      .inr ⟨state, hl, hm.version, fun _ => hm.statuses, hm.dependencies, hm.pipeline⟩⟩
  move _ _ _ _ _ h hm := hm.kept h
  ask _ _ _ _ _ _ _ h hk hw := hk.kept h hw
  deliver w c event w' h hw := by
    cases hw
    exact h.next rfl ⟨rfl, rfl, rfl⟩ (fun ht => by cases ht) fun ht => by cases ht
  drift _ _ _ _ _ h := h.elim
  restart _ _ _ _ _ _ h := h.elim

/-! ## Going on from the stored state -/

/-- S3 shows of no node that it has started. -/
def Unread (outcomes : HashMap String ReconcileResult) : Prop :=
  ∀ n r, outcomes.lookup n = some r → r = .stillRunning ∨ ∃ message, r = .transientReadError message

/-- A coordinator that is spawned for the stored state, and reads no outcome that says more than the state. The
world knows whether its subscription was refused. -/
def resuming (state : RunState) : Surroundings Bool Coordinator LoopEvent Resp where
  starts refused c := refused = false ∧ Begins c ∧ c.isRehydrate = true ∧ c.run = .fromRunState state
  answers refused _ e r refused' :=
    match e, r with
    | .readOutcomes _ _, outcomes => (∀ m, outcomes = some m → Unread m) ∧ refused' = refused
    | .subscribeRun _, answer => refused' = (refused || answer.isOk = false)
    | _, _ => refused' = refused
  delivers _ _ _ _ := False
  drifts _ _ := False
  restarts _ _ _ := False

/-- The stages of a coordinator that resumes its run. -/
def Stage.resuming (refused : Bool) : Stage → Prop
  | .entering => True
  | .gathering re => re = true
  | .reading re _ => re = true
  | .gathered re m => re = true ∧ Unread m
  | .folding re m _ => re = true ∧ Unread m
  | .sifting m => Unread m
  | .promoting _ names => names = []
  | .rearming _ => True
  | .listing _ => True
  | .rearmed _ _ => True
  | .arming _ _ next => next.resuming refused
  | .subscribing => True
  | .dispatch k => k = .loop
  | .dispatching names k => names = [] ∧ k = .loop
  | .returned aborted k => aborted = false ∧ k = .loop
  | .waiting => True
  | .quitting => refused = true
  | .ended => refused = true
  | _ => False

/-- The run is the stored one, and only the start of a coordinator that rehydrates it is before the loop. -/
structure Resumes (run : PipelineRun) (t : Stage) (refused : Bool) (c : Coordinator) : Prop where
  run_eq : c.run = run
  stage : t.resuming refused
  entered : t = .entering → c.isRehydrate = true

theorem Resumes.next {run : PipelineRun} {refused refused' : Bool} (h : Resumes run t refused c)
    (ht : t'.resuming refused') (hrun : c'.run = c.run) (he : t' ≠ .entering) : Resumes run t' refused' c' :=
  ⟨by rw [hrun, h.run_eq], ht, fun hent => absurd hent he⟩

theorem Moves.resumes {run : PipelineRun} {refused : Bool} (hm : Moves t c t' c')
    (h : Resumes run t refused c) (hrun : run.isComplete = false) : Resumes run t' refused c' := by
  have hc : c.run.isComplete = false := by rw [h.run_eq, hrun]
  have hstage := h.stage
  cases hm with
  | rehydrates => exact h.next rfl rfl Stage.noConfusion
  | begins hre =>
      rw [h.entered rfl] at hre
      cases hre
  | unread => exact h.next ⟨hstage, fun n r hn => by simp at hn⟩ rfl Stage.noConfusion
  | folded => exact h.next hstage.2 rfl Stage.noConfusion
  | reconciled => cases hstage.1
  | skip => exact h.next hstage rfl Stage.noConfusion
  | fold hn => rcases hstage.2 _ _ hn with he | ⟨_, he⟩ <;> cases he
  | promoted => exact h.next trivial rfl Stage.noConfusion
  | unpromoted => cases hstage
  | promote => cases hstage
  | rearm => exact h.next trivial rfl Stage.noConfusion
  | rehydrated => exact h.next trivial rfl Stage.noConfusion
  | stalled hs =>
      rw [hc] at hs
      cases hs
  | aborts => cases hstage.1
  | completes hs =>
      rw [hc] at hs
      cases hs
  | waits => exact h.next trivial rfl Stage.noConfusion
  | folds => cases hstage.2
  | promotes => cases hstage.2
  | dispatched => exact h.next ⟨rfl, hstage.2⟩ rfl Stage.noConfusion
  | unknown => cases hstage.1
  | leaves => exact h.next hstage rfl Stage.noConfusion
  | gone => exact h.next hstage rfl Stage.noConfusion
  | _ => exact hstage.elim

theorem Asks.resumes {run : PipelineRun} {refused refused' : Bool} {e : Effect} {r : Resp e}
    {k : Resp e → Stage × Coordinator} {state : RunState} (hk : Asks t c e k) (h : Resumes run t refused c)
    (hrun : run.readyNodes = ∅) (hw : (resuming state).answers refused c e r refused') :
    Resumes run (k r).1 refused' (k r).2 := by
  have hstage := h.stage
  cases hk with
  | idle he ht =>
      have hsame : refused' = refused := by cases he <;> exact hw
      rw [hsame]
      exact h
  | subscribe =>
      rcases r with e | ⟨⟩
      · exact h.next (by rw [hw]; simp [Stage.resuming, Except.isOk, Except.toBool]) rfl Stage.noConfusion
      · exact h.next rfl rfl Stage.noConfusion
  | gather => exact h.next hstage rfl Stage.noConfusion
  | read =>
      refine h.next ⟨hstage, ?_⟩ rfl Stage.noConfusion
      cases r with
      | none => exact fun n r hn => by simp at hn
      | some m => exact hw.1 m rfl
  | walk => exact h.next hstage rfl Stage.noConfusion
  | @sift _ m =>
      refine h.next (List.filter_eq_nil_iff.mpr ?_) rfl Stage.noConfusion
      intro n _ hn
      unfold isPromotable at hn
      split at hn
      · rename_i hin
        rcases hstage _ _ hin with he | ⟨_, he⟩ <;> cases he
      · cases hn
  | clock => exact h.next trivial rfl Stage.noConfusion
  | rearm => exact h.next trivial rfl Stage.noConfusion
  | ready =>
      refine h.next ⟨?_, hstage⟩ rfl Stage.noConfusion
      rw [← List.toFinset_eq_empty_iff, r.2.2, h.run_eq, hrun]
  | dispatch => cases hstage.1
  | arm secs hnext =>
      cases hw
      exact h.next hstage rfl (Stage.ne_entering_of_resumes hnext)
  | _ => exact hstage.elim

/-- From a state in which nothing is ready and some node runs, a coordinator goes on with the stored run. -/
def resumption (state : RunState) (hready : (fromRunState state).readyNodes = ∅)
    (hcomplete : (fromRunState state).isComplete = false) : course.Invariant (resuming state) where
  holds := Resumes (fromRunState state)
  start refused c h := by
    obtain ⟨_, _, hre, hrun⟩ := h
    exact ⟨hrun, trivial, fun _ => hre⟩
  move _ _ _ _ _ h hm := hm.resumes h hcomplete
  ask _ _ _ _ _ _ _ h hk hw := hk.resumes h hready hw
  deliver _ _ _ _ _ h := h.elim
  drift _ _ _ _ _ h := h.elim
  restart _ _ _ _ _ _ h := h.elim

/-- What a coordinator does that resumes its run: the run stays, nothing is dispatched, and it does not end
unless its subscription was refused. -/
theorem resuming_dispatches_none {state : RunState} (hready : (fromRunState state).readyNodes = ∅)
    (hcomplete : (fromRunState state).isComplete = false) {refused : Bool}
    {p : Prog Coordinator Resp (Option RunSummary)} (h : (resuming state).Reaches coordinator refused p) :
    p.state.run = fromRunState state ∧
      (∀ runId metadata node pipeline, p.pending ≠ some (.dispatch runId metadata node pipeline)) ∧
      (refused = false → ∀ c summary, p ≠ .ret c (some summary)) := by
  obtain ⟨t, c, hJ, hF⟩ := (resumption state hready hcomplete).reaches Course.describes h
  cases p with
  | ret c' r =>
      obtain ⟨t', hJ', ht⟩ := (resumption state hready hcomplete).at_ret hJ hF
      refine ⟨hJ'.run_eq, by simp [Prog.pending], ?_⟩
      rintro hrefused c'' summary ⟨rfl, rfl⟩
      cases ht
      have hstage : refused = true := hJ'.stage
      rw [hrefused] at hstage
      cases hstage
  | call c' e k =>
      obtain ⟨t', k', hJ', hk, _⟩ := (resumption state hready hcomplete).at_call hJ hF
      refine ⟨hJ'.run_eq, ?_, by simp⟩
      rintro runId metadata node pipeline ⟨rfl⟩
      cases hk with
      | idle he => cases he
      | part he => cases he
      | dispatch => cases hJ'.stage.1

theorem mem_depsOf_congr {run run' : PipelineRun} {dep : String}
    (h : dependencySets run.dependencies = dependencySets run'.dependencies) :
    dep ∈ run.depsOf n ↔ dep ∈ run'.depsOf n := by
  have hn := congrFun h n
  unfold dependencySets at hn
  unfold depsOf
  cases hl : run.dependencies.lookup n <;> cases hl' : run'.dependencies.lookup n <;>
    simp only [hl, hl', Option.map_none, Option.map_some, reduceCtorEq, Option.some.injEq] at hn
  · rfl
  · rw [Option.getD_some, Option.getD_some, ← List.mem_toFinset, hn, List.mem_toFinset]

/-- The run that is stored has the same ready nodes as the one in memory. -/
theorem Mirrors.readyNodes {state : RunState} (h : Mirrors state c) :
    (fromRunState state).readyNodes = c.run.readyNodes := by
  have hdeps : dependencySets (fromRunState state).dependencies = dependencySets c.run.dependencies := by
    rw [dependencySets_fromRunState, h.dependencies]
  ext m
  rw [mem_readyNodes, mem_readyNodes, fromRunState_statuses, h.statuses]
  simp only [mem_depsOf_congr hdeps]

/-- Write-through: whenever a coordinator waits that alone writes its run, the store has what it has in memory,
and its version has grown by one for each accepted save. A coordinator that is spawned for the stored state
has the same statuses and dependencies, and before it waits it dispatches nothing and changes nothing. -/
theorem waiting_stored {w : Shelf} {c : Coordinator} (h : storing.Reaches coordinator w (.ret c none)) :
    ∃ state, w.store.loadRun c.runId = some state ∧ Mirrors state c ∧
      c.stateVersion = w.first + w.persists ∧
      ∀ refused p, (resuming state).Reaches coordinator refused p →
        p.state.run.statuses = c.run.statuses ∧
        dependencySets p.state.run.dependencies = dependencySets c.run.dependencies ∧
        (∀ runId metadata node pipeline, p.pending ≠ some (.dispatch runId metadata node pipeline)) ∧
        (refused = false → ∀ c' summary, p ≠ .ret c' (some summary)) := by
  have hkept : Kept .waiting w c := tracking.waiting Course.describes h
  obtain ⟨state, hl, ht⟩ := hkept.stored.resolve_left (by simp [Stage.over])
  have hm : Mirrors state c := ⟨ht.version, ht.statuses rfl, ht.dependencies, ht.pipeline⟩
  obtain ⟨hready, n, hn⟩ := waiting_settled h
  have hready' : (fromRunState state).readyNodes = ∅ := by rw [hm.readyNodes, hready]
  have hcomplete : (fromRunState state).isComplete = false := by
    rw [← Bool.not_eq_true, isComplete_iff, fromRunState_statuses, hm.statuses]
    exact fun hc => hc.1 n hn
  refine ⟨state, hl, hm, hkept.counted, ?_⟩
  intro refused p hp
  obtain ⟨hrun, hnone, hends⟩ := resuming_dispatches_none hready' hcomplete hp
  refine ⟨?_, ?_, hnone, hends⟩
  · rw [hrun, fromRunState_statuses, hm.statuses]
  · rw [hrun, dependencySets_fromRunState, hm.dependencies]

/-- The coordinator of a new run has saved once when it waits for its first node. -/
theorem waiting_stored_buildAndTest :
    ∃ w c state, storing.Reaches coordinator w (.ret c none) ∧ w.persists = 1 ∧
      w.store.loadRun c.runId = some state ∧ Mirrors state c ∧
      c.run.statuses.lookup "build" = some .running := by
  let c₀ := freshCoordinator .default "run" .buildAndTest
  let first := c₀.run.toRunState 0 .buildAndTest
  let w₀ : Shelf := ⟨(RedisStateStore.empty.saveRun "run" first 0).2, 0, 0⟩
  have h : storing.Leads coordinator w₀ (coordinator.start c₀) fun w p =>
      ∃ c, p = .ret c none ∧ w.persists = 1 ∧ c.run.statuses.lookup "build" = some .running := by
    refine .call () _ rfl ?_
    refine .call (.ok ()) _ rfl ?_
    refine .call () _ rfl ?_
    refine .call () _ rfl ?_
    refine .call ⟨["build"], by decide⟩ _ rfl ?_
    refine .call (.ok ()) _ rfl ?_
    refine .call (.ok true) _ ⟨_, .refl _, rfl, rfl⟩ ?_
    refine .call ⟨0, 0⟩ _ rfl ?_
    refine .call (.ok ()) _ rfl ?_
    refine .call (0 : Nat) _ rfl ?_
    exact .here ⟨_, rfl, rfl, by decide⟩
  obtain ⟨w, p, hr, c, rfl, hpersists, hbuild⟩ :=
    h.reaches ⟨begins_fresh _ _ _, rfl, rfl, first, rfl, rfl, rfl, rfl, rfl⟩
  obtain ⟨state, hl, hm, _⟩ := waiting_stored hr
  exact ⟨w, c, state, hr, hpersists, hl, hm, hbuild⟩

end Jefferies.Coordination
