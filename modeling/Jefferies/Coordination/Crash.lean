import Jefferies.Coordination.Passing
import Jefferies.Coordination.Rehydration
import Jefferies.Dispatching.KubeDispatcher

/-!
# A crash between a dispatch and its save

A node whose objects were created and whose status was not saved is still Pending in the stored state, and ready.
The next coordinator dispatches it once more; creating what is there is an error, and the node is marked Failed.
-/

namespace Jefferies.Coordination

open Pipelines StateStore RunHistory Interaction Interact Coordinator PipelineRun Dispatching

/-! ## What a crash leaves in the store -/

/-- The coordinators of one run and its store, one after the other. A save that is accepted stores the state, and
one that is rejected stores nothing; where the answer is an error, it may have been stored. -/
def keeping : Surroundings (Option RunState) Coordinator LoopEvent Resp :=
  { successions with
    starts := fun w c => Begins c ∧ c.isRehydrate = false ∧
      (w = none ∨ ∃ version, w = some (c.run.toRunState version c.pipeline))
    answers := fun w c e r w' => successions.answers w c e r w' ∧
      match e, r with
      | .saveRun _ state _, .ok true => w' = some state
      | .saveRun _ _ _, .ok false => w' = w
      | _, _ => True }

/-- Every Success of the run is stored, or nothing is dispatched any more. -/
def Stage.synced : Stage → Prop
  | .saving (.completed _ _) _ => False
  | .returned aborted _ => aborted = false
  | .relieving _ next => next.synced
  | .aborting _ next => next.synced
  | .arming _ _ next => next.synced
  | .closing _ => False
  | .concluding _ _ => False
  | .terminated _ _ _ => False
  | .closed _ => False
  | .quitting => False
  | .ended => False
  | _ => True

/-- The stored state is behind the coordinator, and not by a Success where those are stored. -/
structure Behind (t : Stage) (state : RunState) (c : Coordinator) : Prop where
  pipeline : state.pipeline = c.pipeline
  depsOf : ∀ n, ∀ d ∈ (fromRunState state).depsOf n, d ∈ c.run.depsOf n
  pending : ∀ n, c.run.statuses.lookup n = some .pending → state.statuses.lookup n = some .pending
  success : t.synced → ∀ n, c.run.statuses.lookup n = some .success → state.statuses.lookup n = some .success

variable {t t' : Stage} {c c' : Coordinator} {state : RunState} {n : String}

/-- What was just saved. -/
theorem behind_saved (t : Stage) (version : Nat) : Behind t (c.run.toRunState version c.pipeline) c := by
  constructor
  · rfl
  · intro n d hd
    exact mem_depsOf_fromRunState.mp hd
  · exact fun _ h => h
  · exact fun _ _ h => h

/-- What was just read. -/
theorem behind_read (hrun : c.run = fromRunState state) (hp : c.pipeline = state.pipeline) : Behind t state c := by
  constructor
  · exact hp.symm
  · rw [hrun]
    exact fun _ _ h => h
  · rw [hrun]
    exact fun _ h => h
  · rw [hrun]
    exact fun _ _ h => h

/-- A node is marked, and the Successes that are to be stored are those from before. -/
theorem Behind.marks {a : NodeStatus} (h : Behind t state c) (hm : Marks c.run c'.run n a) (ha : a ≠ .pending)
    (hp : c'.pipeline = c.pipeline)
    (hs : t'.synced → t.synced ∧ ∀ x, c'.run.statuses.lookup x = some .success →
      c.run.statuses.lookup x = some .success) : Behind t' state c' := by
  constructor
  · exact h.pipeline.trans hp.symm
  · intro x d hd
    rw [hm.depsOf]
    exact h.depsOf x d hd
  · intro x hx
    exact h.pending x ((hm.lookup_eq hx).resolve_right fun he => ha he.2.symm)
  · intro ht x hx
    exact h.success (hs ht).1 x ((hs ht).2 x hx)

/-- The stage alone changes. -/
theorem Behind.at (h : Behind t state c) (ht : t'.synced → t.synced) : Behind t' state c :=
  ⟨h.pipeline, h.depsOf, h.pending, fun hs => h.success (ht hs)⟩

theorem Moves.synced (hm : Moves t c t' c') (h : t'.synced) : t.synced ∧ ∀ n k, t ≠ .completing n true k := by
  cases hm with
  | succeed => exact h.elim
  | unsucceed => exact h.elim
  | aborts => exact h.elim
  | terminated => exact h.elim
  | relieves => exact h.elim
  | unwatches => exact h.elim
  | ends => exact h.elim
  | leaves => exact h.elim
  | gone => exact h.elim
  | unarmed => exact ⟨h, fun _ _ => Stage.noConfusion⟩
  | relieve => exact ⟨h, fun _ _ => Stage.noConfusion⟩
  | completes => exact ⟨rfl, fun _ _ => Stage.noConfusion⟩
  | waits => exact ⟨rfl, fun _ _ => Stage.noConfusion⟩
  | folds => exact ⟨rfl, fun _ _ => Stage.noConfusion⟩
  | promotes => exact ⟨rfl, fun _ _ => Stage.noConfusion⟩
  | _ => exact ⟨trivial, fun _ _ => Stage.noConfusion⟩

theorem Moves.behind (hm : Moves t c t' c') (h : Behind t state c) : Behind t' state c' := by
  obtain ⟨y, a, ha, hmark⟩ := hm.marks
  apply h.marks hmark ha (Moves.settings hm).1
  intro ht
  obtain ⟨hold, hne⟩ := hm.synced ht
  refine ⟨hold, fun x hx => (hm.succeeds hx).resolve_right ?_⟩
  rintro ⟨_, k, hk⟩
  exact hne x k hk

/-- Behind a save that was not accepted. -/
theorem next_synced {change : Change} {k : Caller} (h : (change.next k false).synced) :
    (Stage.saving change k).synced := by
  cases change with
  | completed => cases h
  | _ => trivial

/-- The call saves no state. -/
def Saveless : Effect → Prop
  | .saveRun _ _ _ => False
  | _ => True

theorem Asks.synced {e : Effect} {k : Resp e → Stage × Coordinator} (hk : Asks t c e k) (r : Resp e)
    (he : Saveless e) (h : (k r).1.synced) : t.synced := by
  cases hk with
  | save => exact he.elim
  | idle => exact h
  | abort => exact h
  | arm => exact h
  | part => exact h
  | close => exact h
  | terminate => exact h
  | conclude => exact h
  | _ => trivial

/-- Behind every call but a save. -/
theorem Asks.behind {e : Effect} {k : Resp e → Stage × Coordinator} (hk : Asks t c e k) (r : Resp e)
    (he : Saveless e) (h : Behind t state c) : Behind (k r).1 state (k r).2 := by
  obtain ⟨y, a, ⟨hs, hp⟩, hmark⟩ := hk.marks r
  apply h.marks hmark hp (Asks.settings hk r).1
  intro ht
  exact ⟨hk.synced r he ht, fun x hx => (hmark.lookup_eq hx).resolve_right fun he => hs he.2.symm⟩

variable {w w' : Option RunState}

/-- Only a save stores anything. -/
theorem keeping_stored {e : Effect} {r : Resp e} (he : Saveless e) (hr : keeping.answers w c e r w')
    (hw : w' = some state) : w = some state := by
  cases e with
  | saveRun => exact he.elim
  | deleteRun =>
      rcases hr.1 with h | h
      · exact h ▸ hw
      · cases h.symm.trans hw
  | _ => exact hr.1 ▸ hw

theorem behind_afterSave (t : Stage) (version : Nat) (r : Except StateStoreError Bool) :
    Behind t (c.run.toRunState version c.pipeline) (afterSave c r) := by
  rcases r with e | _ | _
  · exact behind_saved t version
  · exact behind_saved t version
  · exact ⟨rfl, (behind_saved t version).depsOf, fun _ h => h, fun _ _ h => h⟩

/-- Behind a save, whatever it was answered. -/
theorem saved_behind {change : Change} {k : Caller} {r : Except StateStoreError Bool}
    (h : ∀ state, w = some state → Behind (.saving change k) state c)
    (hr : keeping.answers w c (.saveRun c.runId (c.run.toRunState (c.stateVersion + 1) c.pipeline) c.stateVersion)
      r w') (hw : w' = some state) : Behind (change.next k (accepted r)) state (afterSave c r) := by
  obtain ⟨hold | hnew, hr⟩ := hr
  · rcases r with e | _ | _
    · exact (h state (hold ▸ hw)).at next_synced
    · exact (h state (hold ▸ hw)).at next_synced
    · cases hr.symm.trans hw
      exact behind_afterSave _ _ _
  · cases hnew.symm.trans hw
    exact behind_afterSave _ _ _

/-- What is stored is behind the coordinator, and the nodes in line are ready. -/
structure Backed (t : Stage) (w : Option RunState) (c : Coordinator) : Prop where
  cache : c.nodeInfoCache = nodeInfoCacheOf c.pipeline.nodeInfo
  lined : t.Lined c
  behind : ∀ state, w = some state → Behind t state c

def backing : course.Invariant keeping where
  holds := Backed
  start w c h := by
    obtain ⟨hb, _, hw⟩ := h
    refine ⟨hb.cache, lined_nil rfl, ?_⟩
    rintro state rfl
    rcases hw with hw | ⟨version, hw⟩
    · cases hw
    · cases hw
      exact behind_saved _ version
  move t w c t' c' h hm := by
    obtain ⟨hp, hcache, _⟩ := Moves.settings hm
    refine ⟨?_, hm.lined h.lined, fun state hw => hm.behind (h.behind state hw)⟩
    rw [hcache, hp]
    exact h.cache
  ask t w c e k r w' h hk hr := by
    obtain ⟨hp, hcache, _⟩ := hk.settings r
    refine ⟨?_, hk.lined h.lined r, ?_⟩
    · rw [hcache, hp]
      exact h.cache
    · intro state hw
      by_cases he : Saveless e
      · exact hk.behind r he (h.behind state (keeping_stored he hr hw))
      · cases hk with
        | save => exact saved_behind h.behind hr hw
        | idle hi => cases hi <;> exact absurd trivial he
        | part hi => cases hi <;> exact absurd trivial he
        | _ => exact absurd trivial he
  deliver w c i w' h hw := by
    obtain rfl := hw
    exact ⟨h.cache, lined_nil rfl, fun state hs => (h.behind state hs).at fun _ => trivial⟩
  drift _ _ _ _ _ h := h.elim
  restart t w c c' w' h hr := by
    obtain ⟨rfl, state, rfl, hb, hrun, hp⟩ := hr
    refine ⟨hb.cache, lined_nil rfl, ?_⟩
    rintro _ ⟨⟩
    exact behind_read hrun hp

/-- A node that a coordinator is dispatching is ready in what is stored. -/
theorem dispatching_ready {runId : String} {metadata : RunMetadata} {info : NodeInfo} {pipeline : Pipeline}
    {k : Except DispatchError Unit → Prog Coordinator Resp (Option RunSummary)}
    (h : keeping.Reaches coordinator (some state) (.call c (.dispatch runId metadata info pipeline) k)) :
    info.name ∈ (fromRunState state).readyNodes ∧
      (nodeInfoCacheOf state.pipeline.nodeInfo).lookup info.name = some info := by
  obtain ⟨t, k', hJ, hk⟩ := backing.calling Course.describes h
  cases hk with
  | idle he => cases he
  | part he => cases he
  | @dispatch _ n rest _ _ hinfo =>
      have hcache : NamesAgree c.nodeInfoCache := by
        rw [hJ.cache]
        exact namesAgree_nodeInfoCacheOf _
      obtain rfl := hcache n info hinfo
      have hb := hJ.behind state rfl
      obtain ⟨hpend, hdeps⟩ := mem_readyNodes.mp (hJ.lined.2 info.name List.mem_cons_self)
      constructor
      · apply mem_readyNodes.mpr
        exact ⟨hb.pending _ hpend, fun d hd => hb.success trivial d (hdeps d (hb.depsOf _ d hd))⟩
      · rw [hb.pipeline, ← hJ.cache]
        exact hinfo

/-! ## What the next coordinator does -/

/-- A coordinator that rehydrates `c₀` above the cluster `w₀`, up to its first wait. The node `n` has no status
yet. Deleting removes objects, or fails. -/
def recovering (stableHash : String → String) (n : String) (w₀ : Cluster) (c₀ : Coordinator) :
    Surroundings Cluster Coordinator LoopEvent Resp where
  starts w c := w = w₀ ∧ c = c₀
  answers
    | w, _, .dispatch runId metadata node _, r, w' => Dispatches stableHash runId metadata node w r w'
    | w, _, .readOutcomes _ _, r, w' => w' = w ∧ ∃ m, r = some m ∧ ¬Reports m n
    | w, _, .cancelNode _ _, _, w' => w'.configMaps ⊆ w.configMaps ∧ w'.jobs ⊆ w.jobs ∧ w'.refused = w.refused
    | w, _, .cleanupRun _, _, w' => w'.configMaps ⊆ w.configMaps ∧ w'.jobs ⊆ w.jobs ∧ w'.refused = w.refused
    | w, _, _, _, w' => w' = w
  delivers _ _ _ _ := False
  drifts _ _ := False
  restarts _ _ _ := False

/-- The node is marked Failed, and something of it was not created because it was there. -/
def Spoils (stableHash : String → String) (n : String) (w : Cluster) (c : Coordinator) (_ : Effect) : Prop :=
  c.run.statuses.lookup n = some .failed ∧ w.Refused stableHash c.runId n

variable {stableHash : String → String} {x : String} {w₀ w : Cluster} {c₀ : Coordinator}

theorem recovering_lenient : Lenient (recovering stableHash x w₀ c₀).answers := by
  intro w c e r he
  cases e with
  | dispatch => exact he.elim
  | readOutcomes => exact he.elim
  | cancelNode => exact he.elim
  | cleanupRun => exact he.elim
  | _ => rfl

/-- With some answers, the program does not end before the node is spoiled. -/
abbrev Spoiled {α : Type} (stableHash : String → String) (x : String) (w₀ : Cluster) (c₀ : Coordinator) (w : Cluster)
    (p : Prog Coordinator Resp α) : Prop :=
  Can (recovering stableHash x w₀ c₀).answers (Spoils stableHash x) (fun _ _ _ => False) w p

theorem Spoiled.seq {α β : Type} {m : Coord α} {f : α → Coord β}
    (h : Spoiled stableHash x w₀ c₀ w (m c)) : Spoiled stableHash x w₀ c₀ w ((m >>= f) c) :=
  Can.seq h fun _ _ _ hf => hf.elim

/-- The node is ready, its objects are there, and it can be dispatched but for them. -/
structure Doomed (stableHash : String → String) (info : NodeInfo) (w : Cluster) (c : Coordinator) : Prop where
  ready : info.name ∈ c.run.readyNodes
  known : c.nodeInfoCache.lookup info.name = some info
  able : lacksRepository c.runContext.runMetadata info = false
  object : w.HasObject stableHash c.runId info.name

variable {info : NodeInfo}

theorem Doomed.of_alike (h : Doomed stableHash info w c) (hc : Alike c c') : Doomed stableHash info w c' := by
  constructor
  · rw [hc.run]
    exact h.ready
  · rw [hc.cache]
    exact h.known
  · rw [hc.runContext]
    exact h.able
  · rw [hc.runId]
    exact h.object

theorem dispatchReadyNode_spoiled (h : Doomed stableHash info w c) :
    Spoiled stableHash info.name w₀ c₀ w (dispatchReadyNode info.name c) := by
  obtain ⟨message, w', hd, hr⟩ := dispatches_refused h.able h.object
  have hpend := (mem_readyNodes.mp h.ready).1
  unfold Coordinator.dispatchReadyNode
  simp only [get_bind, h.known]
  refine .call (.error (.kube message)) w' hd ?_
  refine .here ⟨?_, hr⟩
  show (c.run.markDispatchFailed info.name).2.statuses.lookup info.name = some .failed
  simp [markDispatchFailed, hpend]

theorem dispatchReadyNodes_spoiled (h : Doomed stableHash info w c) :
    Spoiled stableHash info.name w₀ c₀ w (dispatchReadyNodes c) := by
  obtain ⟨order, rest, hrest⟩ := Ordering.exists_append c.run.readyNodes [info.name] (by simp)
    (by simpa using h.ready)
  refine .call order w rfl ?_
  show Spoiled stableHash info.name w₀ c₀ w (order.1.forM Coordinator.dispatchReadyNode c)
  rw [hrest]
  apply Can.seq (P := fun _ _ _ => False)
  · exact dispatchReadyNode_spoiled h
  · exact fun _ _ _ hf => hf.elim

/-- No outcome is reported: nothing is folded or promoted, and the run is not complete. -/
theorem rehydrate_passes (h : Doomed stableHash info w c) :
    Can (recovering stableHash info.name w₀ c₀).answers (Spoils stableHash info.name)
      (fun w' c' a => w' = w ∧ Alike c c' ∧ a = none) w (rehydrate c) := by
  have hpend := (mem_readyNodes.mp h.ready).1
  have hmem : info.name ∈ c.run.nodesWith isNonTerminal := mem_nodesWith.mpr ⟨_, hpend, rfl⟩
  obtain ⟨order, rest, hrest⟩ := Ordering.exists_append _ [info.name] (by simp) (by simpa using hmem)
  let m : HashMap String ReconcileResult := HashMap.ofList (order.1.map fun n => (n, .stillRunning))
  have hstill : ∀ n r, m.lookup n = some r → r = .stillRunning := by
    intro n r hn
    rw [HashMap.lookup_ofList, Option.map_eq_some_iff] at hn
    obtain ⟨p, hp, rfl⟩ := hn
    obtain ⟨y, _, rfl⟩ := List.mem_map.mp (List.mem_reverse.mp (List.mem_of_find?_eq_some hp))
    rfl
  have hnone : ∀ n b, ¬Completes m n b := by
    rintro n b ⟨s, f, ho⟩
    cases hstill n _ ho
  have hnot : ∀ n, ¬Started m n := by
    rintro n ⟨s, ho⟩
    cases hstill n _ ho
  unfold Coordinator.rehydrate Coordinator.readOutcomesForNonTerminal
  refine .call order w rfl ?_
  simp only [Prog.ret_bind, hrest, List.singleton_append, List.isEmpty_cons, Bool.false_eq_true, ↓reduceIte]
  refine .call (some m) w ⟨rfl, m, rfl, ?_⟩ ?_
  · rintro (⟨b, s, f, ho⟩ | ⟨s, ho⟩)
    · exact hnone _ b ⟨s, f, ho⟩
    · exact hnot _ ⟨s, ho⟩
  apply (fold_passes recovering_lenient hnone).seq
  rintro _ c₁ _ ⟨rfl, h₁, rfl⟩
  simp only [Bool.false_eq_true, ↓reduceIte]
  apply (promote_passes recovering_lenient hnot).seq
  rintro _ c₂ _ ⟨rfl, h₂, rfl⟩
  simp only [Bool.false_eq_true, ↓reduceIte]
  apply (rehydratePhaseTimers_passes recovering_lenient m).seq
  rintro _ c₃ _ ⟨rfl, h₃, _⟩
  have hc := (h₁.trans h₂).trans h₃
  have hwaits : c₃.run.isComplete = false := by
    rw [Bool.eq_false_iff, Ne, isComplete_iff]
    rintro ⟨_, hno⟩
    have hready := (h.of_alike hc).ready
    rw [hno] at hready
    exact absurd hready (Finset.notMem_empty _)
  unfold Coordinator.afterHandler
  simp only [Bool.false_eq_true, ↓reduceIte, get_bind, hwaits]
  exact .ret ⟨rfl, hc, rfl⟩

theorem start_spoiled (h : Doomed stableHash info w c) (hre : c.isRehydrate = true) :
    Spoiled stableHash info.name w₀ c₀ w (start c) := by
  unfold Coordinator.start
  simp only [get_bind]
  refine .call () w rfl ?_
  simp only [Prog.ret_bind, hre, ↓reduceIte]
  apply (rehydrate_passes h).seq
  rintro _ c₁ _ ⟨rfl, h₁, rfl⟩
  unfold Coordinator.subscribeAndDispatch
  refine .call (.ok ()) _ rfl ?_
  refine .call () _ rfl ?_
  refine .call () _ rfl ?_
  exact (dispatchReadyNodes_spoiled (h.of_alike h₁)).seq

/-- In no run of the coordinator is the node marked Failed while something of it was not created because it was
there. -/
def Unspoiled (stableHash : String → String) (n : String) (w₀ : Cluster) (c₀ : Coordinator) : Prop :=
  ∀ w c e k, (recovering stableHash n w₀ c₀).Reaches coordinator w (.call c e k) → ¬Spoils stableHash n w c e

theorem Doomed.not_unspoiled (h : Doomed stableHash info w₀ c₀) (hre : c₀.isRehydrate = true) :
    ¬Unspoiled stableHash info.name w₀ c₀ := by
  intro hno
  have hleads : (recovering stableHash info.name w₀ c₀).Leads coordinator w₀ (coordinator.start c₀) _ :=
    (start_spoiled h hre).leads
  obtain ⟨w, p, hr, hp⟩ := hleads.reaches ⟨rfl, rfl⟩
  rcases hp with ⟨c, e, k, rfl, hg⟩ | ⟨_, _, _, hf⟩
  · exact hno w c e k hr hg
  · exact hf

section Crash

variable {runId : String} {metadata : RunMetadata} {pipeline : Pipeline} {context : RunContext}
  {k : Except DispatchError Unit → Prog Coordinator Resp (Option RunSummary)}

/-- Whatever was created for the node before the crash, and whoever rehydrates the run while it is there, can have
the node marked Failed because of it. -/
theorem crash_spoils {w' later : Cluster} {p : Prog Unit KubeResp (Option (Except DispatchError Unit))}
    (h : keeping.Reaches coordinator (some state) (.call c (.dispatch runId metadata info pipeline) k))
    (hd : Reached stableHash runId metadata info w w' p) (hnew : ¬w.HasObject stableHash runId info.name)
    (hobject : w'.HasObject stableHash runId info.name) (hlater : later.HasObject stableHash runId info.name)
    (hcontext : context.runMetadata = metadata) (config : AppConfig) (reporter : Bool) (serverId : String)
    (lease : Nat) (watcher : Bool) :
    ¬Unspoiled stableHash info.name { later with refused := [] }
      (newCoordinator config runId state.pipeline reporter context serverId lease (.fromRunState state)
        state.version true watcher) := by
  obtain ⟨hready, hinfo⟩ := dispatching_ready h
  have hable : lacksRepository metadata info = false := by
    rw [Bool.eq_false_iff]
    intro hl
    rw [hd.unchanged hl] at hobject
    exact hnew hobject
  apply Doomed.not_unspoiled _ rfl
  refine ⟨hready, hinfo, ?_, hlater⟩
  show lacksRepository context.runMetadata info = false
  rw [hcontext]
  exact hable

end Crash

/-- The first node of a new run is being dispatched. -/
theorem dispatching_build : ∃ c k, keeping.Reaches coordinator
    (some ((PipelineRun.new Pipeline.buildAndTest.nodeInfo).toRunState 0 .buildAndTest))
    (.call c (.dispatch "run" (RunContext.push "acme" "app" "").runMetadata
      (Pipeline.buildAndTest.infoOf (.plain "build" [])) .buildAndTest) k) := by
  let c := freshCoordinator .default "run" .buildAndTest
  let state := (PipelineRun.new Pipeline.buildAndTest.nodeInfo).toRunState 0 .buildAndTest
  have h : keeping.Leads coordinator (some state) (coordinator.start c) fun w p =>
      w = some state ∧ ∃ c k, p = .call c (.dispatch "run" (RunContext.push "acme" "app" "").runMetadata
        (Pipeline.buildAndTest.infoOf (.plain "build" [])) .buildAndTest) k := by
    refine .call () _ ⟨rfl, trivial⟩ ?_
    refine .call (.ok ()) _ ⟨rfl, trivial⟩ ?_
    refine .call () _ ⟨rfl, trivial⟩ ?_
    refine .call () _ ⟨rfl, trivial⟩ ?_
    refine .call ⟨["build"], by decide⟩ _ ⟨rfl, trivial⟩ ?_
    exact .here ⟨rfl, _, _, rfl⟩
  obtain ⟨_, _, hr, rfl, c, k, rfl⟩ := h.reaches ⟨begins_fresh _ _ _, rfl, .inr ⟨0, rfl⟩⟩
  exact ⟨c, k, hr⟩

/-- A server crashes where it has created the ConfigMap and not yet the Job. -/
theorem crash_spoils_build :
    ∃ (state : RunState) (left : Cluster), left.hasConfigMap (configmapName id "run" "build") ∧ left.jobs = [] ∧
      ¬Unspoiled id "build" left (newCoordinator .default "run" state.pipeline false (.push "acme" "app" "") "server" 2
        (.fromRunState state) state.version true false) := by
  let metadata := (RunContext.push "acme" "app" "").runMetadata
  let info := Pipeline.buildAndTest.infoOf (.plain "build" [])
  obtain ⟨c, k, h⟩ := dispatching_build
  have hd : kubernetes.Leads (dispatching id "run" metadata info) ⟨[], [], []⟩
      ((dispatching id "run" metadata info).start ()) fun w _ =>
        w.hasConfigMap (configmapName id "run" "build") ∧ w.jobs = [] := by
    refine .call (.ok "") _ rfl ?_
    refine .call (.ok "") _ rfl ?_
    refine .call (.ok ()) _ (.inr (.inl ⟨?_, rfl, rfl⟩)) ?_
    · rintro ⟨_, hcm, _⟩
      cases hcm
    · exact .here ⟨⟨_, List.mem_cons_self, rfl⟩, rfl⟩
  obtain ⟨w, p, hr, hcm, hjobs⟩ := hd
  refine ⟨(PipelineRun.new Pipeline.buildAndTest.nodeInfo).toRunState 0 .buildAndTest, { w with refused := [] }, hcm,
    hjobs, ?_⟩
  apply crash_spoils h hr ?_ (.inl hcm) (.inl hcm) rfl
  rintro (⟨_, hno, _⟩ | ⟨_, hno, _⟩) <;> cases hno

/-- A server crashes where it has created both; the next one finds the Job there, and the node is marked Failed. -/
theorem crash_not_harmless :
    let metadata := (RunContext.push "acme" "app" "").runMetadata
    let info := Pipeline.buildAndTest.infoOf (.plain "build" [])
    ∃ (state : RunState) (left : Cluster),
      (∃ c k, keeping.Reaches coordinator (some state) (.call c (.dispatch "run" metadata info .buildAndTest) k)) ∧
      (∃ p, Reached id "run" metadata info ⟨[], [], []⟩ left p) ∧ left.hasJob (jobName id "run" "build") ∧
      left.refused = [] ∧
      ¬Unspoiled id "build" left (newCoordinator .default "run" state.pipeline false (.push "acme" "app" "") "server" 2
        (.fromRunState state) state.version true false) := by
  intro metadata info
  obtain ⟨c, k, h⟩ := dispatching_build
  have hd : kubernetes.Leads (dispatching id "run" metadata info) ⟨[], [], []⟩
      ((dispatching id "run" metadata info).start ()) fun w _ =>
        w.hasJob (jobName id "run" "build") ∧ w.refused = [] := by
    refine .call (.ok "") _ rfl ?_
    refine .call (.ok "") _ rfl ?_
    refine .call (.ok ()) _ (.inr (.inl ⟨?_, rfl, rfl⟩)) ?_
    · rintro ⟨_, hcm, _⟩
      cases hcm
    · refine .call (.ok ()) _ (.inr (.inl ⟨?_, rfl, rfl⟩)) ?_
      · rintro ⟨_, hjob, _⟩
        cases hjob
      · exact .here ⟨⟨_, List.mem_cons_self, rfl⟩, rfl⟩
  obtain ⟨w, p, hr, hjob, hrefused⟩ := hd
  obtain ⟨hready, hinfo⟩ := dispatching_ready h
  refine ⟨_, w, ⟨c, k, h⟩, ⟨p, hr⟩, hjob, hrefused, ?_⟩
  show ¬Unspoiled id info.name w _
  apply Doomed.not_unspoiled _ rfl
  exact ⟨hready, hinfo, by decide, .inr hjob⟩

end Jefferies.Coordination
