import Jefferies.Coordination.Cluster
import Jefferies.Coordination.Invariant

/-!
# Invariants of tasks

`Serves` lists what a monitor has to grant the tasks of a server, the reaper among them: one obligation for
each kind of call, and what a task knows from the answers it had.
-/

namespace Jefferies.Coordination

open Pipelines StateStore RunHistory Interaction Interact Monitor

variable {Γ : Type}

/-- Calls that a task makes at any time and that decide nothing. -/
inductive Aside : Effect → Prop
  | newUuid : Aside .newUuid
  | utcNow : Aside .utcNow
  | stateKeys : Aside .stateKeys
  | leaseExists (runId) : Aside (.leaseExists runId)
  | listManagedRunIds : Aside .listManagedRunIds
  | reporterForRun (context) : Aside (.reporterForRun context)
  | startPodWatcher (runId names) : Aside (.startPodWatcher runId names)
  | cleanupRun (runId) : Aside (.cleanupRun runId)
  | releaseLease (runId) : Aside (.releaseLease runId)
  | deleteRun (runId) : Aside (.deleteRun runId)

/-- A call that neither reads nor writes the state of a run, nor hands it on. -/
def Apart : Effect → Prop
  | .loadRun _ => False
  | .saveRun .. => False
  | .spawnCoordinator _ => False
  | _ => True

/-- What a monitor grants the tasks of a server. `live` is the invariant; the other predicates are what a task
has learned: that a run has a pipeline and a context, a row of a run, the state that a run's last load found
or that it found none, a lease, the rows of a run's nodes, and an outcome of a node. -/
structure Serves (M : Monitor Γ Unit ReaperTick Resp) (services : Services) where
  live : Γ → Prop
  source : Γ → String → Pipeline → RunContext → Prop
  row : Γ → String → PipelineRunRow → Prop
  loaded : Γ → String → RunState → Prop
  absent : Γ → String → Prop
  holds : Γ → String → String → Nat → Prop
  nodes : Γ → String → HashMap String NodeRunRow → Prop
  reported : Γ → String → String → Bool → Prop
  source_next : ∀ γ m r p x, source γ r p x → source (M.next γ m) r p x
  row_next : ∀ γ m r w, row γ r w → row (M.next γ m) r w
  nodes_next : ∀ γ m r b, nodes γ r b → nodes (M.next γ m) r b
  reported_next : ∀ γ m r n b, reported γ r n b → reported (M.next γ m) r n b
  loaded_next : ∀ γ e a r st, Apart e → loaded γ r st → loaded (M.next γ (.answered () e a)) r st
  absent_next : ∀ γ e a r, Apart e → absent γ r → absent (M.next γ (.answered () e a)) r
  holds_next : ∀ γ e a r s v, (∀ c, e ≠ .spawnCoordinator c) → holds γ r s v →
    holds (M.next γ (.answered () e a)) r s v
  source_loaded : ∀ γ r w st, row γ r w → loaded γ r st → source γ r st.pipeline (runContextFromRow w)
  source_parsed : ∀ γ r w p, row γ r w → services.parsePipeline w.pipelineDefinition = .ok p →
    source γ r p (runContextFromRow w)
  nodes_insert : ∀ γ r b n x success startedAt completedAt, nodes γ r b → b.lookup n = some x →
    reported γ r n success → nodes γ r (b.insert n
      { x with success := some success, startedAt := startedAt, completedAt := completedAt })
  tick : ∀ γ t, live γ → M.assume γ (.received () t) → live (M.next γ (.received () t))
  aside : ∀ γ e, live γ → Aside e → M.ok γ () e ∧
    ∀ a, M.assume γ (.answered () e a) → live (M.next γ (.answered () e a))
  load : ∀ γ r, live γ → M.ok γ () (.loadRun r) ∧ ∀ a, M.assume γ (.answered () (.loadRun r) a) →
    live (M.next γ (.answered () (.loadRun r) a)) ∧
    (∀ st, a = .ok (some st) → loaded (M.next γ (.answered () (.loadRun r) a)) r st) ∧
    (a = .ok none → absent (M.next γ (.answered () (.loadRun r) a)) r)
  getRow : ∀ γ r st, live γ → loaded γ r st → M.ok γ () (.getPipelineRun r) ∧
    ∀ a, M.assume γ (.answered () (.getPipelineRun r) a) →
      live (M.next γ (.answered () (.getPipelineRun r) a)) ∧
      ∀ w, a = .ok (some w) → row (M.next γ (.answered () (.getPipelineRun r) a)) r w
  listRows : ∀ γ, live γ → M.ok γ () .listInProgressRuns ∧
    ∀ a, M.assume γ (.answered () .listInProgressRuns a) →
      live (M.next γ (.answered () .listInProgressRuns a)) ∧
      ∀ ws, a = .ok ws → ∀ w ∈ ws, row (M.next γ (.answered () .listInProgressRuns a)) w.runId w
  listNodes : ∀ γ r w, live γ → row γ r w → M.ok γ () (.listNodeRuns r) ∧
    ∀ a, M.assume γ (.answered () (.listNodeRuns r) a) →
      live (M.next γ (.answered () (.listNodeRuns r) a)) ∧
      ∀ l, a = .ok l → nodes (M.next γ (.answered () (.listNodeRuns r) a)) r
        (HashMap.ofList (l.map fun nr => (nr.nodeName, nr)))
  outcome : ∀ γ r w n, live γ → row γ r w → M.ok γ () (.getNodeOutcome r n) ∧
    ∀ a, M.assume γ (.answered () (.getNodeOutcome r n) a) →
      live (M.next γ (.answered () (.getNodeOutcome r n) a)) ∧
      ∀ o b, a = .ok (some o) → o.success = some b →
        reported (M.next γ (.answered () (.getNodeOutcome r n) a)) r n b
  recordNode : ∀ γ record, live γ → reported γ record.runId record.nodeName record.success →
    M.ok γ () (.recordNodeRun record) ∧ ∀ a, M.assume γ (.answered () (.recordNodeRun record) a) →
      live (M.next γ (.answered () (.recordNodeRun record) a))
  finalizeLoaded : ∀ γ r st t, live γ → loaded γ r st →
    M.ok γ () (.finalizePipelineRunStatus r (outcomeStatusFor st) t) ∧
    ∀ a, M.assume γ (.answered () (.finalizePipelineRunStatus r (outcomeStatusFor st) t) a) →
      live (M.next γ (.answered () (.finalizePipelineRunStatus r (outcomeStatusFor st) t) a))
  finalizeNodes : ∀ γ r w p b status t, live γ → row γ r w →
    services.parsePipeline w.pipelineDefinition = .ok p → nodes γ r b →
    (status = .success → ∀ node ∈ p.nodeInfo, resultOf b node.name = some true) →
    M.ok γ () (.finalizePipelineRunStatus r status t) ∧
    ∀ a, M.assume γ (.answered () (.finalizePipelineRunStatus r status t) a) →
      live (M.next γ (.answered () (.finalizePipelineRunStatus r status t) a))
  saveReconstructed : ∀ γ r w p b, live γ → absent γ r → row γ r w →
    services.parsePipeline w.pipelineDefinition = .ok p → nodes γ r b →
    M.ok γ () (.saveRun r (reconstructRunStateFromPostgres p b) 0) ∧
    ∀ a, M.assume γ (.answered () (.saveRun r (reconstructRunStateFromPostgres p b) 0) a) →
      live (M.next γ (.answered () (.saveRun r (reconstructRunStateFromPostgres p b) 0) a))
  acquire : ∀ γ r s, live γ → M.ok γ () (.tryAcquireLease r s 30) ∧
    ∀ a, M.assume γ (.answered () (.tryAcquireLease r s 30) a) →
      live (M.next γ (.answered () (.tryAcquireLease r s 30) a)) ∧
      ∀ v, a = .ok (some v) → holds (M.next γ (.answered () (.tryAcquireLease r s 30) a)) r s v
  started : ∀ γ r p x, live γ → source γ r p x →
    M.ok γ () (.recordPipelineStarted (buildPipelineStartRecord r p x)) ∧
    ∀ a, M.assume γ (.answered () (.recordPipelineStarted (buildPipelineStartRecord r p x)) a) →
      live (M.next γ (.answered () (.recordPipelineStarted (buildPipelineStartRecord r p x)) a))
  saveNew : ∀ γ r p x, live γ → absent γ r → source γ r p x →
    M.ok γ () (.saveRun r ((PipelineRun.new p.nodeInfo).toRunState 0 p) 0) ∧
    ∀ a, M.assume γ (.answered () (.saveRun r ((PipelineRun.new p.nodeInfo).toRunState 0 p) 0) a) →
      live (M.next γ (.answered () (.saveRun r ((PipelineRun.new p.nodeInfo).toRunState 0 p) 0) a))
  spawnLoaded : ∀ γ r p x s v st reporter watcher c, live γ → holds γ r s v → source γ r p x →
    loaded γ r st → c = newCoordinator services.config r p reporter x s v (.fromRunState st) st.version true
      watcher →
    M.ok γ () (.spawnCoordinator c) ∧ ∀ a, M.assume γ (.answered () (.spawnCoordinator c) a) →
      live (M.next γ (.answered () (.spawnCoordinator c) a))
  spawnNew : ∀ γ r p x s v reporter watcher c, live γ → holds γ r s v → source γ r p x →
    c = newCoordinator services.config r p reporter x s v (.new p.nodeInfo) 0 false watcher →
    M.ok γ () (.spawnCoordinator c) ∧ ∀ a, M.assume γ (.answered () (.spawnCoordinator c) a) →
      live (M.next γ (.answered () (.spawnCoordinator c) a))

namespace Serves

variable {M : Monitor Γ Unit ReaperTick Resp} {services : Services} (V : Serves M services) {γ : Γ}

/-! ## Calls -/

theorem asideCall {e : Effect} (hl : V.live γ) (he : Aside e) (u : Unit) :
    M.Obeys ((call e : Task _) u) γ fun γ' _ _ => V.live γ' := V.aside γ e hl he

/-- The invariant, and what a task holds of a run. -/
def Holding (r s : String) (v : Nat) (p : Pipeline) (x : RunContext) (γ : Γ) : Prop :=
  V.live γ ∧ V.holds γ r s v ∧ V.source γ r p x

theorem holdingCall {e : Effect} {r s : String} {v : Nat} {p : Pipeline} {x : RunContext} {P : Γ → Prop}
    (h : V.Holding r s v p x γ) (he : ∀ c, e ≠ .spawnCoordinator c) (hP : P γ)
    (hnext : ∀ a, P γ → P (M.next γ (.answered () e a)))
    (hcall : M.ok γ () e ∧ ∀ a, M.assume γ (.answered () e a) → V.live (M.next γ (.answered () e a)))
    (u : Unit) :
    M.Obeys ((call e : Task _) u) γ fun γ' _ _ => V.Holding r s v p x γ' ∧ P γ' :=
  ⟨hcall.1, fun a ha =>
    ⟨⟨hcall.2 a ha, V.holds_next _ _ a _ _ _ he h.2.1, V.source_next _ _ _ _ _ h.2.2⟩, hnext a hP⟩⟩

/-! ## Starting a coordinator -/

/-- What `initializeRunState` leaves: a run loaded, or a new one. -/
def Initialized (r : String) (p : Pipeline) (γ : Γ) (result : PipelineRun × Nat × Bool) : Prop :=
  (∃ st, V.loaded γ r st ∧ result = (.fromRunState st, st.version, true)) ∨
    result = (.new p.nodeInfo, 0, false)

theorem Initialized.next {r : String} {p : Pipeline} {result : PipelineRun × Nat × Bool} {e : Effect}
    (he : Apart e) (a : Resp e) (h : V.Initialized r p γ result) :
    V.Initialized r p (M.next γ (.answered () e a)) result :=
  h.imp (fun ⟨st, hst, heq⟩ => ⟨st, V.loaded_next γ e a r st he hst, heq⟩) id

theorem initializeRunState {r s : String} {v : Nat} {p : Pipeline} {x : RunContext}
    (h : V.Holding r s v p x γ) (u : Unit) :
    M.Obeys (initializeRunState r p.nodeInfo p u) γ fun γ' _ result =>
      V.Holding r s v p x γ' ∧ V.Initialized r p γ' result := by
  obtain ⟨hl, hh, hs⟩ := h
  have hload := V.load γ r hl
  refine ⟨hload.1, fun a ha => ?_⟩
  obtain ⟨hl₁, hloaded, habsent⟩ := hload.2 a ha
  have hh₁ := V.holds_next γ (.loadRun r) a _ _ _ (by simp) hh
  have hs₁ := V.source_next γ (.answered () (.loadRun r) a) _ _ _ hs
  rcases a with e | _ | st
  · exact ⟨⟨hl₁, hh₁, hs₁⟩, Or.inr rfl⟩
  · have hsave := V.saveNew _ r p x hl₁ (habsent rfl) hs₁
    refine ⟨hsave.1, fun b hb => ⟨⟨hsave.2 b hb, ?_, ?_⟩, Or.inr rfl⟩⟩
    · exact V.holds_next _ _ _ _ _ _ (by simp) hh₁
    · exact V.source_next _ _ _ _ _ hs₁
  · exact ⟨⟨hl₁, hh₁, hs₁⟩, Or.inl ⟨st, hloaded st rfl, rfl⟩⟩

theorem startCoordinator {r : String} {p : Pipeline} {x : RunContext} (hl : V.live γ)
    (hs : V.source γ r p x) (reporter : Bool) (u : Unit) :
    M.Obeys (startCoordinator services.config r p reporter x u) γ fun γ' _ _ => V.live γ' := by
  have hsrc : ∀ γ m, V.source γ r p x → V.source (M.next γ m) r p x := fun γ m => V.source_next γ m r p x
  refine ((V.asideCall hl .newUuid u).stable hsrc hs).seq ?_
  rintro γ₁ _ s ⟨hl₁, hs₁⟩
  refine Obeys.seq (P := fun γ' _ a => (V.live γ' ∧ ∀ v, a = .ok (some v) → V.holds γ' r s v) ∧
    V.source γ' r p x) ⟨(V.acquire γ₁ r s hl₁).1, fun a ha =>
      ⟨(V.acquire γ₁ r s hl₁).2 a ha, hsrc _ _ hs₁⟩⟩ ?_
  rintro γ₂ _ a ⟨⟨hl₂, hgrant⟩, hs₂⟩
  rcases a with e | _ | v
  · exact hl₂
  · exact hl₂
  · refine (V.holdingCall (P := fun _ => True) ⟨hl₂, hgrant v rfl, hs₂⟩ (by simp) trivial (fun _ => id)
      (V.started γ₂ r p x hl₂ hs₂) _).seq ?_
    rintro γ₃ _ _ ⟨h₃, _⟩
    refine (V.initializeRunState h₃ _).seq ?_
    rintro γ₄ _ ⟨run, stateVersion, isRehydrate⟩ ⟨h₄, hinit⟩
    refine (V.holdingCall (P := fun γ => V.Initialized r p γ (run, stateVersion, isRehydrate)) h₄ (by simp)
      hinit (fun a h => Initialized.next V (by trivial) a h) (V.aside γ₄ _ h₄.1 (.startPodWatcher r _)) _).seq ?_
    rintro γ₅ _ watcher ⟨⟨hl₅, hh₅, hs₅⟩, ⟨st, hst, he⟩ | he⟩
    · cases he
      exact V.spawnLoaded γ₅ r p x s v st reporter watcher _ hl₅ hh₅ hs₅ hst rfl
    · cases he
      exact V.spawnNew γ₅ r p x s v reporter watcher _ hl₅ hh₅ hs₅ rfl

theorem resumeRun {r : String} {p : Pipeline} {w : PipelineRunRow} (hl : V.live γ)
    (hs : V.source γ r p (runContextFromRow w)) (u : Unit) :
    M.Obeys (resumeRun services r p w u) γ fun γ' _ _ => V.live γ' := by
  unfold Coordination.resumeRun
  cases services.statusReporterFactory with
  | true =>
      refine ((V.asideCall hl (.reporterForRun _) u).stable (fun γ m => V.source_next γ m _ _ _) hs).seq ?_
      rintro γ₁ _ reporter ⟨hl₁, hs₁⟩
      exact (V.startCoordinator hl₁ hs₁ reporter _).seq fun _ _ _ h => h
  | false => exact (V.startCoordinator hl hs false u).seq fun _ _ _ h => h

/-! ## The reaper -/

/-- The invariant is kept. -/
def Keeping {α : Type} (m : Task α) : Prop :=
  ∀ γ u, V.live γ → M.Obeys (m u) γ fun γ' _ _ => V.live γ'

theorem keeping_forM {β : Type} {f : β → Task PUnit} (hf : ∀ x, V.Keeping (f x)) (l : List β) :
    V.Keeping (l.forM f) := fun _ _ hl =>
  obeys_forM (P := fun _ γ _ => V.live γ) (fun x _ γ u h => hf x γ u h) l hl

theorem keeping_aside {α : Type} {e : Effect} {f : Resp e → Task α} (he : Aside e)
    (hf : ∀ a, V.Keeping (f a)) : V.Keeping (call e >>= f) := fun _ u hl =>
  (V.asideCall hl he u).seq fun γ' u' a hl' => hf a γ' u' hl'

theorem keeping_pure {α : Type} (x : α) : V.Keeping (pure x) := fun _ _ hl => hl

theorem collectUnleased (wanted : RunState → Bool) (runIds : List String) :
    V.Keeping (collectUnleased wanted runIds) := by
  induction runIds with
  | nil => exact V.keeping_pure _
  | cons runId rest ih =>
      intro γ u hl
      refine ⟨(V.load γ runId hl).1, fun a ha => ?_⟩
      have hl₁ := ((V.load γ runId hl).2 a ha).1
      rcases a with e | _ | state
      · cases e with
        | serialization message => exact ih _ _ hl₁
        | _ => exact hl₁
      · exact ih _ _ hl₁
      · show M.Obeys ((if !wanted state then _ else _ : Task _) u) _ _
        split
        · exact ih _ _ hl₁
        · refine (V.asideCall hl₁ (.leaseExists runId) u).seq ?_
          intro γ₂ u₂ a hl₂
          rcases a with e | b
          · exact (ih γ₂ u₂ hl₂).seq fun _ _ _ h => h
          · cases b with
            | true => exact ih γ₂ u₂ hl₂
            | false => exact (ih γ₂ u₂ hl₂).seq fun _ _ _ h => h

theorem listUnleased (wanted : RunState → Bool) : V.Keeping (listUnleased wanted) := by
  refine V.keeping_aside .stateKeys fun a => ?_
  cases a with
  | error e => exact V.keeping_pure _
  | ok runIds => exact V.collectUnleased wanted runIds

theorem reapRun (runId : String) : V.Keeping (reapRun runId) :=
  V.keeping_aside (.cleanupRun runId) fun _ => V.keeping_aside (.releaseLease runId) fun _ =>
    V.keeping_aside (.deleteRun runId) fun _ => V.keeping_pure _

theorem reclaimOrphanedRun (runId : String) : V.Keeping (reclaimOrphanedRun services runId) := by
  intro γ u hl
  refine ⟨(V.load γ runId hl).1, fun a ha => ?_⟩
  obtain ⟨hl₁, hfound, _⟩ := (V.load γ runId hl).2 a ha
  rcases a with e | _ | state
  · exact hl₁
  · exact hl₁
  · have hget := V.getRow _ runId state hl₁ (hfound state rfl)
    refine ⟨hget.1, fun b hb => ?_⟩
    obtain ⟨hl₂, hrow⟩ := hget.2 b hb
    rcases b with e | _ | row
    · exact hl₂
    · exact V.reapRun runId _ _ hl₂
    · refine ⟨(V.load _ runId hl₂).1, fun b' hb' => ?_⟩
      obtain ⟨hl₃, hloaded, _⟩ := (V.load _ runId hl₂).2 b' hb'
      have hrow₃ := V.row_next _ (.answered () (.loadRun runId) b') _ _ (hrow row rfl)
      rcases b' with e | _ | state'
      · exact hl₃
      · exact hl₃
      · exact V.resumeRun hl₃ (V.source_loaded _ _ _ _ hrow₃ (hloaded state' rfl)) _

theorem reclaimOrphanedRuns : V.Keeping (reclaimOrphanedRuns services) := by
  intro γ u hl
  refine (V.listUnleased _ γ u hl).seq ?_
  intro γ₁ u₁ a hl₁
  cases a with
  | error e => exact hl₁
  | ok orphaned => exact V.keeping_forM V.reclaimOrphanedRun orphaned γ₁ u₁ hl₁

theorem sweepTerminalRedisRun (runId : String) : V.Keeping (sweepTerminalRedisRun runId) := by
  intro γ u hl
  refine ⟨(V.load γ runId hl).1, fun a ha => ?_⟩
  obtain ⟨hl₁, hloaded, _⟩ := (V.load γ runId hl).2 a ha
  rcases a with e | _ | state
  · exact hl₁
  · exact V.reapRun runId _ _ hl₁
  · refine Obeys.seq (P := fun γ' _ _ => V.live γ' ∧ V.loaded γ' runId state)
      ⟨(V.aside _ _ hl₁ .utcNow).1, fun now hnow =>
        ⟨(V.aside _ _ hl₁ .utcNow).2 now hnow, V.loaded_next _ _ _ _ _ trivial (hloaded state rfl)⟩⟩ ?_
    rintro γ₂ u₂ now ⟨hl₂, hloaded₂⟩
    refine ⟨(V.finalizeLoaded γ₂ runId state now hl₂ hloaded₂).1, fun b hb => ?_⟩
    have hl₃ := (V.finalizeLoaded γ₂ runId state now hl₂ hloaded₂).2 b hb
    cases b with
    | error e => exact hl₃
    | ok _ => exact V.reapRun runId _ _ hl₃

theorem sweepTerminalRedisRuns : V.Keeping sweepTerminalRedisRuns := by
  intro γ u hl
  refine (V.listUnleased _ γ u hl).seq ?_
  intro γ₁ u₁ a hl₁
  cases a with
  | error e => exact hl₁
  | ok terminal => exact V.keeping_forM V.sweepTerminalRedisRun terminal γ₁ u₁ hl₁

/-- What the sweep knows of a run that is in progress without stored state. -/
def Sweeping (r : String) (w : PipelineRunRow) (b : HashMap String NodeRunRow) (γ : Γ) : Prop :=
  V.live γ ∧ V.absent γ r ∧ V.row γ r w ∧ V.nodes γ r b

theorem Sweeping.next {r : String} {w : PipelineRunRow} {b : HashMap String NodeRunRow} {e : Effect}
    {a : Resp e} (h : V.Sweeping r w b γ) (he : Apart e) (hl : V.live (M.next γ (.answered () e a))) :
    V.Sweeping r w b (M.next γ (.answered () e a)) :=
  ⟨hl, V.absent_next _ _ _ _ he h.2.1, V.row_next _ _ _ _ h.2.2.1, V.nodes_next _ _ _ _ h.2.2.2⟩

theorem refreshNodeRun {r : String} {w : PipelineRunRow} {b : HashMap String NodeRunRow}
    (h : V.Sweeping r w b γ) (n : String) (u : Unit) :
    M.Obeys (refreshNodeRun r b n u) γ fun γ' _ b' => V.Sweeping r w b' γ' := by
  unfold Coordination.refreshNodeRun
  cases hx : b.lookup n with
  | none => exact h
  | some x =>
      dsimp only
      split
      · exact h
      · have hread := V.outcome γ r w n h.1 h.2.2.1
        refine ⟨hread.1, fun a ha => ?_⟩
        obtain ⟨hl₁, hreported⟩ := hread.2 a ha
        have h₁ := Sweeping.next V (a := a) h trivial hl₁
        rcases a with e | _ | ⟨_ | success, startedAt, _ | finishedMs⟩
        · exact h₁
        · exact h₁
        · exact h₁
        · exact h₁
        · exact h₁
        · have hrep := hreported _ success rfl rfl
          refine ⟨(V.recordNode _ _ h₁.1 hrep).1, fun c hc => ?_⟩
          have h₂ := Sweeping.next V (a := c) h₁ trivial ((V.recordNode _ _ h₁.1 hrep).2 c hc)
          cases c with
          | error e => exact h₂
          | ok _ =>
              refine ⟨h₂.1, h₂.2.1, h₂.2.2.1, ?_⟩
              exact V.nodes_insert _ _ _ _ _ _ _ _ h₂.2.2.2 hx (V.reported_next _ _ _ _ _ hrep)

theorem refreshNodeRuns {r : String} {w : PipelineRunRow} (names : List String) :
    ∀ {γ : Γ} {b : HashMap String NodeRunRow}, V.Sweeping r w b γ → ∀ u,
      M.Obeys (refreshNodeRuns r b names u) γ fun γ' _ b' => V.Sweeping r w b' γ' := by
  induction names with
  | nil => exact fun h _ => h
  | cons n rest ih => exact fun h u => (V.refreshNodeRun h n u).seq fun γ' u' b' h' => ih h' u'

theorem resultOf_success {b : HashMap String NodeRunRow} {p : Pipeline} {status : RunStatus}
    (hstatus : status = if (p.nodeInfo.map NodeInfo.name).all fun n => resultOf b n = some true then .success
      else .failure) (hs : status = .success) : ∀ node ∈ p.nodeInfo, resultOf b node.name = some true := by
  subst hs
  split at hstatus
  · rename_i hall
    intro node hnode
    simpa using List.all_eq_true.mp hall node.name (List.mem_map.mpr ⟨node, hnode, rfl⟩)
  · cases hstatus

theorem reconcilePostgresInProgressRun {r : String} {w : PipelineRunRow} (hl : V.live γ)
    (ha : V.absent γ r) (hw : V.row γ r w) (u : Unit) :
    M.Obeys (reconcilePostgresInProgressRun services r w u) γ fun γ' _ _ => V.live γ' := by
  unfold Coordination.reconcilePostgresInProgressRun
  cases hp : services.parsePipeline w.pipelineDefinition with
  | error e => exact hl
  | ok p =>
      dsimp only
      have hlist := V.listNodes γ r w hl hw
      refine ⟨hlist.1, fun a hassume => ?_⟩
      obtain ⟨hl₁, hnodes⟩ := hlist.2 a hassume
      cases a with
      | error e => exact hl₁
      | ok rows =>
          have h₁ : V.Sweeping r w _ (M.next γ (.answered () (.listNodeRuns r) (.ok rows))) :=
            ⟨hl₁, V.absent_next _ _ _ _ trivial ha, V.row_next _ _ _ _ hw, hnodes rows rfl⟩
          refine (V.refreshNodeRuns _ h₁ _).seq ?_
          rintro γ₂ u₂ b ⟨hl₂, ha₂, hw₂, hb₂⟩
          split
          · refine Obeys.seq (P := fun γ' _ _ => V.live γ' ∧ V.row γ' r w ∧ V.nodes γ' r b)
              ⟨(V.aside _ _ hl₂ .utcNow).1, fun now hnow => ⟨(V.aside _ _ hl₂ .utcNow).2 now hnow,
                V.row_next _ _ _ _ hw₂, V.nodes_next _ _ _ _ hb₂⟩⟩ ?_
            rintro γ₃ u₃ now ⟨hl₃, hw₃, hb₃⟩
            have hfin := V.finalizeNodes γ₃ r w p b _ now hl₃ hw₃ hp hb₃ (resultOf_success rfl)
            refine ⟨hfin.1, fun c hc => ?_⟩
            exact (V.asideCall (hfin.2 c hc) (.cleanupRun r) _).seq fun _ _ _ h => h
          · have hsave := V.saveReconstructed γ₂ r w p b hl₂ ha₂ hw₂ hp hb₂
            refine ⟨hsave.1, fun c hc => ?_⟩
            have hl₃ := hsave.2 c hc
            have hw₃ := V.row_next _ (.answered () (.saveRun r _ 0) c) _ _ hw₂
            rcases c with e | b'
            · exact hl₃
            · cases b' with
              | false => exact hl₃
              | true =>
                  exact (V.resumeRun hl₃ (V.source_parsed _ _ _ _ hw₃ hp) _).seq fun _ _ _ h => h

theorem sweepPostgresInProgressRun {w : PipelineRunRow} (hl : V.live γ) (hw : V.row γ w.runId w) (u : Unit) :
    M.Obeys (sweepPostgresInProgressRun services w u) γ fun γ' _ _ => V.live γ' := by
  refine ⟨(V.load γ w.runId hl).1, fun a ha => ?_⟩
  obtain ⟨hl₁, _, habsent⟩ := (V.load γ w.runId hl).2 a ha
  rcases a with e | _ | state
  · exact hl₁
  · exact (V.reconcilePostgresInProgressRun hl₁ (habsent rfl) (V.row_next _ _ _ _ hw) _).seq fun _ _ _ h => h
  · exact hl₁

theorem sweepPostgresInProgressRuns : V.Keeping (sweepPostgresInProgressRuns services) := by
  intro γ u hl
  refine ⟨(V.listRows γ hl).1, fun a ha => ?_⟩
  obtain ⟨hl₁, hrows⟩ := (V.listRows γ hl).2 a ha
  cases a with
  | error e => exact hl₁
  | ok rows =>
      -- the rows still to come are known to be rows of their runs
      let inv := fun (l : List PipelineRunRow) γ (_ : Unit) => V.live γ ∧ ∀ w ∈ l, V.row γ w.runId w
      refine (obeys_forM (P := inv) ?_ rows ⟨hl₁, hrows rows rfl⟩).mono fun _ _ _ h => h.1
      rintro w l γ u ⟨hl, hall⟩
      have hrest : ∀ γ m, (∀ w ∈ l, V.row γ w.runId w) → ∀ w ∈ l, V.row (M.next γ m) w.runId w :=
        fun γ m h w hw => V.row_next γ m _ _ (h w hw)
      exact (V.sweepPostgresInProgressRun hl (hall w (by simp)) u).stable hrest
        fun w hw => hall w (List.mem_cons_of_mem _ hw)

theorem sweepOrphanKubeResource (runId : String) : V.Keeping (sweepOrphanKubeResource runId) := by
  intro γ u hl
  refine ⟨(V.load γ runId hl).1, fun a ha => ?_⟩
  have hl₁ := ((V.load γ runId hl).2 a ha).1
  rcases a with e | _ | state
  · exact V.keeping_aside (.cleanupRun runId) (fun _ => V.keeping_aside (.deleteRun runId) fun _ =>
      V.keeping_pure _) _ _ hl₁
  · exact V.keeping_aside (.cleanupRun runId) (fun _ => V.keeping_pure _) _ _ hl₁
  · exact hl₁

theorem sweepOrphanKubeResources : V.Keeping sweepOrphanKubeResources := by
  refine V.keeping_aside .listManagedRunIds fun a => ?_
  cases a with
  | error e => exact V.keeping_pure _
  | ok managed => exact V.keeping_forM V.sweepOrphanKubeResource managed

theorem sweepStrandedResources : V.Keeping (sweepStrandedResources services) := fun γ u hl =>
  (V.sweepTerminalRedisRuns γ u hl).seq fun γ₁ u₁ _ hl₁ =>
    (V.sweepPostgresInProgressRuns γ₁ u₁ hl₁).seq fun γ₂ u₂ _ hl₂ => V.sweepOrphanKubeResources γ₂ u₂ hl₂

theorem reaperStart : V.Keeping (reaperStart services) := fun γ u hl =>
  (V.reclaimOrphanedRuns γ u hl).seq fun γ₁ u₁ _ hl₁ =>
    (V.sweepStrandedResources γ₁ u₁ hl₁).seq fun _ _ _ h => h

theorem reaperTick (t : ReaperTick) : V.Keeping (reaperTick services t) := fun γ u hl => by
  cases t with
  | lease => exact (V.reclaimOrphanedRuns γ u hl).seq fun _ _ _ h => h
  | sweep => exact (V.sweepStrandedResources γ u hl).seq fun _ _ _ h => h

end Serves

/-! ## The processes of the servers -/

/-- A monitor for all processes of the servers, with what it grants coordinators and tasks. -/
structure Discipline (d : Deployment) (Γ : Type) where
  monitor : Monitor Γ Local Input Resp
  coordinator : Keeps (monitor.comap .coordinator .event)
  task : Serves (monitor.comap (fun _ => .task) .tick) d.services

namespace Discipline

variable {d : Deployment} (D : Discipline d Γ) {γ : Γ}

/-- What holds of a process that waits. -/
def post (γ : Γ) : Local → Option Unit → Prop
  | .coordinator c, none => D.coordinator.live γ c
  | .task, none => D.task.live γ
  | _, some _ => True

theorem coordinator_obeys {p : Prog Coordinator Resp (Option RunSummary)}
    (h : (D.monitor.comap .coordinator .event).Obeys p γ D.coordinator.post) :
    D.monitor.Obeys (p.map .coordinator ended) γ D.post := by
  refine obeys_map.mpr (h.mono fun γ' c r hr => ?_)
  cases r with
  | none => exact hr
  | some summary => trivial

theorem task_obeys {m : Task (Option Unit)}
    (h : (D.monitor.comap (fun _ => .task) .tick).Obeys (m ()) γ fun γ' _ _ => D.task.live γ') :
    D.monitor.Obeys (taskProcess m) γ D.post := by
  refine obeys_map.mpr (h.mono fun γ' u r hr => ?_)
  cases r with
  | none => exact hr
  | some _ => trivial

theorem spawned_obeys {c : Coordinator} (h : D.coordinator.live γ c) :
    D.monitor.Obeys (coordinatorProcess c) γ D.post := D.coordinator_obeys (D.coordinator.start h)

theorem reaper_obeys (h : D.task.live γ) : D.monitor.Obeys (taskProcess (reaperStart d.services)) γ D.post :=
  D.task_obeys (D.task.reaperStart γ () h)

theorem launch_obeys {runId : String} {pipeline : Pipeline} {context : RunContext} (h : D.task.live γ)
    (hs : D.task.source γ runId pipeline context) (reporter : Bool) :
    D.monitor.Obeys (taskProcess (d.launchTask runId pipeline reporter context)) γ D.post :=
  D.task_obeys ((D.task.startCoordinator h hs reporter ()).seq fun _ _ _ h => h)

theorem handlers (γ : Γ) (s : Local) (i : Input) (h : D.post γ s none)
    (ha : D.monitor.assume γ (.received s i)) :
    D.monitor.Obeys (d.handle i s) (D.monitor.next γ (.received s i)) D.post := by
  cases s with
  | task =>
      cases i with
      | tick t => exact D.task_obeys (D.task.reaperTick t _ () (D.task.tick γ t h ha))
      | event e => trivial
  | coordinator c =>
      cases i with
      | event e => exact D.coordinator_obeys (D.coordinator.handlers h ha)
      | tick t => trivial

end Discipline

end Jefferies.Coordination
