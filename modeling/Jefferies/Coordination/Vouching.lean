import Jefferies.Coordination.Account

/-!
# What is known to have succeeded

A process knows of a success from an event, from S3, from a stored state or from a row of the run history. It
writes and reports as successful only what it knows, and that a whole run is only if it knows all its nodes.
-/

namespace Jefferies.Coordination

open Pipelines StateStore RunHistory Interaction Interact Monitor Transition Deployment

/-! ## What processes know -/

/-- Of a process: the run that it coordinates, the pipelines of runs, and the nodes that have succeeded. -/
structure Insight where
  own : Option String
  launched : String → Option Pipeline
  seen : String → String → Prop

/-- Every node of the pipeline has a status. -/
def Covers (pipeline : Pipeline) (statuses : HashMap String NodeStatus) : Prop :=
  ∀ node ∈ pipeline.nodeInfo, node.name ∈ statuses.keys

/-- An answer shows that the node of the run has succeeded. -/
def Shows : (e : Effect) → Resp e → String → String → Prop
  | .loadRun r, .ok (some state), runId, nodeName => runId = r ∧ state.statuses.lookup nodeName = some .success
  | .listNodeRuns r, .ok rows, runId, nodeName =>
      runId = r ∧ ∃ row ∈ rows, row.nodeName = nodeName ∧ row.success = some true
  | .getNodeOutcome r n, .ok (some outcome), runId, nodeName =>
      runId = r ∧ nodeName = n ∧ outcome.success = some true
  | .readOutcomes r _, some outcomes, runId, nodeName =>
      runId = r ∧ ∃ s f, outcomes.lookup nodeName = some (.completed true s f)
  | _, _, _, _ => False

section

variable (parsePipeline : String → Except PipelineError Pipeline)

/-- The pipeline of a run that an answer shows. -/
def shownPipeline : (e : Effect) → Resp e → String → Option Pipeline
  | .loadRun r, .ok (some state), runId => if runId = r then some state.pipeline else none
  | .listInProgressRuns, .ok rows, runId =>
      (rows.find? fun row => row.runId = runId).bind fun row => (parsePipeline row.pipelineDefinition).toOption
  | _, _, _ => none

namespace Insight

def answered (γ : Insight) (e : Effect) (a : Resp e) : Insight :=
  { γ with
    launched := fun runId => (γ.launched runId).or (shownPipeline parsePipeline e a runId)
    seen := fun runId nodeName => γ.seen runId nodeName ∨ Shows e a runId nodeName }

def told (γ : Insight) (runId nodeName : String) : Insight :=
  { γ with seen := fun r n => γ.seen r n ∨ (r = runId ∧ n = nodeName) }

def next (γ : Insight) : Moment Local Input Resp → Insight
  | .answered _ e a => γ.answered parsePipeline e a
  | .received (.coordinator c) (.event (.backplane (some (.nodeCompleted nodeName true)))) => γ.told c.runId nodeName
  | .received _ _ => γ

/-- The text is a document of the run's pipeline. -/
def Defines (γ : Insight) (runId definition : String) : Prop :=
  ∃ pipeline, γ.launched runId = some pipeline ∧ parsePipeline definition = .ok pipeline

end Insight

end

namespace Insight

/-- Every node of the run is known to have succeeded. -/
def AllSeen (γ : Insight) (runId : String) : Prop :=
  ∃ pipeline, γ.launched runId = some pipeline ∧ ∀ node ∈ pipeline.nodeInfo, γ.seen runId node.name

/-- The statuses are those of the run's pipeline, and each success among them is known. -/
structure Vouches (γ : Insight) (runId : String) (pipeline : Pipeline) (statuses : HashMap String NodeStatus) :
    Prop where
  launched : γ.launched runId = some pipeline
  covers : Covers pipeline statuses
  seen : ∀ nodeName, statuses.lookup nodeName = some .success → γ.seen runId nodeName

/-- The second process knows at least what the first one does, of the same run. -/
structure Le (γ γ' : Insight) : Prop where
  own : γ'.own = γ.own
  launched : ∀ runId pipeline, γ.launched runId = some pipeline → γ'.launched runId = some pipeline
  seen : ∀ runId nodeName, γ.seen runId nodeName → γ'.seen runId nodeName

variable {parsePipeline : String → Except PipelineError Pipeline} {γ γ' : Insight} {runId definition : String}
  {pipeline : Pipeline} {statuses : HashMap String NodeStatus}

theorem le_answered (γ : Insight) (e : Effect) (a : Resp e) : γ.Le (γ.answered parsePipeline e a) where
  own := rfl
  launched r p h := by simp [answered, h]
  seen _ _ h := Or.inl h

theorem le_told (γ : Insight) (runId nodeName : String) : γ.Le (γ.told runId nodeName) where
  own := rfl
  launched _ _ h := h
  seen _ _ h := Or.inl h

theorem le_next (γ : Insight) (m : Moment Local Input Resp) : γ.Le (γ.next parsePipeline m) := by
  unfold next
  split
  · exact γ.le_answered _ _
  · exact γ.le_told _ _
  · exact ⟨rfl, fun _ _ h => h, fun _ _ h => h⟩

namespace Le

theorem defines (hle : γ.Le γ') (h : γ.Defines parsePipeline runId definition) :
    γ'.Defines parsePipeline runId definition := by
  obtain ⟨p, hp, hparse⟩ := h
  exact ⟨p, hle.launched _ _ hp, hparse⟩

theorem vouches (hle : γ.Le γ') (h : γ.Vouches runId pipeline statuses) : γ'.Vouches runId pipeline statuses :=
  ⟨hle.launched _ _ h.launched, h.covers, fun n hn => hle.seen _ _ (h.seen n hn)⟩

end Le

theorem Vouches.allSeen (h : γ.Vouches runId pipeline statuses)
    (hall : statuses.allValues (· = .success) = true) : γ.AllSeen runId := by
  refine ⟨pipeline, h.launched, fun node hnode => ?_⟩
  obtain ⟨a, ha⟩ := HashMap.mem_keys_iff_lookup.mp (h.covers node hnode)
  have hsuccess := HashMap.allValues_eq_true.mp hall node.name a ha
  exact h.seen node.name (by simpa [ha] using hsuccess)

/-- A mark is vouched for if it makes no node a success that is not known as one. -/
theorem Vouches.marks {run run' : PipelineRun} {n : String} {status : NodeStatus}
    (h : γ.Vouches runId pipeline run.statuses) (hm : PipelineRun.Marks run run' n status)
    (hs : status = .success → γ.seen runId n) : γ.Vouches runId pipeline run'.statuses where
  launched := h.launched
  covers node hnode := by
    rw [hm.keys]
    exact h.covers node hnode
  seen m hsuccess := by
    rcases hm.lookup_eq hsuccess with hold | ⟨rfl, hstatus⟩
    · exact h.seen m hold
    · exact hs hstatus.symm

/-- A new run has no success. -/
theorem vouches_new (h : γ.launched runId = some pipeline) :
    γ.Vouches runId pipeline (PipelineRun.new pipeline.nodeInfo).statuses where
  launched := h
  covers node hnode := (PipelineRun.new_statuses_keys _ _).mpr (List.mem_map.mpr ⟨node, hnode, rfl⟩)
  seen n hn := by cases PipelineRun.new_lookup hn

/-- The state that is made of the rows has the successes of the rows. -/
theorem vouches_reconstructed {byName : HashMap String NodeRunRow} (h : γ.launched runId = some pipeline)
    (hrows : ∀ n row, byName.lookup n = some row → row.success = some true → γ.seen runId n) :
    γ.Vouches runId pipeline (reconstructRunStateFromPostgres pipeline byName).statuses where
  launched := h
  covers node hnode := by
    simp only [reconstructRunStateFromPostgres, HashMap.mem_keys_ofList, List.map_map]
    exact List.mem_map.mpr ⟨node, hnode, rfl⟩
  seen n hn := by
    rw [reconstructRunStateFromPostgres, HashMap.lookup_ofList, Option.map_eq_some_iff] at hn
    obtain ⟨p, hp, hsuccess⟩ := hn
    have hname : p.1 = n := by simpa using List.find?_some hp
    obtain ⟨node, _, rfl⟩ := List.mem_map.mp (List.mem_reverse.mp (List.mem_of_find?_eq_some hp))
    obtain rfl : node.name = n := hname
    cases hrow : byName.lookup node.name with
    | none => simp [hrow, statusFromRow] at hsuccess
    | some row =>
        apply hrows node.name row hrow
        simp only [hrow, statusFromRow] at hsuccess
        split at hsuccess
        · assumption
        · cases hsuccess
        · cases hsuccess

end Insight

/-! ## What processes promise -/

/-- Successes are written and reported only where they are known. -/
def vouching (parsePipeline : String → Except PipelineError Pipeline) : Monitor Insight Local Input Resp where
  assume γ
    | .answered _ (.loadRun runId) (.ok (some state)) =>
        (∀ pipeline, γ.launched runId = some pipeline → pipeline = state.pipeline) ∧
          Covers state.pipeline state.statuses
    | .answered _ (.getPipelineRun runId) (.ok (some row)) =>
        ∀ pipeline, γ.launched runId = some pipeline → parsePipeline row.pipelineDefinition = .ok pipeline
    | .answered _ .listInProgressRuns (.ok rows) =>
        ∀ row ∈ rows, (γ.answered parsePipeline .listInProgressRuns (.ok rows)).Defines parsePipeline
          row.runId row.pipelineDefinition
    | _ => True
  ok γ _
    | .saveRun runId state _ => γ.Vouches runId state.pipeline state.statuses
    | .spawnCoordinator c =>
        γ.Vouches c.runId c.pipeline c.run.statuses ∧ parsePipeline c.runContext.pipelineYaml = .ok c.pipeline
    | .getPipelineRun runId => ∃ pipeline, γ.launched runId = some pipeline
    | .listNodeRuns runId => ∃ pipeline, γ.launched runId = some pipeline
    | .recordPipelineStarted record => γ.Defines parsePipeline record.runId record.pipelineDefinition
    | .recordPipelineRun record => γ.Defines parsePipeline record.runId record.pipelineDefinition ∧
        (record.status = .success → γ.AllSeen record.runId)
    | .finalizePipelineRunStatus runId status _ => status = .success → γ.AllSeen runId
    | .reportCompleted runId status => status = .success → γ.AllSeen runId
    | .recordNodeRun record => (∃ pipeline, γ.launched record.runId = some pipeline) ∧
        (record.success = true → γ.seen record.runId record.nodeName)
    | _ => True
  next γ m := γ.next parsePipeline m

section

variable {parsePipeline : String → Except PipelineError Pipeline}

/-- The coordinator knows its run, and every success that it holds. -/
structure Insight.Coordinates (parsePipeline : String → Except PipelineError Pipeline) (γ : Insight)
    (c : Coordinator) : Prop where
  own : γ.own = some c.runId
  vouches : γ.Vouches c.runId c.pipeline c.run.statuses
  parses : parsePipeline c.runContext.pipelineYaml = .ok c.pipeline

namespace Insight.Coordinates

variable {γ γ' : Insight} {c : Coordinator}

theorem le (h : γ.Coordinates parsePipeline c) (hle : γ.Le γ') : γ'.Coordinates parsePipeline c :=
  ⟨hle.own.trans h.own, hle.vouches h.vouches, h.parses⟩

theorem answered (h : γ.Coordinates parsePipeline c) (e : Effect) (a : Resp e) :
    (γ.answered parsePipeline e a).Coordinates parsePipeline c := h.le (γ.le_answered e a)

theorem marks {run : PipelineRun} {n : String} {status : NodeStatus} (h : γ.Coordinates parsePipeline c)
    (hm : PipelineRun.Marks c.run run n status) (hs : status = .success → γ.seen c.runId n) :
    γ.Coordinates parsePipeline (c.setRun run) := ⟨h.own, h.vouches.marks hm hs, h.parses⟩

theorem allSeen (h : γ.Coordinates parsePipeline c) (hs : c.outcomeStatus = .success) : γ.AllSeen c.runId := by
  apply h.vouches.allSeen
  unfold Coordinator.outcomeStatus at hs
  split at hs
  · assumption
  · cases hs

end Insight.Coordinates

/-- The node is known to have succeeded in the run that the process coordinates. -/
def Insight.SeenOwn (γ : Insight) (nodeName : String) : Prop := ∀ runId, γ.own = some runId → γ.seen runId nodeName

theorem Insight.Le.seenOwn {γ γ' : Insight} (hle : γ.Le γ') {n : String} (h : γ.SeenOwn n) : γ'.SeenOwn n := by
  intro runId hown
  exact hle.seen _ _ (h runId (hle.own.symm.trans hown))

theorem Insight.Coordinates.seenOwn {γ : Insight} {c : Coordinator} (h : γ.Coordinates parsePipeline c) {n : String}
    (hn : γ.seen c.runId n) : γ.SeenOwn n := by
  intro runId hown
  cases h.own.symm.trans hown
  exact hn

theorem vouching_le (γ : Insight) (m : Moment Coordinator LoopEvent Resp) :
    γ.Le (((vouching parsePipeline).comap .coordinator .event).next γ m) := by
  cases m with
  | answered c e a => exact γ.le_next (.answered (.coordinator c) e a)
  | received c i => exact γ.le_next (.received (.coordinator c) (.event i))

variable (parsePipeline) in
def vouchingCoordinator : Keeps ((vouching parsePipeline).comap .coordinator .event) where
  live γ c := γ.Coordinates parsePipeline c
  done γ c := γ.Coordinates parsePipeline c
  told γ n b := b = true → γ.SeenOwn n
  started _ _ := True
  read γ n := γ.SeenOwn n
  told_next γ m _ _ h hb := (vouching_le γ m).seenOwn (h hb)
  started_next _ _ _ _ := trivial
  read_next γ m _ h := (vouching_le γ m).seenOwn h
  receive γ c i hl _ := by
    refine ⟨hl.le (vouching_le γ (.received c i)), ?_⟩
    rintro n b rfl rfl
    exact (hl.le (γ.le_told c.runId n)).seenOwn (Or.inr ⟨rfl, rfl⟩)
  outcomes γ c nodes m hl _ := by
    have hl' := hl.answered (.readOutcomes c.runId nodes) (some m)
    refine ⟨?_, fun _ _ _ => trivial⟩
    rintro n b s f hn rfl
    exact hl'.seenOwn (Or.inr ⟨rfl, s, f, hn⟩)
  outcome γ c n o hl _ ho := by
    have hl' := hl.answered (.getNodeOutcome c.runId n) (.ok (some o))
    exact hl'.seenOwn (Or.inr ⟨rfl, rfl, ho⟩)
  frame _ _ _ _ hl := ⟨hl.own, hl.vouches, hl.parses⟩
  success γ c n hl ht := hl.marks (PipelineRun.marks_markSuccess _ n) fun _ => ht rfl _ hl.own
  failed _ _ n hl := hl.marks (PipelineRun.marks_markFailed _ n) (by simp)
  promoted _ _ n hl _ := hl.marks (PipelineRun.marks_markRunning _ n) (by simp)
  quiet γ c e hl he := by
    cases he <;> exact ⟨trivial, fun _ _ => hl.answered _ _⟩
  record γ c rec hl hid hs := by
    refine ⟨⟨⟨_, hid ▸ hl.vouches.launched⟩, fun hsuccess => ?_⟩, fun _ _ => hl.answered _ _⟩
    rw [hid]
    rcases hs hsuccess with hstatus | hread
    · exact hl.vouches.seen _ hstatus
    · exact hread _ hl.own
  save γ c hl := by
    refine ⟨hl.vouches, fun r _ => ?_⟩
    have hl' := hl.answered (.saveRun c.runId (c.run.toRunState (c.stateVersion + 1) c.pipeline) c.stateVersion) r
    rcases r with e | b
    · exact hl'
    · cases b <;> exact ⟨hl'.own, hl'.vouches, hl'.parses⟩
  dispatch γ c n info metadata hl _ _ := by
    refine ⟨trivial, fun r _ => ?_⟩
    have hl' := hl.answered (.dispatch c.runId metadata info c.pipeline) r
    cases r with
    | ok _ => exact hl'.marks (PipelineRun.marks_markRunning _ n) (by simp)
    | error e => exact hl'.marks (PipelineRun.marks_markDispatchFailed _ n) (by simp)
  finalize γ c status t hl hs :=
    ⟨⟨⟨_, hl.vouches.launched, hl.parses⟩, fun h => hl.allSeen (hs h)⟩, fun _ _ => hl.answered _ _⟩
  doneFrame _ _ _ _ hd := ⟨hd.own, hd.vouches, hd.parses⟩
  closing γ c e hd he := by
    cases he with
    | reportCompleted status hs => exact ⟨fun h => hd.allSeen (hs h), fun _ _ => hd.answered _ _⟩
    | _ => exact ⟨trivial, fun _ _ => hd.answered _ _⟩

theorem shown_loaded {γ : Insight} {runId : String} {state : RunState}
    (h : ∀ pipeline, γ.launched runId = some pipeline → pipeline = state.pipeline)
    (hcovers : Covers state.pipeline state.statuses) :
    (γ.answered parsePipeline (.loadRun runId) (.ok (some state))).Vouches runId state.pipeline state.statuses where
  launched := by
    cases hl : γ.launched runId with
    | none => simp [Insight.answered, shownPipeline, hl]
    | some pipeline => simp [Insight.answered, hl, h pipeline hl]
  covers := hcovers
  seen _ hn := Or.inr ⟨rfl, hn⟩

end

def vouchingTask (services : Services) :
    Serves ((vouching services.parsePipeline).comap (fun _ => .task) .tick) services where
  live _ := True
  source γ r p x := γ.launched r = some p ∧ services.parsePipeline x.pipelineYaml = .ok p
  row γ r w := γ.Defines services.parsePipeline r w.pipelineDefinition
  loaded γ r st := γ.Vouches r st.pipeline st.statuses
  absent _ _ := True
  holds _ _ _ _ := True
  nodes γ r b := ∀ n x, b.lookup n = some x → x.success = some true → γ.seen r n
  reported γ r n b := (∃ p, γ.launched r = some p) ∧ (b = true → γ.seen r n)
  source_next γ m r p x h := by
    cases m with
    | answered u e a => exact ⟨(γ.le_answered e a).launched r p h.1, h.2⟩
    | received u i => exact h
  row_next γ m r w h := by
    cases m with
    | answered u e a => exact (γ.le_answered e a).defines h
    | received u i => exact h
  nodes_next γ m r b h := by
    cases m with
    | answered u e a => exact fun n x hn hx => Or.inl (h n x hn hx)
    | received u i => exact h
  reported_next γ m r n b h := by
    cases m with
    | answered u e a =>
        obtain ⟨⟨p, hp⟩, hseen⟩ := h
        exact ⟨⟨p, (γ.le_answered e a).launched r p hp⟩, fun hb => Or.inl (hseen hb)⟩
    | received u i => exact h
  loaded_next γ e a r st _ h := (γ.le_answered e a).vouches h
  absent_next _ _ _ _ _ _ := trivial
  holds_next _ _ _ _ _ _ _ _ := trivial
  source_loaded γ r w st hrow hloaded := by
    obtain ⟨p, hp, hparse⟩ := hrow
    cases hloaded.launched.symm.trans hp
    exact ⟨hp, hparse⟩
  source_parsed γ r w p hrow hparse := by
    obtain ⟨p', hp, hparse'⟩ := hrow
    cases hparse.symm.trans hparse'
    exact ⟨hp, hparse⟩
  nodes_insert γ r b n x success startedAt completedAt hnodes hx hreported := by
    intro n' x' hn' hsuccess
    rw [HashMap.lookup_insert_eq_ite] at hn'
    split at hn'
    · rename_i hn
      subst hn
      cases hn'
      exact hreported.2 (Option.some.inj hsuccess)
    · exact hnodes n' x' hn' hsuccess
  tick _ _ _ _ := trivial
  aside γ e _ he := by
    cases he <;> exact ⟨trivial, fun _ _ => trivial⟩
  load γ r _ := by
    refine ⟨trivial, fun a ha => ⟨trivial, ?_, fun _ => trivial⟩⟩
    rintro st rfl
    exact shown_loaded ha.1 ha.2
  getRow γ r st _ hloaded := by
    refine ⟨⟨_, hloaded.launched⟩, fun a ha => ⟨trivial, ?_⟩⟩
    rintro w rfl
    exact ⟨_, (γ.le_answered _ _).launched _ _ hloaded.launched, ha _ hloaded.launched⟩
  listRows γ _ := by
    refine ⟨trivial, fun a ha => ⟨trivial, ?_⟩⟩
    rintro ws rfl w hw
    exact ha w hw
  listNodes γ r w _ hrow := by
    obtain ⟨p, hp, _⟩ := hrow
    refine ⟨⟨p, hp⟩, fun a _ => ⟨trivial, ?_⟩⟩
    rintro l rfl n x hn hx
    rw [HashMap.lookup_ofList, Option.map_eq_some_iff] at hn
    obtain ⟨q, hq, rfl⟩ := hn
    have hname : q.1 = n := by simpa using List.find?_some hq
    obtain ⟨nr, hnr, rfl⟩ := List.mem_map.mp (List.mem_reverse.mp (List.mem_of_find?_eq_some hq))
    exact Or.inr ⟨rfl, nr, hnr, hname, hx⟩
  outcome γ r w n _ hrow := by
    obtain ⟨p, hp, _⟩ := hrow
    refine ⟨trivial, fun a _ => ⟨trivial, ?_⟩⟩
    rintro o b rfl ho
    refine ⟨⟨p, (γ.le_answered _ _).launched r p hp⟩, ?_⟩
    rintro rfl
    exact Or.inr ⟨rfl, rfl, ho⟩
  recordNode γ record _ hreported := ⟨hreported, fun _ _ => trivial⟩
  finalizeLoaded γ r st t _ hloaded := by
    refine ⟨fun hs => hloaded.allSeen ?_, fun _ _ => trivial⟩
    unfold outcomeStatusFor at hs
    split at hs
    · assumption
    · cases hs
  finalizeNodes γ r w p b status t _ hrow hparse hnodes hall := by
    obtain ⟨p', hp, hparse'⟩ := hrow
    cases hparse.symm.trans hparse'
    refine ⟨fun hs => ⟨p, hp, fun node hnode => ?_⟩, fun _ _ => trivial⟩
    obtain ⟨x, hx, hsuccess⟩ := Option.bind_eq_some_iff.mp (hall hs node hnode)
    exact hnodes node.name x hx hsuccess
  saveReconstructed γ r w p b _ _ hrow hparse hnodes := by
    obtain ⟨p', hp, hparse'⟩ := hrow
    cases hparse.symm.trans hparse'
    exact ⟨Insight.vouches_reconstructed hp hnodes, fun _ _ => trivial⟩
  acquire _ _ _ _ := ⟨trivial, fun _ _ => ⟨trivial, fun _ _ => trivial⟩⟩
  started γ r p x _ hsource := ⟨⟨p, hsource⟩, fun _ _ => trivial⟩
  saveNew γ r p x _ _ hsource := ⟨Insight.vouches_new hsource.1, fun _ _ => trivial⟩
  spawnLoaded γ r p x s v st reporter watcher c _ _ hsource hloaded hc := by
    subst hc
    refine ⟨⟨⟨hsource.1, ?_, hloaded.seen⟩, hsource.2⟩, fun _ _ => trivial⟩
    cases hloaded.launched.symm.trans hsource.1
    exact hloaded.covers
  spawnNew γ r p x s v reporter watcher c _ _ hsource hc := by
    subst hc
    exact ⟨⟨Insight.vouches_new hsource.1, hsource.2⟩, fun _ _ => trivial⟩

def vouchingDiscipline (d : Deployment) : Discipline d Insight where
  monitor := vouching d.services.parsePipeline
  coordinator := vouchingCoordinator d.services.parsePipeline
  task := vouchingTask d.services

end Jefferies.Coordination
