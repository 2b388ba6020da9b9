import Jefferies.Coordination.Vouching

/-!
# Successes of runs

A run of the servers shows where each success comes from: a worker's event, an outcome in S3 or a status file
that some process read. Rows, stored states and coordinators have no other successes.
-/

namespace Jefferies.Coordination

open Pipelines StateStore RunHistory Interaction Monitor Transition Deployment

/-- A step observes that the node of the run completed with success. -/
inductive Observes (t : Event) (runId nodeName : String) : Prop
  | event {i : Nat} {c : Coordinator}
      (label : t.label = .deliver i (.event (.backplane (some (.nodeCompleted nodeName true)))))
      (waits : t.before.procs[i]? = some (some (.ret (.coordinator c) none))) (run : c.runId = runId)
  | outcome {i : Nat} {s : Local} {nodes : List String} {outcomes : HashMap String ReconcileResult}
      {startedAtMs : Option Nat} {finishedAtMs : Nat}
      (call : answeredCall t = some (i, s, .readOutcomes runId nodes, .outcomes (some outcomes)))
      (completed : outcomes.lookup nodeName = some (.completed true startedAtMs finishedAtMs))
  | status {i : Nat} {s : Local} {outcome : NodeOutcome}
      (call : answeredCall t = some (i, s, .getNodeOutcome runId nodeName, .outcome (some outcome)))
      (success : outcome.success = some true)

/-- Some step of the run observes it. -/
def Observed (h : List Event) (runId nodeName : String) : Prop := ∃ t ∈ h, Observes t runId nodeName

/-- Every row of a node that succeeded is of one that was observed to. -/
def RowsObserved (h : List Event) (history : PostgresRunHistory) : Prop :=
  ∀ e ∈ history.nodeRuns, e.row.success = some true → Observed h e.row.runId e.row.nodeName

/-- The run that a step writes to `pipeline_runs` as successful, or reports so. -/
def credited (parseRunId : String → Option String) (t : Event) : Option String :=
  match answeredCall t with
  | some (_, _, .recordPipelineRun record, reply) =>
      if record.status = .success ∧ reply.carriedOut = true then parseRunId record.runId else none
  | some (_, _, .finalizePipelineRunStatus runId status _, reply) =>
      if status = .success ∧ reply.carriedOut = true then parseRunId runId else none
  | some (_, _, .reportCompleted runId status, _) => if status = .success then some runId else none
  | _ => none

namespace Deployment

variable (d : Deployment)

/-- The pipeline that the run was launched with. -/
def pipelineOf (h : List Event) (runId : String) : Option Pipeline :=
  h.findSome? fun t =>
    match t.label with
    | .outside (.launch r yaml _ _) => if r = runId then (d.services.parsePipeline yaml).toOption else none
    | _ => none

/-- A run that is written or reported as successful was launched, and each of its nodes was observed to
succeed before. -/
def SuccessEarned (h : List Event) (t : Event) : Prop :=
  ∀ runId, credited d.parseRunId t = some runId → ∃ pipeline, d.pipelineOf h runId = some pipeline ∧
    ∀ node ∈ pipeline.nodeInfo, Observed h runId node.name

/-- What a process knows is true of the steps so far. -/
structure Informed (h : List Event) (γ : Insight) : Prop where
  launched : ∀ r p, γ.launched r = some p → d.pipelineOf h r = some p
  seen : ∀ r n, γ.seen r n → Observed h r n

/-- Every row defines the pipeline that its run was launched with. -/
def RowsDefine (h : List Event) (history : PostgresRunHistory) : Prop :=
  ∀ row ∈ history.pipelineRuns, ∃ p, d.pipelineOf h row.runId = some p ∧
    d.services.parsePipeline row.pipelineDefinition = .ok p

/-- What is stored is true of the steps so far. -/
structure Truthful (h : List Event) (w : World) : Prop where
  drawn : ∀ r p, d.pipelineOf h r = some p → r ∈ w.drawn ∧ d.parseRunId r = some r
  runs : ∀ r state, w.store.runs.lookup r = some state → d.pipelineOf h r = some state.pipeline ∧
    Covers state.pipeline state.statuses ∧ ∀ n, state.statuses.lookup n = some .success → Observed h r n
  rows : d.RowsDefine h w.history
  nodes : RowsObserved h w.history

end Deployment

variable {d : Deployment} {h : List Event} {t : Event} {σ : Servers} {w : World} {γ : Insight}

/-! ## One more step -/

theorem Observed.snoc {r n : String} (ho : Observed h r n) : Observed (h ++ [t]) r n := by
  obtain ⟨t', ht', hobs⟩ := ho
  exact ⟨t', List.mem_append_left _ ht', hobs⟩

theorem Observes.observed {r n : String} (ho : Observes t r n) : Observed (h ++ [t]) r n := ⟨t, by simp, ho⟩

theorem pipelineOf_snoc {r : String} {p : Pipeline} (hp : d.pipelineOf h r = some p) :
    d.pipelineOf (h ++ [t]) r = some p := by
  rw [pipelineOf] at hp
  rw [pipelineOf, List.findSome?_append, hp]
  rfl

/-- Only a launch gives a run a pipeline. -/
theorem pipelineOf_snoc_of_not_outside (ht : ∀ l, t.label ≠ .outside l) (r : String) :
    d.pipelineOf (h ++ [t]) r = d.pipelineOf h r := by
  rw [pipelineOf, pipelineOf, List.findSome?_append, List.findSome?_singleton]
  cases hl : t.label with
  | outside l => exact absurd hl (ht l)
  | _ => simp

theorem pipelineOf_launch {r runId yaml : String} {reporter : Bool} {context : RunContext} {p : Pipeline}
    (hl : t.label = .outside (.launch runId yaml reporter context)) (hp : d.services.parsePipeline yaml = .ok p) :
    d.pipelineOf (h ++ [t]) r = (d.pipelineOf h r).or (if runId = r then some p else none) := by
  rw [pipelineOf, pipelineOf, List.findSome?_append, List.findSome?_singleton, hl]
  simp [hp, Except.toOption]

namespace Deployment

theorem Informed.snoc (hi : d.Informed h γ) : d.Informed (h ++ [t]) γ :=
  ⟨fun r p hp => pipelineOf_snoc (hi.launched r p hp), fun r n hn => (hi.seen r n hn).snoc⟩

theorem Informed.allSeen (hi : d.Informed h γ) {r : String} (hs : γ.AllSeen r) :
    ∃ p, d.pipelineOf h r = some p ∧ ∀ node ∈ p.nodeInfo, Observed h r node.name := by
  obtain ⟨p, hp, hall⟩ := hs
  exact ⟨p, hi.launched r p hp, fun node hnode => hi.seen r _ (hall node hnode)⟩

theorem Informed.told (hi : d.Informed h γ) {r n : String} (ho : Observes t r n) :
    d.Informed (h ++ [t]) (γ.told r n) where
  launched r p hp := pipelineOf_snoc (hi.launched r p hp)
  seen r' n' hn := by
    rcases hn with hn | ⟨rfl, rfl⟩
    · exact (hi.seen r' n' hn).snoc
    · exact ho.observed

/-- The run that a process knows by its pipeline has this id in the tables too. -/
theorem Truthful.canonical (hw : d.Truthful h w) (hi : d.Informed h γ) {r uuid : String} {p : Pipeline}
    (hp : γ.launched r = some p) (hid : d.parseRunId r = some uuid) : uuid = r := by
  have hr := (hw.drawn r p (hi.launched r p hp)).2
  exact Option.some.inj (hid.symm.trans hr)

/-- The rows that are listed define the pipelines of their runs. -/
theorem Truthful.definesListed (hw : d.Truthful h w) (hi : d.Informed h γ) {row : PipelineRunRow}
    (hrow : row ∈ w.history.listInProgressRuns) :
    (γ.answered d.services.parsePipeline .listInProgressRuns (.ok w.history.listInProgressRuns)).Defines
      d.services.parsePipeline row.runId row.pipelineDefinition := by
  obtain ⟨p, hp, hparse⟩ := hw.rows row (List.mem_filter.mp hrow).1
  refine ⟨p, ?_, hparse⟩
  cases hγ : γ.launched row.runId with
  | some p' =>
      cases (hi.launched row.runId p' hγ).symm.trans hp
      simp [Insight.answered, hγ]
  | none =>
      have hsome : (w.history.listInProgressRuns.find? fun row' => row'.runId = row.runId).isSome = true :=
        List.find?_isSome.mpr ⟨row, hrow, by simp⟩
      obtain ⟨row', hrow'⟩ := Option.isSome_iff_exists.mp hsome
      obtain ⟨p', hp', hparse'⟩ := hw.rows row' (List.mem_filter.mp (List.mem_of_find?_eq_some hrow')).1
      have hrun : row'.runId = row.runId := by simpa using List.find?_some hrow'
      rw [hrun] at hp'
      cases hp.symm.trans hp'
      simp [Insight.answered, shownPipeline, hγ, hrow', hparse', Except.toOption]

/-- What a process is told by an answer is true. -/
theorem Truthful.assume (hw : d.Truthful h w) (hi : d.Informed h γ) {s : Local} {e : Effect} {reply : Reply}
    {a : Resp e × World} (hok : (vouching d.services.parsePipeline).ok γ s e)
    (ha : respond d.parseRunId w e reply = some a) :
    (vouching d.services.parsePipeline).assume γ (.answered s e a.1) := by
  cases e with
  | loadRun r =>
      rcases World.storeOp_cases ha with ⟨_, rfl⟩ | ⟨_, _, _, rfl⟩
      · cases hl : w.store.runs.lookup r with
        | none => simp [vouching, RedisStateStore.loadRun, hl]
        | some state =>
            obtain ⟨hp, hcovers, _⟩ := hw.runs r state hl
            simp only [vouching, RedisStateStore.loadRun, hl]
            exact ⟨fun p hγ => Option.some.inj ((hi.launched r p hγ).symm.trans hp), hcovers⟩
      · trivial
  | getPipelineRun r =>
      obtain ⟨found, w'⟩ := a
      rcases found with error | _ | row
      · trivial
      · trivial
      · intro p hγ
        obtain ⟨uuid, hid, hfound⟩ := PostgresRunHistory.getPipelineRun_ok (World.queryOp_ok ha rfl)
        obtain rfl := hw.canonical hi hγ hid
        obtain ⟨p', hp', hparse⟩ := hw.rows row (List.mem_of_find?_eq_some hfound.symm)
        have hrun : row.runId = uuid := by simpa using List.find?_some hfound.symm
        rw [hrun] at hp'
        cases (hi.launched uuid p hγ).symm.trans hp'
        exact hparse
  | listInProgressRuns =>
      obtain ⟨found, w'⟩ := a
      rcases found with error | rows
      · trivial
      · intro row hrow
        have hop : w.historyOp (.ok (w.history.listInProgressRuns, w.history)) reply = some (.ok rows, w') := ha
        obtain ⟨_, hrows⟩ := World.historyOp_ok hop rfl
        cases hrows
        exact hw.definesListed hi hrow
  | _ => trivial

/-- What an answer shows to have succeeded was observed before, or by this step. -/
theorem Truthful.shows (hw : d.Truthful h w) (hi : d.Informed h γ) {i : Nat} {s : Local} {e : Effect}
    {reply : Reply} {a : Resp e × World} (hok : (vouching d.services.parsePipeline).ok γ s e)
    (ha : respond d.parseRunId w e reply = some a) (hcall : answeredCall t = some (i, s, e, reply)) {r n : String}
    (hs : Shows e a.1 r n) : Observed (h ++ [t]) r n := by
  obtain ⟨x, w'⟩ := a
  cases e with
  | loadRun r' =>
      rcases x with error | _ | state
      · cases hs
      · cases hs
      · obtain ⟨rfl, hn⟩ := hs
        rcases World.storeOp_cases ha with ⟨_, heq⟩ | ⟨_, _, _, heq⟩
        · have hl : w.store.runs.lookup r = some state := (Except.ok.inj (congrArg Prod.fst heq)).symm
          exact ((hw.runs r state hl).2.2 n hn).snoc
        · cases heq
  | listNodeRuns r' =>
      rcases x with error | rows
      · cases hs
      · obtain ⟨rfl, row, hrow, rfl, hsuccess⟩ := hs
        obtain ⟨p, hp⟩ := hok
        obtain ⟨uuid, hid, rfl⟩ := PostgresRunHistory.listNodeRuns_ok (World.queryOp_ok ha rfl)
        obtain rfl := hw.canonical hi hp hid
        obtain ⟨entry, hentry, rfl⟩ := List.mem_map.mp hrow
        obtain ⟨hmem, hrun⟩ := List.mem_filter.mp hentry
        have hobs := hw.nodes entry hmem hsuccess
        rw [of_decide_eq_true hrun] at hobs
        exact hobs.snoc
  | getNodeOutcome r' n' =>
      rcases x with error | _ | outcome
      · cases hs
      · cases hs
      · obtain ⟨rfl, rfl, hsuccess⟩ := hs
        cases reply with
        | outcome o =>
            simp only [respond] at ha
            split at ha <;> cases ha
            exact (Observes.status hcall hsuccess).observed
        | _ => cases ha
  | readOutcomes r' nodes =>
      rcases x with _ | outcomes
      · cases hs
      · obtain ⟨rfl, startedAtMs, finishedAtMs, hcompleted⟩ := hs
        cases reply with
        | outcomes o =>
            simp only [respond] at ha
            split at ha <;> cases ha
            exact (Observes.outcome hcall hcompleted).observed
        | _ => cases ha
  | _ => cases hs

/-- The pipelines that an answer shows are those of the runs. -/
theorem Truthful.shownPipeline (hw : d.Truthful h w) {e : Effect} {reply : Reply} {a : Resp e × World}
    (ha : respond d.parseRunId w e reply = some a) {r : String} {p : Pipeline}
    (hp : Coordination.shownPipeline d.services.parsePipeline e a.1 r = some p) : d.pipelineOf h r = some p := by
  obtain ⟨x, w'⟩ := a
  cases e with
  | loadRun r' =>
      rcases x with error | _ | state
      · cases hp
      · cases hp
      · simp only [Coordination.shownPipeline] at hp
        split at hp
        · rename_i hr
          subst hr
          cases hp
          rcases World.storeOp_cases ha with ⟨_, heq⟩ | ⟨_, _, _, heq⟩
          · exact (hw.runs r state (Except.ok.inj (congrArg Prod.fst heq)).symm).1
          · cases heq
        · cases hp
  | listInProgressRuns =>
      rcases x with error | rows
      · cases hp
      · have hop : w.historyOp (.ok (w.history.listInProgressRuns, w.history)) reply = some (.ok rows, w') := ha
        obtain ⟨_, hrows⟩ := World.historyOp_ok hop rfl
        cases hrows
        obtain ⟨row, hrow, hparse⟩ := Option.bind_eq_some_iff.mp hp
        obtain ⟨p', hp', hparse'⟩ := hw.rows row (List.mem_filter.mp (List.mem_of_find?_eq_some hrow)).1
        have hrun : row.runId = r := by simpa using List.find?_some hrow
        rw [hparse'] at hparse
        cases hparse
        rwa [hrun] at hp'
  | _ => cases hp

theorem Informed.answered (hw : d.Truthful h w) (hi : d.Informed h γ) {i : Nat} {s : Local} {e : Effect}
    {reply : Reply} {a : Resp e × World} (hok : (vouching d.services.parsePipeline).ok γ s e)
    (ha : respond d.parseRunId w e reply = some a) (hcall : answeredCall t = some (i, s, e, reply)) :
    d.Informed (h ++ [t]) (γ.answered d.services.parsePipeline e a.1) where
  launched r p hp := by
    rcases Option.or_eq_some_iff.mp hp with hold | ⟨_, hnew⟩
    · exact pipelineOf_snoc (hi.launched r p hold)
    · exact pipelineOf_snoc (hw.shownPipeline ha hnew)
  seen r n hn := by
    rcases hn with hold | hnew
    · exact (hi.seen r n hold).snoc
    · exact hw.shows hi hok ha hcall hnew

/-! ## What is written -/

theorem Truthful.rowsAfter (hw : d.Truthful h w) (hi : d.Informed h γ) {s : Local} {e : Effect}
    (hok : (vouching d.services.parsePipeline).ok γ s e) :
    d.RowsDefine h (e.historyAfter d.parseRunId w.history) := by
  have hdefines : ∀ {r uuid definition : String}, d.parseRunId r = some uuid →
      γ.Defines d.services.parsePipeline r definition →
        ∃ p, d.pipelineOf h uuid = some p ∧ d.services.parsePipeline definition = .ok p := by
    rintro r uuid definition hid ⟨p, hp, hparse⟩
    obtain rfl := hw.canonical hi hp hid
    exact ⟨p, hi.launched _ p hp, hparse⟩
  cases e with
  | recordPipelineStarted record =>
      refine kept_induction (d.RowsDefine h) hw.rows ?_
      intro history hrec
      obtain ⟨uuid, retryOf, hid, hup⟩ := PostgresRunHistory.recordPipelineStarted_ok hrec
      exact PostgresRunHistory.forall_upsertPipelineRun hup hw.rows (fun _ h => h) (hdefines hid hok)
  | recordPipelineRun record =>
      refine kept_induction (d.RowsDefine h) hw.rows ?_
      intro history hrec
      obtain ⟨uuid, retryOf, hid, _, hup⟩ := PostgresRunHistory.recordPipelineRun_ok hrec
      exact PostgresRunHistory.forall_upsertPipelineRun hup hw.rows (fun _ h => h) (hdefines hid hok.1)
  | finalizePipelineRunStatus r status completedAt =>
      refine kept_induction (d.RowsDefine h) hw.rows ?_
      intro history hmap
      obtain ⟨a, hrec, rfl⟩ := except_map_ok hmap
      obtain ⟨uuid, _, hpipelineRuns⟩ := PostgresRunHistory.finalizePipelineRunStatus_ok hrec
      rw [hpipelineRuns]
      exact Table.forall_update hw.rows fun _ h => h
  | recordNodeDispatched record =>
      refine kept_induction (d.RowsDefine h) hw.rows ?_
      intro history hrec
      rw [RowsDefine, PostgresRunHistory.recordNodeDispatched_pipelineRuns hrec]
      exact hw.rows
  | recordNodeRun record =>
      refine kept_induction (d.RowsDefine h) hw.rows ?_
      intro history hrec
      rw [RowsDefine, PostgresRunHistory.recordNodeRun_pipelineRuns hrec]
      exact hw.rows
  | _ => exact hw.rows

theorem Truthful.nodesAfter (hw : d.Truthful h w) (hi : d.Informed h γ) {s : Local} {e : Effect}
    (hok : (vouching d.services.parsePipeline).ok γ s e) :
    RowsObserved h (e.historyAfter d.parseRunId w.history) := by
  rcases e.nodeRuns_cases d.parseRunId w.history with hsame | ⟨record, _, hrec⟩ | ⟨record, rfl, hrec⟩
  · rw [RowsObserved, hsame]
    exact hw.nodes
  · obtain ⟨uuid, _, hup⟩ := PostgresRunHistory.recordNodeDispatched_ok hrec
    exact PostgresRunHistory.forall_upsertNodeRun hup hw.nodes (fun e he _ _ => hw.nodes e he) (by simp)
  · obtain ⟨⟨p, hp⟩, hseen⟩ := hok
    obtain ⟨uuid, hid, hup⟩ := PostgresRunHistory.recordNodeRun_ok hrec
    obtain rfl := hw.canonical hi hp hid
    refine PostgresRunHistory.forall_upsertNodeRun hup hw.nodes ?_ ?_
    · intro e _ hrun hnode hsuccess
      show Observed h e.row.runId e.row.nodeName
      rw [hrun, hnode]
      exact hi.seen _ _ (hseen (Option.some.inj hsuccess))
    · exact fun hsuccess => hi.seen _ _ (hseen (Option.some.inj hsuccess))

theorem Truthful.snoc (ht : ∀ l, t.label ≠ .outside l) (hw : d.Truthful h w) : d.Truthful (h ++ [t]) w where
  drawn r p hp := by
    rw [pipelineOf_snoc_of_not_outside ht] at hp
    exact hw.drawn r p hp
  runs r state hl := by
    obtain ⟨hp, hcovers, hseen⟩ := hw.runs r state hl
    exact ⟨pipelineOf_snoc hp, hcovers, fun n hn => (hseen n hn).snoc⟩
  rows row hrow := by
    obtain ⟨p, hp, hparse⟩ := hw.rows row hrow
    exact ⟨p, pipelineOf_snoc hp, hparse⟩
  nodes e he hs := (hw.nodes e he hs).snoc

theorem Truthful.answered (hw : d.Truthful h w) (hi : d.Informed h γ) {s : Local} {e : Effect} {reply : Reply}
    {a : Resp e × World} (hok : (vouching d.services.parsePipeline).ok γ s e)
    (ha : respond d.parseRunId w e reply = some a) : d.Truthful h a.2 where
  drawn r p hp := by
    obtain ⟨hmem, hr⟩ := hw.drawn r p hp
    exact ⟨respond_drawn ha hmem, hr⟩
  runs r state hl := by
    rcases respond_runs_cases ha hl with hl | ⟨expected, rfl⟩
    · exact hw.runs r state hl
    · exact ⟨hi.launched r _ hok.launched, hok.covers, fun n hn => hi.seen r n (hok.seen n hn)⟩
  rows := by
    rw [respond_history ha]
    split
    · exact hw.rowsAfter hi hok
    · exact hw.rows
  nodes := by
    rw [respond_history ha]
    split
    · exact hw.nodesAfter hi hok
    · exact hw.nodes

/-- What happens outside the processes changes no run that was launched, and a launch adds one. -/
theorem Truthful.outside (hw : d.Truthful h w) {l : Outside} {a : World × List Process}
    (hl : t.label = .outside l) (ha : d.outside w l = some a) : d.Truthful (h ++ [t]) a.1 where
  drawn r p hp := by
    cases l with
    | launch runId yaml reporter context =>
        obtain ⟨pipeline, hparse, _, hid, rfl⟩ := outside_launch ha
        rw [pipelineOf_launch hl hparse] at hp
        rcases Option.or_eq_some_iff.mp hp with hold | ⟨_, hnew⟩
        · obtain ⟨hmem, hr⟩ := hw.drawn r p hold
          exact ⟨List.mem_cons_of_mem _ hmem, hr⟩
        · split at hnew
          · rename_i hr
            subst hr
            exact ⟨List.mem_cons_self, hid⟩
          · cases hnew
    | startReaper =>
        cases ha
        rw [pipelineOf, List.findSome?_append, List.findSome?_singleton, hl, Option.or_none] at hp
        exact hw.drawn r p hp
    | expireLease runId =>
        cases ha
        rw [pipelineOf, List.findSome?_append, List.findSome?_singleton, hl, Option.or_none] at hp
        exact hw.drawn r p hp
  runs r state hs := by
    rw [outside_runs ha] at hs
    obtain ⟨hp, hcovers, hseen⟩ := hw.runs r state hs
    exact ⟨pipelineOf_snoc hp, hcovers, fun n hn => (hseen n hn).snoc⟩
  rows := by
    rw [outside_history ha]
    intro row hrow
    obtain ⟨p, hp, hparse⟩ := hw.rows row hrow
    exact ⟨p, pipelineOf_snoc hp, hparse⟩
  nodes := by
    rw [outside_history ha]
    intro e he hs
    exact (hw.nodes e he hs).snoc

end Deployment

/-! ## The protocol -/

/-- A process that has learned nothing. -/
def Insight.blank : Insight := ⟨none, fun _ => none, fun _ _ => False⟩

theorem informed_blank : d.Informed h .blank where
  launched _ _ hp := by cases hp
  seen _ _ hn := hn.elim

/-- The task that launches a run knows its pipeline. -/
def Insight.launching (runId : String) (pipeline : Pipeline) : Insight :=
  { Insight.blank with launched := fun r => if r = runId then some pipeline else none }

theorem informed_launching {runId yaml : String} {reporter : Bool} {context : RunContext} {a : World × List Process}
    {pipeline : Pipeline} (hw : d.Truthful h w) (hl : t.label = .outside (.launch runId yaml reporter context))
    (ha : d.outside w (.launch runId yaml reporter context) = some a)
    (hparse : d.services.parsePipeline yaml = .ok pipeline) :
    d.Informed (h ++ [t]) (.launching runId pipeline) where
  launched r p hp := by
    obtain ⟨_, _, hfresh, _, _⟩ := outside_launch ha
    simp only [Insight.launching] at hp
    split at hp
    · rename_i hr
      subst hr
      cases hp
      rw [pipelineOf_launch hl hparse]
      cases hold : d.pipelineOf h r with
      | some p => exact absurd (hw.drawn r p hold).1 hfresh
      | none => simp
    · cases hp
  seen _ _ hn := hn.elim

/-- Along every run, what is stored and what processes know is true of the steps so far. -/
def vouchingProtocol (d : Deployment) :
    Protocol d.cluster (vouching d.services.parsePipeline) (List Event) where
  post := (vouchingDiscipline d).post
  next h t := h ++ [t]
  inv h σ := d.Truthful h σ.world
  rel h _ _ γ := d.Informed h γ
  handlers := (vouchingDiscipline d).handlers
  answer := by
    intro h σ i reply s e k a γ hw hi hp hok ha
    have hcall : answeredCall ⟨σ, .answer i reply, d.cluster.answered σ i k a⟩ = some (i, s, e, reply) :=
      answeredCall_eq_some.mpr ⟨rfl, k, hp⟩
    refine ⟨hw.assume hi hok ha, (hw.answered hi hok ha).snoc (by simp), hi.answered hw hok ha hcall,
      fun j γ' _ _ hi' => hi'.snoc, ?_⟩
    intro j p hj
    cases e with
    | spawnCoordinator c =>
        cases j with
        | zero =>
            cases hj
            have hlive : ({ γ with own := some c.runId } : Insight).Coordinates d.services.parsePipeline c :=
              ⟨rfl, ⟨hok.1.launched, hok.1.covers, hok.1.seen⟩, hok.2⟩
            exact ⟨_, (vouchingDiscipline d).spawned_obeys hlive, Informed.snoc ⟨hi.launched, hi.seen⟩⟩
        | succ j => cases hj
    | _ => cases hj
  deliver := by
    intro h σ i input s w γ hw hi _ hp hacc
    cases accept_world hacc
    refine ⟨by trivial, hw.snoc (by simp), ?_, fun j γ' _ _ hi' => hi'.snoc⟩
    show d.Informed _ (γ.next _ (.received s input))
    unfold Insight.next
    split
    · rename_i hm
      cases hm
    · rename_i c n hm
      cases hm
      exact hi.told (.event rfl hp rfl)
    · exact hi.snoc
  crash := by
    intro h σ i hw
    exact ⟨hw.snoc (by simp), fun j γ' _ _ hi' => hi'.snoc⟩
  outside := by
    intro h σ l a hw ha
    refine ⟨hw.outside rfl ha, fun j γ' _ hi' => hi'.snoc, ?_⟩
    intro j p hj
    cases l with
    | startReaper =>
        cases ha
        cases j with
        | zero =>
            cases hj
            exact ⟨.blank, (vouchingDiscipline d).reaper_obeys trivial, informed_blank⟩
        | succ j => cases hj
    | expireLease runId =>
        cases ha
        cases hj
    | launch runId yaml reporter context =>
        obtain ⟨pipeline, hparse, _, _, hafter⟩ := outside_launch ha
        have hinformed := informed_launching hw
          (t := ⟨σ, .outside (.launch runId yaml reporter context), ⟨a.1, σ.procs ++ a.2.map some⟩⟩) rfl ha hparse
        rw [hafter] at hj
        cases j with
        | zero =>
            cases hj
            refine ⟨.launching runId pipeline, (vouchingDiscipline d).launch_obeys trivial ⟨?_, hparse⟩ reporter,
              hinformed⟩
            simp [Insight.launching]
        | succ j => cases hj

theorem truthful_empty : d.Truthful [] .empty where
  drawn _ _ hp := by cases hp
  runs _ _ hl := by cases hl
  rows _ hrow := by cases hrow
  nodes _ he := by cases he

theorem vouching_holds (hr : d.Runs h σ) : (vouchingProtocol d).Holds h σ := by
  have hinit : ∀ σ, Initial σ → (vouchingProtocol d).Holds [] σ := by
    rintro σ rfl
    exact ⟨truthful_empty, fun i p hp => by simp at hp⟩
  have hholds := (vouchingProtocol d).holds hinit hr
  have hsteps : history (vouchingProtocol d).next [] h = h := history_steps [] h
  rwa [hsteps] at hholds

/-! ## Successes are earned -/

/-- What a process knows that makes a call, and that the call is granted. -/
theorem vouching_knows (hr : d.Runs h σ) {i : Nat} {s : Local} {e : Effect} {k : Resp e → Process}
    (hp : σ.procs[i]? = some (some (.call s e k))) :
    ∃ γ, d.Informed h γ ∧ (vouching d.services.parsePipeline).ok γ s e := by
  obtain ⟨γ, hi, hobeys⟩ := (vouching_holds hr).2 i _ hp
  exact ⟨γ, hi, hobeys.1⟩

theorem success_earned_of_runs {t : Event} (hr : d.Runs h t.before) : d.SuccessEarned h t := by
  intro r hcredit
  unfold credited at hcredit
  split at hcredit
  · rename_i i s record reply hcall
    obtain ⟨γ, hi, hdefines, hsuccess⟩ := vouching_knows hr (answeredCall_eq_some.mp hcall).2.choose_spec
    split at hcredit
    · rename_i hs
      obtain ⟨p, hp, _⟩ := hdefines
      obtain rfl := (vouching_holds hr).1.canonical hi hp hcredit
      exact hi.allSeen (hsuccess hs.1)
    · cases hcredit
  · rename_i i s r' status completedAt reply hcall
    obtain ⟨γ, hi, hsuccess⟩ := vouching_knows hr (answeredCall_eq_some.mp hcall).2.choose_spec
    split at hcredit
    · rename_i hs
      have hall := hsuccess hs.1
      obtain ⟨p, hp, _⟩ := hall
      obtain rfl := (vouching_holds hr).1.canonical hi hp hcredit
      exact hi.allSeen (hsuccess hs.1)
    · cases hcredit
  · rename_i i s r' status reply hcall
    obtain ⟨γ, hi, hsuccess⟩ := vouching_knows hr (answeredCall_eq_some.mp hcall).2.choose_spec
    split at hcredit
    · rename_i hs
      cases hcredit
      exact hi.allSeen (hsuccess hs)
    · cases hcredit
  · cases hcredit

/-- A worker tells the coordinator that its node is done; the nodes that are then ready are the given ones. -/
def completes (nodeName : String) (ready : List String) : List (Act Input Reply Outside) :=
  [.deliver 1 (.event (.backplane (some (.nodeCompleted nodeName true)))), .answer 1 .done, .answer 1 .done,
    .answer 1 (.outcome none), .answer 1 (.log none), .answer 1 (.time ⟨0, 0⟩), .answer 1 .done, .answer 1 (.names ready)]

/-- Both nodes of a run succeed, one after the other, and the coordinator records the run's success. -/
def succeeds (runId : String) : List (Act Input Reply Outside) :=
  begun runId ++ completes "build" ["test"] ++
    [.answer 1 .done, .answer 1 .done, .answer 1 (.time ⟨0, 0⟩), .answer 1 .done, .answer 1 (.number 1)] ++
    completes "test" [] ++ [.answer 1 (.names []), .answer 1 (.time ⟨0, 0⟩), .answer 1 .done]

end Jefferies.Coordination
