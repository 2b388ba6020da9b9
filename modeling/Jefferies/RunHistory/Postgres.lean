import Jefferies.Collections.Result
import Jefferies.Collections.Table
import Jefferies.RunHistory.Records

/-!
# The Postgres run history

Each operation is one statement on the tables `pipeline_runs` and `node_runs`. `parseRunId` reads a run id as
a UUID and gives its canonical text. The serial `id` of a node run is its place in the table.
-/

namespace Jefferies.RunHistory

/-- A row of `node_runs`: the columns that are selected, and the log. -/
structure NodeRunEntry where
  row : NodeRunRow
  outputLog : Option String

structure PostgresRunHistory where
  pipelineRuns : List PipelineRunRow
  nodeRuns : List NodeRunEntry

inductive SortColumn where
  | createdAt
  | completedAt
  | pipelineName
  | owner
  | status

inductive SortOrder where
  | asc
  | desc

structure RunFilters where
  owner : Option String
  repo : Option String
  pipelineName : Option String
  sha : Option String

structure ListRunsQuery where
  limit : Int
  offset : Int
  sortBy : SortColumn
  order : SortOrder
  filters : RunFilters

namespace PostgresRunHistory

variable (parseRunId : String → Option String)

def empty : PostgresRunHistory := ⟨[], []⟩

def parse (s : String) : Except RunHistoryError String :=
  match parseRunId s with
  | some runId => .ok runId
  | none => .error (.invalidRunId s)

/-- `retry_of.as_deref().map(parse_run_id).transpose()`. -/
def parseRetryOf : Option String → Except RunHistoryError (Option String)
  | none => .ok none
  | some s => (parse parseRunId s).map some

/-- A foreign key that refers to a run of the table, or is null. -/
def refers (self : PostgresRunHistory) : Option String → Bool
  | none => true
  | some runId => self.pipelineRuns.any (·.runId = runId)

def rowOf (r : PipelineStartRecord) (runId : String) (retryOf : Option String) (status : RunStatus)
    (completedAt : Option DateTime) : PipelineRunRow where
  runId := runId
  pipelineName := r.pipelineName
  owner := r.owner
  repo := r.repo
  sha := r.sha
  branch := r.branch
  targetBranch := r.targetBranch
  tag := r.tag
  prNumber := r.prNumber
  trigger := r.trigger
  pipelineDefinition := r.pipelineDefinition
  status := status
  createdAt := r.createdAt
  completedAt := completedAt
  retryOf := retryOf
  tenantSlug := r.tenantSlug
  githubCheckRunId := r.githubCheckRunId

/-- An upsert into `pipeline_runs`; the foreign key is checked where a row is inserted. -/
def upsertPipelineRun (self : PostgresRunHistory) (new : PipelineRunRow)
    (update : PipelineRunRow → PipelineRunRow) : Except RunHistoryError PostgresRunHistory :=
  if self.refers (some new.runId) || self.refers new.retryOf then
    .ok { self with pipelineRuns := Table.upsert (·.runId = new.runId) update new self.pipelineRuns }
  else .error (.database "violates foreign key constraint")

def recordPipelineStarted (self : PostgresRunHistory) (r : PipelineStartRecord) :
    Except RunHistoryError PostgresRunHistory := do
  let runId ← parse parseRunId r.runId
  let retryOf ← parseRetryOf parseRunId r.retryOf
  self.upsertPipelineRun (rowOf r runId retryOf .inProgress none) fun row =>
    { row with githubCheckRunId := row.githubCheckRunId.or r.githubCheckRunId }

def recordPipelineRun (self : PostgresRunHistory) (r : PipelineRunRecord) :
    Except RunHistoryError PostgresRunHistory := do
  let runId ← parse parseRunId r.runId
  let retryOf ← parseRetryOf parseRunId r.retryOf
  self.upsertPipelineRun (rowOf r.toPipelineStartRecord runId retryOf r.status r.completedAt) fun row =>
    { row with status := r.status, completedAt := r.completedAt }

/-- The rows that `finalize_pipeline_run_status` updates. -/
def unfinished (runId : String) (row : PipelineRunRow) : Bool :=
  row.runId = runId && row.status = .inProgress

def finalizePipelineRunStatus (self : PostgresRunHistory) (runId : String) (status : RunStatus)
    (completedAt : DateTime) : Except RunHistoryError (Bool × PostgresRunHistory) := do
  let runId ← parse parseRunId runId
  return (self.pipelineRuns.any (unfinished runId),
    { self with
      pipelineRuns := Table.update (unfinished runId)
        (fun row => { row with status := status, completedAt := some completedAt }) self.pipelineRuns })

/-- An upsert into `node_runs`; the foreign key is checked where a row is inserted. -/
def upsertNodeRun (self : PostgresRunHistory) (new : NodeRunEntry)
    (update : NodeRunEntry → NodeRunEntry) : Except RunHistoryError PostgresRunHistory :=
  if self.refers (some new.row.runId) then
    .ok { self with
      nodeRuns := Table.upsert (fun e => e.row.runId = new.row.runId && e.row.nodeName = new.row.nodeName)
        update new self.nodeRuns }
  else .error (.database "violates foreign key constraint")

def recordNodeDispatched (self : PostgresRunHistory) (r : NodeDispatchRecord) :
    Except RunHistoryError PostgresRunHistory := do
  let runId ← parse parseRunId r.runId
  self.upsertNodeRun
    ⟨⟨runId, r.nodeName, r.nodeDefinition, none, r.createdAt, none, none, none⟩, none⟩ id

def recordNodeRun (self : PostgresRunHistory) (r : NodeRunRecord) :
    Except RunHistoryError PostgresRunHistory := do
  let runId ← parse parseRunId r.runId
  self.upsertNodeRun
    ⟨⟨runId, r.nodeName, r.nodeDefinition, some r.success, r.createdAt, r.startedAt, r.completedAt,
      r.failureReason⟩, r.outputLog⟩
    fun e =>
      { row := { e.row with
          success := some r.success
          startedAt := r.startedAt
          completedAt := r.completedAt
          failureReason := r.failureReason }
        outputLog := r.outputLog }

def listInProgressRuns (self : PostgresRunHistory) : List PipelineRunRow :=
  self.pipelineRuns.filter (·.status = .inProgress)

def getPipelineRun (self : PostgresRunHistory) (runId : String) :
    Except RunHistoryError (Option PipelineRunRow) := do
  let uuid ← parse parseRunId runId
  return self.pipelineRuns.find? (·.runId = uuid)

def listNodeRuns (self : PostgresRunHistory) (runId : String) : Except RunHistoryError (List NodeRunRow) := do
  let uuid ← parse parseRunId runId
  return (self.nodeRuns.filter (·.row.runId = uuid)).map NodeRunEntry.row

def findNodeRun (self : PostgresRunHistory) (uuid nodeName : String) : Option NodeRunEntry :=
  self.nodeRuns.find? fun e => e.row.runId = uuid && e.row.nodeName = nodeName

def getNodeRun (self : PostgresRunHistory) (runId nodeName : String) :
    Except RunHistoryError (Option NodeRunRow) := do
  let uuid ← parse parseRunId runId
  return (self.findNodeRun uuid nodeName).map NodeRunEntry.row

def getNodeLog (self : PostgresRunHistory) (runId nodeName : String) :
    Except RunHistoryError (Option String) := do
  let uuid ← parse parseRunId runId
  return (self.findNodeRun uuid nodeName).map fun e => e.outputLog.getD ""

/-- `FILTER_WHERE`. -/
def filterWhere (filters : RunFilters) (row : PipelineRunRow) : Bool :=
  filters.owner.all (row.owner = ·) && filters.repo.all (row.repo = ·) &&
    filters.pipelineName.all (row.pipelineName = ·) && filters.sha.all (row.sha = ·)

/-- `sort` is the order that the query asks for; ties are broken as the database does. -/
def listPipelineRuns (self : PostgresRunHistory)
    (sort : SortColumn → SortOrder → List PipelineRunRow → List PipelineRunRow) (q : ListRunsQuery) :
    List PipelineRunRow :=
  ((sort q.sortBy q.order (self.pipelineRuns.filter (filterWhere q.filters))).drop q.offset.toNat).take
    q.limit.toNat

def countPipelineRuns (self : PostgresRunHistory) (filters : RunFilters) : Nat :=
  (self.pipelineRuns.filter (filterWhere filters)).length

/-- When the row of a node was created, as it says. -/
def createdAt (self : PostgresRunHistory) (runId nodeName : String) : Option DateTime :=
  (parseRunId runId).bind fun uuid => (self.findNodeRun uuid nodeName).map fun e => e.row.createdAt

/-! ## The status of a run -/

/-- The status in the row of a run. -/
def statusOf (self : PostgresRunHistory) (runId : String) : Option RunStatus :=
  (self.pipelineRuns.find? fun row => row.runId = runId).map PipelineRunRow.status

variable {parseRunId} {self history : PostgresRunHistory} {runId : String} {status : RunStatus}

theorem upsertPipelineRun_ok {new : PipelineRunRow} {update : PipelineRunRow → PipelineRunRow}
    (h : self.upsertPipelineRun new update = .ok history) :
    history = { self with pipelineRuns := Table.upsert (·.runId = new.runId) update new self.pipelineRuns } := by
  unfold upsertPipelineRun at h
  split at h
  · exact (Except.ok.inj h).symm
  · cases h

/-- An upsert changes the status of no other run. -/
theorem statusOf_upsert_of_ne {new : PipelineRunRow} {update : PipelineRunRow → PipelineRunRow}
    (hupdate : ∀ row, (update row).runId = row.runId) (h : self.upsertPipelineRun new update = .ok history)
    (hr : runId ≠ new.runId) : history.statusOf runId = self.statusOf runId := by
  rw [upsertPipelineRun_ok h, statusOf, statusOf, Table.find?_upsert_apart]
  · simp [hupdate]
  · simp
  · intro row hrow
    simp only [decide_eq_true_eq] at hrow
    simp [hrow, hr.symm]

theorem statusOf_upsert_self {new : PipelineRunRow} {update : PipelineRunRow → PipelineRunRow}
    (hupdate : ∀ row, (update row).runId = row.runId) (h : self.upsertPipelineRun new update = .ok history)
    (hr : new.runId = runId) :
    history.statusOf runId =
      some (((self.pipelineRuns.find? fun row => row.runId = runId).map update).getD new).status := by
  subst hr
  rw [upsertPipelineRun_ok h, statusOf, Table.find?_upsert]
  · rfl
  · simp [hupdate]
  · simp

/-- What does not fail has read the id that it was given. -/
theorem parse_bind {α : Type} {id : String} {f : String → Except RunHistoryError α} {a : α}
    (h : (parse parseRunId id >>= f) = .ok a) : ∃ uuid, parseRunId id = some uuid ∧ f uuid = .ok a := by
  obtain ⟨uuid, hparse, hf⟩ := except_bind_ok h
  unfold parse at hparse
  split at hparse
  · rename_i hid
    cases hparse
    exact ⟨uuid, hid, hf⟩
  · cases hparse

theorem recordPipelineStarted_ok {r : PipelineStartRecord} (h : self.recordPipelineStarted parseRunId r = .ok history) :
    ∃ uuid retryOf, parseRunId r.runId = some uuid ∧ self.upsertPipelineRun (rowOf r uuid retryOf .inProgress none)
      (fun row => { row with githubCheckRunId := row.githubCheckRunId.or r.githubCheckRunId }) = .ok history := by
  obtain ⟨uuid, hid, hrest⟩ := parse_bind h
  obtain ⟨retryOf, _, hup⟩ := except_bind_ok hrest
  exact ⟨uuid, retryOf, hid, hup⟩

theorem recordPipelineRun_ok {r : PipelineRunRecord} (h : self.recordPipelineRun parseRunId r = .ok history) :
    ∃ uuid retryOf, parseRunId r.runId = some uuid ∧ parseRetryOf parseRunId r.retryOf = .ok retryOf ∧
      self.upsertPipelineRun (rowOf r.toPipelineStartRecord uuid retryOf r.status r.completedAt)
        (fun row => { row with status := r.status, completedAt := r.completedAt }) = .ok history := by
  obtain ⟨uuid, hid, hrest⟩ := parse_bind h
  obtain ⟨retryOf, hretry, hup⟩ := except_bind_ok hrest
  exact ⟨uuid, retryOf, hid, hretry, hup⟩

/-- The end of a run that has a row can be recorded, if its ids can be read. -/
theorem recordPipelineRun_of_row {r : PipelineRunRecord} {retryOf : Option String}
    (hid : parseRunId r.runId = some runId) (hretry : parseRetryOf parseRunId r.retryOf = .ok retryOf)
    (hrow : self.statusOf runId = some status) : ∃ history, self.recordPipelineRun parseRunId r = .ok history := by
  obtain ⟨row, hfind, _⟩ := Option.map_eq_some_iff.mp hrow
  have hrefers : self.refers (some runId) = true := by
    have hrun : row.runId = runId := by simpa using List.find?_some hfind
    exact List.any_eq_true.mpr ⟨row, List.mem_of_find?_eq_some hfind, by simpa using hrun⟩
  simp [recordPipelineRun, parse, hid, hretry, Bind.bind, Except.bind, upsertPipelineRun, rowOf, hrefers]

/-- The start of a run changes no status. -/
theorem statusOf_recordPipelineStarted {r : PipelineStartRecord}
    (h : self.recordPipelineStarted parseRunId r = .ok history) (hs : self.statusOf runId = some status) :
    history.statusOf runId = some status := by
  obtain ⟨uuid, retryOf, _, hup⟩ := recordPipelineStarted_ok h
  by_cases hr : runId = uuid
  · subst hr
    have hself := statusOf_upsert_self (by simp) hup (show (rowOf _ runId _ _ _).runId = runId from rfl)
    unfold statusOf at hs
    obtain ⟨row, hrow, rfl⟩ := Option.map_eq_some_iff.mp hs
    simpa [hrow] using hself
  · rw [statusOf_upsert_of_ne (by simp) hup hr, hs]

/-- The end of a run sets its status, whatever that was. -/
theorem statusOf_recordPipelineRun {r : PipelineRunRecord} {uuid : String}
    (h : self.recordPipelineRun parseRunId r = .ok history) (hid : parseRunId r.runId = some uuid) :
    history.statusOf runId = if runId = uuid then some r.status else self.statusOf runId := by
  obtain ⟨uuid', retryOf, hid', _, hup⟩ := recordPipelineRun_ok h
  cases hid.symm.trans hid'
  split
  · rename_i hr
    subst hr
    have hself := statusOf_upsert_self (by simp) hup (show (rowOf _ runId _ _ _).runId = runId from rfl)
    cases hrow : self.pipelineRuns.find? fun row => row.runId = runId with
    | none => simpa [rowOf, hrow] using hself
    | some row => simpa [hrow] using hself
  · rename_i hr
    exact statusOf_upsert_of_ne (by simp) hup hr

theorem finalizePipelineRunStatus_ok {id : String} {new : RunStatus} {completedAt : DateTime}
    {a : Bool × PostgresRunHistory} (h : self.finalizePipelineRunStatus parseRunId id new completedAt = .ok a) :
    ∃ uuid, parseRunId id = some uuid ∧ a.2 = { self with
      pipelineRuns := Table.update (unfinished uuid)
        (fun row => { row with status := new, completedAt := some completedAt }) self.pipelineRuns } := by
  obtain ⟨uuid, hid, hfinalized⟩ := parse_bind h
  cases hfinalized
  exact ⟨uuid, hid, rfl⟩

/-- A run in progress is finalized, and no other. -/
theorem statusOf_finalizePipelineRunStatus {id uuid : String} {new : RunStatus} {completedAt : DateTime} {b : Bool}
    (h : self.finalizePipelineRunStatus parseRunId id new completedAt = .ok (b, history))
    (hid : parseRunId id = some uuid) :
    history.statusOf runId =
      if runId = uuid ∧ self.statusOf runId = some .inProgress then some new else self.statusOf runId := by
  unfold finalizePipelineRunStatus parse at h
  rw [hid] at h
  cases h
  unfold statusOf
  rw [Table.find?_update (by simp)]
  cases hrow : self.pipelineRuns.find? fun row => row.runId = runId with
  | none => simp
  | some row =>
      have hrun : row.runId = runId := by simpa using List.find?_some hrow
      by_cases hr : runId = uuid <;> by_cases hs : row.status = .inProgress <;> simp [unfinished, hrun, hr, hs]

/-! ## The rows -/

theorem getPipelineRun_ok {id : String} {found : Option PipelineRunRow}
    (h : self.getPipelineRun parseRunId id = .ok found) :
    ∃ uuid, parseRunId id = some uuid ∧ found = self.pipelineRuns.find? (·.runId = uuid) := by
  obtain ⟨uuid, hid, hfound⟩ := parse_bind h
  exact ⟨uuid, hid, (Except.ok.inj hfound).symm⟩

theorem listNodeRuns_ok {id : String} {rows : List NodeRunRow} (h : self.listNodeRuns parseRunId id = .ok rows) :
    ∃ uuid, parseRunId id = some uuid ∧
      rows = (self.nodeRuns.filter (·.row.runId = uuid)).map NodeRunEntry.row := by
  obtain ⟨uuid, hid, hfound⟩ := parse_bind h
  exact ⟨uuid, hid, (Except.ok.inj hfound).symm⟩

/-- What is true of each old row, of the updated ones and of the new one is true of all. -/
theorem forall_upsertPipelineRun {P : PipelineRunRow → Prop} {new : PipelineRunRow}
    {update : PipelineRunRow → PipelineRunRow} (h : self.upsertPipelineRun new update = .ok history)
    (hold : ∀ row ∈ self.pipelineRuns, P row) (hupdate : ∀ row, P row → P (update row)) (hnew : P new) :
    ∀ row ∈ history.pipelineRuns, P row := by
  intro row hrow
  rw [upsertPipelineRun_ok h] at hrow
  rcases Table.mem_upsert hrow with hrow | ⟨row', hrow', _, rfl⟩ | rfl
  · exact hold row hrow
  · exact hupdate row' (hold row' hrow')
  · exact hnew

theorem upsertNodeRun_ok {new : NodeRunEntry} {update : NodeRunEntry → NodeRunEntry}
    (h : self.upsertNodeRun new update = .ok history) :
    history = { self with
      nodeRuns := Table.upsert (fun e => e.row.runId = new.row.runId && e.row.nodeName = new.row.nodeName)
        update new self.nodeRuns } := by
  unfold upsertNodeRun at h
  split at h
  · exact (Except.ok.inj h).symm
  · cases h

theorem forall_upsertNodeRun {P : NodeRunEntry → Prop} {new : NodeRunEntry} {update : NodeRunEntry → NodeRunEntry}
    (h : self.upsertNodeRun new update = .ok history) (hold : ∀ e ∈ self.nodeRuns, P e)
    (hupdate : ∀ e ∈ self.nodeRuns, e.row.runId = new.row.runId → e.row.nodeName = new.row.nodeName → P (update e))
    (hnew : P new) : ∀ e ∈ history.nodeRuns, P e := by
  intro e he
  rw [upsertNodeRun_ok h] at he
  rcases Table.mem_upsert he with he | ⟨e', he', hconflict, rfl⟩ | rfl
  · exact hold e he
  · simp only [Bool.and_eq_true, decide_eq_true_eq] at hconflict
    exact hupdate e' he' hconflict.1 hconflict.2
  · exact hnew

theorem recordNodeDispatched_ok {r : NodeDispatchRecord} (h : self.recordNodeDispatched parseRunId r = .ok history) :
    ∃ uuid, parseRunId r.runId = some uuid ∧ self.upsertNodeRun
      ⟨⟨uuid, r.nodeName, r.nodeDefinition, none, r.createdAt, none, none, none⟩, none⟩ id = .ok history := by
  exact parse_bind h

/-- The update that the record of a node's run makes. -/
def completed (r : NodeRunRecord) (e : NodeRunEntry) : NodeRunEntry where
  row := { e.row with
    success := some r.success
    startedAt := r.startedAt
    completedAt := r.completedAt
    failureReason := r.failureReason }
  outputLog := r.outputLog

theorem recordNodeRun_ok {r : NodeRunRecord} (h : self.recordNodeRun parseRunId r = .ok history) :
    ∃ uuid, parseRunId r.runId = some uuid ∧ self.upsertNodeRun
      ⟨⟨uuid, r.nodeName, r.nodeDefinition, some r.success, r.createdAt, r.startedAt, r.completedAt,
        r.failureReason⟩, r.outputLog⟩ (completed r) = .ok history := by
  exact parse_bind h

theorem recordNodeDispatched_pipelineRuns {r : NodeDispatchRecord}
    (h : self.recordNodeDispatched parseRunId r = .ok history) : history.pipelineRuns = self.pipelineRuns := by
  obtain ⟨uuid, _, hup⟩ := recordNodeDispatched_ok h
  rw [upsertNodeRun_ok hup]

theorem recordNodeRun_pipelineRuns {r : NodeRunRecord}
    (h : self.recordNodeRun parseRunId r = .ok history) : history.pipelineRuns = self.pipelineRuns := by
  obtain ⟨uuid, _, hup⟩ := recordNodeRun_ok h
  rw [upsertNodeRun_ok hup]

theorem recordPipelineStarted_nodeRuns {r : PipelineStartRecord}
    (h : self.recordPipelineStarted parseRunId r = .ok history) : history.nodeRuns = self.nodeRuns := by
  obtain ⟨uuid, retryOf, _, hup⟩ := recordPipelineStarted_ok h
  rw [upsertPipelineRun_ok hup]

theorem recordPipelineRun_nodeRuns {r : PipelineRunRecord}
    (h : self.recordPipelineRun parseRunId r = .ok history) : history.nodeRuns = self.nodeRuns := by
  obtain ⟨uuid, retryOf, _, _, hup⟩ := recordPipelineRun_ok h
  rw [upsertPipelineRun_ok hup]

/-! ## When a node was dispatched -/

variable {n : String} {t : DateTime}

theorem createdAt_getNodeRun {found : Option NodeRunRow} (h : self.getNodeRun parseRunId runId n = .ok found) :
    self.createdAt parseRunId runId n = found.map NodeRunRow.createdAt := by
  obtain ⟨uuid, hid, hfound⟩ := parse_bind h
  cases hfound
  rw [createdAt, hid]
  cases hrow : self.findNodeRun uuid n <;> simp [hrow]

theorem createdAt_of_nodeRuns (h : history.nodeRuns = self.nodeRuns) :
    history.createdAt parseRunId runId n = self.createdAt parseRunId runId n := by
  simp only [createdAt, findNodeRun, h]

/-- An upsert keeps the time at which a row was created, if its update does. -/
theorem createdAt_upsertNodeRun {new : NodeRunEntry} {update : NodeRunEntry → NodeRunEntry}
    (h : self.upsertNodeRun new update = .ok history) (ht : self.createdAt parseRunId runId n = some t)
    (hrunId : ∀ e, (update e).row.runId = e.row.runId) (hname : ∀ e, (update e).row.nodeName = e.row.nodeName)
    (hcreated : ∀ e, (update e).row.createdAt = e.row.createdAt) : history.createdAt parseRunId runId n = some t := by
  obtain ⟨uuid, hid, hrow⟩ := Option.bind_eq_some_iff.mp ht
  obtain ⟨e, hfind, rfl⟩ := Option.map_eq_some_iff.mp hrow
  have hkept : ∀ e : NodeRunEntry, (decide ((update e).row.runId = uuid) && decide ((update e).row.nodeName = n)) =
      (decide (e.row.runId = uuid) && decide (e.row.nodeName = n)) := by
    intro e
    rw [hrunId, hname]
  refine Option.bind_eq_some_iff.mpr ⟨uuid, hid, Option.map_eq_some_iff.mpr ?_⟩
  rw [upsertNodeRun_ok h]
  rcases Table.find?_upsert_of_some hkept hfind with hf | hf
  · exact ⟨e, hf, rfl⟩
  · exact ⟨update e, hf, hcreated e⟩

/-- A node is recorded as dispatched, and as run, in the row that it has. -/
theorem createdAt_recordNodeDispatched {r : NodeDispatchRecord} (h : self.recordNodeDispatched parseRunId r = .ok history)
    (ht : self.createdAt parseRunId runId n = some t) : history.createdAt parseRunId runId n = some t := by
  obtain ⟨uuid, _, hup⟩ := recordNodeDispatched_ok h
  exact createdAt_upsertNodeRun hup ht (fun _ => rfl) (fun _ => rfl) fun _ => rfl

theorem createdAt_recordNodeRun {r : NodeRunRecord} (h : self.recordNodeRun parseRunId r = .ok history)
    (ht : self.createdAt parseRunId runId n = some t) : history.createdAt parseRunId runId n = some t := by
  obtain ⟨uuid, _, hup⟩ := recordNodeRun_ok h
  exact createdAt_upsertNodeRun hup ht (fun _ => rfl) (fun _ => rfl) fun _ => rfl

end PostgresRunHistory

end Jefferies.RunHistory
