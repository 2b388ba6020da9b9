import Jefferies.Coordination.Permanence
import Jefferies.Interaction.Secrecy
import Jefferies.Server.Requests

/-!
# What a tenant sees of the others

The answer to a request depends on the runs of the tenant that the request names, and, for a listing, on the runs whose
owner has the tenant's name. Whatever else is written between two calls of a handler makes no difference.
-/

namespace Jefferies.Server

open Pipelines RunHistory StateStore Coordination Sources Auth Interaction Interact

/-- What the handlers read, and whether the services answer. `sort` orders a listing, as the database does. -/
structure Backends where
  history : PostgresRunHistory
  historyFails : Option RunHistoryError
  sort : SortColumn → SortOrder → List PipelineRunRow → List PipelineRunRow
  loadRun : String → Except StateStoreError (Option RunState)
  nodeStatus : String → String → Except SourceError NodeOutcome
  liveLog : String → String → Except SourceError (Option String)
  publishes : Except BackplaneError Unit

namespace Backends

/-- A statement of the run history, where the database answers. -/
def statement {α : Type} (self : Backends) (x : Except RunHistoryError α) : Except RunHistoryError α :=
  match self.historyFails with
  | some e => .error e
  | none => x

def answer (parseRunId : String → Option String) (self : Backends) : (e : ApiEffect) → ApiResp e
  | .getPipelineRun runId => self.statement (self.history.getPipelineRun parseRunId runId)
  | .listPipelineRuns query => self.statement (.ok (self.history.listPipelineRuns self.sort query))
  | .countPipelineRuns filters => self.statement (.ok (self.history.countPipelineRuns filters))
  | .listNodeRuns runId => self.statement (self.history.listNodeRuns parseRunId runId)
  | .getNodeRun runId nodeName => self.statement (self.history.getNodeRun parseRunId runId nodeName)
  | .getNodeLog runId nodeName => self.statement (self.history.getNodeLog parseRunId runId nodeName)
  | .loadRun runId => self.loadRun runId
  | .nodeStatus runId nodeName => self.nodeStatus runId nodeName
  | .liveLog runId nodeName => self.liveLog runId nodeName
  | .publishNodeCompleted .. => self.publishes
  | .publishCancel _ => self.publishes

end Backends

variable {parseRunId : String → Option String} {slug : String}

/-- The row, if it is of a run of the tenant. -/
def ownRow (slug : String) (row : Option PipelineRunRow) : Option PipelineRunRow :=
  row.filter fun row => row.tenantSlug = some slug

/-- The tenant's row of a run. -/
def rowOf (slug : String) (history : PostgresRunHistory) (uuid : String) : Option PipelineRunRow :=
  ownRow slug (history.pipelineRuns.find? (·.runId = uuid))

/-- The run, as it is named in a request, is one of the tenant. -/
def Owns (parseRunId : String → Option String) (slug : String) (history : PostgresRunHistory) (runId : String) : Prop :=
  ∃ uuid, parseRunId runId = some uuid ∧ (rowOf slug history uuid).isSome

/-- The tenant sees the same of both: the same runs as its own, the same runs under its name, and the same of what its
runs have left in the tables, in the state store and in S3. -/
structure SeesSame (parseRunId : String → Option String) (slug : String) (w w' : Backends) : Prop where
  fails : w.historyFails = w'.historyFails
  sort : w.sort = w'.sort
  publishes : w.publishes = w'.publishes
  rows : rowOf slug w.history = rowOf slug w'.history
  named : w.history.pipelineRuns.filter (·.owner = slug) = w'.history.pipelineRuns.filter (·.owner = slug)
  nodes : ∀ uuid, (rowOf slug w.history uuid).isSome →
    w.history.nodeRuns.filter (·.row.runId = uuid) = w'.history.nodeRuns.filter (·.row.runId = uuid)
  states : ∀ runId, Owns parseRunId slug w.history runId → w.loadRun runId = w'.loadRun runId
  statuses : ∀ runId, Owns parseRunId slug w.history runId → w.nodeStatus runId = w'.nodeStatus runId
  logs : ∀ runId, Owns parseRunId slug w.history runId → w.liveLog runId = w'.liveLog runId

/-! ## The policy -/

/-- A handler may ask for the runs that it knows to be the tenant's, `known`; of a row of another tenant it learns
nothing. -/
def tenantPolicy (slug : String) : Policy (Set String) ApiResp where
  permits known
    | .getPipelineRun _ => True
    | .listPipelineRuns query => query.filters.owner = some slug
    | .countPipelineRuns filters => filters.owner = some slug
    | .listNodeRuns runId => runId ∈ known
    | .getNodeRun runId _ => runId ∈ known
    | .getNodeLog runId _ => runId ∈ known
    | .loadRun runId => runId ∈ known
    | .nodeStatus runId _ => runId ∈ known
    | .liveLog runId _ => runId ∈ known
    | .publishNodeCompleted .. => False
    | .publishCancel runId => runId ∈ known
  alike known
    | .getPipelineRun _, r, r' => r.map (ownRow slug) = r'.map (ownRow slug)
    | .listNodeRuns _, r, r' => r = r' ∧ ∀ rows, r = .ok rows → ∀ row ∈ rows, row.runId ∈ known
    | .getNodeRun _ _, r, r' => r = r' ∧ ∀ row, r = .ok (some row) → row.runId ∈ known
    | _, r, r' => r = r'
  learned known
    | .getPipelineRun runId, .ok (some row) =>
        if row.tenantSlug = some slug then {runId, row.runId} ∪ known else known
    | _, _ => known

/-- The handler ends with the same response. -/
abbrev Discreet (slug : String) (m : ApiHandler ApiResponse) : Prop :=
  ∀ known s, (tenantPolicy slug).Same known (m s) (m s)

@[simp] theorem ownRow_none : ownRow slug none = none := rfl

theorem ownRow_some_of {row : PipelineRunRow} (h : row.tenantSlug = some slug) : ownRow slug (some row) = some row := by
  simp [ownRow, Option.filter, h]

theorem ownRow_some_of_ne {row : PipelineRunRow} (h : row.tenantSlug ≠ some slug) : ownRow slug (some row) = none := by
  simp [ownRow, Option.filter, h]

section

variable {Q : Set String → Unit → ApiResponse → ApiResponse → Prop} {runId : String} {known : Set String} {s : Unit}

/-- What is not learned from another tenant's row may not be used. -/
theorem getPipelineRun_alike {α : Type} {Q : Set String → Unit → α → α → Prop}
    {f : Except RunHistoryError (Option PipelineRunRow) → ApiHandler α}
    (hother : ∀ row, row.tenantSlug ≠ some slug → f (.ok (some row)) = f (.ok none))
    (hown : ∀ row known, row.tenantSlug = some slug → runId ∈ known →
      (tenantPolicy slug).Alike Q known (f (.ok (some row)) s) (f (.ok (some row)) s))
    (hnone : (tenantPolicy slug).Alike Q known (f (.ok none) s) (f (.ok none) s))
    (herror : ∀ e, (tenantPolicy slug).Alike Q known (f (.error e) s) (f (.error e) s)) :
    (tenantPolicy slug).Alike Q known ((ask (.getPipelineRun runId) >>= f) s)
      ((ask (.getPipelineRun runId) >>= f) s) := by
  have hf : ∀ r, f r = f (r.map (ownRow slug)) := by
    intro r
    rcases r with e | _ | row
    · rfl
    · rfl
    · by_cases h : row.tenantSlug = some slug
      · rw [Except.map, ownRow_some_of h]
      · rw [Except.map, ownRow_some_of_ne h, hother row h]
  refine .call trivial fun r r' halike => ?_
  have halike : r.map (ownRow slug) = r'.map (ownRow slug) := halike
  show (tenantPolicy slug).Alike Q _ (f r s) (f r' s)
  rw [hf r', ← halike, ← hf r]
  rcases r with e | _ | row
  · exact herror e
  · exact hnone
  · by_cases h : row.tenantSlug = some slug
    · rw [tenantPolicy]
      simp only [if_pos h]
      exact hown row _ h (by simp)
    · rw [hother row h, tenantPolicy]
      simp only [if_neg h]
      exact hnone

theorem checkRunInSlug_alike : (tenantPolicy slug).Alike
    (fun known' _ r r' => r = r' ∧ (r = .ok () → runId ∈ known')) known (checkRunInSlug runId slug s)
    (checkRunInSlug runId slug s) := by
  apply getPipelineRun_alike
  · intro row h
    simp [h]
  · intro row known' h hmem
    exact .ret ⟨rfl, fun _ => hmem⟩
  · exact .ret ⟨rfl, fun h => nomatch h⟩
  · exact fun e => .ret ⟨rfl, fun h => nomatch h⟩

/-- What follows the check may ask for the run. -/
theorem discreet_of_check {f : Except Nat Unit → ApiHandler ApiResponse}
    (hok : ∀ known s, runId ∈ known → (tenantPolicy slug).Same known (f (.ok ()) s) (f (.ok ()) s))
    (herror : ∀ code known s, (tenantPolicy slug).Same known (f (.error code) s) (f (.error code) s)) :
    Discreet slug (checkRunInSlug runId slug >>= f) := by
  intro known s
  apply checkRunInSlug_alike.seq
  rintro known' s' r _ ⟨rfl, hmem⟩
  cases r with
  | error code => exact herror code known' s'
  | ok _ => exact hok known' s' (hmem rfl)

/-- The answer to a call may be used where it is the same. -/
theorem ask_same {α : Type} {Q : Set String → Unit → α → α → Prop} {e : ApiEffect} {f : ApiResp e → ApiHandler α}
    (hpermits : (tenantPolicy slug).permits known e)
    (halike : ∀ r r', (tenantPolicy slug).alike known e r r' → r = r')
    (hf : ∀ r, (tenantPolicy slug).alike known e r r →
      (tenantPolicy slug).Alike Q ((tenantPolicy slug).learned known e r) (f r s) (f r s)) :
    (tenantPolicy slug).Alike Q known ((ask e >>= f) s) ((ask e >>= f) s) := by
  refine .call hpermits fun r r' h => ?_
  cases halike r r' h
  exact hf r h

/-! ## The handlers -/

theorem discreet_cancelPipelineRun : Discreet slug (cancelPipelineRun slug runId) := by
  apply discreet_of_check
  · intro known s hmem
    refine ask_same ?_ ?_ ?_
    · exact hmem
    · exact fun _ _ h => h
    · rintro (e | ⟨⟩) _ <;> exact .ret rfl
  · exact fun _ _ _ => .ret rfl

theorem discreet_getRunStatus : Discreet slug (getRunStatus slug runId) := by
  apply discreet_of_check
  · intro known s hmem
    refine ask_same ?_ ?_ ?_
    · exact hmem
    · exact fun _ _ h => h
    · rintro (e | _ | state) _ <;> exact .ret rfl
  · exact fun _ _ _ => .ret rfl

theorem listRunsQuery_owner {params : ListRunsParams} {query : ListRunsQuery}
    (h : listRunsQuery slug params = some query) : query.filters.owner = some slug := by
  obtain ⟨sortBy, _, h⟩ := Option.bind_eq_some_iff.mp h
  obtain ⟨order, _, h⟩ := Option.bind_eq_some_iff.mp h
  cases h
  rfl

theorem discreet_listRuns (params : ListRunsParams) : Discreet slug (listRuns slug params) := by
  intro known s
  unfold listRuns
  cases hquery : listRunsQuery slug params with
  | none => exact .ret rfl
  | some query =>
      have howner := listRunsQuery_owner hquery
      refine ask_same ?_ ?_ ?_
      · exact howner
      · exact fun _ _ h => h
      · rintro (e | runs) _
        · exact .ret rfl
        · refine ask_same ?_ ?_ ?_
          · exact howner
          · exact fun _ _ h => h
          · rintro (e | total) _ <;> exact .ret rfl

theorem discreet_getRun : Discreet slug (getRun slug runId) := by
  intro known s
  apply getPipelineRun_alike
  · intro row h
    simp [h]
  · exact fun _ _ _ _ => .ret rfl
  · exact .ret rfl
  · exact fun _ => .ret rfl

/-- A row of a run of the tenant is looked up in S3. -/
theorem augmentRow_alike {row : NodeRunRow} (h : row.runId ∈ known) : (tenantPolicy slug).Alike
    (fun known' _ r r' => known' = known ∧ r = r') known (augmentRow row s) (augmentRow row s) := by
  unfold augmentRow
  split
  · exact .ret ⟨rfl, rfl⟩
  · refine ask_same ?_ ?_ ?_
    · exact h
    · exact fun _ _ h => h
    · exact fun _ _ => .ret ⟨rfl, rfl⟩

theorem discreet_listRunNodes : Discreet slug (listRunNodes slug runId) := by
  apply discreet_of_check
  · intro known s hmem
    refine ask_same ?_ ?_ ?_
    · exact hmem
    · exact fun _ _ h => h.1
    · rintro (e | rows) h
      · exact .ret rfl
      · have hbody : ∀ row ∈ rows, ∀ known' s, known' = known → (tenantPolicy slug).Alike
            (fun known' _ r r' => known' = known ∧ r = r') known' (augmentRow row s) (augmentRow row s) := by
          rintro row hrow _ s rfl
          exact augmentRow_alike (h.2 rows rfl row hrow)
        apply (Policy.Alike.mapM (J := fun known' => known' = known) rows hbody rfl).seq
        rintro known' s' rows' _ ⟨_, rfl⟩
        exact .ret rfl
  · exact fun _ _ _ => .ret rfl

theorem discreet_getRunNode (nodeName : String) : Discreet slug (getRunNode slug runId nodeName) := by
  apply discreet_of_check
  · intro known s hmem
    refine ask_same ?_ ?_ ?_
    · exact hmem
    · exact fun _ _ h => h.1
    · rintro (e | _ | row) h
      · exact .ret rfl
      · exact .ret rfl
      · apply (augmentRow_alike (h.2 row rfl)).seq
        rintro known' s' row' _ ⟨_, rfl⟩
        exact .ret rfl
  · exact fun _ _ _ => .ret rfl

theorem recordedLog_same {nodeName : String} (hmem : runId ∈ known) :
    (tenantPolicy slug).Same known (recordedLog runId nodeName s) (recordedLog runId nodeName s) := by
  refine ask_same ?_ ?_ ?_
  · exact hmem
  · exact fun _ _ h => h
  · rintro (e | _ | log) _ <;> exact .ret rfl

theorem discreet_getNodeLog (nodeName : String) : Discreet slug (getNodeLog slug runId nodeName) := by
  apply discreet_of_check
  · intro known s hmem
    refine ask_same ?_ ?_ ?_
    · exact hmem
    · exact fun _ _ h => h.1
    · rintro (e | _ | row) h
      · exact .ret rfl
      · exact .ret rfl
      · dsimp only
        split
        · refine ask_same ?_ ?_ ?_
          · exact hmem
          · exact fun _ _ h => h
          · rintro (e | _ | log) _
            · exact recordedLog_same hmem
            · exact recordedLog_same hmem
            · exact .ret rfl
        · exact recordedLog_same hmem
  · exact fun _ _ _ => .ret rfl

/-- A protected request sees nothing of other tenants. -/
theorem discreet_handler {request : ApiRequest} (h : request.slug = some slug) : Discreet slug request.handler := by
  cases request with
  | poke runId nodeName => cases h
  | cancel slug runId =>
      cases h
      exact discreet_cancelPipelineRun
  | status slug runId =>
      cases h
      exact discreet_getRunStatus
  | list slug params =>
      cases h
      exact discreet_listRuns params
  | run slug runId =>
      cases h
      exact discreet_getRun
  | nodes slug runId =>
      cases h
      exact discreet_listRunNodes
  | node slug runId nodeName =>
      cases h
      exact discreet_getRunNode nodeName
  | log slug runId nodeName =>
      cases h
      exact discreet_getNodeLog nodeName

end

/-! ## Worlds that look the same -/

theorem Owns.grows {history history' : PostgresRunHistory} {runId : String} (h : Owns parseRunId slug history runId)
    (hgrows : history.Grows history') : Owns parseRunId slug history' runId := by
  obtain ⟨uuid, hid, hown⟩ := h
  obtain ⟨row, hrow⟩ := Option.isSome_iff_exists.mp hown
  obtain ⟨hfind, hslug⟩ := Option.filter_eq_some_iff.mp hrow
  obtain ⟨row', hfind', hbecomes⟩ := hgrows.runs.find? (fun r r' hr => by rw [hr.runId]) hfind
  refine ⟨uuid, hid, ?_⟩
  rw [rowOf, hfind', ownRow_some_of]
  · rfl
  · rw [hbecomes.tenantSlug]
    simpa using hslug

/-- The listing of a tenant is one of the runs under its name. -/
theorem filter_filterWhere {filters : RunFilters} (h : filters.owner = some slug) (rows : List PipelineRunRow) :
    rows.filter (PostgresRunHistory.filterWhere filters) =
      (rows.filter (·.owner = slug)).filter (PostgresRunHistory.filterWhere filters) := by
  rw [List.filter_filter]
  congr 1
  funext row
  rw [Bool.eq_iff_iff, Bool.and_eq_true]
  constructor
  · intro hrow
    refine ⟨hrow, ?_⟩
    simp only [PostgresRunHistory.filterWhere, h, Option.all_some, Bool.and_eq_true] at hrow
    exact hrow.1.1.1
  · exact fun hrow => hrow.1

theorem findNodeRun_eq (history : PostgresRunHistory) (uuid nodeName : String) :
    history.findNodeRun uuid nodeName =
      (history.nodeRuns.filter (·.row.runId = uuid)).find? (·.row.nodeName = nodeName) := by
  rw [List.find?_filter]
  simp [PostgresRunHistory.findNodeRun, Bool.decide_and]

section

variable {w w' : Backends} {known : Set String} {runId uuid : String}

theorem Backends.statement_congr {α : Type} (hfails : w.historyFails = w'.historyFails)
    {x x' : Except RunHistoryError α} (hx : x = x') : w.statement x = w'.statement x' := by
  rw [Backends.statement, Backends.statement, hfails, hx]

/-- What an operation of the run history that does not fail answers is its result. -/
theorem Backends.statement_ok {α : Type} {x : Except RunHistoryError α} {a : α} (h : w.statement x = .ok a) :
    x = .ok a := by
  unfold Backends.statement at h
  split at h
  · cases h
  · exact h

/-- What is known is the tenant's, by the names that it is known by. -/
structure Known (parseRunId : String → Option String) (slug : String) (known : Set String)
    (history : PostgresRunHistory) : Prop where
  owns : ∀ runId ∈ known, Owns parseRunId slug history runId
  canonical : ∀ runId ∈ known, ∀ uuid, parseRunId runId = some uuid → uuid ∈ known

theorem Known.grows {history history' : PostgresRunHistory} (h : Known parseRunId slug known history)
    (hgrows : history.Grows history') : Known parseRunId slug known history' :=
  ⟨fun runId hmem => (h.owns runId hmem).grows hgrows, h.canonical⟩

/-- The rows of the nodes of a known run. -/
theorem SeesSame.nodeRuns (h : SeesSame parseRunId slug w w') (hknown : Known parseRunId slug known w.history)
    (hmem : runId ∈ known) (hid : parseRunId runId = some uuid) :
    w.history.nodeRuns.filter (·.row.runId = uuid) = w'.history.nodeRuns.filter (·.row.runId = uuid) := by
  obtain ⟨uuid', hid', hown⟩ := hknown.owns runId hmem
  cases hid.symm.trans hid'
  exact h.nodes uuid hown

theorem parse_congr {α : Type} {f f' : String → Except RunHistoryError α}
    (hf : ∀ uuid, parseRunId runId = some uuid → f uuid = f' uuid) :
    (PostgresRunHistory.parse parseRunId runId >>= f) = (PostgresRunHistory.parse parseRunId runId >>= f') := by
  cases hid : parseRunId runId with
  | none => simp [PostgresRunHistory.parse, hid, Bind.bind, Except.bind]
  | some uuid =>
      simp only [PostgresRunHistory.parse, hid, Bind.bind, Except.bind]
      exact hf uuid hid

theorem getPipelineRun_ownRow (history : PostgresRunHistory) :
    (history.getPipelineRun parseRunId runId).map (ownRow slug) =
      (PostgresRunHistory.parse parseRunId runId).map (rowOf slug history) := by
  unfold PostgresRunHistory.getPipelineRun
  cases PostgresRunHistory.parse parseRunId runId <;> rfl

theorem SeesSame.findNodeRun (h : SeesSame parseRunId slug w w') (hknown : Known parseRunId slug known w.history)
    (hmem : runId ∈ known) (hid : parseRunId runId = some uuid) (nodeName : String) :
    w.history.findNodeRun uuid nodeName = w'.history.findNodeRun uuid nodeName := by
  rw [findNodeRun_eq, findNodeRun_eq, h.nodeRuns hknown hmem hid]

theorem SeesSame.filterWhere (h : SeesSame parseRunId slug w w') {filters : RunFilters}
    (howner : filters.owner = some slug) : w.history.pipelineRuns.filter (PostgresRunHistory.filterWhere filters) =
      w'.history.pipelineRuns.filter (PostgresRunHistory.filterWhere filters) := by
  rw [filter_filterWhere howner, h.named, ← filter_filterWhere howner]

/-- To the tenant, worlds that look the same answer alike. -/
theorem SeesSame.answers (h : SeesSame parseRunId slug w w') (hknown : Known parseRunId slug known w.history)
    {e : ApiEffect} (he : (tenantPolicy slug).permits known e) :
    (tenantPolicy slug).alike known e (w.answer parseRunId e) (w'.answer parseRunId e) := by
  cases e with
  | getPipelineRun runId =>
      show (w.statement _).map (ownRow slug) = (w'.statement _).map (ownRow slug)
      unfold Backends.statement
      rw [h.fails]
      split
      · rfl
      · rw [getPipelineRun_ownRow, getPipelineRun_ownRow, h.rows]
  | listPipelineRuns query =>
      refine Backends.statement_congr h.fails ?_
      rw [PostgresRunHistory.listPipelineRuns, PostgresRunHistory.listPipelineRuns, h.sort, h.filterWhere he]
  | countPipelineRuns filters =>
      refine Backends.statement_congr h.fails ?_
      rw [PostgresRunHistory.countPipelineRuns, PostgresRunHistory.countPipelineRuns, h.filterWhere he]
  | listNodeRuns runId =>
      refine ⟨Backends.statement_congr h.fails (parse_congr fun uuid hid => ?_), ?_⟩
      · rw [h.nodeRuns hknown he hid]
      · intro rows hrows row hrow
        obtain ⟨uuid, hid, rfl⟩ := PostgresRunHistory.listNodeRuns_ok (Backends.statement_ok hrows)
        obtain ⟨entry, hentry, rfl⟩ := List.mem_map.mp hrow
        have hrun : entry.row.runId = uuid := by simpa using (List.mem_filter.mp hentry).2
        rw [hrun]
        exact hknown.canonical runId he uuid hid
  | getNodeRun runId nodeName =>
      refine ⟨Backends.statement_congr h.fails (parse_congr fun uuid hid => ?_), ?_⟩
      · rw [h.findNodeRun hknown he hid]
      · intro row hrow
        obtain ⟨uuid, hid, hfound⟩ := PostgresRunHistory.parse_bind (Backends.statement_ok hrow)
        obtain ⟨entry, hentry, rfl⟩ := Option.map_eq_some_iff.mp (Except.ok.inj hfound)
        have hrun : entry.row.runId = uuid := by
          have hmatch := List.find?_some hentry
          simp only [Bool.and_eq_true, decide_eq_true_eq] at hmatch
          exact hmatch.1
        rw [hrun]
        exact hknown.canonical runId he uuid hid
  | getNodeLog runId nodeName =>
      refine Backends.statement_congr h.fails (parse_congr fun uuid hid => ?_)
      rw [h.findNodeRun hknown he hid]
  | loadRun runId => exact h.states runId (hknown.owns runId he)
  | nodeStatus runId nodeName => exact congrFun (h.statuses runId (hknown.owns runId he)) nodeName
  | liveLog runId nodeName => exact congrFun (h.logs runId (hknown.owns runId he)) nodeName
  | publishNodeCompleted runId nodeName success => cases he
  | publishCancel runId => exact h.publishes

/-- What is learned from an answer is the tenant's. -/
theorem Known.learned (hcanonical : ∀ runId uuid, parseRunId runId = some uuid → parseRunId uuid = some uuid)
    (hknown : Known parseRunId slug known w.history) (e : ApiEffect) :
    Known parseRunId slug ((tenantPolicy slug).learned known e (w.answer parseRunId e)) w.history := by
  unfold tenantPolicy
  dsimp only
  split
  · rename_i runId row hrow
    split
    · rename_i hslug
      obtain ⟨uuid, hid, hfind⟩ := PostgresRunHistory.getPipelineRun_ok (Backends.statement_ok hrow)
      have hrun : row.runId = uuid := by simpa using List.find?_some hfind.symm
      have hown : (rowOf slug w.history uuid).isSome := by
        rw [rowOf, ← hfind, ownRow_some_of hslug]
        rfl
      constructor
      · rintro r ((rfl | rfl) | hr)
        · exact ⟨uuid, hid, hown⟩
        · exact ⟨uuid, by rw [hrun]; exact hcanonical _ _ hid, hown⟩
        · exact hknown.owns r hr
      · rintro r ((rfl | rfl) | hr) u hu
        · cases hid.symm.trans hu
          simp [hrun]
        · rw [hrun, hcanonical _ _ hid] at hu
          cases hu
          simp [hrun]
        · exact .inr (hknown.canonical r hr u hu)
    · exact hknown
  · exact hknown

end

/-! ## Noninterference -/

/-- Between two calls of a handler the world may change; the run history only grows. -/
def Unfolds (ws : Nat → Backends) : Prop := ∀ i, (ws i).history.Grows (ws (i + 1)).history

/-- The run that a call reads or tells something, other than to look up whose it is. -/
def ApiEffect.touches : ApiEffect → Option String
  | .getPipelineRun _ => none
  | .listPipelineRuns _ => none
  | .countPipelineRuns _ => none
  | .listNodeRuns runId => some runId
  | .getNodeRun runId _ => some runId
  | .getNodeLog runId _ => some runId
  | .loadRun runId => some runId
  | .nodeStatus runId _ => some runId
  | .liveLog runId _ => some runId
  | .publishNodeCompleted runId _ _ => some runId
  | .publishCancel runId => some runId

theorem mem_of_permits {known : Set String} {e : ApiEffect} {runId : String} (h : (tenantPolicy slug).permits known e)
    (he : e.touches = some runId) : runId ∈ known := by
  cases e with
  | publishNodeCompleted => cases h
  | getPipelineRun | listPipelineRuns | countPipelineRuns => cases he
  | _ =>
      cases he
      exact h

/-- The response to a protected request, and the calls that are made for it, are the same in all worlds that look the
same to the tenant; no other tenant's run is touched. -/
theorem handler_noninterference (hcanonical : ∀ runId uuid, parseRunId runId = some uuid → parseRunId uuid = some uuid)
    {request : ApiRequest} (hslug : request.slug = some slug) {ws ws' : Nat → Backends} (hunfolds : Unfolds ws)
    (hsees : ∀ i, SeesSame parseRunId slug (ws i) (ws' i)) :
    (request.handler ()).against (Backends.answer parseRunId) ws =
      (request.handler ()).against (Backends.answer parseRunId) ws' ∧
    ∀ i e runId, ((request.handler ()).against (Backends.answer parseRunId) ws).1[i]? = some e →
      e.touches = some runId → Owns parseRunId slug (ws i).history runId := by
  have hdiscreet := discreet_handler hslug ∅ ()
  obtain ⟨hcalls, hpermits, _, s, a, _, hend, hend', rfl⟩ := hdiscreet.against
    (I := fun known ws ws' => Unfolds ws ∧ (∀ i, SeesSame parseRunId slug (ws i) (ws' i)) ∧
      Known parseRunId slug known (ws 0).history)
    ⟨hunfolds, hsees, ⟨fun _ h => h.elim, fun _ h => h.elim⟩⟩
    (by
      rintro known ws ws' e ⟨hunfolds, hsees, hknown⟩ he
      refine ⟨(hsees 0).answers hknown he, fun i => hunfolds (i + 1), fun i => hsees (i + 1), ?_⟩
      exact (hknown.learned hcanonical e).grows (hunfolds 0))
  refine ⟨Prod.ext hcalls (hend.trans hend'.symm), fun i e runId he htouches => ?_⟩
  obtain ⟨known, ⟨_, _, hknown⟩, hpermitted⟩ := hpermits i e he
  simpa using hknown.owns runId (mem_of_permits hpermitted htouches)

/-! ## In a run of the servers -/

open Transition Deployment

variable {d : Deployment} {h : List Event} {σ : Servers}

/-- The run history before the step with the given number, or at the end. -/
def historyAt (h : List Event) (σ : Servers) (i : Nat) : PostgresRunHistory :=
  (h[i]?.map fun t => t.before.world.history).getD σ.world.history

theorem historyAt_grows (hr : d.Runs h σ) {i j : Nat} (hij : i ≤ j) : (historyAt h σ i).Grows (historyAt h σ j) := by
  have hsplit : ∀ {i : Nat} (hi : i < h.length), h = h.take i ++ h[i] :: h.drop (i + 1) := by
    intro i hi
    rw [List.getElem_cons_drop, List.take_append_drop]
  by_cases hj : j < h.length
  · have hi : i < h.length := by omega
    rw [historyAt, historyAt, List.getElem?_eq_getElem hi, List.getElem?_eq_getElem hj]
    rcases Nat.eq_or_lt_of_le hij with rfl | hlt
    · exact .refl _
    · have hrj : d.Runs (h.take j) h[j].before := by
        have hr' := hr
        rw [hsplit hj] at hr'
        exact hr'.split.1
      have hi' : i < (h.take j).length := by simpa using ⟨hlt, hi⟩
      have htake : h.take j = (h.take j).take i ++ h[i] :: (h.take j).drop (i + 1) := by
        have hget : h[i] = (h.take j)[i] := (List.getElem_take).symm
        rw [hget, List.getElem_cons_drop, List.take_append_drop]
      rw [htake] at hrj
      exact runs_permanent hrj
  · rw [historyAt, historyAt, List.getElem?_eq_none (by omega : h.length ≤ j)]
    by_cases hi : i < h.length
    · rw [List.getElem?_eq_getElem hi]
      rw [hsplit hi] at hr
      exact runs_permanent hr
    · rw [List.getElem?_eq_none (by omega)]
      exact .refl _

/-- While the servers run, whatever they do between two calls, the response to a request that names a tenant, and the
calls made for it, are the same in all worlds that look the same to the tenant; no other tenant's run is touched. -/
theorem tenants_apart (hr : d.Runs h σ)
    (hcanonical : ∀ runId uuid, d.parseRunId runId = some uuid → d.parseRunId uuid = some uuid)
    {request : ApiRequest} (hslug : request.slug = some slug) (auth : Except SessionError (Option AuthSession))
    {times : Nat → Nat} (htimes : ∀ i, times i ≤ times (i + 1)) {ws ws' : Nat → Backends}
    (hhistory : ∀ i, (ws i).history = historyAt h σ (times i)) (hsees : ∀ i, SeesSame d.parseRunId slug (ws i) (ws' i)) :
    (route auth request ()).against (Backends.answer d.parseRunId) ws =
      (route auth request ()).against (Backends.answer d.parseRunId) ws' ∧
    ∀ i e runId, ((route auth request ()).against (Backends.answer d.parseRunId) ws).1[i]? = some e →
      e.touches = some runId → Owns d.parseRunId slug (ws i).history runId := by
  have hunfolds : Unfolds ws := by
    intro i
    rw [hhistory, hhistory]
    exact historyAt_grows hr (htimes i)
  unfold route
  rw [hslug]
  dsimp only
  cases authorizedTenant auth slug with
  | error code => exact ⟨rfl, fun i e runId he => nomatch he⟩
  | ok _ => exact handler_noninterference hcanonical hslug hunfolds hsees

/-- Backends with a run history and nothing in the state store and in S3. -/
def Backends.bare (history : PostgresRunHistory) : Backends where
  history := history
  historyFails := none
  sort _ _ rows := rows
  loadRun _ := .ok none
  nodeStatus _ _ := .error (.notFound "")
  liveLog _ _ := .ok none
  publishes := .ok ()

/-- To another tenant a run that a server has started looks as if there were none. -/
theorem tenants_apart_begun : ∃ h σ, buildAndTest.Runs h σ ∧ σ.world.history.pipelineRuns.length = 1 ∧
    (route (.ok (some ⟨"user", none, none, ["other"], "other"⟩))
        (.run "other" "7d444840-9dc0-11d1-b245-5ffdce74fad2") ()).against (Backends.answer some)
        (fun _ => .bare σ.world.history) =
      ([.getPipelineRun "7d444840-9dc0-11d1-b245-5ffdce74fad2"], (), ⟨404, .run none⟩) := by
  obtain ⟨h, σ, hr, hcheck⟩ := buildAndTest.exists_runs (begun "7d444840-9dc0-11d1-b245-5ffdce74fad2")
    (fun a => a.2.world.history.pipelineRuns.length = 1 &&
      a.2.world.history.pipelineRuns.all fun row => row.tenantSlug = some "acme" && row.owner = "acme")
    (by decide +kernel)
  simp only [Bool.and_eq_true, decide_eq_true_eq, List.all_eq_true] at hcheck
  have hrows : rowOf "other" σ.world.history = rowOf "other" .empty := by
    funext uuid
    refine Option.filter_eq_none_iff.mpr fun row hrow => ?_
    have hslug := (hcheck.2 row (List.mem_of_find?_eq_some hrow)).1
    simp [hslug]
  have hnone : ∀ runId, ¬Owns some "other" σ.world.history runId := by
    rintro runId ⟨uuid, _, hown⟩
    rw [hrows] at hown
    cases hown
  have hsees : SeesSame some "other" (.bare σ.world.history) (.bare .empty) :=
    { fails := rfl
      sort := rfl
      publishes := rfl
      rows := hrows
      named := by
        rw [List.filter_eq_nil_iff.mpr fun row hrow => by simp [(hcheck.2 row hrow).2]]
        rfl
      nodes := fun uuid hown => absurd ⟨uuid, rfl, hown⟩ (hnone uuid)
      states := fun runId hown => absurd hown (hnone runId)
      statuses := fun runId hown => absurd hown (hnone runId)
      logs := fun runId hown => absurd hown (hnone runId) }
  have hcanonical : ∀ runId uuid : String, some runId = some uuid → some uuid = some uuid := fun _ _ _ => rfl
  have hapart := @tenants_apart "other" buildAndTest h σ hr hcanonical
    (.run "other" "7d444840-9dc0-11d1-b245-5ffdce74fad2") rfl (.ok (some ⟨"user", none, none, ["other"], "other"⟩))
    (fun _ => h.length) (fun _ => Nat.le_refl _) (fun _ => .bare σ.world.history) (fun _ => .bare .empty)
    (fun _ => by simp [historyAt, Backends.bare]) fun _ => hsees
  exact ⟨h, σ, hr, hcheck.1, hapart.1⟩

end Jefferies.Server
