import Jefferies.Collections.Growth
import Jefferies.RunHistory.Postgres

/-!
# The integrity of the run history

The tables have their keys and foreign keys, and a statement only adds rows or fills in columns of those that are there.
-/

namespace Jefferies.RunHistory

open Table

/-- What a later state of a row may differ in: the status and the time of completion, and the check run where the row
had none. -/
structure PipelineRunRow.Becomes (row row' : PipelineRunRow) : Prop where
  same : { row' with
    status := row.status
    completedAt := row.completedAt
    githubCheckRunId := row.githubCheckRunId } = row
  checkRun : ∀ id, row.githubCheckRunId = some id → row'.githubCheckRunId = some id

/-- What a later state of a node's row may differ in: the result, but not that there is one. -/
structure NodeRunEntry.Becomes (e e' : NodeRunEntry) : Prop where
  runId : e'.row.runId = e.row.runId
  nodeName : e'.row.nodeName = e.row.nodeName
  nodeDefinition : e'.row.nodeDefinition = e.row.nodeDefinition
  createdAt : e'.row.createdAt = e.row.createdAt
  success : e.row.success.isSome → e'.row.success.isSome

def PipelineRunRow.reference (row : PipelineRunRow) : String × Option String := (row.runId, row.retryOf)

def NodeRunEntry.key (e : NodeRunEntry) : String × String := (e.row.runId, e.row.nodeName)

namespace PostgresRunHistory

/-- The keys of the tables are distinct, and their foreign keys refer to runs; a retry to one that was there before. -/
structure Sound (history : PostgresRunHistory) : Prop where
  runs : (history.pipelineRuns.map PipelineRunRow.runId).Nodup
  nodes : (history.nodeRuns.map NodeRunEntry.key).Nodup
  owned : ∀ e ∈ history.nodeRuns, e.row.runId ∈ history.pipelineRuns.map PipelineRunRow.runId
  retries : RefersBack (history.pipelineRuns.map PipelineRunRow.reference)

/-- The second history has every row of the first in its place, and more behind. -/
structure Grows (history history' : PostgresRunHistory) : Prop where
  runs : Table.Grows PipelineRunRow.Becomes history.pipelineRuns history'.pipelineRuns
  nodes : Table.Grows NodeRunEntry.Becomes history.nodeRuns history'.nodeRuns

end PostgresRunHistory

/-! ## Rows -/

namespace PipelineRunRow.Becomes

variable {row row' row'' : PipelineRunRow}

theorem refl (row : PipelineRunRow) : row.Becomes row := ⟨rfl, fun _ h => h⟩

theorem trans (h : row.Becomes row') (h' : row'.Becomes row'') : row.Becomes row'' := by
  refine ⟨?_, fun id hid => h'.checkRun id (h.checkRun id hid)⟩
  have hsame := h.same
  rw [← h'.same] at hsame
  exact hsame

theorem runId (h : row.Becomes row') : row'.runId = row.runId := by
  have hsame := congrArg PipelineRunRow.runId h.same
  exact hsame

theorem tenantSlug (h : row.Becomes row') : row'.tenantSlug = row.tenantSlug := by
  have hsame := congrArg PipelineRunRow.tenantSlug h.same
  exact hsame

end PipelineRunRow.Becomes

theorem NodeRunEntry.Becomes.refl (e : NodeRunEntry) : e.Becomes e := ⟨rfl, rfl, rfl, rfl, fun h => h⟩

theorem NodeRunEntry.Becomes.trans {e e' e'' : NodeRunEntry} (h : e.Becomes e') (h' : e'.Becomes e'') : e.Becomes e'' where
  runId := h'.runId.trans h.runId
  nodeName := h'.nodeName.trans h.nodeName
  nodeDefinition := h'.nodeDefinition.trans h.nodeDefinition
  createdAt := h'.createdAt.trans h.createdAt
  success hs := h'.success (h.success hs)

namespace PostgresRunHistory

variable {parseRunId : String → Option String} {self history history' : PostgresRunHistory}

namespace Grows

theorem refl (self : PostgresRunHistory) : self.Grows self :=
  ⟨Table.Grows.refl .refl _, Table.Grows.refl .refl _⟩

theorem trans (h : self.Grows history) (h' : history.Grows history') : self.Grows history' :=
  ⟨h.runs.trans (fun _ _ _ => .trans) h'.runs, h.nodes.trans (fun _ _ _ => .trans) h'.nodes⟩

end Grows

/-! ## Upserts -/

theorem mem_runIds_of_refers {runId : String} (h : self.refers (some runId) = true) :
    runId ∈ self.pipelineRuns.map PipelineRunRow.runId := by
  obtain ⟨row, hrow, hrun⟩ := List.any_eq_true.mp h
  exact List.mem_map.mpr ⟨row, hrow, by simpa using hrun⟩

theorem upsertPipelineRun_sound {new : PipelineRunRow} {update : PipelineRunRow → PipelineRunRow} (hs : self.Sound)
    (h : self.upsertPipelineRun new update = .ok history)
    (hupdate : ∀ row, (update row).reference = row.reference) : history.Sound := by
  have hid : ∀ row, (update row).runId = row.runId := fun row => congrArg Prod.fst (hupdate row)
  have hallowed : self.refers (some new.runId) = true ∨ self.refers new.retryOf = true := by
    unfold upsertPipelineRun at h
    split at h
    · rename_i hrefers
      simpa using hrefers
    · cases h
  obtain rfl := upsertPipelineRun_ok h
  constructor
  · exact nodup_upsert (fun _ => decide_eq_true_iff) hid hs.runs
  · exact hs.nodes
  · intro e he
    have hold := hs.owned e he
    rw [map_upsert hid]
    split
    · exact hold
    · exact List.mem_append_left _ hold
  · rw [map_upsert hupdate]
    split
    · exact hs.retries
    · rename_i hnone
      refine hs.retries.concat fun k hk => ?_
      have hretry : self.refers (some k) = true := by
        rcases hallowed with hold | hretry
        · exact absurd hold (by simpa [refers] using hnone)
        · rwa [show new.retryOf = some k from hk] at hretry
      simpa [PipelineRunRow.reference] using mem_runIds_of_refers hretry

theorem update_sound {where_ : PipelineRunRow → Bool} {f : PipelineRunRow → PipelineRunRow} (hs : self.Sound)
    (hf : ∀ row, (f row).reference = row.reference) :
    Sound { self with pipelineRuns := Table.update where_ f self.pipelineRuns } := by
  have hids : (Table.update where_ f self.pipelineRuns).map PipelineRunRow.runId =
      self.pipelineRuns.map PipelineRunRow.runId := map_update fun row => congrArg Prod.fst (hf row)
  constructor
  · rw [hids]
    exact hs.runs
  · exact hs.nodes
  · rw [hids]
    exact hs.owned
  · rw [map_update hf]
    exact hs.retries

theorem upsertNodeRun_sound {new : NodeRunEntry} {update : NodeRunEntry → NodeRunEntry} (hs : self.Sound)
    (h : self.upsertNodeRun new update = .ok history) (hupdate : ∀ e, (update e).key = e.key) : history.Sound := by
  have hrefers : self.refers (some new.row.runId) = true := by
    unfold upsertNodeRun at h
    split at h
    · assumption
    · cases h
  have howned : ∀ e ∈ history.nodeRuns, e.row.runId ∈ self.pipelineRuns.map PipelineRunRow.runId := by
    refine forall_upsertNodeRun h hs.owned (fun e he _ _ => ?_) (mem_runIds_of_refers hrefers)
    have hid : (update e).row.runId = e.row.runId := congrArg Prod.fst (hupdate e)
    rw [hid]
    exact hs.owned e he
  obtain rfl := upsertNodeRun_ok h
  refine ⟨hs.runs, nodup_upsert (fun e => ?_) hupdate hs.nodes, howned, hs.retries⟩
  simp [NodeRunEntry.key]

theorem upsertPipelineRun_grows {new : PipelineRunRow} {update : PipelineRunRow → PipelineRunRow}
    (h : self.upsertPipelineRun new update = .ok history) (hupdate : ∀ row : PipelineRunRow, row.Becomes (update row)) :
    self.Grows history := by
  obtain rfl := upsertPipelineRun_ok h
  exact ⟨Table.Grows.upsert .refl fun row _ => hupdate row, Table.Grows.refl .refl _⟩

theorem upsertNodeRun_grows {new : NodeRunEntry} {update : NodeRunEntry → NodeRunEntry}
    (h : self.upsertNodeRun new update = .ok history) (hupdate : ∀ e : NodeRunEntry, e.Becomes (update e)) : self.Grows history := by
  obtain rfl := upsertNodeRun_ok h
  exact ⟨Table.Grows.refl .refl _, Table.Grows.upsert .refl fun e _ => hupdate e⟩

/-! ## Statements -/

/-- What a statement that writes does not spoil. -/
structure Keeps (history history' : PostgresRunHistory) : Prop where
  grows : history.Grows history'
  sound : history.Sound → history'.Sound

theorem Keeps.refl (self : PostgresRunHistory) : self.Keeps self := ⟨.refl self, fun h => h⟩

theorem recordPipelineStarted_keeps {r : PipelineStartRecord}
    (h : self.recordPipelineStarted parseRunId r = .ok history) : self.Keeps history := by
  obtain ⟨uuid, retryOf, _, hup⟩ := recordPipelineStarted_ok h
  refine ⟨upsertPipelineRun_grows hup fun row => ⟨rfl, fun id hid => ?_⟩, fun hs => upsertPipelineRun_sound hs hup fun _ => rfl⟩
  show row.githubCheckRunId.or r.githubCheckRunId = some id
  rw [hid]
  rfl

theorem recordPipelineRun_keeps {r : PipelineRunRecord} (h : self.recordPipelineRun parseRunId r = .ok history) :
    self.Keeps history := by
  obtain ⟨uuid, retryOf, _, _, hup⟩ := recordPipelineRun_ok h
  exact ⟨upsertPipelineRun_grows hup fun row => ⟨rfl, fun _ hid => hid⟩, fun hs => upsertPipelineRun_sound hs hup fun _ => rfl⟩

theorem finalizePipelineRunStatus_keeps {id : String} {new : RunStatus} {completedAt : DateTime}
    {a : Bool × PostgresRunHistory} (h : self.finalizePipelineRunStatus parseRunId id new completedAt = .ok a) :
    self.Keeps a.2 := by
  obtain ⟨uuid, _, hrows⟩ := finalizePipelineRunStatus_ok h
  rw [hrows]
  refine ⟨⟨Table.Grows.update .refl fun row _ => ⟨rfl, fun _ hid => hid⟩, Table.Grows.refl .refl _⟩, fun hs => ?_⟩
  exact update_sound hs fun _ => rfl

theorem recordNodeDispatched_keeps {r : NodeDispatchRecord} (h : self.recordNodeDispatched parseRunId r = .ok history) :
    self.Keeps history := by
  obtain ⟨uuid, _, hup⟩ := recordNodeDispatched_ok h
  exact ⟨upsertNodeRun_grows hup .refl, fun hs => upsertNodeRun_sound hs hup fun _ => rfl⟩

theorem recordNodeRun_keeps {r : NodeRunRecord} (h : self.recordNodeRun parseRunId r = .ok history) :
    self.Keeps history := by
  obtain ⟨uuid, _, hup⟩ := recordNodeRun_ok h
  exact ⟨upsertNodeRun_grows hup fun e => ⟨rfl, rfl, rfl, rfl, fun _ => rfl⟩, fun hs => upsertNodeRun_sound hs hup fun _ => rfl⟩

theorem empty_sound : empty.Sound := ⟨List.nodup_nil, List.nodup_nil, by simp [empty], refersBack_nil⟩

/-- A run is retried from one run that is no retry itself. -/
theorem Sound.originates (h : self.Sound) : ∀ row ∈ self.pipelineRuns,
    ∃! origin, origin ∈ self.pipelineRuns.map PipelineRunRow.reference ∧
      Leads (self.pipelineRuns.map PipelineRunRow.reference) row.reference origin := by
  intro row hrow
  apply h.retries.leads
  · rw [List.map_map]
    exact h.runs
  · exact List.mem_map_of_mem hrow

end PostgresRunHistory

end Jefferies.RunHistory
