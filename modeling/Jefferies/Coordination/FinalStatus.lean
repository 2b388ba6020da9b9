import Jefferies.Coordination.Account

/-!
# The final status of a run

`finalize_pipeline_run_status` updates a run in progress only. `record_pipeline_run` sets the status of the row
whatever it is, so a final status lasts as long as coordinators end no run that another one has ended otherwise.
-/

namespace Jefferies.RunHistory.PostgresRunHistory

open Coordination

variable {parseRunId : String → Option String} {self : PostgresRunHistory} {runId : String} {status : RunStatus}

/-- The run has left `in_progress` for the status. -/
def Final (self : PostgresRunHistory) (runId : String) (status : RunStatus) : Prop :=
  self.statusOf runId = some status ∧ status ≠ .inProgress

theorem Final.of_pipelineRuns {history : PostgresRunHistory} (h : self.Final runId status)
    (hp : history.pipelineRuns = self.pipelineRuns) : history.Final runId status := by
  unfold Final statusOf at *
  rwa [hp]

/-- A final status survives every statement that is carried out, except perhaps the record of the run's end. -/
theorem Final.historyAfter {e : Effect} (h : self.Final runId status)
    (he : ∀ record, e = .recordPipelineRun record → parseRunId record.runId ≠ some runId ∨
      (∀ retryOf, parseRetryOf parseRunId record.retryOf ≠ .ok retryOf) ∨ record.status = status) :
    (e.historyAfter parseRunId self).Final runId status := by
  cases e with
  | recordPipelineStarted record =>
      refine kept_induction (Final · runId status) h ?_
      intro history hrec
      exact ⟨statusOf_recordPipelineStarted hrec h.1, h.2⟩
  | recordPipelineRun record =>
      refine kept_induction (Final · runId status) h ?_
      intro history hrec
      obtain ⟨uuid, retryOf, hid, hretry, _⟩ := recordPipelineRun_ok hrec
      refine ⟨?_, h.2⟩
      rw [statusOf_recordPipelineRun hrec hid]
      split
      · rename_i hr
        subst hr
        rcases he record rfl with hne | hne | heq
        · exact absurd hid hne
        · exact absurd hretry (hne retryOf)
        · rw [heq]
      · exact h.1
  | finalizePipelineRunStatus id new completedAt =>
      refine kept_induction (Final · runId status) h ?_
      intro history hmap
      obtain ⟨x, hrec, rfl⟩ := except_map_ok hmap
      obtain ⟨uuid, hid, _⟩ := finalizePipelineRunStatus_ok hrec
      refine ⟨?_, h.2⟩
      rw [statusOf_finalizePipelineRunStatus (b := x.1) hrec hid, h.1]
      simp [h.2]
  | recordNodeDispatched record =>
      refine kept_induction (Final · runId status) h ?_
      intro history hrec
      exact h.of_pipelineRuns (recordNodeDispatched_pipelineRuns hrec)
  | recordNodeRun record =>
      refine kept_induction (Final · runId status) h ?_
      intro history hrec
      exact h.of_pipelineRuns (recordNodeRun_pipelineRuns hrec)
  | _ => exact h

end Jefferies.RunHistory.PostgresRunHistory

namespace Jefferies.Coordination

open Pipelines StateStore RunHistory Interaction Transition Deployment PostgresRunHistory

/-- Once a run has left `in_progress`, its status is the same after every later step. -/
def WrittenOnce (h : List Event) : Prop :=
  h.Pairwise fun t t' => ∀ run : String × RunStatus,
    t.after.world.history.Final run.1 run.2 → t'.after.world.history.Final run.1 run.2

/-- The end of a run that a step records: the id in its row, and the status. -/
def carriedEnd (parseRunId : String → Option String) (t : Event) : Option (String × RunStatus) :=
  match answeredCall t with
  | some (_, _, .recordPipelineRun record, reply) =>
      match parseRunId record.runId, parseRetryOf parseRunId record.retryOf with
      | some runId, .ok _ => if reply.carriedOut then some (runId, record.status) else none
      | _, _ => none
  | _ => none

namespace Deployment

/-- A run whose end is recorded has no row yet, is in progress, or has ended with the same status. -/
def RecordsOpen (d : Deployment) (t : Event) : Prop :=
  ∀ runId status, carriedEnd d.parseRunId t = some (runId, status) →
    ∀ old, t.before.world.history.statusOf runId = some old → old = .inProgress ∨ old = status

end Deployment

instance (d : Deployment) (t : Event) : Decidable (d.RecordsOpen t) :=
  match hend : carriedEnd d.parseRunId t with
  | none => isTrue fun _ _ h => by simp [hend] at h
  | some (runId, status) =>
      if hopen : ∀ old ∈ t.before.world.history.statusOf runId, old = .inProgress ∨ old = status then
        isTrue fun _ _ h => by
          cases hend.symm.trans h
          exact hopen
      else isFalse fun h => hopen (h runId status hend)

variable {d : Deployment} {h : List Event} {σ : Servers}

theorem carriedEnd_eq_some {parseRunId : String → Option String} {t : Event} {runId : String} {status : RunStatus} :
    carriedEnd parseRunId t = some (runId, status) ↔
      ∃ i s record reply retryOf, answeredCall t = some (i, s, .recordPipelineRun record, reply) ∧
        parseRunId record.runId = some runId ∧ parseRetryOf parseRunId record.retryOf = .ok retryOf ∧
        reply.carriedOut = true ∧ record.status = status := by
  unfold carriedEnd
  constructor
  · intro h
    split at h
    · rename_i i s record reply hcall
      split at h
      · rename_i runId' retryOf hid hretry
        split at h
        · rename_i hdone
          cases h
          exact ⟨i, s, record, reply, retryOf, hcall, hid, hretry, hdone, rfl⟩
        · cases h
      · cases h
    · cases h
  · rintro ⟨i, s, record, reply, retryOf, hcall, hid, hretry, hdone, rfl⟩
    rw [hcall]
    simp [hid, hretry, hdone]

/-- One step keeps the final statuses exactly if what it records is open. -/
theorem keeps_final_iff {t : Event} (hs : d.cluster.step t.before t.label = some t.after) :
    (∀ run : String × RunStatus,
      t.before.world.history.Final run.1 run.2 → t.after.world.history.Final run.1 run.2) ↔ d.RecordsOpen t := by
  constructor
  · intro hkept runId status hend old hold
    by_cases hopen : old = .inProgress
    · exact Or.inl hopen
    · right
      obtain ⟨i, s, record, reply, retryOf, hans, hid, hretry, hdone, rfl⟩ := carriedEnd_eq_some.mp hend
      have hafter := (hkept (runId, old) ⟨hold, hopen⟩).1
      rcases step_cases hs with ⟨_, _, _, _, a, hans', ha, hw⟩ | ⟨l, _, hl, _, _⟩ | ⟨hnone, _, _⟩
      · cases hans.symm.trans hans'
        obtain ⟨history, hrec⟩ := recordPipelineRun_of_row hid hretry hold
        rw [hw, respond_history ha, if_pos hdone, Effect.historyAfter, hrec, kept,
          statusOf_recordPipelineRun hrec hid, if_pos rfl] at hafter
        exact (Option.some.inj hafter).symm
      · cases hl.symm.trans (answeredCall_eq_some.mp hans).1
      · cases hnone.symm.trans hans
  · rintro hopen ⟨runId, status⟩ hfinal
    rcases step_cases hs with ⟨i, s, e, reply, a, hans, ha, hw⟩ | ⟨l, a, _, ha, hw⟩ | ⟨_, _, hw⟩
    · rw [hw, respond_history ha]
      split
      · rename_i hdone
        refine hfinal.historyAfter ?_
        rintro record rfl
        by_cases hid : d.parseRunId record.runId = some runId
        · right
          by_contra hcon
          push Not at hcon
          obtain ⟨⟨retryOf, hretry⟩, hne⟩ := hcon
          have hend := carriedEnd_eq_some.mpr ⟨i, s, record, reply, retryOf, hans, hid, hretry, hdone, rfl⟩
          rcases hopen runId record.status hend status hfinal.1 with h | h
          · exact hfinal.2 h
          · exact hne h.symm
        · exact Or.inl hid
      · exact hfinal
    · rw [hw, outside_history ha]
      exact hfinal
    · rw [hw]
      exact hfinal

theorem final_kept_iff (hr : d.Runs h σ) : WrittenOnce h ↔ ∀ t ∈ h, ∀ run : String × RunStatus,
    t.before.world.history.Final run.1 run.2 → t.after.world.history.Final run.1 run.2 := by
  apply hr.pairwise_iff (Q := fun (run : String × RunStatus) σ => σ.world.history.Final run.1 run.2)
  rintro run _ rfl hfinal
  cases hfinal.1

/-- The lease runs out, and the reaper of another server takes the run up. -/
def reclaimed (runId : String) : List (Act Input Reply Outside) :=
  [.outside (.expireLease runId), .outside .startReaper, .answer 2 (.names [runId]), .answer 2 .done, .answer 2 .done,
    .answer 2 .done, .answer 2 .done, .answer 2 .done, .answer 2 (.text "5d2c9a60-7f55-4f0d-8c3e-2b9f6a4d1e33"),
    .answer 2 .done, .answer 2 .done, .answer 2 .done, .answer 2 (.flag true), .answer 2 .done, .answer 3 .done,
    .answer 3 (.names ["build", "test"]), .answer 3 (.outcomes none), .answer 3 (.names []), .answer 3 (.names []),
    .answer 3 (.number 0), .answer 3 (.names ["build"]), .answer 3 .done, .answer 3 (.time ⟨0, 0⟩),
    .answer 3 (.number 0), .answer 3 .done, .answer 3 .done, .answer 3 .done, .answer 3 (.names [])]

/-- A coordinator takes up an event that ends the run, and records the end. -/
def endedBy (i : Nat) (event : LoopEvent) : List (Act Input Reply Outside) :=
  [.deliver i (.event event), .answer i (.names ["build"]), .answer i (.outcome none), .answer i (.time ⟨0, 0⟩),
    .answer i (.log none), .answer i (.time ⟨0, 0⟩), .answer i .done, .answer i (.time ⟨0, 0⟩), .answer i .done]

/-- The user cancels the run. -/
def cancelledBy (i : Nat) : List (Act Input Reply Outside) := endedBy i (.backplane (some .cancel))

end Jefferies.Coordination
