import Jefferies.Coordination.Account
import Jefferies.RunHistory.Integrity

/-!
# What the servers never take back

Whatever the servers do, in whatever order and with whatever failures and crashes, their statements keep the run history
sound and only add to it.
-/

namespace Jefferies.Coordination

open RunHistory PostgresRunHistory Transition Deployment

variable {d : Deployment} {h : List Event} {σ : Servers}

/-- No call takes back what the run history has. -/
theorem Effect.historyAfter_keeps (parseRunId : String → Option String) (history : PostgresRunHistory) (e : Effect) :
    history.Keeps (e.historyAfter parseRunId history) := by
  cases e with
  | recordPipelineStarted record =>
      exact kept_induction _ (.refl history) fun _ hok => recordPipelineStarted_keeps hok
  | recordPipelineRun record => exact kept_induction _ (.refl history) fun _ hok => recordPipelineRun_keeps hok
  | finalizePipelineRunStatus runId status completedAt =>
      refine kept_induction _ (.refl history) fun history' hok => ?_
      obtain ⟨a, hfinalized, rfl⟩ := except_map_ok hok
      exact finalizePipelineRunStatus_keeps hfinalized
  | recordNodeDispatched record => exact kept_induction _ (.refl history) fun _ hok => recordNodeDispatched_keeps hok
  | recordNodeRun record => exact kept_induction _ (.refl history) fun _ hok => recordNodeRun_keeps hok
  | _ => exact .refl history

theorem step_keeps {t : Event} (hs : d.cluster.step t.before t.label = some t.after) :
    t.before.world.history.Keeps t.after.world.history := by
  rcases step_cases hs with ⟨_, _, _, _, a, _, ha, hw⟩ | ⟨_, a, _, ha, hw⟩ | ⟨_, _, hw⟩
  · rw [hw, respond_history ha]
    split
    · exact Effect.historyAfter_keeps _ _ _
    · exact .refl _
  · rw [hw, outside_history ha]
    exact .refl _
  · rw [hw]
    exact .refl _

/-- In every run of the servers the run history is sound, and every run is retried, through the runs between, from
exactly one that is no retry. -/
theorem runs_sound (hr : d.Runs h σ) : σ.world.history.Sound ∧ ∀ row ∈ σ.world.history.pipelineRuns,
    ∃! origin, origin ∈ σ.world.history.pipelineRuns.map PipelineRunRow.reference ∧
      Table.Leads (σ.world.history.pipelineRuns.map PipelineRunRow.reference) row.reference origin := by
  have hsound : σ.world.history.Sound := by
    apply hr.invariant
    · rintro _ rfl
      exact empty_sound
    · intro _ σ l σ' _ hs hstep
      exact (step_keeps (t := ⟨σ, l, σ'⟩) hstep).sound hs
  exact ⟨hsound, hsound.originates⟩

theorem runs_sound_begun : ∃ h σ, buildAndTest.Runs h σ ∧ σ.world.history.pipelineRuns.length = 1 ∧
    σ.world.history.nodeRuns.length = 1 ∧ σ.world.history.Sound := by
  obtain ⟨h, σ, hr, hcheck⟩ := buildAndTest.exists_runs (begun "7d444840-9dc0-11d1-b245-5ffdce74fad2")
    (fun a => a.2.world.history.pipelineRuns.length = 1 && a.2.world.history.nodeRuns.length = 1) (by decide +kernel)
  simp only [Bool.and_eq_true, decide_eq_true_eq] at hcheck
  exact ⟨h, σ, hr, hcheck.1, hcheck.2, (runs_sound hr).1⟩

/-- In every run of the servers, what the run history had at any moment it has from then on: each row in its place, with
all columns but those that say how the run or the node came out. -/
theorem runs_permanent {h₁ h₂ : List Event} {t : Event} (hr : d.Runs (h₁ ++ t :: h₂) σ) :
    t.before.world.history.Grows σ.world.history := by
  refine hr.kept_after (Q := fun σ' => t.before.world.history.Grows σ'.world.history) ?_ (step_keeps hr.split.2).grows
  intro t' ht' hgrows
  obtain ⟨h₃, h₄, rfl⟩ := List.append_of_mem ht'
  have hstep : d.cluster.step t'.before t'.label = some t'.after := by
    have hr' : d.Runs ((h₁ ++ t :: h₃) ++ t' :: h₄) σ := by simpa using hr
    exact hr'.split.2
  exact hgrows.trans (step_keeps hstep).grows

/-- The last steps of a server that starts a run find the run's row there. -/
theorem runs_permanent_begun : ∃ h₁ t h₂ σ, buildAndTest.Runs (h₁ ++ t :: h₂) σ ∧ h₂ ≠ [] ∧
    t.before.world.history.pipelineRuns.length = 1 ∧ t.before.world.history.Grows σ.world.history := by
  obtain ⟨h, σ, hr, hcheck⟩ := buildAndTest.exists_runs (begun "7d444840-9dc0-11d1-b245-5ffdce74fad2")
    (fun a => (a.1[16]?).any fun t => t.before.world.history.pipelineRuns.length = 1 && 17 < a.1.length)
    (by decide +kernel)
  obtain ⟨t, ht, hcheck⟩ := (Option.any_eq_true _ _).mp hcheck
  simp only [Bool.and_eq_true, decide_eq_true_eq] at hcheck
  obtain ⟨hlt, rfl⟩ := List.getElem?_eq_some_iff.mp ht
  have hsplit : h = h.take 16 ++ h[16] :: h.drop 17 := by rw [List.getElem_cons_drop, List.take_append_drop]
  rw [hsplit] at hr
  refine ⟨h.take 16, h[16], h.drop 17, σ, hr, ?_, hcheck.1, runs_permanent hr⟩
  simpa using hcheck.2

end Jefferies.Coordination
