import Jefferies.Collections.IntTypes
import Jefferies.Coordination.Account
import Jefferies.Sources.SourceManager

/-!
# The live status of a node

A worker writes the times of its node to S3 in milliseconds. The coordinator and the reaper record them, and the server
shows them before they are recorded; each of the three reads them with a conversion of its own.
-/

namespace Jefferies.Server

open RunHistory Coordination Sources Deployment

def millisToDatetime (ms : Nat) : Option DateTime := do
  let secs ← IntType.i64.tryFrom ↑(ms / 1000)
  let nanos ← IntType.u32.tryFrom ↑(ms % 1000 * 1000000)
  DateTime.fromTimestamp secs nanos.toNat

/-- `augment_with_live`; `status` is what `get_node_status` answers for the node. -/
def augmentWithLive (row : NodeRunRow) (status : Except SourceError NodeOutcome) : NodeRunRow :=
  if row.completedAt.isSome then row
  else
    match status with
    | .error _ => row
    | .ok outcome =>
        { row with
          success := outcome.success.or row.success
          startedAt := (outcome.startedAt.bind millisToDatetime).or row.startedAt
          completedAt := (outcome.finishedAt.bind millisToDatetime).or row.completedAt }

/-! ## Times in milliseconds -/

/-- A date that can be represented, in no leap second. -/
def Proper (t : DateTime) : Prop := DateTime.minSecs ≤ t.secs ∧ t.secs ≤ DateTime.maxSecs ∧ t.nanos < 1000000000

/-- The time `ms` milliseconds after the epoch, if it can be represented. -/
def AtMillis (ms : Nat) (r : Option DateTime) : Prop := ∀ t, r = some t ↔ Proper t ∧ t.instant = ms * 1000000

/-- The three conversions give the same, and it is that time. -/
def Agree (ms : Nat) : Prop :=
  ∃ r, AtMillis ms r ∧ msToDatetime ms = r ∧ reaperMsToDatetime ms = r ∧ millisToDatetime ms = r

/-- A date in the given number of seconds, within the second of `ms`. -/
def dateAt (ms : Nat) (secs : Int) : Option DateTime := DateTime.fromTimestamp secs (ms % 1000 * 1000000)

variable {ms : Nat} {secs : Int}

theorem dateAt_eq (ms : Nat) (secs : Int) : dateAt ms secs =
    if DateTime.minSecs ≤ secs ∧ secs ≤ DateTime.maxSecs then some ⟨secs, ms % 1000 * 1000000⟩ else none := by
  have hnanos : ms % 1000 * 1000000 < 1000000000 := by omega
  simp [dateAt, DateTime.fromTimestamp, hnanos]

theorem dateAt_eq_none_iff :
    dateAt ms secs = none ↔ ¬(DateTime.minSecs ≤ secs ∧ secs ≤ DateTime.maxSecs) := by
  rw [dateAt_eq]
  split <;> simp [*]

theorem dateAt_fits (ms : Nat) (secs : Int) (h : dateAt ms secs ≠ none) : IntType.i64.Fits secs := by
  rw [Ne, dateAt_eq_none_iff, not_not] at h
  unfold DateTime.minSecs DateTime.maxSecs at h
  rw [IntType.i64_fits_iff]
  omega

theorem atMillis_dateAt (ms : Nat) : AtMillis ms (dateAt ms ↑(ms / 1000)) := by
  intro t
  rw [dateAt_eq]
  unfold Proper DateTime.instant
  constructor
  · intro h
    split at h
    · rename_i hsecs
      cases h
      refine ⟨⟨hsecs.1, hsecs.2, ?_⟩, ?_⟩
      · show ms % 1000 * 1000000 < 1000000000
        omega
      · show (↑(ms / 1000) : Int) * 1000000000 + ↑(ms % 1000 * 1000000) = ms * 1000000
        omega
    · cases h
  · rintro ⟨⟨hmin, hmax, hnanos⟩, hinstant⟩
    obtain ⟨secs, nanos⟩ := t
    dsimp only at *
    have hsecs : secs = ↑(ms / 1000) := by omega
    have hrest : nanos = ms % 1000 * 1000000 := by omega
    rw [if_pos ⟨hsecs ▸ hmin, hsecs ▸ hmax⟩, hsecs, hrest]

theorem AtMillis.unique {r r' : Option DateTime} (h : AtMillis ms r) (h' : AtMillis ms r') : r = r' :=
  Option.ext fun t => (h t).trans (h' t).symm

/-! ## Conversions -/

/-- The checked conversions lose nothing: the range of dates is within `i64`. -/
theorem millisToDatetime_eq (ms : Nat) : millisToDatetime ms = dateAt ms ↑(ms / 1000) := by
  have hnanos : IntType.u32.tryFrom ↑(ms % 1000 * 1000000) = some ↑(ms % 1000 * 1000000) := by
    apply if_pos
    rw [IntType.u32_fits_iff]
    omega
  rw [← IntType.tryFrom_bind (dateAt_fits ms)]
  unfold millisToDatetime
  rw [hnanos]
  rfl

theorem reaperMsToDatetime_eq (ms : Nat) : reaperMsToDatetime ms = dateAt ms ↑(ms / 1000) := by
  unfold reaperMsToDatetime
  split
  · rfl
  · symm
    rw [dateAt_eq_none_iff]
    unfold DateTime.maxSecs
    omega

/-- The coordinator casts the seconds. -/
theorem msToDatetime_eq (ms : Nat) : msToDatetime ms = dateAt ms (IntType.i64.cast ↑(ms / 1000)) := by
  have hnanos : ms % 1000 * 1000000 % 2 ^ 32 = ms % 1000 * 1000000 := Nat.mod_eq_of_lt (by omega)
  rw [msToDatetime, hnanos, IntType.i64_cast]
  rfl

/-- The coordinator reads the time right, unless there are dates some multiple of 2^64 seconds before. -/
theorem msToDatetime_right_iff (ms : Nat) : msToDatetime ms = dateAt ms ↑(ms / 1000) ↔
    ∀ k : Nat, 0 < k → ¬(DateTime.minSecs ≤ ↑(ms / 1000) - (k : Int) * 2 ^ 64 ∧
      ↑(ms / 1000) - (k : Int) * 2 ^ 64 ≤ DateTime.maxSecs) := by
  rw [msToDatetime_eq, IntType.cast_agrees_iff (dateAt_fits ms)]
  constructor
  · intro h k hk
    exact dateAt_eq_none_iff.mp (h k (by omega))
  · intro h k hk
    rw [dateAt_eq_none_iff, IntType.i64_card]
    cases k with
    | ofNat k => exact h k (by simpa [Nat.pos_iff_ne_zero] using hk)
    | negSucc k =>
        -- the numbers of the class above are behind the last date
        unfold DateTime.maxSecs
        omega

theorem agree_iff (ms : Nat) : Agree ms ↔ msToDatetime ms = dateAt ms ↑(ms / 1000) := by
  constructor
  · rintro ⟨r, _, hcoordinator, _, hserver⟩
    rw [hcoordinator, ← hserver, millisToDatetime_eq]
  · exact fun h => ⟨_, atMillis_dateAt ms, h, reaperMsToDatetime_eq ms, millisToDatetime_eq ms⟩

/-- The three conversions agree on the time in milliseconds, unless its seconds are, but for a positive multiple of
2^64, those of a date. -/
theorem conversions_agree_iff (ms : Nat) : Agree ms ↔
    ∀ k : Nat, 0 < k → ¬(DateTime.minSecs ≤ ↑(ms / 1000) - (k : Int) * 2 ^ 64 ∧
      ↑(ms / 1000) - (k : Int) * 2 ^ 64 ≤ DateTime.maxSecs) := by
  rw [agree_iff, msToDatetime_right_iff]

/-- The coordinator takes 2^64 seconds for none, and the server and the reaper refuse them. -/
theorem conversions_disagree : ¬∀ ms < 2 ^ 128, Agree ms := by
  intro h
  obtain ⟨r, _, hcoordinator, _, hserver⟩ := h (2 ^ 64 * 1000) (by decide)
  have hepoch : msToDatetime (2 ^ 64 * 1000) = some ⟨0, 0⟩ := by decide
  have hnone : millisToDatetime (2 ^ 64 * 1000) = none := by decide
  rw [hnone] at hserver
  rw [hepoch, ← hserver] at hcoordinator
  cases hcoordinator

/-! ## What is shown and what is recorded -/

/-- A node without a result has no times of its run. -/
def Untimed (row : NodeRunRow) : Prop := row.success = none → row.startedAt = none ∧ row.completedAt = none

theorem untimed_historyAfter {parseRunId : String → Option String} {history : PostgresRunHistory}
    (h : ∀ e ∈ history.nodeRuns, Untimed e.row) (effect : Effect) :
    ∀ e ∈ (effect.historyAfter parseRunId history).nodeRuns, Untimed e.row := by
  rcases effect.nodeRuns_cases parseRunId history with hsame | ⟨record, _, hok⟩ | ⟨record, _, hok⟩
  · rwa [hsame]
  · obtain ⟨uuid, _, hup⟩ := PostgresRunHistory.recordNodeDispatched_ok hok
    exact PostgresRunHistory.forall_upsertNodeRun hup h (fun e he _ _ => h e he) fun _ => ⟨rfl, rfl⟩
  · obtain ⟨uuid, _, hup⟩ := PostgresRunHistory.recordNodeRun_ok hok
    refine PostgresRunHistory.forall_upsertNodeRun hup h ?_ ?_
    · intro _ _ _ _ hnone
      cases hnone
    · intro hnone
      cases hnone

/-- In every run of the servers, a node without a result has no times of its run. -/
theorem runs_untimed {d : Deployment} {h : List Event} {σ : Servers} (hr : d.Runs h σ) :
    ∀ e ∈ σ.world.history.nodeRuns, Untimed e.row := by
  apply hr.invariant
  · rintro _ rfl e he
    exact absurd he List.not_mem_nil
  · intro _ σ l σ' _ hrows hs
    rcases step_cases (t := ⟨σ, l, σ'⟩) hs with ⟨_, _, _, _, a, _, ha, hw⟩ | ⟨_, a, _, ha, hw⟩ | ⟨_, _, hw⟩
    · rw [hw, respond_history ha]
      split
      · exact untimed_historyAfter hrows _
      · exact hrows
    · rw [hw, outside_history ha]
      exact hrows
    · rw [hw]
      exact hrows

theorem listNodeRuns_untimed {d : Deployment} {h : List Event} {σ : Servers} (hr : d.Runs h σ) {runId : String}
    {rows : List NodeRunRow} (hlist : σ.world.history.listNodeRuns d.parseRunId runId = .ok rows) :
    ∀ row ∈ rows, Untimed row := by
  obtain ⟨uuid, _, rfl⟩ := PostgresRunHistory.listNodeRuns_ok hlist
  intro row hrow
  obtain ⟨e, he, rfl⟩ := List.mem_map.mp hrow
  exact runs_untimed hr e (List.mem_of_mem_filter he)

/-- The answers where S3 has this outcome. -/
def Answering (outcome : NodeOutcome) : Unit → (e : Effect) → Resp e → Prop
  | _, .getNodeOutcome _ _, answer => answer = .ok (some outcome)
  | _, _, _ => True

/-- What the reaper makes of a row is what the server has shown of it. -/
theorem refreshNodeRun_shown {outcome : NodeOutcome} {runId nodeName : String} {byName b : HashMap String NodeRunRow}
    {existing : NodeRunRow} (hfound : byName.lookup nodeName = some existing) (huntimed : Untimed existing)
    (h : (refreshNodeRun runId byName nodeName ()).Ends (Answering outcome) () b) :
    b = byName ∨ b = byName.insert nodeName (augmentWithLive existing (.ok outcome)) := by
  unfold refreshNodeRun at h
  simp only [hfound] at h
  split at h
  · exact .inl h.2
  · rename_i hsuccess
    obtain ⟨hstarted, hcompleted⟩ := huntimed (by simpa using hsuccess)
    obtain ⟨answer, hanswer, h⟩ := h
    cases hanswer
    obtain ⟨_ | success, startedAt, _ | finishedMs⟩ := outcome
    · exact .inl h.2
    · exact .inl h.2
    · exact .inl h.2
    · obtain ⟨answer, _, h⟩ := h
      cases answer with
      | error e => exact .inl h.2
      | ok _ =>
          have hconvert : reaperMsToDatetime = millisToDatetime :=
            funext fun ms => (reaperMsToDatetime_eq ms).trans (millisToDatetime_eq ms).symm
          refine .inr (h.2.trans ?_)
          simp [augmentWithLive, hstarted, hcompleted, hconvert]

end Jefferies.Server
