import Jefferies.Interaction.Process
import Jefferies.Coordination.Account
import Jefferies.Coordination.Calling
import Jefferies.Coordination.Course

/-!
# Deadlines from one coordinator to the next

A run goes on when its coordinator breaks off: the next one sets the deadline of the run as it starts and arms timers
for the nodes that it finds Running. The clock takes any values meanwhile.
-/

namespace Jefferies.Coordination

open Pipelines StateStore RunHistory Interaction Interact Coordinator Relation

/-! ## When a node was dispatched -/

/-- No call changes the time at which the row of a node was created. -/
theorem createdAt_historyAfter {parseRunId : String → Option String} {history : PostgresRunHistory} {runId n : String}
    {t : DateTime} (ht : history.createdAt parseRunId runId n = some t) (e : Effect) :
    (e.historyAfter parseRunId history).createdAt parseRunId runId n = some t := by
  rcases e.nodeRuns_cases parseRunId history with hsame | ⟨record, _, hok⟩ | ⟨record, _, hok⟩
  · exact (PostgresRunHistory.createdAt_of_nodeRuns hsame).trans ht
  · exact PostgresRunHistory.createdAt_recordNodeDispatched hok ht
  · exact PostgresRunHistory.createdAt_recordNodeRun hok ht

/-! ## What is armed -/

/-- So many seconds in nanoseconds, in which the clock counts. -/
def seconds (n : Nat) : Int := n * 1000000000

/-- A deadline of the whole run. -/
structure RunDeadline where
  armedAt : Int
  secs : Nat
  deriving DecidableEq

def RunDeadline.due (self : RunDeadline) : Int := self.armedAt + seconds self.secs

/-- A timer that is armed again. Where its time was reckoned from the beginning of the phase, `readAt` is the clock as
it was read for that. -/
structure Rearming where
  runId : String
  nodeName : String
  phase : TimerPhase
  budgetSecs : Nat
  readAt : Option Int
  armedAt : Int
  secs : Nat
  deriving DecidableEq

namespace Rearming

variable (self : Rearming) (anchor : Int)

def due : Int := self.armedAt + seconds self.secs

/-- The whole seconds that had passed when the clock was read. -/
def elapsed : Nat := (self.readAt.map fun now => ((now - anchor) / 1000000000).toNat).getD 0

/-- The timer's time is what is left of the budget. -/
def Measured : Prop := self.secs = self.budgetSecs - self.elapsed anchor

/-- The timer is due at most one second behind the budget, or at once if the budget is used up. -/
def Bounded : Prop :=
  self.due ≤ anchor + seconds self.budgetSecs + seconds 1 ∨
    (anchor + seconds self.budgetSecs ≤ self.armedAt ∧ self.due = self.armedAt)

/-- The budget was seen to be used up, or the timer is armed before the next whole second is over. -/
def Prompt : Prop :=
  self.budgetSecs ≤ self.elapsed anchor ∨ self.armedAt ≤ anchor + seconds (self.elapsed anchor + 1)

variable {self anchor}

theorem bounded_iff_prompt (h : self.Measured anchor) : self.Bounded anchor ↔ self.Prompt anchor := by
  unfold Measured at h
  unfold Bounded Prompt due seconds
  omega

end Rearming

/-- The clock and the run history, what the coordinator of a run has read of them, and what it and the ones before it
have armed. `rearming` is the clock as it was read to arm timers again. -/
structure Timekeeping where
  now : Int
  history : PostgresRunHistory
  outcomes : HashMap String ReconcileResult
  rearming : Option Int
  looked : Int
  deadlines : List RunDeadline
  rearmings : List Rearming

/-- S3 shows the node started. -/
def ReconcileResult.started : ReconcileResult → Bool
  | .inProgress _ => true
  | _ => false

def Coordinator.budgetSecs (self : Coordinator) (nodeName : String) : TimerPhase → Nat
  | .startup => ((self.nodeInfoCache.lookup nodeName).bind (·.startupTimeoutSecs)).getD
      self.config.defaultNodeStartupTimeoutSecs
  | .runtime => ((self.nodeInfoCache.lookup nodeName).bind (·.timeoutSecs)).getD self.config.defaultNodeTimeoutSecs

/-- The timer that the coordinator arms now. -/
def Timekeeping.rearmed (self : Timekeeping) (c : Coordinator) (runId nodeName : String) (phase : TimerPhase)
    (secs : Nat) : Rearming where
  runId := runId
  nodeName := nodeName
  phase := phase
  budgetSecs := c.budgetSecs nodeName phase
  readAt :=
    match phase with
    | .startup => some self.looked
    | .runtime => if (self.outcomes.lookup nodeName).any ReconcileResult.started then self.rearming else none
  armedAt := self.now
  secs := secs

def Timekeeping.arm (self : Timekeeping) (r : Rearming) : Timekeeping := { self with rearmings := self.rearmings ++ [r] }

/-- What is the same for all coordinators of a run: how run ids are read, when each node started as S3 shows it, in
milliseconds, the pipeline and the settings. -/
structure Succession where
  parseRunId : String → Option String
  startedAt : String → Option Nat
  runId : String
  pipeline : Pipeline
  config : AppConfig

namespace Succession

variable (S : Succession)

/-- When the phase of the timer began, as S3 shows it or the row of the node. -/
def anchor (history : PostgresRunHistory) (r : Rearming) : Option Int :=
  let createdAt := (history.createdAt S.parseRunId r.runId r.nodeName).map DateTime.instant
  match r.phase with
  | .startup => createdAt
  | .runtime => ((S.startedAt r.nodeName).map fun ms => (ms : Int) * 1000000).or createdAt

/-- Time passes, or the clock is set, and anybody writes to the history. -/
def Elapses (w w' : Timekeeping) : Prop :=
  ∃ now history, ReflTransGen (fun before after => ∃ e : Effect, after = e.historyAfter S.parseRunId before)
    w.history history ∧ w' = { w with now := now, history := history }

/-- What the services answer. The clock of the system counts its seconds in 64 bits. -/
def Admits (w : Timekeeping) : (e : Effect) → Resp e → Prop
  | .systemTimeMs, ms => w.now < 2 ^ 64 * 1000000000 ∧ ms = (w.now / 1000000).toNat
  | .utcNow, now => now.instant = w.now
  | .readOutcomes _ _, r => ∀ outcomes ∈ r, ∀ n ms, outcomes.lookup n = some (.inProgress ms) →
      S.startedAt n = some ms
  | .getNodeRun runId n, r => ∀ found, r = .ok found → w.history.getNodeRun S.parseRunId runId n = .ok found
  | _, _ => True

/-- What a call leads to. A timer for a phase whose beginning is nowhere to be seen does not count. -/
def after (w : Timekeeping) (c : Coordinator) : (e : Effect) → Resp e → Timekeeping
  | .sleep secs, _ => { w with deadlines := w.deadlines ++ [⟨w.now, secs⟩] }
  | .readOutcomes _ _, r => { w with outcomes := r.getD ∅ }
  | .systemTimeMs, _ => { w with rearming := some w.now }
  | .utcNow, _ => { w with looked := w.now }
  | .spawnTimer runId n phase secs, _ =>
      let r := w.rearmed c runId n phase secs
      if w.rearming.isSome && (S.anchor w.history r).isSome then w.arm r else w
  | .subscribeRun _, _ => { w with rearming := none }
  | _, _ => w

/-- A coordinator that is spawned for the run, new or stored. -/
def Launches (c : Coordinator) : Prop :=
  Begins c ∧ c.runId = S.runId ∧ c.pipeline = S.pipeline ∧ c.config = S.config

/-- The coordinators of one run, one behind the other. Each breaks off at any moment. -/
def handovers : Surroundings Timekeeping Coordinator LoopEvent Resp where
  starts w c := S.Launches c ∧ w.deadlines = [] ∧ w.rearmings = [] ∧ w.rearming = none ∧ w.outcomes = ∅
  answers w c e r w' := ∃ u, S.Elapses w u ∧ S.Admits u e r ∧ w' = S.after u c e r
  delivers w _ _ w' := S.Elapses w w'
  drifts _ _ := False
  restarts w c w' := S.Launches c ∧ ∃ u, S.Elapses w u ∧ w' = { u with rearming := none, outcomes := ∅ }

/-- No deadline of the run is later than its first one, and every timer that was armed again for a phase whose beginning
is known is bounded by that. -/
def Unextended (w : Timekeeping) : Prop :=
  (∀ first ∈ w.deadlines.head?, ∀ deadline ∈ w.deadlines, deadline.due ≤ first.due) ∧
    ∀ r ∈ w.rearmings, ∃ anchor, S.anchor w.history r = some anchor ∧ r.Bounded anchor

/-- No coordinator starts at a later time than the first one, and every timer is armed again promptly. -/
def Prompt (w : Timekeeping) : Prop :=
  (∀ first ∈ w.deadlines.head?, ∀ deadline ∈ w.deadlines, deadline.armedAt ≤ first.armedAt) ∧
    ∀ r ∈ w.rearmings, ∀ anchor, S.anchor w.history r = some anchor → r.Prompt anchor

/-- Every deadline of the run leaves the whole time, every timer that was armed again what is left of the budget. -/
structure Sound (w : Timekeeping) : Prop where
  deadlines : ∀ deadline ∈ w.deadlines, deadline.secs = S.pipeline.pipelineTimeoutSecs.getD
    S.config.defaultPipelineTimeoutSecs
  rearmings : ∀ r ∈ w.rearmings, ∃ anchor, S.anchor w.history r = some anchor ∧ r.Measured anchor
  outcomes : ∀ n ms, w.outcomes.lookup n = some (.inProgress ms) → S.startedAt n = some ms

variable {S} {w w' u : Timekeeping} {c : Coordinator}

theorem Sound.unextended_iff_prompt (h : S.Sound w) : S.Unextended w ↔ S.Prompt w := by
  have hdue : ∀ first ∈ w.deadlines.head?, ∀ deadline ∈ w.deadlines,
      deadline.due ≤ first.due ↔ deadline.armedAt ≤ first.armedAt := by
    intro first hfirst deadline hdeadline
    have hsecs := h.deadlines first (List.mem_of_mem_head? hfirst)
    -- both leave the whole time of the run
    rw [RunDeadline.due, RunDeadline.due, h.deadlines deadline hdeadline, hsecs]
    omega
  constructor
  · intro hkept
    refine ⟨fun first hfirst deadline hdeadline => (hdue first hfirst deadline hdeadline).mp
      (hkept.1 first hfirst deadline hdeadline), fun r hr anchor hanchor => ?_⟩
    obtain ⟨anchor', hanchor', hmeasured⟩ := h.rearmings r hr
    obtain ⟨anchor'', hanchor'', hbounded⟩ := hkept.2 r hr
    cases hanchor.symm.trans hanchor'
    cases hanchor.symm.trans hanchor''
    exact (Rearming.bounded_iff_prompt hmeasured).mp hbounded
  · intro hprompt
    refine ⟨fun first hfirst deadline hdeadline => (hdue first hfirst deadline hdeadline).mpr
      (hprompt.1 first hfirst deadline hdeadline), fun r hr => ?_⟩
    obtain ⟨anchor, hanchor, hmeasured⟩ := h.rearmings r hr
    exact ⟨anchor, hanchor, (Rearming.bounded_iff_prompt hmeasured).mpr (hprompt.2 r hr anchor hanchor)⟩

theorem anchor_kept {history history' : PostgresRunHistory} {r : Rearming} {anchor : Int}
    (hcreated : ∀ runId n t, history.createdAt S.parseRunId runId n = some t →
      history'.createdAt S.parseRunId runId n = some t)
    (h : S.anchor history r = some anchor) : S.anchor history' r = some anchor := by
  have hmap : ∀ anchor, (history.createdAt S.parseRunId r.runId r.nodeName).map DateTime.instant = some anchor →
      (history'.createdAt S.parseRunId r.runId r.nodeName).map DateTime.instant = some anchor := by
    intro anchor hmap
    obtain ⟨t, ht, rfl⟩ := Option.map_eq_some_iff.mp hmap
    rw [hcreated _ _ t ht, Option.map_some]
  unfold Succession.anchor at h ⊢
  cases hphase : r.phase with
  | startup =>
      simp only [hphase] at h ⊢
      exact hmap anchor h
  | runtime =>
      simp only [hphase] at h ⊢
      cases hstarted : S.startedAt r.nodeName with
      | some ms => simpa [hstarted] using h
      | none =>
          simp only [hstarted] at h ⊢
          exact hmap anchor h

theorem Elapses.outcomes (hu : S.Elapses w u) : u.outcomes = w.outcomes := by
  obtain ⟨_, _, _, rfl⟩ := hu
  rfl

theorem Elapses.rearming (hu : S.Elapses w u) : u.rearming = w.rearming := by
  obtain ⟨_, _, _, rfl⟩ := hu
  rfl

theorem Elapses.looked (hu : S.Elapses w u) : u.looked = w.looked := by
  obtain ⟨_, _, _, rfl⟩ := hu
  rfl

theorem Elapses.createdAt (hu : S.Elapses w u) {runId n : String} {t : DateTime}
    (h : w.history.createdAt S.parseRunId runId n = some t) : u.history.createdAt S.parseRunId runId n = some t := by
  obtain ⟨now, history, hwritten, rfl⟩ := hu
  induction hwritten with
  | refl => exact h
  | tail _ hwrite ih =>
      obtain ⟨e, rfl⟩ := hwrite
      exact createdAt_historyAfter ih e

theorem Sound.elapses (h : S.Sound w) (hu : S.Elapses w u) : S.Sound u := by
  have hcreated : ∀ runId n t, w.history.createdAt S.parseRunId runId n = some t →
      u.history.createdAt S.parseRunId runId n = some t := fun _ _ _ ht => hu.createdAt ht
  obtain ⟨now, history, _, rfl⟩ := hu
  refine ⟨h.deadlines, fun r hr => ?_, h.outcomes⟩
  obtain ⟨anchor, hanchor, hmeasured⟩ := h.rearmings r hr
  exact ⟨anchor, anchor_kept hcreated hanchor, hmeasured⟩

/-! ## Calls -/

theorem Sound.concludes {e : Effect} {r : Resp e} (h : S.Sound w) (he : e.concluding = true)
    (ha : S.handovers.answers w c e r w') : S.Sound w' := by
  obtain ⟨u, hu, _, rfl⟩ := ha
  have hsound := h.elapses hu
  cases e with
  | sleep | systemTimeMs | readOutcomes | spawnTimer | saveRun => cases he
  | _ => exact ⟨hsound.deadlines, hsound.rearmings, hsound.outcomes⟩

/-- A timer that is armed in the loop is none that is armed again. -/
theorem Sound.handles {e : Effect} {r : Resp e} (h : S.Sound w) (hw : w.rearming = none) (he : e.untimed = true)
    (ha : S.handovers.answers w c e r w') :
    S.Sound w' ∧ w'.rearming = none ∧ (e.handling = true → w'.outcomes = w.outcomes) := by
  obtain ⟨u, hu, hadmits, rfl⟩ := ha
  have hsound := h.elapses hu
  have hnone := hu.rearming.trans hw
  cases e with
  | sleep | systemTimeMs => cases he
  | readOutcomes runId nodes =>
      refine ⟨⟨hsound.deadlines, hsound.rearmings, ?_⟩, hnone, fun hno => nomatch hno⟩
      intro n ms hn
      cases r with
      | none => cases hn
      | some outcomes => exact hadmits outcomes rfl n ms hn
  | spawnTimer runId n phase secs =>
      have hafter : S.after u c (.spawnTimer runId n phase secs) r = u := by simp [after, hnone]
      rw [hafter]
      exact ⟨hsound, hnone, fun _ => hu.outcomes⟩
  | subscribeRun runId => exact ⟨⟨hsound.deadlines, hsound.rearmings, hsound.outcomes⟩, rfl, fun _ => hu.outcomes⟩
  | _ => exact ⟨⟨hsound.deadlines, hsound.rearmings, hsound.outcomes⟩, hnone, fun _ => hu.outcomes⟩

/-- No timer is armed again, and `outcomes` were read. -/
def Resting (S : Succession) (outcomes : HashMap String ReconcileResult) (w : Timekeeping) : Prop :=
  S.Sound w ∧ w.rearming = none ∧ w.outcomes = outcomes

/-- Timers are armed again; the clock was read at `now`. -/
structure Resuming (S : Succession) (outcomes : HashMap String ReconcileResult) (now : Int) (w : Timekeeping) : Prop where
  sound : S.Sound w
  clock : now < 2 ^ 64 * 1000000000
  rearming : w.rearming = some now
  outcomes : w.outcomes = outcomes

/-! ## Timers that are armed again -/

section

variable {outcomes : HashMap String ReconcileResult} {now : Int} {n : String} {phase : TimerPhase} {secs : Nat}

theorem Resuming.elapses (h : S.Resuming outcomes now w) (hu : S.Elapses w u) : S.Resuming outcomes now u :=
  ⟨h.sound.elapses hu, h.clock, hu.rearming.trans h.rearming, hu.outcomes.trans h.outcomes⟩

theorem Sound.arm {r : Rearming} {anchor : Int} (h : S.Sound w) (hanchor : S.anchor w.history r = some anchor)
    (hr : r.Measured anchor) : S.Sound (w.arm r) := by
  refine ⟨h.deadlines, fun r' hr' => ?_, h.outcomes⟩
  rcases List.mem_append.mp hr' with hr' | hr'
  · exact h.rearmings r' hr'
  · obtain rfl := List.mem_singleton.mp hr'
    exact ⟨anchor, hanchor, hr⟩

theorem Resuming.arm (h : S.Resuming outcomes now w) (hmeasured : ∀ u, S.Elapses w u → ∀ anchor,
      S.anchor u.history (u.rearmed c c.runId n phase secs) = some anchor →
        (u.rearmed c c.runId n phase secs).Measured anchor) :
    Throughout S.handovers.answers S.Sound (fun w' _ _ => S.Resuming outcomes now w') w (armTimer n phase secs c) := by
  unfold armTimer
  simp only [get_bind]
  refine Throughout.seq (Throughout.perform (Q := fun w' _ _ => S.Resuming outcomes now w') h.sound ?_) ?_
  · rintro handle _ ⟨u, hu, _, rfl⟩
    have hu' := h.elapses hu
    simp only [after, hu'.rearming, Option.isSome_some, Bool.true_and]
    split
    · rename_i hknown
      obtain ⟨anchor, hanchor⟩ := Option.isSome_iff_exists.mp hknown
      have hsound := hu'.sound.arm hanchor (hmeasured u hu anchor hanchor)
      exact ⟨hsound, hsound, h.clock, hu'.rearming, hu'.outcomes⟩
    · exact ⟨hu'.sound, hu'⟩
  · intro w' c' handle _ h'
    exact ⟨h'.sound, h'⟩

theorem Resuming.armStarted (h : S.Resuming outcomes now w) {startedAtMs : Nat}
    (hn : outcomes.lookup n = some (.inProgress startedAtMs)) :
    Throughout S.handovers.answers S.Sound (fun w' _ _ => S.Resuming outcomes now w') w
      (armTimer n .runtime (c.budgetSecs n .runtime - ((now / 1000000).toNat - startedAtMs) / 1000 % 2 ^ 64) c) := by
  refine h.arm fun u hu anchor hanchor => ?_
  have hu' := h.elapses hu
  have hclock := h.clock
  have hstarted : S.startedAt n = some startedAtMs := hu'.sound.outcomes n startedAtMs (by rw [hu'.outcomes, hn])
  have hanchor' : (startedAtMs : Int) * 1000000 = anchor := by
    simpa [Succession.anchor, Timekeeping.rearmed, hstarted] using hanchor
  have hread : (u.rearmed c c.runId n .runtime
      (c.budgetSecs n .runtime - ((now / 1000000).toNat - startedAtMs) / 1000 % 2 ^ 64)).readAt = some now := by
    simp [Timekeeping.rearmed, hu'.outcomes, hn, hu'.rearming, ReconcileResult.started]
  -- whole seconds of milliseconds since the start are whole seconds; a clock before the epoch reads as the epoch
  rw [Rearming.Measured, Rearming.elapsed, hread, ← hanchor']
  simp only [Timekeeping.rearmed, Option.map_some, Option.getD_some]
  omega

theorem Resuming.armAfresh (h : S.Resuming outcomes now w)
    (hn : ∀ startedAtMs, outcomes.lookup n ≠ some (.inProgress startedAtMs)) :
    Throughout S.handovers.answers S.Sound (fun w' _ _ => S.Resuming outcomes now w') w
      (armTimer n .runtime (c.budgetSecs n .runtime) c) := by
  refine h.arm fun u hu anchor _ => ?_
  have hread : (u.rearmed c c.runId n .runtime (c.budgetSecs n .runtime)).readAt = none := by
    simp only [Timekeeping.rearmed, (h.elapses hu).outcomes]
    cases hlookup : outcomes.lookup n with
    | none => rfl
    | some result =>
        cases result with
        | inProgress startedAtMs => exact absurd hlookup (hn startedAtMs)
        | _ => rfl
  rw [Rearming.Measured, Rearming.elapsed, hread]
  rfl

theorem Resuming.armDispatched (h : S.Resuming outcomes now w) {createdAt : DateTime}
    (hcreated : w.history.createdAt S.parseRunId c.runId n = some createdAt) :
    Throughout S.handovers.answers S.Sound (fun w' _ _ => S.Resuming outcomes now w') w
      ((call .utcNow >>= fun now => armTimer n .startup
        (c.budgetSecs n .startup - (max (now.numSecondsSince createdAt) 0).toNat) : Coord _) c) := by
  refine Throughout.seq (Throughout.perform (Q := fun w' c' now' => S.Resuming outcomes now w' ∧
    w'.history.createdAt S.parseRunId c.runId n = some createdAt ∧ c' = c ∧ w'.looked = now'.instant) h.sound ?_) ?_
  · rintro now' _ ⟨u, hu, hnow, rfl⟩
    have hu' := h.elapses hu
    have hsound : S.Sound { u with looked := u.now } :=
      ⟨hu'.sound.deadlines, hu'.sound.rearmings, hu'.sound.outcomes⟩
    exact ⟨hsound, ⟨hsound, h.clock, hu'.rearming, hu'.outcomes⟩, hu.createdAt hcreated, rfl, hnow.symm⟩
  · rintro w' _ now' _ ⟨h', hcreated', rfl, hlooked⟩
    refine h'.arm fun u hu anchor hanchor => ?_
    have hlooked' : u.looked = now'.instant := hu.looked.trans hlooked
    have hanchor' : createdAt.instant = anchor := by
      simpa [Succession.anchor, Timekeeping.rearmed, hu.createdAt hcreated'] using hanchor
    rw [Rearming.Measured, Rearming.elapsed, DateTime.numSecondsSince_toNat, ← hanchor', ← hlooked']
    rfl

theorem Resuming.rehydrateFromHistory (h : S.Resuming outcomes now w)
    (hn : ∀ startedAtMs, outcomes.lookup n ≠ some (.inProgress startedAtMs)) :
    Throughout S.handovers.answers S.Sound (fun w' _ _ => S.Resuming outcomes now w') w
      (rehydrateFromHistory n (c.budgetSecs n .startup) (c.budgetSecs n .runtime) c) := by
  unfold Coordinator.rehydrateFromHistory
  simp only [get_bind]
  refine Throughout.seq (Throughout.perform (Q := fun w' c' r => S.Resuming outcomes now w' ∧ c' = c ∧
    ∀ row, r = .ok (some row) → w'.history.createdAt S.parseRunId c.runId n = some row.createdAt) h.sound ?_) ?_
  · rintro r _ ⟨u, hu, hread, rfl⟩
    have hu' := h.elapses hu
    refine ⟨hu'.sound, hu', rfl, fun row hrow => ?_⟩
    rw [PostgresRunHistory.createdAt_getNodeRun (hread _ hrow), Option.map_some]
  · rintro w' _ r _ ⟨h', rfl, hrow⟩
    split
    · exact h'.armDispatched (hrow _ rfl)
    · exact h'.armAfresh hn

theorem Resuming.rehydratePhaseTimer (h : S.Resuming outcomes now w) :
    Throughout S.handovers.answers S.Sound (fun w' _ _ => S.Resuming outcomes now w') w
      (rehydratePhaseTimer (now / 1000000).toNat outcomes n c) := by
  unfold Coordinator.rehydratePhaseTimer
  simp only [get_bind]
  cases hn : outcomes.lookup n with
  | none => exact h.rehydrateFromHistory (by simp [hn])
  | some result =>
      cases result with
      | inProgress startedAtMs => exact h.armStarted hn
      | completed success startedAtMs finishedAtMs => exact h.rehydrateFromHistory (by simp [hn])
      | stillRunning => exact h.rehydrateFromHistory (by simp [hn])
      | transientReadError message => exact h.rehydrateFromHistory (by simp [hn])

theorem Resting.rehydratePhaseTimers (h : S.Resting outcomes w) :
    Throughout S.handovers.answers S.Sound (fun _ _ _ => True) w (rehydratePhaseTimers outcomes c) := by
  unfold Coordinator.rehydratePhaseTimers
  refine Throughout.seq (Throughout.perform (Q := fun w' _ nowMs => ∃ now, nowMs = (now / 1000000).toNat ∧
    S.Resuming outcomes now w') h.1 ?_) ?_
  · rintro nowMs _ ⟨u, hu, hclock, rfl⟩
    have hsound := h.1.elapses hu
    have hafter : S.Sound { u with rearming := some u.now } := ⟨hsound.deadlines, hsound.rearmings, hsound.outcomes⟩
    exact ⟨hafter, u.now, hclock.2, hafter, hclock.1, rfl, hu.outcomes.trans h.2.2⟩
  · rintro w' c' _ _ ⟨now, rfl, h'⟩
    have hrunning : Throughout S.handovers.answers S.Sound (fun w' _ _ => S.Resuming outcomes now w') w'
        (runningNodes c') := by
      unfold Coordinator.runningNodes
      simp only [get_bind]
      refine Throughout.seq (Throughout.perform (Q := fun w' _ _ => S.Resuming outcomes now w') h'.sound ?_) ?_
      · rintro order _ ⟨u, hu, _, rfl⟩
        exact ⟨(h'.elapses hu).sound, h'.elapses hu⟩
      · exact fun _ _ _ hsound h'' => ⟨hsound, h''⟩
    refine Throughout.seq hrunning fun w'' c'' names hsound h'' => ?_
    refine (Throughout.forM (J := fun _ w _ => S.Resuming outcomes now w) (fun n l w c _ hw => ?_) names hsound
      h'').mono fun _ _ _ _ => trivial
    exact hw.rehydratePhaseTimer

/-! ## Along a run -/

/-- The coordinator ends, or it waits and arms no timer again. -/
def Rests (w : Timekeeping) (_ : Coordinator) (r : Option RunSummary) : Prop := r = none → w.rearming = none

theorem Sound.concluding {α : Type} {m : Coord α} (h : S.Sound w)
    (hm : Calls (fun e => e.concluding = true) m) :
    Throughout S.handovers.answers S.Sound (fun _ _ _ => True) w (m c) :=
  (Throughout.of_calls (fun _ _ _ _ _ hw he ha => hw.concludes he ha) (hm c) h).mono fun _ _ _ _ => trivial

theorem Resting.handling {α : Type} {m : Coord α} (h : S.Resting outcomes w)
    (hm : Calls (fun e => e.handling = true) m) :
    Throughout S.handovers.answers S.Sound (fun w' _ _ => S.Resting outcomes w') w (m c) := by
  refine (Throughout.of_calls (P := S.Resting outcomes) (fun w _ e _ w' hw he ha => ?_) (hm c) h).imp fun _ hw => hw.1
  obtain ⟨hsound, hrearming, houtcomes⟩ := hw.1.handles hw.2.1 (Effect.untimed_of_handling he) ha
  exact ⟨hsound, hrearming, (houtcomes he).trans hw.2.2⟩

theorem Sound.untimed {α : Type} {p : Prog Coordinator Resp α} (h : S.Sound w) (hw : w.rearming = none)
    (hp : p.Calls fun e => e.untimed = true) :
    Throughout S.handovers.answers S.Sound (fun w' _ _ => w'.rearming = none) w p := by
  refine ((Throughout.of_calls (P := fun w => S.Sound w ∧ w.rearming = none) (fun w _ e _ w' hw he ha => ?_) hp
    ⟨h, hw⟩).imp fun _ hw => hw.1).mono fun _ _ _ hw => hw.2
  obtain ⟨hsound, hrearming, _⟩ := hw.1.handles hw.2 he ha
  exact ⟨hsound, hrearming⟩

theorem Resting.readOutcomes (h : S.Resting ∅ w) :
    Throughout S.handovers.answers S.Sound (fun w' _ outcomes => S.Resting outcomes w') w
      (readOutcomesForNonTerminal c) := by
  unfold Coordinator.readOutcomesForNonTerminal
  simp only [get_bind]
  have hnames : Throughout S.handovers.answers S.Sound (fun w' _ _ => S.Resting ∅ w') w
      ((call (.iterate (c.run.nodesWith isNonTerminal)) : Coord _) c) := h.handling (calls_perform rfl)
  refine Throughout.seq hnames ?_
  rintro w' c' ⟨names, hnodup⟩ _ h'
  cases names with
  | nil => exact ⟨h'.1, h'⟩
  | cons n names =>
      refine Throughout.seq (Throughout.perform (Q := fun w' _ r => S.Resting (r.getD ∅) w') h'.1 ?_) ?_
      · intro r w'' ha
        obtain ⟨hsound, hrearming, _⟩ := h'.1.handles h'.2.1 rfl ha
        obtain ⟨u, _, _, rfl⟩ := ha
        exact ⟨hsound, hsound, hrearming, rfl⟩
      · exact fun _ _ _ hsound h'' => ⟨hsound, h''⟩

/-- Whatever was armed before, the subscription to the backplane ends it. -/
theorem Sound.subscribeAndDispatch (h : S.Sound w) :
    Throughout S.handovers.answers S.Sound Rests w (subscribeAndDispatch c) := by
  -- the call that it begins with is the subscription
  have hcalls := calls_subscribeAndDispatch (P := fun e => e.untimed = true) (fun _ he => he) c
  refine ⟨h, fun r w' ha => ?_⟩
  obtain ⟨u, hu, _, rfl⟩ := ha
  have hsound := h.elapses hu
  have hafter : S.Sound { u with rearming := none } := ⟨hsound.deadlines, hsound.rearmings, hsound.outcomes⟩
  exact (hafter.untimed rfl (hcalls.2 r)).mono fun _ _ _ hrearming _ => hrearming

theorem Resting.rehydrate (h : S.Resting ∅ w) :
    Throughout S.handovers.answers S.Sound (fun _ _ _ => True) w (rehydrate c) := by
  unfold Coordinator.rehydrate
  refine Throughout.seq h.readOutcomes fun w₁ c₁ outcomes _ h₁ => ?_
  refine Throughout.seq (h₁.handling (calls_foldCompletionsFromOutcomes (fun _ he => he) outcomes))
    fun w₂ c₂ aborted hsound₂ h₂ => ?_
  cases aborted with
  | true => exact hsound₂.concluding (calls_abortRun (fun _ he => he) .failure)
  | false =>
      refine Throughout.seq (h₂.handling (calls_promoteStartedPendingToRunning (fun _ he => he) outcomes))
        fun w₃ c₃ aborted hsound₃ h₃ => ?_
      cases aborted with
      | true => exact hsound₃.concluding (calls_abortRun (fun _ he => he) .failure)
      | false =>
          refine Throughout.seq h₃.rehydratePhaseTimers fun w₄ c₄ _ hsound₄ _ => ?_
          exact hsound₄.concluding (calls_afterHandler (fun _ he => he) false)

/-- The first thing that a coordinator does is to set the deadline of the run. -/
theorem Resting.start (h : S.Resting ∅ w) (hc : S.Launches c) :
    Throughout S.handovers.answers S.Sound Rests w (start c) := by
  unfold Coordinator.start
  simp only [get_bind]
  refine Throughout.seq (Throughout.perform (Q := fun w' _ _ => S.Resting ∅ w') h.1 ?_) ?_
  · rintro _ _ ⟨u, hu, _, rfl⟩
    have hsound := h.1.elapses hu
    have hafter : S.Sound { u with deadlines := u.deadlines ++ [⟨u.now, c.pipelineTimeoutSecs⟩] } := by
      refine ⟨fun deadline hdeadline => ?_, hsound.rearmings, hsound.outcomes⟩
      rcases List.mem_append.mp hdeadline with hdeadline | hdeadline
      · exact hsound.deadlines deadline hdeadline
      · obtain rfl := List.mem_singleton.mp hdeadline
        rw [pipelineTimeoutSecs, hc.2.2.1, hc.2.2.2]
    exact ⟨hafter, hafter, hu.rearming.trans h.2.1, hu.outcomes.trans h.2.2⟩
  · intro w' c' _ _ h'
    -- only a rehydrated coordinator arms timers again, between its start and the subscription
    split
    · refine Throughout.seq h'.rehydrate fun w'' c'' r hsound _ => ?_
      cases r with
      | some summary => exact ⟨hsound, fun hr => nomatch hr⟩
      | none => exact hsound.subscribeAndDispatch
    · exact h'.1.subscribeAndDispatch

/-- In every state of every run its deadlines leave the whole time and its timers what is left of the budgets. -/
theorem reaches_sound {p : Prog Coordinator Resp (Option RunSummary)} (h : S.handovers.Reaches coordinator w p) :
    S.Sound w := by
  refine (Throughout.reaches_restarting (P := S.Sound) (Q := Rests) ?_ ?_ ?_ ?_ h).here
  · rintro w c ⟨hc, hdeadlines, hrearmings, hrearming, houtcomes⟩
    refine Resting.start ⟨⟨?_, ?_, ?_⟩, hrearming, houtcomes⟩ hc
    · simp [hdeadlines]
    · simp [hrearmings]
    · intro n ms hn
      rw [houtcomes] at hn
      cases hn
  · intro w c event w' hsound hrests hu
    have hrearming : w'.rearming = none := hu.rearming.trans (hrests rfl)
    exact ((hsound.elapses hu).untimed hrearming (calls_handleEvent (fun _ he => he) event c)).mono
      fun _ _ _ hw _ => hw
  · exact fun _ _ hno => hno
  · rintro w c _ hsound ⟨hc, u, hu, rfl⟩
    have hsound' := hsound.elapses hu
    exact Resting.start ⟨⟨hsound'.deadlines, hsound'.rearmings, fun n ms hn => nomatch hn⟩, rfl, rfl⟩ hc

/-- In every state of every run, no deadline has been extended exactly if no coordinator has started at a later time than
the first one and every timer was armed again promptly. -/
theorem deadlines_unextended_iff {p : Prog Coordinator Resp (Option RunSummary)} (h : S.handovers.Reaches coordinator w p) :
    S.Unextended w ↔ S.Prompt w := (reaches_sound h).unextended_iff_prompt

end

/-- A run of two nodes. S3 shows the first one started thirty seconds after the epoch. -/
def sample : Succession where
  parseRunId := some
  startedAt := fun n => if n = "build" then some 30000 else none
  runId := "run"
  pipeline := .buildAndTest
  config := .default

/-- The moment at which the first coordinator of the sample starts. -/
def sampleStart : Timekeeping := ⟨100000000000, .empty, ∅, none, 0, [], []⟩

theorem answered (w : Timekeeping) (c : Coordinator) {e : Effect} {r : Resp e} (h : S.Admits w e r) :
    S.handovers.answers w c e r (S.after w c e r) := ⟨w, ⟨w.now, w.history, .refl, rfl⟩, h, rfl⟩

theorem handedOver (w : Timekeeping) (now : Int) (hc : S.Launches c) :
    S.handovers.restarts w c { w with now := now, rearming := none, outcomes := ∅ } :=
  ⟨hc, _, ⟨now, w.history, .refl, rfl⟩, rfl⟩

/-- The clock stands still while the run goes from one coordinator to the next, which arms the timer of the first node
again. -/
theorem deadlines_unextended_sample : ∃ w p, sample.handovers.Reaches coordinator w p ∧ w.deadlines.length = 2 ∧
    w.rearmings.length = 1 ∧ sample.Unextended w := by
  let state := ((PipelineRun.new Pipeline.buildAndTest.nodeInfo).markRunning "build").2.toRunState 1 .buildAndTest
  let r : Rearming := ⟨"run", "build", .runtime, 600, some 100000000000, 100000000000, 530⟩
  have h : sample.handovers.Leads coordinator sampleStart (start (freshCoordinator .default "run" .buildAndTest))
      fun w _ => w.deadlines = [⟨100000000000, 3600⟩, ⟨100000000000, 3600⟩] ∧ w.rearmings = [r] := by
    refine .call () _ (answered _ _ trivial) ?_
    refine .restart (rehydratedCoordinator .default "run" .buildAndTest state) _
      (handedOver _ 100000000000 ⟨begins_rehydrated _ _ _ _, rfl, rfl, rfl⟩) ?_
    refine .call () _ (answered _ _ trivial) ?_
    refine .call ⟨["build", "test"], by decide⟩ _ (answered _ _ trivial) ?_
    refine .call (some (HashMap.ofList [("build", .inProgress 30000)])) _ (answered _ _ ?_) ?_
    · rintro outcomes ⟨⟩ n ms hn
      obtain rfl : n = "build" := by simpa [HashMap.mem_keys_ofList] using HashMap.mem_keys_iff_lookup.mpr ⟨_, hn⟩
      have hbuild : (HashMap.ofList [("build", ReconcileResult.inProgress 30000)]).lookup "build" =
          some (.inProgress 30000) := by decide
      cases hbuild.symm.trans hn
      rfl
    refine .call ⟨["build"], by decide⟩ _ (answered _ _ trivial) ?_
    refine .call ⟨["build"], by decide⟩ _ (answered _ _ trivial) ?_
    refine .call (100000 : Nat) _ (answered _ _ ⟨by decide, by decide⟩) ?_
    refine .call ⟨["build"], by decide⟩ _ (answered _ _ trivial) ?_
    refine .call (0 : Nat) _ (answered _ _ trivial) ?_
    exact .here ⟨rfl, by decide⟩
  obtain ⟨w, p, hr, hdeadlines, hrearmings⟩ := h.reaches ⟨⟨begins_fresh _ _ _, rfl, rfl, rfl⟩, rfl, rfl, rfl, rfl⟩
  have hprompt : sample.Prompt w := by
    rw [Prompt, hdeadlines, hrearmings]
    refine ⟨by simp, fun r' hr' anchor hanchor => ?_⟩
    obtain rfl := List.mem_singleton.mp hr'
    have hanchor' : (30000000000 : Int) = anchor := by simpa [Succession.anchor, sample, r] using hanchor
    subst hanchor'
    exact .inr (by decide)
  exact ⟨w, p, hr, by rw [hdeadlines]; rfl, by rw [hrearmings]; rfl, (deadlines_unextended_iff hr).mpr hprompt⟩

/-- The second coordinator starts ten minutes after the first one, and its deadline is ten minutes later. -/
theorem handover_extends_deadline : ∃ w p, sample.handovers.Reaches coordinator w p ∧
    w.deadlines = [⟨100000000000, 3600⟩, ⟨700000000000, 3600⟩] ∧ ¬sample.Unextended w := by
  let state := (PipelineRun.new Pipeline.buildAndTest.nodeInfo).toRunState 0 .buildAndTest
  have h : sample.handovers.Leads coordinator sampleStart (start (freshCoordinator .default "run" .buildAndTest))
      fun w _ => w.deadlines = [⟨100000000000, 3600⟩, ⟨700000000000, 3600⟩] := by
    refine .call () _ (answered _ _ trivial) ?_
    refine .restart (rehydratedCoordinator .default "run" .buildAndTest state) _
      (handedOver _ 700000000000 ⟨begins_rehydrated _ _ _ _, rfl, rfl, rfl⟩) ?_
    exact .call () _ (answered _ _ trivial) (.here rfl)
  obtain ⟨w, p, hr, hdeadlines⟩ := h.reaches ⟨⟨begins_fresh _ _ _, rfl, rfl, rfl⟩, rfl, rfl, rfl, rfl⟩
  refine ⟨w, p, hr, hdeadlines, fun hkept => ?_⟩
  have hdue := hkept.1
  rw [hdeadlines] at hdue
  exact absurd (hdue _ rfl _ (List.mem_cons_of_mem _ (List.mem_singleton_self _))) (by decide)

end Succession

end Jefferies.Coordination
