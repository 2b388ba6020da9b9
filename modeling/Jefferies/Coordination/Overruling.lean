import Jefferies.Coordination.Outcomes

/-!
# Successes that are reported

A worker reports the end of its node in status.json. A coordinator gets to know of it by a poke or when it
reads the outcomes; until then it has the node as Running, and the handlers of failures go by that alone.
-/

namespace Jefferies.Coordination

open Pipelines StateStore RunHistory Interaction Coordinator PipelineRun
open Relation (ReflTransGen)

/-- A poke is rejected where status.json is not complete. -/
def validatePokeOutcome (outcome : NodeOutcome) : Option Bool :=
  match outcome.success, outcome.finishedAt with
  | some success, some _ => some success
  | _, _ => none

/-- What S3 has as status.json of the nodes, and the outcomes that the coordinator read last. -/
structure Workers where
  files : HashMap String NodeOutcome
  outcomes : HashMap String ReconcileResult

namespace Workers

/-- The success of the node, where its status.json is complete. -/
def reported (self : Workers) (n : String) : Option Bool := (self.files.lookup n).bind validatePokeOutcome

/-- Outcomes show a node as completed only as its status.json does. -/
def Answers (self : Workers) : (e : Effect) → Resp e → Workers → Prop
  | .readOutcomes _ _, r, next =>
      (∀ n b s f, (r.getD ∅).lookup n = some (.completed b s f) →
        (self.files.lookup n).map ReconcileResult.ofOutcome = some (.completed b s f)) ∧
      next = { self with outcomes := r.getD ∅ }
  | _, _, next => next = self

/-- A completion is published only where status.json is complete. -/
def Published (self : Workers) : LoopEvent → Prop
  | .backplane (some (.nodeCompleted n success)) => self.reported n = some success
  | _ => True

end Workers

/-- A coordinator and the workers of its run. A worker writes status.json until it is complete. Pokes come late,
twice or never, and failure signals, timeouts and ticks come at any moment. -/
def workers : Surroundings Workers Coordinator LoopEvent Resp where
  starts w c := Begins c ∧ w.outcomes = ∅
  answers w _ e r w' := w.Answers e r w'
  delivers w _ event w' := w.Published event ∧ w' = w
  drifts w w' := ∃ n outcome, w.reported n = none ∧ w' = { w with files := w.files.insert n outcome }
  restarts _ _ _ := False

/-- The node whose failure the event tells. -/
def LoopEvent.failure : LoopEvent → Option String
  | .internal (some (.nodeTimedOut n)) => some n
  | .internal (some (.nodeInfraFailed n _)) => some n
  | .internal (some (.nodePodStartTimedOut n)) => some n
  | _ => none

/-- The success of the node is reported, and the coordinator still has it as Running. -/
def Lags (w : Workers) (c : Coordinator) (n : String) : Prop :=
  w.reported n = some true ∧ c.run.statuses.lookup n = some .running

/-- A failure is taken up only of a node that the coordinator does not lag behind. -/
def TakesInTime (w : Workers) (c : Coordinator) (event : LoopEvent) : Prop :=
  ∀ n, event.failure = some n → ¬Lags w c n

/-- The same of a pod that is missed, and of a node that is recorded while the run is closed. -/
def LearnsInTime (w : Workers) (c : Coordinator) : (e : Effect) → Resp e → Prop
  | .nodePodExists _ n, .ok false => ¬Lags w c n
  | .recordNodeRun record, _ => ¬Lags w c record.nodeName
  | _, _ => True

/-- The runs in which every success that is reported is known by the time a failure of its node is taken up. -/
def timelyReports : Surroundings Workers Coordinator LoopEvent Resp := workers.within LearnsInTime TakesInTime

/-! ## What a stage rests on -/

namespace Stage

/-- The node that is about to be failed, whatever its worker has reported. -/
def fails : Stage → Option String
  | .taken event => event.failure
  | .timing n => some n
  | .failing n _ _ => some n
  | .terminated _ n _ => some n
  | _ => none

/-- A completion that is handled was reported, and behind the work on a timer no node is failed. -/
def Founded (w : Workers) : Stage → Prop
  | .taken event => w.Published event
  | .completing n success _ => w.reported n = some success
  | .relieving _ next => next.Founded w ∧ next.fails = none
  | .aborting _ next => next.Founded w ∧ next.fails = none
  | .arming _ _ next => next.Founded w ∧ next.fails = none
  | _ => True

end Stage

/-- The outcomes that were read, the nodes in line and what the stage rests on are as S3 has it. -/
structure Grounded (t : Stage) (w : Workers) (c : Coordinator) : Prop where
  read : ∀ n b, Completes w.outcomes n b → w.reported n = some b
  within : t.within w.outcomes
  lined : t.Lined c
  founded : t.Founded w

/-- The node has succeeded, or it runs and is not about to be failed. -/
def Upheld (n : String) (t : Stage) (c : Coordinator) : Prop :=
  c.run.statuses.lookup n = some .success ∨ (c.run.statuses.lookup n = some .running ∧ t.fails ≠ some n)

variable {t t' : Stage} {w w' : Workers} {c c' : Coordinator} {n m : String}

theorem reported_of_completed {b : Bool} {s : Option Nat} {f : Nat}
    (h : (w.files.lookup n).map ReconcileResult.ofOutcome = some (.completed b s f)) : w.reported n = some b := by
  obtain ⟨outcome, hfile, ho⟩ := Option.map_eq_some_iff.mp h
  rw [Workers.reported, hfile]
  unfold ReconcileResult.ofOutcome at ho
  show validatePokeOutcome outcome = some b
  unfold validatePokeOutcome
  split at ho
  · cases ho
    simp [*]
  · cases ho
  · cases ho

/-- A complete status.json stays. -/
theorem reported_drift {b : Bool} (h : w.reported n = some b) (hd : workers.drifts w w') : w'.reported n = some b := by
  obtain ⟨m, outcome, hm, rfl⟩ := hd
  have hne : n ≠ m := by
    rintro rfl
    rw [h] at hm
    cases hm
  rw [Workers.reported, Finmap.lookup_insert_of_ne _ hne]
  exact h

theorem Stage.Founded.mono (h : t.Founded w) (hw : ∀ n b, w.reported n = some b → w'.reported n = some b) :
    t.Founded w' := by
  induction t with
  | taken event =>
      rcases event with _ | _ | _ | _ | (_ | (_ | _))
      all_goals first | trivial | exact hw _ _ h
  | completing => exact hw _ _ h
  | relieving _ _ ih => exact ⟨ih h.1, h.2⟩
  | aborting _ _ ih => exact ⟨ih h.1, h.2⟩
  | arming _ _ _ ih => exact ⟨ih h.1, h.2⟩
  | _ => trivial

theorem Moves.founded (hm : Moves t c t' c') (h : Grounded t w c) : t'.Founded w := by
  cases hm with
  | event event =>
      rcases event with _ | _ | _ | (_ | (_ | _ | _ | _)) | (_ | (_ | _))
      all_goals first | trivial | exact ⟨h.founded, rfl⟩
  | @fold _ _ m n rest b s f hn => exact ⟨h.read n b (h.within.completes ⟨s, f, hn⟩), rfl⟩
  | switch => exact ⟨⟨trivial, rfl⟩, rfl⟩
  | unarmed => exact h.founded.1
  | relieve => exact h.founded
  | rearm => exact ⟨trivial, rfl⟩
  | fail => exact ⟨trivial, rfl⟩
  | relieves => exact ⟨trivial, rfl⟩
  | _ => trivial

theorem next_founded (change : Change) (k : Caller) (b : Bool) : (change.next k b).Founded w := by
  cases change <;> cases b <;> trivial

theorem dispatched_founded (run : PipelineRun) (rest : List String) (k : Caller) (r : Except DispatchError Unit) :
    (Stage.dispatched run n rest k r).Founded w := by
  cases r with
  | error e => trivial
  | ok _ =>
      show (if _ then _ else _ : Stage).Founded w
      split <;> trivial

theorem Asks.founded {e : Effect} {k : Resp e → Stage × Coordinator} (hk : Asks t c e k) (h : t.Founded w)
    (r : Resp e) : (k r).1.Founded w := by
  cases hk with
  | idle => exact h
  | abort => exact h.1
  | arm => exact h.1
  | register => exact ⟨trivial, rfl⟩
  | save => exact next_founded _ _ _
  | dispatch => exact dispatched_founded _ _ _ r
  | renew =>
      show (if _ then _ else _ : Stage).Founded w
      split <;> trivial
  | subscribe => rcases r with e | ⟨⟩ <;> trivial
  | probe => rcases r with e | _ | _ <;> trivial
  | _ => trivial

theorem answers_eq {e : Effect} {r : Resp e} (hw : w.Answers e r w') :
    w'.files = w.files ∧ w'.outcomes = lastOutcomes w.outcomes e r := by
  cases e with
  | readOutcomes =>
      cases hw.2
      exact ⟨rfl, rfl⟩
  | _ =>
      cases hw
      exact ⟨rfl, rfl⟩

theorem reported_answers {e : Effect} {r : Resp e} (hw : w.Answers e r w') (n : String) :
    w'.reported n = w.reported n := by
  rw [Workers.reported, (answers_eq hw).1]
  rfl

theorem read_answers {e : Effect} {r : Resp e} (h : ∀ n b, Completes w.outcomes n b → w.reported n = some b)
    (hw : w.Answers e r w') : ∀ n b, Completes w'.outcomes n b → w'.reported n = some b := by
  intro n b hn
  rw [reported_answers hw]
  rw [(answers_eq hw).2] at hn
  cases e with
  | readOutcomes =>
      obtain ⟨s, f, hn⟩ := hn
      exact reported_of_completed (hw.1 n b s f hn)
  | _ => exact h n b hn

theorem Moves.grounded (hm : Moves t c t' c') (h : Grounded t w c) : Grounded t' w c' :=
  ⟨h.read, hm.within h.within, hm.lined h.lined, hm.founded h⟩

theorem Asks.grounded {e : Effect} {r : Resp e} {k : Resp e → Stage × Coordinator} (hk : Asks t c e k)
    (h : Grounded t w c) (hw : w.Answers e r w') : Grounded (k r).1 w' (k r).2 := by
  refine ⟨read_answers h.read hw, ?_, hk.lined h.lined r, ?_⟩
  · rw [(answers_eq hw).2]
    exact hk.within h.within r
  · apply (hk.founded h.founded r).mono
    intro n b hn
    rw [reported_answers hw]
    exact hn

/-- Along every run, what a coordinator goes by is as S3 has it. -/
def grounded : course.Invariant timelyReports where
  holds := Grounded
  start w c h := by
    refine ⟨fun n b hn => ?_, trivial, lined_nil rfl, trivial⟩
    obtain ⟨s, f, hn⟩ := hn
    rw [h.2] at hn
    simp at hn
  move _ _ _ _ _ h hm := Moves.grounded hm h
  ask _ _ _ _ _ _ _ h hk ha := Asks.grounded hk h ha.2
  deliver w c event w' h hw := by
    obtain ⟨_, hp, rfl⟩ := hw
    exact ⟨h.read, trivial, lined_nil rfl, hp⟩
  drift t w c w' h hd := by
    have hmono : ∀ n b, w.reported n = some b → w'.reported n = some b := fun _ _ hn => reported_drift hn hd
    have ho : w'.outcomes = w.outcomes := by
      obtain ⟨_, _, _, rfl⟩ := hd
      rfl
    refine ⟨?_, ?_, h.lined, h.founded.mono hmono⟩
    · rw [ho]
      exact fun n b hn => hmono n b (h.read n b hn)
    · rw [ho]
      exact h.within
  restart _ _ _ _ _ _ h := h.elim

/-! ## A node whose success is reported -/

theorem fails_ofEvent (event : LoopEvent) : (Stage.ofEvent event).fails = event.failure := by
  rcases event with _ | _ | _ | (_ | (_ | _ | _ | _)) | (_ | (_ | _)) <;> rfl

theorem next_fails (change : Change) (k : Caller) (b : Bool) : (change.next k b).fails = none := by
  cases change <;> cases b <;> rfl

theorem dispatched_fails (run : PipelineRun) (rest : List String) (k : Caller) (r : Except DispatchError Unit) :
    (Stage.dispatched run n rest k r).fails = none := by
  cases r with
  | error e => rfl
  | ok _ =>
      show (if _ then _ else _ : Stage).fails = none
      split <;> rfl

/-- A node that is about to be failed is failed before the coordinator makes a call. -/
theorem Asks.fails {e : Effect} {k : Resp e → Stage × Coordinator} (hk : Asks t c e k) : t.fails = none := by
  cases hk with
  | @idle t _ _ _ ht =>
      cases t with
      | taken => cases ht
      | timing => cases ht
      | failing => cases ht
      | terminated => cases ht
      | _ => rfl
  | _ => rfl

namespace Upheld

theorem next (h : Upheld n t c) (hrun : c'.run = c.run) (ht : t'.fails = none) : Upheld n t' c' := by
  rw [Upheld, hrun]
  apply h.imp_right
  rintro ⟨hr, _⟩
  refine ⟨hr, ?_⟩
  rw [ht]
  exact (Option.some_ne_none n).symm

/-- A mark that fails no other node, and this one only where the stage says so. -/
theorem mark {a : NodeStatus} (h : Upheld n t c) (hm : Marks c.run c'.run m a) (ht : t'.fails = none)
    (ha : m = n → t.fails ≠ some n → c.run.statuses.lookup n = some .running → a = .running ∨ a = .success) :
    Upheld n t' c' := by
  rcases h with hs | ⟨hr, hf⟩
  · exact .inl (hm.success_stays hs)
  · have hnone : t'.fails ≠ some n := by
      rw [ht]
      exact (Option.some_ne_none n).symm
    by_cases he : n = m
    · rcases hm with hm | ⟨_, hm⟩
      · exact .inr ⟨by rw [hm]; exact hr, hnone⟩
      · have hn : c'.run.statuses.lookup n = some a := by
          rw [hm, he]
          exact Finmap.lookup_insert _
        rcases ha he.symm hf hr with rfl | rfl
        · exact .inr ⟨hn, hnone⟩
        · exact .inl hn
    · exact .inr ⟨by rw [hm.lookup_of_ne he]; exact hr, hnone⟩

/-- The stage fails another node than this one. -/
theorem spare (h : Upheld n t c) (hm : t'.fails = some m) (hno : m = n → c.run.statuses.lookup n ≠ some .running) :
    Upheld n t' c := by
  apply h.imp_right
  rintro ⟨hr, _⟩
  refine ⟨hr, ?_⟩
  rw [hm]
  rintro ⟨rfl⟩
  exact hno rfl hr

end Upheld

/-- A node in line is Pending. -/
theorem lined_pending {names : List String} {k : Caller} (h : (Stage.dispatching (m :: names) k).Lined c) :
    c.run.statuses.lookup m = some .pending := (mem_readyNodes.mp (h.2 m List.mem_cons_self)).1

theorem Moves.upheld (hm : Moves t c t' c') (h : Grounded t w c) (hn : w.reported n = some true)
    (hu : Upheld n t c) : Upheld n t' c' := by
  cases hm with
  | event event =>
      apply hu.imp_right
      rw [fails_ofEvent]
      exact id
  | unarmed => exact hu.next rfl h.founded.2
  | promote => exact hu.mark (marks_markRunning _ _) rfl fun _ _ _ => .inl rfl
  | succeed => exact hu.mark (marks_markSuccess _ _) rfl fun _ _ _ => .inr rfl
  | unsucceed =>
      apply hu.mark (marks_markFailed _ _) rfl
      rintro rfl
      have hfalse : w.reported _ = some false := h.founded
      rw [hfalse] at hn
      cases hn
  | time =>
      apply hu.mark (marks_markFailed _ _) rfl
      rintro rfl hno
      exact absurd rfl hno
  | fail =>
      apply hu.mark (marks_markFailed _ _) rfl
      rintro rfl hno
      exact absurd rfl hno
  | terminated =>
      apply hu.mark (marks_markFailed _ _) rfl
      rintro rfl hno
      exact absurd rfl hno
  | unknown =>
      apply hu.mark (marks_markDispatchFailed _ _) rfl
      rintro rfl _ hr
      rw [lined_pending h.lined] at hr
      cases hr
  | _ => exact hu.next rfl rfl

theorem Asks.upheld {e : Effect} {r : Resp e} {k : Resp e → Stage × Coordinator} (hk : Asks t c e k)
    (h : Grounded t w c) (hin : LearnsInTime w c e r) (hn : w.reported n = some true) (hu : Upheld n t c) :
    Upheld n (k r).1 (k r).2 := by
  cases hk with
  | idle => exact hu
  | abort => exact hu.next rfl h.founded.2
  | arm => exact hu.next rfl h.founded.2
  | save => exact hu.next (afterSave_run _ _) (next_fails _ _ _)
  | dispatch =>
      obtain ⟨a, _, hm⟩ := marks_afterDispatch c _ r
      apply hu.mark hm (dispatched_fails _ _ _ _)
      rintro rfl _ hr
      rw [lined_pending h.lined] at hr
      cases hr
  | probe =>
      rcases r with e | _ | _
      · exact hu.next rfl rfl
      · apply hu.spare rfl
        rintro rfl hr
        exact hin ⟨hn, hr⟩
      · exact hu.next rfl rfl
  | terminate hrun hname =>
      apply hu.spare rfl
      rintro rfl hr
      rw [LearnsInTime, hname] at hin
      exact hin ⟨hn, hr⟩
  | renew =>
      apply hu.next rfl
      show (if _ then _ else _ : Stage).fails = none
      split <;> rfl
  | subscribe => rcases r with e | ⟨⟩ <;> exact hu.next rfl rfl
  | _ => exact hu.next rfl rfl

/-! ## A node whose failure is taken up -/

/-- The node is Failed, or it runs and is about to be failed. -/
def Condemned (n : String) (t : Stage) (c : Coordinator) : Prop :=
  c.run.statuses.lookup n = some .failed ∨ (c.run.statuses.lookup n = some .running ∧ t.fails = some n)

theorem failed_of_running {run : PipelineRun} (h : run.statuses.lookup n = some .running) :
    (run.markFailed n).2.statuses.lookup n = some .failed := by
  rw [markFailed_running h]
  exact Finmap.lookup_insert _

theorem Moves.condemned (hm : Moves t c t' c') (h : Condemned n t c) : Condemned n t' c' := by
  rcases h with hf | ⟨hr, ht⟩
  · obtain ⟨m, a, _, hmark⟩ := hm.marks
    exact .inl (hmark.terminal_stays hf (by decide))
  · cases hm with
    | event event =>
        right
        rw [fails_ofEvent]
        exact ⟨hr, ht⟩
    | late hno =>
        cases ht
        rw [markFailed_fst.mpr (.inl hr)] at hno
        cases hno
    | ignore hno =>
        cases ht
        rw [markFailed_fst.mpr (.inl hr)] at hno
        cases hno
    | time =>
        cases ht
        exact .inl (failed_of_running hr)
    | fail =>
        cases ht
        exact .inl (failed_of_running hr)
    | terminated =>
        cases ht
        exact .inl (failed_of_running hr)
    | _ => cases ht

/-- A failure that is taken up of a Running node fails it, whatever its worker has reported. -/
theorem failure_taken {event : LoopEvent} (hf : event.failure = some n)
    (hrun : c.run.statuses.lookup n = some .running) :
    (coordinator.handle event c).state.run.statuses.lookup n = some .failed := by
  obtain ⟨t, hc, ht⟩ := (Course.describes.handle event c).shows (P := Condemned n) (.inr ⟨hrun, hf⟩)
    fun _ _ _ _ h hm => Moves.condemned hm h
  have hnone : t.fails = none := by
    rcases ht with ⟨e, k, hk⟩ | ⟨_ | _, ht⟩
    · exact Asks.fails hk
    · cases ht
      rfl
    · cases ht
      rfl
  rcases hc with hc | ⟨_, ht⟩
  · exact hc
  · rw [hnone] at ht
    cases ht

/-! ## Along a run -/

/-- What is upheld is so in the state that the coordinator shows. -/
theorem Upheld.shown {p : Prog Coordinator Resp (Option RunSummary)} (h : Upheld n t c) (hg : Grounded t w c)
    (hn : w.reported n = some true) (hF : course.Follows course.Rests t c p) :
    p.state.run.statuses.lookup n = some .running ∨ p.state.run.statuses.lookup n = some .success := by
  obtain ⟨t', ⟨_, hu⟩, _⟩ := hF.shows (P := fun t c => Grounded t w c ∧ Upheld n t c) ⟨hg, h⟩
    fun t c t' c' hP hm => ⟨Moves.grounded hm hP.1, Moves.upheld hm hP.1 hn hP.2⟩
  exact hu.symm.imp_left And.left

/-- A step neither takes a reported success back nor fails the node. -/
theorem step_upheld {p p' : Prog Coordinator Resp (Option RunSummary)} (h : timelyReports.Reaches coordinator w p)
    (hs : timelyReports.Step coordinator (w, p) (w', p')) (hn : w.reported n = some true)
    (hu : p.state.run.statuses.lookup n = some .running ∨ p.state.run.statuses.lookup n = some .success) :
    w'.reported n = some true ∧
      (p'.state.run.statuses.lookup n = some .running ∨ p'.state.run.statuses.lookup n = some .success) := by
  obtain ⟨t, c, hJ, hF⟩ := grounded.reaches Course.describes h
  cases hs with
  | @answer _ _ s e k r hr =>
      obtain ⟨t', k', hJ', hk, hF'⟩ := grounded.at_call hJ hF
      have hn' : w'.reported n = some true := by
        rw [reported_answers hr.2]
        exact hn
      have hup : Upheld n t' s := by
        apply hu.symm.imp_right
        intro hrun
        rw [Asks.fails hk]
        exact ⟨hrun, (Option.some_ne_none n).symm⟩
      exact ⟨hn', (Asks.upheld hk hJ' hr.1 hn hup).shown (Asks.grounded hk hJ' hr.2) hn' (hF' r)⟩
  | @deliver _ _ s event hi =>
      obtain ⟨t', hJ', ht⟩ := grounded.at_ret hJ hF
      cases ht
      have hg := grounded.deliver _ _ _ _ hJ' hi
      obtain ⟨hin, _, rfl⟩ := hi
      have hup : Upheld n (.taken event) s := by
        apply hu.symm.imp_right
        intro hrun
        exact ⟨hrun, fun hf => hin n hf ⟨hn, hrun⟩⟩
      exact ⟨hn, hup.shown hg hn (Course.describes.handle event s)⟩
  | drift hd => exact ⟨reported_drift hn hd, hu⟩
  | restart hr => exact hr.elim

end Jefferies.Coordination
