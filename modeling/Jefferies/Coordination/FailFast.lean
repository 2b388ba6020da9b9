import Jefferies.Coordination.Outcomes

/-!
# Failing fast

With fail-fast the handlers of completions, infrastructure failures and timeouts end the run once a node has
failed. A failed dispatch and a rehydration do not look at fail-fast: there a run with a Failed node goes on,
unless nothing is left to do in it.
-/

namespace Jefferies.Coordination

open Pipelines StateStore RunHistory Interaction Interact Coordinator PipelineRun

/-! ## Coordinators of one run -/

def HasFailed (statuses : HashMap String NodeStatus) : Prop := ∃ n, statuses.lookup n = some .failed

/-- The pipeline declares each of the nodes. -/
def Declared (statuses : HashMap String NodeStatus) (pipeline : Pipeline) : Prop :=
  ∀ n a, statuses.lookup n = some a → (nodeInfoCacheOf pipeline.nodeInfo).lookup n ≠ none

/-- What outlives the coordinators of a run: the stored state, whether a state with a Failed node was ever
stored, and the result with which the run was recorded last. `outcomes` are those that were read last and may
still be folded. -/
structure Legacy where
  stored : Option RunState
  failed : Prop
  recorded : Option RunStatus
  outcomes : HashMap String ReconcileResult

namespace Legacy

def save (self : Legacy) (state : RunState) : Legacy :=
  { self with stored := some state, failed := self.failed ∨ HasFailed state.statuses }

/-- The store may have written a state although it answers with an error. -/
def Answers (self : Legacy) : (e : Effect) → Resp e → Legacy → Prop
  | .saveRun _ state _, .ok true, next => next = self.save state
  | .saveRun _ _ _, .ok false, next => next = self
  | .saveRun _ state _, .error _, next => next = self ∨ next = self.save state
  | .deleteRun _, _, next => next = self ∨ next = { self with stored := none }
  | .readOutcomes _ _, r, next => next = { self with outcomes := r.getD ∅ }
  | .subscribeRun _, _, next => next = { self with outcomes := ∅ }
  | .recordPipelineRun record, _, next => next = { self with recorded := some record.status }
  | _, _, next => next = self

end Legacy

/-- The coordinators of one run with fail-fast, one after the other: each may be killed at any moment, and the
next one rehydrates the stored state. -/
def lives : Surroundings Legacy Coordinator LoopEvent Resp where
  starts w c := Begins c ∧ c.failFastEnabled = true ∧
    (c.isRehydrate = true → Declared c.run.statuses c.pipeline) ∧ (w.failed ↔ HasFailed c.run.statuses) ∧ w.outcomes = ∅ ∧
    ∀ state, w.stored = some state → state.statuses = c.run.statuses ∧ state.pipeline = c.pipeline
  answers w _ e r w' := w.Answers e r w'
  delivers w _ _ w' := w' = { w with outcomes := ∅ }
  drifts _ _ := False
  restarts w c w' := ∃ state, w.stored = some state ∧ Begins c ∧ c.failFastEnabled = true ∧
    c.isRehydrate = true ∧ c.run = .fromRunState state ∧ c.pipeline = state.pipeline ∧
    w' = { w with outcomes := ∅ }

/-- Nothing is left to do but for the node: no node runs, no other one is ready, and no other Pending one is
reported by the outcomes. -/
def LastOne (w : Legacy) (c : Coordinator) (n : String) : Prop :=
  (∀ m, c.run.statuses.lookup m ≠ some .running) ∧ (∀ m ∈ c.run.readyNodes, m = n) ∧
    ∀ m, m ≠ n → c.run.statuses.lookup m = some .pending → ¬Reports w.outcomes m

/-- A dispatch fails only where nothing else is left to do, and where a node has failed, the outcomes that are
read report no Pending node. -/
def FailsLast (w : Legacy) (c : Coordinator) : (e : Effect) → Resp e → Prop
  | .dispatch _ _ node _, .error _ => LastOne w c node.name
  | .readOutcomes _ _, r => HasFailed c.run.statuses →
      ∀ n, c.run.statuses.lookup n = some .pending → ¬Reports (r.getD ∅) n
  | _, _ => True

/-- The runs in which dispatches fail only where nothing else is left to do, and a state with a Failed node is
rehydrated only where it is complete. -/
def failFastLives : Surroundings Legacy Coordinator LoopEvent Resp :=
  { lives.within FailsLast fun _ _ _ => True with
    starts := fun w c => lives.starts w c ∧ (HasFailed c.run.statuses → c.run.isComplete = true)
    restarts := fun w c w' => lives.restarts w c w' ∧ (HasFailed c.run.statuses → c.run.isComplete = true) }

/-! ## What is left to do -/

/-- The stages from which a coordinator with a Failed node ends the run as it is. -/
def Stage.dooms : Stage → Prop
  | .saving (.completed _ success) _ => success = false
  | .saving (.failed _ _) _ => True
  | .saving (.timedOut _) _ => True
  | .recording _ _ success _ => success = false
  | .settling success _ => success = false
  | .returned aborted _ => aborted = true
  | .relieving _ next => next.dooms
  | .aborting _ next => next.dooms
  | .closing _ => True
  | .concluding _ _ => True
  | .terminated _ _ _ => True
  | .closed _ => True
  | .quitting => True
  | .ended => True
  | _ => False

/-- The stages in which a coordinator may find that nothing is left to do. -/
def Stage.spends (known : HashMap String ReconcileResult) : Stage → Prop
  | .entering => True
  | .gathering re => re = true
  | .reading re _ => re = true
  | .gathered re _ => re = true
  | .folding _ _ _ => True
  | .sifting _ => True
  | .promoting _ _ => True
  | .rearming _ => True
  | .listing _ => True
  | .rearmed _ names => names = []
  | .returned _ _ => True
  | .completing n _ _ => Reports known n
  | .saving (.completed _ _) _ => True
  | .saving (.refused _ rest) _ => rest = []
  | .recording _ _ _ _ => True
  | .settling _ _ => True
  | .dispatch _ => True
  | .dispatching names _ => names = []
  | .blaming _ rest _ => rest = []
  | .relieving _ next => next.spends known
  | .aborting _ next => next.spends known
  | _ => False

/-- The result as which the run is about to be recorded, or was. -/
def Stage.result : Stage → Option RunStatus
  | .closing status => some status
  | .concluding status _ => some status
  | .terminated status _ _ => some status
  | .closed status => some status
  | .relieving _ next => next.result
  | .aborting _ next => next.result
  | _ => none

/-- The end of the run was recorded. -/
def Stage.recorded : Stage → Bool
  | .closed _ => true
  | .ended => true
  | .relieving _ next => next.recorded
  | .aborting _ next => next.recorded
  | _ => false

/-- The coordinator leaves without an end of the run. -/
def Stage.quits : Stage → Bool
  | .quitting => true
  | .relieving _ next => next.quits
  | .aborting _ next => next.quits
  | _ => false

/-- No node runs, none is ready, and the outcomes report no Pending one. -/
def Exhausted (w : Legacy) (c : Coordinator) : Prop :=
  (∀ n, c.run.statuses.lookup n ≠ some .running) ∧ c.run.readyNodes = ∅ ∧
    ∀ n, c.run.statuses.lookup n = some .pending → ¬Reports w.outcomes n

/-- The invariant of the coordinators of one run. Where a node has failed, the run is about to end or nothing is
left to do in it. -/
structure Orderly (t : Stage) (w : Legacy) (c : Coordinator) : Prop where
  cache : c.nodeInfoCache = nodeInfoCacheOf c.pipeline.nodeInfo
  failFast : c.failFastEnabled = true
  declared : Declared c.run.statuses c.pipeline
  stored : ∀ state, w.stored = some state →
    Declared state.statuses state.pipeline ∧ (w.failed → HasFailed state.statuses)
  loaded : w.failed → HasFailed c.run.statuses
  lined : t.Lined c
  within : t.within w.outcomes
  entered : t = .entering → c.isRehydrate = false → ¬HasFailed c.run.statuses
  doomed : HasFailed c.run.statuses → t.dooms ∨ (t.spends w.outcomes ∧ Exhausted w c)

/-- The run is recorded as a failure, and no coordinator leaves before. -/
structure Concluded (t : Stage) (w : Legacy) : Prop where
  result : ∀ status, t.result = some status → status = .failure
  recorded : t.recorded = true → w.recorded = some .failure
  left : t.quits = false

variable {w w' : Legacy} {c c' : Coordinator} {t t' : Stage} {n : String}

/-! ## What the coordinator computes -/

theorem HasFailed.marks {run run' : PipelineRun} {a : NodeStatus} (h : HasFailed run.statuses)
    (hm : Marks run run' n a) : HasFailed run'.statuses := by
  obtain ⟨m, hf⟩ := h
  exact ⟨m, hm.terminal_stays hf (by decide)⟩

/-- Only a failure makes a run have a Failed node. -/
theorem HasFailed.of_marks {run run' : PipelineRun} {a : NodeStatus} (h : HasFailed run'.statuses)
    (hm : Marks run run' n a) (ha : a ≠ .failed) : HasFailed run.statuses := by
  obtain ⟨m, hf⟩ := h
  rcases hm.lookup_eq hf with hold | ⟨_, he⟩
  · exact ⟨m, hold⟩
  · exact absurd he.symm ha

theorem Declared.marks {run run' : PipelineRun} {a : NodeStatus} {pipeline : Pipeline}
    (h : Declared run.statuses pipeline) (hm : Marks run run' n a) : Declared run'.statuses pipeline := by
  intro m b hb
  obtain ⟨b', hb'⟩ := hm.known hb
  exact h m b' hb'

/-- What is exhausted is complete. -/
theorem Exhausted.complete (h : Exhausted w c) : c.run.isComplete = true := isComplete_iff.mpr ⟨h.1, h.2.1⟩

theorem Exhausted.of_run (h : Exhausted w c) (hrun : c'.run = c.run) (hw : w'.outcomes = w.outcomes) :
    Exhausted w' c' := by
  rw [Exhausted, hrun, hw]
  exact h

/-- A node that the outcomes report is neither Running nor Pending. -/
theorem Exhausted.terminal (h : Exhausted w c) (hn : Reports w.outcomes n) :
    c.run.statuses.lookup n ≠ some .running ∧ c.run.statuses.lookup n ≠ some .pending :=
  ⟨h.1 n, fun hp => h.2.2 n hp hn⟩

theorem Moves.doomed (hm : Moves t c t' c') (h : Orderly t w c) (hf : HasFailed c'.run.statuses) :
    t'.dooms ∨ (t'.spends w.outcomes ∧ Exhausted w c') := by
  have hsame : c'.run = c.run → t.dooms ∨ (t.spends w.outcomes ∧ Exhausted w c) := by
    intro hrun
    rw [hrun] at hf
    exact h.doomed hf
  cases hm with
  | rehydrates => exact .inr ⟨rfl, ((hsame rfl).resolve_left id).2⟩
  | begins hre => exact absurd hf (h.entered rfl hre)
  | event => exact ((hsame rfl).resolve_left id).1.elim
  | aborts => exact .inl trivial
  | completes => exact .inl trivial
  | waits hc =>
      have hex := ((hsame rfl).resolve_left (by simp [Stage.dooms])).2
      rw [hex.complete] at hc
      cases hc
  | folds => exact .inr ⟨trivial, ((hsame rfl).resolve_left (by simp [Stage.dooms])).2⟩
  | promotes => exact .inr ⟨trivial, ((hsame rfl).resolve_left (by simp [Stage.dooms])).2⟩
  | unread => exact .inr ((hsame rfl).resolve_left id)
  | folded => exact .inr ((hsame rfl).resolve_left id)
  | reconciled => exact .inr ((hsame rfl).resolve_left id)
  | skip => exact .inr ((hsame rfl).resolve_left id)
  | @fold _ _ _ n _ b s f hn =>
      exact .inr ⟨.inl ⟨b, s, f, h.within n _ hn⟩, ((hsame rfl).resolve_left id).2⟩
  | promoted => exact .inr ((hsame rfl).resolve_left id)
  | unpromoted => exact .inr ((hsame rfl).resolve_left id)
  | @promote _ m n _ hn =>
      have hex := ((h.doomed (hf.of_marks (marks_markRunning _ _) (by decide))).resolve_left id).2
      have hrep : Reports w.outcomes n := .inr (h.within.1.started (h.within.2 n List.mem_cons_self))
      exact absurd (markRunning_fst.mp hn) (hex.terminal hrep).2
  | rearm => cases ((hsame rfl).resolve_left id).1
  | rehydrated hc =>
      have hex := ((hsame rfl).resolve_left id).2
      rw [hex.complete] at hc
      cases hc
  | stalled => exact .inl trivial
  | switched => exact ((hsame rfl).resolve_left id).1.elim
  | switch => exact ((hsame rfl).resolve_left id).1.elim
  | late => exact ((hsame rfl).resolve_left id).1.elim
  | time => exact .inl trivial
  | ignore => exact ((hsame rfl).resolve_left id).1.elim
  | fail => exact .inl trivial
  | @succeed _ n _ =>
      obtain ⟨hn, hex⟩ :=
        (h.doomed (hf.of_marks (marks_markSuccess _ _) (by decide))).resolve_left id
      have hsame : (c.run.markSuccess n).2 = c.run := by
        rw [markSuccess, if_neg (by simpa using hex.terminal hn)]
      exact .inr ⟨trivial, hex.of_run hsame rfl⟩
  | unsucceed => exact .inl rfl
  | failFast => exact .inl rfl
  | goesOn hb =>
      rcases hb with rfl | hff
      · exact .inr ⟨trivial, ((hsame rfl).resolve_left (by simp [Stage.dooms])).2⟩
      · rw [h.failFast] at hff
        cases hff
  | dispatched => exact .inr ⟨trivial, ((hsame rfl).resolve_left id).2⟩
  | @unknown _ n rest k hn =>
      have hready := h.lined.2 n List.mem_cons_self
      rw [h.cache] at hn
      exact absurd hn (h.declared n _ (mem_readyNodes.mp hready).1)
  | unarmed => exact hsame rfl
  | relieve => exact hsame rfl
  | terminated => exact .inl trivial
  | relieves => exact .inl trivial
  | unwatches => exact .inl trivial
  | ends => exact .inl trivial
  | leaves => exact .inl trivial
  | gone => exact .inl trivial

theorem Moves.orderly (hm : Moves t c t' c') (h : Orderly t w c) : Orderly t' w c' := by
  obtain ⟨n, a, _, hmark⟩ := hm.marks
  obtain ⟨hp, hcache, hff⟩ := hm.settings
  constructor
  · rw [hcache, hp, h.cache]
  · rw [hff, h.failFast]
  · rw [hp]
    exact h.declared.marks hmark
  · exact h.stored
  · exact fun hw => (h.loaded hw).marks hmark
  · exact hm.lined h.lined
  · exact hm.within h.within
  · exact fun ht => absurd ht hm.ne_entering
  · exact hm.doomed h

/-- A run with a Failed node is no success. -/
theorem outcomeStatus_failure (hf : HasFailed c.run.statuses) : c.outcomeStatus = .failure := by
  obtain ⟨n, hn⟩ := hf
  have hno : ¬c.run.statuses.allValues (· = .success) = true := by
    rw [HashMap.allValues_eq_true]
    intro hall
    simpa using hall n _ hn
  rw [outcomeStatus, if_neg hno]

/-- A stage that says nothing of the end of the run. -/
theorem concluded_of_none (hr : t.result = none) (he : t.recorded = false) (hq : t.quits = false) :
    Concluded t w := by
  constructor
  · intro status hs
    rw [hr] at hs
    cases hs
  · intro h
    rw [he] at h
    cases h
  · exact hq

/-- The run is about to be recorded as a failure. -/
theorem concluded_closing : Concluded (.closing .failure) w := by
  constructor
  · rintro _ ⟨rfl⟩
    rfl
  · exact fun h => by cases h
  · rfl

theorem Moves.concluded (hm : Moves t c t' c') (h : Orderly t w c) (hf : HasFailed c.run.statuses)
    (hc : Concluded t w) : Concluded t' w := by
  cases hm with
  | event => exact ((h.doomed hf).elim id And.left).elim
  | aborts => exact concluded_closing
  | completes =>
      rw [outcomeStatus_failure hf]
      exact concluded_closing
  | stalled =>
      rw [outcomeStatus_failure hf]
      exact concluded_closing
  | terminated => exact ⟨hc.result, fun h => (by cases h), rfl⟩
  | unarmed => exact ⟨hc.result, hc.recorded, hc.left⟩
  | relieve => exact ⟨hc.result, hc.recorded, hc.left⟩
  | relieves => exact ⟨hc.result, hc.recorded, hc.left⟩
  | unwatches => exact hc
  | ends => exact ⟨fun _ hs => (by cases hs), fun _ => hc.recorded rfl, rfl⟩
  | leaves => exact hc
  | gone => cases hc.left
  | _ => exact concluded_of_none rfl rfl rfl

/-! ## What the coordinator asks for -/

theorem Idle.legacy {e : Effect} {r : Resp e} (he : Idle c e) (hw : w.Answers e r w') : w' = w := by
  cases he <;> exact hw

/-- What a coordinator saves is its own run. -/
theorem Orderly.legacy {e : Effect} {r : Resp e} {k : Resp e → Stage × Coordinator} (h : Orderly t w c)
    (hk : Asks t c e k) (hw : w.Answers e r w') :
    (∀ state, w'.stored = some state →
      Declared state.statuses state.pipeline ∧ (w'.failed → HasFailed state.statuses)) ∧
    (w'.failed → HasFailed c.run.statuses) := by
  have hsame : ∀ {w'}, w' = w → (∀ state, w'.stored = some state →
      Declared state.statuses state.pipeline ∧ (w'.failed → HasFailed state.statuses)) ∧
      (w'.failed → HasFailed c.run.statuses) := by
    rintro _ rfl
    exact ⟨h.stored, h.loaded⟩
  have hsaved : ∀ {w' v}, w' = w.save (c.run.toRunState v c.pipeline) → (∀ state, w'.stored = some state →
      Declared state.statuses state.pipeline ∧ (w'.failed → HasFailed state.statuses)) ∧
      (w'.failed → HasFailed c.run.statuses) := by
    rintro _ v rfl
    have hf : w.failed ∨ HasFailed c.run.statuses → HasFailed c.run.statuses := fun hw => hw.elim h.loaded id
    refine ⟨?_, hf⟩
    rintro _ ⟨rfl⟩
    exact ⟨h.declared, hf⟩
  cases hk with
  | idle he => exact hsame (he.legacy hw)
  | save =>
      rcases r with e | _ | _
      · rcases hw with hw | hw
        · exact hsame hw
        · exact hsaved hw
      · exact hsame hw
      · exact hsaved hw
  | part he =>
      cases he with
      | deleteRun =>
          rcases hw with hw | rfl
          · exact hsame hw
          · exact ⟨fun _ hs => (by cases hs), h.loaded⟩
      | _ => exact hsame hw
  | _ =>
      cases hw
      exact ⟨h.stored, h.loaded⟩

theorem Asks.marks {e : Effect} {k : Resp e → Stage × Coordinator} (hk : Asks t c e k) (r : Resp e) :
    ∃ n a, (a ≠ .success ∧ a ≠ .pending) ∧ Marks c.run (k r).2.run n a := by
  cases hk with
  | save => exact ⟨"", .failed, by decide, .inl (afterSave_run _ _)⟩
  | @dispatch _ n => exact ⟨n, marks_afterDispatch _ _ _⟩
  | _ => exact ⟨"", .failed, by decide, .inl rfl⟩

theorem Asks.ne_entering {e : Effect} {k : Resp e → Stage × Coordinator} (hk : Asks t c e k) (r : Resp e) :
    (k r).1 = .entering → t = .entering ∧ (k r).2 = c := by
  cases hk with
  | idle => exact fun h => ⟨h, rfl⟩
  | renew =>
      intro h
      change (if _ then _ else _ : Stage) = _ at h
      split at h <;> cases h
  | save => exact fun h => absurd h (Stage.ne_entering_of_resumes (next_resumes _ _ _))
  | dispatch => exact fun h => absurd h (Stage.ne_entering_of_resumes (dispatched_resumes _ _ _ _ _))
  | abort hnext => exact fun h => absurd h (Stage.ne_entering_of_resumes hnext)
  | arm _ hnext => exact fun h => absurd h (Stage.ne_entering_of_resumes hnext)
  | subscribe => rcases r with e | ⟨⟩ <;> exact fun h => by cases h
  | probe => rcases r with e | _ | _ <;> exact fun h => by cases h
  | _ => exact fun h => by cases h

/-- The outcomes of a run are those that were read last, until a coordinator turns to the run's events. -/
theorem Legacy.Answers.outcomes_eq {e : Effect} {r : Resp e} (hw : w.Answers e r w')
    (he : ∀ runId, e ≠ .subscribeRun runId) : w'.outcomes = lastOutcomes w.outcomes e r := by
  cases e with
  | subscribeRun runId => exact absurd rfl (he runId)
  | saveRun =>
      rcases r with e | _ | _
      · rcases hw with rfl | rfl <;> rfl
      · rw [show w' = w from hw]
        rfl
      · rw [show w' = w.save _ from hw]
        rfl
  | deleteRun => rcases hw with rfl | rfl <;> rfl
  | _ =>
      cases hw
      rfl

theorem Asks.within_answered {e : Effect} {r : Resp e} {k : Resp e → Stage × Coordinator} (hk : Asks t c e k)
    (h : t.within w.outcomes) (hw : w.Answers e r w') : (k r).1.within w'.outcomes := by
  by_cases he : ∃ runId, e = .subscribeRun runId
  · cases hk with
    | subscribe => rcases r with e | ⟨⟩ <;> trivial
    | idle hi => obtain ⟨_, rfl⟩ := he; cases hi
    | part hp => trivial
    | _ => obtain ⟨_, he⟩ := he; cases he
  · rw [hw.outcomes_eq fun runId hr => he ⟨runId, hr⟩]
    exact hk.within h r

/-- Behind a dispatch that failed where nothing else was left to do, nothing is left to do. -/
theorem Orderly.refused {info : NodeInfo} {rest : List String} {k : Caller}
    (h : Orderly (.dispatching (n :: rest) k) w c) (hinfo : c.nodeInfoCache.lookup n = some info)
    (hlast : LastOne w c info.name) : rest = [] ∧ Exhausted w (c.setRun (c.run.markDispatchFailed n).2) := by
  have hname : info.name = n := by
    rw [h.cache] at hinfo
    exact namesAgree_nodeInfoCacheOf _ n info hinfo
  rw [hname] at hlast
  obtain ⟨hrun, hready, hrep⟩ := hlast
  have hm := marks_markDispatchFailed c.run n
  constructor
  · rw [List.eq_nil_iff_forall_not_mem]
    intro m hmem
    have he := hready m (h.lined.2 m (List.mem_cons_of_mem _ hmem))
    subst he
    exact (List.nodup_cons.mp h.lined.1).1 hmem
  · refine ⟨?_, ?_, ?_⟩
    · intro m hm'
      rcases hm.lookup_eq hm' with hold | ⟨_, he⟩
      · exact hrun m hold
      · cases he
    · apply Finset.eq_empty_of_forall_notMem
      intro m hm'
      obtain ⟨hold, hne⟩ := ready_markDispatchFailed hm'
      exact hne (hready m hold)
    · intro m hm'
      have hne : m ≠ n := by
        rintro rfl
        exact lookup_markDispatchFailed _ _ hm'
      rcases hm.lookup_eq hm' with hold | ⟨_, he⟩
      · exact hrep m hne hold
      · cases he

theorem saved_dooms {change : Change} {k : Caller} {known : HashMap String ReconcileResult} {p : Prop} (b : Bool)
    (h : (Stage.saving change k).dooms ∨ ((Stage.saving change k).spends known ∧ p)) :
    (change.next k b).dooms ∨ ((change.next k b).spends known ∧ p) := by
  cases change with
  | completed m success =>
      cases b with
      | true => exact h
      | false => exact .inl rfl
  | failed m reason => cases b <;> exact .inl rfl
  | timedOut m => cases b <;> exact .inl rfl
  | promoted m => exact absurd (h.resolve_left id).1 id
  | started m rest => exact absurd (h.resolve_left id).1 id
  | refused m rest => exact h

theorem Asks.doomed {e : Effect} {r : Resp e} {k : Resp e → Stage × Coordinator} (hk : Asks t c e k)
    (h : Orderly t w c) (hw : w.Answers e r w') (hlast : FailsLast w c e r)
    (hf : HasFailed (k r).2.run.statuses) :
    (k r).1.dooms ∨ ((k r).1.spends w'.outcomes ∧ Exhausted w' (k r).2) := by
  cases hk with
  | idle he =>
      rw [he.legacy hw]
      exact h.doomed hf
  | renew => exact ((h.doomed hf).resolve_left id).1.elim
  | subscribe => exact ((h.doomed hf).resolve_left id).1.elim
  | probe => exact ((h.doomed hf).resolve_left id).1.elim
  | gather =>
      cases hw
      exact h.doomed hf
  | read =>
      cases hw
      obtain ⟨hs, hex⟩ := (h.doomed hf).resolve_left id
      exact .inr ⟨hs, hex.1, hex.2.1, hlast hf⟩
  | walk =>
      cases hw
      exact .inr ⟨trivial, ((h.doomed hf).resolve_left id).2⟩
  | sift =>
      cases hw
      exact .inr ⟨trivial, ((h.doomed hf).resolve_left id).2⟩
  | clock =>
      cases hw
      exact h.doomed hf
  | rearm =>
      cases hw
      obtain ⟨_, hex⟩ := (h.doomed hf).resolve_left id
      refine .inr ⟨toList_eq_nil r ?_, hex⟩
      apply Finset.eq_empty_of_forall_notMem
      intro m hm
      obtain ⟨a, ha, hrun⟩ := mem_nodesWith.mp hm
      exact hex.1 m (by simpa [ha] using hrun)
  | @save _ change k =>
      have hrun := afterSave_run c r
      have ho : w'.outcomes = w.outcomes := by
        rcases r with e | _ | _
        · rcases hw with rfl | rfl <;> rfl
        · rw [show w' = w from hw]
        · rw [show w' = w.save _ from hw]
          rfl
      rw [hrun] at hf
      rw [ho]
      apply saved_dooms
      exact (h.doomed hf).imp_right fun ⟨hs, hex⟩ => ⟨hs, hex.of_run hrun ho⟩
  | register => exact ((h.doomed hf).resolve_left id).1.elim
  | record =>
      cases hw
      exact h.doomed hf
  | blame =>
      cases hw
      exact h.doomed hf
  | ready =>
      cases hw
      obtain ⟨_, hex⟩ := (h.doomed hf).resolve_left id
      exact .inr ⟨toList_eq_nil r hex.2.1, hex⟩
  | @dispatch _ n rest k info hinfo =>
      cases hw
      cases r with
      | error e =>
          obtain ⟨hrest, hex⟩ := h.refused hinfo hlast
          exact .inr ⟨hrest, hex⟩
      | ok _ =>
          have hold := hf.of_marks (marks_markRunning c.run n) (by decide)
          cases ((h.doomed hold).resolve_left id).1
  | abort =>
      cases hw
      exact h.doomed hf
  | arm => exact ((h.doomed hf).resolve_left id).1.elim
  | close => exact .inl trivial
  | terminate => exact .inl trivial
  | conclude => exact .inl trivial
  | part => exact .inl trivial

theorem Asks.orderly {e : Effect} {r : Resp e} {k : Resp e → Stage × Coordinator} (hk : Asks t c e k)
    (h : Orderly t w c) (hw : w.Answers e r w') (hlast : FailsLast w c e r) :
    Orderly (k r).1 w' (k r).2 := by
  obtain ⟨n, a, _, hmark⟩ := hk.marks r
  obtain ⟨hp, hcache, hff⟩ := hk.settings r
  obtain ⟨hstored, hloaded⟩ := h.legacy hk hw
  constructor
  · rw [hcache, hp, h.cache]
  · rw [hff, h.failFast]
  · rw [hp]
    exact h.declared.marks hmark
  · exact hstored
  · exact fun hw => (hloaded hw).marks hmark
  · exact hk.lined h.lined r
  · exact hk.within_answered h.within hw
  · intro ht
    obtain ⟨hold, hc⟩ := hk.ne_entering r ht
    rw [hc]
    exact h.entered hold
  · exact hk.doomed h hw hlast

theorem next_concluded (change : Change) (k : Caller) (b : Bool) : Concluded (change.next k b) w := by
  cases change <;> cases b <;> exact concluded_of_none rfl rfl rfl

theorem dispatched_concluded (run : PipelineRun) (rest : List String) (k : Caller)
    (r : Except DispatchError Unit) : Concluded (.dispatched run n rest k r) w := by
  cases r with
  | error e => exact concluded_of_none rfl rfl rfl
  | ok _ =>
      show Concluded (if _ then _ else _) w
      split <;> exact concluded_of_none rfl rfl rfl

theorem Asks.concluded {e : Effect} {r : Resp e} {k : Resp e → Stage × Coordinator} (hk : Asks t c e k)
    (h : Orderly t w c) (hf : HasFailed c.run.statuses) (hw : w.Answers e r w') (hc : Concluded t w) :
    Concluded (k r).1 w' := by
  cases hk with
  | idle he =>
      rw [he.legacy hw]
      exact hc
  | renew => exact ((h.doomed hf).resolve_left id).1.elim
  | subscribe => exact ((h.doomed hf).resolve_left id).1.elim
  | probe => exact ((h.doomed hf).resolve_left id).1.elim
  | arm => exact ((h.doomed hf).resolve_left id).1.elim
  | save => exact next_concluded _ _ _
  | dispatch => exact dispatched_concluded _ _ _ _
  | abort =>
      cases hw
      exact ⟨hc.result, hc.recorded, hc.left⟩
  | close => exact ⟨hc.result, fun h => (by cases h), rfl⟩
  | terminate => exact ⟨hc.result, fun h => (by cases h), rfl⟩
  | @conclude _ status =>
      cases hw
      refine ⟨hc.result, fun _ => ?_, rfl⟩
      rw [← hc.result status rfl]
      rfl
  | part he =>
      refine ⟨hc.result, fun _ => ?_, rfl⟩
      have hrec := hc.recorded rfl
      cases he with
      | deleteRun => rcases hw with rfl | rfl <;> exact hrec
      | _ =>
          cases hw
          exact hrec
  | _ => exact concluded_of_none rfl rfl rfl

/-- Only a save can make a state with a Failed node be stored, and behind a save the run has not ended yet. -/
theorem Asks.concluded_of {e : Effect} {r : Resp e} {k : Resp e → Stage × Coordinator} (hk : Asks t c e k)
    (h : Orderly t w c) (hw : w.Answers e r w') (hc : w.failed → Concluded t w) (hf : w'.failed) :
    Concluded (k r).1 w' := by
  have hfailed : HasFailed c.run.statuses := (h.legacy hk hw).2 hf
  by_cases hold : w.failed
  · exact hk.concluded h hfailed hw (hc hold)
  · cases hk with
    | save => exact next_concluded _ _ _
    | idle he =>
        rw [he.legacy hw] at hf
        exact absurd hf hold
    | part he =>
        cases he with
        | deleteRun => rcases hw with rfl | rfl <;> exact absurd hf hold
        | _ =>
            cases hw
            exact absurd hf hold
    | _ =>
        cases hw
        exact absurd hf hold

/-- The nodes of a new run are those of its pipeline. -/
theorem declared_new (pipeline : Pipeline) : Declared (PipelineRun.new pipeline.nodeInfo).statuses pipeline := by
  intro n a ha
  have hkey : n ∈ (PipelineRun.new pipeline.nodeInfo).statuses.keys := HashMap.mem_keys_iff_lookup.mpr ⟨a, ha⟩
  rw [new_statuses_keys] at hkey
  have hcache : n ∈ (nodeInfoCacheOf pipeline.nodeInfo).keys := by
    rw [nodeInfoCacheOf, HashMap.mem_keys_ofList, List.map_map]
    exact hkey
  obtain ⟨info, hinfo⟩ := HashMap.mem_keys_iff_lookup.mp hcache
  rw [hinfo]
  simp

/-- What the world of a new run is like. -/
def Legacy.new : Legacy := ⟨none, False, none, ∅⟩

theorem starts_fresh {runId : String} {pipeline : Pipeline} (hff : pipeline.failFastOverride ≠ some false) :
    failFastLives.starts .new (freshCoordinator .default runId pipeline) := by
  have hno : ¬HasFailed (freshCoordinator .default runId pipeline).run.statuses := by
    rintro ⟨n, hn⟩
    cases new_lookup hn
  have hon : (freshCoordinator .default runId pipeline).failFastEnabled = true := by
    show pipeline.failFastOverride.getD true = true
    rcases h : pipeline.failFastOverride with _ | _ | _
    · rfl
    · exact absurd h hff
    · rfl
  exact ⟨⟨begins_fresh _ _ _, hon, fun h => (by cases h), (iff_of_false id hno), rfl, fun _ h => (by cases h)⟩,
    fun hf => absurd hf hno⟩

/-- Where dispatches fail only last, and only complete states with a Failed node are rehydrated. -/
def failing : course.Invariant failFastLives where
  holds t w c := Orderly t w c ∧ (w.failed → Concluded t w)
  start w c h := by
    obtain ⟨⟨hb, hff, hold, hfailed, ho, hstored⟩, hcomplete⟩ := h
    have hdecl : Declared c.run.statuses c.pipeline := by
      rcases hb.run with ⟨_, hrun, _⟩ | ⟨hre, _⟩
      · rw [hrun]
        exact declared_new _
      · exact hold hre
    refine ⟨⟨hb.cache, hff, hdecl, ?_, hfailed.mp, lined_nil rfl, trivial, ?_, ?_⟩,
      fun _ => concluded_of_none rfl rfl rfl⟩
    · intro state hs
      obtain ⟨hst, hp⟩ := hstored state hs
      rw [hst, hp]
      exact ⟨hdecl, hfailed.mp⟩
    · rintro _ hno ⟨n, hn⟩
      rcases hb.run with ⟨_, hrun, _⟩ | ⟨hre, _⟩
      · rw [hrun] at hn
        cases new_lookup hn
      · rw [hre] at hno
        cases hno
    · intro hf
      obtain ⟨hrun, hready⟩ := isComplete_iff.mp (hcomplete hf)
      refine .inr ⟨trivial, hrun, hready, fun n _ hrep => ?_⟩
      rw [ho] at hrep
      simp [Reports] at hrep
  move t w c t' c' h hm := ⟨hm.orderly h.1, fun hw => hm.concluded h.1 (h.1.loaded hw) (h.2 hw)⟩
  ask t w c e k r w' h hk ha := by
    obtain ⟨hlast, hw⟩ := ha
    exact ⟨hk.orderly h.1 hw hlast, hk.concluded_of h.1 hw h.2⟩
  deliver w c event w' h hw := by
    obtain ⟨_, rfl⟩ := hw
    have hno : ¬HasFailed c.run.statuses := fun hf => (h.1.doomed hf).elim id And.left
    refine ⟨⟨h.1.cache, h.1.failFast, h.1.declared, h.1.stored, h.1.loaded, lined_nil rfl, trivial,
      fun ht => (by cases ht), fun hf => absurd hf hno⟩, fun hw => absurd (h.1.loaded hw) hno⟩
  drift _ _ _ _ _ h := h.elim
  restart t w c c' w' h hr := by
    obtain ⟨⟨state, hs, hb, hff, hre, hrun, hp, rfl⟩, hcomplete⟩ := hr
    obtain ⟨hdecl, hfailed⟩ := h.1.stored state hs
    refine ⟨⟨hb.cache, hff, ?_, h.1.stored, ?_, lined_nil rfl, trivial, ?_, ?_⟩,
      fun _ => concluded_of_none rfl rfl rfl⟩
    · rw [hrun, hp]
      exact hdecl
    · rw [hrun]
      exact hfailed
    · intro _ hno
      rw [hre] at hno
      cases hno
    · intro hf
      obtain ⟨hidle, hready⟩ := isComplete_iff.mp (hcomplete hf)
      exact .inr ⟨trivial, hidle, hready, fun n _ hrep => by simp [Reports] at hrep⟩

/-- Fail-fast: once a state with a Failed node is stored, nothing is dispatched any more, no coordinator of the
run waits again, and whatever is recorded as the result of the run is a failure, which is recorded before a
coordinator ends. -/
theorem failed_run_ends {w : Legacy} {p : Prog Coordinator Resp (Option RunSummary)}
    (h : failFastLives.Reaches coordinator w p) (hf : w.failed) :
    (∀ runId metadata node pipeline, p.pending ≠ some (.dispatch runId metadata node pipeline)) ∧
      (∀ c, p ≠ .ret c none) ∧
      (∀ record, p.pending = some (.recordPipelineRun record) → record.status = .failure) ∧
      ∀ c summary, p = .ret c (some summary) → w.recorded = some .failure := by
  obtain ⟨t, c, hJ, hF⟩ := failing.reaches Course.describes h
  cases p with
  | ret c r =>
      obtain ⟨t', ⟨ho, hc⟩, ht⟩ := failing.at_ret hJ hF
      refine ⟨by simp [Prog.pending], ?_, by simp [Prog.pending], ?_⟩
      · rintro _ ⟨rfl⟩
        cases ht
        exact (ho.doomed (ho.loaded hf)).elim id And.left
      · rintro _ summary ⟨rfl⟩
        cases ht
        exact (hc hf).recorded rfl
  | call c e k =>
      obtain ⟨t', k', ⟨ho, hc⟩, hk, _⟩ := failing.at_call hJ hF
      refine ⟨?_, by simp, ?_, by simp⟩
      · rintro runId metadata node pipeline ⟨rfl⟩
        cases hk with
        | idle he => cases he
        | part he => cases he
        | dispatch => cases ((ho.doomed (ho.loaded hf)).resolve_left id).1
      · rintro record ⟨rfl⟩
        cases hk with
        | idle he => cases he
        | part he => cases he
        | @conclude _ status => exact (hc hf).result status rfl

/-- A node fails while the other one waits for it. -/
theorem failed_run_ends_build :
    ∃ w p, failFastLives.Reaches coordinator w p ∧ w.failed ∧ ∀ c, p ≠ .ret c none := by
  let pipeline := Pipeline.plain "ci" [.plain "build" [], .plain "test" ["build"]]
  have h : failFastLives.Leads coordinator .new (coordinator.start (freshCoordinator .default "run" pipeline))
      fun w _ => w.failed := by
    refine .call () _ ⟨trivial, rfl⟩ ?_
    refine .call (.ok ()) _ ⟨trivial, rfl⟩ ?_
    refine .call () _ ⟨trivial, rfl⟩ ?_
    refine .call () _ ⟨trivial, rfl⟩ ?_
    refine .call ⟨["build"], by decide⟩ _ ⟨trivial, rfl⟩ ?_
    refine .call (.ok ()) _ ⟨trivial, rfl⟩ ?_
    refine .call (.ok true) _ ⟨trivial, rfl⟩ ?_
    refine .call ⟨0, 0⟩ _ ⟨trivial, rfl⟩ ?_
    refine .call (.ok ()) _ ⟨trivial, rfl⟩ ?_
    refine .call (0 : Nat) _ ⟨trivial, rfl⟩ ?_
    refine .receive (.backplane (some (.nodeCompleted "build" false))) _ ⟨trivial, rfl⟩ ?_
    refine .call () _ ⟨trivial, rfl⟩ ?_
    refine .call (.ok true) _ ⟨trivial, rfl⟩ ?_
    exact .here (.inr ⟨"build", by decide⟩)
  obtain ⟨w, p, hr, hf⟩ := h.reaches (starts_fresh (by decide))
  exact ⟨w, p, hr, hf, (failed_run_ends hr hf).2.1⟩

/-- The dispatch of the first of two nodes fails, and the second one is dispatched all the same. -/
theorem failed_run_dispatches :
    ∃ w p, lives.Reaches coordinator w p ∧ w.failed ∧ p.state.failFastEnabled = true ∧
      ∃ runId metadata node pipeline, node.name = "test" ∧
        p.pending = some (.dispatch runId metadata node pipeline) := by
  let pipeline := Pipeline.plain "ci" [.plain "lint" [], .plain "test" []]
  have h : lives.Leads coordinator .new (coordinator.start (freshCoordinator .default "run" pipeline))
      fun w p => w.failed ∧ p.state.failFastEnabled = true ∧
        ∃ runId metadata node pipeline, node.name = "test" ∧
          p.pending = some (.dispatch runId metadata node pipeline) := by
    refine .call () _ rfl ?_
    refine .call (.ok ()) _ rfl ?_
    refine .call () _ rfl ?_
    refine .call () _ rfl ?_
    refine .call ⟨["lint", "test"], by decide⟩ _ rfl ?_
    refine .call (.error (.kube "no such image")) _ rfl ?_
    refine .call (.ok true) _ rfl ?_
    refine .call ⟨0, 0⟩ _ rfl ?_
    refine .call (.ok ()) _ rfl ?_
    exact .here ⟨.inr ⟨"lint", by decide⟩, rfl, _, _, _, _, rfl, rfl⟩
  obtain ⟨w, p, hr, hf⟩ := h.reaches (starts_fresh (by decide)).1
  exact ⟨w, p, hr, hf⟩

end Jefferies.Coordination
