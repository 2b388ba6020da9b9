import Jefferies.Coordination.FailFast
import Jefferies.Interaction.Can

/-!
# Dispatches while a run is rehydrated

Each completion that is folded dispatches what it makes ready, before the other outcomes are looked at. A node
that the stored state has as Pending is then dispatched once more although an outcome shows that it was started.
-/

namespace Jefferies.Coordination

open Pipelines StateStore RunHistory Interaction Interact Coordinator PipelineRun

/-- A coordinator that rehydrates `c₀` and reads the outcomes `m`, up to its first wait. Everything else is
answered freely. -/
def rehydrating (m : HashMap String ReconcileResult) (c₀ : Coordinator) :
    Surroundings Unit Coordinator LoopEvent Resp where
  starts _ c := c = c₀
  answers
    | _, _, .readOutcomes _ _, r, _ => r = some m
    | _, _, _, _, _ => True
  delivers _ _ _ _ := False
  drifts _ _ := False
  restarts _ _ _ := False

/-- The outcomes alone make the node ready, and something else than its own outcome has the ready nodes
dispatched. -/
structure Exposed (c : Coordinator) (m : HashMap String ReconcileResult) (n : String) : Prop where
  reports : Reports m n
  pending : c.run.statuses.lookup n = some .pending
  unblocked : ∀ d ∈ c.run.depsOf n,
    c.run.statuses.lookup d = some .success ∨ (d ≠ n ∧ Completes m d true ∧ Unfinished c.run d)
  triggered : ∃ k, k ≠ n ∧ (Completes m k true ∨ (c.failFastEnabled = false ∧
    (Completes m k false ∨ (Started m k ∧ Started m n ∧ c.run.statuses.lookup k = some .pending))))

/-! ## Stored states -/

/-- The coordinators of one run and its store, one after the other: each may be killed at any moment, and the next
one rehydrates what is stored. -/
def successions : Surroundings (Option RunState) Coordinator LoopEvent Resp where
  starts w c := Begins c ∧ c.isRehydrate = false ∧
    ∀ state, w = some state → state.statuses = c.run.statuses ∧ state.pipeline = c.pipeline
  answers
    | w, _, .saveRun _ state _, _, w' => w' = w ∨ w' = some state
    | w, _, .deleteRun _, _, w' => w' = w ∨ w' = none
    | w, _, _, _, w' => w' = w
  delivers w _ _ w' := w' = w
  drifts _ _ := False
  restarts w c w' := w' = w ∧ ∃ state, w = some state ∧ Begins c ∧ c.run = .fromRunState state ∧
    c.pipeline = state.pipeline

/-- The pipeline declares the nodes of the run and of what is stored of it. -/
def declaring : course.Invariant successions where
  holds _ w c := Declared c.run.statuses c.pipeline ∧ ∀ state, w = some state → Declared state.statuses state.pipeline
  start w c h := by
    obtain ⟨hb, hno, hst⟩ := h
    have hd : Declared c.run.statuses c.pipeline := by
      rcases hb.run with ⟨_, hrun, _⟩ | ⟨hre, _⟩
      · rw [hrun]
        exact declared_new _
      · rw [hno] at hre
        cases hre
    refine ⟨hd, fun state hs => ?_⟩
    obtain ⟨hstat, hp⟩ := hst state hs
    rw [hstat, hp]
    exact hd
  move t w c t' c' h hm := by
    obtain ⟨n, a, _, hmark⟩ := Moves.marks hm
    rw [(Moves.settings hm).1]
    exact ⟨h.1.marks hmark, h.2⟩
  ask t w c e k r w' h hk hr := by
    obtain ⟨n, a, _, hmark⟩ := Asks.marks hk r
    rw [(Asks.settings hk r).1]
    refine ⟨h.1.marks hmark, ?_⟩
    cases hk with
    | save =>
        rintro state rfl
        rcases hr with hr | hr
        · exact h.2 state hr.symm
        · cases hr
          exact h.1
    | idle he =>
        cases he <;>
          · cases hr
            exact h.2
    | part he =>
        cases he with
        | deleteRun =>
            rcases hr with rfl | rfl
            · exact h.2
            · exact fun _ hs => by cases hs
        | _ =>
            cases hr
            exact h.2
    | _ =>
        cases hr
        exact h.2
  deliver _ _ _ _ h hw := by
    obtain rfl := hw
    exact h
  drift _ _ _ _ _ h := h.elim
  restart t w c c' w' h hr := by
    obtain ⟨rfl, state, rfl, hb, hrun, hp⟩ := hr
    rw [hrun, hp]
    exact ⟨h.2 state rfl, h.2⟩

/-- The pipeline of every stored state declares its nodes. -/
theorem stored_declared {state : RunState} {p : Prog Coordinator Resp (Option RunSummary)}
    (h : successions.Reaches coordinator (some state) p) : Declared state.statuses state.pipeline := by
  obtain ⟨t, c, hJ, _⟩ := declaring.reaches Course.describes h
  exact hJ.2 state rfl

/-! ## What the coordinator dispatches -/

/-- The caller has the outcome of the node handled, as a success or a failure. -/
def Caller.causes (c₀ : Coordinator) (m : HashMap String ReconcileResult) (n : String) (success : Bool) :
    Caller → Prop
  | .loop => False
  | .folding _ _ _ => Completes m n success
  | .promoting _ _ => Started m n ∧ c₀.run.statuses.lookup n = some .pending ∧ success = false

/-- Ready nodes are dispatched because of the outcome of a node, which is no longer Pending. -/
def Caller.triggers (c₀ : Coordinator) (m : HashMap String ReconcileResult) (run : PipelineRun) (success : Bool)
    (k : Caller) : Prop :=
  ∃ n, k.causes c₀ m n success ∧ run.statuses.lookup n ≠ some .pending

/-- Ready nodes are dispatched behind the rehydration, or because of an outcome. -/
def Caller.dispatches (c₀ : Coordinator) (m : HashMap String ReconcileResult) (run : PipelineRun) (k : Caller) :
    Prop :=
  k = .loop ∨ ∃ success, (success = true ∨ c₀.failFastEnabled = false) ∧ k.triggers c₀ m run success

def Stage.caused (c₀ : Coordinator) (m : HashMap String ReconcileResult) (run : PipelineRun) : Stage → Prop
  | .taken _ => False
  | .renewing => False
  | .switching _ => False
  | .timing _ => False
  | .failing n _ k => k.causes c₀ m n false
  | .completing n success k => k.causes c₀ m n success
  | .probing n k => k.causes c₀ m n false
  | .saving (.completed n success) k => k.causes c₀ m n success ∧ run.statuses.lookup n ≠ some .pending
  | .saving (.failed n _) k => k.causes c₀ m n false ∧ run.statuses.lookup n ≠ some .pending
  | .saving (.timedOut _) _ => False
  | .saving (.promoted n) k => k.causes c₀ m n false
  | .saving (.started _ _) k => k.dispatches c₀ m run
  | .saving (.refused _ _) k => k.dispatches c₀ m run
  | .registering _ _ k => k.dispatches c₀ m run
  | .recording n _ success k => k.causes c₀ m n success ∧ run.statuses.lookup n ≠ some .pending
  | .settling success k => k.triggers c₀ m run success
  | .dispatch k => k.dispatches c₀ m run
  | .dispatching _ k => k.dispatches c₀ m run
  | .blaming _ _ k => k.dispatches c₀ m run
  | .relieving _ next => next.caused c₀ m run
  | .aborting _ next => next.caused c₀ m run
  | .arming _ _ next => next.caused c₀ m run
  | _ => True

/-- The outcome of the node is still to be looked at. -/
def Caller.left (n : String) : Caller → Prop
  | .loop => False
  | .folding re m rest => re = true ∧ (((∃ b, Completes m n b) ∧ n ∈ rest) ∨ Started m n)
  | .promoting _ rest => n ∈ rest

def Stage.left (n : String) : Stage → Prop
  | .entering => True
  | .gathering re => re = true
  | .reading re names => re = true ∧ n ∈ names
  | .gathered re m => re = true ∧ Reports m n
  | .folding re m names => re = true ∧ (((∃ b, Completes m n b) ∧ n ∈ names) ∨ Started m n)
  | .sifting m => Started m n
  | .promoting _ names => n ∈ names
  | .probing _ k => k.left n
  | .failing _ _ k => k.left n
  | .completing y _ k => n = y ∨ k.left n
  | .saving _ k => k.left n
  | .registering _ _ k => k.left n
  | .recording _ _ _ k => k.left n
  | .settling _ k => k.left n
  | .returned aborted k => aborted = true ∨ k.left n
  | .dispatch k => k.left n
  | .dispatching _ k => k.left n
  | .blaming _ _ k => k.left n
  | .relieving _ next => next.left n
  | .aborting _ next => next.left n
  | .arming _ _ next => next.left n
  | .closing _ => True
  | .concluding _ _ => True
  | .terminated _ _ _ => True
  | .closed _ => True
  | .quitting => True
  | .ended => True
  | _ => False

/-- The invariant of a coordinator `c` that has begun as `c₀`: what it has folded so far, which outcomes it has
still to look at, and why it dispatches. -/
structure Sparing (c₀ : Coordinator) (m : HashMap String ReconcileResult) (t : Stage) (c : Coordinator) : Prop where
  deps : ∀ n, c.run.depsOf n = c₀.run.depsOf n
  cache : c.nodeInfoCache = c₀.nodeInfoCache
  failFast : c.failFastEnabled = c₀.failFastEnabled
  entered : t = .entering → c.isRehydrate = true
  pending : ∀ n, c.run.statuses.lookup n = some .pending → c₀.run.statuses.lookup n = some .pending
  unfinished : ∀ n, Unfinished c.run n → Unfinished c₀.run n
  success : ∀ n, c.run.statuses.lookup n = some .success →
    c₀.run.statuses.lookup n = some .success ∨ (Completes m n true ∧ Unfinished c₀.run n)
  lined : t.Lined c
  within : t.within m
  left : ∀ n, Reports m n → c.run.statuses.lookup n = some .pending → t.left n
  caused : t.caused c₀ m c.run

variable {c₀ c c' : Coordinator} {m : HashMap String ReconcileResult} {t t' : Stage} {n : String}

theorem Caller.triggers.marks {run run' : PipelineRun} {success : Bool} {k : Caller} {y : String} {a : NodeStatus}
    (h : k.triggers c₀ m run success) (hm : Marks run run' y a) (ha : a ≠ .pending) :
    k.triggers c₀ m run' success := by
  obtain ⟨n, hn, hp⟩ := h
  exact ⟨n, hn, fun hp' => hp (hm.pending ha hp')⟩

theorem Caller.dispatches.marks {run run' : PipelineRun} {k : Caller} {y : String} {a : NodeStatus}
    (h : k.dispatches c₀ m run) (hm : Marks run run' y a) (ha : a ≠ .pending) : k.dispatches c₀ m run' := by
  rcases h with h | ⟨success, hs, h⟩
  · exact .inl h
  · exact .inr ⟨success, hs, h.marks hm ha⟩

theorem Moves.caused (hm : Moves t c t' c') (h : Sparing c₀ m t c) : t'.caused c₀ m c'.run := by
  have hc := h.caused
  cases hm with
  | event => exact hc.elim
  | late => exact hc.elim
  | time => exact hc.elim
  | switched => exact hc.elim
  | switch => exact hc.elim
  | fold hn => exact h.within.completes ⟨_, _, hn⟩
  | @promote _ _ n _ hn =>
      refine ⟨h.within.1.started (h.within.2 n List.mem_cons_self), ?_, rfl⟩
      exact h.pending n (markRunning_fst.mp hn)
  | @fail _ n => exact ⟨hc, (lookup_markFailed c.run n).2⟩
  | @succeed _ n => exact ⟨hc, (lookup_markSuccess c.run n).2⟩
  | @unsucceed _ n => exact ⟨hc, (lookup_markFailed c.run n).2⟩
  | goesOn hb =>
      refine .inr ⟨_, ?_, hc⟩
      rw [← h.failFast]
      exact hb
  | unknown => exact hc.marks (marks_markDispatchFailed _ _) (by decide)
  | unarmed => exact hc
  | relieve => exact hc
  | _ => trivial

theorem Moves.left (hm : Moves t c t' c') (h : Sparing c₀ m t c) (hn : Reports m n)
    (hp : c'.run.statuses.lookup n = some .pending) : t'.left n := by
  have hc := h.caused
  have hl : t.left n := by
    obtain ⟨_, _, ha, hmark⟩ := hm.marks
    exact h.left n hn (hmark.pending ha hp)
  cases hm with
  | rehydrates => rfl
  | begins hre =>
      rw [h.entered rfl] at hre
      cases hre
  | event => exact hc.elim
  | waits => exact hl.resolve_left (by simp)
  | folds => exact hl.resolve_left (by simp)
  | promotes => exact hl.resolve_left (by simp)
  | unread => exact absurd hl.2 List.not_mem_nil
  | folded => exact hl.2.resolve_left fun ho => List.not_mem_nil ho.2
  | reconciled => cases hl.1
  | @skip _ _ m' y rest hy =>
      refine ⟨hl.1, hl.2.imp_left ?_⟩
      rintro ⟨⟨b, s, f, ho⟩, hmem⟩
      rcases List.mem_cons.mp hmem with rfl | hmem
      · exact absurd ho (hy b s f)
      · exact ⟨⟨b, s, f, ho⟩, hmem⟩
  | @fold _ _ m' y rest =>
      obtain ⟨hre, ⟨ho, hmem⟩ | hs⟩ := hl
      · rcases List.mem_cons.mp hmem with rfl | hmem
        · exact .inl rfl
        · exact .inr ⟨hre, .inl ⟨ho, hmem⟩⟩
      · exact .inr ⟨hre, .inr hs⟩
  | promoted => exact absurd hl List.not_mem_nil
  | unpromoted hy =>
      apply List.mem_of_ne_of_mem _ hl
      rintro rfl
      rw [markRunning_fst.mpr hp] at hy
      cases hy
  | @promote _ _ y =>
      apply List.mem_of_ne_of_mem _ hl
      rintro rfl
      exact lookup_markRunning _ _ hp
  | switched => exact hc.elim
  | switch => exact hc.elim
  | late => exact hc.elim
  | time => exact hc.elim
  | ignore => exact .inr hl
  | fail => exact hl
  | succeed =>
      apply hl.resolve_left
      rintro rfl
      exact (lookup_markSuccess _ _).2 hp
  | unsucceed =>
      apply hl.resolve_left
      rintro rfl
      exact (lookup_markFailed _ _).2 hp
  | failFast => exact .inl rfl
  | dispatched => exact .inr hl
  | _ => first | exact hl | trivial

/-- Only a completion makes a node Success. -/
theorem Moves.succeeds (hm : Moves t c t' c') (hn : c'.run.statuses.lookup n = some .success) :
    c.run.statuses.lookup n = some .success ∨ (Unfinished c.run n ∧ ∃ k, t = .completing n true k) := by
  have hold : ∀ {y a}, Marks c.run c'.run y a → a ≠ .success → c.run.statuses.lookup n = some .success :=
    fun hmark ha => (hmark.lookup_eq hn).resolve_right fun he => ha he.2.symm
  cases hm with
  | promote => exact .inl (hold (marks_markRunning _ _) (by decide))
  | time => exact .inl (hold (marks_markFailed _ _) (by decide))
  | fail => exact .inl (hold (marks_markFailed _ _) (by decide))
  | unsucceed => exact .inl (hold (marks_markFailed _ _) (by decide))
  | unknown => exact .inl (hold (marks_markDispatchFailed _ _) (by decide))
  | terminated => exact .inl (hold (marks_markFailed _ _) (by decide))
  | @succeed _ y k =>
      rcases marks_markSuccess c.run y with hsame | ⟨hs, hset⟩
      · rw [show (c.setRun (c.run.markSuccess y).2).run = c.run from hsame] at hn
        exact .inl hn
      · by_cases he : n = y
        · subst he
          exact .inr ⟨hs, k, rfl⟩
        · rw [show (c.setRun (c.run.markSuccess y).2).run = _ from hset,
            Finmap.lookup_insert_of_ne _ he] at hn
          exact .inl hn
  | _ => exact .inl hn

theorem Moves.sparing (hm : Moves t c t' c') (h : Sparing c₀ m t c) : Sparing c₀ m t' c' := by
  obtain ⟨y, a, ha, hmark⟩ := hm.marks
  obtain ⟨hp, hcache, hff⟩ := hm.settings
  constructor
  · exact fun n => (hmark.depsOf n).trans (h.deps n)
  · rw [hcache, h.cache]
  · rw [hff, h.failFast]
  · exact fun ht => absurd ht hm.ne_entering
  · exact fun n hn => h.pending n (hmark.pending ha hn)
  · exact fun n hn => h.unfinished n (hmark.unfinished hn)
  · intro n hn
    rcases hm.succeeds hn with hold | ⟨hs, k, rfl⟩
    · exact h.success n hold
    · refine .inr ⟨?_, h.unfinished n hs⟩
      have hc : k.causes c₀ m n true := h.caused
      cases k with
      | loop => exact hc.elim
      | folding => exact hc
      | promoting => cases hc.2.2
  · exact hm.lined h.lined
  · exact hm.within h.within
  · exact fun n => hm.left h
  · exact hm.caused h

/-! ## What it asks for -/

theorem next_caused {change : Change} {k : Caller} {run : PipelineRun} (b : Bool)
    (h : (Stage.saving change k).caused c₀ m run) : (change.next k b).caused c₀ m run := by
  cases change with
  | timedOut n => exact h.elim
  | _ => cases b <;> first | exact h | trivial

theorem dispatched_caused {k : Caller} {rest : List String} (r : Except DispatchError Unit)
    (h : k.dispatches c₀ m c.run) :
    (Stage.dispatched c.run n rest k r).caused c₀ m (afterDispatch c n r).run := by
  cases r with
  | error e => exact h.marks (marks_markDispatchFailed _ _) (by decide)
  | ok _ =>
      have h' := h.marks (marks_markRunning c.run n) (by decide)
      show (if _ then _ else _ : Stage).caused c₀ m _
      split <;> exact h'

theorem Asks.caused {e : Effect} {k : Resp e → Stage × Coordinator} (hk : Asks t c e k)
    (h : t.caused c₀ m c.run) (r : Resp e) : (k r).1.caused c₀ m (k r).2.run := by
  cases hk with
  | idle => exact h
  | renew => exact h.elim
  | subscribe =>
      rcases r with e | ⟨⟩
      · trivial
      · exact .inl rfl
  | probe => rcases r with e | _ | _ <;> first | exact h | trivial
  | save =>
      rw [afterSave_run]
      exact next_caused _ h
  | record => exact ⟨_, h⟩
  | blame => exact h
  | ready => exact h
  | dispatch => exact dispatched_caused r h
  | abort => exact h
  | arm => exact h
  | _ => trivial

theorem next_left {change : Change} {k : Caller} (b : Bool) (h : k.left n) : (change.next k b).left n := by
  cases change <;> cases b <;> first | exact h | exact .inl rfl

theorem dispatched_left {run : PipelineRun} {k : Caller} {y : String} {rest : List String}
    (r : Except DispatchError Unit) (h : k.left n) : (Stage.dispatched run y rest k r).left n := by
  cases r with
  | error e => exact h
  | ok _ =>
      show (if _ then _ else _ : Stage).left n
      split <;> exact h

theorem Asks.left {e : Effect} {r : Resp e} {k : Resp e → Stage × Coordinator} (hk : Asks t c e k)
    (h : Sparing c₀ m t c) (hr : (rehydrating m c₀).answers () c e r ()) (hn : Reports m n)
    (hp : c.run.statuses.lookup n = some .pending) : (k r).1.left n := by
  have hl := h.left n hn hp
  cases hk with
  | idle => exact hl
  | renew => exact hl.elim
  | subscribe => exact hl.elim
  | gather =>
      refine ⟨hl, ?_⟩
      have hmem : n ∈ c.run.nodesWith isNonTerminal := mem_nodesWith.mpr ⟨_, hp, rfl⟩
      rw [← r.2.2] at hmem
      exact List.mem_toFinset.mp hmem
  | read =>
      obtain rfl : r = some m := hr
      exact ⟨hl.1, hn⟩
  | @walk _ re m' =>
      refine ⟨hl.1, ?_⟩
      rcases hl.2 with ⟨b, ho⟩ | hs
      · refine .inl ⟨⟨b, ho⟩, ?_⟩
        obtain ⟨s, f, ho⟩ := ho
        have hmem : n ∈ m'.keys := HashMap.mem_keys_iff_lookup.mpr ⟨_, ho⟩
        rw [← r.2.2] at hmem
        exact List.mem_toFinset.mp hmem
      · exact .inr hs
  | @sift _ m' =>
      obtain ⟨s, hs⟩ := hl
      have hmem : n ∈ m'.keys := HashMap.mem_keys_iff_lookup.mpr ⟨_, hs⟩
      rw [← r.2.2] at hmem
      apply List.mem_filter.mpr
      exact ⟨List.mem_toFinset.mp hmem, by simp [isPromotable, hs, hp]⟩
  | probe => rcases r with e | _ | _ <;> first | exact hl | exact .inr hl
  | clock => exact hl.elim
  | rearm => exact hl.elim
  | save => exact next_left _ hl
  | dispatch => exact dispatched_left r hl
  | _ => exact hl

theorem rehydrating_lastOutcomes {e : Effect} {r : Resp e} (hr : (rehydrating m c₀).answers () c e r ()) :
    lastOutcomes m e r = m := by
  cases e with
  | readOutcomes =>
      obtain rfl : r = some m := hr
      rfl
  | _ => rfl

theorem Asks.sparing {e : Effect} {r : Resp e} {k : Resp e → Stage × Coordinator} (hk : Asks t c e k)
    (h : Sparing c₀ m t c) (hr : (rehydrating m c₀).answers () c e r ()) :
    Sparing c₀ m (k r).1 (k r).2 := by
  obtain ⟨y, a, ⟨has, hap⟩, hmark⟩ := hk.marks r
  obtain ⟨hp, hcache, hff⟩ := hk.settings r
  constructor
  · exact fun n => (hmark.depsOf n).trans (h.deps n)
  · rw [hcache, h.cache]
  · rw [hff, h.failFast]
  · intro ht
    obtain ⟨hold, hc⟩ := hk.ne_entering r ht
    rw [hc]
    exact h.entered hold
  · exact fun n hn => h.pending n (hmark.pending hap hn)
  · exact fun n hn => h.unfinished n (hmark.unfinished hn)
  · exact fun n hn => h.success n ((hmark.lookup_eq hn).resolve_right fun he => has he.2.symm)
  · exact hk.lined h.lined r
  · have hw := hk.within h.within r
    rwa [rehydrating_lastOutcomes hr] at hw
  · exact fun n hn hpend => hk.left h hr hn (hmark.pending hap hpend)
  · exact hk.caused h.caused r

/-- The coordinator that rehydrates `c₀` and reads `m`. -/
def redispatching (m : HashMap String ReconcileResult) {c₀ : Coordinator} (hre : c₀.isRehydrate = true) :
    course.Invariant (rehydrating m c₀) where
  holds t _ c := Sparing c₀ m t c
  start w c h := by
    obtain rfl := h
    exact ⟨fun _ => rfl, rfl, rfl, fun _ => hre, fun _ => id, fun _ => id, fun _ => .inl, lined_nil rfl, trivial,
      fun _ _ _ => trivial, trivial⟩
  move _ _ _ _ _ h hm := Moves.sparing hm h
  ask _ _ _ _ _ _ _ h hk hr := Asks.sparing hk h hr
  deliver _ _ _ _ _ h := h.elim
  drift _ _ _ _ _ h := h.elim
  restart _ _ _ _ _ _ h := h.elim

/-- A node that is dispatched although the outcomes report it was exposed. -/
theorem Sparing.exposed {rest : List String} {k : Caller}
    (h : Sparing c₀ m (.dispatching (n :: rest) k) c) (hn : Reports m n) : Exposed c₀ m n := by
  obtain ⟨hp, hdeps⟩ := mem_readyNodes.mp (h.lined.2 n List.mem_cons_self)
  have hleft : k.left n := h.left n hn hp
  have hc : k.dispatches c₀ m c.run := h.caused
  refine ⟨hn, h.pending n hp, ?_, ?_⟩
  · intro d hd
    rw [← h.deps n] at hd
    refine (h.success d (hdeps d hd)).imp_right fun ho => ⟨?_, ho⟩
    rintro rfl
    rw [hdeps d hd] at hp
    cases hp
  · rcases hc with rfl | ⟨b, hb, y, hy, hypend⟩
    · exact hleft.elim
    · have hne : y ≠ n := by
        rintro rfl
        exact hypend hp
      refine ⟨y, hne, ?_⟩
      cases k with
      | loop => exact hy.elim
      | folding re m' names =>
          cases b with
          | true => exact .inl hy
          | false => exact .inr ⟨hb.resolve_left (by simp), .inl hy⟩
      | promoting m' names =>
          obtain ⟨hs, hypend₀, rfl⟩ := hy
          refine .inr ⟨hb.resolve_left (by simp), .inr ⟨hs, ?_, hypend₀⟩⟩
          exact h.within.1.started (h.within.2 n hleft)

theorem spares_of_unexposed (hb : Begins c₀) (hre : c₀.isRehydrate = true) (hx : ∀ n, ¬Exposed c₀ m n)
    {w : Unit} {p : Prog Coordinator Resp (Option RunSummary)}
    (h : (rehydrating m c₀).Reaches coordinator w p) {runId : String} {metadata : RunMetadata}
    {node : NodeInfo} {pipeline : Pipeline} (hp : p.pending = some (.dispatch runId metadata node pipeline)) :
    ¬Reports m node.name := by
  cases p with
  | ret => cases hp
  | call c e k =>
      cases hp
      obtain ⟨t, k', hJ, hk⟩ := (redispatching m hre).calling Course.describes h
      cases hk with
      | idle he => cases he
      | part he => cases he
      | @dispatch _ n rest k info hinfo =>
          rw [hJ.cache] at hinfo
          rw [hb.named n _ hinfo]
          exact fun hn => hx n (hJ.exposed hn)

end Jefferies.Coordination
