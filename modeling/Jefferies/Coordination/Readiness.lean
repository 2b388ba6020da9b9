import Jefferies.Coordination.Course

/-!
# Ready nodes

Nothing is ready where a coordinator waits, and some node runs. Every handler that makes nodes ready
dispatches them before it returns.
-/

namespace Jefferies.Coordination

open Pipelines StateStore RunHistory Interaction Coordinator PipelineRun

namespace Stage

/-- In the stage the node may be ready. -/
def awaits (n : String) : Stage → Prop
  | .waiting => False
  | .taken _ => False
  | .renewing => False
  | .switching _ => False
  | .timing _ => False
  | .returned aborted k => aborted = true ∨ k.rehydrates = true
  | .gathering re => re = true
  | .reading re _ => re = true
  | .gathered re _ => re = true
  | .folding re _ _ => re = true
  | .failing _ _ k => k.rehydrates = true
  | .completing _ _ k => k.rehydrates = true
  | .saving (.promoted _) k => k.rehydrates = true
  | .probing _ k => k.rehydrates = true
  | .saving (.started _ rest) _ => n ∈ rest
  | .saving (.refused _ rest) _ => n ∈ rest
  | .registering _ rest _ => n ∈ rest
  | .blaming _ rest _ => n ∈ rest
  | .dispatching names _ => n ∈ names
  | .relieving _ next => next.awaits n
  | .aborting _ next => next.awaits n
  | .arming _ _ next => next.awaits n
  | _ => True

/-- The run is as it was when the coordinator last waited. -/
def awake : Stage → Prop
  | .waiting => True
  | .taken _ => True
  | .renewing => True
  | .switching _ => True
  | .relieving _ next => next.awake
  | .aborting _ next => next.awake
  | .arming _ _ next => next.awake
  | _ => False

/-- Only nodes that the stage awaits are ready, and the run was not complete when the coordinator last
waited. -/
def Settled (t : Stage) (c : Coordinator) : Prop :=
  (∀ n ∈ c.run.readyNodes, t.awaits n) ∧ (t.awake → c.run.isComplete = false)

end Stage

open Stage

variable {t t' : Stage} {c c' : Coordinator}

theorem Stage.Settled.of_run {t : Stage} (h : t.Settled c) (hrun : c'.run = c.run) : t.Settled c' := by
  unfold Stage.Settled
  rw [hrun]
  exact h

/-- A stage in which anything may be ready and that does not follow a wait at once. -/
theorem settled_of_awaits (ha : ∀ n, t.awaits n) (hw : ¬t.awake) : t.Settled c :=
  ⟨fun n _ => ha n, fun h => absurd h hw⟩

/-- The run stays, and the new stage awaits what the old one does. -/
theorem Stage.Settled.next (h : t.Settled c) (hrun : c'.run = c.run) (ha : ∀ n, t.awaits n → t'.awaits n)
    (hw : t'.awake → t.awake) : t'.Settled c' := by
  unfold Stage.Settled
  rw [hrun]
  exact ⟨fun n hn => ha n (h.1 n hn), fun h' => h.2 (hw h')⟩

theorem Moves.settled (hm : Moves t c t' c') (h : t.Settled c) : t'.Settled c' := by
  cases hm with
  | rehydrates => exact settled_of_awaits (fun _ => rfl) id
  | begins => exact settled_of_awaits (fun _ => trivial) id
  | event event => exact ⟨fun n hn => (h.1 n hn).elim, fun _ => h.2 trivial⟩
  | aborts => exact settled_of_awaits (fun _ => trivial) id
  | completes => exact settled_of_awaits (fun _ => trivial) id
  | waits hc => exact ⟨fun n hn => by simpa [awaits, Caller.rehydrates] using h.1 n hn, fun _ => hc⟩
  | folds => exact h.next rfl (by simp [awaits, Caller.rehydrates]) id
  | promotes => exact settled_of_awaits (fun _ => trivial) id
  | unread => exact h.next rfl (fun _ => id) id
  | folded => exact settled_of_awaits (fun _ => trivial) id
  | reconciled => exact h.next rfl (by simp [awaits]) id
  | skip => exact h.next rfl (fun _ => id) id
  | fold => exact h.next rfl (fun _ => id) id
  | promoted => exact settled_of_awaits (fun _ => trivial) id
  | unpromoted => exact settled_of_awaits (fun _ => trivial) id
  | promote => exact settled_of_awaits (fun _ => rfl) id
  | rearm => exact settled_of_awaits (fun _ => trivial) id
  | rehydrated => exact settled_of_awaits (fun _ => trivial) id
  | stalled => exact settled_of_awaits (fun _ => trivial) id
  | switched => exact h.next rfl (fun _ => id) id
  | switch => exact h.next rfl (fun _ => id) id
  | late => exact h.next rfl (by simp [awaits]) id
  | time => exact settled_of_awaits (fun _ => trivial) id
  | ignore => exact h.next rfl (fun _ => .inr) id
  | fail => exact settled_of_awaits (fun _ => trivial) id
  | succeed => exact settled_of_awaits (fun _ => trivial) id
  | unsucceed => exact settled_of_awaits (fun _ => trivial) id
  | failFast => exact settled_of_awaits (fun _ => .inl rfl) id
  | goesOn => exact settled_of_awaits (fun _ => trivial) id
  | dispatched => exact h.next rfl (by simp [awaits]) id
  | unknown =>
      refine ⟨fun n hn => ?_, False.elim⟩
      obtain ⟨hold, hne⟩ := ready_markDispatchFailed hn
      exact (List.mem_cons.mp (h.1 n hold)).resolve_left hne
  | unarmed => exact h
  | relieve => exact h.next rfl (fun _ => id) id
  | terminated => exact settled_of_awaits (fun _ => trivial) id
  | relieves => exact settled_of_awaits (fun _ => trivial) id
  | unwatches => exact settled_of_awaits (fun _ => trivial) id
  | ends => exact settled_of_awaits (fun _ => trivial) id
  | leaves => exact settled_of_awaits (fun _ => trivial) id
  | gone => exact settled_of_awaits (fun _ => trivial) id

@[simp] theorem afterSave_run (c : Coordinator) (r : Except StateStoreError Bool) :
    (afterSave c r).run = c.run := by
  rcases r with _ | _ | _ <;> rfl

/-- Behind a dispatch the node is no longer ready. -/
theorem dispatched_settled {n : String} {rest : List String} {k : Caller}
    (h : (Stage.dispatching (n :: rest) k).Settled c) (r : Except DispatchError Unit) :
    (Stage.dispatched c.run n rest k r).Settled (afterDispatch c n r) := by
  cases r with
  | error e =>
      refine ⟨fun m hm => ?_, False.elim⟩
      obtain ⟨hold, hne⟩ := ready_markDispatchFailed hm
      exact (List.mem_cons.mp (h.1 m hold)).resolve_left hne
  | ok _ =>
      have hrest : ∀ m ∈ (c.run.markRunning n).2.readyNodes, m ∈ rest := by
        intro m hm
        obtain ⟨hold, hne⟩ := ready_markRunning hm
        exact (List.mem_cons.mp (h.1 m hold)).resolve_left hne
      show Stage.Settled (if _ then _ else _) _
      split
      · exact ⟨hrest, False.elim⟩
      · exact ⟨hrest, False.elim⟩

theorem saved_settled {change : Change} {k : Caller} (h : (Stage.saving change k).Settled c) (b : Bool) :
    (change.next k b).Settled c := by
  cases change with
  | completed n success => cases b <;> exact settled_of_awaits (by simp [Change.next, awaits]) id
  | failed n reason => cases b <;> exact settled_of_awaits (by simp [Change.next, awaits]) id
  | timedOut n => cases b <;> exact settled_of_awaits (by simp [Change.next, awaits]) id
  | promoted n => exact h.next rfl (fun _ => id) id
  | started n rest => exact h.next rfl (fun _ => id) id
  | refused n rest => exact h.next rfl (fun _ => id) id

theorem Asks.settled {e : Effect} {k : Resp e → Stage × Coordinator} (hk : Asks t c e k) (h : t.Settled c)
    (r : Resp e) : (k r).1.Settled (k r).2 := by
  cases hk with
  | idle => exact h
  | renew =>
      show Stage.Settled (if accepted r then .waiting else .quitting) c
      split
      · exact h.next rfl (fun _ => id) id
      · exact settled_of_awaits (fun _ => trivial) id
  | subscribe =>
      rcases r with e | ⟨⟩
      · exact settled_of_awaits (fun _ => trivial) id
      · exact settled_of_awaits (fun _ => trivial) id
  | gather => exact h.next rfl (fun _ => id) id
  | read => exact h.next rfl (fun _ => id) id
  | walk => exact h.next rfl (fun _ => id) id
  | sift => exact settled_of_awaits (fun _ => trivial) id
  | probe =>
      rcases r with e | _ | _
      · exact h.next rfl (fun _ => .inr) id
      · exact h.next rfl (fun _ => id) id
      · exact h.next rfl (fun _ => .inr) id
  | clock => exact settled_of_awaits (fun _ => trivial) id
  | rearm => exact settled_of_awaits (fun _ => trivial) id
  | save => exact (saved_settled h _).next (afterSave_run c r) (fun _ => id) id
  | register => exact h.next rfl (fun _ => id) id
  | record => exact settled_of_awaits (fun _ => trivial) id
  | blame => exact h.next rfl (fun _ => id) id
  | ready =>
      refine ⟨fun n hn => ?_, False.elim⟩
      rw [← r.2.2] at hn
      exact List.mem_toFinset.mp hn
  | dispatch => exact dispatched_settled h r
  | abort => exact h
  | arm => exact h.next rfl (fun _ => id) id
  | close => exact settled_of_awaits (fun _ => trivial) id
  | terminate => exact settled_of_awaits (fun _ => trivial) id
  | conclude => exact settled_of_awaits (fun _ => trivial) id
  | part => exact settled_of_awaits (fun _ => trivial) id

variable {W : Type}

/-- Whatever surrounds a coordinator, only nodes that its stage awaits are ready. -/
def readiness (sur : Surroundings W Coordinator LoopEvent Resp) : course.Invariant sur where
  holds t _ c := t.Settled c
  start _ _ _ := settled_of_awaits (fun _ => trivial) id
  move _ _ _ _ _ h hm := Moves.settled hm h
  ask _ _ _ _ _ r _ h hk _ := Asks.settled hk h r
  deliver _ _ _ _ h _ := h.next rfl (fun _ => id) id
  drift _ _ _ _ h _ := h
  restart _ _ _ _ _ _ _ := settled_of_awaits (fun _ => trivial) id

/-- In every run, a coordinator that waits has no ready node and some Running one. -/
theorem waiting_settled {sur : Surroundings W Coordinator LoopEvent Resp} {w : W}
    (h : sur.Reaches coordinator w (.ret c none)) :
    c.run.readyNodes = ∅ ∧ ∃ n, c.run.statuses.lookup n = some .running := by
  have hs : Stage.waiting.Settled c := (readiness sur).waiting Course.describes h
  have hready : c.run.readyNodes = ∅ := Finset.eq_empty_of_forall_notMem hs.1
  refine ⟨hready, ?_⟩
  by_contra hno
  have hcomplete : c.run.isComplete = true := isComplete_iff.mpr ⟨not_exists.mp hno, hready⟩
  rw [hs.2 trivial] at hcomplete
  cases hcomplete

/-! ## Nodes in line -/

theorem toList_eq_nil {names : Finset String} (order : Ordering names) (h : names = ∅) : order.1 = [] := by
  rw [← List.toFinset_eq_empty_iff, order.2.2, h]

namespace Stage

/-- The nodes that are still to be dispatched in the stage. -/
def lined : Stage → List String
  | .dispatching names _ => names
  | .saving (.started _ rest) _ => rest
  | .saving (.refused _ rest) _ => rest
  | .registering _ rest _ => rest
  | .blaming _ rest _ => rest
  | .relieving _ next => next.lined
  | .aborting _ next => next.lined
  | .arming _ _ next => next.lined
  | _ => []

/-- The nodes in line are ready, and each is there once. -/
def Lined (t : Stage) (c : Coordinator) : Prop := t.lined.Nodup ∧ ∀ n ∈ t.lined, n ∈ c.run.readyNodes

end Stage

theorem lined_nil (h : t.lined = []) : t.Lined c := by
  rw [Lined, h]
  exact ⟨.nil, fun n hn => (List.not_mem_nil hn).elim⟩

theorem Stage.Lined.next (h : t.Lined c) (ht : t'.lined = t.lined) (hrun : c'.run = c.run) : t'.Lined c' := by
  rw [Lined, ht, hrun]
  exact h

/-- The head of the line was marked. -/
theorem Stage.Lined.mark {n : String} {rest names : List String} {k : Caller} {a : NodeStatus}
    (h : (Stage.dispatching (n :: rest) k).Lined c) (hm : Marks c.run c'.run n a) (ht : t'.lined = names)
    (hnames : names = rest) : t'.Lined c' := by
  obtain ⟨hn, hrest⟩ := List.nodup_cons.mp h.1
  rw [Lined, ht, hnames]
  refine ⟨hrest, fun m hmem => ?_⟩
  have hne : m ≠ n := by
    rintro rfl
    exact hn hmem
  exact hm.ready_stays hne (h.2 m (List.mem_cons_of_mem _ hmem))

theorem Moves.lined (hm : Moves t c t' c') (h : t.Lined c) : t'.Lined c' := by
  cases hm with
  | unknown => exact h.mark (marks_markDispatchFailed _ _) rfl rfl
  | unarmed => exact h
  | relieve => exact h.next rfl rfl
  | event event =>
      apply lined_nil
      rcases event with _ | _ | _ | (_ | (_ | _ | _ | _)) | (_ | (_ | _)) <;> rfl
  | _ => exact lined_nil rfl

theorem next_lined (change : Change) (k : Caller) (b : Bool) :
    (change.next k b).lined = (Stage.saving change k).lined := by
  cases change <;> cases b <;> rfl

theorem dispatched_lined (run : PipelineRun) (n : String) (rest : List String) (k : Caller)
    (r : Except DispatchError Unit) : (Stage.dispatched run n rest k r).lined = rest := by
  cases r with
  | error e => rfl
  | ok _ =>
      show (if _ then _ else _ : Stage).lined = rest
      split <;> rfl

theorem marks_afterDispatch (c : Coordinator) (n : String) (r : Except DispatchError Unit) :
    ∃ a, (a ≠ .success ∧ a ≠ .pending) ∧ Marks c.run (afterDispatch c n r).run n a := by
  cases r with
  | error e => exact ⟨.failed, by decide, marks_markDispatchFailed _ _⟩
  | ok _ => exact ⟨.running, by decide, marks_markRunning _ _⟩

theorem Asks.lined {e : Effect} {k : Resp e → Stage × Coordinator} (hk : Asks t c e k) (h : t.Lined c)
    (r : Resp e) : (k r).1.Lined (k r).2 := by
  cases hk with
  | idle => exact h
  | save => exact h.next (next_lined _ _ _) (afterSave_run _ _)
  | register => exact h.next rfl rfl
  | blame => exact h.next rfl rfl
  | ready =>
      refine ⟨r.2.1, fun n (hn : n ∈ r.1) => ?_⟩
      rw [← r.2.2]
      exact List.mem_toFinset.mpr hn
  | dispatch =>
      obtain ⟨a, _, ha⟩ := marks_afterDispatch c _ r
      exact h.mark ha (dispatched_lined _ _ _ _ _) rfl
  | abort => exact h
  | arm => exact h.next rfl rfl
  | renew =>
      apply lined_nil
      show (if _ then _ else _ : Stage).lined = []
      split <;> rfl
  | subscribe => rcases r with e | ⟨⟩ <;> exact lined_nil rfl
  | probe => rcases r with e | _ | _ <;> exact lined_nil rfl
  | _ => exact lined_nil rfl

/-- Whatever surrounds a coordinator, the nodes in line are ready. -/
def lining (sur : Surroundings W Coordinator LoopEvent Resp) : course.Invariant sur where
  holds t _ c := t.Lined c
  start _ _ _ := lined_nil rfl
  move _ _ _ _ _ h hm := Moves.lined hm h
  ask _ _ _ _ _ r _ h hk _ := Asks.lined hk h r
  deliver _ _ _ _ _ _ := lined_nil rfl
  drift _ _ _ _ h _ := h
  restart _ _ _ _ _ _ _ := lined_nil rfl

end Jefferies.Coordination
