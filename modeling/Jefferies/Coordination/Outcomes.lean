import Jefferies.Coordination.DependencyOrder
import Jefferies.Coordination.Readiness

/-!
# Outcomes in hand

A coordinator reads outcomes, folds the completions among them and, while it rehydrates, promotes the nodes they
show as started. Until it reads again, it goes by what it has read.
-/

namespace Jefferies.Coordination

open Pipelines StateStore RunHistory Interaction Interact Coordinator PipelineRun

def Completes (outcomes : HashMap String ReconcileResult) (node : String) (success : Bool) : Prop :=
  ∃ startedAtMs finishedAtMs, outcomes.lookup node = some (.completed success startedAtMs finishedAtMs)

def Started (outcomes : HashMap String ReconcileResult) (node : String) : Prop :=
  ∃ startedAtMs, outcomes.lookup node = some (.inProgress startedAtMs)

/-- What is in `outcomes` is also in `known`. -/
def Within (outcomes known : HashMap String ReconcileResult) : Prop :=
  ∀ n r, outcomes.lookup n = some r → known.lookup n = some r

/-- The outcomes that were read last. -/
def lastOutcomes (known : HashMap String ReconcileResult) : (e : Effect) → Resp e → HashMap String ReconcileResult
  | .readOutcomes _ _, r => r.getD ∅
  | _, _ => known

/-- What the caller is still to look at is in the outcomes. -/
def Caller.within (known : HashMap String ReconcileResult) : Caller → Prop
  | .loop => True
  | .folding _ m _ => Within m known
  | .promoting m rest => Within m known ∧ ∀ n ∈ rest, Started m n

def Stage.within (known : HashMap String ReconcileResult) : Stage → Prop
  | .gathered _ m => Within m known
  | .folding _ m _ => Within m known
  | .sifting m => Within m known
  | .promoting m names => Within m known ∧ ∀ n ∈ names, Started m n
  | .probing _ k => k.within known
  | .returned _ k => k.within known
  | .failing _ _ k => k.within known
  | .completing _ _ k => k.within known
  | .saving _ k => k.within known
  | .registering _ _ k => k.within known
  | .recording _ _ _ k => k.within known
  | .settling _ k => k.within known
  | .dispatch k => k.within known
  | .dispatching _ k => k.within known
  | .blaming _ _ k => k.within known
  | .relieving _ next => next.within known
  | .aborting _ next => next.within known
  | .arming _ _ next => next.within known
  | _ => True

variable {t t' : Stage} {c c' : Coordinator} {n : String} {known m : HashMap String ReconcileResult}

theorem Within.completes {b : Bool} (h : Within m known) (hn : Completes m n b) : Completes known n b := by
  obtain ⟨s, f, hn⟩ := hn
  exact ⟨s, f, h n _ hn⟩

theorem Within.started (h : Within m known) (hn : Started m n) : Started known n := by
  obtain ⟨s, hn⟩ := hn
  exact ⟨s, h n _ hn⟩

theorem within_empty : Within ∅ known := by
  intro n r hr
  simp at hr

/-- A node that is to be promoted is one that the outcomes show as started. -/
theorem started_of_promotable {run : PipelineRun} (h : isPromotable run m n = true) : Started m n := by
  unfold isPromotable at h
  split at h
  · exact ⟨_, ‹_›⟩
  · cases h

theorem Moves.within (hm : Moves t c t' c') (h : t.within known) : t'.within known := by
  cases hm with
  | event event => rcases event with _ | _ | _ | (_ | (_ | _ | _ | _)) | (_ | (_ | _)) <;> trivial
  | unread => exact within_empty
  | promoted => trivial
  | unpromoted => exact ⟨h.1, fun n hn => h.2 n (List.mem_cons_of_mem _ hn)⟩
  | promote => exact ⟨h.1, fun n hn => h.2 n (List.mem_cons_of_mem _ hn)⟩
  | _ => first | exact h | trivial

theorem next_within {change : Change} {k : Caller} (b : Bool) (h : k.within known) :
    (change.next k b).within known := by
  cases change <;> cases b <;> exact h

theorem dispatched_within {run : PipelineRun} {rest : List String} {k : Caller} (r : Except DispatchError Unit)
    (h : k.within known) : (Stage.dispatched run n rest k r).within known := by
  cases r with
  | error e => exact h
  | ok _ =>
      show (if _ then _ else _ : Stage).within known
      split <;> exact h

theorem Asks.within {e : Effect} {k : Resp e → Stage × Coordinator} (hk : Asks t c e k) (h : t.within known)
    (r : Resp e) : (k r).1.within (lastOutcomes known e r) := by
  cases hk with
  | idle he => cases he <;> exact h
  | read => exact fun _ _ => id
  | subscribe => rcases r with e | ⟨⟩ <;> trivial
  | renew =>
      show (if _ then _ else _ : Stage).within _
      split <;> trivial
  | save => exact next_within _ h
  | dispatch => exact dispatched_within r h
  | probe => rcases r with e | _ | _ <;> exact h
  | sift => exact ⟨h, fun n hn => started_of_promotable (List.mem_filter.mp hn).2⟩
  | part he => trivial
  | _ => exact h

end Jefferies.Coordination
