import Jefferies.Coordination.Account
import Jefferies.Versioning.Ledger

/-!
# What processes have seen of a stored state

A state is saved by a compare-and-set of its version. The account of a run's state is its ledger: what each
process loaded or wrote last, and since when the state has been there.
-/

namespace Jefferies.Coordination

open Pipelines StateStore RunHistory Interaction Monitor Transition Versioning Deployment

/-- The version that a process knows of each run's state, if it knows of one. -/
abbrev Views : Type := String → Option Nat

/-- The version that a process can expect. -/
def Views.version (γ : Views) (runId : String) : Nat := (γ runId).getD 0

def Views.next (γ : Views) : (e : Effect) → Resp e → Views
  | .loadRun runId, .ok found => Function.update γ runId (found.map RunState.version)
  | .saveRun runId state _, .ok true => Function.update γ runId (some state.version)
  | .saveRun runId _ expected, _ => Function.update γ runId (some expected)
  | _, _ => γ

/-- A state is saved under the version after the one expected, or a first one under version 0; and no process
expects more than it has seen. -/
def viewing : Monitor Views Local Input Resp where
  assume _ _ := True
  ok γ _
    | .saveRun runId state expected =>
        (state.version = expected + 1 ∧ expected ≤ γ.version runId) ∨
          (state.version = 0 ∧ expected = 0 ∧ γ runId = none)
    | .spawnCoordinator c => c.stateVersion ≤ γ.version c.runId
    | _ => True
  next γ
    | .answered _ e a => γ.next e a
    | .received _ _ => γ

theorem Views.next_apart {e : Effect} (h : Apart e) (γ : Views) (a : Resp e) : γ.next e a = γ := by
  cases e with
  | loadRun _ | saveRun _ _ _ => exact absurd h id
  | _ => rfl

/-- What a coordinator keeps: it expects no more than it has seen. -/
def viewingCoordinator : Keeps (viewing.comap .coordinator .event) where
  live γ c := c.stateVersion ≤ γ.version c.runId
  done _ _ := True
  told _ _ _ := True
  started _ _ := True
  read _ _ := True
  told_next _ _ _ _ _ := trivial
  started_next _ _ _ _ := trivial
  read_next _ _ _ _ := trivial
  receive _ _ _ hl _ := ⟨hl, fun _ _ _ => trivial⟩
  outcomes _ _ _ _ _ _ := ⟨fun _ _ _ _ _ => trivial, fun _ _ _ => trivial⟩
  outcome _ _ _ _ _ _ _ := trivial
  frame _ _ _ _ hl := hl
  success _ _ _ hl _ := hl
  failed _ _ _ hl := hl
  promoted _ _ _ hl _ := hl
  quiet γ c e hl he := by
    cases he <;> exact ⟨trivial, fun _ _ => hl⟩
  record _ _ _ hl _ _ := ⟨trivial, fun _ _ => hl⟩
  save γ c hl := by
    refine ⟨Or.inl ⟨rfl, hl⟩, fun r _ => ?_⟩
    rcases r with e | b
    · simp [afterSave, viewing, Monitor.comap, Views.next, Views.version]
    · cases b with
      | true => simp [afterSave, Coordinator.setVersion, viewing, Monitor.comap, Views.next, Views.version,
          PipelineRun.toRunState]
      | false => simp [afterSave, viewing, Monitor.comap, Views.next, Views.version]
  dispatch γ c n info metadata hl _ _ := by
    refine ⟨trivial, fun r _ => ?_⟩
    cases r <;> exact hl
  finalize _ _ _ _ _ _ := ⟨trivial, fun _ _ => trivial⟩
  doneFrame _ _ _ _ _ := trivial
  closing γ c e _ he := by
    cases he <;> exact ⟨trivial, fun _ _ => trivial⟩

/-- What a task learns of a state: what its last load found. -/
def viewingTask (services : Services) : Serves (viewing.comap (fun _ => .task) .tick) services where
  live _ := True
  source _ _ _ _ := True
  row _ _ _ := True
  loaded γ r st := γ r = some st.version
  absent γ r := γ r = none
  holds _ _ _ _ := True
  nodes _ _ _ := True
  reported _ _ _ _ := True
  source_next _ _ _ _ _ _ := trivial
  row_next _ _ _ _ _ := trivial
  nodes_next _ _ _ _ _ := trivial
  reported_next _ _ _ _ _ _ := trivial
  loaded_next γ e a r st he h := (congrFun (Views.next_apart he γ a) r).trans h
  absent_next γ e a r he h := (congrFun (Views.next_apart he γ a) r).trans h
  holds_next _ _ _ _ _ _ _ _ := trivial
  source_loaded _ _ _ _ _ _ := trivial
  source_parsed _ _ _ _ _ _ := trivial
  nodes_insert _ _ _ _ _ _ _ _ _ _ _ := trivial
  tick _ _ _ _ := trivial
  aside γ e _ he := by
    cases he <;> exact ⟨trivial, fun _ _ => trivial⟩
  load γ r _ := by
    refine ⟨trivial, fun a _ => ⟨trivial, ?_, ?_⟩⟩
    · rintro st rfl
      simp [viewing, Monitor.comap, Views.next]
    · rintro rfl
      simp [viewing, Monitor.comap, Views.next]
  getRow _ _ _ _ _ := ⟨trivial, fun _ _ => ⟨trivial, fun _ _ => trivial⟩⟩
  listRows _ _ := ⟨trivial, fun _ _ => ⟨trivial, fun _ _ _ _ => trivial⟩⟩
  listNodes _ _ _ _ _ := ⟨trivial, fun _ _ => ⟨trivial, fun _ _ => trivial⟩⟩
  outcome _ _ _ _ _ _ := ⟨trivial, fun _ _ => ⟨trivial, fun _ _ _ _ => trivial⟩⟩
  recordNode _ _ _ _ := ⟨trivial, fun _ _ => trivial⟩
  finalizeLoaded _ _ _ _ _ _ := ⟨trivial, fun _ _ => trivial⟩
  finalizeNodes _ _ _ _ _ _ _ _ _ _ _ _ := ⟨trivial, fun _ _ => trivial⟩
  saveReconstructed _ _ _ _ _ _ habsent _ _ _ := ⟨Or.inr ⟨rfl, rfl, habsent⟩, fun _ _ => trivial⟩
  acquire _ _ _ _ := ⟨trivial, fun _ _ => ⟨trivial, fun _ _ => trivial⟩⟩
  started _ _ _ _ _ _ := ⟨trivial, fun _ _ => trivial⟩
  saveNew _ _ _ _ _ habsent _ := ⟨Or.inr ⟨rfl, rfl, habsent⟩, fun _ _ => trivial⟩
  spawnLoaded γ r p x s v st reporter watcher c _ _ _ hloaded hc := by
    subst hc
    refine ⟨?_, fun _ _ => trivial⟩
    show st.version ≤ γ.version r
    simp [Views.version, hloaded]
  spawnNew γ r p x s v reporter watcher c _ _ _ hc := by
    subst hc
    exact ⟨Nat.zero_le _, fun _ _ => trivial⟩

def viewingDiscipline (d : Deployment) : Discipline d Views where
  monitor := viewing
  coordinator := viewingCoordinator
  task := viewingTask d.services

/-! ## The ledgers of all runs -/

abbrev Ledgers : Type := String → Ledger Nat RunState

namespace Ledgers

/-- What a call with its answer does to the ledgers, where `n` processes are there. -/
def answered (g : Ledgers) (w : World) (n i : Nat) : Effect → Reply → Ledgers
  | .loadRun runId, .done => Function.update g runId ((g runId).read i)
  | .saveRun runId state expected, reply =>
      if reply.carriedOut && w.store.accepts runId expected then
        Function.update g runId ((g runId).write RunState.version i state)
      else g
  | .deleteRun runId, reply => if reply.carriedOut then Function.update g runId (g runId).erase else g
  | .spawnCoordinator _, _ => fun runId => (g runId).fork i n
  | _, _ => g

/-- The ledgers tell the states that are stored, versions grow in them, and only processes that are there
have seen anything. -/
structure Kept (g : Ledgers) (w : World) (n : Nat) : Prop where
  value : ∀ r, (g r).value = w.store.runs.lookup r
  coherent : ∀ r, (g r).Coherent RunState.version
  unseen : ∀ r i, n ≤ i → (g r).seen i = none

/-- What the process has seen has the version it knows at least. -/
def Knows (g : Ledgers) (i : Nat) (γ : Views) : Prop :=
  ∀ r, (∀ n s, (g r).seen i = some (n, s) → γ.version r ≤ s.version) ∧ (γ r = none → (g r).seen i = none)

variable {g : Ledgers} {w w' : World} {n i : Nat} {γ : Views}

theorem Kept.update (h : Kept g w n) {r : String} {l : Ledger Nat RunState}
    (hv : l.value = w'.store.runs.lookup r)
    (hw : ∀ r', r' ≠ r → w'.store.runs.lookup r' = w.store.runs.lookup r')
    (hc : l.Coherent RunState.version) (hu : ∀ i, n ≤ i → l.seen i = none) :
    Kept (Function.update g r l) w' n where
  value r' := by
    by_cases hr : r' = r
    · subst hr
      rw [Function.update_self, hv]
    · rw [Function.update_of_ne hr, hw r' hr, h.value]
  coherent r' := by
    by_cases hr : r' = r
    · subst hr
      rwa [Function.update_self]
    · rw [Function.update_of_ne hr]
      exact h.coherent r'
  unseen r' i hi := by
    by_cases hr : r' = r
    · subst hr
      rw [Function.update_self]
      exact hu i hi
    · rw [Function.update_of_ne hr]
      exact h.unseen r' i hi

theorem Kept.same (h : Kept g w n) (hw : w'.store.runs = w.store.runs) : Kept g w' n :=
  ⟨fun r => by rw [hw, h.value], h.coherent, h.unseen⟩

theorem Knows.update (h : Knows g i γ) {r : String} {l : Ledger Nat RunState} {v : Option Nat}
    (hv : ∀ n s, l.seen i = some (n, s) → v.getD 0 ≤ s.version) (hnone : v = none → l.seen i = none) :
    Knows (Function.update g r l) i (Function.update γ r v) := by
  intro r'
  by_cases hr : r' = r
  · subst hr
    simpa [Views.version] using ⟨hv, hnone⟩
  · simpa [Views.version, Function.update_of_ne hr] using h r'

/-- A process knows as much of ledgers in which it has seen the same. -/
theorem Knows.of_seen (h : Knows g i γ) {g' : Ledgers} {j : Nat} (hs : ∀ r, (g' r).seen j = (g r).seen i) :
    Knows g' j γ := fun r => by
  rw [hs r]
  exact h r

/-- A save that is granted expects no more than the process has seen. -/
theorem Knows.expected (h : Knows g i γ) {s : Local} {r : String} {state : RunState} {expected : Nat}
    (hok : viewing.ok γ s (.saveRun r state expected)) :
    ∀ n seen, (g r).seen i = some (n, seen) → expected ≤ seen.version := by
  intro n seen hseen
  rcases hok with ⟨_, hle⟩ | ⟨_, rfl, _⟩
  · exact hle.trans ((h r).1 n seen hseen)
  · exact Nat.zero_le _

/-- An accepted save that is granted writes no lower version. -/
theorem Kept.version_le (h : Kept g w n) {s : Local} {r : String} {state : RunState} {expected : Nat}
    (hok : viewing.ok γ s (.saveRun r state expected)) (hacc : w.store.accepts r expected = true)
    {current : RunState} (hv : (g r).value = some current) : current.version ≤ state.version := by
  rw [h.value] at hv
  rcases RedisStateStore.accepts_iff.mp hacc with ⟨hnone, _⟩ | ⟨current', hcur, hver⟩
  · rw [hnone] at hv
    cases hv
  · obtain rfl := Option.some.inj (hcur.symm.trans hv)
    rcases hok with ⟨hs, _⟩ | ⟨hs, he, _⟩ <;> omega

theorem answered_seen {e : Effect} {reply : Reply} {j : Nat} (hj : j ≠ i) (hlt : j < n) (r : String) :
    ((answered g w n i e reply) r).seen j = (g r).seen j := by
  have hupd : ∀ {r' : String} {l : Ledger Nat RunState}, l.seen j = (g r').seen j →
      ((Function.update g r' l) r).seen j = (g r).seen j := by
    intro r' l hl
    by_cases hr : r = r'
    · subst hr
      rw [Function.update_self, hl]
    · rw [Function.update_of_ne hr]
  unfold answered
  split
  · exact hupd (Ledger.seen_read_of_ne hj)
  · split
    · exact hupd (Function.update_of_ne hj _ _)
    · rfl
  · split
    · exact hupd rfl
    · rfl
  · exact Function.update_of_ne (Nat.ne_of_lt hlt) _ _
  · rfl

theorem Kept.more (h : Kept g w n) (k : Nat) : Kept g w (n + k) :=
  ⟨h.value, h.coherent, fun r i hi => h.unseen r i (by omega)⟩

/-- A process that is still to come has seen nothing. -/
theorem Kept.knows_nothing (h : Kept g w n) : Knows g n fun _ => none := fun r =>
  ⟨fun _ _ _ => Nat.zero_le _, fun _ => h.unseen r n (Nat.le_refl n)⟩

/-! ## What an answered call does to them -/

theorem Kept.read (h : Kept g w n) (hi : i < n) (r : String) : Kept (Function.update g r ((g r).read i)) w n := by
  refine h.update (h.value r) (fun _ _ => rfl) ((h.coherent r).read i) fun j hj => ?_
  rw [Ledger.seen_read_of_ne (by omega)]
  exact h.unseen r j hj

theorem Kept.write (h : Kept g w n) (hi : i < n) {s : Local} {r : String} {state : RunState} {expected : Nat}
    (hok : viewing.ok γ s (.saveRun r state expected)) (hacc : w.store.accepts r expected = true)
    (hw : w'.store.runs = w.store.runs.insert r state) :
    Kept (Function.update g r ((g r).write RunState.version i state)) w' n := by
  refine h.update ?_ (fun r' hr => ?_) ?_ fun j hj => ?_
  · simp [Ledger.write, hw]
  · rw [hw, Finmap.lookup_insert_of_ne _ hr]
  · exact (h.coherent r).write i fun current hv => h.version_le hok hacc hv
  · have hne : j ≠ i := by omega
    simpa [Ledger.write, Function.update_of_ne hne] using h.unseen r j hj

theorem Kept.erase (h : Kept g w n) {r : String} (hw : w'.store.runs = w.store.runs.erase r) :
    Kept (Function.update g r (g r).erase) w' n := by
  refine h.update ?_ (fun r' hr => ?_) (h.coherent r).erase (h.unseen r)
  · rw [hw, Finmap.lookup_erase]
    rfl
  · rw [hw, Finmap.lookup_erase_ne hr]

theorem Kept.fork (h : Kept g w n) (hw : w'.store.runs = w.store.runs) (i : Nat) :
    Kept (fun r => (g r).fork i n) w' (n + 1) where
  value r := by
    rw [hw, ← h.value r]
    rfl
  coherent r := (h.coherent r).fork i n
  unseen r j hj := by
    have hne : j ≠ n := by omega
    simpa [Ledger.fork, Function.update_of_ne hne] using h.unseen r j (by omega)

theorem Kept.answered {parseRunId : String → Option String} (h : Kept g w n) (hi : i < n) {s : Local} {e : Effect}
    {reply : Reply} {a : Resp e × World} (hok : viewing.ok γ s e) (ha : respond parseRunId w e reply = some a) :
    Kept (answered g w n i e reply) a.2 (n + (spawned e).length) := by
  have hruns := respond_runs ha
  cases e with
  | loadRun r =>
      cases reply with
      | done => exact (h.read hi r).same hruns
      | _ => exact h.same hruns
  | saveRun r state expected =>
      by_cases hacc : (reply.carriedOut && w.store.accepts r expected) = true
      · simp only [Ledgers.answered, hacc, if_true] at hruns ⊢
        exact h.write hi hok (Bool.and_eq_true_iff.mp hacc).2 hruns
      · simp only [Ledgers.answered, hacc] at hruns ⊢
        exact h.same hruns
  | deleteRun r =>
      cases hdone : reply.carriedOut with
      | true =>
          simp only [Ledgers.answered, hdone, if_true] at hruns ⊢
          exact h.erase hruns
      | false =>
          simp only [Ledgers.answered, hdone] at hruns ⊢
          exact h.same hruns
  | spawnCoordinator c => exact h.fork hruns i
  | _ => exact h.same hruns

theorem Knows.read (hk : Kept g w n) (h : Knows g i γ) (r : String) :
    Knows (Function.update g r ((g r).read i)) i
      (Function.update γ r ((w.store.runs.lookup r).map RunState.version)) := by
  apply h.update
  · intro m s hs
    have hv := (Ledger.seen_read hs).2
    rw [hk.value] at hv
    simp [hv]
  · intro hnone
    have hv := Option.map_eq_none_iff.mp hnone
    rw [← hk.value] at hv
    simp [Ledger.read, hv]

/-- What is known of a state whose save was carried out, from below. -/
theorem Knows.write (h : Knows g i γ) {r : String} {state : RunState} {v : Nat} (hv : v ≤ state.version) :
    Knows (Function.update g r ((g r).write RunState.version i state)) i (Function.update γ r (some v)) := by
  apply h.update
  · intro m s hs
    simp only [Ledger.write, Function.update_self, Option.some.injEq, Prod.mk.injEq] at hs
    rw [← hs.2]
    exact hv
  · exact fun hnone => absurd hnone (by simp)

theorem Knows.expecting (h : Knows g i γ) {s : Local} {r : String} {state : RunState} {expected : Nat}
    (hok : viewing.ok γ s (.saveRun r state expected)) : Knows g i (Function.update γ r (some expected)) := by
  rw [← Function.update_eq_self r g]
  exact h.update (h.expected hok) fun hnone => absurd hnone (by simp)

theorem Knows.saved {parseRunId : String → Option String} (h : Knows g i γ) {s : Local} {r : String}
    {state : RunState} {expected : Nat} {reply : Reply} {a : Resp (.saveRun r state expected) × World}
    (hok : viewing.ok γ s (.saveRun r state expected))
    (ha : respond parseRunId w (.saveRun r state expected) reply = some a) :
    Knows (Ledgers.answered g w n i (.saveRun r state expected) reply) i
      (γ.next (.saveRun r state expected) a.1) := by
  have hle : expected ≤ state.version := by
    rcases hok with ⟨hs, _⟩ | ⟨_, he, _⟩ <;> omega
  rcases World.storeOp_cases ha with ⟨rfl, rfl⟩ | ⟨error, applied, rfl, rfl⟩
  · cases hacc : w.store.accepts r expected with
    | true =>
        simp only [Ledgers.answered, RedisStateStore.saveRun_fst, hacc]
        exact h.write (Nat.le_refl _)
    | false =>
        simp only [Ledgers.answered, RedisStateStore.saveRun_fst, hacc]
        exact h.expecting hok
  · simp only [Ledgers.answered]
    split
    · exact h.write hle
    · exact h.expecting hok

theorem Knows.answered {parseRunId : String → Option String} (hk : Kept g w n) (h : Knows g i γ) (hi : i < n)
    {s : Local} {e : Effect} {reply : Reply} {a : Resp e × World} (hok : viewing.ok γ s e)
    (ha : respond parseRunId w e reply = some a) : Knows (Ledgers.answered g w n i e reply) i (γ.next e a.1) := by
  cases e with
  | loadRun r =>
      rcases World.storeOp_cases ha with ⟨rfl, rfl⟩ | ⟨error, applied, rfl, rfl⟩
      · exact h.read hk r
      · exact h
  | saveRun r state expected => exact h.saved hok ha
  | deleteRun r =>
      simp only [Ledgers.answered]
      split
      · refine h.of_seen fun r' => ?_
        by_cases hr : r' = r
        · subst hr
          rw [Function.update_self]
          rfl
        · rw [Function.update_of_ne hr]
      · exact h
  | spawnCoordinator c => exact h.of_seen fun r => Function.update_of_ne (Nat.ne_of_lt hi) _ _
  | _ => exact h

end Ledgers

/-! ## The account -/

def viewingAccount (d : Deployment) : Account (viewingDiscipline d) Ledgers where
  start _ := Ledger.blank
  answered := Ledgers.answered
  outside g _ _ := g
  inv := Ledgers.Kept
  rel g _ := g.Knows
  inv_start := ⟨fun _ => rfl, fun _ => Ledger.coherent_blank, fun _ _ _ => rfl⟩
  received _ h := ⟨trivial, h⟩
  own hinv hi hrel hok ha := ⟨trivial, hinv.answered hi hok ha, hrel.answered hinv hi hok ha⟩
  others _ _ _ _ hj hlt hrel := hrel.of_seen (Ledgers.answered_seen hj hlt)
  spawn {g w n i γ s c reply a} hinv hi hrel hok ha := by
    refine ⟨γ, hok, hrel.of_seen fun r => ?_⟩
    exact Function.update_self ..
  around hinv ha := ⟨(hinv.same (outside_runs ha)).more _, fun _ _ _ hrel => hrel⟩
  launch hinv _ _ := ⟨fun _ => none, trivial, trivial, hinv.knows_nothing⟩
  reaper hinv := ⟨fun _ => none, trivial, hinv.knows_nothing⟩

end Jefferies.Coordination
