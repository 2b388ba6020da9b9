import Jefferies.Coordination.Views

/-!
# Lost updates

A save that is accepted should replace the state that its process loaded or wrote last. Versions start anew
with every first state, so the comparison of versions ensures that only where the process has looked since
the state is there.
-/

namespace Jefferies.Coordination

open Pipelines StateStore RunHistory Interaction Monitor Transition Versioning Deployment

/-- The save that a step carries out: its process, the run, the state and the version it expects. -/
def carriedSave (t : Event) : Option (Nat × String × RunState × Nat) :=
  match answeredCall t with
  | some (i, _, .saveRun runId state expected, reply) =>
      if reply.carriedOut then some (i, runId, state, expected) else none
  | _ => none

theorem carriedSave_eq_some {t : Event} {i : Nat} {r : String} {state : RunState} {expected : Nat} :
    carriedSave t = some (i, r, state, expected) ↔
      ∃ s reply, answeredCall t = some (i, s, .saveRun r state expected, reply) ∧ reply.carriedOut = true := by
  unfold carriedSave
  constructor
  · intro h
    split at h
    · rename_i s _ _ _ reply hcall
      split at h
      · rename_i hdone
        cases h
        exact ⟨s, reply, hcall, hdone⟩
      · cases h
    · cases h
  · rintro ⟨s, reply, hcall, hdone⟩
    rw [hcall]
    exact if_pos hdone

namespace Deployment

variable (d : Deployment)

/-- The ledgers of the runs' states after the transitions. -/
def ledgers (h : List Event) : Ledgers := (viewingAccount d).after h

/-- An accepted save replaces what its process loaded or wrote last, which is nothing where its last load found
nothing; and a first state replaces nothing. -/
def ReplacesSeen (h : List Event) (t : Event) : Prop :=
  ∀ i r state expected, carriedSave t = some (i, r, state, expected) →
    t.before.world.store.accepts r expected = true →
      t.before.world.store.runs.lookup r = ((d.ledgers h r).seen i).map Prod.snd ∧
        (state.version = 0 → t.before.world.store.runs.lookup r = none)

/-- Where the version of a save agrees, its process has loaded or written the state since it is there, or it
is not there and the process found nothing. -/
def SavesCurrent (h : List Event) (t : Event) : Prop :=
  ∀ i r state expected, carriedSave t = some (i, r, state, expected) →
    t.before.world.store.accepts r expected = true → (d.ledgers h r).Current i

end Deployment

instance (d : Deployment) (h : List Event) (t : Event) : Decidable (d.SavesCurrent h t) :=
  match hsave : carriedSave t with
  | none => isTrue fun _ _ _ _ h => by simp [hsave] at h
  | some (i, r, state, expected) =>
      if hcur : t.before.world.store.accepts r expected = true → (d.ledgers h r).Current i then
        isTrue fun _ _ _ _ h => by
          cases hsave.symm.trans h
          exact hcur
      else isFalse fun h => hcur (h i r state expected hsave)

variable {d : Deployment} {h : List Event} {σ : Servers}

theorem ledgers_kept (hr : d.Runs h σ) : (d.ledgers h).Kept σ.world σ.procs.length :=
  (viewingAccount d).inv_after hr

theorem ledgers_known (hr : d.Runs h σ) {i : Nat} {s : Local} {e : Effect} (hcall : callOf σ i = some (s, e)) :
    ∃ γ, (d.ledgers h).Knows i γ ∧ viewing.ok γ s e := (viewingAccount d).knows hr hcall

/-! ## Versions stand for states -/

/-- A save that is accepted from a process that has looked writes a higher version. -/
theorem version_lt {g : Ledgers} {w : World} {n i : Nat} {γ : Views} (hk : g.Kept w n) (hγ : g.Knows i γ)
    {s : Local} {r : String} {state : RunState} {expected : Nat}
    (hok : viewing.ok γ s (.saveRun r state expected)) (hacc : w.store.accepts r expected = true)
    (hcur : (g r).Current i) {current : RunState} (hv : (g r).value = some current) :
    current.version < state.version := by
  rcases hcur with ⟨hnone, _⟩ | ⟨_, seen, hseen⟩
  · rw [hv] at hnone
    cases hnone
  · rcases hok with ⟨hs, _⟩ | ⟨_, _, hγr⟩
    · rw [hk.value] at hv
      rcases RedisStateStore.accepts_iff.mp hacc with ⟨hnone, _⟩ | ⟨current', hcur, hver⟩
      · rw [hv] at hnone
        cases hnone
      · cases hv.symm.trans hcur
        omega
    · rw [(hγ r).2 hγr] at hseen
      cases hseen

theorem exact_answered {g : Ledgers} {w : World} {n i : Nat} {γ : Views} (hk : g.Kept w n) (hγ : g.Knows i γ)
    {s : Local} {e : Effect} {reply : Reply} (hok : viewing.ok γ s e)
    (hx : ∀ r, (g r).Exact RunState.version)
    (hcur : ∀ r state expected, e = .saveRun r state expected → reply.carriedOut = true →
      w.store.accepts r expected = true → (g r).Current i) :
    ∀ r, (Ledgers.answered g w n i e reply r).Exact RunState.version := by
  have hupd : ∀ {r : String} {l : Ledger Nat RunState}, l.Exact RunState.version →
      ∀ r', (Function.update g r l r').Exact RunState.version :=
    fun {r l} hl => (Function.forall_update_iff g (p := fun _ l => l.Exact RunState.version)).mpr
      ⟨hl, fun r' _ => hx r'⟩
  cases e with
  | loadRun r =>
      cases reply with
      | done => exact hupd ((hx r).read i)
      | _ => exact hx
  | saveRun r state expected =>
      simp only [Ledgers.answered]
      split
      · rename_i hacc
        obtain ⟨hdone, hacc⟩ := Bool.and_eq_true_iff.mp hacc
        have hc := hcur r state expected rfl hdone hacc
        exact hupd (Ledger.Exact.write (hk.coherent r) i fun current hv => version_lt hk hγ hok hacc hc hv)
      · exact hx
  | deleteRun r =>
      simp only [Ledgers.answered]
      split
      · exact hupd Ledger.Exact.erase
      · exact hx
  | spawnCoordinator c => exact fun r => (hx r).fork i n
  | _ => exact hx

/-- As long as processes look before they save, a version stands for one state in each life of a key. -/
theorem ledgers_exact (hr : d.Runs h σ) (hc : Always d.SavesCurrent h) :
    ∀ r, (d.ledgers h r).Exact RunState.version := by
  induction hr with
  | start _ => exact fun _ => Ledger.exact_blank
  | @snoc h σ l σ' hr hs ih =>
      obtain ⟨hbefore, ht⟩ := always_snoc.mp hc
      have hx := ih hbefore
      simp only [Deployment.ledgers, Account.after_snoc]
      rcases step_cases (t := ⟨σ, l, σ'⟩) hs with ⟨i, s, e, reply, a, hans, _, _⟩ | ⟨l, a, hl, _, _⟩ | ⟨hans, ho, _⟩
      · obtain ⟨_, hcall⟩ := answeredCall_eq_some.mp hans
        obtain ⟨γ, hγ, hok⟩ := ledgers_known hr (callOf_eq_some.mpr hcall)
        rw [Account.next_answer hans]
        refine exact_answered (ledgers_kept hr) hγ hok hx ?_
        rintro r state expected rfl hdone hacc
        exact ht i r state expected (carriedSave_eq_some.mpr ⟨s, reply, hans, hdone⟩) hacc
      · rw [Account.next_outside hl]
        exact hx
      · rw [Account.next_other hans ho]
        exact hx

/-- A server starts a run and dispatches its first node. -/
def started (runId : String) : List (Act Input Reply Outside) :=
  [launch runId, .answer 0 (.text "0b2f8a1c-3f0e-4a53-9d5e-6c1e1f1b7a10"), .answer 0 .done, .answer 0 .done,
    .answer 0 .done, .answer 0 .done, .answer 0 (.flag true), .answer 0 .done, .answer 1 .done, .answer 1 .done,
    .answer 1 .done, .answer 1 .done, .answer 1 (.names ["build"]), .answer 1 .done, .answer 1 .done]

/-- Between the load and the save of a server that starts a run, another one saves the state that it has made
from the run history. -/
def raced (runId : String) : List (Act Input Reply Outside) :=
  [launch runId, .answer 0 (.text "0b2f8a1c-3f0e-4a53-9d5e-6c1e1f1b7a10"), .answer 0 .done, .answer 0 .done,
    .answer 0 .done, .outside .startReaper, .answer 1 (.names []), .answer 1 (.names []), .answer 1 .done,
    .answer 1 .done, .answer 1 .done, .answer 1 .done, .answer 0 .done]

/-- The save replaces a state where its process has seen none. -/
def replacesUnseen (d : Deployment) (h : List Event) (t : Event) : Bool :=
  match carriedSave t with
  | some (i, r, _, expected) =>
      t.before.world.store.accepts r expected && (t.before.world.store.runs.lookup r).isSome &&
        ((d.ledgers h r).seen i).isNone
  | none => false

theorem not_replacesSeen {t : Event} (hu : replacesUnseen d h t = true) : ¬d.ReplacesSeen h t := by
  intro hseen
  unfold replacesUnseen at hu
  split at hu
  · rename_i i r state expected hsave
    simp only [Bool.and_eq_true, Option.isNone_iff_eq_none] at hu
    obtain ⟨⟨hacc, hsome⟩, hnone⟩ := hu
    rw [(hseen i r state expected hsave hacc).1, hnone] at hsome
    cases hsome
  · cases hu

end Jefferies.Coordination
