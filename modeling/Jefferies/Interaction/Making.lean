import Jefferies.Interaction.System

/-!
# What the processes of a system call

Where every handler and every process that is started makes only calls of one kind, so does every process that
ever comes to be.
-/

namespace Jefferies.Interaction

open Transition

variable {W S I C L E : Type} {R : E → Type} {α β : Type} {P : E → Prop}

/-- The monitor that grants the calls of one kind, whatever they are answered. -/
def making (P : E → Prop) : Monitor Unit S I R where
  assume _ _ := True
  ok _ _ e := P e
  next _ _ := ()

theorem making_calls {p : Prog S R α} {Q : Unit → S → α → Prop}
    (h : (making P : Monitor Unit S I R).Obeys p () Q) : p.Calls P :=
  h.calls (fun _ _ _ he => he) fun _ _ => trivial

theorem obeys_making {p : Prog S R α} (h : p.Calls P) :
    (making P : Monitor Unit S I R).Obeys p () fun _ _ _ => True :=
  Monitor.obeys_calls (Q := fun _ => True) (fun _ _ _ _ he => ⟨he, fun _ _ => trivial⟩) h trivial

theorem Prog.Calls.map {S' : Type} {p : Prog S R α} (h : p.Calls P) (f : S → S') (g : α → β) : (p.map f g).Calls P := by
  induction p with
  | ret s a => trivial
  | call s e k ih => exact ⟨h.1, fun r => ih r (h.2 r)⟩

theorem Interact.calls_mapM {γ : Type} {f : γ → Interact S R β} (hf : ∀ x, Interact.Calls P (f x)) (l : List γ) :
    Interact.Calls P (l.mapM f) := by
  induction l with
  | nil => exact Interact.calls_pure _
  | cons x l ih =>
      rw [List.mapM_cons]
      exact (hf x).seq fun _ => ih.seq fun _ => Interact.calls_pure _

namespace System

/-- Whatever a process of the system comes to do, it makes only calls of one kind. -/
structure Makes (sys : System W S I C L R α) (P : E → Prop) : Prop where
  handle : ∀ i s, (sys.handle i s).Calls P
  spawned : ∀ e, ∀ p ∈ sys.spawned e, p.Calls P
  outside : ∀ w l a, sys.outside w l = some a → ∀ p ∈ a.2, p.Calls P

/-- The processes of the configuration make only calls of one kind. -/
def Making (P : E → Prop) (σ : Config W S R α) : Prop := ∀ p, some p ∈ σ.procs → p.Calls P

variable {sys : System W S I C L R α} {σ σ' : Config W S R α}

theorem Making.set {i : Nat} {w : W} {p : Prog S R (Option α)} (h : Making P σ) (hp : p.Calls P) :
    Making P ⟨w, σ.procs.set i (some p)⟩ := by
  intro q hq
  rcases List.mem_or_eq_of_mem_set hq with hq | hq
  · exact h q hq
  · cases hq
    exact hp

theorem Making.append {w : W} {procs : List (Option (Prog S R (Option α)))} {new : List (Prog S R (Option α))}
    (h : Making P ⟨w, procs⟩) (hnew : ∀ p ∈ new, p.Calls P) : Making P ⟨w, procs ++ new.map some⟩ := by
  intro q hq
  rcases List.mem_append.mp hq with hq | hq
  · exact h q hq
  · obtain ⟨p, hp, heq⟩ := List.mem_map.mp hq
    cases heq
    exact hnew q hp

theorem Makes.step (hsys : sys.Makes P) {l : Act I C L} (h : Making P σ) (hs : sys.step σ l = some σ') :
    Making P σ' := by
  cases l with
  | answer i c =>
      obtain ⟨s, e, k, a, hp, _, rfl⟩ := step_answer hs
      have hk := (h _ (List.mem_of_getElem? hp)).2
      exact (h.set (hk a.1)).append (hsys.spawned e)
  | deliver i input =>
      obtain ⟨s, w, _, _, rfl⟩ := step_deliver hs
      exact h.set (hsys.handle input s)
  | crash i =>
      obtain rfl := step_crash hs
      intro p hp
      rcases List.mem_or_eq_of_mem_set hp with hp | hp
      · exact h p hp
      · cases hp
  | outside l =>
      obtain ⟨a, ha, rfl⟩ := step_outside hs
      have hprocs : Making P ⟨a.1, σ.procs⟩ := h
      exact hprocs.append (hsys.outside _ _ _ ha)

theorem Makes.run (hsys : sys.Makes P) {init : Config W S R α → Prop} (hinit : ∀ σ, init σ → Making P σ)
    {h : List (Step (Config W S R α) (Act I C L))} (hr : Run sys.step init h σ) : Making P σ := by
  apply hr.invariant
  · exact hinit
  · intro _ _ _ _ _ hmaking hs
    exact hsys.step hmaking hs

end System

end Jefferies.Interaction
