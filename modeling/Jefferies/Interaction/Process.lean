import Mathlib.Logic.Relation
import Jefferies.Interaction.Program

/-!
# A process in its surroundings

One process runs in a world that answers its calls, hands it inputs while it waits, and moves on by
itself. The process may break off at any moment and start anew.
-/

namespace Jefferies.Interaction

open Relation

variable {W S I E : Type} {R : E → Type} {α : Type}

/-- A reactive program: what it does from its start to its first wait, and what it does with an input. -/
structure Process (S I : Type) {E : Type} (R : E → Type) (α : Type) where
  start : S → Prog S R (Option α)
  handle : I → S → Prog S R (Option α)

/-- The states in which the process starts and in which it starts anew, how the world answers a call, what
inputs it has for a process that waits, and how it moves on by itself. -/
structure Surroundings (W S I : Type) {E : Type} (R : E → Type) where
  starts : W → S → Prop
  answers : W → S → (e : E) → R e → W → Prop
  delivers : W → S → I → W → Prop
  drifts : W → W → Prop
  restarts : W → S → W → Prop

namespace Surroundings

variable (sur : Surroundings W S I R) (pr : Process S I R α)

/-- One step of the process and its world. -/
inductive Step : W × Prog S R (Option α) → W × Prog S R (Option α) → Prop
  | answer {w w' s e k} (r : R e) : sur.answers w s e r w' → Step (w, .call s e k) (w', k r)
  | deliver {w w' s} (i : I) : sur.delivers w s i w' → Step (w, .ret s none) (w', pr.handle i s)
  | drift {w w' p} : sur.drifts w w' → Step (w, p) (w', p)
  | restart {w w' p s} : sur.restarts w s w' → Step (w, p) (w', pr.start s)

/-- The world and the process come to be `w` and `p`. -/
def Reaches (w : W) (p : Prog S R (Option α)) : Prop :=
  ∃ w₀ s₀, sur.starts w₀ s₀ ∧ ReflTransGen (sur.Step pr) (w₀, pr.start s₀) (w, p)

/-- The runs in which each call is answered and each input is taken where the conditions hold. -/
def within (meets : W → S → (e : E) → R e → Prop) (admits : W → S → I → Prop) : Surroundings W S I R :=
  { sur with
    answers := fun w s e r w' => meets w s e r ∧ sur.answers w s e r w'
    delivers := fun w s i w' => admits w s i ∧ sur.delivers w s i w' }

variable {sur pr}

/-- What holds at every start and is kept by every step holds along every run. -/
theorem Reaches.induction {P : W → Prog S R (Option α) → Prop} {w : W} {p : Prog S R (Option α)}
    (h : sur.Reaches pr w p) (hstart : ∀ w s, sur.starts w s → P w (pr.start s))
    (hstep : ∀ w p w' p', P w p → sur.Step pr (w, p) (w', p') → P w' p') : P w p := by
  obtain ⟨w₀, s₀, hs, hr⟩ := h
  have hP : ∀ x, ReflTransGen (sur.Step pr) (w₀, pr.start s₀) x → P x.1 x.2 := by
    intro x hx
    induction hx with
    | refl => exact hstart w₀ s₀ hs
    | tail _ hst ih => exact hstep _ _ _ _ ih hst
  exact hP _ hr

theorem Reaches.step {w w' : W} {p p' : Prog S R (Option α)} (h : sur.Reaches pr w p)
    (hs : sur.Step pr (w, p) (w', p')) : sur.Reaches pr w' p' := by
  obtain ⟨w₀, s₀, h₀, hr⟩ := h
  exact ⟨w₀, s₀, h₀, hr.tail hs⟩

/-- Some run leads from `w` and `p` to where `P` holds. -/
def Leads (sur : Surroundings W S I R) (pr : Process S I R α) (w : W) (p : Prog S R (Option α))
    (P : W → Prog S R (Option α) → Prop) : Prop :=
  ∃ w' p', ReflTransGen (sur.Step pr) (w, p) (w', p') ∧ P w' p'

namespace Leads

variable {w : W} {p : Prog S R (Option α)} {P : W → Prog S R (Option α) → Prop}

theorem here (hP : P w p) : sur.Leads pr w p P := ⟨w, p, .refl, hP⟩

theorem step {w' : W} {p' : Prog S R (Option α)} (hs : sur.Step pr (w, p) (w', p'))
    (h : sur.Leads pr w' p' P) : sur.Leads pr w p P := by
  obtain ⟨w'', p'', hr, hP⟩ := h
  exact ⟨w'', p'', .head hs hr, hP⟩

theorem call {s : S} {e : E} {k : R e → Prog S R (Option α)} (r : R e) (w' : W)
    (hr : sur.answers w s e r w') (h : sur.Leads pr w' (k r) P) : sur.Leads pr w (.call s e k) P :=
  step (.answer r hr) h

theorem receive {s : S} (i : I) (w' : W) (hi : sur.delivers w s i w')
    (h : sur.Leads pr w' (pr.handle i s) P) : sur.Leads pr w (.ret s none) P := step (.deliver i hi) h

theorem drift (w' : W) (hd : sur.drifts w w') (h : sur.Leads pr w' p P) : sur.Leads pr w p P :=
  step (.drift hd) h

theorem restart (s : S) (w' : W) (hs : sur.restarts w s w') (h : sur.Leads pr w' (pr.start s) P) :
    sur.Leads pr w p P := step (.restart hs) h

/-- Where a run leads from a start, the process comes to be. -/
theorem reaches {s : S} (h : sur.Leads pr w (pr.start s) P) (hs : sur.starts w s) :
    ∃ w' p', sur.Reaches pr w' p' ∧ P w' p' := by
  obtain ⟨w', p', hr, hP⟩ := h
  exact ⟨w', p', ⟨w, s, hs, hr⟩, hP⟩

end Leads

end Surroundings

/-! ## All along a program -/

/-- However the world answers, `P` holds of it until the program ends, and `Q` there. -/
def Throughout (answers : W → S → (e : E) → R e → W → Prop) (P : W → Prop) (Q : W → S → α → Prop) :
    W → Prog S R α → Prop
  | w, .ret s a => P w ∧ Q w s a
  | w, .call s e k => P w ∧ ∀ r w', answers w s e r w' → Throughout answers P Q w' (k r)

namespace Throughout

variable {answers : W → S → (e : E) → R e → W → Prop} {P : W → Prop} {Q : W → S → α → Prop} {w : W}
  {p : Prog S R α} {β : Type}

theorem here (h : Throughout answers P Q w p) : P w := by
  cases p with
  | ret s a => exact h.1
  | call s e k => exact h.1

theorem bind {Q' : W → S → β → Prop} {f : S → α → Prog S R β} (h : Throughout answers P Q w p)
    (hf : ∀ w s a, P w → Q w s a → Throughout answers P Q' w (f s a)) : Throughout answers P Q' w (p.bind f) := by
  induction p generalizing w with
  | ret s a => exact hf w s a h.1 h.2
  | call s e k ih => exact ⟨h.1, fun r w' hr => ih r (h.2 r w' hr)⟩

/-- The rule for a sequence. -/
theorem seq {Q' : W → S → β → Prop} {m : Interact S R α} {f : α → Interact S R β} {s : S}
    (h : Throughout answers P Q w (m s)) (hf : ∀ w s a, P w → Q w s a → Throughout answers P Q' w (f a s)) :
    Throughout answers P Q' w ((m >>= f) s) := bind h hf

theorem perform {e : E} {s : S} {Q : W → S → R e → Prop} (hP : P w)
    (h : ∀ r w', answers w s e r w' → P w' ∧ Q w' s r) :
    Throughout answers P Q w ((Interact.perform e : Interact S R (R e)) s) := ⟨hP, fun r w' hr => h r w' hr⟩

theorem mono {Q' : W → S → α → Prop} (h : Throughout answers P Q w p) (hQ : ∀ w s a, Q w s a → Q' w s a) :
    Throughout answers P Q' w p := by
  induction p generalizing w with
  | ret s a => exact ⟨h.1, hQ _ _ _ h.2⟩
  | call s e k ih => exact ⟨h.1, fun r w' hr => ih r (h.2 r w' hr)⟩

/-- What holds for more answers holds for fewer. -/
theorem restrict {answers' : W → S → (e : E) → R e → W → Prop} (h : Throughout answers P Q w p)
    (hle : ∀ w s e r w', answers' w s e r w' → answers w s e r w') : Throughout answers' P Q w p := by
  induction p generalizing w with
  | ret s a => exact h
  | call s e k ih => exact ⟨h.1, fun r w' hr => ih r (h.2 r w' (hle _ _ _ _ _ hr))⟩

/-- A loop keeps what its body keeps; the invariant may speak of the elements still to come. -/
theorem forM {f : β → Interact S R PUnit} {J : List β → W → S → Prop}
    (body : ∀ x l w s, P w → J (x :: l) w s → Throughout answers P (fun w' s' _ => J l w' s') w (f x s))
    (l : List β) {s : S} (hP : P w) (h : J l w s) :
    Throughout answers P (fun w' s' _ => J [] w' s') w (l.forM f s) := by
  induction l generalizing w s with
  | nil => exact ⟨hP, h⟩
  | cons x l ih => exact seq (body x l w s hP h) fun w' s' _ hP' h' => ih hP' h'

/-- What holds is weakened. -/
theorem imp {P' : W → Prop} (h : Throughout answers P Q w p) (hP : ∀ w, P w → P' w) : Throughout answers P' Q w p := by
  induction p generalizing w with
  | ret s a => exact ⟨hP _ h.1, h.2⟩
  | call s e k ih => exact ⟨hP _ h.1, fun r w' hr => ih r (h.2 r w' hr)⟩

/-- What every call of one kind keeps holds all along a program that makes only such calls. -/
theorem of_calls {K : E → Prop} (step : ∀ w s e r w', P w → K e → answers w s e r w' → P w') (hp : p.Calls K)
    (hP : P w) : Throughout answers P (fun w _ _ => P w) w p := by
  induction p generalizing w with
  | ret s a => exact ⟨hP, hP⟩
  | call s e k ih => exact ⟨hP, fun r w' hr => ih r (hp.2 r) (step w s e r w' hP hp.1 hr)⟩

/-- What holds all along every handler, from where the ones before have left the process waiting, and all along a
start behind a break, holds along every run. -/
theorem reaches_restarting {sur : Surroundings W S I R} {pr : Process S I R α} {Q : W → S → Option α → Prop}
    (hstart : ∀ w s, sur.starts w s → Throughout sur.answers P Q w (pr.start s))
    (hdeliver : ∀ w s i w', P w → Q w s none → sur.delivers w s i w' → Throughout sur.answers P Q w' (pr.handle i s))
    (hdrift : ∀ w w', ¬sur.drifts w w')
    (hrestart : ∀ w s w', P w → sur.restarts w s w' → Throughout sur.answers P Q w' (pr.start s))
    {p : Prog S R (Option α)} (h : sur.Reaches pr w p) : Throughout sur.answers P Q w p := by
  refine h.induction (P := fun w p => Throughout sur.answers P Q w p) hstart ?_
  intro w p w' p' hp hstep
  cases hstep with
  | answer r hr => exact hp.2 r _ hr
  | deliver i hi => exact hdeliver _ _ _ _ hp.1 hp.2 hi
  | drift hd => exact absurd hd (hdrift _ _)
  | restart hr => exact hrestart _ _ _ hp.here hr

/-- What holds all along every handler, from where the ones before have left the process waiting, holds along every
run. -/
theorem reaches {sur : Surroundings W S I R} {pr : Process S I R α} {Q : W → S → Option α → Prop}
    (hstart : ∀ w s, sur.starts w s → Throughout sur.answers P Q w (pr.start s))
    (hdeliver : ∀ w s i w', P w → Q w s none → sur.delivers w s i w' → Throughout sur.answers P Q w' (pr.handle i s))
    (hdrift : ∀ w w', ¬sur.drifts w w') (hrestart : ∀ w s w', ¬sur.restarts w s w')
    {p : Prog S R (Option α)} (h : sur.Reaches pr w p) : Throughout sur.answers P Q w p :=
  reaches_restarting hstart hdeliver hdrift (fun _ _ _ _ hr => absurd hr (hrestart _ _ _)) h

/-- What holds all along a program that is never interrupted holds along its run. -/
theorem run {sur : Surroundings W S I R} {pr : Process S I R α} {Q : W → S → Option α → Prop}
    (hdeliver : ∀ w s i w', ¬sur.delivers w s i w') (hdrift : ∀ w w', ¬sur.drifts w w')
    (hrestart : ∀ w s w', ¬sur.restarts w s w') {x y : W × Prog S R (Option α)}
    (hxy : ReflTransGen (sur.Step pr) x y) (h : Throughout sur.answers P Q x.1 x.2) :
    Throughout sur.answers P Q y.1 y.2 := by
  induction hxy with
  | refl => exact h
  | tail _ hst ih =>
      cases hst with
      | answer r hr => exact ih.2 r _ hr
      | deliver i hi => exact absurd hi (hdeliver _ _ _ _)
      | drift hd => exact absurd hd (hdrift _ _)
      | restart hr => exact absurd hr (hrestart _ _ _)

end Throughout

end Jefferies.Interaction
