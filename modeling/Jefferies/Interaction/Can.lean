import Jefferies.Interaction.Monitor
import Jefferies.Interaction.Process

/-!
# What a program can come to

Some answers of the world lead a program to a call, or to an end. The rules follow the shape of the program;
a step that always ends in the same way does not need its answers chosen.
-/

namespace Jefferies.Interaction

variable {W S I E Γ : Type} {R : E → Type} {α β : Type}

/-- With some answers of the world, the program comes to a call as in `goal`, or ends as in `Q`. -/
inductive Can (answers : W → S → (e : E) → R e → W → Prop) (goal : W → S → E → Prop) (Q : W → S → α → Prop) :
    W → Prog S R α → Prop
  | ret {w s a} : Q w s a → Can answers goal Q w (.ret s a)
  | here {w s e k} : goal w s e → Can answers goal Q w (.call s e k)
  | call {w s e k} (r : R e) (w' : W) : answers w s e r w' → Can answers goal Q w' (k r) →
      Can answers goal Q w (.call s e k)

namespace Can

variable {answers : W → S → (e : E) → R e → W → Prop} {goal : W → S → E → Prop} {w : W}

theorem bind {P : W → S → α → Prop} {Q : W → S → β → Prop} {p : Prog S R α} {f : S → α → Prog S R β}
    (h : Can answers goal P w p) (hf : ∀ w s a, P w s a → Can answers goal Q w (f s a)) :
    Can answers goal Q w (p.bind f) := by
  induction h with
  | ret hP => exact hf _ _ _ hP
  | here hg => exact .here hg
  | call r w' hr _ ih => exact .call r w' hr ih

theorem mono {P Q : W → S → α → Prop} {p : Prog S R α} (h : Can answers goal P w p)
    (hPQ : ∀ w s a, P w s a → Q w s a) : Can answers goal Q w p := by
  induction h with
  | ret hP => exact .ret (hPQ _ _ _ hP)
  | here hg => exact .here hg
  | call r w' hr _ ih => exact .call r w' hr ih

/-- The rule for a sequence. -/
theorem seq {m : Interact S R α} {f : α → Interact S R β} {P : W → S → α → Prop} {Q : W → S → β → Prop} {s : S}
    (h : Can answers goal P w (m s)) (hf : ∀ w s a, P w s a → Can answers goal Q w (f a s)) :
    Can answers goal Q w ((m >>= f) s) := bind h hf

theorem perform {e : E} {Q : W → S → R e → Prop} {s : S} (r : R e) (w' : W) (hr : answers w s e r w')
    (hQ : Q w' s r) : Can answers goal Q w ((Interact.perform e : Interact S R (R e)) s) :=
  .call r w' hr (.ret hQ)

/-- A loop keeps what its body can keep; the invariant may speak of the elements still to come. -/
theorem forM {f : β → Interact S R PUnit} {P : List β → W → S → Prop}
    (body : ∀ x l w s, P (x :: l) w s → Can answers goal (fun w' s' _ => P l w' s') w (f x s))
    (l : List β) {s : S} (h : P l w s) : Can answers goal (fun w' s' _ => P [] w' s') w (l.forM f s) := by
  induction l generalizing w s with
  | nil => exact .ret h
  | cons x l ih =>
      apply seq (body x l w s h)
      intro w' s' _ h'
      exact ih h'

/-- A loop that stops at the first `true` gets through the first elements when its body can answer `false`. -/
theorem anyM_append {f : β → Interact S R Bool} {P : List β → W → S → Prop} {Q : W → S → Bool → Prop}
    {rest : List β}
    (body : ∀ x l w s, P (x :: l) w s → Can answers goal (fun w' s' b => b = false ∧ P l w' s') w (f x s))
    (done : ∀ w s, P [] w s → Can answers goal Q w (rest.anyM f s))
    (l : List β) {s : S} (h : P l w s) : Can answers goal Q w ((l ++ rest).anyM f s) := by
  induction l generalizing w s with
  | nil => exact done w s h
  | cons x l ih =>
      apply seq (body x l w s h)
      rintro w' s' _ ⟨rfl, h'⟩
      exact ih h'

/-- What a process can come to in its world, a run leads to. -/
theorem leads {sur : Surroundings W S I R} {pr : Process S I R α} {Q : W → S → Option α → Prop}
    {p : Prog S R (Option α)} (h : Can sur.answers goal Q w p) :
    sur.Leads pr w p fun w' p' => (∃ s e k, p' = .call s e k ∧ goal w' s e) ∨ ∃ s a, p' = .ret s a ∧ Q w' s a := by
  induction h with
  | ret hQ => exact .here (.inr ⟨_, _, rfl, hQ⟩)
  | here hg => exact .here (.inl ⟨_, _, _, rfl, hg⟩)
  | call r w' hr _ ih => exact .call r w' hr ih

/-- What a monitored program can come to is promised, where the monitor assumes no more than the answers give. -/
theorem obeys {M : Monitor Γ S I R} {P : Γ → S → α → Prop} {Q : W → S → α → Prop} {γ : Γ} {p : Prog S R α}
    (h : Can answers goal Q w p) (hassume : ∀ γ w s e r w', answers w s e r w' → M.assume γ (.answered s e r))
    (hp : M.Obeys p γ P) :
    (∃ γ' w' s e, goal w' s e ∧ M.ok γ' s e) ∨ ∃ γ' w' s a, Q w' s a ∧ P γ' s a := by
  induction h generalizing γ with
  | ret hQ => exact .inr ⟨γ, _, _, _, hQ, hp⟩
  | here hg => exact .inl ⟨γ, _, _, _, hg, hp.1⟩
  | call r w' hr _ ih => exact ih (hp.2 r (hassume γ _ _ _ r w' hr))

end Can

end Jefferies.Interaction
