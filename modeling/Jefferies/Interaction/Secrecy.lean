import Jefferies.Interaction.Program

/-!
# What a program lets one see

A policy says which calls a program may make, which answers to a call are alike, and what is known behind an answer.
Two programs are alike if they make the same calls as long as the answers are alike, and end alike; then they do the
same in any two worlds whose answers stay alike.
-/

namespace Jefferies.Interaction

variable {K W S E : Type} {R : E → Type} {α β : Type}

/-- Which calls may be made, which answers are alike, and what is learned from an answer, given what is known. -/
structure Policy (K : Type) {E : Type} (R : E → Type) where
  permits : K → E → Prop
  alike : K → (e : E) → R e → R e → Prop
  learned : K → (e : E) → R e → K

namespace Policy

variable (P : Policy K R)

/-- The programs make the same calls, all permitted, as long as the answers are alike, and end in `Q`. -/
inductive Alike (Q : K → S → α → α → Prop) : K → Prog S R α → Prog S R α → Prop
  | ret {κ s a a'} : Q κ s a a' → Alike Q κ (.ret s a) (.ret s a')
  | call {κ s e k k'} : P.permits κ e → (∀ r r', P.alike κ e r r' → Alike Q (P.learned κ e r) (k r) (k' r')) →
      Alike Q κ (.call s e k) (.call s e k')

/-- The programs end with the same result. -/
abbrev Same : K → Prog S R α → Prog S R α → Prop := P.Alike fun _ _ a a' => a = a'

variable {P}

namespace Alike

variable {Q Q' : K → S → α → α → Prop} {κ : K} {s : S}

theorem mono {p p' : Prog S R α} (h : P.Alike Q κ p p') (hQ : ∀ κ s a a', Q κ s a a' → Q' κ s a a') :
    P.Alike Q' κ p p' := by
  induction h with
  | ret h => exact .ret (hQ _ _ _ _ h)
  | call he _ ih => exact .call he ih

theorem bind {p p' : Prog S R α} {f f' : S → α → Prog S R β} {T : K → S → β → β → Prop} (h : P.Alike Q κ p p')
    (hf : ∀ κ s a a', Q κ s a a' → P.Alike T κ (f s a) (f' s a')) : P.Alike T κ (p.bind f) (p'.bind f') := by
  induction h with
  | ret h => exact hf _ _ _ _ h
  | call he _ ih => exact .call he ih

/-- The rule for a sequence. -/
theorem seq {m m' : Interact S R α} {f f' : α → Interact S R β} {T : K → S → β → β → Prop}
    (h : P.Alike Q κ (m s) (m' s)) (hf : ∀ κ s a a', Q κ s a a' → P.Alike T κ (f a s) (f' a' s)) :
    P.Alike T κ ((m >>= f) s) ((m' >>= f') s) := bind h hf

theorem perform {e : E} {Q : K → S → R e → R e → Prop} (he : P.permits κ e)
    (h : ∀ r r', P.alike κ e r r' → Q (P.learned κ e r) s r r') :
    P.Alike Q κ ((Interact.perform e : Interact S R (R e)) s) ((Interact.perform e : Interact S R (R e)) s) :=
  .call he fun r r' hr => .ret (h r r' hr)

/-- A loop keeps what its body keeps. -/
theorem mapM {γ : Type} {f : γ → Interact S R β} {J : K → Prop} (l : List γ)
    (body : ∀ x ∈ l, ∀ κ s, J κ → P.Alike (fun κ' _ b b' => J κ' ∧ b = b') κ (f x s) (f x s)) (hJ : J κ) :
    P.Alike (fun κ' _ b b' => J κ' ∧ b = b') κ (l.mapM f s) (l.mapM f s) := by
  induction l generalizing κ s with
  | nil => exact .ret ⟨hJ, rfl⟩
  | cons x l ih =>
      rw [List.mapM_cons]
      apply (body x List.mem_cons_self κ s hJ).seq
      rintro κ₁ s₁ b _ ⟨hJ₁, rfl⟩
      apply (ih (fun y hy => body y (List.mem_cons_of_mem x hy)) hJ₁).seq
      rintro κ₂ s₂ bs _ ⟨hJ₂, rfl⟩
      exact .ret ⟨hJ₂, rfl⟩

end Alike

end Policy

/-! ## In two worlds -/

/-- The calls of a program, each answered in the next of the worlds, and its end. -/
def Prog.against (answer : W → (e : E) → R e) : Prog S R α → (Nat → W) → List E × S × α
  | .ret s a, _ => ([], s, a)
  | .call _ e k, ws =>
      let rest := (k (answer (ws 0) e)).against answer fun i => ws (i + 1)
      (e :: rest.1, rest.2)

theorem against_perform (answer : W → (e : E) → R e) {e : E} {f : R e → Interact S R β} {s : S} (ws : Nat → W) :
    ((Interact.perform e >>= f) s).against answer ws =
      (e :: ((f (answer (ws 0) e) s).against answer fun i => ws (i + 1)).1,
        ((f (answer (ws 0) e) s).against answer fun i => ws (i + 1)).2) := rfl

namespace Policy.Alike

variable {P : Policy K R} {Q : K → S → α → α → Prop} {κ : K} {p p' : Prog S R α} {answer : W → (e : E) → R e}
  {I : K → (Nat → W) → (Nat → W) → Prop} {ws ws' : Nat → W}

/-- In worlds whose answers stay alike, the programs make the same calls, each of which is permitted, and end alike. -/
theorem against (h : P.Alike Q κ p p') (hI : I κ ws ws')
    (step : ∀ κ ws ws' e, I κ ws ws' → P.permits κ e → P.alike κ e (answer (ws 0) e) (answer (ws' 0) e) ∧
      I (P.learned κ e (answer (ws 0) e)) (fun i => ws (i + 1)) fun i => ws' (i + 1)) :
    (p.against answer ws).1 = (p'.against answer ws').1 ∧
    (∀ i e, (p.against answer ws).1[i]? = some e →
      ∃ κ', I κ' (fun j => ws (j + i)) (fun j => ws' (j + i)) ∧ P.permits κ' e) ∧
    ∃ κ' s a a', (p.against answer ws).2 = (s, a) ∧ (p'.against answer ws').2 = (s, a') ∧ Q κ' s a a' := by
  induction h generalizing ws ws' with
  | ret hQ => exact ⟨rfl, fun i e he => absurd he (by simp [Prog.against]), _, _, _, _, rfl, rfl, hQ⟩
  | @call κ s e k k' he _ ih =>
      obtain ⟨halike, hI'⟩ := step _ _ _ e hI he
      obtain ⟨hcalls, hpermits, hend⟩ := ih _ _ halike hI'
      refine ⟨congrArg (e :: ·) hcalls, fun i e' he' => ?_, hend⟩
      cases i with
      | zero =>
          cases he'
          exact ⟨κ, hI, he⟩
      | succ i =>
          obtain ⟨κ', hI', he⟩ := hpermits i e' he'
          exact ⟨κ', by simpa [Nat.add_assoc, Nat.add_comm, Nat.add_left_comm] using hI', he⟩

end Policy.Alike

end Jefferies.Interaction
