import Jefferies.Interaction.Monitor
import Jefferies.Interaction.Process

/-!
# Outlines

An outline is an abstract machine for a reactive program: its stages, what the program computes in a stage,
and the calls it makes there, each with the stage and the state that an answer leads to. A program that
follows an outline can be reasoned about in the outline's terms: an invariant that speaks of the stage, the
world and the state, and that every transition of the outline keeps, holds along every run.
-/

namespace Jefferies.Interaction

variable {T W S I E : Type} {R : E → Type} {α β : Type}

/-- The stage `first` belongs to the start, `idle` to a program that waits, `taken i` to one that has taken
the input `i`, and `ended` to one that has ended. -/
structure Outline (T S I : Type) {E : Type} (R : E → Type) where
  first : T
  idle : T
  ended : T
  taken : I → T
  moves : T → S → T → S → Prop
  asks : T → S → (e : E) → (R e → T × S) → Prop

namespace Outline

variable (O : Outline T S I R)

/-- From the stage and the state, the program follows the outline and ends in `Q`. -/
inductive Follows (Q : T → S → α → Prop) : T → S → Prog S R α → Prop
  | ret {t s a} : Q t s a → Follows Q t s (.ret s a)
  | call {t s e k} (k' : R e → T × S) : O.asks t s e k' → (∀ r, Follows Q (k' r).1 (k' r).2 (k r)) →
      Follows Q t s (.call s e k)
  | move {t s t' s' p} : O.moves t s t' s' → Follows Q t' s' p → Follows Q t s p

/-- Where a run of the program ends: it waits, or it is over. -/
def Rests (t : T) (_ : S) : Option α → Prop
  | none => t = O.idle
  | some _ => t = O.ended

variable {O}

namespace Follows

theorem bind {p : Prog S R α} {f : S → α → Prog S R β} {P : T → S → α → Prop} {Q : T → S → β → Prop}
    {t : T} {s : S} (h : O.Follows P t s p) (hf : ∀ t s a, P t s a → O.Follows Q t s (f s a)) :
    O.Follows Q t s (p.bind f) := by
  induction h with
  | ret hP => exact hf _ _ _ hP
  | call k' hk _ ih => exact .call k' hk ih
  | move hm _ ih => exact .move hm ih

theorem mono {p : Prog S R α} {P Q : T → S → α → Prop} {t : T} {s : S} (h : O.Follows P t s p)
    (hPQ : ∀ t s a, P t s a → Q t s a) : O.Follows Q t s p := by
  induction h with
  | ret hP => exact .ret (hPQ _ _ _ hP)
  | call k' hk _ ih => exact .call k' hk ih
  | move hm _ ih => exact .move hm ih

/-- What the outline still does where the program has ended. -/
theorem andThen {p : Prog S R α} {P Q : T → S → α → Prop} {t : T} {s : S} (h : O.Follows P t s p)
    (hPQ : ∀ t s a, P t s a → O.Follows Q t s (.ret s a)) : O.Follows Q t s p := by
  rw [← p.bind_ret]
  exact h.bind hPQ

/-- The rule for a sequence. -/
theorem seq {m : Interact S R α} {f : α → Interact S R β} {P : T → S → α → Prop} {Q : T → S → β → Prop}
    {t : T} {s : S} (h : O.Follows P t s (m s)) (hf : ∀ t s a, P t s a → O.Follows Q t s (f a s)) :
    O.Follows Q t s ((m >>= f) s) := bind h hf

/-- A loop follows the outline when its body does; the stage may depend on the elements still to come. -/
theorem forM {f : β → Interact S R PUnit} {P : List β → T → S → Prop}
    (body : ∀ x l t s, P (x :: l) t s → O.Follows (fun t' s' _ => P l t' s') t s (f x s))
    (l : List β) {t : T} {s : S} (h : P l t s) :
    O.Follows (fun t' s' _ => P [] t' s') t s (l.forM f s) := by
  induction l generalizing t s with
  | nil => exact .ret h
  | cons x l ih =>
      apply seq (body x l t s h)
      intro t' s' _ h'
      exact ih h'

/-- A loop that stops at the first `true`. -/
theorem anyM {f : β → Interact S R Bool} {P : List β → T → S → Prop} {Q : T → S → Bool → Prop}
    (body : ∀ x l t s, P (x :: l) t s →
      O.Follows (fun t' s' b => if b then Q t' s' true else P l t' s') t s (f x s))
    (done : ∀ t s, P [] t s → O.Follows Q t s (.ret s false))
    (l : List β) {t : T} {s : S} (h : P l t s) : O.Follows Q t s (l.anyM f s) := by
  induction l generalizing t s with
  | nil => exact done t s h
  | cons x l ih =>
      apply seq (body x l t s h)
      intro t' s' b h'
      cases b with
      | true => exact .ret h'
      | false => exact ih h'

/-- What every move keeps holds in the state that the program shows: where it makes a call or has ended. -/
theorem shows {p : Prog S R α} {P : T → S → Prop} {Q : T → S → α → Prop} {t : T} {s : S}
    (h : O.Follows Q t s p) (hP : P t s) (hmove : ∀ t s t' s', P t s → O.moves t s t' s' → P t' s') :
    ∃ t', P t' p.state ∧ ((∃ e k, O.asks t' p.state e k) ∨ ∃ a, Q t' p.state a) := by
  induction h with
  | ret hQ => exact ⟨_, hP, .inr ⟨_, hQ⟩⟩
  | call k' hk => exact ⟨_, hP, .inl ⟨_, k', hk⟩⟩
  | move hm _ ih => exact ih (hmove _ _ _ _ hP hm)

/-- A program that obeys a monitor ends where its outline says. -/
theorem obeys {M : Monitor W S I R} {p : Prog S R α} {P : T → S → α → Prop} {Q : W → S → α → Prop} {t : T}
    {w : W} {s : S} (h : O.Follows P t s p) (hp : M.Obeys p w Q) :
    M.Obeys p w fun w' s' a => Q w' s' a ∧ ∃ t', P t' s' a := by
  induction h generalizing w with
  | ret hP => exact ⟨hp, _, hP⟩
  | call k' hk _ ih => exact ⟨hp.1, fun r hr => ih r (hp.2 r hr)⟩
  | move hm _ ih => exact ih hp

end Follows

/-! ## Invariants -/

/-- The process follows the outline from its start and from every input. -/
structure Describes (O : Outline T S I R) (pr : Process S I R α) : Prop where
  start : ∀ s, O.Follows O.Rests O.first s (pr.start s)
  handle : ∀ i s, O.Follows O.Rests (O.taken i) s (pr.handle i s)

/-- An invariant of the stage, the world and the state that each transition keeps. -/
structure Invariant (O : Outline T S I R) (sur : Surroundings W S I R) where
  holds : T → W → S → Prop
  start : ∀ w s, sur.starts w s → holds O.first w s
  move : ∀ t w s t' s', holds t w s → O.moves t s t' s' → holds t' w s'
  ask : ∀ t w s e k r w', holds t w s → O.asks t s e k → sur.answers w s e r w' →
    holds (k r).1 w' (k r).2
  deliver : ∀ w s i w', holds O.idle w s → sur.delivers w s i w' → holds (O.taken i) w' s
  drift : ∀ t w s w', holds t w s → sur.drifts w w' → holds t w' s
  restart : ∀ t w s s' w', holds t w s → sur.restarts w s' w' → holds O.first w' s'

namespace Invariant

variable {sur : Surroundings W S I R} {pr : Process S I R α}

/-- The invariant holds where the program comes to rest. -/
theorem at_ret (J : O.Invariant sur) {Q : T → S → α → Prop} {t : T} {w : W} {s s' : S} {a : α}
    (hJ : J.holds t w s) (h : O.Follows Q t s (.ret s' a)) : ∃ t', J.holds t' w s' ∧ Q t' s' a := by
  generalize hp : Prog.ret s' a = p at h
  induction h with
  | ret hQ =>
      cases hp
      exact ⟨_, hJ, hQ⟩
  | call => cases hp
  | move hm _ ih => exact ih (J.move _ _ _ _ _ hJ hm) hp

/-- The invariant holds where the program makes a call, in a stage that makes it. -/
theorem at_call (J : O.Invariant sur) {Q : T → S → α → Prop} {t : T} {w : W} {s s' : S} {e : E}
    {k : R e → Prog S R α} (hJ : J.holds t w s) (h : O.Follows Q t s (.call s' e k)) :
    ∃ t' k', J.holds t' w s' ∧ O.asks t' s' e k' ∧ ∀ r, O.Follows Q (k' r).1 (k' r).2 (k r) := by
  generalize hp : Prog.call s' e k = p at h
  induction h with
  | ret => cases hp
  | call k' hk hr =>
      cases hp
      exact ⟨_, k', hJ, hk, hr⟩
  | move hm _ ih => exact ih (J.move _ _ _ _ _ hJ hm) hp

theorem reaches (J : O.Invariant sur) (hpr : O.Describes pr) {w : W} {p : Prog S R (Option α)}
    (h : sur.Reaches pr w p) : ∃ t s, J.holds t w s ∧ O.Follows O.Rests t s p := by
  apply h.induction (P := fun w p => ∃ t s, J.holds t w s ∧ O.Follows O.Rests t s p)
  · intro w s hs
    exact ⟨O.first, s, J.start w s hs, hpr.start s⟩
  · intro w p w' p' hold hstep
    obtain ⟨t, s, hJ, hF⟩ := hold
    cases hstep with
    | answer r hr =>
        obtain ⟨t', k', hJ', hk, hF'⟩ := J.at_call hJ hF
        exact ⟨_, _, J.ask _ _ _ _ _ _ _ hJ' hk hr, hF' r⟩
    | deliver i hi =>
        obtain ⟨t', hJ', ht⟩ := J.at_ret hJ hF
        cases ht
        exact ⟨_, _, J.deliver _ _ _ _ hJ' hi, hpr.handle i _⟩
    | drift hd => exact ⟨t, s, J.drift _ _ _ _ hJ hd, hF⟩
    | restart hs => exact ⟨_, _, J.restart _ _ _ _ _ hJ hs, hpr.start _⟩

/-- The invariant of a program that waits. -/
theorem waiting (J : O.Invariant sur) (hpr : O.Describes pr) {w : W} {s : S}
    (h : sur.Reaches pr w (.ret s none)) : J.holds O.idle w s := by
  obtain ⟨t, s', hJ, hF⟩ := J.reaches hpr h
  obtain ⟨t', hJ', ht⟩ := J.at_ret hJ hF
  cases ht
  exact hJ'

/-- The invariant of a program that makes a call. -/
theorem calling (J : O.Invariant sur) (hpr : O.Describes pr) {w : W} {s : S} {e : E}
    {k : R e → Prog S R (Option α)} (h : sur.Reaches pr w (.call s e k)) :
    ∃ t k', J.holds t w s ∧ O.asks t s e k' := by
  obtain ⟨t, s', hJ, hF⟩ := J.reaches hpr h
  obtain ⟨t', k', hJ', hk, _⟩ := J.at_call hJ hF
  exact ⟨t', k', hJ', hk⟩

end Invariant

end Outline

end Jefferies.Interaction
