import Mathlib.Logic.Basic

/-!
# Interaction programs

A program computes on a local state of type `S` and calls operations of its surroundings. An operation
`e : E` is answered by a value of type `R e`. Every call shows the local state in which it is made, and
everything between two calls is one step of the program.

A reactive program waits, once it returns `none`, for an input and then runs a handler.
-/

namespace Jefferies.Interaction

/-- A program with local state `S`, calls `E` answered in `R`, and result `α`. -/
inductive Prog (S : Type) {E : Type} (R : E → Type) (α : Type) where
  | ret (s : S) (a : α)
  | call (s : S) (e : E) (k : R e → Prog S R α)

variable {S S' E I : Type} {R : E → Type} {α β γ : Type}

namespace Prog

def bind : Prog S R α → (S → α → Prog S R β) → Prog S R β
  | .ret s a, f => f s a
  | .call s e k, f => .call s e fun r => (k r).bind f

@[simp] theorem ret_bind (s : S) (a : α) (f : S → α → Prog S R β) : (ret s a).bind f = f s a := rfl

@[simp] theorem call_bind (s : S) (e : E) (k : R e → Prog S R α) (f : S → α → Prog S R β) :
    (call s e k).bind f = call s e fun r => (k r).bind f := rfl

theorem bind_ret (p : Prog S R α) : p.bind ret = p := by
  induction p with
  | ret s a => rfl
  | call s e k ih => rw [call_bind]; congr; exact funext ih

theorem bind_assoc (p : Prog S R α) (f : S → α → Prog S R β) (g : S → β → Prog S R γ) :
    (p.bind f).bind g = p.bind fun s a => (f s a).bind g := by
  induction p with
  | ret s a => rfl
  | call s e k ih => simp only [call_bind]; congr; exact funext ih

/-- The local state the program shows. -/
def state : Prog S R α → S
  | .ret s _ => s
  | .call s _ _ => s

/-- The call the program is making, if it has not returned. -/
def pending : Prog S R α → Option E
  | .ret _ _ => none
  | .call _ e _ => some e

/-- The same program with its local state shown as `f` and its result given as `g`. -/
def map (f : S → S') (g : α → β) : Prog S R α → Prog S' R β
  | .ret s a => .ret (f s) (g a)
  | .call s e k => .call (f s) e fun r => (k r).map f g

/-- The program can end in `s` and `a` when every answer is one that `allow` admits. -/
def Ends (allow : S → (e : E) → R e → Prop) : Prog S R α → S → α → Prop
  | .ret s a, s', a' => s' = s ∧ a' = a
  | .call s e k, s', a' => ∃ r, allow s e r ∧ Ends allow (k r) s' a'

/-- A program whose every call has an answer that is admitted can end. -/
theorem exists_ends {allow : S → (e : E) → R e → Prop} (h : ∀ s e, ∃ r, allow s e r) (p : Prog S R α) :
    ∃ s a, p.Ends allow s a := by
  induction p with
  | ret s a => exact ⟨s, a, rfl, rfl⟩
  | call s e k ih =>
      obtain ⟨r, hr⟩ := h s e
      obtain ⟨s', a, he⟩ := ih r
      exact ⟨s', a, r, hr, he⟩

/-- The program can end in a state and with a result that satisfy `P`. -/
def CanEnd (allow : S → (e : E) → R e → Prop) (p : Prog S R α) (P : S → α → Prop) : Prop :=
  ∃ s a, p.Ends allow s a ∧ P s a

theorem CanEnd.ret {allow : S → (e : E) → R e → Prop} {s : S} {a : α} {P : S → α → Prop} (h : P s a) :
    (Prog.ret s a : Prog S R α).CanEnd allow P := ⟨s, a, ⟨rfl, rfl⟩, h⟩

theorem CanEnd.call {allow : S → (e : E) → R e → Prop} {s : S} {e : E} {k : R e → Prog S R α}
    {P : S → α → Prop} (r : R e) (hr : allow s e r) (h : (k r).CanEnd allow P) :
    (Prog.call s e k).CanEnd allow P := by
  obtain ⟨s', a, he, hP⟩ := h
  exact ⟨s', a, ⟨r, hr, he⟩, hP⟩

end Prog

/-! ## The monad of programs -/

/-- A computation: from a local state, a program. -/
def Interact (S : Type) {E : Type} (R : E → Type) (α : Type) : Type := S → Prog S R α

namespace Interact

instance : Monad (Interact S R) where
  pure a := fun s => .ret s a
  bind m f := fun s => (m s).bind fun s' a => f a s'

theorem pure_apply (a : α) (s : S) : (pure a : Interact S R α) s = .ret s a := rfl

theorem bind_apply (m : Interact S R α) (f : α → Interact S R β) (s : S) :
    (m >>= f) s = (m s).bind fun s' a => f a s' := rfl

instance : LawfulMonad (Interact S R) :=
  LawfulMonad.mk' (Interact S R) (fun m => funext fun s => (m s).bind_ret) (fun _ _ => rfl)
    fun m _ _ => funext fun s => (m s).bind_assoc _ _

/-- Call `e` and take its answer. -/
def perform (e : E) : Interact S R (R e) := fun s => .call s e fun r => .ret s r

/-- The local state. -/
def get : Interact S R S := fun s => .ret s s

/-- Change the local state. -/
def modify (f : S → S) : Interact S R Unit := fun s => .ret (f s) ()

/-- Change the local state and take a result from the change. -/
def modifyGet (f : S → α × S) : Interact S R α := fun s => .ret (f s).2 (f s).1

@[simp] theorem get_bind (f : S → Interact S R β) (s : S) : ((get : Interact S R S) >>= f) s = f s s := rfl

@[simp] theorem modify_bind (g : S → S) (f : Unit → Interact S R β) (s : S) :
    ((modify g : Interact S R Unit) >>= f) s = f () (g s) := rfl

@[simp] theorem modifyGet_bind (g : S → α × S) (f : α → Interact S R β) (s : S) :
    ((modifyGet g : Interact S R α) >>= f) s = f (g s).1 (g s).2 := rfl

end Interact

namespace Prog

/-- Every call that the program can make satisfies `P`. -/
def Calls (P : E → Prop) : Prog S R α → Prop
  | .ret _ _ => True
  | .call _ e k => P e ∧ ∀ r, Calls P (k r)

theorem Calls.bind {P : E → Prop} {p : Prog S R α} {f : S → α → Prog S R β} (hp : p.Calls P)
    (hf : ∀ s a, (f s a).Calls P) : (p.bind f).Calls P := by
  induction p with
  | ret s a => exact hf s a
  | call s e k ih => exact ⟨hp.1, fun r => ih r (hp.2 r)⟩

theorem Calls.mono {P Q : E → Prop} {p : Prog S R α} (hp : p.Calls P) (h : ∀ e, P e → Q e) : p.Calls Q := by
  induction p with
  | ret s a => trivial
  | call s e k ih => exact ⟨h e hp.1, fun r => ih r (hp.2 r)⟩

/-- The program with its calls named as `ι` names them. -/
def embed {E' : Type} {R' : E' → Type} (ι : E → E') : Prog S (fun e => R' (ι e)) α → Prog S R' α
  | .ret s a => .ret s a
  | .call s e k => .call s (ι e) fun r => (k r).embed ι

theorem Calls.embed {E' : Type} {R' : E' → Type} {P : E' → Prop} {ι : E → E'} {p : Prog S (fun e => R' (ι e)) α}
    (hp : p.Calls fun e => P (ι e)) : (p.embed ι).Calls P := by
  induction p with
  | ret s a => trivial
  | call s e k ih => exact ⟨hp.1, fun r => ih r (hp.2 r)⟩

end Prog

namespace Interact

/-- Every call that the computation can make satisfies `P`. -/
def Calls (P : E → Prop) (m : Interact S R α) : Prop := ∀ s, (m s).Calls P

variable {P : E → Prop}

theorem Calls.mono {Q : E → Prop} {m : Interact S R α} (hm : Calls P m) (h : ∀ e, P e → Q e) : Calls Q m :=
  fun s => (hm s).mono h

theorem Calls.seq {m : Interact S R α} {f : α → Interact S R β} (hm : Calls P m)
    (hf : ∀ a, Calls P (f a)) : Calls P (m >>= f) := fun s => (hm s).bind fun s' a => hf a s'

theorem calls_pure (a : α) : Calls P (pure a : Interact S R α) := fun _ => trivial

theorem calls_get : Calls P (get : Interact S R S) := fun _ => trivial

theorem calls_modify (f : S → S) : Calls P (modify f : Interact S R Unit) := fun _ => trivial

theorem calls_modifyGet (f : S → α × S) : Calls P (modifyGet f : Interact S R α) := fun _ => trivial

theorem calls_perform {e : E} (he : P e) : Calls P (perform e : Interact S R (R e)) :=
  fun _ => ⟨he, fun _ => trivial⟩

theorem calls_forM {f : β → Interact S R PUnit} (hf : ∀ x, Calls P (f x)) (l : List β) :
    Calls P (l.forM f) := by
  induction l with
  | nil => exact calls_pure _
  | cons x l ih => exact (hf x).seq fun _ => ih

theorem calls_anyM {f : β → Interact S R Bool} (hf : ∀ x, Calls P (f x)) (l : List β) : Calls P (l.anyM f) := by
  induction l with
  | nil => exact calls_pure _
  | cons x l ih =>
      apply (hf x).seq
      intro b
      cases b with
      | true => exact calls_pure _
      | false => exact ih

end Interact

/-! ## Executions -/

/-- What is observed of a program: a call and its answer, or an input it takes. -/
inductive Moment (S I : Type) {E : Type} (R : E → Type) where
  | answered (s : S) (e : E) (r : R e)
  | received (s : S) (i : I)

/-- `Exec h p tr q`: with handlers `h`, the program `p` is `q` after the moments `tr`. -/
inductive Exec (h : I → S → Prog S R (Option α)) :
    Prog S R (Option α) → List (Moment S I R) → Prog S R (Option α) → Prop
  | refl (p) : Exec h p [] p
  | answered {s e k tr q} (r : R e) : Exec h (k r) tr q →
      Exec h (.call s e k) (.answered s e r :: tr) q
  | received {s tr q} (i : I) : Exec h (h i s) tr q → Exec h (.ret s none) (.received s i :: tr) q

theorem Exec.trans {h : I → S → Prog S R (Option α)} {p q r : Prog S R (Option α)}
    {tr₁ tr₂ : List (Moment S I R)} (h₁ : Exec h p tr₁ q) (h₂ : Exec h q tr₂ r) :
    Exec h p (tr₁ ++ tr₂) r := by
  induction h₁ with
  | refl _ => exact h₂
  | answered a _ ih => exact .answered a (ih h₂)
  | received i _ ih => exact .received i (ih h₂)

theorem Exec.split {h : I → S → Prog S R (Option α)} {p r : Prog S R (Option α)}
    {tr₁ tr₂ : List (Moment S I R)} (he : Exec h p (tr₁ ++ tr₂) r) :
    ∃ q, Exec h p tr₁ q ∧ Exec h q tr₂ r := by
  induction tr₁ generalizing p with
  | nil => exact ⟨p, .refl p, he⟩
  | cons m tr₁ ih =>
      cases he with
      | answered a he =>
          obtain ⟨q, h₁, h₂⟩ := ih he
          exact ⟨q, .answered a h₁, h₂⟩
      | received i he =>
          obtain ⟨q, h₁, h₂⟩ := ih he
          exact ⟨q, .received i h₁, h₂⟩

end Jefferies.Interaction
