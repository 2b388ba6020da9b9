import Mathlib.Logic.Basic

/-!
# Computations that may fail

What the success of a sequence or of a loop says about its parts.
-/

namespace Jefferies

variable {ε α β : Type}

theorem except_bind_ok {x : Except ε α} {f : α → Except ε β} {b : β} (h : (x >>= f) = .ok b) :
    ∃ a, x = .ok a ∧ f a = .ok b := by
  cases x with
  | error e => cases h
  | ok a => exact ⟨a, rfl, h⟩

theorem except_map_ok {f : α → β} {x : Except ε α} {b : β} (h : x.map f = .ok b) : ∃ a, x = .ok a ∧ f a = b := by
  cases x with
  | error e => cases h
  | ok a => exact ⟨a, rfl, Except.ok.inj h⟩

theorem forM_ok {f : α → Except ε Unit} {l : List α} (h : l.forM f = .ok ()) : ∀ x ∈ l, f x = .ok () := by
  induction l with
  | nil => simp
  | cons x l ih =>
      obtain ⟨_, hx, hl⟩ := except_bind_ok h
      intro y hy
      rcases List.mem_cons.mp hy with rfl | hy
      · exact hx
      · exact ih hl y hy

/-- A loop that succeeds keeps what its body keeps. -/
theorem foldlM_ok {f : β → α → Except ε β} {P : β → Prop} (body : ∀ b x b', P b → f b x = .ok b' → P b')
    {l : List α} {b b' : β} (h : l.foldlM f b = .ok b') (hb : P b) : P b' := by
  induction l generalizing b with
  | nil =>
      cases h
      exact hb
  | cons x l ih =>
      obtain ⟨b₁, hx, hl⟩ := except_bind_ok h
      exact ih hl (body b x b₁ hb hx)

/-- A computation that is seen to succeed with a value that passes a check. -/
theorem exists_ok {x : Except ε α} (check : α → Bool) (h : x.toOption.any check = true) :
    ∃ a, x = .ok a ∧ check a = true := by
  cases x with
  | error e => cases h
  | ok a => exact ⟨a, rfl, h⟩

end Jefferies
