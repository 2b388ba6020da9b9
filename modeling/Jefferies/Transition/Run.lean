import Mathlib.Data.List.Basic

/-!
# Runs of a labelled transition system

The system is a function from a state and a label to the next state, or to nothing where the label is
not possible. A run is recorded as the list of its transitions, oldest first, so that a property may
speak of what happened before a step.
-/

namespace Jefferies.Transition

structure Step (σ ℓ : Type) where
  before : σ
  label : ℓ
  after : σ

variable {σ ℓ γ : Type}

/-- `Run step init h s`: from a state that satisfies `init`, the transitions `h` lead to `s`. -/
inductive Run (step : σ → ℓ → Option σ) (init : σ → Prop) : List (Step σ ℓ) → σ → Prop
  | start {s} : init s → Run step init [] s
  | snoc {h s l s'} : Run step init h s → step s l = some s' →
      Run step init (h ++ [⟨s, l, s'⟩]) s'

variable {step : σ → ℓ → Option σ} {init : σ → Prop}

/-- What holds at the start and is kept by every step holds along every run. -/
theorem Run.invariant {Inv : List (Step σ ℓ) → σ → Prop} (hstart : ∀ s, init s → Inv [] s)
    (hstep : ∀ h s l s', Run step init h s → Inv h s → step s l = some s' → Inv (h ++ [⟨s, l, s'⟩]) s')
    {h : List (Step σ ℓ)} {s : σ} (hr : Run step init h s) : Inv h s := by
  induction hr with
  | start hi => exact hstart _ hi
  | snoc hr hs ih => exact hstep _ _ _ _ hr ih hs

/-- A run up to one of its transitions, and that transition's step. -/
theorem Run.split {h₁ h₂ : List (Step σ ℓ)} {t : Step σ ℓ} {s : σ}
    (hr : Run step init (h₁ ++ t :: h₂) s) :
    Run step init h₁ t.before ∧ step t.before t.label = some t.after := by
  generalize hh : h₁ ++ t :: h₂ = h at hr
  induction hr generalizing h₂ with
  | start _ => simp at hh
  | @snoc h s l s' hr hs ih =>
      rcases List.eq_nil_or_concat h₂ with rfl | ⟨h₂', t', rfl⟩
      · obtain ⟨rfl, rfl⟩ := List.append_inj' hh rfl |>.imp id (by simpa using ·)
        exact ⟨hr, hs⟩
      · refine @ih h₂' ?_
        rw [List.concat_eq_append, ← List.cons_append, ← List.append_assoc] at hh
        exact (List.append_inj' hh rfl).1

theorem Run.of_append {h₁ h₂ : List (Step σ ℓ)} {s : σ} (hr : Run step init (h₁ ++ h₂) s) :
    ∃ s₁, Run step init h₁ s₁ := by
  cases h₂ with
  | nil => exact ⟨s, by simpa using hr⟩
  | cons t h₂ => exact ⟨t.before, hr.split.1⟩

/-- A run is where it started, or where its last transition led. -/
theorem Run.reached {h : List (Step σ ℓ)} {s : σ} (hr : Run step init h s) : init s ∨ ∃ t ∈ h, t.after = s := by
  cases hr with
  | start hi => exact Or.inl hi
  | snoc _ _ => exact Or.inr ⟨_, List.mem_append_right _ (List.mem_singleton.mpr rfl), rfl⟩

/-- What the transitions after one keep is kept by the run. -/
theorem Run.kept_after {Q : σ → Prop} {h₁ h₂ : List (Step σ ℓ)} {t : Step σ ℓ} {s : σ}
    (hr : Run step init (h₁ ++ t :: h₂) s) (hkept : ∀ t' ∈ h₂, Q t'.before → Q t'.after) (hq : Q t.after) : Q s := by
  generalize hh : h₁ ++ t :: h₂ = h at hr
  induction hr generalizing h₂ with
  | start _ => simp at hh
  | @snoc h s l s' hr hs ih =>
      rcases List.eq_nil_or_concat h₂ with rfl | ⟨h₂', t', rfl⟩
      · obtain ⟨_, rfl⟩ := List.append_inj' hh rfl |>.imp id (by simpa using ·)
        exact hq
      · rw [List.concat_eq_append] at hh hkept
        rw [← List.cons_append, ← List.append_assoc] at hh
        obtain ⟨hinit, hlast⟩ := List.append_inj' hh rfl
        have hbefore := ih (fun t' ht' => hkept t' (List.mem_append_left _ ht')) hinit
        exact hkept ⟨s, l, s'⟩ (by simp [hlast]) hbefore

/-- What every transition keeps is kept from each transition to all later ones. -/
theorem Run.pairwise_iff {ι : Type} {Q : ι → σ → Prop} (hinit : ∀ i s, init s → ¬ Q i s)
    {h : List (Step σ ℓ)} {s : σ} (hr : Run step init h s) :
    h.Pairwise (fun t t' => ∀ i, Q i t.after → Q i t'.after) ↔ ∀ t ∈ h, ∀ i, Q i t.before → Q i t.after := by
  induction hr with
  | start _ => simp
  | @snoc h s l s' hr hs ih =>
      rw [List.pairwise_append, ih]
      simp only [List.pairwise_singleton, List.mem_singleton, forall_eq, true_and, List.mem_append]
      constructor
      · rintro ⟨hkept, hlast⟩ t (ht | rfl) i hq
        · exact hkept t ht i hq
        · rcases hr.reached with hi | ⟨t, ht, rfl⟩
          · exact absurd hq (hinit i s hi)
          · exact hlast t ht i hq
      · intro hkept
        refine ⟨fun t ht => hkept t (Or.inl ht), fun t ht i hq => ?_⟩
        apply hkept ⟨s, l, s'⟩ (Or.inr rfl)
        obtain ⟨h₁, h₂, rfl⟩ := List.append_of_mem ht
        refine hr.kept_after (fun t' ht' => ?_) hq
        exact hkept t' (Or.inl (List.mem_append_right _ (List.mem_cons_of_mem _ ht'))) i

/-! ## What holds of every transition -/

/-- `P` holds of every transition, with those before it. -/
def Always (P : List (Step σ ℓ) → Step σ ℓ → Prop) (h : List (Step σ ℓ)) : Prop :=
  ∀ h₁ t h₂, h = h₁ ++ t :: h₂ → P h₁ t

theorem Always.of_append {P : List (Step σ ℓ) → Step σ ℓ → Prop} {h₁ h₂ : List (Step σ ℓ)}
    (ha : Always P (h₁ ++ h₂)) : Always P h₁ := by
  rintro h t h' rfl
  exact ha h t (h' ++ h₂) (by simp)

theorem always_snoc {P : List (Step σ ℓ) → Step σ ℓ → Prop} {h : List (Step σ ℓ)} {t : Step σ ℓ} :
    Always P (h ++ [t]) ↔ Always P h ∧ P h t := by
  constructor
  · exact fun ha => ⟨ha.of_append, ha h t [] rfl⟩
  · rintro ⟨ha, ht⟩ h₁ t' h₂ he
    rcases List.eq_nil_or_concat h₂ with rfl | ⟨h₂', t'', rfl⟩
    · obtain ⟨rfl, rfl⟩ := List.append_inj' he rfl |>.imp id (by simpa using ·)
      exact ht
    · rw [List.concat_eq_append, ← List.cons_append, ← List.append_assoc] at he
      exact ha h₁ t' h₂' (List.append_inj' he rfl).1

theorem Always.last {P : List (Step σ ℓ) → Step σ ℓ → Prop} {h : List (Step σ ℓ)} (ha : Always P h) {t : Step σ ℓ}
    (ht : h.getLast? = some t) : P h.dropLast t :=
  ha h.dropLast t [] (List.dropLast_append_getLast? t ht).symm

theorem always_iff_forall_lt {P : List (Step σ ℓ) → Step σ ℓ → Prop} {h : List (Step σ ℓ)} :
    Always P h ↔ ∀ n (hn : n < h.length), P (h.take n) h[n] := by
  constructor
  · intro ha n hn
    refine ha _ _ (h.drop (n + 1)) ?_
    rw [List.getElem_cons_drop, List.take_append_drop]
  · rintro ha h₁ t h₂ rfl
    simpa using ha h₁.length (by simp)

instance {P : List (Step σ ℓ) → Step σ ℓ → Prop} [∀ h t, Decidable (P h t)] (h : List (Step σ ℓ)) :
    Decidable (Always P h) := decidable_of_iff _ always_iff_forall_lt.symm

/-- What holds of every possible transition holds of every transition of a run. -/
theorem Run.always {P : List (Step σ ℓ) → Step σ ℓ → Prop}
    (hP : ∀ h t, Run step init h t.before → step t.before t.label = some t.after → P h t)
    {h : List (Step σ ℓ)} {s : σ} (hr : Run step init h s) : Always P h := by
  rintro h₁ t h₂ rfl
  exact hP h₁ t hr.split.1 hr.split.2

/-! ## History variables

A history variable is computed from the transitions alone. -/

/-- The value of a history variable after the transitions. -/
def history (next : γ → Step σ ℓ → γ) (g : γ) (h : List (Step σ ℓ)) : γ := h.foldl next g

@[simp] theorem history_nil (next : γ → Step σ ℓ → γ) (g : γ) : history next g [] = g := rfl

@[simp] theorem history_snoc (next : γ → Step σ ℓ → γ) (g : γ) (h : List (Step σ ℓ))
    (t : Step σ ℓ) : history next g (h ++ [t]) = next (history next g h) t := by
  simp [history]

/-- The transitions themselves are a history variable. -/
theorem history_steps (g h : List (Step σ ℓ)) : history (fun g t => g ++ [t]) g h = g ++ h := by
  induction h generalizing g with
  | nil => simp
  | cons t h ih => simpa [history] using ih (g ++ [t])

/-! ## Executing a list of labels -/

/-- The run along the labels, as long as each is possible. -/
def exec (step : σ → ℓ → Option σ) : List ℓ → List (Step σ ℓ) → σ →
    Option (List (Step σ ℓ) × σ)
  | [], h, s => some (h, s)
  | l :: ls, h, s => (step s l).bind fun s' => exec step ls (h ++ [⟨s, l, s'⟩]) s'

theorem Run.exec {ls : List ℓ} {h h' : List (Step σ ℓ)} {s s' : σ}
    (hr : Run step init h s) (he : exec step ls h s = some (h', s')) : Run step init h' s' := by
  induction ls generalizing h s with
  | nil =>
      simp only [Transition.exec, Option.some.injEq, Prod.mk.injEq] at he
      obtain ⟨rfl, rfl⟩ := he
      exact hr
  | cons l ls ih =>
      simp only [Transition.exec, Option.bind_eq_some_iff] at he
      obtain ⟨s₁, hs, he⟩ := he
      exact ih (.snoc hr hs) he

/-- The run along labels that are all possible, with what was checked of it. -/
theorem exists_run (step : σ → ℓ → Option σ) (ls : List ℓ) {s : σ} (hi : init s)
    (check : List (Step σ ℓ) × σ → Bool) (h : (exec step ls [] s).any check = true) :
    ∃ h s', Run step init h s' ∧ check (h, s') = true := by
  obtain ⟨⟨h', s'⟩, he, hcheck⟩ := (Option.any_eq_true check _).mp h
  exact ⟨h', s', (Run.start hi).exec he, hcheck⟩

end Jefferies.Transition
