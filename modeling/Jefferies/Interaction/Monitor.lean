import Jefferies.Interaction.Program

/-!
# Monitors

A monitor watches an execution. It keeps a state of its own, which every moment moves on, it assumes
something of the answers and the inputs, and it promises something of every call. `Obeys` says that a
program keeps the promise while the assumption lasts; its rules follow the shape of the program.
-/

namespace Jefferies.Interaction

variable {Γ S S' E I I' : Type} {R : E → Type} {α β : Type}

/-- What is assumed of the moments, what is promised of the calls, and how the watcher's state moves. -/
structure Monitor (Γ S I : Type) {E : Type} (R : E → Type) where
  assume : Γ → Moment S I R → Prop
  ok : Γ → S → E → Prop
  next : Γ → Moment S I R → Γ

namespace Monitor

variable (M : Monitor Γ S I R)

/-- The assumption holds at every moment. -/
def Assumed : Γ → List (Moment S I R) → Prop
  | _, [] => True
  | γ, m :: tr => M.assume γ m ∧ Assumed (M.next γ m) tr

/-- The watcher's state after the moments. -/
def after (γ : Γ) (tr : List (Moment S I R)) : Γ := tr.foldl M.next γ

theorem after_append (γ : Γ) (tr₁ tr₂ : List (Moment S I R)) :
    M.after γ (tr₁ ++ tr₂) = M.after (M.after γ tr₁) tr₂ := List.foldl_append

/-- Without an assumption on the moments every execution counts. -/
theorem assumed_of_forall (h : ∀ γ m, M.assume γ m) (γ : Γ) (tr : List (Moment S I R)) :
    M.Assumed γ tr := by
  induction tr generalizing γ with
  | nil => trivial
  | cons m tr ih => exact ⟨h γ m, ih _⟩

/-- From `γ`, the program keeps the promise at every call and ends in `Q`. -/
def Obeys : Prog S R α → Γ → (Γ → S → α → Prop) → Prop
  | .ret s a, γ, Q => Q γ s a
  | .call s e k, γ, Q =>
      M.ok γ s e ∧ ∀ r, M.assume γ (.answered s e r) → Obeys (k r) (M.next γ (.answered s e r)) Q

variable {M}

@[simp] theorem obeys_ret {s : S} {a : α} {γ : Γ} {Q : Γ → S → α → Prop} :
    M.Obeys (.ret s a) γ Q ↔ Q γ s a := Iff.rfl

theorem obeys_call {s : S} {e : E} {k : R e → Prog S R α} {γ : Γ} {Q : Γ → S → α → Prop} :
    M.Obeys (.call s e k) γ Q ↔ M.ok γ s e ∧
      ∀ r, M.assume γ (.answered s e r) → M.Obeys (k r) (M.next γ (.answered s e r)) Q := Iff.rfl

theorem Obeys.mono {p : Prog S R α} {γ : Γ} {Q Q' : Γ → S → α → Prop} (h : M.Obeys p γ Q)
    (hQ : ∀ γ s a, Q γ s a → Q' γ s a) : M.Obeys p γ Q' := by
  induction p generalizing γ with
  | ret s a => exact hQ _ _ _ h
  | call s e k ih => exact ⟨h.1, fun r hr => ih r (h.2 r hr)⟩

/-- What every moment keeps holds at the end too. -/
theorem Obeys.stable {P : Γ → Prop} (hP : ∀ γ m, P γ → P (M.next γ m)) {p : Prog S R α} {γ : Γ}
    {Q : Γ → S → α → Prop} (h : M.Obeys p γ Q) (hγ : P γ) : M.Obeys p γ fun γ' s a => Q γ' s a ∧ P γ' := by
  induction p generalizing γ with
  | ret s a => exact ⟨h, hγ⟩
  | call s e k ih => exact ⟨h.1, fun r hr => ih r (h.2 r hr) (hP _ _ hγ)⟩

/-- Two ends of one program meet. -/
theorem Obeys.and {p : Prog S R α} {γ : Γ} {Q Q' : Γ → S → α → Prop} (h : M.Obeys p γ Q)
    (h' : M.Obeys p γ Q') : M.Obeys p γ fun γ' s a => Q γ' s a ∧ Q' γ' s a := by
  induction p generalizing γ with
  | ret s a => exact ⟨h, h'⟩
  | call s e k ih => exact ⟨h.1, fun r hr => ih r (h.2 r hr) (h'.2 r hr)⟩

/-- Where every call can be answered, a program comes to an end. -/
theorem Obeys.ended {p : Prog S R α} {γ : Γ} {Q : Γ → S → α → Prop} (h : M.Obeys p γ Q)
    (hans : ∀ γ s e, ∃ r, M.assume γ (.answered s e r)) : ∃ γ' s a, Q γ' s a := by
  induction p generalizing γ with
  | ret s a => exact ⟨γ, s, a, h⟩
  | call s e k ih =>
      obtain ⟨r, hr⟩ := hans γ s e
      exact ih r (h.2 r hr)

/-- Where nothing is assumed, what is promised holds of every call. -/
theorem Obeys.calls {P : E → Prop} (hok : ∀ γ s e, M.ok γ s e → P e) (hassume : ∀ γ m, M.assume γ m)
    {p : Prog S R α} {γ : Γ} {Q : Γ → S → α → Prop} (h : M.Obeys p γ Q) : p.Calls P := by
  induction p generalizing γ with
  | ret s a => trivial
  | call s e k ih => exact ⟨hok γ s e h.1, fun r => ih r (h.2 r (hassume _ _))⟩

/-- Sequential composition: the second part starts from what the first one ends in. -/
theorem obeys_bind {p : Prog S R α} {f : S → α → Prog S R β} {γ : Γ} {Q : Γ → S → β → Prop} :
    M.Obeys (p.bind f) γ Q ↔ M.Obeys p γ fun γ' s a => M.Obeys (f s a) γ' Q := by
  induction p generalizing γ with
  | ret s a => rfl
  | call s e k ih => simp only [Prog.call_bind, obeys_call, ih]

/-- What a program that obeys the monitor ends in, when the monitor assumes no more than `allow`. -/
theorem Obeys.ends {allow : S → (e : E) → R e → Prop} {Q : S → α → Prop} {p : Prog S R α} {γ : Γ}
    (hallow : ∀ γ s e r, allow s e r → M.assume γ (.answered s e r))
    (h : M.Obeys p γ fun _ s a => Q s a) {s : S} {a : α} (he : p.Ends allow s a) : Q s a := by
  induction p generalizing γ with
  | ret s' a' =>
      obtain ⟨rfl, rfl⟩ := he
      exact h
  | call s' e k ih =>
      obtain ⟨r, hr, he⟩ := he
      exact ih r (h.2 r (hallow _ _ _ _ hr)) he

/-- A monitor for states shown as `f` and inputs shown as `h`, used on the states and inputs themselves. -/
def comap (f : S → S') (h : I → I') (M : Monitor Γ S' I' R) : Monitor Γ S I R where
  assume γ
    | .answered s e r => M.assume γ (.answered (f s) e r)
    | .received s i => M.assume γ (.received (f s) (h i))
  ok γ s e := M.ok γ (f s) e
  next γ
    | .answered s e r => M.next γ (.answered (f s) e r)
    | .received s i => M.next γ (.received (f s) (h i))

theorem obeys_map {f : S → S'} {h : I → I'} {g : α → β} {M : Monitor Γ S' I' R} {p : Prog S R α} {γ : Γ}
    {Q : Γ → S' → β → Prop} :
    M.Obeys (p.map f g) γ Q ↔ (M.comap f h).Obeys p γ fun γ' s a => Q γ' (f s) (g a) := by
  induction p generalizing γ with
  | ret s a => exact Iff.rfl
  | call s e k ih =>
      simp only [Prog.map, obeys_call, ih]
      exact Iff.rfl

/-- Some execution in which the assumption holds leads from `p` to a program that satisfies `P`. -/
def Leads (M : Monitor Γ S I R) (h : I → S → Prog S R (Option α)) (γ : Γ) (p : Prog S R (Option α))
    (P : Γ → Prog S R (Option α) → Prop) : Prop :=
  ∃ tr q, Exec h p tr q ∧ M.Assumed γ tr ∧ P (M.after γ tr) q

namespace Leads

variable {h : I → S → Prog S R (Option α)} {γ : Γ} {P : Γ → Prog S R (Option α) → Prop}

theorem here {p : Prog S R (Option α)} (hP : P γ p) : M.Leads h γ p P := ⟨[], p, .refl p, trivial, hP⟩

theorem call {s : S} {e : E} {k : R e → Prog S R (Option α)} (r : R e)
    (hr : M.assume γ (.answered s e r)) (hk : M.Leads h (M.next γ (.answered s e r)) (k r) P) :
    M.Leads h γ (.call s e k) P := by
  obtain ⟨tr, q, he, ha, hP⟩ := hk
  exact ⟨_, q, .answered r he, ⟨hr, ha⟩, hP⟩

theorem receive {s : S} (i : I) (hi : M.assume γ (.received s i))
    (hk : M.Leads h (M.next γ (.received s i)) (h i s) P) : M.Leads h γ (.ret s none) P := by
  obtain ⟨tr, q, he, ha, hP⟩ := hk
  exact ⟨_, q, .received i he, ⟨hi, ha⟩, hP⟩

end Leads

/-! ## Rules for computations -/

theorem obeys_seq {m : Interact S R α} {f : α → Interact S R β} {s : S} {γ : Γ}
    {Q : Γ → S → β → Prop} :
    M.Obeys ((m >>= f) s) γ Q ↔ M.Obeys (m s) γ fun γ' s' a => M.Obeys (f a s') γ' Q := obeys_bind

@[simp] theorem obeys_pure {a : α} {s : S} {γ : Γ} {Q : Γ → S → α → Prop} :
    M.Obeys ((pure a : Interact S R α) s) γ Q ↔ Q γ s a := Iff.rfl

/-- The rule for a sequence: what the first part ends in is enough for the second. -/
theorem Obeys.seq {m : Interact S R α} {f : α → Interact S R β} {s : S} {γ : Γ}
    {P : Γ → S → α → Prop} {Q : Γ → S → β → Prop} (h : M.Obeys (m s) γ P)
    (hf : ∀ γ' s' a, P γ' s' a → M.Obeys (f a s') γ' Q) : M.Obeys ((m >>= f) s) γ Q :=
  obeys_seq.mpr (h.mono hf)

theorem obeys_perform {e : E} {s : S} {γ : Γ} {Q : Γ → S → R e → Prop} :
    M.Obeys ((Interact.perform e : Interact S R (R e)) s) γ Q ↔ M.ok γ s e ∧
      ∀ r, M.assume γ (.answered s e r) → Q (M.next γ (.answered s e r)) s r := Iff.rfl

/-- A loop keeps what its body keeps; the invariant may speak of the elements still to come. -/
theorem obeys_forM {f : β → Interact S R PUnit} {P : List β → Γ → S → Prop}
    (body : ∀ x l γ s, P (x :: l) γ s → M.Obeys (f x s) γ fun γ' s' _ => P l γ' s')
    (l : List β) {γ : Γ} {s : S} (h : P l γ s) :
    M.Obeys (l.forM f s) γ fun γ' s' _ => P [] γ' s' := by
  induction l generalizing γ s with
  | nil => exact h
  | cons x l ih =>
      refine obeys_seq.mpr ((body x l γ s h).mono ?_)
      intro γ' s' _ h'
      exact ih h'

/-- A loop that stops at the first `true`. -/
theorem obeys_anyM {f : β → Interact S R Bool} {P : List β → Γ → S → Prop}
    {Q : Γ → S → Bool → Prop}
    (body : ∀ x l γ s, P (x :: l) γ s →
      M.Obeys (f x s) γ fun γ' s' b => if b then Q γ' s' true else P l γ' s')
    (done : ∀ γ s, P [] γ s → Q γ s false)
    (l : List β) {γ : Γ} {s : S} (h : P l γ s) : M.Obeys (l.anyM f s) γ Q := by
  induction l generalizing γ s with
  | nil => exact done _ _ h
  | cons x l ih =>
      refine obeys_seq.mpr ((body x l γ s h).mono ?_)
      intro γ' s' b h'
      cases b with
      | true => exact h'
      | false => exact ih h'

/-- What every call of one kind keeps, a program that makes only such calls keeps. -/
theorem obeys_calls {P : E → Prop} {Q : Γ → Prop} (step : ∀ γ s e, Q γ → P e → M.ok γ s e ∧
      ∀ r, M.assume γ (.answered s e r) → Q (M.next γ (.answered s e r)))
    {p : Prog S R α} {γ : Γ} (hp : p.Calls P) (hγ : Q γ) : M.Obeys p γ fun γ' _ _ => Q γ' := by
  induction p generalizing γ with
  | ret s a => exact hγ
  | call s e k ih =>
      have h := step γ s e hγ hp.1
      exact ⟨h.1, fun r hr => ih r (hp.2 r) (h.2 r hr)⟩

/-! ## Executions -/

/-- A reactive program obeys the monitor when its first run does and every handler does, from any
state in which an earlier run may have left it waiting. -/
theorem obeys_exec {h : I → S → Prog S R (Option α)} {Q : Γ → S → Option α → Prop}
    (handlers : ∀ γ s i, Q γ s none → M.assume γ (.received s i) →
      M.Obeys (h i s) (M.next γ (.received s i)) Q)
    {p q : Prog S R (Option α)} {tr : List (Moment S I R)} (he : Exec h p tr q) {γ : Γ}
    (hp : M.Obeys p γ Q) (ha : M.Assumed γ tr) : M.Obeys q (M.after γ tr) Q := by
  induction he generalizing γ with
  | refl p => exact hp
  | answered r _ ih => exact ih (hp.2 r ha.1) ha.2
  | received i _ ih => exact ih (handlers _ _ i hp ha.1) ha.2

end Monitor

end Jefferies.Interaction
