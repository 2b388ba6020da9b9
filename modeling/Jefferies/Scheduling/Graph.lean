import Mathlib

/-!
# Scheduling a dependency graph

Tasks wait for other tasks. A waiting task may start when all it waits for has succeeded, and a running
task may finish. What has succeeded when nothing can move any more is a least fixed point, whatever the
order of the steps, and it is every task exactly when the graph has no cycle.
-/

namespace Jefferies.Scheduling

structure Graph (ν : Type) where
  tasks : Finset ν
  deps : ν → Set ν

inductive Phase where
  | waiting
  | running
  | succeeded
  | failed
  deriving DecidableEq

/-- The phase of every task; what is no task stays waiting. -/
abbrev Board (ν : Type) : Type := ν → Phase

namespace Graph

variable {ν : Type} (g : Graph ν)

/-! ## The reference result -/

/-- The tasks that succeed if those in `X` have succeeded and `o` tells how each task ends. -/
def resultOf (o : ν → Prop) : Set ν →o Set ν where
  toFun X := {n | n ∈ g.tasks ∧ o n ∧ g.deps n ⊆ X}
  monotone' _ _ h _ hn := ⟨hn.1, hn.2.1, hn.2.2.trans h⟩

/-- The tasks that succeed: the least set closed under `resultOf`. -/
def succeeds (o : ν → Prop) : Set ν := (g.resultOf o).lfp

variable {g} {o : ν → Prop}

theorem mem_resultOf {X : Set ν} {n : ν} : n ∈ g.resultOf o X ↔ n ∈ g.tasks ∧ o n ∧ g.deps n ⊆ X := Iff.rfl

theorem mem_succeeds {n : ν} :
    n ∈ g.succeeds o ↔ n ∈ g.tasks ∧ o n ∧ g.deps n ⊆ g.succeeds o := by
  rw [← mem_resultOf, succeeds, OrderHom.map_lfp]

theorem succeeds_subset {X : Set ν} (h : ∀ n ∈ g.tasks, o n → g.deps n ⊆ X → n ∈ X) :
    g.succeeds o ⊆ X := OrderHom.lfp_le _ fun n hn => h n hn.1 hn.2.1 hn.2.2

/-! ## Cycles -/

/-- `n` waits for `d`. -/
def WaitsFor (g : Graph ν) (n d : ν) : Prop := n ∈ g.tasks ∧ d ∈ g.deps n

def Acyclic (g : Graph ν) : Prop := ∀ n, ¬Relation.TransGen g.WaitsFor n n

/-- In a graph without cycles that names only its own tasks, everything succeeds. -/
theorem Acyclic.succeeds_eq (h : g.Acyclic) (hdeps : ∀ n ∈ g.tasks, g.deps n ⊆ g.tasks) :
    g.succeeds (fun _ => True) = g.tasks := by
  apply subset_antisymm
  · exact succeeds_subset fun n hn _ _ => hn
  · let before : g.tasks → g.tasks → Prop := fun d n => Relation.TransGen g.WaitsFor n.1 d.1
    have : IsTrans g.tasks before := ⟨fun _ _ _ hab hbc => hbc.trans hab⟩
    have : Std.Irrefl before := ⟨fun n => h n.1⟩
    have hwf : WellFounded before := Finite.wellFounded_of_trans_of_irrefl before
    intro n hn
    have key : ∀ n : g.tasks, n.1 ∈ g.succeeds fun _ => True := fun n =>
      hwf.induction n fun n ih => mem_succeeds.mpr
        ⟨n.2, trivial, fun d hd => ih ⟨d, hdeps n.1 n.2 hd⟩ (.single ⟨n.2, hd⟩)⟩
    exact key ⟨n, hn⟩

/-- What succeeds is not on a cycle. -/
theorem not_cyclic_of_mem_succeeds {n : ν} (h : n ∈ g.succeeds o) : ¬Relation.TransGen g.WaitsFor n n := by
  have hsub : g.succeeds o ⊆ {n | ¬Relation.TransGen g.WaitsFor n n} := by
    refine succeeds_subset fun n _ _ hd hcyc => ?_
    -- the task after `n` on the cycle lies on the same cycle
    obtain ⟨d, hw, hback⟩ := Relation.TransGen.head'_iff.mp hcyc
    exact hd hw.2 (.tail' hback hw)
  exact hsub h

theorem acyclic_of_tasks_subset (h : (g.tasks : Set ν) ⊆ g.succeeds o) : g.Acyclic := by
  intro n hn
  obtain ⟨_, hw, _⟩ := Relation.TransGen.head'_iff.mp hn
  exact not_cyclic_of_mem_succeeds (h hw.1) hn

/-! ## Steps -/

/-- All that `n` waits for has succeeded. -/
def Free (g : Graph ν) (b : Board ν) (n : ν) : Prop := ∀ d ∈ g.deps n, b d = .succeeded

def ended (ok : Bool) : Phase := if ok then .succeeded else .failed

variable [DecidableEq ν]

/-- A waiting task that is free starts, or a running task finishes as `may` allows. -/
inductive Step (g : Graph ν) (may : ν → Bool → Prop) : Board ν → Board ν → Prop
  | start {b n} : n ∈ g.tasks → b n = .waiting → g.Free b n → Step g may b (Function.update b n .running)
  | finish {b n ok} : b n = .running → may n ok → Step g may b (Function.update b n (ended ok))

/-- The boards that steps reach from the one where everything waits. -/
def Reach (g : Graph ν) (may : ν → Bool → Prop) : Board ν → Prop :=
  Relation.ReflTransGen (Step g may) fun _ => .waiting

/-- Nothing runs and nothing can start. -/
def Stalled (g : Graph ν) (b : Board ν) : Prop :=
  (∀ n, b n ≠ .running) ∧ ∀ n ∈ g.tasks, b n = .waiting → ¬g.Free b n

variable {may : ν → Bool → Prop} {b b' : Board ν}

theorem Step.succeeded_stays (h : Step g may b b') {n : ν} (hn : b n = .succeeded) : b' n = .succeeded := by
  cases h with
  | @start m _ hw _ =>
      rw [Function.update_of_ne]
      · exact hn
      · rintro rfl; simp [hn] at hw
  | @finish m ok hr _ =>
      rw [Function.update_of_ne]
      · exact hn
      · rintro rfl; simp [hn] at hr

theorem Step.free_stays (h : Step g may b b') {n : ν} (hn : g.Free b n) : g.Free b' n :=
  fun d hd => h.succeeded_stays (hn d hd)

theorem Reach.mono {may' : ν → Bool → Prop} (h : Reach g may b) (hm : ∀ n ok, may n ok → may' n ok) :
    Reach g may' b := by
  induction h with
  | refl => exact .refl
  | tail _ hs ih =>
      cases hs with
      | start hn hw hf => exact ih.tail (.start hn hw hf)
      | finish hr ho => exact ih.tail (.finish hr (hm _ _ ho))

/-- A task that has left the waiting phase is free. -/
theorem Reach.free (h : Reach g may b) {n : ν} (hn : b n ≠ .waiting) : n ∈ g.tasks ∧ g.Free b n := by
  induction h with
  | refl => exact absurd rfl hn
  | @tail b b' _ hs ih =>
      have hb : b n ≠ .waiting → n ∈ g.tasks ∧ g.Free b' n := fun hb => ⟨(ih hb).1, hs.free_stays (ih hb).2⟩
      cases hs with
      | @start m hm hw hf =>
          by_cases hmn : n = m
          · subst hmn
            exact ⟨hm, (Step.start hm hw hf : Step g may b _).free_stays hf⟩
          · exact hb (by rwa [Function.update_of_ne hmn] at hn)
      | @finish m ok hr _ =>
          by_cases hmn : n = m
          · subst hmn
            exact hb (by simp [hr])
          · exact hb (by rwa [Function.update_of_ne hmn] at hn)

/-- Only what ends well by `o` has succeeded, and only what does not has failed. -/
theorem Reach.outcome (hmay : ∀ n ok, may n ok → (ok = true ↔ o n)) (h : Reach g may b) (n : ν) :
    (b n = .succeeded → o n) ∧ (b n = .failed → ¬o n) := by
  induction h with
  | refl => simp
  | @tail b b' _ hs ih =>
      cases hs with
      | @start m _ _ _ =>
          by_cases hmn : n = m
          · subst hmn; simp
          · simpa [Function.update_of_ne hmn] using ih
      | @finish m ok _ hm =>
          by_cases hmn : n = m
          · subst hmn
            have := hmay n ok hm
            cases ok <;> simp_all [ended]
          · simpa [Function.update_of_ne hmn] using ih

theorem Reach.succeeded_subset (hmay : ∀ n ok, may n ok → (ok = true ↔ o n)) (h : Reach g may b) :
    {n | b n = .succeeded} ⊆ g.succeeds o := by
  induction h with
  | refl => intro n hn; simp at hn
  | @tail b b' hr hs ih =>
      intro n hn
      have hout := Reach.outcome hmay (hr.tail hs) n
      cases hs with
      | @start m _ _ _ =>
          by_cases hmn : n = m
          · subst hmn; simp at hn
          · exact ih (by simpa [Function.update_of_ne hmn] using hn)
      | @finish m ok hrun hm =>
          by_cases hmn : n = m
          · subst hmn
            have hfree := Reach.free hr (n := n) (by simp [hrun])
            exact mem_succeeds.mpr ⟨hfree.1, hout.1 hn, fun d hd => ih (hfree.2 d hd)⟩
          · exact ih (by simpa [Function.update_of_ne hmn] using hn)

/-! ## Where nothing moves -/

/-- The order of the steps does not matter: a stalled board shows the reference result. -/
theorem Reach.stalled_eq (hmay : ∀ n ok, may n ok → (ok = true ↔ o n)) (h : Reach g may b)
    (hst : g.Stalled b) :
    (∀ n, b n = .succeeded ↔ n ∈ g.succeeds o) ∧
      ∀ n, b n = .failed ↔ n ∈ g.tasks ∧ ¬o n ∧ g.deps n ⊆ g.succeeds o := by
  have hclosed : ∀ n ∈ g.tasks, g.Free b n → b n = .succeeded ∨ b n = .failed := by
    intro n hn hf
    cases hb : b n with
    | waiting => exact absurd hf (hst.2 n hn hb)
    | running => exact absurd hb (hst.1 n)
    | succeeded => exact Or.inl rfl
    | failed => exact Or.inr rfl
  have hsub : g.succeeds o ⊆ {n | b n = .succeeded} := by
    refine succeeds_subset fun n hn ho hd => ?_
    rcases hclosed n hn fun d hd' => hd hd' with hs | hf
    · exact hs
    · exact absurd ho ((h.outcome hmay n).2 hf)
  have hiff : ∀ n, b n = .succeeded ↔ n ∈ g.succeeds o :=
    fun n => ⟨fun hn => h.succeeded_subset hmay hn, fun hn => hsub hn⟩
  refine ⟨hiff, fun n => ⟨fun hn => ?_, fun ⟨hn, ho, hd⟩ => ?_⟩⟩
  · have hfree := h.free (n := n) (by simp [hn])
    exact ⟨hfree.1, (h.outcome hmay n).2 hn, fun d hd => (hiff d).mp (hfree.2 d hd)⟩
  · rcases hclosed n hn fun d hd' => (hiff d).mpr (hd hd') with hs | hf
    · exact absurd ((h.outcome hmay n).1 hs) ho
    · exact hf

/-- How much is still to be done on a board. -/
def work (g : Graph ν) (b : Board ν) : Nat :=
  ∑ n ∈ g.tasks, match b n with
    | .waiting => 2
    | .running => 1
    | _ => 0

theorem work_update_lt {n : ν} {p : Phase} (hn : n ∈ g.tasks)
    (hp : (b n = .waiting ∧ p ≠ .waiting) ∨ (b n = .running ∧ p ≠ .waiting ∧ p ≠ .running)) :
    g.work (Function.update b n p) < g.work b := by
  refine Finset.sum_lt_sum (fun m _ => ?_) ⟨n, hn, ?_⟩
  · by_cases hmn : m = n
    · subst hmn
      rcases hp with ⟨h, hp⟩ | ⟨h, hp, hp'⟩ <;> cases p <;> simp_all
    · simp [Function.update_of_ne hmn]
  · rcases hp with ⟨h, hp⟩ | ⟨h, hp, hp'⟩ <;> cases p <;> simp_all

/-- Every step leaves less to do, so no schedule goes on for ever. -/
theorem Reach.work_lt (h : Reach g may b) (hs : Step g may b b') : g.work b' < g.work b := by
  cases hs with
  | @start n hn hw _ => exact work_update_lt hn (Or.inl ⟨hw, by simp⟩)
  | @finish n ok hr _ =>
      have hn := (Reach.free h (n := n) (by simp [hr])).1
      exact work_update_lt hn (Or.inr ⟨hr, by cases ok <;> simp [ended], by cases ok <;> simp [ended]⟩)

/-- Some schedule in which nothing fails leads to a stalled board. -/
theorem exists_stalled (g : Graph ν) :
    ∃ b, Reach g (fun _ ok => ok = true) b ∧ g.Stalled b := by
  have key : ∀ k b, g.work b ≤ k → Reach g (fun _ ok => ok = true) b →
      ∃ b', Reach g (fun _ ok => ok = true) b' ∧ g.Stalled b' := by
    intro k
    induction k with
    | zero =>
        intro b hk hb
        refine ⟨b, hb, fun n hn => ?_, fun n hn hw hf => ?_⟩
        · exact absurd (hb.work_lt (.finish hn rfl)) (by omega)
        · exact absurd (hb.work_lt (.start hn hw hf)) (by omega)
    | succ k ih =>
        intro b hk hb
        by_cases hst : g.Stalled b
        · exact ⟨b, hb, hst⟩
        · have hstep : ∃ b', Step g (fun _ ok => ok = true) b b' := by
            rw [Stalled, not_and_or] at hst
            rcases hst with h | h
            · push Not at h
              obtain ⟨n, hn⟩ := h
              exact ⟨_, .finish hn rfl⟩
            · push Not at h
              obtain ⟨n, hn, hw, hf⟩ := h
              exact ⟨_, .start hn hw hf⟩
          obtain ⟨b', hs⟩ := hstep
          have hlt := hb.work_lt hs
          exact ih b' (by omega) (hb.tail hs)
  exact key _ _ (Nat.le_refl _) .refl

/-- Every stalled board without failures is finished, whatever the schedule, exactly when there is no
cycle. -/
theorem all_succeed_iff_acyclic (hdeps : ∀ n ∈ g.tasks, g.deps n ⊆ g.tasks) :
    (∀ b, Reach g (fun _ _ => True) b → g.Stalled b → (∀ n, b n ≠ .failed) →
      ∀ n ∈ g.tasks, b n = .succeeded) ↔ g.Acyclic := by
  constructor
  · intro h
    obtain ⟨b, hb, hst⟩ := exists_stalled g
    have hall : Reach g (fun _ _ => True) b := hb.mono fun _ _ _ => trivial
    have hmay : ∀ (n : ν) (ok : Bool), ok = true → (ok = true ↔ True) := fun _ _ h => by simp [h]
    have hfail : ∀ n, b n ≠ .failed := fun n hn => (Reach.outcome hmay hb n).2 hn trivial
    exact acyclic_of_tasks_subset fun n hn => Reach.succeeded_subset hmay hb (h b hall hst hfail n hn)
  · intro hac b _ hst hfail n hn
    have hsub : g.succeeds (fun _ => True) ⊆ {n | b n = .succeeded} := by
      refine succeeds_subset fun n hn _ hd => ?_
      cases hb : b n with
      | waiting => exact absurd (fun d hd' => hd hd') (hst.2 n hn hb)
      | running => exact absurd hb (hst.1 n)
      | succeeded => exact hb
      | failed => exact absurd hb (hfail n)
    exact hsub (by rw [hac.succeeds_eq hdeps]; exact hn)

end Graph

end Jefferies.Scheduling
