import Jefferies.Scheduling.Graph

/-!
# What holds a task back

On a stalled board every waiting task has a dependency that has not succeeded. Going from a task to such a
dependency, and on from there, ends at a failed task, outside the graph, or in a cycle.
-/

namespace Jefferies.Scheduling

/-- A sequence leaves a finite set or comes back to a place in it, after at most as many steps as the set
has elements. -/
theorem exists_leaves_or_returns {ν : Type} (s : Finset ν) (w : ℕ → ν) :
    ∃ k ≤ s.card, (∀ i < k, w i ∈ s) ∧ (w k ∉ s ∨ ∃ j < k, w j = w k) := by
  classical
  by_cases hleave : ∃ k, k ≤ s.card ∧ w k ∉ s
  · obtain ⟨hk, hout⟩ := Nat.find_spec hleave
    refine ⟨Nat.find hleave, hk, fun i hi => ?_, Or.inl hout⟩
    have hmin := Nat.find_min hleave hi
    by_contra hi'
    exact hmin ⟨by omega, hi'⟩
  · have hin : ∀ k ≤ s.card, w k ∈ s := fun k hk => by
      by_contra hk'
      exact hleave ⟨k, hk, hk'⟩
    have hmaps : ∀ k ∈ Finset.range (s.card + 1), w k ∈ s := fun k hk => hin k (by simp at hk; omega)
    obtain ⟨i, hi, j, hj, hne, heq⟩ :=
      Finset.exists_ne_map_eq_of_card_lt_of_maps_to (by simp : s.card < (Finset.range (s.card + 1)).card) hmaps
    simp only [Finset.mem_range] at hi hj
    rcases Nat.lt_or_gt_of_ne hne with hlt | hlt
    · exact ⟨j, by omega, fun m hm => hin m (by omega), Or.inr ⟨i, hlt, heq⟩⟩
    · exact ⟨i, by omega, fun m hm => hin m (by omega), Or.inr ⟨j, hlt, heq.symm⟩⟩

namespace Graph

variable {ν : Type} {g : Graph ν} {b : Board ν} {w : ℕ → ν}

/-- The waiting task `n` cannot start because of `d`. -/
def HeldBy (g : Graph ν) (b : Board ν) (n d : ν) : Prop :=
  n ∈ g.tasks ∧ b n = .waiting ∧ d ∈ g.deps n ∧ b d ≠ .succeeded

/-- A sequence that goes on from every waiting task to what holds it back. -/
def Follows (g : Graph ν) (b : Board ν) (w : ℕ → ν) : Prop :=
  ∀ i, w i ∈ g.tasks → b (w i) = .waiting → g.HeldBy b (w i) (w (i + 1))

theorem Stalled.exists_heldBy (h : g.Stalled b) {n : ν} (hn : n ∈ g.tasks) (hw : b n = .waiting) :
    ∃ d, g.HeldBy b n d := by
  have hfree := h.2 n hn hw
  simp only [Free, not_forall] at hfree
  obtain ⟨d, hd, hb⟩ := hfree
  exact ⟨d, hn, hw, hd, hb⟩

theorem Stalled.exists_follows (h : g.Stalled b) (n : ν) : ∃ w, w 0 = n ∧ g.Follows b w := by
  have hstep : ∀ m, ∃ d, m ∈ g.tasks → b m = .waiting → g.HeldBy b m d := by
    intro m
    by_cases hm : m ∈ g.tasks ∧ b m = .waiting
    · obtain ⟨d, hd⟩ := h.exists_heldBy hm.1 hm.2
      exact ⟨d, fun _ _ => hd⟩
    · exact ⟨m, fun ht hw => absurd ⟨ht, hw⟩ hm⟩
  choose next hnext using hstep
  refine ⟨fun i => next^[i] n, rfl, fun i hi hw => ?_⟩
  simp only [Function.iterate_succ_apply']
  exact hnext _ hi hw

/-- A stretch of waiting tasks in such a sequence. -/
theorem Follows.transGen (h : g.Follows b w) {j k : ℕ} (hjk : j < k)
    (hwait : ∀ i < k, w i ∈ g.tasks ∧ b (w i) = .waiting) :
    Relation.TransGen (g.HeldBy b) (w j) (w k) := by
  induction k, hjk using Nat.le_induction with
  | base => exact .single (h j (hwait j (by simp)).1 (hwait j (by simp)).2)
  | succ k _ ih =>
      have hk := hwait k (by simp)
      exact (ih fun i hi => hwait i (by omega)).tail (h k hk.1 hk.2)

/-- Where a sequence ends that goes from a waiting task to what holds it back. -/
theorem Stalled.blame (hst : g.Stalled b) (h : g.Follows b w) (hw : b (w 0) = .waiting) :
    ∃ k ≤ g.tasks.card, (∀ i < k, w i ∈ g.tasks ∧ b (w i) = .waiting) ∧
      (w k ∉ g.tasks ∨ b (w k) = .failed ∨ Relation.TransGen (g.HeldBy b) (w k) (w k)) := by
  obtain ⟨k, hk, hbefore, hend⟩ := exists_leaves_or_returns (g.tasks.filter fun n => b n = .waiting) w
  simp only [Finset.mem_filter] at hbefore hend
  refine ⟨k, hk.trans (Finset.card_filter_le _ _), hbefore, ?_⟩
  rcases hend with hleaves | ⟨j, hjk, hreturns⟩
  · by_cases htask : w k ∈ g.tasks
    · right; left
      cases hphase : b (w k) with
      | failed => rfl
      | waiting => exact absurd ⟨htask, hphase⟩ hleaves
      | running => exact absurd hphase (hst.1 _)
      | succeeded =>
          -- nobody is held back by what has succeeded, and the sequence did not start there
          cases k with
          | zero => simp [hphase] at hw
          | succ k =>
              have hprev := hbefore k (by simp)
              exact absurd hphase (h k hprev.1 hprev.2).2.2.2
    · exact Or.inl htask
  · right; right
    have hcycle := h.transGen hjk hbefore
    rwa [hreturns] at hcycle

end Graph

end Jefferies.Scheduling
