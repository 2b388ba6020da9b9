import Mathlib.Data.List.Perm.Basic
import Mathlib.Data.List.Sort
import Mathlib.Data.List.Nodup

/-!
# Pages of a sorted list

A list is sorted anew for each page of it that is read, and elements that tie may come in any order each time. The pages
together have every element exactly once, however ties are broken, if no boundary between pages falls inside a group of
elements that tie.
-/

namespace Jefferies.Pages

open scoped List

variable {α : Type} {le : α → α → Bool} {rows l l' : List α} {n m : Nat}

/-- The list has the elements in an order that may be asked for. -/
structure Sorts (le : α → α → Bool) (rows l : List α) : Prop where
  perm : l.Perm rows
  sorted : l.Pairwise fun a b => le a b = true

/-- Of any two elements one may come first, and the order is transitive. -/
structure IsOrder (le : α → α → Bool) : Prop where
  total : ∀ a b, le a b = true ∨ le b a = true
  trans : ∀ a b c, le a b = true → le b c = true → le a c = true

/-- How many elements come before `a`, however ties are broken. -/
def before (le : α → α → Bool) (rows : List α) (a : α) : Nat := rows.countP fun b => !le a b

/-- How many elements come up to the last one that ties with `a`. -/
def upTo (le : α → α → Bool) (rows : List α) (a : α) : Nat := rows.countP fun b => le b a

/-- The boundary falls between elements that do not tie. -/
def Clean (le : α → α → Bool) (rows : List α) (m : Nat) : Prop :=
  ∀ a ∈ rows, ¬(before le rows a < m ∧ m < upTo le rows a)

/-- The page with the given number. -/
def page (n : Nat) (l : List α) (i : Nat) : List α := (l.drop (i * n)).take n

theorem IsOrder.refl (h : IsOrder le) (a : α) : le a a = true := (h.total a a).elim id id

/-- In a sorted list, what holds of all that comes before holds of a front of the list. -/
theorem lt_countP_iff {p : α → Bool} (hl : l.Pairwise fun a b => le a b = true)
    (hp : ∀ a b, le a b = true → p b = true → p a = true) {i : Nat} (hi : i < l.length) :
    i < l.countP p ↔ p l[i] = true := by
  induction l generalizing i with
  | nil => exact absurd hi (by simp)
  | cons a l ih =>
      obtain ⟨hfirst, hrest⟩ := List.pairwise_cons.mp hl
      cases ha : p a with
      | true =>
          rw [List.countP_cons_of_pos ha]
          cases i with
          | zero => simp [ha]
          | succ i =>
              rw [Nat.succ_lt_succ_iff]
              exact ih hrest (by simpa using hi)
      | false =>
          have hnone : ∀ b ∈ a :: l, p b = false := by
            intro b hb
            rcases List.mem_cons.mp hb with rfl | hb
            · exact ha
            · cases hpb : p b with
              | false => rfl
              | true =>
                  rw [hp a b (hfirst b hb) hpb] at ha
                  cases ha
          rw [List.countP_eq_zero.mpr fun b hb => by simp [hnone b hb], hnone _ (List.getElem_mem hi)]
          simp

section

variable (hle : IsOrder le)

include hle

theorem Sorts.lt_upTo_iff (h : Sorts le rows l) (a : α) {i : Nat} (hi : i < l.length) :
    i < upTo le rows a ↔ le l[i] a = true := by
  rw [upTo, ← h.perm.countP_eq]
  exact lt_countP_iff h.sorted (fun b c hbc hca => hle.trans b c a hbc hca) hi

theorem Sorts.before_le_iff (h : Sorts le rows l) (a : α) {i : Nat} (hi : i < l.length) :
    before le rows a ≤ i ↔ le a l[i] = true := by
  have hiff : i < before le rows a ↔ (!le a l[i]) = true := by
    rw [before, ← h.perm.countP_eq]
    refine lt_countP_iff h.sorted (fun b c hbc hac => ?_) hi
    simp only [Bool.not_eq_true'] at hac ⊢
    by_contra hab
    rw [hle.trans a b c (by simpa using hab) hbc] at hac
    cases hac
  rw [← Nat.not_lt, hiff]
  simp

/-- What comes before a clean boundary does not depend on how ties are broken. -/
theorem Sorts.mem_take (h : Sorts le rows l) (hm : Clean le rows m) (a : α) :
    a ∈ l.take m ↔ a ∈ rows ∧ upTo le rows a ≤ m := by
  constructor
  · intro ha
    obtain ⟨i, hi, rfl⟩ := List.mem_iff_getElem.mp ha
    rw [List.length_take, Nat.lt_min] at hi
    rw [List.getElem_take]
    have hmem : l[i] ∈ rows := h.perm.mem_iff.mp (List.getElem_mem _)
    have hbefore : before le rows l[i] ≤ i := (h.before_le_iff hle _ hi.2).mpr (hle.refl _)
    refine ⟨hmem, ?_⟩
    have hclean := hm _ hmem
    omega
  · rintro ⟨hmem, hupTo⟩
    obtain ⟨i, hi, rfl⟩ := List.mem_iff_getElem.mp (h.perm.mem_iff.mpr hmem)
    have hlt : i < upTo le rows l[i] := (h.lt_upTo_iff hle _ hi).mpr (hle.refl _)
    rw [List.mem_take_iff_getElem]
    exact ⟨i, by omega, rfl⟩

theorem Sorts.take_perm (h : Sorts le rows l) (h' : Sorts le rows l') (hnodup : rows.Nodup) (hm : Clean le rows m) :
    (l.take m).Perm (l'.take m) := by
  rw [List.perm_ext_iff_of_nodup]
  · intro a
    rw [h.mem_take hle hm, h'.mem_take hle hm]
  · exact (h.perm.nodup_iff.mpr hnodup).sublist (List.take_sublist _ _)
  · exact (h'.perm.nodup_iff.mpr hnodup).sublist (List.take_sublist _ _)

/-- If no boundary falls inside a group of elements that tie, the pages so far have what comes first in any order. -/
theorem pages_perm_take {ls : Nat → List α} (hls : ∀ i, Sorts le rows (ls i)) (hnodup : rows.Nodup)
    (hclean : ∀ i, Clean le rows (i * n)) (k : Nat) :
    ((List.range k).flatMap fun i => page n (ls i) i).Perm ((ls k).take (k * n)) := by
  induction k with
  | zero => simp
  | succ k ih =>
      rw [List.range_succ, List.flatMap_append, List.flatMap_singleton]
      calc ((List.range k).flatMap fun i => page n (ls i) i) ++ page n (ls k) k
        _ ~ (ls k).take (k * n) ++ page n (ls k) k := ih.append_right _
        _ = (ls k).take ((k + 1) * n) := by rw [page, Nat.succ_mul, List.take_add]
        _ ~ (ls (k + 1)).take ((k + 1) * n) := (hls k).take_perm hle (hls (k + 1)) hnodup (hclean (k + 1))

end

/-- Two neighbours that tie may come the other way round. -/
theorem Sorts.swap {p q : List α} {x y : α} (h : Sorts le rows (p ++ x :: y :: q)) (hyx : le y x = true) :
    Sorts le rows (p ++ y :: x :: q) := by
  refine ⟨(List.Perm.append_left p (List.Perm.swap x y q)).trans h.perm, ?_⟩
  have hsorted := h.sorted
  simp only [List.pairwise_append, List.pairwise_cons, List.mem_cons, forall_eq_or_imp] at hsorted ⊢
  obtain ⟨hp, ⟨⟨_, hx⟩, hy, hq⟩, hpq⟩ := hsorted
  exact ⟨hp, ⟨⟨hyx, hy⟩, hx, hq⟩, fun a ha => ⟨(hpq a ha).2.1, (hpq a ha).1, (hpq a ha).2.2⟩⟩

theorem exists_sorts (hle : IsOrder le) (rows : List α) : ∃ l, Sorts le rows l := by
  refine ⟨rows.mergeSort le, List.mergeSort_perm rows le, List.pairwise_mergeSort ?_ ?_ rows⟩
  · exact hle.trans
  · intro a b
    simpa using hle.total a b

/-- The elements on the two sides of a boundary that is not clean tie. -/
theorem Sorts.ties (hle : IsOrder le) (h : Sorts le rows l) (hm : ¬Clean le rows m) :
    ∃ p q x y, p.length + 1 = m ∧ l = p ++ x :: y :: q ∧ le y x = true := by
  simp only [Clean, not_forall, not_not] at hm
  obtain ⟨a, ha, hbefore, hupTo⟩ := hm
  have hlength : upTo le rows a ≤ l.length := by
    rw [h.perm.length_eq]
    exact List.countP_le_length
  obtain ⟨k, rfl⟩ : ∃ k, m = k + 1 := ⟨m - 1, by omega⟩
  have hk : k < l.length := by omega
  have hk' : k + 1 < l.length := by omega
  refine ⟨l.take k, l.drop (k + 2), l[k], l[k + 1], by simp; omega, ?_, ?_⟩
  · rw [List.getElem_cons_drop, List.getElem_cons_drop, List.take_append_drop]
  · exact hle.trans _ a _ ((h.lt_upTo_iff hle a hk').mp hupTo) ((h.before_le_iff hle a hk).mp (by omega))

theorem mem_page {i j : Nat} {a : α} (ha : l[j]? = some a) (hfirst : i * n ≤ j) (hlast : j < i * n + n) :
    a ∈ page n l i := by
  rw [page, List.mem_iff_getElem?]
  refine ⟨j - i * n, ?_⟩
  rw [List.getElem?_take_of_lt (by omega), List.getElem?_drop, Nat.add_sub_cancel' hfirst]
  exact ha

/-- Pages that are sorted one by one have every element exactly once, however ties are broken, if and only if no boundary
between them falls inside a group of elements that tie. -/
theorem pages_perm_iff (hle : IsOrder le) (hnodup : rows.Nodup) (hn : 0 < n) {k : Nat} (hk : rows.length ≤ k * n) :
    (∀ ls : Nat → List α, (∀ i, Sorts le rows (ls i)) → ((List.range k).flatMap fun i => page n (ls i) i) ~ rows) ↔
      ∀ i, Clean le rows (i * n) := by
  constructor
  · intro hpages i
    by_contra hclean
    obtain ⟨l, hl⟩ := exists_sorts hle rows
    obtain ⟨p, q, x, y, hp, rfl, hyx⟩ := hl.ties hle hclean
    cases i with
    | zero => omega
    | succ i =>
        -- one page ends with `x`, and the next one, sorted the other way, begins with it
        have hperm := hpages (fun j => if j = i then p ++ x :: y :: q else p ++ y :: x :: q) (by
          intro j
          split
          · exact hl
          · exact hl.swap hyx)
        have hlength : p.length + 2 ≤ rows.length := by
          rw [← hl.perm.length_eq]
          simp
        have hsucc : (i + 1) * n = i * n + n := Nat.succ_mul i n
        have hlt : i + 1 < k := Nat.lt_of_mul_lt_mul_right (a := n) (by omega)
        have hdisjoint := (List.nodup_flatMap.mp (hperm.nodup_iff.mpr hnodup)).2
        rw [List.pairwise_iff_getElem] at hdisjoint
        have happart := hdisjoint i (i + 1) (by simpa using Nat.lt_of_succ_lt hlt) (by simpa using hlt) (Nat.lt_succ_self i)
        simp only [List.getElem_range, Function.onFun, if_true, if_neg (Nat.succ_ne_self i)] at happart
        refine happart (mem_page (j := p.length) (a := x) (by simp) (by omega) (by omega))
          (mem_page (j := p.length + 1) (by simp) (by omega) (by omega))
  · intro hclean ls hls
    have hperm := pages_perm_take hle hls hnodup hclean k
    rw [List.take_of_length_le (by rw [(hls k).perm.length_eq]; exact hk)] at hperm
    exact hperm.trans (hls k).perm

end Jefferies.Pages
