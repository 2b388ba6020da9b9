import Jefferies.Collections.Text

/-!
# Ordered maps

What one insertion and a sequence of insertions do to an ordered map.
-/

namespace Jefferies.BTreeMap

variable {α : Type}

def keys (m : BTreeMap α) : List String := m.map Prod.fst

/-- The keys ascend. -/
def Ascending (m : BTreeMap α) : Prop := m.keys.Pairwise (· < ·)

/-- One insertion after the other. -/
def insertAll (m : BTreeMap α) (l : List (String × α)) : BTreeMap α := l.foldl (fun m e => insert e.1 e.2 m) m

/-! ## One insertion -/

theorem mem_keys_insert {m : BTreeMap α} {k k' : String} {a : α} : k' ∈ (insert k a m).keys ↔ k' = k ∨ k' ∈ m.keys := by
  induction m with
  | nil => simp [insert, keys]
  | cons e m ih =>
      obtain ⟨k₀, a₀⟩ := e
      simp only [insert]
      split
      · simp [keys]
      · split
        · rename_i he
          subst he
          simp [keys]
        · simp only [keys, List.map_cons, List.mem_cons] at ih ⊢
          rw [ih]
          exact or_left_comm

theorem forall_mem_insert {m : BTreeMap α} {k : String} {a : α} {P : String × α → Prop} (hm : ∀ e ∈ m, P e)
    (ha : P (k, a)) : ∀ e ∈ insert k a m, P e := by
  induction m with
  | nil => simpa [insert] using ha
  | cons e m ih =>
      obtain ⟨hhead, htail⟩ := List.forall_mem_cons.mp hm
      simp only [insert]
      split
      · exact List.forall_mem_cons.mpr ⟨ha, hm⟩
      · split
        · exact List.forall_mem_cons.mpr ⟨ha, htail⟩
        · exact List.forall_mem_cons.mpr ⟨hhead, ih htail⟩

theorem lookup_cons_eq_ite {m : BTreeMap α} {k k' : String} {a : α} :
    List.lookup k' ((k, a) :: m) = if k' = k then some a else m.lookup k' := by
  rw [List.lookup_cons]
  by_cases h : k' = k
  · simp [h]
  · have hne : (k' == k) = false := by simpa using h
    simp [h, hne]

theorem lookup_insert {m : BTreeMap α} {k k' : String} {a : α} :
    (insert k a m).lookup k' = if k' = k then some a else m.lookup k' := by
  induction m with
  | nil => exact lookup_cons_eq_ite
  | cons e m ih =>
      obtain ⟨k₀, a₀⟩ := e
      simp only [insert]
      split
      · exact lookup_cons_eq_ite
      · split
        · rename_i he
          subst he
          rw [lookup_cons_eq_ite, lookup_cons_eq_ite]
          split <;> rfl
        · rename_i hne
          rw [lookup_cons_eq_ite, lookup_cons_eq_ite, ih]
          by_cases h₀ : k' = k₀
          · have hk : ¬k₀ = k := fun he => hne he.symm
            simp [h₀, hk]
          · simp [h₀]

theorem Ascending.insert {m : BTreeMap α} (h : m.Ascending) (k : String) (a : α) : (insert k a m).Ascending := by
  induction m with
  | nil => simp [BTreeMap.insert, Ascending, keys]
  | cons e m ih =>
      obtain ⟨k₀, a₀⟩ := e
      have hsplit := List.pairwise_cons.mp h
      simp only [BTreeMap.insert]
      split
      · rename_i hlt
        refine List.pairwise_cons.mpr ⟨?_, h⟩
        intro k' hk'
        rcases List.mem_cons.mp hk' with rfl | hk'
        · exact hlt
        · exact lt_trans hlt (hsplit.1 k' hk')
      · split
        · rename_i he
          subst he
          exact List.pairwise_cons.mpr hsplit
        · rename_i hnlt hne
          refine List.pairwise_cons.mpr ⟨?_, ih hsplit.2⟩
          intro k' hk'
          rcases mem_keys_insert.mp hk' with rfl | hk'
          · exact lt_of_le_of_ne (not_lt.mp hnlt) (Ne.symm hne)
          · exact hsplit.1 k' hk'

theorem Ascending.nodup {m : BTreeMap α} (h : m.Ascending) : m.keys.Nodup := h.imp fun hlt => ne_of_lt hlt

/-! ## Many insertions -/

theorem insertAll_cons (m : BTreeMap α) (e : String × α) (l : List (String × α)) :
    insertAll m (e :: l) = insertAll (insert e.1 e.2 m) l := rfl

theorem insertAll_append (m : BTreeMap α) (l l' : List (String × α)) :
    insertAll m (l ++ l') = insertAll (insertAll m l) l' := List.foldl_append

theorem insertAll_flatMap {β : Type} (m : BTreeMap α) (f : β → List (String × α)) (l : List β) :
    l.foldl (fun m b => insertAll m (f b)) m = insertAll m (l.flatMap f) := by
  induction l generalizing m with
  | nil => rfl
  | cons b l ih => rw [List.foldl_cons, ih, List.flatMap_cons, insertAll_append]

theorem mem_keys_insertAll {m : BTreeMap α} {l : List (String × α)} {k : String} :
    k ∈ (insertAll m l).keys ↔ k ∈ l.map Prod.fst ∨ k ∈ m.keys := by
  induction l generalizing m with
  | nil => simp [insertAll]
  | cons e l ih =>
      rw [insertAll_cons, ih, mem_keys_insert, List.map_cons, List.mem_cons]
      exact ⟨fun h => by rcases h with h | h | h <;> simp [h], fun h => by rcases h with (h | h) | h <;> simp [h]⟩

theorem lookup_insertAll_of_notMem {m : BTreeMap α} {l : List (String × α)} {k : String} (h : k ∉ l.map Prod.fst) :
    (insertAll m l).lookup k = m.lookup k := by
  induction l generalizing m with
  | nil => rfl
  | cons e l ih =>
      rw [List.map_cons, List.mem_cons, not_or] at h
      rw [insertAll_cons, ih h.2, lookup_insert, if_neg h.1]

/-- Where all entries of a key agree, their value is found. -/
theorem lookup_insertAll {m : BTreeMap α} {l : List (String × α)} {k : String} {a : α} (hmem : (k, a) ∈ l)
    (hagree : ∀ a', (k, a') ∈ l → a' = a) : (insertAll m l).lookup k = some a := by
  induction l generalizing m with
  | nil => cases hmem
  | cons e l ih =>
      rw [insertAll_cons]
      by_cases hrest : (k, a) ∈ l
      · exact ih hrest fun a' ha' => hagree a' (List.mem_cons_of_mem _ ha')
      · have hhead : (k, a) = e := by
          rcases List.mem_cons.mp hmem with he | hmem
          · exact he
          · exact absurd hmem hrest
        subst hhead
        rw [lookup_insertAll_of_notMem, lookup_insert, if_pos rfl]
        intro hk
        obtain ⟨⟨k', a'⟩, he, rfl⟩ := List.mem_map.mp hk
        have := hagree a' (List.mem_cons_of_mem _ he)
        subst this
        exact hrest he

end Jefferies.BTreeMap
