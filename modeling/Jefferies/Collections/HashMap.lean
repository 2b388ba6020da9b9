import Mathlib.Data.Finmap
import Mathlib.Data.List.Sort

/-!
# Hash maps

A hash map is a finite map whose iteration order is not specified. Here the map is `Finmap`, which has
no order, and a program that iterates over one receives the order from outside.
-/

namespace Jefferies

/-- A hash map: finitely many keys, one value for each, no order. -/
abbrev HashMap (κ α : Type) : Type := Finmap (fun _ : κ => α)

namespace HashMap

variable {κ α β : Type} [DecidableEq κ]

/-! ## Construction -/

/-- Collecting pairs into a map: a later pair replaces an earlier one with the same key. -/
def ofList (l : List (κ × α)) : HashMap κ α :=
  l.foldl (fun m p => m.insert p.1 p.2) ∅

/-- The same keys, every value mapped by `f`. -/
def mapValues (f : α → β) (m : HashMap κ α) : HashMap κ β where
  entries := m.entries.map fun p => ⟨p.1, f p.2⟩
  nodupKeys := by
    have h : (m.entries.map fun p => (⟨p.1, f p.2⟩ : Sigma fun _ : κ => β)).keys = m.entries.keys := by
      simp only [Multiset.keys, Multiset.map_map, Function.comp_apply]
    rw [← Multiset.nodup_keys, h, Multiset.nodup_keys]
    exact m.nodupKeys

/-- The keys whose value satisfies `p`. -/
def keysWhere (m : HashMap κ α) (p : κ → α → Bool) : Finset κ :=
  m.keys.filter fun k => (m.lookup k).any (p k)

/-- `values().any(p)`. -/
def anyValue (m : HashMap κ α) (p : α → Bool) : Bool :=
  decide (∃ k ∈ m.keys, (m.lookup k).any p)

/-- `values().all(p)`. -/
def allValues (m : HashMap κ α) (p : α → Bool) : Bool :=
  decide (∀ k ∈ m.keys, (m.lookup k).all p)

/-- A way of iterating over hash maps: every entry once, in an order that nothing else fixes. -/
structure IterOrder (κ α : Type) [DecidableEq κ] where
  entries : HashMap κ α → List (κ × α)
  nodup_entries : ∀ m, (entries m).Nodup
  mem_entries : ∀ {m k a}, (k, a) ∈ entries m ↔ m.lookup k = some a

/-! ## Lookup -/

theorem lookup_insert_eq_ite (m : HashMap κ α) (k k' : κ) (a : α) :
    (m.insert k a).lookup k' = if k' = k then some a else m.lookup k' := by
  split
  · rename_i h; subst h; exact Finmap.lookup_insert m
  · rename_i h; exact Finmap.lookup_insert_of_ne m h

theorem lookup_erase_eq_ite (m : HashMap κ α) (k k' : κ) :
    (m.erase k).lookup k' = if k' = k then none else m.lookup k' := by
  split
  · rename_i h; subst h; exact Finmap.lookup_erase k' m
  · rename_i h; exact Finmap.lookup_erase_ne h

theorem mem_keys_iff_lookup {m : HashMap κ α} {k : κ} : k ∈ m.keys ↔ ∃ a, m.lookup k = some a := by
  rw [Finmap.mem_keys, Finmap.mem_iff]

theorem eq_empty_of_keys {m : HashMap κ α} (h : m.keys = ∅) : m = ∅ := by
  apply Finmap.ext_lookup
  intro k
  have hk : k ∉ m := by
    rw [← Finmap.mem_keys, h]
    simp
  simpa using Finmap.lookup_eq_none.mpr hk

theorem keys_insert (m : HashMap κ α) (k : κ) (a : α) : (m.insert k a).keys = insert k m.keys := by
  ext x
  simp [Finmap.mem_keys, Finmap.mem_insert]

/-- Writing to a key that is present leaves the keys as they are. -/
theorem keys_insert_of_mem {m : HashMap κ α} {k : κ} (h : k ∈ m.keys) (a : α) :
    (m.insert k a).keys = m.keys := by
  rw [keys_insert, Finset.insert_eq_of_mem h]

theorem lookup_foldl_insert (l : List (κ × α)) (m : HashMap κ α) (k : κ) :
    (l.foldl (fun m p => m.insert p.1 p.2) m).lookup k =
      ((l.reverse.find? (fun p => p.1 = k)).map Prod.snd).or (m.lookup k) := by
  induction l generalizing m with
  | nil => rfl
  | cons p l ih =>
      rw [List.foldl_cons, ih, lookup_insert_eq_ite, List.reverse_cons, List.find?_append]
      by_cases hk : p.1 = k
      · cases l.reverse.find? (fun p => p.1 = k) <;> simp [hk]
      · have hk' : ¬k = p.1 := fun h => hk h.symm
        cases l.reverse.find? (fun p => p.1 = k) <;> simp [hk, hk']

/-- The last pair with the key gives the value. -/
theorem lookup_ofList (l : List (κ × α)) (k : κ) :
    (ofList l).lookup k = (l.reverse.find? (fun p => p.1 = k)).map Prod.snd := by
  rw [ofList, lookup_foldl_insert]
  simp

theorem mem_keys_ofList {l : List (κ × α)} {k : κ} : k ∈ (ofList l).keys ↔ k ∈ l.map Prod.fst := by
  rw [mem_keys_iff_lookup]
  simp only [lookup_ofList, Option.map_eq_some_iff]
  constructor
  · rintro ⟨a, p, hp, rfl⟩
    have hmem := List.mem_of_find?_eq_some hp
    have hk : p.1 = k := by simpa using List.find?_some hp
    exact List.mem_map.mpr ⟨p, List.mem_reverse.mp hmem, hk⟩
  · intro hk
    obtain ⟨p, hp, rfl⟩ := List.mem_map.mp hk
    have hsome : (l.reverse.find? (fun q => q.1 = p.1)).isSome := by
      rw [List.find?_isSome]
      exact ⟨p, List.mem_reverse.mpr hp, by simp⟩
    obtain ⟨q, hq⟩ := Option.isSome_iff_exists.mp hsome
    exact ⟨q.2, q, hq, rfl⟩

/-- With distinct keys, every pair survives. -/
theorem lookup_ofList_of_nodup {l : List (κ × α)} (hnd : (l.map Prod.fst).Nodup) {p : κ × α}
    (hp : p ∈ l) : (ofList l).lookup p.1 = some p.2 := by
  have hk : p.1 ∈ (ofList l).keys := mem_keys_ofList.mpr (List.mem_map.mpr ⟨p, hp, rfl⟩)
  obtain ⟨a, ha⟩ := mem_keys_iff_lookup.mp hk
  have hfind := ha
  rw [lookup_ofList, Option.map_eq_some_iff] at hfind
  obtain ⟨q, hq, rfl⟩ := hfind
  have hqmem := List.mem_reverse.mp (List.mem_of_find?_eq_some hq)
  have hqk : q.1 = p.1 := by simpa using List.find?_some hq
  rw [ha, List.inj_on_of_nodup_map hnd hqmem hp hqk]

theorem lookup_mapValues (f : α → β) (m : HashMap κ α) (k : κ) :
    (mapValues f m).lookup k = (m.lookup k).map f := by
  induction m using Finmap.induction_on with
  | H l =>
      obtain ⟨l, hl⟩ := l
      show (l.map fun p => (⟨p.1, f p.2⟩ : Sigma fun _ : κ => β)).dlookup k = (l.dlookup k).map f
      induction l with
      | nil => rfl
      | cons p l ih =>
          obtain ⟨k', a⟩ := p
          have hl' : l.NodupKeys := (List.nodupKeys_cons.mp hl).2
          by_cases hk : k = k'
          · subst hk; simp
          · have hl₁ := List.dlookup_cons_ne (β := fun _ : κ => α) l ⟨k', a⟩ hk
            have hl₂ := List.dlookup_cons_ne (β := fun _ : κ => β) (l.map fun p => ⟨p.1, f p.2⟩)
              ⟨k', f a⟩ hk
            rw [hl₁, ← ih hl', ← hl₂]
            rfl

@[simp] theorem keys_mapValues (f : α → β) (m : HashMap κ α) : (mapValues f m).keys = m.keys := by
  ext k
  simp [mem_keys_iff_lookup, lookup_mapValues]

/-- Going through a map meets every key once. -/
theorem IterOrder.nodup_keys (order : IterOrder κ α) (m : HashMap κ α) :
    ((order.entries m).map Prod.fst).Nodup := by
  apply List.Nodup.map_on _ (order.nodup_entries m)
  intro e he e' he' hk
  have h := order.mem_entries.mp he
  have h' := order.mem_entries.mp he'
  rw [hk] at h
  exact Prod.ext hk (Option.some.inj (h.symm.trans h'))

/-- Going through a map and collecting the entries gives the map again. -/
theorem ofList_entries (order : IterOrder κ α) (m : HashMap κ α) : ofList (order.entries m) = m := by
  apply Finmap.ext_lookup
  intro k
  have hkeys := order.nodup_keys m
  cases hl : m.lookup k with
  | some a => exact lookup_ofList_of_nodup hkeys (order.mem_entries.mpr hl)
  | none =>
      rw [← Option.not_isSome_iff_eq_none, Option.isSome_iff_exists, ← mem_keys_iff_lookup, mem_keys_ofList]
      intro hk
      obtain ⟨⟨k', a⟩, he, rfl⟩ := List.mem_map.mp hk
      rw [order.mem_entries.mp he] at hl
      cases hl

/-! ## Iteration in the order of the keys -/

section Sorted

variable [LinearOrder κ]

/-- The elements of a set in ascending order. -/
def sortedList (s : Finset κ) : List κ :=
  Quot.lift (List.insertionSort (· ≤ ·)) (fun l₁ l₂ h =>
    ((List.perm_insertionSort _ l₁).trans (h.trans (List.perm_insertionSort _ l₂).symm)).eq_of_pairwise
      (fun _ _ _ _ h₁ h₂ => le_antisymm h₁ h₂) (List.pairwise_insertionSort _ l₁)
      (List.pairwise_insertionSort _ l₂)) s.val

omit [DecidableEq κ] in
theorem coe_sortedList (s : Finset κ) : (sortedList s : Multiset κ) = s.val := by
  obtain ⟨l, hl⟩ := s
  induction l using Quot.induction_on with
  | h l => exact Quot.sound (List.perm_insertionSort _ l)

omit [DecidableEq κ] in
theorem mem_sortedList {s : Finset κ} {k : κ} : k ∈ sortedList s ↔ k ∈ s := by
  rw [← Multiset.mem_coe, coe_sortedList, Finset.mem_val]

omit [DecidableEq κ] in
theorem nodup_sortedList (s : Finset κ) : (sortedList s).Nodup := by
  rw [← Multiset.coe_nodup, coe_sortedList]
  exact s.nodup

/-- Iteration in ascending order of the keys. -/
def IterOrder.sorted : IterOrder κ α where
  entries m := (sortedList m.keys).filterMap fun k => (m.lookup k).map fun a => (k, a)
  nodup_entries m := by
    refine (nodup_sortedList m.keys).filterMap fun k k' p hp hp' => ?_
    obtain ⟨_, _, rfl⟩ := Option.map_eq_some_iff.mp hp
    obtain ⟨_, _, h⟩ := Option.map_eq_some_iff.mp hp'
    exact (Prod.mk.inj h).1.symm
  mem_entries := by
    intro m k a
    simp only [List.mem_filterMap, mem_sortedList, mem_keys_iff_lookup, Option.map_eq_some_iff,
      Prod.mk.injEq]
    constructor
    · rintro ⟨k', _, a', ha', rfl, rfl⟩
      exact ha'
    · exact fun h => ⟨k, ⟨a, h⟩, a, h, rfl, rfl⟩

end Sorted

/-! ## Values -/

theorem mem_keysWhere {m : HashMap κ α} {p : κ → α → Bool} {k : κ} :
    k ∈ m.keysWhere p ↔ ∃ a, m.lookup k = some a ∧ p k a := by
  rw [keysWhere, Finset.mem_filter, mem_keys_iff_lookup]
  cases m.lookup k <;> simp

theorem anyValue_eq_true {m : HashMap κ α} {p : α → Bool} :
    m.anyValue p = true ↔ ∃ k a, m.lookup k = some a ∧ p a := by
  simp only [anyValue, decide_eq_true_eq, mem_keys_iff_lookup]
  constructor
  · rintro ⟨k, ⟨a, ha⟩, hp⟩
    exact ⟨k, a, ha, by simpa [ha] using hp⟩
  · rintro ⟨k, a, ha, hp⟩
    exact ⟨k, ⟨a, ha⟩, by simpa [ha] using hp⟩

theorem anyValue_eq_false {m : HashMap κ α} {p : α → Bool} :
    m.anyValue p = false ↔ ∀ k a, m.lookup k = some a → p a = false := by
  rw [← Bool.not_eq_true, anyValue_eq_true]
  simp

theorem allValues_eq_true {m : HashMap κ α} {p : α → Bool} :
    m.allValues p = true ↔ ∀ k a, m.lookup k = some a → p a := by
  simp only [allValues, decide_eq_true_eq, mem_keys_iff_lookup]
  constructor
  · intro h k a ha
    simpa [ha] using h k ⟨a, ha⟩
  · rintro h k ⟨a, ha⟩
    simpa [ha] using h k a ha

end HashMap

end Jefferies
