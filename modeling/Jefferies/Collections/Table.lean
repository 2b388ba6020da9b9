import Mathlib.Data.List.Basic

/-!
# Tables

A table is the list of its rows in the order of their insertion. An upsert updates the row that conflicts
with the new one, or inserts.
-/

namespace Jefferies.Table

variable {ρ : Type}

/-- `INSERT … ON CONFLICT … DO UPDATE`: the first row with `conflict` is updated, else `new` is added. -/
def upsert (conflict : ρ → Bool) (update : ρ → ρ) (new : ρ) : List ρ → List ρ
  | [] => [new]
  | r :: rows => if conflict r then update r :: rows else r :: upsert conflict update new rows

/-- `UPDATE … WHERE`. -/
def update (where_ : ρ → Bool) (f : ρ → ρ) (rows : List ρ) : List ρ :=
  rows.map fun r => if where_ r then f r else r

variable {conflict : ρ → Bool} {f : ρ → ρ} {new r : ρ} {rows : List ρ}

/-- A row after an upsert is an old row, an updated one or the new one. -/
theorem mem_upsert (h : r ∈ upsert conflict f new rows) :
    r ∈ rows ∨ (∃ r' ∈ rows, conflict r' = true ∧ r = f r') ∨ r = new := by
  induction rows with
  | nil => exact Or.inr (Or.inr (by simpa [upsert] using h))
  | cons r₀ rows ih =>
      simp only [upsert] at h
      split at h
      · rename_i hc
        rcases List.mem_cons.mp h with rfl | h
        · exact Or.inr (Or.inl ⟨r₀, by simp, hc, rfl⟩)
        · exact Or.inl (by simp [h])
      · rcases List.mem_cons.mp h with rfl | h
        · exact Or.inl (by simp)
        · rcases ih h with h | ⟨r', hr', hc, rfl⟩ | h
          · exact Or.inl (by simp [h])
          · exact Or.inr (Or.inl ⟨r', by simp [hr'], hc, rfl⟩)
          · exact Or.inr (Or.inr h)

/-- Behind an upsert, the row that conflicted is updated, or the new one is there. -/
theorem find?_upsert (hf : ∀ r, conflict (f r) = conflict r) (hnew : conflict new = true) :
    (upsert conflict f new rows).find? conflict = some (((rows.find? conflict).map f).getD new) := by
  induction rows with
  | nil => simp [upsert, hnew]
  | cons r₀ rows ih =>
      simp only [upsert]
      split
      · rename_i hc
        simp [hf, hc]
      · rename_i hc
        simp [hc, ih]

/-- A row that is looked for by something no conflicting row has is found as before. -/
theorem find?_upsert_apart {p : ρ → Bool} (hf : ∀ r, conflict (f r) = conflict r) (hnew : conflict new = true)
    (hp : ∀ r, conflict r = true → p r = false) : (upsert conflict f new rows).find? p = rows.find? p := by
  induction rows with
  | nil => simp [upsert, hp new hnew]
  | cons r₀ rows ih =>
      simp only [upsert]
      split
      · rename_i hc
        have hupdated : p (f r₀) = false := hp (f r₀) (by rw [hf, hc])
        simp [hupdated, hp r₀ hc]
      · simp [List.find?_cons, ih]

/-- A row that is found is found behind an upsert, updated or not. -/
theorem find?_upsert_of_some {p : ρ → Bool} (hf : ∀ r, p (f r) = p r) (h : rows.find? p = some r) :
    (upsert conflict f new rows).find? p = some r ∨ (upsert conflict f new rows).find? p = some (f r) := by
  induction rows with
  | nil => cases h
  | cons r₀ rows ih =>
      simp only [upsert]
      cases hp : p r₀ with
      | true =>
          obtain rfl : r₀ = r := by simpa [hp] using h
          split
          · exact .inr (by simp [hf, hp])
          · exact .inl (by simp [hp])
      | false =>
          have hrows : rows.find? p = some r := by simpa [hp] using h
          split
          · exact .inl (by simpa [hf, hp] using hrows)
          · simpa [hp] using ih hrows

/-- What an update of a row keeps holds of all rows behind it. -/
theorem forall_update {P : ρ → Prop} {where_ : ρ → Bool} (h : ∀ r ∈ rows, P r) (hf : ∀ r, P r → P (f r)) :
    ∀ r ∈ update where_ f rows, P r := by
  intro r hr
  obtain ⟨r', hr', rfl⟩ := List.mem_map.mp hr
  split
  · exact hf r' (h r' hr')
  · exact h r' hr'

/-- What is looked for is found as before, updated where the update reaches it. -/
theorem find?_update {p where_ : ρ → Bool} (hf : ∀ r, p (f r) = p r) :
    (update where_ f rows).find? p = (rows.find? p).map fun r => if where_ r then f r else r := by
  have hcomp : (p ∘ fun r => if where_ r then f r else r) = p := by
    funext r
    simp only [Function.comp_apply]
    split
    · exact hf r
    · rfl
  rw [update, List.find?_map, hcomp]

end Jefferies.Table
