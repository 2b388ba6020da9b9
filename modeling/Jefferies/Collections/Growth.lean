import Mathlib.Data.List.Induction
import Mathlib.Data.List.Nodup
import Jefferies.Collections.Table

/-!
# Tables that only grow

Upserts and updates take no row away. What they keep of each row is kept in its place, and the rows that are inserted
come behind all others; so a reference that could be followed when its row was inserted leads backwards.
-/

namespace Jefferies.Table

variable {ρ κ : Type} {rel : ρ → ρ → Prop} {conflict where_ : ρ → Bool} {f : ρ → ρ} {new r : ρ}
  {rows rows' rows'' : List ρ}

/-- Every row is in its place, changed as `rel` allows, and all others are behind. -/
inductive Grows (rel : ρ → ρ → Prop) : List ρ → List ρ → Prop
  | nil (rows : List ρ) : Grows rel [] rows
  | cons {r r' : ρ} {rows rows' : List ρ} : rel r r' → Grows rel rows rows' → Grows rel (r :: rows) (r' :: rows')

namespace Grows

theorem refl (hrel : ∀ r, rel r r) (rows : List ρ) : Grows rel rows rows := by
  induction rows with
  | nil => exact .nil _
  | cons r rows ih => exact .cons (hrel r) ih

theorem trans (hrel : ∀ r r' r'', rel r r' → rel r' r'' → rel r r'') (h : Grows rel rows rows')
    (h' : Grows rel rows' rows'') : Grows rel rows rows'' := by
  induction h generalizing rows'' with
  | nil => exact .nil _
  | cons hr _ ih =>
      cases h' with
      | cons hr' hrows' => exact .cons (hrel _ _ _ hr hr') (ih hrows')

/-- The first row of a kind stays the first, if no row changes its kind. -/
theorem find? {p : ρ → Bool} (hp : ∀ r r', rel r r' → p r' = p r) (h : Grows rel rows rows') {r : ρ}
    (hr : rows.find? p = some r) : ∃ r', rows'.find? p = some r' ∧ rel r r' := by
  induction h with
  | nil => cases hr
  | cons hrel _ ih =>
      rw [List.find?_cons] at hr ⊢
      rw [hp _ _ hrel]
      split at hr
      · cases hr
        exact ⟨_, rfl, hrel⟩
      · exact ih hr

theorem upsert (hrel : ∀ r, rel r r) (hf : ∀ r, conflict r = true → rel r (f r)) :
    Grows rel rows (upsert conflict f new rows) := by
  induction rows with
  | nil => exact .nil _
  | cons r rows ih =>
      unfold Table.upsert
      split
      · rename_i hc
        exact .cons (hf r hc) (refl hrel rows)
      · exact .cons (hrel r) ih

theorem update (hrel : ∀ r, rel r r) (hf : ∀ r, where_ r = true → rel r (f r)) :
    Grows rel rows (update where_ f rows) := by
  induction rows with
  | nil => exact .nil _
  | cons r rows ih =>
      refine .cons ?_ ih
      show rel r (if where_ r then f r else r)
      split
      · rename_i hw
        exact hf r hw
      · exact hrel r

end Grows

/-! ## Keys -/

/-- What the update of a row keeps, an upsert keeps of all rows; it adds the new one if none conflicts with it. -/
theorem map_upsert {g : ρ → κ} (hf : ∀ r, g (f r) = g r) : (upsert conflict f new rows).map g =
    if rows.any conflict then rows.map g else rows.map g ++ [g new] := by
  induction rows with
  | nil => rfl
  | cons r rows ih =>
      unfold upsert
      cases hc : conflict r with
      | true => simp [hc, hf]
      | false =>
          simp only [hc, Bool.false_eq_true, if_false, List.map_cons, ih, List.any_cons, Bool.false_or]
          split <;> rfl

theorem map_update {g : ρ → κ} (hf : ∀ r, g (f r) = g r) : (update where_ f rows).map g = rows.map g := by
  rw [update, List.map_map]
  congr 1
  funext r
  rw [Function.comp_apply]
  split
  · exact hf r
  · rfl

/-- An upsert on a key keeps the keys distinct. -/
theorem nodup_upsert {key : ρ → κ} (hkey : ∀ r, conflict r = true ↔ key r = key new) (hf : ∀ r, key (f r) = key r)
    (h : (rows.map key).Nodup) : ((upsert conflict f new rows).map key).Nodup := by
  rw [map_upsert hf]
  split
  · exact h
  · rename_i hnone
    apply h.append (List.nodup_singleton _)
    rw [List.disjoint_singleton]
    intro hmem
    obtain ⟨r, hr, heq⟩ := List.mem_map.mp hmem
    exact hnone (List.any_eq_true.mpr ⟨r, hr, (hkey r).mpr heq⟩)

/-! ## References to earlier rows -/

/-- The rows, given by their key and their reference, refer to none but earlier ones. -/
def RefersBack (rows : List (κ × Option κ)) : Prop :=
  ∀ before row after, rows = before ++ row :: after → ∀ k ∈ row.2, k ∈ before.map Prod.fst

theorem refersBack_nil : RefersBack ([] : List (κ × Option κ)) := by
  intro before row after h
  cases before <;> cases h

theorem RefersBack.concat {rows : List (κ × Option κ)} {row : κ × Option κ} (h : RefersBack rows)
    (hrow : ∀ k ∈ row.2, k ∈ rows.map Prod.fst) : RefersBack (rows ++ [row]) := by
  intro before row' after heq k hk
  rcases List.eq_nil_or_concat after with rfl | ⟨after', last, rfl⟩
  · obtain ⟨rfl, hlast⟩ := List.append_inj' heq rfl
    cases hlast
    exact hrow k hk
  · rw [List.concat_eq_append, ← List.cons_append, ← List.append_assoc] at heq
    exact h before row' after' (List.append_inj' heq rfl).1 k hk

/-- The references lead from the first row to the second, which refers to none. -/
inductive Leads (rows : List (κ × Option κ)) : κ × Option κ → κ × Option κ → Prop
  | root {row} : row.2 = none → Leads rows row row
  | step {row next root} : next ∈ rows → row.2 = some next.1 → Leads rows next root → Leads rows row root

theorem Leads.mono {rows rows' : List (κ × Option κ)} {row root : κ × Option κ} (h : Leads rows row root)
    (hsub : rows ⊆ rows') : Leads rows' row root := by
  induction h with
  | root hnone => exact .root hnone
  | step hmem hrefers _ ih => exact .step (hsub hmem) hrefers ih

/-- In rows that refer back and have distinct keys, the references lead from each to exactly one. -/
theorem RefersBack.leads {rows : List (κ × Option κ)} (h : RefersBack rows) (hkeys : (rows.map Prod.fst).Nodup) :
    ∀ row ∈ rows, ∃! root, root ∈ rows ∧ Leads rows row root := by
  have hexists : ∀ row ∈ rows, ∃ root ∈ rows, Leads rows row root := by
    induction rows using List.reverseRecOn with
    | nil => simp
    | append_singleton rows last ih =>
        have hrows : RefersBack rows := fun before row after heq =>
          h before row (after ++ [last]) (by rw [heq, List.append_assoc, List.cons_append])
        have hbefore : ∀ row ∈ rows, ∃ root ∈ rows ++ [last], Leads (rows ++ [last]) row root := by
          intro row hrow
          obtain ⟨root, hroot, hleads⟩ := ih hrows (hkeys.sublist ((List.sublist_append_left _ _).map _)) row hrow
          exact ⟨root, List.mem_append_left _ hroot, hleads.mono (List.subset_append_left _ _)⟩
        intro row hrow
        rcases List.mem_append.mp hrow with hrow | hrow
        · exact hbefore row hrow
        · obtain rfl := List.mem_singleton.mp hrow
          cases hrefers : row.2 with
          | none => exact ⟨row, by simp, .root hrefers⟩
          | some k =>
              obtain ⟨next, hnext, rfl⟩ := List.mem_map.mp (h rows row [] rfl k hrefers)
              obtain ⟨root, hroot, hleads⟩ := hbefore next hnext
              exact ⟨root, hroot, .step (List.mem_append_left _ hnext) hrefers hleads⟩
  intro row hrow
  obtain ⟨root, hroot, hleads⟩ := hexists row hrow
  refine ⟨root, ⟨hroot, hleads⟩, ?_⟩
  rintro root' ⟨-, hleads'⟩
  induction hleads with
  | root hnone =>
      cases hleads' with
      | root => rfl
      | step _ hrefers =>
          rw [hnone] at hrefers
          cases hrefers
  | step hmem hrefers _ ih =>
      cases hleads' with
      | root hnone =>
          rw [hnone] at hrefers
          cases hrefers
      | step hmem' hrefers' hleads' =>
          -- the key of a row determines the row
          have hkey := Option.some.inj (hrefers.symm.trans hrefers')
          cases List.inj_on_of_nodup_map hkeys hmem hmem' hkey
          exact ih hmem hroot hleads'

end Jefferies.Table
