import Jefferies.Sources.SourceManager

/-!
# What the cleanup of a run leaves

S3 lists the objects under a prefix in pages. The cleanup of a run asks for one page and deletes what is on it.
-/

namespace Jefferies.Sources

open Interaction Interact

/-- How many keys a page of a listing can hold. -/
def maxKeys : Nat := 1000

/-- The first page of a listing: keys of objects that match, each once, as many as fit on a page. -/
structure Page (matching : Finset String) (keys : List String) : Prop where
  nodup : keys.Nodup
  listed : keys.toFinset ⊆ matching
  full : keys.length = min maxKeys matching.card

/-- A bucket that nobody else writes to, by its keys. -/
def keeping (objects : Finset String) (_ : SourceManager) : (e : SourceEffect) → SourceResp e → Finset String → Prop
  | .listObjectsV2 _ runPrefix, .ok contents, objects' => objects' = objects ∧
      ∃ keys, contents = keys.map some ∧ Page (objects.filter fun key => startsWith key runPrefix) keys
  | .deleteObjects _ keys, .ok (), objects' => objects' = objects \ keys.toFinset
  | .deleteObjects _ keys, .error _, objects' => objects \ keys.toFinset ⊆ objects' ∧ objects' ⊆ objects
  | _, _, objects' => objects' = objects

/-- The objects of a run. -/
def objectsOf (runId : String) (objects : Finset String) : Finset String :=
  objects.filter fun key => startsWith key (runPrefix runId)

/-- Of the objects, those of the run are gone and all others are there. -/
def Cleaned (runId : String) (objects objects' : Finset String) : Prop :=
  objectsOf runId objects' = ∅ ∧ ∀ key ∈ objects, key ∉ objectsOf runId objects → key ∈ objects'

variable {runId : String} {objects matching : Finset String} {keys : List String}

theorem Page.eq_nil_iff (h : Page matching keys) : keys = [] ↔ matching = ∅ := by
  rw [← List.length_eq_zero_iff, h.full, ← Finset.card_eq_zero, maxKeys]
  omega

/-- A page holds all that matches where that fits on it. -/
theorem Page.subset_iff (h : Page matching keys) : matching ⊆ keys.toFinset ↔ matching.card ≤ maxKeys := by
  have hcard : keys.toFinset.card = min maxKeys matching.card := by
    rw [List.toFinset_card_of_nodup h.nodup, h.full]
  constructor
  · intro hsub
    have := Finset.card_le_card hsub
    omega
  · intro hle
    exact (Finset.eq_of_subset_of_card_le h.listed (by omega)).ge

theorem exists_page (matching : Finset String) : ∃ keys, Page matching keys := by
  refine ⟨matching.toList.take maxKeys, (List.take_sublist _ _).nodup matching.nodup_toList, ?_, by simp⟩
  intro key hkey
  rw [List.mem_toFinset] at hkey
  exact Finset.mem_toList.mp (List.mem_of_mem_take hkey)

/-- The objects of the run that were not listed are left. -/
theorem objectsOf_sdiff (runId : String) (objects deleted : Finset String) :
    objectsOf runId (objects \ deleted) = objectsOf runId objects \ deleted := by
  ext key
  simp only [objectsOf, Finset.mem_filter, Finset.mem_sdiff]
  tauto

theorem cleaned_iff (h : Page (objectsOf runId objects) keys) :
    Cleaned runId objects (objects \ keys.toFinset) ↔ (objectsOf runId objects).card ≤ maxKeys := by
  rw [Cleaned, objectsOf_sdiff, Finset.sdiff_eq_empty_iff_subset, h.subset_iff]
  apply and_iff_left
  intro key hkey hother
  exact Finset.mem_sdiff.mpr ⟨hkey, fun hlisted => hother (h.listed hlisted)⟩

theorem cleaned_of_empty (h : objectsOf runId objects = ∅) : Cleaned runId objects objects :=
  ⟨h, fun _ hkey _ => hkey⟩

/-- A cleanup that succeeds is complete where the objects of the run fit on one page. -/
theorem cleanupRun_complete_iff (runId : String) (objects : Finset String) (self : SourceManager) :
    Throughout keeping (fun _ => True) (fun objects' _ result =>
        result = .ok () → (Cleaned runId objects objects' ↔ (objectsOf runId objects).card ≤ maxKeys))
      objects (cleanupRun runId self) := by
  refine ⟨trivial, ?_⟩
  intro contents objects' hlisted
  cases contents with
  | error e => exact ⟨trivial, nofun⟩
  | ok contents =>
      obtain ⟨rfl, keys, rfl, hpage⟩ := hlisted
      have hkeys : (keys.map some).filterMap id = keys := by simp
      simp only [Prog.ret_bind, hkeys]
      split
      · rename_i hnone
        -- an empty page is the page of a run without objects
        have hempty := hpage.eq_nil_iff.mp hnone
        exact ⟨trivial, fun _ => iff_of_true (cleaned_of_empty hempty) (by simp [objectsOf, hempty])⟩
      · refine ⟨trivial, ?_⟩
        intro deleted objects' hdeleted
        cases deleted with
        | error e => exact ⟨trivial, nofun⟩
        | ok =>
            rw [show objects' = _ from hdeleted]
            exact ⟨trivial, fun _ => cleaned_iff (by rwa [hkeys])⟩

/-- Where they do not fit on one page, some cleanup that succeeds leaves some of them. -/
theorem cleanupRun_leaves (self : SourceManager) (hcard : maxKeys < (objectsOf runId objects).card) :
    ¬Throughout keeping (fun _ => True) (fun objects' _ result => result = .ok () → Cleaned runId objects objects')
      objects (cleanupRun runId self) := by
  intro h
  obtain ⟨keys, hpage⟩ := exists_page (objectsOf runId objects)
  have hkeys : (keys.map some).filterMap id = keys := by simp
  have hne : keys ≠ [] := fun hnone => by
    rw [hpage.eq_nil_iff.mp hnone, Finset.card_empty] at hcard
    cases hcard
  have hlisted := h.2 (.ok (keys.map some)) objects ⟨rfl, keys, rfl, hpage⟩
  simp only [Prog.ret_bind, hkeys, if_neg hne] at hlisted
  have hcleaned := (hlisted.2 (.ok ()) (objects \ ((keys.map some).filterMap id).toFinset) rfl).2 rfl
  rw [hkeys] at hcleaned
  exact absurd ((cleaned_iff hpage).mp hcleaned) (by omega)

/-- The status of 1001 nodes. -/
def manyNodes : Finset String :=
  (Finset.range 1001).image fun i => statusKey "7" (String.ofList (List.replicate i 'a'))

/-- The cleanup of a run with 1001 nodes succeeds and leaves the status of one. -/
theorem cleanupRun_leaves_status : ¬Throughout keeping (fun _ => True)
    (fun objects' _ result => result = .ok () → Cleaned "7" manyNodes objects') manyNodes
    (cleanupRun "7" ⟨"sources"⟩) := by
  apply cleanupRun_leaves
  have hinjective : Function.Injective fun i => statusKey "7" (String.ofList (List.replicate i 'a')) := by
    intro i j hij
    have hlength := congrArg (fun key => key.toList.length) hij
    simpa [statusKey] using hlength
  have hall : objectsOf "7" manyNodes = manyNodes := by
    apply Finset.filter_true_of_mem
    intro key hkey
    obtain ⟨i, _, rfl⟩ := Finset.mem_image.mp hkey
    simp [startsWith, statusKey, runPrefix]
  rw [hall, manyNodes, Finset.card_image_of_injective _ hinjective, Finset.card_range, maxKeys]
  decide

end Jefferies.Sources
