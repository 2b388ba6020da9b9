import Jefferies.Dispatching.VaultAnnotations
import Jefferies.Tenancy.Construction

/-!
# Slugs of repositories

The Vault role and the secret path of a repository are made from its slug. The separator of a slug may occur in the name
of the repository, but not in that of an owner, so the first one ends the owner.
-/

namespace Jefferies.Dispatching

open Tenancy

/-- What comes before the first `c`, and what comes behind it, can be read back. -/
theorem split_first {α : Type} {c : α} {s t x y : List α} (hs : c ∉ s) (ht : c ∉ t) (h : s ++ c :: x = t ++ c :: y) :
    s = t ∧ x = y := by
  classical
  have hfirst : ∀ (rest : List α) {l : List α}, c ∉ l → (l ++ c :: rest).takeWhile (· ≠ c) = l := by
    intro rest l hl
    have hkeep : ∀ a ∈ l, decide (a ≠ c) = true := by
      intro a ha
      apply decide_eq_true
      rintro rfl
      exact hl ha
    rw [List.takeWhile_append_of_pos hkeep]
    simp
  have hst : s = t := by rw [← hfirst x hs, h, hfirst y ht]
  subst hst
  exact ⟨rfl, (List.cons.inj (List.append_cancel_left h)).2⟩

variable {owner owner' repo repo' slug slug' : String}

/-- An owner with an accepted name has no underscore. -/
theorem no_underscore (h : validateOrgName slug owner = .ok ()) : '_' ∉ owner.toList := by
  intro hmem
  have hname : NameValid isOrgAlnum orgNameMaxLen owner := ((name_decides isOrgAlnum_ascii).of_ok h).1
  rcases hname.chars '_' hmem with hc | hc <;> revert hc <;> decide

theorem repoSlug_eq_iff (repo repo' : String) (h : '_' ∉ owner.toList) (h' : '_' ∉ owner'.toList) :
    repoSlug owner repo = repoSlug owner' repo' ↔ owner = owner' ∧ repo = repo' := by
  constructor
  · intro heq
    have hlist : owner.toList ++ '_' :: '_' :: repo.toList = owner'.toList ++ '_' :: '_' :: repo'.toList := by
      simpa [repoSlug, repoSlugSeparator] using congrArg String.toList heq
    obtain ⟨howner, hrest⟩ := split_first h h' hlist
    exact ⟨String.toList_inj.mp howner, String.toList_inj.mp (List.cons.inj hrest).2⟩
  · rintro ⟨rfl, rfl⟩
    rfl

theorem vaultSecretPath_eq_iff : vaultSecretPath owner repo = vaultSecretPath owner' repo' ↔
    repoSlug owner repo = repoSlug owner' repo' := by
  rw [vaultSecretPath, vaultSecretPath, ← String.toList_inj, ← String.toList_inj, String.toList_append,
    String.toList_append, List.append_cancel_left_eq]

/-- Repositories of accepted owners with one slug are one, so different ones share neither role nor secret path. -/
theorem repos_share_nothing (h : validateOrgName slug owner = .ok ()) (h' : validateOrgName slug' owner' = .ok ()) :
    (repoSlug owner repo = repoSlug owner' repo' → owner = owner' ∧ repo = repo') ∧
      ((owner, repo) ≠ (owner', repo') → vaultRole owner repo ≠ vaultRole owner' repo' ∧
        vaultSecretPath owner repo ≠ vaultSecretPath owner' repo') := by
  have hslug := (repoSlug_eq_iff repo repo' (no_underscore h) (no_underscore h')).mp
  refine ⟨hslug, fun hne => ?_⟩
  have hapart : repoSlug owner repo ≠ repoSlug owner' repo' := by
    intro heq
    obtain ⟨rfl, rfl⟩ := hslug heq
    exact hne rfl
  exact ⟨hapart, fun heq => hapart (vaultSecretPath_eq_iff.mp heq)⟩

/-- Underscores at the edges of the repository's name. -/
theorem repos_share_nothing_underscores :
    vaultRole "acme" "_app" ≠ vaultRole "acme" "__app" ∧ vaultSecretPath "acme" "_app" ≠ vaultSecretPath "acme" "__app" := by
  have hname : validateOrgName "acme" "acme" = .ok () := rfl
  exact (repos_share_nothing hname hname).2 (by decide)

end Jefferies.Dispatching
