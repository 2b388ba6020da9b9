import Jefferies.Tenancy.Construction

/-!
# Authorization at login

A user is authorized for the tenants that are bound to the connector of the login and to the organisation of one of
the user's groups.
-/

namespace Jefferies.Auth

open Tenancy

/-- `s.split_once(c)`. -/
def splitOnce (s : String) (c : Char) : Option (String × String) :=
  match s.toList.dropWhile (· ≠ c) with
  | [] => none
  | _ :: rest => some (String.ofList (s.toList.takeWhile (· ≠ c)), String.ofList rest)

def orgFromGroup (group : String) : String := ((splitOnce group ':').map Prod.fst).getD group

structure OidcExtras where
  groups : List String
  connectorId : Option String

/-- The body of the loop of `resolve_authorized_slugs`, on what is authorized and what was seen so far. -/
def authorizeGroup (connectorId : String) (tenants : TenantRegistry) :
    List String × Finset String → String → List String × Finset String
  | (authorized, seen), group =>
      match tenants.findForConnectorAndOrg connectorId (orgFromGroup group) with
      | some tenant =>
          if tenant.slug ∈ seen then (authorized, seen)
          else (authorized ++ [tenant.slug], insert tenant.slug seen)
      | none => (authorized, seen)

def resolveAuthorizedSlugs (extras : OidcExtras) (tenants : TenantRegistry) : List String :=
  match extras.connectorId with
  | none => []
  | some connectorId => (extras.groups.foldl (authorizeGroup connectorId tenants) ([], ∅)).1

/-! ## Groups -/

/-- The part of a group before its first colon. -/
def BeforeColon (group org : String) : Prop :=
  ':' ∉ org.toList ∧ (group = org ∨ ∃ rest, group = org ++ ":" ++ rest)

theorem toList_orgFromGroup (group : String) : (orgFromGroup group).toList = group.toList.takeWhile (· ≠ ':') := by
  rw [orgFromGroup, splitOnce]
  cases hrest : group.toList.dropWhile (· ≠ ':') with
  | nil =>
      have happend := List.takeWhile_append_dropWhile (p := fun c : Char => decide (c ≠ ':')) (l := group.toList)
      rw [hrest, List.append_nil] at happend
      rw [happend]
      rfl
  | cons c rest => simp

theorem orgFromGroup_eq_iff {group org : String} : orgFromGroup group = org ↔ BeforeColon group org := by
  have hfree : ∀ l : List Char, ':' ∉ l ↔ ∀ c ∈ l, decide (c ≠ ':') = true := by
    intro l
    simp only [decide_eq_true_eq]
    exact ⟨fun h c hc he => h (he ▸ hc), fun h hmem => h _ hmem rfl⟩
  rw [← String.toList_inj, toList_orgFromGroup]
  constructor
  · intro h
    have happend := List.takeWhile_append_dropWhile (p := fun c : Char => decide (c ≠ ':')) (l := group.toList)
    rw [h] at happend
    refine ⟨?_, ?_⟩
    · rw [hfree, ← h]
      exact fun c hc => List.mem_takeWhile_imp (p := fun c : Char => decide (c ≠ ':')) hc
    · cases hrest : group.toList.dropWhile (· ≠ ':') with
      | nil =>
          rw [hrest, List.append_nil] at happend
          exact .inl (String.toList_inj.mp happend.symm)
      | cons c rest =>
          have hc := List.head?_dropWhile_not (fun c : Char => decide (c ≠ ':')) group.toList
          rw [hrest] at hc happend
          have hcolon : c = ':' := by simpa using hc
          subst hcolon
          refine .inr ⟨String.ofList rest, ?_⟩
          rw [← String.toList_inj, ← happend]
          simp
  · rintro ⟨hcolon, rfl | ⟨rest, rfl⟩⟩
    · exact List.takeWhile_eq_self_iff.mpr ((hfree _).mp hcolon)
    · rw [String.toList_append, String.toList_append, List.append_assoc, List.takeWhile_append_of_pos ((hfree _).mp hcolon)]
      simp

/-! ## The loop -/

/-- Some group yields `a` before any yields `b`. -/
def YieldsBefore (f : String → Option String) (groups : List String) (a b : String) : Prop :=
  ∃ before group after, groups = before ++ group :: after ∧ f group = some a ∧ ∀ g ∈ before ++ [group], f g ≠ some b

/-- What the loop has collected of what the groups yield. -/
structure Collected (f : String → Option String) (groups : List String) (authorized : List String) : Prop where
  nodup : authorized.Nodup
  mem : ∀ slug, slug ∈ authorized ↔ ∃ group ∈ groups, f group = some slug
  order : authorized.Pairwise (YieldsBefore f groups)

variable {f : String → Option String} {groups authorized : List String} {group slug : String}

theorem YieldsBefore.append {a b : String} (h : YieldsBefore f groups a b) (group : String) :
    YieldsBefore f (groups ++ [group]) a b := by
  obtain ⟨before, g, after, rfl, ha, hb⟩ := h
  exact ⟨before, g, after ++ [group], by simp, ha, hb⟩

/-- A group that yields nothing, or something collected before. -/
theorem Collected.skip (h : Collected f groups authorized) (hf : ∀ slug, f group = some slug → slug ∈ authorized) :
    Collected f (groups ++ [group]) authorized := by
  constructor
  · exact h.nodup
  · intro slug
    constructor
    · intro hmem
      obtain ⟨g, hg, hslug⟩ := (h.mem slug).mp hmem
      exact ⟨g, List.mem_append_left _ hg, hslug⟩
    · rintro ⟨g, hg, hslug⟩
      rcases List.mem_append.mp hg with hg | hg
      · exact (h.mem slug).mpr ⟨g, hg, hslug⟩
      · rw [List.mem_singleton.mp hg] at hslug
        exact hf slug hslug
  · exact h.order.imp fun hb => hb.append group

/-- A group that yields something new. -/
theorem Collected.push (h : Collected f groups authorized) (hf : f group = some slug) (hnew : slug ∉ authorized) :
    Collected f (groups ++ [group]) (authorized ++ [slug]) := by
  constructor
  · refine List.nodup_append.mpr ⟨h.nodup, List.nodup_singleton _, ?_⟩
    intro a ha b hb he
    rw [he, List.mem_singleton.mp hb] at ha
    exact hnew ha
  · intro s
    rw [List.mem_append, List.mem_singleton, h.mem]
    constructor
    · rintro (⟨g, hg, hs⟩ | rfl)
      · exact ⟨g, List.mem_append_left _ hg, hs⟩
      · exact ⟨group, List.mem_append_right _ List.mem_cons_self, hf⟩
    · rintro ⟨g, hg, hs⟩
      rcases List.mem_append.mp hg with hg | hg
      · exact .inl ⟨g, hg, hs⟩
      · rw [List.mem_singleton.mp hg, hf] at hs
        exact .inr (Option.some.inj hs).symm
  · refine List.pairwise_append.mpr ⟨h.order.imp fun hb => hb.append group, List.pairwise_singleton _ _, ?_⟩
    intro a ha b hb
    rw [List.mem_singleton.mp hb]
    obtain ⟨g, hg, hga⟩ := (h.mem a).mp ha
    obtain ⟨before, after, rfl⟩ := List.append_of_mem hg
    refine ⟨before, g, after ++ [group], by simp, hga, ?_⟩
    intro g' hg' hslug
    apply hnew
    refine (h.mem slug).mpr ⟨g', ?_, hslug⟩
    rcases List.mem_append.mp hg' with hg' | hg'
    · exact List.mem_append_left _ hg'
    · rw [List.mem_singleton.mp hg']
      exact List.mem_append_right _ List.mem_cons_self

/-- The slug that a group yields. -/
def granted (connectorId : String) (tenants : TenantRegistry) (group : String) : Option String :=
  (tenants.findForConnectorAndOrg connectorId (orgFromGroup group)).map TenantConfig.slug

/-- The loop collects what the groups yield. -/
theorem authorizeGroup_collected (connectorId : String) (tenants : TenantRegistry) (groups : List String) :
    Collected (granted connectorId tenants) groups (groups.foldl (authorizeGroup connectorId tenants) ([], ∅)).1 ∧
      ∀ slug, slug ∈ (groups.foldl (authorizeGroup connectorId tenants) ([], ∅)).2 ↔
        slug ∈ (groups.foldl (authorizeGroup connectorId tenants) ([], ∅)).1 := by
  induction groups using List.reverseRecOn with
  | nil => exact ⟨⟨List.nodup_nil, by simp, List.Pairwise.nil⟩, by simp⟩
  | append_singleton groups group ih =>
      rw [List.foldl_append, List.foldl_cons, List.foldl_nil]
      generalize groups.foldl (authorizeGroup connectorId tenants) ([], ∅) = state at ih ⊢
      obtain ⟨authorized, seen⟩ := state
      obtain ⟨hcollected, hseen⟩ := ih
      rw [authorizeGroup]
      cases hfind : tenants.findForConnectorAndOrg connectorId (orgFromGroup group) with
      | none =>
          refine ⟨hcollected.skip fun slug hslug => ?_, hseen⟩
          rw [granted, hfind] at hslug
          cases hslug
      | some tenant =>
          have hgranted : granted connectorId tenants group = some tenant.slug := by rw [granted, hfind]; rfl
          by_cases hold : tenant.slug ∈ seen
          · simp only [if_pos hold]
            refine ⟨hcollected.skip fun slug hslug => ?_, hseen⟩
            rw [hgranted] at hslug
            cases hslug
            exact (hseen _).mp hold
          · simp only [if_neg hold]
            refine ⟨hcollected.push hgranted fun hmem => hold ((hseen _).mpr hmem), fun slug => ?_⟩
            rw [Finset.mem_insert, List.mem_append, List.mem_singleton]
            rw [hseen]
            exact or_comm

/-! ## Whom a login authorizes -/

/-- The tenant is bound to the connector and to the organisation of the group. -/
def Bound (connectorId group : String) (t : TenantConfig) : Prop :=
  connectorId ∈ t.connectorIds ∧ BeforeColon group t.orgName

/-- A group of the user grants the slug: it is the slug of a tenant that is bound to the claimed connector and to the
group's organisation. -/
def Grants (document : TenancyDocument) (extras : OidcExtras) (group slug : String) : Prop :=
  ∃ t ∈ document.tenants, t.slug = slug ∧ ∃ connectorId ∈ extras.connectorId, Bound connectorId group t

/-- The slugs of the tenants that the groups grant, each once, in the order of the first group that grants it; without
a connector there are none. -/
structure Authorizes (document : TenancyDocument) (extras : OidcExtras) (slugs : List String) : Prop where
  unclaimed : extras.connectorId = none → slugs = []
  nodup : slugs.Nodup
  mem : ∀ slug, slug ∈ slugs ↔ ∃ group ∈ extras.groups, Grants document extras group slug
  order : slugs.Pairwise fun a b => ∃ before group after, extras.groups = before ++ group :: after ∧
    Grants document extras group a ∧ ∀ g ∈ before ++ [group], ¬Grants document extras g b

theorem find_eq_some_iff {document : TenancyDocument} {registry : TenancyRegistry} (h : registry.Finds document)
    {connectorId group : String} {t : TenantConfig} :
    registry.tenants.findForConnectorAndOrg connectorId (orgFromGroup group) = some t ↔
      t ∈ document.tenants ∧ Bound connectorId group t := by
  rw [h.findForConnectorAndOrg, Bound, ← orgFromGroup_eq_iff]
  exact and_congr_right fun _ => and_congr_right fun _ => eq_comm

theorem granted_eq_some_iff {document : TenancyDocument} {registry : TenancyRegistry} (h : registry.Finds document)
    {extras : OidcExtras} {connectorId group slug : String} (hc : extras.connectorId = some connectorId) :
    granted connectorId registry.tenants group = some slug ↔ Grants document extras group slug := by
  rw [granted, Option.map_eq_some_iff]
  simp only [find_eq_some_iff h, Grants, hc, Option.mem_some_iff, exists_eq_left']
  constructor
  · rintro ⟨t, ⟨ht, hbound⟩, hslug⟩
    exact ⟨t, ht, hslug, hbound⟩
  · rintro ⟨t, ht, hslug, hbound⟩
    exact ⟨t, ⟨ht, hbound⟩, hslug⟩

theorem resolveAuthorizedSlugs_authorizes {document : TenancyDocument} {registry : TenancyRegistry}
    (h : registry.Finds document) (extras : OidcExtras) :
    Authorizes document extras (resolveAuthorizedSlugs extras registry.tenants) := by
  rw [resolveAuthorizedSlugs]
  cases hc : extras.connectorId with
  | none =>
      have hnone : ∀ group slug, ¬Grants document extras group slug := by
        rintro group slug ⟨t, -, -, connectorId, hconnector, -⟩
        rw [hc] at hconnector
        cases hconnector
      exact ⟨fun _ => rfl, List.nodup_nil, by simp [hnone], List.Pairwise.nil⟩
  | some connectorId =>
      have hiff : ∀ group slug, granted connectorId registry.tenants group = some slug ↔ Grants document extras group slug :=
        fun _ _ => granted_eq_some_iff h hc
      have hcollected := (authorizeGroup_collected connectorId registry.tenants extras.groups).1
      constructor
      · intro hunclaimed
        rw [hc] at hunclaimed
        cases hunclaimed
      · exact hcollected.nodup
      · intro slug
        rw [hcollected.mem]
        simp only [hiff]
      · refine hcollected.order.imp ?_
        rintro a b ⟨before, group, after, hgroups, ha, hb⟩
        exact ⟨before, group, after, hgroups, (hiff _ _).mp ha, fun g hg hgrants => hb g hg ((hiff _ _).mpr hgrants)⟩

/-- The tenant is bound to the user's connector and to an organisation of the user. -/
def Relevant (extras : OidcExtras) (t : TenantConfig) : Prop :=
  ∃ connectorId ∈ extras.connectorId, ∃ group ∈ extras.groups, Bound connectorId group t

/-- Tenants that are bound to another connector or organisation change nothing. -/
theorem resolveAuthorizedSlugs_congr {document document' : TenancyDocument} {registry registry' : TenancyRegistry}
    (h : registry.Finds document) (h' : registry'.Finds document') {extras : OidcExtras}
    (hsame : ∀ t, Relevant extras t → (t ∈ document.tenants ↔ t ∈ document'.tenants)) :
    resolveAuthorizedSlugs extras registry'.tenants = resolveAuthorizedSlugs extras registry.tenants := by
  rw [resolveAuthorizedSlugs, resolveAuthorizedSlugs]
  cases hc : extras.connectorId with
  | none => rfl
  | some connectorId =>
      have hfind : ∀ group ∈ extras.groups, registry'.tenants.findForConnectorAndOrg connectorId (orgFromGroup group) =
          registry.tenants.findForConnectorAndOrg connectorId (orgFromGroup group) := by
        intro group hgroup
        apply Option.ext
        intro t
        rw [find_eq_some_iff h, find_eq_some_iff h']
        refine and_congr_left fun hbound => ?_
        exact (hsame t ⟨connectorId, hc, group, hgroup, hbound⟩).symm
      have hloop : extras.groups.foldl (authorizeGroup connectorId registry'.tenants) ([], ∅) =
          extras.groups.foldl (authorizeGroup connectorId registry.tenants) ([], ∅) := by
        apply List.foldl_ext
        intro state group hgroup
        rw [authorizeGroup, authorizeGroup, hfind group hgroup]
      simp only [hloop]

/-- A login with the tenants of an accepted document authorizes exactly what the groups grant, and what it authorizes
depends on the tenants bound to the user's connector and organisations alone. -/
theorem resolveAuthorizedSlugs_exact {document : TenancyDocument} {registry : TenancyRegistry}
    (h : TenancyRegistry.fromDocument document = .ok registry) (extras : OidcExtras) :
    Authorizes document extras (resolveAuthorizedSlugs extras registry.tenants) ∧
      ∀ document' registry', TenancyRegistry.fromDocument document' = .ok registry' →
        (∀ t, Relevant extras t → (t ∈ document.tenants ↔ t ∈ document'.tenants)) →
        resolveAuthorizedSlugs extras registry'.tenants = resolveAuthorizedSlugs extras registry.tenants := by
  have hfinds := TenancyRegistry.finds_of_ok h
  refine ⟨resolveAuthorizedSlugs_authorizes hfinds extras, ?_⟩
  intro document' registry' h' hsame
  exact resolveAuthorizedSlugs_congr hfinds (TenancyRegistry.finds_of_ok h') hsame

def acmeCorp : TenantConfig := ⟨"acme-corp", none, ["github"], .github ⟨"acme", "global"⟩⟩

def acmeElsewhere : TenantConfig := ⟨"acme-elsewhere", none, ["gitlab"], .github ⟨"acme", "local"⟩⟩

/-- Two apps and the given tenants. -/
def sampleDocument (tenants : List TenantConfig) : TenancyDocument :=
  ⟨[⟨"global", "1", "hook", "key"⟩, ⟨"local", "2", "hook", "key"⟩], tenants⟩

theorem resolveAuthorizedSlugs_exact_acme :
    ∃ registry registry', TenancyRegistry.fromDocument (sampleDocument [acmeCorp]) = .ok registry ∧
      TenancyRegistry.fromDocument (sampleDocument [acmeCorp, acmeElsewhere]) = .ok registry' ∧
      Authorizes (sampleDocument [acmeCorp]) ⟨["acme:eng"], some "github"⟩
        (resolveAuthorizedSlugs ⟨["acme:eng"], some "github"⟩ registry.tenants) ∧
      resolveAuthorizedSlugs ⟨["acme:eng"], some "github"⟩ registry'.tenants =
        resolveAuthorizedSlugs ⟨["acme:eng"], some "github"⟩ registry.tenants := by
  obtain ⟨registry, h⟩ : ∃ registry, TenancyRegistry.fromDocument (sampleDocument [acmeCorp]) = .ok registry := ⟨_, rfl⟩
  obtain ⟨registry', h'⟩ : ∃ registry', TenancyRegistry.fromDocument (sampleDocument [acmeCorp, acmeElsewhere]) =
    .ok registry' := ⟨_, rfl⟩
  obtain ⟨hauthorizes, hsame⟩ := resolveAuthorizedSlugs_exact h ⟨["acme:eng"], some "github"⟩
  refine ⟨registry, registry', h, h', hauthorizes, hsame _ registry' h' ?_⟩
  rintro t ⟨connectorId, hconnector, group, -, hbound, -⟩
  cases hconnector
  simp only [sampleDocument, List.mem_cons, List.not_mem_nil, or_false]
  constructor
  · exact .inl
  · rintro (ht | rfl)
    · exact ht
    · exact absurd hbound (by decide)

end Jefferies.Auth
