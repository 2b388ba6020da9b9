import Jefferies.Collections.Ascii
import Jefferies.Collections.Exact
import Jefferies.Tenancy.Registry

/-!
# The construction of the registry

A document makes a registry exactly where its entries are valid each for itself and no two of them claim one key, and
the registry then finds each tenant under its own keys and under no others.
-/

namespace Jefferies.Tenancy

/-! ## Valid entries -/

/-- A name begins with a letter or digit, and has only such and dashes. -/
structure NameValid (isAlnum : Char → Bool) (maxLen : Nat) (name : String) : Prop where
  first : ∃ c ∈ name.toList.head?, isAlnum c = true
  chars : ∀ c ∈ name.toList, isAlnum c = true ∨ c = '-'
  length_le : name.length ≤ maxLen

/-- The text has something that is not white space. -/
def HasInk (s : String) : Prop := ∃ c ∈ s.toList, isWhitespace c = false

structure AppValid (app : GithubAppConfig) : Prop where
  id : NameValid isSlugAlnum appIdMaxLen app.id
  appId : ∃ n, parseU64 app.appId = some n
  webhookSecret : app.webhookSecret ≠ ""
  privateKey : HasInk app.privateKey

def TenantConfig.orgName (self : TenantConfig) : String := self.provider.binding.orgName

def TenantConfig.appRef (self : TenantConfig) : String := self.provider.binding.appRef

structure TenantValid (tenant : TenantConfig) : Prop where
  slug : NameValid isSlugAlnum slugMaxLen tenant.slug
  connectors : tenant.connectorIds ≠ []
  connectorIds : ∀ id ∈ tenant.connectorIds, HasInk id
  orgName : NameValid isOrgAlnum orgNameMaxLen tenant.orgName

/-! ## The validators -/

theorem not_isBlank {s : String} : ¬isBlank s = true ↔ HasInk s := by
  simp [isBlank, HasInk]

theorem not_isNone {α : Type} {o : Option α} : ¬o.isNone = true ↔ ∃ a, o = some a := by
  cases o <;> simp

theorem bytes_isEmpty {s : String} : (bytes s).isEmpty = true ↔ s = "" := by
  rw [List.isEmpty_iff, ← not_iff_not]
  exact bytes_ne_nil

theorem validateChars_decides {isAlnum : Char → Bool} {badStart : String} {badChar : Char → String} {l : List Char}
    (hne : l ≠ []) : Decides (validateChars isAlnum badStart badChar l)
      ((∃ c ∈ l.head?, isAlnum c = true) ∧ ∀ c ∈ l, isAlnum c = true ∨ c = '-') fun _ => True := by
  cases l with
  | nil => exact absurd rfl hne
  | cons c rest =>
      rw [validateChars]
      split
      · rename_i hc
        rintro ⟨⟨d, hd, halnum⟩, -⟩
        cases hd
        simp [halnum] at hc
      · rename_i hc
        have hfirst : isAlnum c = true := by simpa using hc
        cases hfind : rest.find? fun c => !isAlnum c && c ≠ '-' with
        | none =>
            refine ⟨⟨⟨c, rfl, hfirst⟩, ?_⟩, trivial⟩
            intro d hd
            rcases List.mem_cons.mp hd with rfl | hd
            · exact .inl hfirst
            · have hgood := List.find?_eq_none.mp hfind d hd
              cases halnum : isAlnum d with
              | true => exact .inl rfl
              | false => exact .inr (by simpa [halnum] using hgood)
        | some d =>
            rintro ⟨-, hall⟩
            have hbad := List.find?_some hfind
            simp only [Bool.and_eq_true, decide_eq_true_eq, ne_eq] at hbad
            rcases hall d (List.mem_cons_of_mem _ (List.mem_of_find?_eq_some hfind)) with halnum | hdash
            · simp [halnum] at hbad
            · exact hbad.2 hdash

/-- The checks of a name's bytes and characters. -/
theorem name_decides {isAlnum : Char → Bool} (hascii : ∀ c, isAlnum c = true → c.toNat < 128) {e e' : TenancyError}
    {badStart : String} {badChar : Char → String} {maxLen : Nat} {value : String} :
    Decides (if (bytes value).isEmpty then .error e
      else if (bytes value).length > maxLen then .error e'
      else validateChars isAlnum badStart badChar value.toList) (NameValid isAlnum maxLen value) fun _ => True := by
  have hlength : (∀ c ∈ value.toList, isAlnum c = true ∨ c = '-') → (bytes value).length = value.length := by
    intro hchars
    apply IsAscii.length
    intro c hc
    rcases hchars c hc with halnum | rfl
    · exact hascii c halnum
    · decide
  have hchecks : Decides (if (bytes value).isEmpty then .error e
      else if (bytes value).length > maxLen then .error e'
      else validateChars isAlnum badStart badChar value.toList)
      (¬(bytes value).isEmpty = true ∧ ¬(bytes value).length > maxLen ∧
        (∃ c ∈ value.toList.head?, isAlnum c = true) ∧ ∀ c ∈ value.toList, isAlnum c = true ∨ c = '-') fun _ => True := by
    refine .guard fun hne => .guard fun _ => validateChars_decides ?_
    rw [bytes_isEmpty] at hne
    exact fun hnil => hne (String.toList_eq_nil_iff.mp hnil)
  refine hchecks.congr ?_
  constructor
  · rintro ⟨_, hlen, hfirst, hchars⟩
    rw [hlength hchars] at hlen
    exact ⟨hfirst, hchars, not_lt.mp hlen⟩
  · intro h
    refine ⟨?_, ?_, h.first, h.chars⟩
    · rw [bytes_isEmpty]
      rintro rfl
      obtain ⟨c, hc, -⟩ := h.first
      cases hc
    · rw [hlength h.chars]
      exact not_lt.mpr h.length_le

theorem isOrgAlnum_ascii (c : Char) (h : isOrgAlnum c = true) : c.toNat < 128 := by
  simp [isOrgAlnum, Char.isAlphanum, Char.isAlpha, Char.isUpper, Char.isLower, Char.isDigit, UInt32.le_iff_toNat_le] at h
  omega

theorem isSlugAlnum_ascii (c : Char) (h : isSlugAlnum c = true) : c.toNat < 128 := by
  simp [isSlugAlnum, Char.isLower, Char.isDigit, UInt32.le_iff_toNat_le] at h
  omega

theorem refuseIf_decides {p : Prop} [Decidable p] {message : String} :
    Decides (refuseIf p message) (¬p) fun _ => True := .ite fun _ => trivial

theorem validateAppEntry_decides (app : GithubAppConfig) : Decides (validateAppEntry app) (AppValid app) fun _ => True := by
  have hchecks : Decides (validateAppEntry app) (NameValid isSlugAlnum appIdMaxLen app.id ∧
      ¬(parseU64 app.appId).isNone = true ∧ ¬(bytes app.webhookSecret).isEmpty = true ∧ ¬isBlank app.privateKey = true)
      fun _ => True :=
    .bind (name_decides isSlugAlnum_ascii) fun _ _ _ => .bind refuseIf_decides fun _ _ _ =>
      .bind refuseIf_decides fun _ _ _ => refuseIf_decides
  refine hchecks.congr ?_
  rw [bytes_isEmpty, not_isBlank, not_isNone]
  constructor
  · rintro ⟨hid, happId, hsecret, hkey⟩
    exact ⟨hid, happId, hsecret, hkey⟩
  · intro h
    exact ⟨h.id, h.appId, h.webhookSecret, h.privateKey⟩

theorem validateConnectorIds_decides (slug : String) (ids : List String) :
    Decides (validateConnectorIds slug ids) (ids ≠ [] ∧ ∀ id ∈ ids, HasInk id) fun _ => True := by
  have hchecks : Decides (validateConnectorIds slug ids) (¬ids.isEmpty = true ∧ ∀ id ∈ ids, ¬isBlank id = true)
      fun _ => True := .guard fun _ => .forM fun _ _ => .ite fun _ => trivial
  refine hchecks.congr ?_
  simp only [List.isEmpty_iff, not_isBlank, ne_eq]

/-- A tenant is valid, and its app is known. -/
theorem validateTenant_decides (tenant : TenantConfig) (apps : GithubAppRegistry) :
    Decides (validateTenant tenant apps) (TenantValid tenant ∧ tenant.appRef ∈ apps.byId.keys) fun _ => True := by
  have hbinding : Decides (validateTenantBinding tenant.slug tenant.provider.binding apps)
      (NameValid isOrgAlnum orgNameMaxLen tenant.orgName ∧ ¬(apps.byId.lookup tenant.appRef).isNone = true)
      fun _ => True := .bind (name_decides isOrgAlnum_ascii) fun _ _ _ => refuseIf_decides
  have hchecks : Decides (validateTenant tenant apps) (NameValid isSlugAlnum slugMaxLen tenant.slug ∧
      (tenant.connectorIds ≠ [] ∧ ∀ id ∈ tenant.connectorIds, HasInk id) ∧
        NameValid isOrgAlnum orgNameMaxLen tenant.orgName ∧ ¬(apps.byId.lookup tenant.appRef).isNone = true)
      fun _ => True :=
    .bind (name_decides isSlugAlnum_ascii) fun _ _ _ => .bind (validateConnectorIds_decides _ _) fun _ _ _ => hbinding
  refine hchecks.congr ?_
  rw [HashMap.mem_keys_iff_lookup, not_isNone]
  constructor
  · rintro ⟨hslug, ⟨hsome, hids⟩, horg, hknown⟩
    exact ⟨⟨hslug, hsome, hids, horg⟩, hknown⟩
  · rintro ⟨h, hknown⟩
    exact ⟨h.slug, ⟨h.connectors, h.connectorIds⟩, h.orgName, hknown⟩

/-! ## The indexes -/

/-- The pairs under which a tenant is found at login. -/
def TenantConfig.logins (self : TenantConfig) : List (String × String) := self.connectorIds.map fun id => (id, self.orgName)

/-- What the registry of apps holds after the apps of the list. -/
def GithubAppRegistry.Holds (self : GithubAppRegistry) (apps : List GithubAppConfig) : Prop :=
  Indexes self.byId (apps.map fun app => (app.id, app))

/-- What the registry of tenants holds after the tenants of the list. -/
structure TenantRegistry.Holds (registry : TenantRegistry) (tenants : List TenantConfig) : Prop where
  bySlug : Indexes registry.bySlug (tenants.map fun t => (t.slug, t))
  byAppAndOrg : Indexes registry.byAppAndOrg (tenants.map fun t => ((t.appRef, t.orgName), t))
  byConnectorAndOrg : Indexes registry.byConnectorAndOrg (tenants.flatMap fun t => t.logins.map fun key => (key, t))

theorem GithubAppRegistry.add_decides {self : GithubAppRegistry} {apps : List GithubAppConfig} (h : self.Holds apps)
    (app : GithubAppConfig) :
    Decides (self.add app) (AppValid app ∧ app.id ∉ apps.map GithubAppConfig.id) fun next => next.Holds (apps ++ [app]) := by
  have hkeys : app.id ∈ self.byId.keys ↔ app.id ∈ apps.map GithubAppConfig.id := by
    rw [h.mem_keys, List.map_map]
    rfl
  rw [← hkeys]
  have hchecks : Decides (self.add app) (AppValid app ∧ app.id ∉ self.byId.keys ∧ True)
      fun next => next.Holds (apps ++ [app]) := by
    refine .bind (validateAppEntry_decides app) fun _ _ _ => .bind refuseIf_decides fun _ hnew _ => .pure _ ?_
    rw [Holds, List.map_append]
    exact h.insert hnew app
  exact hchecks.congr (by rw [and_true])

/-- The apps make a registry where each is valid and no two have one id. -/
theorem GithubAppRegistry.build_decides (apps : List GithubAppConfig) :
    Decides (GithubAppRegistry.build apps) ((∀ app ∈ apps, AppValid app) ∧ (apps.map GithubAppConfig.id).Nodup)
      fun self => self.Holds apps := by
  refine Decides.foldlM (P := fun apps => (∀ app ∈ apps, AppValid app) ∧ (apps.map GithubAppConfig.id).Nodup)
    (J := fun apps (self : GithubAppRegistry) => self.Holds apps) ⟨by simp, by simp⟩ .empty (fun apps app => ?_)
    (fun apps app self _ hself => add_decides hself app) apps
  rw [nodup_map_append_singleton, List.forall_mem_append, List.forall_mem_singleton]
  exact and_and_and_comm

namespace TenantRegistry

/-- The connectors of a tenant are added where no login is taken. -/
theorem connectors_decides {m : HashMap (String × String) TenantConfig} {entries : List ((String × String) × TenantConfig)}
    (h : Indexes m entries) (tenant : TenantConfig) :
    Decides (tenant.connectorIds.foldlM (addConnector tenant) m) (entries.map Prod.fst ++ tenant.logins).Nodup
      fun m' => Indexes m' (entries ++ tenant.logins.map fun key => (key, tenant)) := by
  let taken := fun ids : List String => entries ++ ids.map fun id => ((id, tenant.orgName), tenant)
  have hkeys : ∀ ids, (taken ids).map Prod.fst = entries.map Prod.fst ++ ids.map fun id => (id, tenant.orgName) := by
    intro ids
    simp [taken]
  have hentries : ∀ ids id, taken (ids ++ [id]) = taken ids ++ [((id, tenant.orgName), tenant)] := by
    intro ids id
    simp [taken]
  have hloop : Decides (tenant.connectorIds.foldlM (addConnector tenant) m) ((taken tenant.connectorIds).map Prod.fst).Nodup
      fun m' => Indexes m' (taken tenant.connectorIds) := by
    refine Decides.foldlM (P := fun ids => ((taken ids).map Prod.fst).Nodup) (J := fun ids m' => Indexes m' (taken ids))
      (G := fun ids id => (id, tenant.orgName) ∉ (taken ids).map Prod.fst) ?_ ?_ ?_ ?_ _
    · simpa [taken] using h.nodup
    · simpa [taken] using h
    · intro ids id
      rw [hentries]
      exact nodup_map_append_singleton _ _ _
    · intro ids id m' _ hm'
      have hadd : Decides (addConnector tenant m' id) (¬(id, tenant.orgName) ∈ m'.keys)
          fun next => Indexes next (taken (ids ++ [id])) := by
        refine .ite fun hnew => ?_
        rw [hentries]
        exact hm'.insert hnew tenant
      rwa [hm'.mem_keys] at hadd
  rw [hkeys] at hloop
  have hlogins : taken tenant.connectorIds = entries ++ tenant.logins.map fun key => (key, tenant) := by
    simp only [taken, TenantConfig.logins, List.map_map]
    rfl
  rwa [hlogins] at hloop

/-- What `build` requires of a tenant after others. -/
structure Fits (apps : GithubAppRegistry) (tenants : List TenantConfig) (tenant : TenantConfig) : Prop where
  valid : TenantValid tenant
  known : tenant.appRef ∈ apps.byId.keys
  slug : tenant.slug ∉ tenants.map TenantConfig.slug
  appOrg : (tenant.appRef, tenant.orgName) ∉ tenants.map fun t => (t.appRef, t.orgName)
  logins : (tenants.flatMap TenantConfig.logins ++ tenant.logins).Nodup

theorem add_decides {apps : GithubAppRegistry} {self : TenantRegistry} {tenants : List TenantConfig}
    (h : self.Holds tenants) (tenant : TenantConfig) :
    Decides (self.add apps tenant) (Fits apps tenants tenant) fun next => next.Holds (tenants ++ [tenant]) := by
  have hslugs : tenant.slug ∈ self.bySlug.keys ↔ tenant.slug ∈ tenants.map TenantConfig.slug := by
    rw [h.bySlug.mem_keys, List.map_map]
    rfl
  have horgs : (tenant.appRef, tenant.orgName) ∈ self.byAppAndOrg.keys ↔
      (tenant.appRef, tenant.orgName) ∈ tenants.map fun t => (t.appRef, t.orgName) := by
    rw [h.byAppAndOrg.mem_keys, List.map_map]
    rfl
  have hlogins : (tenants.flatMap fun t => t.logins.map fun key => (key, t)).map Prod.fst =
      tenants.flatMap TenantConfig.logins := by
    rw [List.map_flatMap]
    apply List.flatMap_congr
    intro t _
    rw [List.map_map]
    exact List.map_id _
  have hchecks : Decides (self.add apps tenant) ((TenantValid tenant ∧ tenant.appRef ∈ apps.byId.keys) ∧
      ¬tenant.slug ∈ self.bySlug.keys ∧ ¬(tenant.appRef, tenant.orgName) ∈ self.byAppAndOrg.keys ∧
        (((tenants.flatMap fun t => t.logins.map fun key => (key, t)).map Prod.fst) ++ tenant.logins).Nodup ∧ True)
      fun next => next.Holds (tenants ++ [tenant]) := by
    refine .bind (validateTenant_decides tenant apps) fun _ _ _ => .bind refuseIf_decides fun _ hslug _ =>
      .bind refuseIf_decides fun _ horg _ => .bind (connectors_decides h.byConnectorAndOrg tenant) fun m _ hm =>
        .pure _ ⟨?_, ?_, ?_⟩
    · rw [List.map_append]
      exact h.bySlug.insert hslug tenant
    · rw [List.map_append]
      exact h.byAppAndOrg.insert horg tenant
    · rw [List.flatMap_append]
      simpa using hm
  refine hchecks.congr ?_
  rw [hslugs, horgs, hlogins]
  constructor
  · rintro ⟨⟨hvalid, hknown⟩, hslug, horg, hnodup, -⟩
    exact ⟨hvalid, hknown, hslug, horg, hnodup⟩
  · intro hfits
    exact ⟨⟨hfits.valid, hfits.known⟩, hfits.slug, hfits.appOrg, hfits.logins, trivial⟩

/-- What `build` requires of the tenants. -/
structure Fit (apps : GithubAppRegistry) (tenants : List TenantConfig) : Prop where
  valid : ∀ t ∈ tenants, TenantValid t
  known : ∀ t ∈ tenants, t.appRef ∈ apps.byId.keys
  slugs : (tenants.map TenantConfig.slug).Nodup
  appOrgs : (tenants.map fun t => (t.appRef, t.orgName)).Nodup
  logins : (tenants.flatMap TenantConfig.logins).Nodup

theorem fit_append_singleton {apps : GithubAppRegistry} {tenants : List TenantConfig} {tenant : TenantConfig} :
    Fit apps (tenants ++ [tenant]) ↔ Fit apps tenants ∧ Fits apps tenants tenant := by
  have hlogins : (tenants ++ [tenant]).flatMap TenantConfig.logins = tenants.flatMap TenantConfig.logins ++ tenant.logins := by
    simp
  constructor
  · intro h
    have hslugs := (nodup_map_append_singleton _ _ _).mp h.slugs
    have horgs := (nodup_map_append_singleton _ _ _).mp h.appOrgs
    have hnodup := h.logins
    rw [hlogins] at hnodup
    have hvalid := List.forall_mem_append.mp h.valid
    have hknown := List.forall_mem_append.mp h.known
    exact ⟨⟨hvalid.1, hknown.1, hslugs.1, horgs.1, hnodup.of_append_left⟩,
      hvalid.2 _ List.mem_cons_self, hknown.2 _ List.mem_cons_self, hslugs.2, horgs.2, hnodup⟩
  · rintro ⟨h, hfits⟩
    constructor
    · exact List.forall_mem_append.mpr ⟨h.valid, List.forall_mem_singleton.mpr hfits.valid⟩
    · exact List.forall_mem_append.mpr ⟨h.known, List.forall_mem_singleton.mpr hfits.known⟩
    · exact (nodup_map_append_singleton _ _ _).mpr ⟨h.slugs, hfits.slug⟩
    · exact (nodup_map_append_singleton _ _ _).mpr ⟨h.appOrgs, hfits.appOrg⟩
    · rw [hlogins]
      exact hfits.logins

theorem build_decides (tenants : List TenantConfig) (apps : GithubAppRegistry) :
    Decides (TenantRegistry.build tenants apps) (Fit apps tenants) fun self => self.Holds tenants := by
  refine Decides.foldlM (J := fun tenants (self : TenantRegistry) => self.Holds tenants)
    ⟨by simp, by simp, by simp, by simp, by simp⟩ ⟨.empty, .empty, .empty⟩
    (fun tenants tenant => fit_append_singleton) (fun tenants tenant self _ hself => add_decides hself tenant) tenants

end TenantRegistry

/-! ## Documents -/

/-- A document whose entries are valid and claim different keys. -/
structure TenancyDocument.WellFormed (document : TenancyDocument) : Prop where
  apps : ∀ app ∈ document.githubApps, AppValid app
  tenants : ∀ t ∈ document.tenants, TenantValid t
  appIds : (document.githubApps.map GithubAppConfig.id).Nodup
  slugs : (document.tenants.map TenantConfig.slug).Nodup
  known : ∀ t ∈ document.tenants, ∃ app ∈ document.githubApps, app.id = t.appRef
  appOrgs : (document.tenants.map fun t => (t.appRef, t.orgName)).Nodup
  logins : (document.tenants.flatMap fun t => t.connectorIds.map fun c => (c, t.orgName)).Nodup

/-- The registry's lookups find the document's tenants under their keys. -/
structure TenancyRegistry.Finds (registry : TenancyRegistry) (document : TenancyDocument) : Prop where
  bySlug : ∀ slug t, registry.tenants.bySlug.lookup slug = some t ↔ t ∈ document.tenants ∧ t.slug = slug
  byAppAndOrg : ∀ app org t, registry.tenants.byAppAndOrg.lookup (app, org) = some t ↔
    t ∈ document.tenants ∧ t.appRef = app ∧ t.orgName = org
  findForConnectorAndOrg : ∀ connector org t, registry.tenants.findForConnectorAndOrg connector org = some t ↔
    t ∈ document.tenants ∧ connector ∈ t.connectorIds ∧ t.orgName = org

theorem TenantRegistry.Holds.finds {apps : GithubAppRegistry} {tenants : TenantRegistry} {document : TenancyDocument}
    (h : tenants.Holds document.tenants) : TenancyRegistry.Finds ⟨apps, tenants⟩ document := by
  constructor
  · intro slug t
    rw [h.bySlug.lookup]
    simp [and_comm]
  · intro app org t
    rw [h.byAppAndOrg.lookup]
    simp
  · intro connector org t
    rw [TenantRegistry.findForConnectorAndOrg, h.byConnectorAndOrg.lookup]
    simp [TenantConfig.logins]

theorem GithubAppRegistry.Holds.mem_keys {self : GithubAppRegistry} {apps : List GithubAppConfig} (h : self.Holds apps)
    {id : String} : id ∈ self.byId.keys ↔ ∃ app ∈ apps, app.id = id := by
  rw [Indexes.mem_keys h]
  simp

/-- What `from_document` checks is that the document is well formed, and it builds what finds its tenants. -/
theorem TenancyRegistry.fromDocument_checks (document : TenancyDocument) :
    Decides (TenancyRegistry.fromDocument document) document.WellFormed fun registry =>
      registry.apps.Holds document.githubApps ∧ registry.tenants.Holds document.tenants := by
  let fit := (∀ t ∈ document.tenants, TenantValid t) ∧ (∀ t ∈ document.tenants, ∃ app ∈ document.githubApps, app.id = t.appRef) ∧
    (document.tenants.map TenantConfig.slug).Nodup ∧ (document.tenants.map fun t => (t.appRef, t.orgName)).Nodup ∧
      (document.tenants.flatMap TenantConfig.logins).Nodup
  have hfit : ∀ apps : GithubAppRegistry, apps.Holds document.githubApps → (TenantRegistry.Fit apps document.tenants ↔ fit) := by
    intro apps happs
    constructor
    · intro h
      exact ⟨h.valid, fun t ht => happs.mem_keys.mp (h.known t ht), h.slugs, h.appOrgs, h.logins⟩
    · rintro ⟨hvalid, hknown, hslugs, horgs, hlogins⟩
      exact ⟨hvalid, fun t ht => happs.mem_keys.mpr (hknown t ht), hslugs, horgs, hlogins⟩
  have hchecks : Decides (TenancyRegistry.fromDocument document)
      (((∀ app ∈ document.githubApps, AppValid app) ∧ (document.githubApps.map GithubAppConfig.id).Nodup) ∧ fit ∧ True)
      fun registry => registry.apps.Holds document.githubApps ∧ registry.tenants.Holds document.tenants :=
    .bind (GithubAppRegistry.build_decides _) fun apps _ happs =>
      .bind ((TenantRegistry.build_decides document.tenants apps).congr (hfit apps happs)) fun tenants _ htenants =>
        .pure _ ⟨happs, htenants⟩
  refine hchecks.congr ?_
  constructor
  · rintro ⟨⟨happs, hids⟩, ⟨hvalid, hknown, hslugs, horgs, hlogins⟩, -⟩
    exact ⟨happs, hvalid, hids, hslugs, hknown, horgs, hlogins⟩
  · intro h
    exact ⟨⟨h.apps, h.appIds⟩, ⟨h.tenants, h.known, h.slugs, h.appOrgs, h.logins⟩, trivial⟩

theorem TenancyRegistry.finds_of_ok {document : TenancyDocument} {registry : TenancyRegistry}
    (h : TenancyRegistry.fromDocument document = .ok registry) : registry.Finds document :=
  ((fromDocument_checks document).of_ok h).2.2.finds

/-- A document makes a registry exactly where it is well formed, and the registry finds its tenants under their keys. -/
theorem TenancyRegistry.fromDocument_exact (document : TenancyDocument) :
    Decides (TenancyRegistry.fromDocument document) document.WellFormed fun registry => registry.Finds document :=
  (fromDocument_checks document).mono fun _ _ h => h.2.finds

end Jefferies.Tenancy
