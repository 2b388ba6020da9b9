import Jefferies.Collections.HashMap
import Jefferies.Collections.Result
import Jefferies.Collections.Text

/-!
# Tenants and their GitHub Apps

`TenancyRegistry.fromDocument` checks the apps and the tenants of a document one after the other, and indexes
them; the first violation is the error.
-/

namespace Jefferies.Tenancy

def slugMaxLen : Nat := 63

def appIdMaxLen : Nat := 63

def orgNameMaxLen : Nat := 39

inductive TenancyError where
  | validation (message : String)
  deriving DecidableEq

structure GithubAppConfig where
  id : String
  appId : String
  webhookSecret : String
  privateKey : String
  deriving DecidableEq

structure GithubTenantBinding where
  orgName : String
  appRef : String
  deriving DecidableEq

inductive TenantProvider where
  | github (binding : GithubTenantBinding)
  deriving DecidableEq

structure TenantConfig where
  slug : String
  displayName : Option String
  connectorIds : List String
  provider : TenantProvider
  deriving DecidableEq

structure TenancyDocument where
  githubApps : List GithubAppConfig
  tenants : List TenantConfig

def TenantProvider.binding : TenantProvider → GithubTenantBinding
  | .github binding => binding

/-! ## Validation -/

def isSlugAlnum (c : Char) : Bool := c.isLower || c.isDigit

def isOrgAlnum (c : Char) : Bool := c.isAlphanum

/-- Fails with the message where the condition holds. -/
def refuseIf (p : Prop) [Decidable p] (message : String) : Except TenancyError Unit :=
  if p then .error (.validation message) else .ok ()

/-- The loop over the characters of a name: the first one is alphanumeric, the others may also be dashes. -/
def validateChars (isAlnum : Char → Bool) (badStart : String) (badChar : Char → String) :
    List Char → Except TenancyError Unit
  | [] => .ok ()
  | c :: rest =>
      if !isAlnum c then .error (.validation badStart)
      else
        match rest.find? fun c => !isAlnum c && c ≠ '-' with
        | none => .ok ()
        | some c => .error (.validation (badChar c))

def validateDnsLabel (value : String) (maxLen : Nat) (label : String) : Except TenancyError Unit :=
  if (bytes value).isEmpty then .error (.validation (label ++ " must not be empty"))
  else if (bytes value).length > maxLen then
    .error (.validation (label ++ " '" ++ value ++ "' exceeds " ++ toString maxLen ++ " characters"))
  else
    validateChars isSlugAlnum (label ++ " '" ++ value ++ "' must start with a lowercase letter or digit")
      (fun c => label ++ " '" ++ value ++ "' contains invalid character '" ++ c.toString ++
        "' (allowed: a-z, 0-9, '-')") value.toList

def validateSlug (slug : String) : Except TenancyError Unit := validateDnsLabel slug slugMaxLen "Tenant slug"

def validateAppIdField (id : String) : Except TenancyError Unit := validateDnsLabel id appIdMaxLen "github_apps id"

def validateOrgName (slug org : String) : Except TenancyError Unit :=
  if (bytes org).isEmpty then .error (.validation ("Tenant '" ++ slug ++ "' has empty org_name"))
  else if (bytes org).length > orgNameMaxLen then
    .error (.validation ("Tenant '" ++ slug ++ "' org_name '" ++ org ++ "' exceeds " ++ toString orgNameMaxLen ++
      " characters"))
  else
    validateChars isOrgAlnum
      ("Tenant '" ++ slug ++ "' org_name '" ++ org ++ "' must start with an alphanumeric character")
      (fun c => "Tenant '" ++ slug ++ "' org_name '" ++ org ++ "' contains invalid character '" ++ c.toString ++
        "' (allowed: a-z, A-Z, 0-9, '-')") org.toList

def validateAppEntry (app : GithubAppConfig) : Except TenancyError Unit := do
  validateAppIdField app.id
  refuseIf (parseU64 app.appId).isNone
    ("github_apps[" ++ app.id ++ "] has invalid app_id '" ++ app.appId ++ "'; expected unsigned integer")
  refuseIf (bytes app.webhookSecret).isEmpty ("github_apps[" ++ app.id ++ "] has empty webhook_secret")
  refuseIf (isBlank app.privateKey) ("github_apps[" ++ app.id ++ "] has empty private_key")

def validateConnectorIds (slug : String) (ids : List String) : Except TenancyError Unit :=
  if ids.isEmpty then .error (.validation ("Tenant '" ++ slug ++ "' has empty connector_ids"))
  else
    ids.forM fun id =>
      if isBlank id then .error (.validation ("Tenant '" ++ slug ++ "' has empty entry in connector_ids")) else .ok ()

/-! ## Registries -/

structure GithubAppRegistry where
  byId : HashMap String GithubAppConfig

structure TenantRegistry where
  bySlug : HashMap String TenantConfig
  byConnectorAndOrg : HashMap (String × String) TenantConfig
  byAppAndOrg : HashMap (String × String) TenantConfig

structure TenancyRegistry where
  apps : GithubAppRegistry
  tenants : TenantRegistry

namespace GithubAppRegistry

/-- The body of the loop of `build`. -/
def add (self : GithubAppRegistry) (app : GithubAppConfig) : Except TenancyError GithubAppRegistry := do
  validateAppEntry app
  refuseIf (app.id ∈ self.byId.keys) ("Duplicate github_apps id: " ++ app.id)
  return { self with byId := self.byId.insert app.id app }

def build (apps : List GithubAppConfig) : Except TenancyError GithubAppRegistry := apps.foldlM add ⟨∅⟩

end GithubAppRegistry

def validateTenantBinding (slug : String) (binding : GithubTenantBinding) (apps : GithubAppRegistry) :
    Except TenancyError Unit := do
  validateOrgName slug binding.orgName
  refuseIf (apps.byId.lookup binding.appRef).isNone
    ("Tenant '" ++ slug ++ "' references unknown github_app '" ++ binding.appRef ++ "'")

def validateTenant (tenant : TenantConfig) (apps : GithubAppRegistry) : Except TenancyError Unit := do
  validateSlug tenant.slug
  validateConnectorIds tenant.slug tenant.connectorIds
  validateTenantBinding tenant.slug tenant.provider.binding apps

namespace TenantRegistry

/-- The body of the inner loop of `build`. -/
def addConnector (tenant : TenantConfig) (m : HashMap (String × String) TenantConfig) (connectorId : String) :
    Except TenancyError (HashMap (String × String) TenantConfig) :=
  let key := (connectorId, tenant.provider.binding.orgName)
  if key ∈ m.keys then
    .error (.validation ("Duplicate (connector_id, org_name) pair: (" ++ connectorId ++ ", " ++
      tenant.provider.binding.orgName ++ ") across tenants"))
  else .ok (m.insert key tenant)

/-- The body of the loop of `build`. -/
def add (apps : GithubAppRegistry) (self : TenantRegistry) (tenant : TenantConfig) :
    Except TenancyError TenantRegistry := do
  validateTenant tenant apps
  refuseIf (tenant.slug ∈ self.bySlug.keys) ("Duplicate tenant slug: " ++ tenant.slug)
  let binding := tenant.provider.binding
  let appOrgKey := (binding.appRef, binding.orgName)
  refuseIf (appOrgKey ∈ self.byAppAndOrg.keys)
    ("Duplicate (github_app, org_name) pair: (" ++ binding.appRef ++ ", " ++ binding.orgName ++
      ") referenced by tenant '" ++ tenant.slug ++ "'")
  let byConnectorAndOrg ← tenant.connectorIds.foldlM (addConnector tenant) self.byConnectorAndOrg
  return {
    bySlug := self.bySlug.insert tenant.slug tenant
    byConnectorAndOrg := byConnectorAndOrg
    byAppAndOrg := self.byAppAndOrg.insert appOrgKey tenant }

def build (tenants : List TenantConfig) (apps : GithubAppRegistry) : Except TenancyError TenantRegistry :=
  tenants.foldlM (add apps) ⟨∅, ∅, ∅⟩

def findForConnectorAndOrg (self : TenantRegistry) (connectorId orgName : String) : Option TenantConfig :=
  self.byConnectorAndOrg.lookup (connectorId, orgName)

end TenantRegistry

def TenancyRegistry.fromDocument (document : TenancyDocument) : Except TenancyError TenancyRegistry := do
  let apps ← GithubAppRegistry.build document.githubApps
  let tenants ← TenantRegistry.build document.tenants apps
  return ⟨apps, tenants⟩

/-! ## What acceptance says -/

theorem refuseIf_ok {p : Prop} [Decidable p] {message : String} {u : Unit} (h : refuseIf p message = .ok u) : ¬p := by
  intro hp
  rw [refuseIf, if_pos hp] at h
  cases h

theorem GithubAppRegistry.add_ok {self next : GithubAppRegistry} {app : GithubAppConfig}
    (h : self.add app = .ok next) : app.id ∉ self.byId.keys ∧ next = ⟨self.byId.insert app.id app⟩ := by
  unfold add at h
  obtain ⟨_, _, h⟩ := except_bind_ok h
  obtain ⟨_, hnew, h⟩ := except_bind_ok h
  cases h
  exact ⟨refuseIf_ok hnew, rfl⟩

theorem GithubAppRegistry.build_ok {apps : List GithubAppConfig} {self : GithubAppRegistry}
    (h : GithubAppRegistry.build apps = .ok self) {id : String} {app : GithubAppConfig}
    (ha : self.byId.lookup id = some app) : app.id = id := by
  refine foldlM_ok (P := fun self => ∀ id app, self.byId.lookup id = some app → app.id = id) ?_ h ?_ id app ha
  · intro self app next hself hadd id app' hid
    obtain ⟨_, rfl⟩ := add_ok hadd
    rw [HashMap.lookup_insert_eq_ite] at hid
    split at hid
    · cases hid
      exact Eq.symm ‹_›
    · exact hself id app' hid
  · simp

/-- Every tenant is found under its own keys alone. -/
structure TenantRegistry.Consistent (registry : TenantRegistry) : Prop where
  slug : ∀ slug tenant, registry.bySlug.lookup slug = some tenant → tenant.slug = slug
  binding : ∀ key tenant, registry.byAppAndOrg.lookup key = some tenant →
    (tenant.provider.binding.appRef, tenant.provider.binding.orgName) = key ∧
      registry.bySlug.lookup tenant.slug = some tenant

theorem TenantRegistry.add_ok {apps : GithubAppRegistry} {self next : TenantRegistry} {tenant : TenantConfig}
    (h : self.add apps tenant = .ok next) :
    tenant.slug ∉ self.bySlug.keys ∧ next.bySlug = self.bySlug.insert tenant.slug tenant ∧
      next.byAppAndOrg = self.byAppAndOrg.insert
        (tenant.provider.binding.appRef, tenant.provider.binding.orgName) tenant := by
  unfold add at h
  obtain ⟨_, _, h⟩ := except_bind_ok h
  obtain ⟨_, hslug, h⟩ := except_bind_ok h
  obtain ⟨_, _, h⟩ := except_bind_ok h
  obtain ⟨_, _, h⟩ := except_bind_ok h
  cases h
  exact ⟨refuseIf_ok hslug, rfl, rfl⟩

theorem TenantRegistry.Consistent.add {apps : GithubAppRegistry} {self next : TenantRegistry}
    {tenant : TenantConfig} (hself : self.Consistent) (h : self.add apps tenant = .ok next) : next.Consistent := by
  obtain ⟨hnew, hslugs, hkeys⟩ := add_ok h
  constructor
  · intro slug t ht
    rw [hslugs, HashMap.lookup_insert_eq_ite] at ht
    split at ht
    · cases ht
      exact Eq.symm ‹_›
    · exact hself.slug slug t ht
  · intro key t ht
    rw [hkeys, HashMap.lookup_insert_eq_ite] at ht
    rw [hslugs, HashMap.lookup_insert_eq_ite]
    split at ht
    · cases ht
      exact ⟨Eq.symm ‹_›, if_pos rfl⟩
    · obtain ⟨hkey, hslug⟩ := hself.binding key t ht
      -- a slug is given to one tenant
      have hne : t.slug ≠ tenant.slug := by
        intro he
        exact hnew (he ▸ HashMap.mem_keys_iff_lookup.mpr ⟨t, hslug⟩)
      exact ⟨hkey, (if_neg hne).trans hslug⟩

theorem TenantRegistry.build_ok {apps : GithubAppRegistry} {tenants : List TenantConfig} {self : TenantRegistry}
    (h : TenantRegistry.build tenants apps = .ok self) : self.Consistent := by
  apply foldlM_ok (P := TenantRegistry.Consistent) (fun _ _ _ hself hadd => hself.add hadd) h
  constructor <;> simp

theorem TenancyRegistry.fromDocument_ok {document : TenancyDocument} {self : TenancyRegistry}
    (h : TenancyRegistry.fromDocument document = .ok self) :
    (∀ id app, self.apps.byId.lookup id = some app → app.id = id) ∧ self.tenants.Consistent := by
  obtain ⟨apps, happs, h⟩ := except_bind_ok h
  obtain ⟨tenants, htenants, h⟩ := except_bind_ok h
  cases h
  exact ⟨fun _ _ ha => GithubAppRegistry.build_ok happs ha, TenantRegistry.build_ok htenants⟩

end Jefferies.Tenancy
