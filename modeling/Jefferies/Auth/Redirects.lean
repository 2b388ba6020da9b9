import Jefferies.Auth.Login
import Jefferies.Collections.References
import Jefferies.Interaction.Monitor

/-!
# Redirects behind a login

A login keeps the place to return to in the record of the session, if it begins with a slash. The browser resolves it
against the URL of the page that it comes from.
-/

namespace Jefferies.Auth

open Tenancy Interaction Interact Monitor

/-- The records of one session: each request finds one that was there before, whatever is answered to its calls. -/
inductive Recorded (state : AuthRouterState) : Session → Prop
  | fresh : Recorded state .empty
  | served {session session' request response} : Recorded state session →
      (serve state request session).Ends (fun _ _ _ => True) session' response → Recorded state session'

/-- The place was stored by a login, and `callback` redirects to it. -/
def Redirected (state : AuthRouterState) (target : String) : Prop :=
  ∃ session preAuth params session', Recorded state session ∧ session.preAuth = some preAuth ∧
    preAuth.returnTo = some target ∧
    (callback state params session).Ends (fun _ _ _ => True) session' (.redirect target)

/-- From every page served over https, the place is at the origin of the page. -/
def StaysOnSite (target : String) : Prop := (Reference.ofText target.toList).Stays

/-- The second character of the place is a slash, as browsers have it. -/
def secondSlash (target : String) : Bool := target.toList.tail.head?.any isSlash

/-! ## What is stored -/

/-- The place to return to begins with a slash. -/
def Session.Rooted (self : Session) : Prop :=
  ∀ preAuth, self.preAuth = some preAuth → ∀ target, preAuth.returnTo = some target → startsWith target "/" = true

/-- The watcher of a session, which neither assumes nor promises anything. -/
def watching : Monitor Unit Session Unit Resp where
  assume _ _ := True
  ok _ _ _ := True
  next _ _ := ()

/-- The computation keeps the record rooted. -/
def KeepsRooted {α : Type} (m : Handler α) : Prop :=
  ∀ session : Session, session.Rooted → watching.Obeys (m session) () fun _ session' _ => session'.Rooted

namespace KeepsRooted

variable {α β : Type}

theorem seq {m : Handler α} {f : α → Handler β} (hm : KeepsRooted m) (hf : ∀ a, KeepsRooted (f a)) :
    KeepsRooted (m >>= f) := fun session h => (hm session h).seq fun _ session' a h' => hf a session' h'

theorem ret (a : α) : KeepsRooted (pure a) := fun _ h => h

theorem call (e : Effect) : KeepsRooted (call e) := fun _ h => ⟨trivial, fun _ _ => h⟩

theorem access {f : Session → α × Session} (hf : ∀ session : Session, session.Rooted → (f session).2.Rooted) :
    KeepsRooted (access f) := by
  apply (call .accessRecord).seq
  intro r
  cases r with
  | error => exact ret _
  | ok => exact fun session h => hf session h

theorem clearPreAuth : KeepsRooted clearPreAuth := access fun _ _ _ h => by cases h

end KeepsRooted

theorem login_rooted (state : AuthRouterState) (params : LoginParams) : KeepsRooted (login state params) := by
  apply (KeepsRooted.call _).seq
  intro request
  refine (KeepsRooted.access ?_).seq ?_
  · rintro session - preAuth hpre target htarget
    cases hpre
    exact (Option.filter_eq_some_iff.mp htarget).2
  · intro r
    cases r with
    | error => exact .ret _
    | ok => exact .ret _

theorem verifyIdentity_rooted (code : String) (preAuth : PreAuthState) :
    KeepsRooted (verifyIdentity code preAuth) := by
  apply (KeepsRooted.call _).seq
  intro r
  split
  · exact .ret _
  · apply (KeepsRooted.call _).seq
    intro r
    split
    · exact .ret _
    · exact .ret _
    · apply (KeepsRooted.call _).seq
      intro r
      split
      · exact .ret _
      · exact .ret _

theorem establishSession_rooted (state : AuthRouterState) (preAuth : PreAuthState) (idToken : String)
    (claims : IdTokenClaims) : KeepsRooted (establishSession state preAuth idToken claims) := by
  unfold establishSession
  split
  · exact KeepsRooted.clearPreAuth.seq fun _ => .ret _
  · refine (KeepsRooted.access fun _ h => h).seq fun r => ?_
    cases r with
    | error => exact .ret _
    | ok => exact KeepsRooted.clearPreAuth.seq fun _ => .ret _

theorem callback_rooted (state : AuthRouterState) (params : CallbackParams) : KeepsRooted (callback state params) := by
  unfold callback
  split
  · exact .ret _
  · split
    · refine (KeepsRooted.access fun _ h => h).seq fun r => ?_
      split
      · exact .ret _
      · exact .ret _
      · split
        · exact .ret _
        · apply (verifyIdentity_rooted _ _).seq
          intro r
          split
          · exact .ret _
          · exact establishSession_rooted state _ _ _
    · exact .ret _

theorem serve_rooted (state : AuthRouterState) (request : Request) : KeepsRooted (serve state request) := by
  cases request with
  | login params => exact login_rooted state params
  | callback params => exact callback_rooted state params
  | logout =>
      refine (KeepsRooted.access fun _ h => h).seq fun r => ?_
      cases r with
      | error => exact .ret _
      | ok => exact (KeepsRooted.call _).seq fun _ _ _ _ h => by cases h
  | me =>
      refine (KeepsRooted.access fun _ h => h).seq fun r => ?_
      split
      · exact .ret _
      · exact .ret _
      · exact .ret _
  | activeTenant slug =>
      refine (KeepsRooted.access fun _ h => h).seq fun r => ?_
      split
      · exact .ret _
      · exact .ret _
      · split
        · exact .ret _
        · refine (KeepsRooted.access fun _ h => h).seq fun r => ?_
          cases r with
          | error => exact .ret _
          | ok => exact .ret _

theorem Recorded.rooted {state : AuthRouterState} {session : Session} (h : Recorded state session) :
    session.Rooted := by
  induction h with
  | fresh => exact fun _ h => by cases h
  | served _ hends ih => exact (serve_rooted state _ _ ih).ends (fun _ _ _ _ _ => trivial) hends

/-! ## Where a stored place leads -/

theorem staysOnSite_iff {target : String} (h : startsWith target "/" = true) :
    StaysOnSite target ↔ secondSlash target = false := by
  obtain ⟨rest, hrest⟩ : ∃ rest, target.toList = '/' :: rest := by
    obtain ⟨rest, hrest⟩ := List.isPrefixOf_iff_prefix.mp h
    exact ⟨rest, hrest.symm⟩
  obtain ⟨hscheme, hauthority⟩ := Reference.ofText_of_slash (c := '/') rest rfl
  rw [StaysOnSite, hrest, Reference.stays_iff hscheme, hauthority, secondSlash, hrest, List.tail_cons]

/-- A place that a login stored and `callback` redirects to is on the site exactly if its second character is neither
a slash nor a backslash. -/
theorem redirect_stays_iff {state : AuthRouterState} {target : String} (h : Redirected state target) :
    StaysOnSite target ↔ secondSlash target = false := by
  obtain ⟨session, preAuth, _, _, hrecorded, hpre, htarget, _⟩ := h
  exact staysOnSite_iff (hrecorded.rooted preAuth hpre target htarget)

/-! ## Logins that succeed -/

/-- Every place that begins with a slash is redirected to, where the user is authorized for a tenant. -/
theorem redirected_of_authorized {state : AuthRouterState} {target idToken slug : String} {slugs : List String}
    (hroot : startsWith target "/" = true) (hheader : state.isHeaderValue target = true)
    (hslugs : resolveAuthorizedSlugs (extractOidcExtras state.decodePayload idToken) state.tenants = slug :: slugs) :
    Redirected state target := by
  let preAuth : PreAuthState := ⟨"csrf", "verifier", "nonce", some target⟩
  have hlogin : (serve state (.login ⟨some target⟩) .empty).Ends (fun _ _ _ => True) ⟨none, some preAuth⟩
      (redirectTo state "https://dex/auth") := by
    have hreturn : (some target).filter (fun r => startsWith r "/") = some target := by simp [hroot]
    refine ⟨⟨"https://dex/auth", "csrf", "nonce", "verifier"⟩, trivial, .ok (), trivial, ?_, rfl⟩
    simp only [hreturn]
    rfl
  have hcallback : (callback state ⟨some "code", some "csrf", none⟩ ⟨none, some preAuth⟩).Ends (fun _ _ _ => True)
      ⟨some ⟨"user", none, none, slug :: slugs, slug⟩, none⟩ (.redirect target) := by
    refine ⟨.ok (), trivial, .ok (), trivial, .ok (some idToken), trivial, .ok ⟨"user", none, none⟩, trivial, ?_⟩
    change (establishSession state preAuth idToken ⟨"user", none, none⟩ ⟨none, some preAuth⟩).Ends _ _ _
    rw [establishSession, hslugs]
    refine ⟨.ok (), trivial, .ok (), trivial, rfl, ?_⟩
    exact (if_pos hheader).symm
  exact ⟨_, preAuth, _, _, .served .fresh hlogin, rfl, rfl, hcallback⟩

/-- The payload of a token of a member of a team. -/
def teamPayload : Json :=
  .record [("groups", some (.array [.string "acme:eng"])),
    ("federated_claims", some (.record [("connector_id", some (.string "github"))]))]

/-- The payload as it stands in the token. -/
def teamPayloadB64 : String :=
  "eyJncm91cHMiOlsiYWNtZTplbmciXSwiZmVkZXJhdGVkX2NsYWltcyI6eyJjb25uZWN0b3JfaWQiOiJnaXRodWIifX0"

/-- The backend with the tenants of a registry. -/
def backend (registry : TenancyRegistry) : AuthRouterState where
  postLoginRedirect := "/"
  tenants := registry.tenants
  isHeaderValue target := target.toList.all fun c => 32 ≤ c.toNat && c.toNat < 127
  decodePayload text := if text = teamPayloadB64 then some teamPayload else none

theorem isHeaderValue_backend {registry : TenancyRegistry} {target : String}
    (h : (target.toList.all fun c => 32 ≤ c.toNat && c.toNat < 127) = true) :
    (backend registry).isHeaderValue target = true := h

/-- The member of the team is authorized for the tenant of its organisation. -/
theorem exists_authorized : ∃ registry idToken slug slugs,
    resolveAuthorizedSlugs (extractOidcExtras (backend registry).decodePayload idToken) registry.tenants =
      slug :: slugs := by
  obtain ⟨registry, h⟩ : ∃ registry, TenancyRegistry.fromDocument (sampleDocument [acmeCorp]) = .ok registry := ⟨_, rfl⟩
  have hextras : extractOidcExtras (backend registry).decodePayload
      ("eyJhbGciOiJSUzI1NiJ9." ++ teamPayloadB64 ++ ".c2lnbmF0dXJl") = ⟨["acme:eng"], some "github"⟩ := by
    have hsplit : splitText ("eyJhbGciOiJSUzI1NiJ9." ++ teamPayloadB64 ++ ".c2lnbmF0dXJl") '.' =
        ["eyJhbGciOiJSUzI1NiJ9", teamPayloadB64, "c2lnbmF0dXJl"] := by decide +kernel
    have hdecode : (backend registry).decodePayload teamPayloadB64 = some teamPayload := by simp [backend]
    rw [extractOidcExtras, hsplit]
    simp only [hdecode]
    rfl
  have hauthorizes := resolveAuthorizedSlugs_authorizes (TenancyRegistry.finds_of_ok h) ⟨["acme:eng"], some "github"⟩
  have hmem : "acme-corp" ∈ resolveAuthorizedSlugs ⟨["acme:eng"], some "github"⟩ registry.tenants := by
    rw [hauthorizes.mem]
    have hbound : Bound "github" "acme:eng" acmeCorp := ⟨by decide, by decide, .inr ⟨"eng", by decide⟩⟩
    exact ⟨"acme:eng", List.mem_singleton_self _, acmeCorp, List.mem_singleton_self _, rfl, "github", rfl, hbound⟩
  obtain ⟨slug, slugs, hslugs⟩ := List.exists_cons_of_ne_nil (List.ne_nil_of_mem hmem)
  exact ⟨registry, _, slug, slugs, by rw [hextras, hslugs]⟩

theorem redirect_stays_runs :
    ∃ registry, Redirected (backend registry) "/runs/7?tab=log" ∧ StaysOnSite "/runs/7?tab=log" := by
  obtain ⟨registry, idToken, slug, slugs, hslugs⟩ := exists_authorized
  have h : Redirected (backend registry) "/runs/7?tab=log" := redirected_of_authorized (by decide) (isHeaderValue_backend (by decide)) hslugs
  exact ⟨registry, h, (redirect_stays_iff h).mpr (by decide)⟩

/-- A login can lead to another site. -/
theorem redirect_leaves_site :
    ∃ registry, Redirected (backend registry) "//evil.example" ∧ ¬StaysOnSite "//evil.example" := by
  obtain ⟨registry, idToken, slug, slugs, hslugs⟩ := exists_authorized
  refine ⟨registry, redirected_of_authorized (by decide) (isHeaderValue_backend (by decide)) hslugs, ?_⟩
  rw [staysOnSite_iff (by decide)]
  decide

end Jefferies.Auth
