import Jefferies.Auth.Redirects
import Jefferies.Interaction.Transcript

/-!
# Where a session's rights come from

A session is a chain of requests, each of which works on the record that one before it has left. The auth router moves
the record in six ways only: it begins a login, concludes it, drops it, leaves the session, chooses a tenant, or keeps
the record as it was. What a record grants is therefore what one login has brought in, from its redirect to the token
that was verified for it.
-/

namespace Jefferies.Auth

open Tenancy Interaction Interact Monitor

/-- A request that was served, the calls that were made for it, and the response. -/
structure Served where
  request : Request
  calls : Transcript Resp
  response : Response

/-- The records of one session, each with the requests that led to it. Requests may overlap: each finds the record that
some request before it has left. -/
inductive Lineage (state : AuthRouterState) : List Served → Session → Prop
  | fresh : Lineage state [] .empty
  | served {past session request calls session' response} : Lineage state past session →
      (serve state request session).Yields calls session' response →
      Lineage state (past ++ [⟨request, calls, response⟩]) session'

theorem recorded_iff {state : AuthRouterState} {session : Session} :
    Recorded state session ↔ ∃ past, Lineage state past session := by
  constructor
  · intro h
    induction h with
    | fresh => exact ⟨[], .fresh⟩
    | served _ hends ih =>
        obtain ⟨past, hpast⟩ := ih
        obtain ⟨calls, hcalls⟩ := Prog.ends_iff_yields.mp hends
        exact ⟨_, .served hpast hcalls⟩
  · rintro ⟨past, h⟩
    induction h with
    | fresh => exact .fresh
    | served _ hcalls ih => exact .served ih (Prog.ends_iff_yields.mpr ⟨_, hcalls⟩)

namespace Served

/-- The request was a login whose state was stored. -/
def Begins (state : AuthRouterState) (x : Served) (preAuth : PreAuthState) : Prop :=
  ∃ params scopes request, x.request = .login params ∧
    x.calls = [⟨.authorizeUrl scopes, request⟩, ⟨.accessRecord, .ok ()⟩] ∧
    x.response = redirectTo state request.url ∧
    preAuth = ⟨request.csrfToken, request.pkceVerifier, request.nonce,
      params.returnTo.filter fun r => startsWith r "/"⟩

/-- The request was the return from the login: it bears the login's state, its code was exchanged with the login's
verifier, and the token that came back was verified with the login's nonce. -/
structure Concludes (state : AuthRouterState) (x : Served) (preAuth : PreAuthState) (idToken : String)
    (auth : AuthSession) : Prop where
  exchanged : ∃ code, x.request = .callback ⟨some code, some preAuth.csrf, none⟩ ∧
    ⟨.requestToken code preAuth.pkceVerifier, .ok (some idToken)⟩ ∈ x.calls
  verified : ⟨.verifyIdToken idToken preAuth.nonce, .ok ⟨auth.userId, auth.email, auth.name⟩⟩ ∈ x.calls
  slugs : auth.authorizedSlugs =
    resolveAuthorizedSlugs (extractOidcExtras state.decodePayload idToken) state.tenants
  active : auth.authorizedSlugs.head? = some auth.activeTenantContext

/-- The request was a logout that was answered as done. -/
def Leaves (x : Served) : Prop := x.request = .logout ∧ x.response = .status 204

/-- The tenant that the request has made the active one. -/
def choice (x : Served) : Option String :=
  match x.request, x.response with
  | .activeTenant slug, .status 204 => some slug
  | _, _ => none

/-- The request neither began a login nor left the session nor chose a tenant. -/
structure Quiet (state : AuthRouterState) (x : Served) : Prop where
  begins : ∀ preAuth, ¬x.Begins state preAuth
  leaves : ¬x.Leaves
  choice : x.choice = none

variable {state : AuthRouterState} {x : Served}

theorem Begins.choice {preAuth : PreAuthState} (h : x.Begins state preAuth) : x.choice = none := by
  obtain ⟨_, _, _, hrequest, -⟩ := h
  rw [Served.choice, hrequest]

theorem Begins.stays {preAuth : PreAuthState} (h : x.Begins state preAuth) : ¬x.Leaves := by
  obtain ⟨_, _, _, hrequest, -⟩ := h
  intro hleaves
  rw [hleaves.1] at hrequest
  cases hrequest

theorem quiet_callback {params : CallbackParams} (h : x.request = .callback params) : x.Quiet state where
  begins _ hbegins := by
    obtain ⟨_, _, _, hrequest, -⟩ := hbegins
    rw [h] at hrequest
    cases hrequest
  leaves hleaves := by
    have hrequest := hleaves.1
    rw [h] at hrequest
    cases hrequest
  choice := by rw [Served.choice, h]

theorem Concludes.quiet {preAuth : PreAuthState} {idToken : String} {auth : AuthSession}
    (h : x.Concludes state preAuth idToken auth) : x.Quiet state := by
  obtain ⟨_, hrequest, -⟩ := h.exchanged
  exact quiet_callback hrequest

theorem choice_some {slug : String} (h : x.choice = some slug) : x.request = .activeTenant slug := by
  rw [Served.choice] at h
  split at h
  · cases h
    assumption
  · cases h

theorem stays_of_choice {slug : String} (h : x.choice = some slug) : ¬x.Leaves ∧ ∀ preAuth, ¬x.Begins state preAuth := by
  have hchosen := choice_some h
  constructor
  · intro hleaves
    rw [hleaves.1] at hchosen
    cases hchosen
  · rintro preAuth ⟨_, _, _, hrequest, -⟩
    rw [hrequest] at hchosen
    cases hchosen

end Served

/-! ## What a request does to the record -/

/-- The ways in which a request moves the record. -/
inductive Moves (state : AuthRouterState) (x : Served) (session : Session) : Session → Prop
  | kept : x.Quiet state → Moves state x session session
  | begun {preAuth} : x.Begins state preAuth → Moves state x session { session with preAuth := some preAuth }
  | dropped {params} : x.request = .callback params → Moves state x session { session with preAuth := none }
  | concluded {preAuth idToken auth under} : session.preAuth = some preAuth → x.Concludes state preAuth idToken auth →
      (under = some preAuth ∨ under = none) → Moves state x session ⟨some auth, under⟩
  | left : x.Leaves → Moves state x session .empty
  | chosen {auth slug} : session.auth = some auth → slug ∈ auth.authorizedSlugs → x.choice = some slug →
      Moves state x session { session with auth := some { auth with activeTenantContext := slug } }

/-- Every end of the handler is a move of the record. -/
def Moving (state : AuthRouterState) (request : Request) (session : Session) (m : Handler Response)
    (here : Session) (before : Transcript Resp) : Prop :=
  (recorder (I := Unit)).Obeys (m here) before fun calls session' response =>
    Moves state ⟨request, calls, response⟩ session session'

section

variable {state : AuthRouterState} {session : Session} {before : Transcript Resp}

theorem access_recorded {α : Type} {f : Session → α × Session} {Q : Transcript Resp → Session → Except SessionError α → Prop}
    (hok : Q (before ++ [⟨.accessRecord, .ok ()⟩]) (f session).2 (.ok (f session).1))
    (herror : ∀ e, Q (before ++ [⟨.accessRecord, .error e⟩]) session (.error e)) :
    (recorder (I := Unit)).Obeys (access f session) before Q := by
  refine ⟨trivial, fun r _ => ?_⟩
  cases r with
  | error e => exact herror e
  | ok => exact hok

theorem login_moves (params : LoginParams) : Moving state (.login params) session (login state params) session [] := by
  refine ⟨trivial, fun request _ => ?_⟩
  refine obeys_seq.mpr (access_recorded ?_ fun e => ?_)
  · exact .begun ⟨params, _, request, rfl, rfl, rfl, rfl⟩
  · refine .kept ⟨?_, ?_, rfl⟩
    · rintro preAuth ⟨_, _, _, -, hcalls, -⟩
      cases hcalls
    · rintro ⟨hrequest, -⟩
      cases hrequest

theorem logout_moves : Moving state .logout session logout session [] := by
  refine obeys_seq.mpr (access_recorded ?_ fun e => ?_)
  · exact ⟨trivial, fun r _ => .left ⟨rfl, rfl⟩⟩
  · refine .kept ⟨?_, ?_, rfl⟩
    · rintro preAuth ⟨_, _, _, hrequest, -⟩
      cases hrequest
    · rintro ⟨-, hresponse⟩
      cases hresponse

theorem me_moves : Moving state .me session me session [] := by
  have hquiet (calls : Transcript Resp) (response : Response) : Served.Quiet state ⟨.me, calls, response⟩ := by
    refine ⟨?_, ?_, rfl⟩
    · rintro preAuth ⟨_, _, _, hrequest, -⟩
      cases hrequest
    · rintro ⟨hrequest, -⟩
      cases hrequest
  refine obeys_seq.mpr (access_recorded ?_ fun e => .kept (hquiet _ _))
  cases hauth : session.auth with
  | none => exact .kept (hquiet _ _)
  | some auth => exact .kept (hquiet _ _)

theorem activeTenant_moves (slug : String) : Moving state (.activeTenant slug) session (activeTenant slug) session [] := by
  have hquiet {calls : Transcript Resp} {code : Nat} (hcode : code ≠ 204) :
      Served.Quiet state ⟨.activeTenant slug, calls, .status code⟩ := by
    refine ⟨?_, ?_, ?_⟩
    · rintro preAuth ⟨_, _, _, hrequest, -⟩
      cases hrequest
    · rintro ⟨hrequest, -⟩
      cases hrequest
    · rw [Served.choice]
      split
      · rename_i hstatus
        cases hstatus
        exact absurd rfl hcode
      · rfl
  refine obeys_seq.mpr (access_recorded ?_ fun e => .kept (hquiet (by decide)))
  cases hauth : session.auth with
  | none => exact .kept (hquiet (by decide))
  | some auth =>
      dsimp only
      split
      · exact .kept (hquiet (by decide))
      · rename_i hslug
        refine obeys_seq.mpr (access_recorded ?_ fun e => .kept (hquiet (by decide)))
        exact .chosen hauth (not_not.mp hslug) rfl

theorem verifyIdentity_recorded (code : String) (preAuth : PreAuthState) :
    (recorder (I := Unit)).Obeys (verifyIdentity code preAuth session) before fun calls session' result =>
      session' = session ∧ ∀ idToken claims, result = .ok (idToken, claims) →
        ⟨.requestToken code preAuth.pkceVerifier, .ok (some idToken)⟩ ∈ calls ∧
          ⟨.verifyIdToken idToken preAuth.nonce, .ok claims⟩ ∈ calls := by
  have hrefused (calls : Transcript Resp) (response : Response) : ∀ idToken claims,
      (.error response : Except Response (String × IdTokenClaims)) = .ok (idToken, claims) →
        ⟨.requestToken code preAuth.pkceVerifier, .ok (some idToken)⟩ ∈ calls ∧
          ⟨.verifyIdToken idToken preAuth.nonce, .ok claims⟩ ∈ calls := by
    intro _ _ h
    cases h
  refine ⟨trivial, fun exchanged _ => ?_⟩
  cases exchanged with
  | error => exact ⟨rfl, hrefused _ _⟩
  | ok =>
      refine ⟨trivial, fun response _ => ?_⟩
      match response with
      | .error _ => exact ⟨rfl, hrefused _ _⟩
      | .ok none => exact ⟨rfl, hrefused _ _⟩
      | .ok (some token) =>
          refine ⟨trivial, fun verified _ => ?_⟩
          cases verified with
          | error => exact ⟨rfl, hrefused _ _⟩
          | ok claims =>
              refine ⟨rfl, fun _ _ h => ?_⟩
              cases h
              simp [recording]

theorem establishSession_moves {preAuth : PreAuthState} {code idToken : String} {claims : IdTokenClaims}
    (hpre : session.preAuth = some preAuth)
    (hexchanged : ⟨.requestToken code preAuth.pkceVerifier, .ok (some idToken)⟩ ∈ before)
    (hverified : ⟨.verifyIdToken idToken preAuth.nonce, .ok claims⟩ ∈ before) :
    Moving state (.callback ⟨some code, some preAuth.csrf, none⟩) session
      (establishSession state preAuth idToken claims) session before := by
  rw [Moving, establishSession]
  cases hslugs : resolveAuthorizedSlugs (extractOidcExtras state.decodePayload idToken) state.tenants with
  | nil => exact obeys_seq.mpr (access_recorded (.dropped rfl) fun e => .kept (Served.quiet_callback rfl))
  | cons slug slugs =>
      refine obeys_seq.mpr (access_recorded ?_ fun e => .kept (Served.quiet_callback rfl))
      have hconcludes (calls : Transcript Resp) (response : Response) (hbefore : ∀ call ∈ before, call ∈ calls) :
          Served.Concludes state ⟨.callback ⟨some code, some preAuth.csrf, none⟩, calls, response⟩ preAuth idToken
            ⟨claims.subject, claims.email, claims.name, slug :: slugs, slug⟩ :=
        ⟨⟨code, rfl, hbefore _ hexchanged⟩, hbefore _ hverified, hslugs.symm, rfl⟩
      refine obeys_seq.mpr (access_recorded ?_ fun e => ?_)
      · exact .concluded hpre (hconcludes _ _ (by simp +contextual)) (.inr rfl)
      · exact .concluded hpre (hconcludes _ _ (by simp +contextual)) (.inl hpre)

theorem callback_moves (params : CallbackParams) :
    Moving state (.callback params) session (callback state params) session [] := by
  have hkept (calls : Transcript Resp) (response : Response) :
      Moves state ⟨.callback params, calls, response⟩ session session := .kept (Served.quiet_callback rfl)
  obtain ⟨code, stateParam, error⟩ := params
  rw [Moving, callback]
  split
  · exact hkept _ _
  · rename_i herror
    match code, stateParam with
    | none, _ => exact hkept _ _
    | some _, none => exact hkept _ _
    | some code, some stateParam =>
        refine obeys_seq.mpr (access_recorded ?_ fun e => hkept _ _)
        cases hpre : session.preAuth with
        | none => exact hkept _ _
        | some preAuth =>
            dsimp only
            split
            · exact hkept _ _
            · rename_i hcsrf
              refine (verifyIdentity_recorded code preAuth).seq ?_
              rintro calls session' result ⟨rfl, hresult⟩
              match result with
              | .error response => exact hkept _ _
              | .ok (idToken, claims) =>
                  obtain ⟨hexchanged, hverified⟩ := hresult idToken claims rfl
                  obtain rfl := not_not.mp hcsrf
                  obtain rfl : error = none := Option.not_isSome_iff_eq_none.mp herror
                  exact establishSession_moves hpre hexchanged hverified

/-- Every request that is served moves the record in one of the ways there are. -/
theorem serve_moves {request : Request} {calls : Transcript Resp} {session' : Session} {response : Response}
    (h : (serve state request session).Yields calls session' response) :
    Moves state ⟨request, calls, response⟩ session session' := by
  have hmoving : Moving state request session (serve state request) session [] := by
    cases request with
    | login params => exact login_moves params
    | callback params => exact callback_moves params
    | logout => exact logout_moves
    | me => exact me_moves
    | activeTenant slug => exact activeTenant_moves slug
  exact hmoving.yields h

end

/-! ## What a record grants -/

/-- The last login that the session has begun, and not left since. -/
def Begun (state : AuthRouterState) (past : List Served) (preAuth : PreAuthState) : Prop :=
  ∃ before x since, past = before ++ x :: since ∧ x.Begins state preAuth ∧
    ∀ y ∈ since, ¬y.Leaves ∧ ∀ other, ¬y.Begins state other

/-- The login that the session was begun with has brought in the user and the tenants, and the session was not left
since; the active tenant is the last one chosen. -/
structure Entered (state : AuthRouterState) (past : List Served) (preAuth : PreAuthState) (idToken : String)
    (auth : AuthSession) : Prop where
  concluded : ∃ before y since opened, past = before ++ y :: since ∧ Begun state before preAuth ∧
    y.Concludes state preAuth idToken opened ∧ (∀ z ∈ since, ¬z.Leaves) ∧
    auth = { opened with
      activeTenantContext := (since.filterMap Served.choice).getLastD opened.activeTenantContext }
  active : auth.activeTenantContext ∈ auth.authorizedSlugs

variable {state : AuthRouterState} {past : List Served} {x : Served}

theorem Begun.snoc {preAuth : PreAuthState} (h : Begun state past preAuth) (hleaves : ¬x.Leaves)
    (hbegins : ∀ other, ¬x.Begins state other) : Begun state (past ++ [x]) preAuth := by
  obtain ⟨before, y, since, rfl, hy, hsince⟩ := h
  refine ⟨before, y, since ++ [x], by simp, hy, ?_⟩
  intro z hz
  rcases List.mem_append.mp hz with hz | hz
  · exact hsince z hz
  · obtain rfl := List.mem_singleton.mp hz
    exact ⟨hleaves, hbegins⟩

/-- The tenant that is active after a request. -/
theorem getLastD_choice (since : List Served) (active : String) :
    ((since ++ [x]).filterMap Served.choice).getLastD active =
      x.choice.getD ((since.filterMap Served.choice).getLastD active) := by
  rw [List.filterMap_append]
  cases hchoice : x.choice with
  | none => simp [hchoice]
  | some slug => simp [hchoice]

theorem Entered.snoc {preAuth : PreAuthState} {idToken : String} {auth : AuthSession}
    (h : Entered state past preAuth idToken auth) (hleaves : ¬x.Leaves)
    (hactive : ∀ slug ∈ x.choice, slug ∈ auth.authorizedSlugs) :
    Entered state (past ++ [x]) preAuth idToken
      { auth with activeTenantContext := x.choice.getD auth.activeTenantContext } := by
  obtain ⟨⟨before, y, since, opened, rfl, hbegun, hy, hsince, rfl⟩, hmem⟩ := h
  constructor
  · refine ⟨before, y, since ++ [x], opened, by simp, hbegun, hy, ?_, ?_⟩
    · intro z hz
      rcases List.mem_append.mp hz with hz | hz
      · exact hsince z hz
      · obtain rfl := List.mem_singleton.mp hz
        exact hleaves
    · rw [getLastD_choice]
  · cases hchoice : x.choice with
    | none => exact hmem
    | some slug => exact hactive slug hchoice

/-- What a record holds comes from the requests behind it. -/
structure Rightful (state : AuthRouterState) (past : List Served) (session : Session) : Prop where
  preAuth : ∀ preAuth, session.preAuth = some preAuth → Begun state past preAuth
  auth : ∀ auth, session.auth = some auth → ∃ preAuth idToken, Entered state past preAuth idToken auth

theorem rightful_empty : Rightful state past .empty where
  preAuth _ h := by cases h
  auth _ h := by cases h

theorem Rightful.moves {session session' : Session} (h : Rightful state past session) (hx : Moves state x session session') :
    Rightful state (past ++ [x]) session' := by
  have hauth (hleaves : ¬x.Leaves) (hchoice : x.choice = none) (auth : AuthSession) (hauth : session.auth = some auth) :
      ∃ preAuth idToken, Entered state (past ++ [x]) preAuth idToken auth := by
    obtain ⟨preAuth, idToken, hentered⟩ := h.auth auth hauth
    have hsnoc := hentered.snoc hleaves (by simp [hchoice])
    rw [hchoice] at hsnoc
    exact ⟨preAuth, idToken, hsnoc⟩
  cases hx with
  | kept hquiet =>
      exact ⟨fun preAuth hpre => (h.preAuth preAuth hpre).snoc hquiet.leaves hquiet.begins,
        hauth hquiet.leaves hquiet.choice⟩
  | begun hbegins =>
      refine ⟨fun preAuth hpre => ?_, hauth hbegins.stays hbegins.choice⟩
      cases hpre
      exact ⟨past, x, [], rfl, hbegins, fun y hy => by cases hy⟩
  | dropped hcallback =>
      have hquiet : x.Quiet state := Served.quiet_callback hcallback
      refine ⟨fun preAuth hpre => ?_, hauth hquiet.leaves hquiet.choice⟩
      cases hpre
  | @concluded preAuth idToken auth under hpre hconcludes hunder =>
      have hquiet : x.Quiet state := hconcludes.quiet
      constructor
      · intro other hother
        rcases hunder with rfl | rfl
        · cases hother
          exact (h.preAuth preAuth hpre).snoc hquiet.leaves hquiet.begins
        · cases hother
      · intro other hother
        cases hother
        refine ⟨preAuth, idToken, ⟨past, x, [], auth, rfl, h.preAuth preAuth hpre, hconcludes, ?_, rfl⟩, ?_⟩
        · intro z hz
          cases hz
        · exact List.mem_of_head? hconcludes.active
  | left hleaves => exact rightful_empty
  | @chosen auth slug hsession hslug hchoice =>
      obtain ⟨hleaves, hbegins⟩ := @Served.stays_of_choice state x slug hchoice
      refine ⟨fun preAuth hpre => (h.preAuth preAuth hpre).snoc hleaves hbegins, fun other hother => ?_⟩
      cases hother
      obtain ⟨preAuth, idToken, hentered⟩ := h.auth auth hsession
      have hsnoc := hentered.snoc hleaves (by simpa [hchoice] using hslug)
      rw [hchoice] at hsnoc
      exact ⟨preAuth, idToken, hsnoc⟩

theorem Lineage.rightful {session : Session} (h : Lineage state past session) : Rightful state past session := by
  induction h with
  | fresh => exact rightful_empty
  | served _ hyields ih => exact ih.moves (serve_moves hyields)

/-- What an authenticated session may do: it was begun by a login and concluded with a token that was verified for
that login, it was not left since, and a tenant's runs are open to it exactly if a group of the token grants the
tenant. -/
theorem session_entered {document : TenancyDocument} {registry : TenancyRegistry}
    (hdocument : TenancyRegistry.fromDocument document = .ok registry) (htenants : state.tenants = registry.tenants)
    {session : Session} {auth : AuthSession} (h : Lineage state past session) (hauth : session.auth = some auth) :
    ∃ preAuth idToken, Entered state past preAuth idToken auth ∧
      ∀ slug, authorizedTenant (.ok session.auth) slug = .ok auth ↔
        ∃ group ∈ (extractOidcExtras state.decodePayload idToken).groups,
          Grants document (extractOidcExtras state.decodePayload idToken) group slug := by
  obtain ⟨preAuth, idToken, hentered⟩ := h.rightful.auth auth hauth
  refine ⟨preAuth, idToken, hentered, fun slug => ?_⟩
  have hslugs : auth.authorizedSlugs =
      resolveAuthorizedSlugs (extractOidcExtras state.decodePayload idToken) registry.tenants := by
    obtain ⟨_, _, _, opened, -, -, hconcludes, -, rfl⟩ := hentered.concluded
    rw [← htenants]
    exact hconcludes.slugs
  have hauthorizes := resolveAuthorizedSlugs_authorizes (TenancyRegistry.finds_of_ok hdocument)
    (extractOidcExtras state.decodePayload idToken)
  rw [← hauthorizes.mem, ← hslugs, hauth, authorizedTenant]
  simp

/-- The token of a member of the team. -/
def teamToken : String := "eyJhbGciOiJSUzI1NiJ9." ++ teamPayloadB64 ++ ".c2lnbmF0dXJl"

theorem extractOidcExtras_teamToken (registry : TenancyRegistry) :
    extractOidcExtras (backend registry).decodePayload teamToken = ⟨["acme:eng"], some "github"⟩ := by
  have hsplit : splitText teamToken '.' = ["eyJhbGciOiJSUzI1NiJ9", teamPayloadB64, "c2lnbmF0dXJl"] := by
    decide +kernel
  have hdecode : (backend registry).decodePayload teamPayloadB64 = some teamPayload := by simp [backend]
  rw [extractOidcExtras, hsplit]
  simp only [hdecode]
  rfl

/-- A user who is authorized for a tenant can have a record that says so. -/
theorem recorded_of_authorized {idToken slug : String} {slugs : List String}
    (hslugs : resolveAuthorizedSlugs (extractOidcExtras state.decodePayload idToken) state.tenants = slug :: slugs) :
    Recorded state ⟨some ⟨"user", none, none, slug :: slugs, slug⟩, none⟩ := by
  let preAuth : PreAuthState := ⟨"csrf", "verifier", "nonce", none⟩
  have hlogin : (serve state (.login ⟨none⟩) .empty).Ends (fun _ _ _ => True) ⟨none, some preAuth⟩
      (redirectTo state "https://dex/auth") :=
    ⟨⟨"https://dex/auth", "csrf", "nonce", "verifier"⟩, trivial, .ok (), trivial, rfl, rfl⟩
  have hcallback : (serve state (.callback ⟨some "code", some "csrf", none⟩) ⟨none, some preAuth⟩).Ends
      (fun _ _ _ => True) ⟨some ⟨"user", none, none, slug :: slugs, slug⟩, none⟩
      (redirectTo state state.postLoginRedirect) := by
    refine ⟨.ok (), trivial, .ok (), trivial, .ok (some idToken), trivial, .ok ⟨"user", none, none⟩, trivial, ?_⟩
    change (establishSession state preAuth idToken ⟨"user", none, none⟩ ⟨none, some preAuth⟩).Ends _ _ _
    rw [establishSession, hslugs]
    exact ⟨.ok (), trivial, .ok (), trivial, rfl, rfl⟩
  exact .served (.served .fresh hlogin) hcallback

theorem session_entered_team :
    ∃ registry past session auth, TenancyRegistry.fromDocument (sampleDocument [acmeCorp]) = .ok registry ∧
      Lineage (backend registry) past session ∧ session.auth = some auth ∧
      (∃ preAuth idToken, Entered (backend registry) past preAuth idToken auth) ∧
      authorizedTenant (.ok session.auth) "acme-corp" = .ok auth := by
  obtain ⟨registry, h⟩ : ∃ registry, TenancyRegistry.fromDocument (sampleDocument [acmeCorp]) = .ok registry :=
    ⟨_, rfl⟩
  have hslugs : resolveAuthorizedSlugs (extractOidcExtras (backend registry).decodePayload teamToken)
      (backend registry).tenants = ["acme-corp"] := by
    rw [extractOidcExtras_teamToken]
    cases h
    decide +kernel
  obtain ⟨past, hpast⟩ := recorded_iff.mp (recorded_of_authorized hslugs)
  obtain ⟨preAuth, idToken, hentered, -⟩ := session_entered h rfl hpast rfl
  exact ⟨registry, past, _, _, h, hpast, rfl, ⟨preAuth, idToken, hentered⟩, rfl⟩

end Jefferies.Auth
