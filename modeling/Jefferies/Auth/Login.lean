import Jefferies.Auth.Handlers
import Jefferies.Collections.Json
import Jefferies.Interaction.Program

/-!
# Logging in

The handlers of the auth router work on the record of a session. `login` stores the state of a login that is under way
and sends the browser to the provider; `callback` takes that state up when the browser comes back.
-/

namespace Jefferies.Auth

open Tenancy Interaction Interact

structure AuthSession where
  userId : String
  email : Option String
  name : Option String
  authorizedSlugs : List String
  activeTenantContext : String

structure PreAuthState where
  csrf : String
  pkceVerifier : String
  nonce : String
  returnTo : Option String

/-- The record of a session. -/
structure Session where
  auth : Option AuthSession
  preAuth : Option PreAuthState

def Session.empty : Session := ⟨none, none⟩

inductive SessionError where
  | backend (message : String)

/-- What `authorize_url` makes up for a login. -/
structure AuthorizationRequest where
  url : String
  csrfToken : String
  nonce : String
  pkceVerifier : String

structure IdTokenClaims where
  subject : String
  email : Option String
  name : Option String

/-- The calls of the handlers: the provider's client, and the store that keeps the record of the session. -/
inductive Effect where
  | authorizeUrl (scopes : List String)
  | exchangeCode (code : String)
  | requestToken (code pkceVerifier : String)
  | verifyIdToken (idToken nonce : String)
  | accessRecord
  | deleteRecord

def Resp : Effect → Type
  | .authorizeUrl _ => AuthorizationRequest
  | .exchangeCode _ => Except String Unit
  | .requestToken _ _ => Except String (Option String)
  | .verifyIdToken _ _ => Except String IdTokenClaims
  | .accessRecord => Except SessionError Unit
  | .deleteRecord => Except SessionError Unit

abbrev Handler (α : Type) : Type := Interact Session Resp α

def call (e : Effect) : Handler (Resp e) := perform e

inductive Response where
  | status (code : Nat)
  | text (code : Nat) (body : String)
  | failure (code : Nat) (error : String)
  | session (auth : AuthSession)
  | redirect (location : String)

/-- The router's state, and what its libraries decide: whether a text is the value of a header, and what the payload of
a token decodes to. -/
structure AuthRouterState where
  postLoginRedirect : String
  tenants : TenantRegistry
  isHeaderValue : String → Bool
  decodePayload : String → Option Json

/-! ## The record of the session -/

def access {α : Type} (f : Session → α × Session) : Handler (Except SessionError α) := do
  match ← call .accessRecord with
  | .ok () => return .ok (← modifyGet f)
  | .error e => return .error e

def loadAuth : Handler (Except SessionError (Option AuthSession)) := access fun self => (self.auth, self)

def storeAuth (auth : AuthSession) : Handler (Except SessionError Unit) :=
  access fun self => ((), { self with auth := some auth })

def clearAuth : Handler (Except SessionError Unit) := access fun self => ((), { self with auth := none })

def loadPreAuth : Handler (Except SessionError (Option PreAuthState)) := access fun self => (self.preAuth, self)

def storePreAuth (preAuth : PreAuthState) : Handler (Except SessionError Unit) :=
  access fun self => ((), { self with preAuth := some preAuth })

def clearPreAuth : Handler (Except SessionError Unit) := access fun self => ((), { self with preAuth := none })

/-! ## The claims of a token -/

/-- `get` on a value. -/
def member (name : String) (value : Json) : Option Json := (value.field name).join

def asText : Json → Option String
  | .string s => some s
  | _ => none

def extractOidcExtras (decodePayload : String → Option Json) (jwt : String) : OidcExtras :=
  match splitText jwt '.' with
  | _ :: payloadB64 :: _ =>
      match decodePayload payloadB64 with
      | some payload => {
          groups := match member "groups" payload with
            | some (.array elements) => elements.filterMap asText
            | _ => []
          connectorId := ((member "federated_claims" payload).bind (member "connector_id")).bind asText }
      | none => ⟨[], none⟩
  | _ => ⟨[], none⟩

/-! ## The handlers -/

structure LoginParams where
  returnTo : Option String

structure CallbackParams where
  code : Option String
  state : Option String
  error : Option String

section

variable (state : AuthRouterState)

def redirectTo (location : String) : Response :=
  if state.isHeaderValue location then .redirect location else .text 500 "failed to parse header value"

def login (params : LoginParams) : Handler Response := do
  let request ← call (.authorizeUrl ["openid", "profile", "email", "groups", "federated:id"])
  let preAuth : PreAuthState := {
    csrf := request.csrfToken
    pkceVerifier := request.pkceVerifier
    nonce := request.nonce
    returnTo := params.returnTo.filter fun r => startsWith r "/" }
  match ← storePreAuth preAuth with
  | .error _ => return .status 500
  | .ok () => return redirectTo state request.url

/-- The part of `callback` from the exchange of the code to the claims of the token. -/
def verifyIdentity (code : String) (preAuth : PreAuthState) :
    Handler (Except Response (String × IdTokenClaims)) := do
  match ← call (.exchangeCode code) with
  | .error _ => return .error (.status 500)
  | .ok () => do
      match ← call (.requestToken code preAuth.pkceVerifier) with
      | .error _ => return .error (.status 401)
      | .ok none => return .error (.status 401)
      | .ok (some idToken) => do
          match ← call (.verifyIdToken idToken preAuth.nonce) with
          | .error _ => return .error (.status 401)
          | .ok claims => return .ok (idToken, claims)

/-- The part of `callback` behind the claims of the token. -/
def establishSession (preAuth : PreAuthState) (idToken : String) (claims : IdTokenClaims) : Handler Response := do
  match resolveAuthorizedSlugs (extractOidcExtras state.decodePayload idToken) state.tenants with
  | [] => do
      let _ ← clearPreAuth
      return .failure 403 "no_authorized_tenants"
  | slug :: slugs => do
      match ← storeAuth ⟨claims.subject, claims.email, claims.name, slug :: slugs, slug⟩ with
      | .error _ => return .status 500
      | .ok () => do
          let _ ← clearPreAuth
          return redirectTo state (preAuth.returnTo.getD state.postLoginRedirect)

def callback (params : CallbackParams) : Handler Response := do
  if params.error.isSome then return .text 401 "OIDC error"
  else
    match params.code, params.state with
    | some code, some stateParam => do
        match ← loadPreAuth with
        | .error _ => return .status 500
        | .ok none => return .text 400 "Missing pre-auth state"
        | .ok (some preAuth) => do
            if preAuth.csrf ≠ stateParam then return .text 401 "CSRF mismatch"
            else
              match ← verifyIdentity code preAuth with
              | .error response => return response
              | .ok (idToken, claims) => establishSession state preAuth idToken claims
    | _, _ => return .text 400 "Missing code or state"

def logout : Handler Response := do
  match ← clearAuth with
  | .error _ => return .status 500
  | .ok () => do
      let _ ← call .deleteRecord
      modify fun _ => .empty
      return .status 204

def me : Handler Response := do
  match ← loadAuth with
  | .ok (some auth) => return .session auth
  | .ok none => return .status 401
  | .error _ => return .status 500

def activeTenant (slug : String) : Handler Response := do
  match ← loadAuth with
  | .ok none => return .status 401
  | .error _ => return .status 500
  | .ok (some auth) => do
      if slug ∉ auth.authorizedSlugs then return .status 403
      else
        match ← storeAuth { auth with activeTenantContext := slug } with
        | .error _ => return .status 500
        | .ok () => return .status 204

inductive Request where
  | login (params : LoginParams)
  | callback (params : CallbackParams)
  | logout
  | me
  | activeTenant (slug : String)

def serve : Request → Handler Response
  | .login params => login state params
  | .callback params => callback state params
  | .logout => logout
  | .me => me
  | .activeTenant slug => activeTenant slug

end

/-- `AuthorizedTenant::from_request_parts`, where the path names a tenant; `auth` is what `load_auth` answers. -/
def authorizedTenant (auth : Except SessionError (Option AuthSession)) (slug : String) : Except Nat AuthSession :=
  match auth with
  | .ok (some auth) => if slug ∈ auth.authorizedSlugs then .ok auth else .error 403
  | .ok none => .error 401
  | .error _ => .error 500

end Jefferies.Auth
