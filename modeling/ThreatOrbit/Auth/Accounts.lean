import ThreatOrbit.Lib.Lists
import ThreatOrbit.Lib.Number

/-
  Accounts, workspaces and the principal of a request.

  A request authenticates with a session token or an API
  key, and acts in a workspace with the capabilities of the
  role it has there.
-/

---- Tables

namespace ThreatOrbit.Auth

open Lib

/- A row of `users`. -/
structure User where
  id : Str
  email : Str
  name : Str
  role : Str
  status : Str
  passwordHash : Str
  passwordSalt : Str
  avatarColor : Str
  mfaEnabled : Bool
  mfaSecret : Option Str
  lastLogin : Option Str
  createdAt : Str
  orgId : Option Str
  tokenEpoch : Int
deriving DecidableEq, Repr

/- A row of `sessions`. -/
structure Session where
  id : Str
  userId : Str
  lastSeen : Str
  revoked : Bool
deriving DecidableEq, Repr

/- A row of `orgs`. -/
structure Org where
  id : Str
  name : Str
  slug : Str
  plan : Str
  status : Str
deriving DecidableEq, Repr

/- A row of `user_org_roles`. -/
structure Grant where
  userId : Str
  orgId : Str
  role : Str
  grantedBy : Str
  grantedAt : Str
deriving DecidableEq, Repr

/- A row of `roles`, with the capabilities its column lists. -/
structure CustomRole where
  id : Str
  name : Str
  description : Option Str
  capabilities : List Str
deriving DecidableEq, Repr

/- A row of `api_keys`. -/
structure ApiKey where
  id : Str
  name : Str
  secretHash : Str
  scope : Str
  revoked : Bool
  orgId : Option Str
deriving DecidableEq, Repr

/- The tables of the accounts, and the setting
`session_timeout_minutes`. -/
structure Database where
  users : List User
  sessions : List Session
  orgs : List Org
  grants : List Grant
  roles : List CustomRole
  apiKeys : List ApiKey
  sessionTimeout : Option Str
deriving DecidableEq, Repr

/- `HTTPException`. -/
structure HttpError where
  status : Nat
  detail : Str
deriving DecidableEq, Repr

def Database.user? (db : Database) (id : Str) : Option User :=
  db.users.find? fun u => u.id == id

def Database.org? (db : Database) (id : Str) : Option Org :=
  db.orgs.find? fun o => o.id == id

def Database.grant?
    (db : Database)
    (userId orgId : Str) : Option Grant :=
  db.grants.find? fun g => g.userId == userId && g.orgId == orgId

def Database.role?
    (db : Database)
    (id : Str) : Option CustomRole :=
  db.roles.find? fun r => r.id == id

/- `UPDATE users SET ... WHERE id=?`. -/
def updateUsers
    (users : List User)
    (id : Str)
    (set : User → User) : List User :=
  users.map fun u => if u.id = id then set u else u

theorem mem_of_user?
    {db : Database} {id : Str} {u : User}
    (hUser : db.user? id = some u) :
    u ∈ db.users ∧ u.id = id := by
  unfold Database.user? at hUser
  have hId := List.find?_some hUser
  exact ⟨List.mem_of_find?_eq_some hUser, by simpa using hId⟩

theorem user?_updateUsers
    {db next : Database} {id : Str} {set : User → User}
    (hUsers : next.users = updateUsers db.users id set)
    (hId : ∀ u, (set u).id = u.id) (other : Str) :
    next.user? other =
      (db.user? other).map
        (fun u => if other = id then set u else u) := by
  unfold Database.user?
  rw [hUsers]
  apply find?_map_update
  intro u hU
  rw [hId, hU]

theorem mem_of_grant?
    {db : Database} {userId orgId : Str} {g : Grant}
    (hGrant : db.grant? userId orgId = some g) :
    g ∈ db.grants ∧ g.userId = userId ∧ g.orgId = orgId := by
  unfold Database.grant? at hGrant
  have hIds := List.find?_some hGrant
  refine ⟨List.mem_of_find?_eq_some hGrant, ?_⟩
  simpa using hIds

---- Capabilities

/- `CAPABILITIES`. -/
def capabilities : List Str :=
  [lit "siem.write", lit "soar.write", lit "cti.write",
    lit "darkweb.write", lit "assets.write",
    lit "connectors.manage", lit "services.run",
    lit "reports.manage", lit "config.manage",
    lit "license.manage", lit "users.manage",
    lit "users.delete", lit "break_glass.use"]

/- `ROLE_PERMISSIONS`. -/
def rolePermissions (role : Str) : Option (List Str) :=
  if role = lit "admin" then some capabilities
  else if role = lit "manager" then
    some (capabilities.filter fun c =>
      c != lit "users.delete" && c != lit "license.manage")
  else if role = lit "analyst" then
    some [lit "siem.write", lit "soar.write", lit "cti.write",
      lit "darkweb.write", lit "assets.write",
      lit "reports.manage"]
  else if role = lit "viewer" then some []
  else none

def customPerms (db : Database) (role : Str) : List Str :=
  match db.role? role with
  | none => []
  | some row => row.capabilities.filter capabilities.contains

def permsFor (db : Database) (role : Str) : List Str :=
  match rolePermissions role with
  | some perms => perms
  | none => customPerms db role

def hasPerm (db : Database) (role perm : Str) : Bool :=
  (permsFor db role).contains perm

def roleExists (db : Database) (role : Str) : Bool :=
  (rolePermissions role).isSome || (db.role? role).isSome

/- `DEFAULT_ORG_ID`. -/
def defaultOrgId : Str :=
  lit "org-default"

/- `org_id or DEFAULT_ORG_ID`. -/
def orgOr (orgId : Option Str) : Str :=
  orStr orgId defaultOrgId

def workspaceRole
    (db : Database)
    (userId orgId : Str) : Option Str :=
  match db.user? userId with
  | some u =>
      if orgOr u.orgId = orgId then some u.role
      else (db.grant? userId orgId).map Grant.role
  | none => (db.grant? userId orgId).map Grant.role

/- `_API_KEY_SCOPE_ROLE.get(scope, "viewer")`. -/
def scopeRole (scope : Str) : Str :=
  if scope = lit "admin" then lit "admin"
  else if scope = lit "write" then lit "analyst"
  else lit "viewer"

---- Principals

/- The claims of a session token that are read. -/
structure Payload where
  sub : Option Str
  typ : Option Str
  sid : Option Str
  epoch : Int
deriving DecidableEq, Repr

/- The deployment: whether workspaces are isolated, the
lifetime of a token, the verification of a token, the
digest of a key, and the time since a time stamp at the
moment of the request, in microseconds. -/
structure Deployment where
  multiTenant : Bool
  jwtTtlMinutes : Int
  decodeToken : Str → Except HttpError Payload
  sha256 : Str → Str
  microsSince : Str → Int

/- The headers of a request that authenticate it. -/
structure Credentials where
  bearer : Option Str
  xApiKey : Option Str
  xOrgId : Option Str
deriving DecidableEq, Repr

/- The principal that `current_user` returns. -/
structure Principal where
  id : Str
  email : Str
  name : Str
  role : Str
  status : Str
  orgId : Str
  isService : Bool
  actingOrg : Option Str
deriving DecidableEq, Repr

/- `_API_KEY_PREFIXES`. -/
def apiKeyPrefixes : List Str :=
  [lit "to_ak_live_", lit "to_sk_live_", lit "to_rk_live_"]

/- Whether a token is that of a key. -/
def keyShaped (token : Str) : Bool :=
  apiKeyPrefixes.any fun p => p.isPrefixOf token

/- The token that a request presents, if any. -/
def Credentials.token (c : Credentials) : Option Str :=
  match c.bearer, c.xApiKey with
  | some (t :: token), _ => some (t :: token)
  | _, some (t :: token) => some (t :: token)
  | _, _ => none

def unauthorized (detail : Str) : HttpError :=
  ⟨401, detail⟩

/- `_principal_from_api_key` of a token that is a key's. -/
def principalFromApiKey
    (d : Deployment)
    (db : Database)
    (token : Str) : Except HttpError Principal :=
  match db.apiKeys.find?
      (fun k => k.secretHash == d.sha256 token) with
  | none => .error (unauthorized (lit "Invalid API key"))
  | some key =>
      if key.revoked then
        .error (unauthorized (lit "API key revoked"))
      else
        .ok
          { id := key.id
            email := lit "apikey:" ++ key.name
            name := key.name
            role := scopeRole key.scope
            status := lit "active"
            orgId := orgOr key.orgId
            isService := true
            actingOrg := none }

def idleTimeoutMinutes
    (d : Deployment)
    (db : Database) : Int :=
  match db.sessionTimeout with
  | none | some [] => d.jwtTtlMinutes
  | some value => (readInt value).getD d.jwtTtlMinutes

/- The check of the session a token belongs to. -/
def checkSession
    (d : Deployment)
    (db : Database)
    (sid : Option Str) : Except HttpError Unit :=
  match sid with
  | none | some [] => .ok ()
  | some sid =>
      let ended := unauthorized
        (lit "Session ended; please sign in again")
      match db.sessions.find? (fun s => s.id == sid) with
      | none => .error ended
      | some s =>
          let idle := idleTimeoutMinutes d db
          if s.revoked then .error ended
          else if 0 < idle ∧
              idle * 60 * 1000000 < d.microsSince s.lastSeen then
            .error (unauthorized (lit
              "Signed out after inactivity; please sign in again"))
          else .ok ()

def orgStatus (db : Database) (orgId : Str) : Str :=
  match db.org? orgId with
  | some o => orStr (some o.status) (lit "active")
  | none => lit "active"

def isOrgActive
    (d : Deployment)
    (db : Database)
    (orgId : Str) : Bool :=
  !d.multiTenant || orgId == defaultOrgId ||
    orgStatus db orgId != lit "suspended"

/- The principal of a user before the workspace is chosen. -/
def User.principal (u : User) : Principal where
  id := u.id
  email := u.email
  name := u.name
  role := u.role
  status := u.status
  orgId := orgOr u.orgId
  isService := false
  actingOrg := none

/- The workspace a user acts in. -/
def actingPrincipal
    (d : Deployment)
    (db : Database)
    (u : User)
    (xOrgId : Option Str) : Except HttpError Principal :=
  match xOrgId with
  | none | some [] => .ok u.principal
  | some org =>
      if org = orgOr u.orgId ∨ d.multiTenant = false then
        .ok u.principal
      else
        match workspaceRole db u.id org with
        | none =>
            .error ⟨403, lit "No access to that workspace"⟩
        | some role =>
            .ok
              { u.principal with
                orgId := org
                role := role
                actingOrg := some org }

/- The part of `current_user` behind a verified token. -/
def principalFromPayload
    (d : Deployment)
    (db : Database)
    (payload : Payload)
    (xOrgId : Option Str) : Except HttpError Principal := do
  if payload.typ = some (lit "stream") then
    throw (unauthorized (lit "Not a session token"))
  let some sub := payload.sub
    | throw ⟨500, lit "Internal Server Error"⟩
  let some u := db.user? sub
    | throw (unauthorized (lit "User no longer exists"))
  if u.status = lit "disabled" then
    throw ⟨403, lit "Account disabled"⟩
  if payload.epoch < u.tokenEpoch then
    throw (unauthorized
      (lit "Session ended; please sign in again"))
  checkSession d db payload.sid
  let principal ← actingPrincipal d db u xOrgId
  if d.multiTenant && !isOrgActive d db principal.orgId then
    throw ⟨403, lit "Workspace suspended"⟩
  return principal

def currentUser
    (d : Deployment)
    (db : Database)
    (c : Credentials) : Except HttpError Principal :=
  match c.token with
  | none => .error (unauthorized (lit "Not authenticated"))
  | some token =>
      if keyShaped token then principalFromApiKey d db token
      else
        match d.decodeToken token with
        | .error e => .error e
        | .ok payload => principalFromPayload d db payload c.xOrgId

theorem bind_eq_ok
    {ε : Type*} {α β : Type} {x : Except ε α} {f : α → Except ε β}
    {b : β}
    (hBind : (x >>= f) = .ok b) :
    ∃ a, x = .ok a ∧ f a = .ok b := by
  cases x with
  | error e => cases hBind
  | ok a => exact ⟨a, rfl, hBind⟩

/- What a request with a session token has passed. -/
theorem principalFromPayload_ok
    {d : Deployment} {db : Database} {payload : Payload}
    {xOrgId : Option Str} {p : Principal}
    (hOk : principalFromPayload d db payload xOrgId = .ok p) :
    ∃ sub u, payload.sub = some sub ∧ db.user? sub = some u ∧
      u.status ≠ lit "disabled" ∧
      actingPrincipal d db u xOrgId = .ok p ∧
      (d.multiTenant = true → isOrgActive d db p.orgId = true) := by
  unfold principalFromPayload at hOk
  by_cases hStream : payload.typ = some (lit "stream")
  · rw [if_pos hStream] at hOk
    cases hOk
  rw [if_neg hStream] at hOk
  cases hSub : payload.sub with
  | none =>
      rw [hSub] at hOk
      cases hOk
  | some sub =>
      rw [hSub] at hOk
      cases hUser : db.user? sub with
      | none =>
          simp only [hUser] at hOk
          cases hOk
      | some u =>
          simp only [hUser] at hOk
          by_cases hOff : u.status = lit "disabled"
          · rw [if_pos hOff] at hOk
            cases hOk
          rw [if_neg hOff] at hOk
          by_cases hOld : payload.epoch < u.tokenEpoch
          · rw [if_pos hOld] at hOk
            cases hOk
          rw [if_neg hOld] at hOk
          rcases bind_eq_ok hOk with ⟨_, _, hRest⟩
          rcases bind_eq_ok hRest with ⟨q, hActs, hEnd⟩
          by_cases hGone :
              (d.multiTenant && !isOrgActive d db q.orgId) = true
          · rw [if_pos hGone] at hEnd
            cases hEnd
          rw [if_neg hGone] at hEnd
          cases hEnd
          refine ⟨sub, u, rfl, hUser, hOff, hActs, ?_⟩
          intro hTenancy
          simpa [hTenancy] using hGone

/- A principal comes from a key that is not revoked, or from
a session token of a user who is not disabled. -/
theorem currentUser_ok
    {d : Deployment} {db : Database} {c : Credentials}
    {p : Principal}
    (hOk : currentUser d db c = .ok p) :
    (∃ token, c.token = some token ∧ keyShaped token = true ∧
      principalFromApiKey d db token = .ok p) ∨
    ∃ token payload, c.token = some token ∧
      keyShaped token = false ∧
      d.decodeToken token = .ok payload ∧
      principalFromPayload d db payload c.xOrgId = .ok p := by
  unfold currentUser at hOk
  cases hToken : c.token with
  | none =>
      rw [hToken] at hOk
      cases hOk
  | some token =>
      rw [hToken] at hOk
      simp only at hOk
      cases hShape : keyShaped token with
      | true =>
          rw [hShape, if_pos rfl] at hOk
          exact Or.inl ⟨token, rfl, hShape, hOk⟩
      | false =>
          rw [hShape, if_neg Bool.false_ne_true] at hOk
          cases hDecode : d.decodeToken token with
          | error e =>
              rw [hDecode] at hOk
              cases hOk
          | ok payload =>
              rw [hDecode] at hOk
              exact Or.inr
                ⟨token, payload, rfl, hShape, hDecode, hOk⟩

/- A user acts at home, or in a workspace with a role there. -/
theorem actingPrincipal_ok
    {d : Deployment} {db : Database} {u : User}
    {xOrgId : Option Str} {p : Principal}
    (hOk : actingPrincipal d db u xOrgId = .ok p) :
    p.id = u.id ∧ p.isService = false ∧
      ((p.orgId = orgOr u.orgId ∧ p.role = u.role) ∨
        p.orgId ≠ orgOr u.orgId ∧
          workspaceRole db u.id p.orgId = some p.role) := by
  unfold actingPrincipal at hOk
  split at hOk
  · cases hOk
    exact ⟨rfl, rfl, Or.inl ⟨rfl, rfl⟩⟩
  · cases hOk
    exact ⟨rfl, rfl, Or.inl ⟨rfl, rfl⟩⟩
  · rename_i org hOrg
    split at hOk
    · cases hOk
      exact ⟨rfl, rfl, Or.inl ⟨rfl, rfl⟩⟩
    · rename_i hAway
      rw [not_or] at hAway
      split at hOk
      · cases hOk
      · rename_i role hRole
        cases hOk
        exact ⟨rfl, rfl, Or.inr ⟨hAway.1, hRole⟩⟩

end ThreatOrbit.Auth
