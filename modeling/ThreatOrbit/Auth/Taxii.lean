import ThreatOrbit.Auth.Accounts
import ThreatOrbit.Intel.Stix

/-
  The TAXII server's own authentication, next to that of the
  API.

  The server verifies a token's signature or looks a key up,
  and takes a pushed envelope from whoever passes.
-/

---- Permissions Of A Request

namespace ThreatOrbit.Auth

open Lib

/- `break_glass.is_active`, given the users with a session
that is neither deactivated nor expired. -/
def isActive (glass : List Str) (userId : Str) : Bool :=
  !userId.isEmpty && glass.contains userId

def requirePerm
    (d : Deployment)
    (db : Database)
    (glass : List Str)
    (perms : List Str)
    (c : Credentials) : Except HttpError Principal := do
  let user ← currentUser d db c
  if perms.any (hasPerm db user.role) then
    return user
  if isActive glass user.id then
    return user
  throw ⟨403, lit "Requires permission: " ++
    joinWith (lit " or ") perms⟩

/- `cti.write`. -/
def ctiWrite : Str :=
  lit "cti.write"

---- The TAXII Server

open Lib Intel

inductive TaxiiPrincipal where
| user (id email : Option Str)
| apiKey (id scope : Str)
deriving DecidableEq, Repr

/- `taxii_principal` of a bearer token, given the email claim
of a token. -/
def taxiiPrincipal
    (d : Deployment)
    (emailClaim : Str → Option Str)
    (db : Database)
    (bearer : Option Str) : Except HttpError TaxiiPrincipal :=
  match bearer with
  | none | some [] =>
      .error (unauthorized (lit "Not authenticated"))
  | some token =>
      match d.decodeToken token with
      | .ok payload =>
          .ok (.user payload.sub (emailClaim token))
      | .error _ =>
          match db.apiKeys.find? (fun k =>
              k.secretHash == d.sha256 token && !k.revoked) with
          | some key => .ok (.apiKey key.id key.scope)
          | none =>
              .error (unauthorized (lit "Invalid credentials"))

/- The columns of a stored indicator that a push writes. -/
structure StoredIoc where
  type : Str
  value : Str
  threatType : Str
  confidence : Int
  severity : Str
  source : Str
  firstSeen : Str
  lastSeen : Str
  tags : List Str
deriving DecidableEq, Repr

/- A push under way: the store and the status of each object
so far. -/
structure Push where
  store : List StoredIoc
  success : Nat
  failure : Nat
deriving DecidableEq, Repr

/- `_INSERT_IOC` of a pushed indicator, or `UPDATE iocs SET
last_seen` where its value is stored. -/
def storeIoc
    (now : Str)
    (ioc : ImportedIoc)
    (store : List StoredIoc) : List StoredIoc :=
  if store.any (fun r => r.value == ioc.value) then
    store.map fun r =>
      if r.value = ioc.value then { r with lastSeen := now }
      else r
  else
    store ++
      [{ type := ioc.type
         value := ioc.value
         threatType := ioc.threatType
         confidence := ioc.confidence
         severity := ioc.severity
         source := lit "TAXII push"
         firstSeen := now
         lastSeen := now
         tags := ioc.tags ++ [lit "taxii"] }]

def pushObject [Unicode]
    (now : Str)
    (importable : List ImportedIoc)
    (push : Push)
    (obj : StixObject) : Push :=
  match obj with
  | .vulnerability _ =>
      { push with failure := push.failure + 1 }
  | .indicator o =>
      match (parseIndicatorPattern o.pattern).bind fun parsed =>
          importable.reverse.find? fun i =>
            i.value == parsed.2 with
      | none => { push with failure := push.failure + 1 }
      | some ioc =>
          { push with
            store := storeIoc now ioc push.store
            success := push.success + 1 }

/- The collections that are served, and whether they can be
written. -/
def taxiiCollections : List (Str × Bool) :=
  [(lit "indicators", true), (lit "threat-actors", false)]

def addObjects [Unicode]
    (collectionId : Str)
    (objects : List StixObject)
    (now : Str)
    (store : List StoredIoc) : Except HttpError Push :=
  match lookup collectionId taxiiCollections with
  | none => .error ⟨404, lit "Collection not found"⟩
  | some false => .error ⟨403, lit "Collection is read-only"⟩
  | some true =>
      if objects = [] then
        .error ⟨422, lit
          "envelope must contain a non-empty 'objects' list"⟩
      else
        .ok (objects.foldl
          (pushObject now (objectsToIocs objects))
          ⟨store, 0, 0⟩)

---- Who Passes Both

section

/- The headers of a request with a bearer token only. -/
def bearerOnly (token : Str) : Credentials :=
  ⟨some token, none, none⟩

/- What TAXII accepts the API accepts as well, and what writes
through TAXII may write indicators. -/
structure NoWider [Unicode]
    (d : Deployment)
    (emailClaim : Str → Option Str)
    (db : Database)
    (glass : List Str)
    (token : Str) : Prop where
  accepted :
    ∀ p, taxiiPrincipal d emailClaim db (some token) = .ok p →
      ∃ q, currentUser d db (bearerOnly token) = .ok q
  written :
    ∀ p collectionId objects now store push,
      taxiiPrincipal d emailClaim db (some token) = .ok p →
      addObjects collectionId objects now store = .ok push →
      0 < push.success →
      ∃ q,
        requirePerm d db glass [ctiWrite] (bearerOnly token) =
          .ok q

/- The token of an active user's live session. -/
def LiveSession
    (d : Deployment)
    (db : Database)
    (payload : Payload)
    (u : User) : Prop :=
  payload.typ ≠ some (lit "stream") ∧
    (∃ sub, payload.sub = some sub ∧ db.user? sub = some u) ∧
    u.status ≠ lit "disabled" ∧
    u.tokenEpoch ≤ payload.epoch ∧
    checkSession d db payload.sid = .ok () ∧
    isOrgActive d db (orgOr u.orgId) = true

/- A signed token that may write indicators. -/
def TokenEntitled
    (d : Deployment)
    (db : Database)
    (glass : List Str)
    (payload : Payload) : Prop :=
  ∃ u, LiveSession d db payload u ∧
    (hasPerm db u.role ctiWrite = true ∨
      isActive glass u.id = true)

/- A key that may write indicators. -/
def KeyEntitled
    (d : Deployment)
    (db : Database)
    (glass : List Str)
    (token : Str) : Prop :=
  ∃ key,
    db.apiKeys.find? (fun k =>
        k.secretHash == d.sha256 token) = some key ∧
      key.revoked = false ∧
      (key.scope = lit "admin" ∨ key.scope = lit "write" ∨
        isActive glass key.id = true)

/- A signed token, or the secret of a key that is not
revoked. -/
def Recognised
    (d : Deployment)
    (db : Database)
    (token : Str) : Prop :=
  token ≠ [] ∧
    ((∃ payload, d.decodeToken token = .ok payload) ∨
      ∃ key ∈ db.apiKeys,
        key.secretHash = d.sha256 token ∧ key.revoked = false)

/- It has the prefix of a key and is one that may write, or it
is a token that may. -/
def Entitled
    (d : Deployment)
    (db : Database)
    (glass : List Str)
    (token : Str) : Prop :=
  (keyShaped token = true ∧ KeyEntitled d db glass token) ∨
    (keyShaped token = false ∧
      ∃ payload, d.decodeToken token = .ok payload ∧
        TokenEntitled d db glass payload)

/- The principal of a token that acts at home. -/
theorem principalFromPayload_home_iff
    {d : Deployment} {db : Database} {payload : Payload}
    {p : Principal} :
    principalFromPayload d db payload none = .ok p ↔
      ∃ u, LiveSession d db payload u ∧ p = u.principal := by
  unfold principalFromPayload LiveSession
  by_cases hStream : payload.typ = some (lit "stream")
  · rw [if_pos hStream]
    constructor
    · intro hOk
      cases hOk
    · rintro ⟨u, ⟨hOther, _⟩, _⟩
      exact absurd hStream hOther
  rw [if_neg hStream]
  cases hSub : payload.sub with
  | none =>
      constructor
      · intro hOk
        cases hOk
      · rintro ⟨u, ⟨_, ⟨sub, hSome, _⟩, _⟩, _⟩
        cases hSome
  | some sub =>
      cases hUser : db.user? sub with
      | none =>
          simp only [hUser]
          constructor
          · intro hOk
            cases hOk
          · rintro ⟨u, ⟨_, ⟨sub', hSame, hFound⟩, _⟩, _⟩
            cases hSame
            rw [hUser] at hFound
            cases hFound
      | some u =>
          simp only [hUser]
          have hOnly :
              (∃ v, (payload.typ ≠ some (lit "stream") ∧
                (∃ sub', some sub = some sub' ∧
                  db.user? sub' = some v) ∧
                v.status ≠ lit "disabled" ∧
                v.tokenEpoch ≤ payload.epoch ∧
                checkSession d db payload.sid = .ok () ∧
                isOrgActive d db (orgOr v.orgId) = true) ∧
                p = v.principal) ↔
              u.status ≠ lit "disabled" ∧
                u.tokenEpoch ≤ payload.epoch ∧
                checkSession d db payload.sid = .ok () ∧
                isOrgActive d db (orgOr u.orgId) = true ∧
                p = u.principal := by
            constructor
            · rintro ⟨v, ⟨_, ⟨sub', hSame, hFound⟩, hOn, hNew,
                hSession, hOrg⟩, hIs⟩
              cases hSame
              rw [hUser] at hFound
              cases hFound
              exact ⟨hOn, hNew, hSession, hOrg, hIs⟩
            · rintro ⟨hOn, hNew, hSession, hOrg, hIs⟩
              exact ⟨u, ⟨hStream, ⟨sub, rfl, hUser⟩, hOn, hNew,
                hSession, hOrg⟩, hIs⟩
          rw [hOnly]
          by_cases hOff : u.status = lit "disabled"
          · rw [if_pos hOff]
            constructor
            · intro hOk
              cases hOk
            · rintro ⟨hOn, _⟩
              exact absurd hOff hOn
          rw [if_neg hOff]
          by_cases hOld : payload.epoch < u.tokenEpoch
          · rw [if_pos hOld]
            constructor
            · intro hOk
              cases hOk
            · rintro ⟨_, hNew, _⟩
              omega
          rw [if_neg hOld]
          cases hSession : checkSession d db payload.sid with
          | error e =>
              constructor
              · intro hOk
                cases hOk
              · rintro ⟨_, _, hLive, _⟩
                cases hLive
          | ok _ =>
              have hHome :
                  actingPrincipal d db u none =
                    .ok u.principal := rfl
              have hOrgs : u.principal.orgId = orgOr u.orgId := rfl
              simp only [bind, Except.bind, hHome, hOrgs]
              by_cases hOrg : isOrgActive d db (orgOr u.orgId) = true
              · simp [hOrg, hOff, not_lt.mp hOld, pure,
                  Except.pure, eq_comm]
              · have hTenant : d.multiTenant = true := by
                  by_contra hAlone
                  rw [Bool.not_eq_true] at hAlone
                  exact hOrg (by simp [isOrgActive, hAlone])
                rw [Bool.not_eq_true] at hOrg
                simp [hOrg, hTenant, throw, throwThe,
                  MonadExceptOf.throw]

/- What a recognised credential is let in by. -/
theorem taxiiPrincipal_ok_iff
    {d : Deployment} {emailClaim : Str → Option Str} {db : Database}
    {token : Str} :
    (∃ p, taxiiPrincipal d emailClaim db (some token) = .ok p) ↔
      Recognised d db token := by
  unfold Recognised
  cases token with
  | nil =>
      constructor
      · rintro ⟨p, hOk⟩
        cases hOk
      · rintro ⟨hSome, _⟩
        exact absurd rfl hSome
  | cons c rest =>
      unfold taxiiPrincipal
      cases hDecode : d.decodeToken (c :: rest) with
      | ok payload =>
          simp [hDecode]
      | error e =>
          cases hKey : db.apiKeys.find? (fun k =>
              k.secretHash == d.sha256 (c :: rest) &&
                !k.revoked) with
          | some key =>
              have hMem := List.mem_of_find?_eq_some hKey
              have hHolds := List.find?_some hKey
              simp only [Bool.and_eq_true, beq_iff_eq,
                Bool.not_eq_true'] at hHolds
              simp only [hDecode, hKey]
              constructor
              · intro _
                exact ⟨List.cons_ne_nil _ _,
                  Or.inr ⟨key, hMem, hHolds⟩⟩
              · intro _
                exact ⟨_, rfl⟩
          | none =>
              rw [List.find?_eq_none] at hKey
              simp only [hDecode]
              constructor
              · rintro ⟨p, hOk⟩
                split at hOk
                · rename_i key hFound
                  have hMem := List.mem_of_find?_eq_some hFound
                  exact absurd (List.find?_some hFound)
                    (hKey key hMem)
                · cases hOk
              · rintro ⟨_, ⟨payload, hNone⟩ | ⟨key, hMem, hHash,
                  hLive⟩⟩
                · cases hNone
                · refine absurd ?_ (hKey key hMem)
                  simp [hHash, hLive]

/- A role that a scope of a key maps onto may write indicators
where the scope is that of writing. -/
theorem hasPerm_scopeRole
    (db : Database) (scope : Str) :
    hasPerm db (scopeRole scope) ctiWrite = true ↔
      scope = lit "admin" ∨ scope = lit "write" := by
  unfold hasPerm permsFor scopeRole
  by_cases hAdmin : scope = lit "admin"
  · rw [if_pos hAdmin]
    simp only [hAdmin, true_or, iff_true]
    rfl
  · rw [if_neg hAdmin]
    by_cases hWrite : scope = lit "write"
    · rw [if_pos hWrite]
      simp only [hWrite, or_true, iff_true]
      rfl
    · rw [if_neg hWrite]
      have hViewer : rolePermissions (lit "viewer") = some [] :=
        rfl
      simp [hAdmin, hWrite, hViewer]

theorem requirePerm_ok_iff
    {d : Deployment} {db : Database} {glass : List Str} {perm : Str}
    {c : Credentials} :
    (∃ q, requirePerm d db glass [perm] c = .ok q) ↔
      ∃ user, currentUser d db c = .ok user ∧
        (hasPerm db user.role perm = true ∨
          isActive glass user.id = true) := by
  unfold requirePerm
  cases hUser : currentUser d db c with
  | error e =>
      constructor
      · rintro ⟨q, hOk⟩
        cases hOk
      · rintro ⟨user, hOk, _⟩
        cases hOk
  | ok user =>
      have hOnly :
          (∃ v, (Except.ok user : Except HttpError Principal) =
              .ok v ∧
            (hasPerm db v.role perm = true ∨
              isActive glass v.id = true)) ↔
          hasPerm db user.role perm = true ∨
            isActive glass user.id = true := by
        constructor
        · rintro ⟨v, hSame, hMay⟩
          cases hSame
          exact hMay
        · intro hMay
          exact ⟨user, rfl, hMay⟩
      rw [hOnly]
      simp only [bind, Except.bind, List.any_cons, List.any_nil,
        Bool.or_false]
      by_cases hMay : hasPerm db user.role perm = true
      · simp [hMay, pure, Except.pure]
      · by_cases hGlass : isActive glass user.id = true
        · simp [hMay, hGlass, pure, Except.pure]
        · simp [hMay, hGlass, throw, throwThe,
            MonadExceptOf.throw]

/- A bearer token writes through the API exactly if it is
entitled to. -/
theorem requirePerm_bearer_iff
    {d : Deployment} {db : Database} {glass : List Str}
    {token : Str}
    (hSome : token ≠ []) :
    (∃ q, requirePerm d db glass [ctiWrite]
        (bearerOnly token) = .ok q) ↔
      Entitled d db glass token := by
  rw [requirePerm_ok_iff]
  have hToken : (bearerOnly token).token = some token := by
    cases token with
    | nil => exact absurd rfl hSome
    | cons c rest => rfl
  unfold Entitled currentUser
  rw [hToken]
  dsimp only
  cases hShape : keyShaped token with
  | true =>
      simp only [if_true, true_and, false_and, or_false,
        Bool.true_eq_false]
      unfold KeyEntitled principalFromApiKey
      cases hKey : db.apiKeys.find? (fun k =>
          k.secretHash == d.sha256 token) with
      | none =>
          simp
      | some key =>
          cases hRevoked : key.revoked with
          | true =>
              simp [hRevoked]
          | false =>
              have hScope := hasPerm_scopeRole db key.scope
              simp [hRevoked, hScope, or_assoc]
  | false =>
      simp only [Bool.false_eq_true, if_false, false_and,
        true_and, false_or]
      unfold TokenEntitled
      cases hDecode : d.decodeToken token with
      | error e =>
          simp
      | ok payload =>
          have hOnly :
              (∃ payload', (Except.ok payload :
                  Except HttpError Payload) = .ok payload' ∧
                ∃ u, LiveSession d db payload' u ∧
                  (hasPerm db u.role ctiWrite = true ∨
                    isActive glass u.id = true)) ↔
              ∃ u, LiveSession d db payload u ∧
                (hasPerm db u.role ctiWrite = true ∨
                  isActive glass u.id = true) := by
            constructor
            · rintro ⟨payload', hSame, hLive⟩
              cases hSame
              exact hLive
            · intro hLive
              exact ⟨payload, rfl, hLive⟩
          rw [hOnly]
          dsimp only [bearerOnly]
          constructor
          · rintro ⟨p, hOk, hMay⟩
            rcases principalFromPayload_home_iff.mp hOk with
              ⟨u, hLive, rfl⟩
            exact ⟨u, hLive, hMay⟩
          · rintro ⟨u, hLive, hMay⟩
            exact ⟨u.principal,
              principalFromPayload_home_iff.mpr
                ⟨u, hLive, rfl⟩, hMay⟩

variable [Unicode]

/- An indicator object with a pattern, and nothing else. -/
def patternObject (pattern : Str) : StixObject :=
  .indicator
    { id := [], created := [], modified := [], name := []
      description := [], indicatorTypes := []
      pattern := pattern, validFrom := [], confidence := 60
      labels := [] }

/- An envelope with a pattern that is read writes. -/
theorem push_of_pattern
    {pattern : Str} {parsed : Str × Str}
    (hRead : parseIndicatorPattern pattern = some parsed) :
    ∃ push,
      addObjects (lit "indicators") [patternObject pattern]
          [] [] = .ok push ∧
        0 < push.success := by
  have hOpen :
      lookup (lit "indicators") taxiiCollections =
        some true := rfl
  unfold addObjects
  rw [hOpen]
  dsimp only
  rw [if_neg (List.cons_ne_nil _ _)]
  refine ⟨_, rfl, ?_⟩
  simp [pushObject, objectsToIocs, objectToIoc, patternObject,
    hRead]

theorem entitled_of_noWider
    {d : Deployment} {emailClaim : Str → Option Str}
    {db : Database} {glass : List Str} {token : Str}
    (hNone : NoWider d emailClaim db glass token)
    (hKnown : Recognised d db token) :
    Entitled d db glass token := by
  rcases taxiiPrincipal_ok_iff.mpr hKnown with ⟨p, hOk⟩
  have hRead :
      ∃ pattern,
        stixPattern (some (lit "url")) (lit "a") =
          some pattern ∧
        parseIndicatorPattern pattern =
          some (lit "url", shown (lit "a")) :=
    parse_stixPattern (by decide) (by decide)
  rcases hRead with ⟨pattern, _, hParse⟩
  rcases push_of_pattern hParse with ⟨push, hPush, hWrites⟩
  have hMay := hNone.written p _ _ _ _ push hOk hPush hWrites
  exact (requirePerm_bearer_iff hKnown.1).mp hMay

/- TAXII is no wider than the API exactly for the credentials
that it does not recognise and those that are entitled to
write indicators. -/
theorem taxii_no_wider_iff
    {d : Deployment}
    {emailClaim : Str → Option Str}
    {db : Database}
    {glass : List Str}
    {token : Str} :
    NoWider d emailClaim db glass token ↔
      (Recognised d db token → Entitled d db glass token) := by
  constructor
  · exact entitled_of_noWider
  · intro hEntitled
    constructor
    · intro p hOk
      have hKnown := taxiiPrincipal_ok_iff.mp ⟨p, hOk⟩
      have hMay :=
        (requirePerm_bearer_iff hKnown.1).mpr (hEntitled hKnown)
      rcases requirePerm_ok_iff.mp hMay with ⟨q, hUser, _⟩
      exact ⟨q, hUser⟩
    · intro p _ _ _ _ _ hOk _ _
      have hKnown := taxiiPrincipal_ok_iff.mp ⟨p, hOk⟩
      exact (requirePerm_bearer_iff hKnown.1).mpr
        (hEntitled hKnown)

end

---- A Key That May Only Read

local instance taxiiUnicode : Unicode := asciiTables

/- A deployment that has signed nothing, and one key. -/
def readerDeployment : Deployment where
  multiTenant := false
  jwtTtlMinutes := 60
  decodeToken _ := .error ⟨401, lit "Invalid token"⟩
  sha256 token :=
    if token = lit "to_rk_live_00" then
      lit ("8df2e69d00fd57952e11eb4c0d929e7d" ++
        "ef459e53f05f448d8e7345c91a1160f8")
    else []
  microsSince _ := 0

def readerKey : ApiKey where
  id := lit "k1"
  name := lit "siem"
  secretHash := readerDeployment.sha256 (lit "to_rk_live_00")
  scope := lit "read"
  revoked := false
  orgId := none

def readerDatabase : Database where
  users := []
  sessions := []
  orgs := []
  grants := []
  roles := []
  apiKeys := [readerKey]
  sessionTimeout := none

/- It writes through TAXII. -/
theorem reader_writes :
    ¬ NoWider readerDeployment (fun _ => none) readerDatabase []
      (lit "to_rk_live_00") := by
  intro hNone
  have hKnown :
      Recognised readerDeployment readerDatabase
        (lit "to_rk_live_00") :=
    ⟨by decide, Or.inr ⟨readerKey, by simp [readerDatabase],
      rfl, rfl⟩⟩
  rcases entitled_of_noWider hNone hKnown with ⟨_, key, hKey, _, hMay⟩ |
    ⟨hShape, _⟩
  · have hOnly :
        readerDatabase.apiKeys.find? (fun k =>
          k.secretHash ==
            readerDeployment.sha256 (lit "to_rk_live_00")) =
          some readerKey := by
      decide
    rw [hOnly, Option.some.injEq] at hKey
    subst hKey
    revert hMay
    decide
  · revert hShape
    decide

end ThreatOrbit.Auth
