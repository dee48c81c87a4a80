import ThreatOrbit.Lib.Run
import ThreatOrbit.Lib.Python
import ThreatOrbit.Auth.Accounts

/-
  The lifecycle of workspaces.

  A workspace is created, suspended and purged. A purge
  removes its users and the roles granted in it, and leaves
  its API keys.
-/

---- Requests

namespace ThreatOrbit.Auth

open Lib

/- A change of a workspace. -/
structure OrgUpdate where
  name : Option Str
  plan : Option Str
  status : Option Str
deriving DecidableEq, Repr

/- `new_org` of a drawn id, behind `create_org`. -/
def createOrg
    [Unicode]
    (db : Database)
    (id name plan : Str)
    (slug : Option Str) : Except HttpError Database :=
  let name := strip name
  if name = [] then
    .error ⟨400, lit "Workspace name is required"⟩
  else if (db.org? id).isSome then
    .error ⟨500, lit "Internal Server Error"⟩
  else
    let slug := orStr slug
      (replaceAll (lit " ") (lit "-") (Unicode.lower name))
    let org := Org.mk id name (slug.take 48) plan (lit "active")
    .ok { db with orgs := db.orgs ++ [org] }

/- The columns an update sets. -/
def OrgUpdate.apply (u : OrgUpdate) (o : Org) : Org :=
  { o with
    name := u.name.getD o.name
    plan := u.plan.getD o.plan
    status := u.status.getD o.status }

def updateOrg
    (db : Database)
    (id : Str)
    (u : OrgUpdate) : Except HttpError Database :=
  if u = ⟨none, none, none⟩ then
    .error ⟨400, lit "No fields to update"⟩
  else if id = defaultOrgId ∧ u.status = some (lit "suspended")
  then
    .error
      ⟨400, lit "The default workspace cannot be suspended"⟩
  else if (db.org? id).isNone then
    .error ⟨404, lit "Workspace not found"⟩
  else
    .ok
      { db with
        orgs := db.orgs.map fun o =>
          if o.id = id then u.apply o else o }

/- `purge_org`, on the tables of the accounts. -/
def purgeOrg (db : Database) (id : Str) : Database :=
  { db with
    grants := db.grants.filter (·.orgId ≠ id)
    users := db.users.filter (·.orgId ≠ some id)
    orgs := db.orgs.filter (·.id ≠ id) }

def deleteWorkspace
    (db : Database)
    (id : Str) : Except HttpError Database :=
  if id = defaultOrgId then
    .error ⟨400, lit "The default workspace cannot be deleted"⟩
  else if (db.org? id).isNone then
    .error ⟨404, lit "Workspace not found"⟩
  else if orgStatus db id ≠ lit "suspended" then
    .error ⟨409, lit "Suspend the workspace before deleting it"⟩
  else .ok (purgeOrg db id)

/- The requests on workspaces. -/
inductive LifecycleRequest where
| create (id name plan : Str) (slug : Option Str)
| update (id : Str) (u : OrgUpdate)
| delete (id : Str)
deriving DecidableEq, Repr

/- A request that is answered changes the tables. -/
def LifecycleRequest.run
    [Unicode]
    (db : Database) :
    LifecycleRequest → Except HttpError Database
| .create id name plan slug => createOrg db id name plan slug
| .update id u => updateOrg db id u
| .delete id => deleteWorkspace db id

/- The next state of the tables. -/
def LifecycleStep
    [Unicode]
    (db : Database)
    (r : LifecycleRequest)
    (next : Database) : Prop :=
  r.run db = .ok next

instance
    [Unicode]
    (db : Database)
    (r : LifecycleRequest)
    (next : Database) :
    Decidable (LifecycleStep db r next) :=
  inferInstanceAs (Decidable (r.run db = .ok next))

/- The workspace exists and is not suspended. -/
def Living (db : Database) (orgId : Str) : Prop :=
  ∃ o, db.org? orgId = some o ∧ o.status ≠ lit "suspended"

/- The request presents a key that is not revoked, of a
workspace other than the default one that does not exist
or is suspended. -/
def DeadKey
    (d : Deployment)
    (db : Database)
    (c : Credentials) : Prop :=
  ∃ token key, c.token = some token ∧
    keyShaped token = true ∧
    db.apiKeys.find? (fun k => k.secretHash == d.sha256 token) =
      some key ∧
    key.revoked = false ∧
    orgOr key.orgId ≠ defaultOrgId ∧
    ¬ Living db (orgOr key.orgId)

---- Placement

/- The workspace is the default one or exists. -/
def Database.hasOrg (db : Database) (orgId : Str) : Prop :=
  orgId = defaultOrgId ∨ (db.org? orgId).isSome = true

/- Every user and every grant is of a workspace there is. -/
structure Placed (db : Database) : Prop where
  home : ∀ u ∈ db.users, db.hasOrg (orgOr u.orgId)
  granted : ∀ g ∈ db.grants, db.hasOrg g.orgId

theorem isSome_org?_iff
    (db : Database) (id : Str) :
    (db.org? id).isSome = true ↔ ∃ o ∈ db.orgs, o.id = id := by
  unfold Database.org?
  rw [List.find?_isSome]
  simp

theorem OrgUpdate.apply_id
    (u : OrgUpdate) (o : Org) :
    (u.apply o).id = o.id :=
  rfl

/- A user that is not of a workspace by its own column is not
of it by default. -/
theorem orgOr_ne
    {orgId : Option Str} {id : Str}
    (hOther : orgId ≠ some id) (hNotDefault : id ≠ defaultOrgId) :
    orgOr orgId ≠ id := by
  intro hSame
  cases orgId with
  | none => exact hNotDefault hSame.symm
  | some s =>
      cases s with
      | nil => exact hNotDefault hSame.symm
      | cons c rest =>
          apply hOther
          rw [← hSame]
          rfl

/- What an answered request does to the users, the grants and
the ids of the workspaces. -/
theorem lifecycle_cases
    [Unicode] {db next : Database} {r : LifecycleRequest}
    (hStep : LifecycleStep db r next) :
    (next.users = db.users ∧ next.grants = db.grants ∧
      ∀ o ∈ db.orgs, ∃ o' ∈ next.orgs, o'.id = o.id) ∨
    ∃ id, id ≠ defaultOrgId ∧ next = purgeOrg db id := by
  unfold LifecycleStep at hStep
  cases r with
  | create id name plan slug =>
      simp only [LifecycleRequest.run, createOrg] at hStep
      split at hStep
      · cases hStep
      split at hStep
      · cases hStep
      cases hStep
      refine Or.inl ⟨rfl, rfl, ?_⟩
      intro o hO
      exact ⟨o, List.mem_append_left _ hO, rfl⟩
  | update id u =>
      simp only [LifecycleRequest.run, updateOrg] at hStep
      split at hStep
      · cases hStep
      split at hStep
      · cases hStep
      split at hStep
      · cases hStep
      cases hStep
      refine Or.inl ⟨rfl, rfl, ?_⟩
      intro o hO
      refine ⟨_, List.mem_map_of_mem hO, ?_⟩
      split
      · exact u.apply_id o
      · rfl
  | delete id =>
      simp only [LifecycleRequest.run, deleteWorkspace] at hStep
      split at hStep
      · cases hStep
      rename_i hDefault
      split at hStep
      · cases hStep
      split at hStep
      · cases hStep
      cases hStep
      exact Or.inr ⟨id, hDefault, rfl⟩

theorem Placed.step
    [Unicode] {db next : Database} {r : LifecycleRequest}
    (hPlaced : Placed db) (hStep : LifecycleStep db r next) :
    Placed next := by
  rcases lifecycle_cases hStep with
    ⟨hUsers, hGrants, hOrgs⟩ | ⟨id, hDefault, rfl⟩
  · have hKept : ∀ o, db.hasOrg o → next.hasOrg o := by
      rintro o (hHome | hSome)
      · exact Or.inl hHome
      · rcases (isSome_org?_iff db o).mp hSome with
          ⟨row, hRow, hId⟩
        rcases hOrgs row hRow with ⟨kept, hMem, hSame⟩
        right
        rw [isSome_org?_iff]
        exact ⟨kept, hMem, hSame.trans hId⟩
    constructor
    · rw [hUsers]
      exact fun u hU => hKept _ (hPlaced.home u hU)
    · rw [hGrants]
      exact fun g hG => hKept _ (hPlaced.granted g hG)
  · have hKept :
        ∀ o, o ≠ id → db.hasOrg o → (purgeOrg db id).hasOrg o := by
      rintro o hOther (hHome | hSome)
      · exact Or.inl hHome
      · rcases (isSome_org?_iff db o).mp hSome with
          ⟨row, hRow, hId⟩
        right
        rw [isSome_org?_iff]
        refine ⟨row, ?_, hId⟩
        simp only [purgeOrg, List.mem_filter]
        exact ⟨hRow, by simpa [hId] using hOther⟩
    constructor
    · intro u hU
      simp only [purgeOrg, List.mem_filter,
        decide_eq_true_eq] at hU
      exact hKept _ (orgOr_ne hU.2 hDefault)
        (hPlaced.home u hU.1)
    · intro g hG
      simp only [purgeOrg, List.mem_filter,
        decide_eq_true_eq] at hG
      exact hKept _ hG.2 (hPlaced.granted g hG.1)

---- Principals Of Workspaces

/- A workspace that exists and passes the check is living. -/
theorem living_of_active
    {d : Deployment} {db : Database} {orgId : Str}
    (hTenancy : d.multiTenant = true) (hOrg : db.hasOrg orgId)
    (hActive : isOrgActive d db orgId = true)
    (hOther : orgId ≠ defaultOrgId) :
    Living db orgId := by
  rcases hOrg with hDefault | hSome
  · exact absurd hDefault hOther
  rcases Option.isSome_iff_exists.mp hSome with ⟨o, hO⟩
  refine ⟨o, hO, ?_⟩
  intro hSuspended
  simp only [isOrgActive, orgStatus, hO, hSuspended,
    hTenancy] at hActive
  revert hActive
  simp only [Bool.not_true, Bool.false_or, Bool.or_eq_true,
    beq_iff_eq, bne_iff_ne]
  rintro (hDefault | hNot)
  · exact hOther hDefault
  · exact hNot rfl

/- A user acts in a workspace there is. -/
theorem hasOrg_of_acting
    {d : Deployment} {db : Database} {sub : Str} {u : User}
    {xOrgId : Option Str} {p : Principal}
    (hPlaced : Placed db) (hUser : db.user? sub = some u)
    (hActs : actingPrincipal d db u xOrgId = .ok p) :
    db.hasOrg p.orgId := by
  have hMem := mem_of_user? hUser
  rcases (actingPrincipal_ok hActs).2.2 with
    ⟨hHome, _⟩ | ⟨hAway, hRole⟩
  · rw [hHome]
    exact hPlaced.home u hMem.1
  · unfold workspaceRole at hRole
    rw [hMem.2, hUser] at hRole
    simp only at hRole
    rw [if_neg hAway.symm, Option.map_eq_some_iff] at hRole
    rcases hRole with ⟨g, hGrant, _⟩
    have hG := mem_of_grant? hGrant
    rw [← hG.2.2]
    exact hPlaced.granted g hG.1

/- In every state that the lifecycle of workspaces leads to,
a principal acts in a living workspace or the default one,
exactly when it does not present a dead key. -/
theorem principal_workspace_iff
    [Unicode]
    {d : Deployment}
    (hTenancy : d.multiTenant = true)
    {start db : Database}
    {trace : List (Transition Database LifecycleRequest)}
    (hStart : Placed start)
    (hRun : Run LifecycleStep start trace db)
    (c : Credentials) :
    (∀ p, currentUser d db c = .ok p →
      p.orgId ≠ defaultOrgId → Living db p.orgId) ↔
    ¬ DeadKey d db c := by
  have hPlaced : Placed db :=
    hRun.invariant (fun _ _ _ hP hStep => hP.step hStep) hStart
  constructor
  · rintro hSafe
      ⟨token, key, hToken, hShape, hKey, hLive, hOther, hDead⟩
    apply hDead
    have hOk :
        currentUser d db c =
          .ok
            { id := key.id
              email := lit "apikey:" ++ key.name
              name := key.name
              role := scopeRole key.scope
              status := lit "active"
              orgId := orgOr key.orgId
              isService := true
              actingOrg := none } := by
      simp only [currentUser, hToken, hShape, if_true,
        principalFromApiKey, hKey, hLive, Bool.false_eq_true,
        if_false]
    exact hSafe _ hOk hOther
  · intro hAlive p hOk hOther
    rcases currentUser_ok hOk with
      ⟨token, hToken, hShape, hService⟩ |
      ⟨token, payload, _, _, _, hHuman⟩
    · unfold principalFromApiKey at hService
      split at hService
      · cases hService
      rename_i key hKey
      split at hService
      · cases hService
      rename_i hRevoked
      cases hService
      by_contra hDead
      exact hAlive
        ⟨token, key, hToken, hShape, hKey,
          by simpa using hRevoked, hOther, hDead⟩
    · rcases principalFromPayload_ok hHuman with
        ⟨sub, u, _, hUser, _, hActs, hActive⟩
      exact living_of_active hTenancy
        (hasOrg_of_acting hPlaced hUser hActs)
        (hActive hTenancy) hOther

---- A Workspace That Is Offboarded

/- `str.lower` and its like on ASCII. -/
local instance workspacesUnicode : Unicode := asciiTables

/- A deployment with one session token and one key. -/
def acmeDeployment : Deployment where
  multiTenant := true
  jwtTtlMinutes := 60
  decodeToken token :=
    if token = lit "h.p.s" then
      .ok ⟨some (lit "u1"), none, none, 0⟩
    else .error ⟨401, lit "Invalid token"⟩
  sha256 token :=
    if token = lit "to_sk_live_00" then
      lit ("6861eca7c7b20585e5247e21c95a7ab6" ++
        "35865f6da166d42a0bd600ce5d91a4cd")
    else []
  microsSince _ := 0

def acmeOrg (status : Str) : Org :=
  ⟨lit "org-acme", lit "Acme", lit "acme", lit "enterprise",
    status⟩

/- An analyst of the workspace, and a key of its collector. -/
def acmeUser : User where
  id := lit "u1"
  email := lit "ada@acme.test"
  name := lit "Ada"
  role := lit "analyst"
  status := lit "active"
  passwordHash := []
  passwordSalt := []
  avatarColor := lit "#7A3CFF"
  mfaEnabled := false
  mfaSecret := none
  lastLogin := none
  createdAt := lit "2026-01-01T00:00:00+00:00"
  orgId := some (lit "org-acme")
  tokenEpoch := 0

def acmeKey : ApiKey where
  id := lit "k1"
  name := lit "collector"
  secretHash := acmeDeployment.sha256 (lit "to_sk_live_00")
  scope := lit "write"
  revoked := false
  orgId := some (lit "org-acme")

def acmeDatabase : Database where
  users := [acmeUser]
  sessions := []
  orgs := [acmeOrg (lit "active")]
  grants := []
  roles := []
  apiKeys := [acmeKey]
  sessionTimeout := none

theorem placed_acmeDatabase : Placed acmeDatabase := by
  constructor
  · intro u hU
    rw [List.mem_singleton.mp hU]
    exact Or.inr (by decide)
  · intro g hG
    cases hG

/- The requests of the offboarding. -/
def suspendAcme : LifecycleRequest :=
  .update (lit "org-acme")
    ⟨none, none, some (lit "suspended")⟩

def deleteAcme : LifecycleRequest :=
  .delete (lit "org-acme")

def suspendedDatabase : Database :=
  { acmeDatabase with orgs := [acmeOrg (lit "suspended")] }

def purgedDatabase : Database :=
  purgeOrg suspendedDatabase (lit "org-acme")

def suspension : List (Transition Database LifecycleRequest) :=
  [⟨acmeDatabase, suspendAcme, suspendedDatabase⟩]

def purge : List (Transition Database LifecycleRequest) :=
  [⟨suspendedDatabase, deleteAcme, purgedDatabase⟩]

theorem run_suspension :
    Run LifecycleStep acmeDatabase suspension
      suspendedDatabase :=
  .cons (by decide) (.nil _)

theorem run_purge :
    Run LifecycleStep suspendedDatabase purge purgedDatabase :=
  .cons (by decide) (.nil _)

def humanRequest : Credentials :=
  ⟨some (lit "h.p.s"), none, none⟩

def keyRequest : Credentials :=
  ⟨some (lit "to_sk_live_00"), none, none⟩

def keyPrincipal : Principal where
  id := lit "k1"
  email := lit "apikey:collector"
  name := lit "collector"
  role := lit "analyst"
  status := lit "active"
  orgId := lit "org-acme"
  isService := true
  actingOrg := none

/- After the purge, a session token of a user of the
workspace gives no principal of it. -/
theorem human_refused_after_purge :
    ¬ ∃ p, currentUser acmeDeployment purgedDatabase
        humanRequest = .ok p ∧
      p.orgId ≠ defaultOrgId ∧
      ¬ Living purgedDatabase p.orgId := by
  have hSafe := (principal_workspace_iff
    (d := acmeDeployment) rfl placed_acmeDatabase
    (run_suspension.append run_purge) humanRequest).mpr (by
      rintro ⟨token, key, hToken, hShape, _⟩
      have hSame : token = lit "h.p.s" :=
        (Option.some.inj hToken).symm
      rw [hSame] at hShape
      revert hShape
      decide)
  rintro ⟨p, hOk, hOther, hDead⟩
  exact hDead (hSafe p hOk hOther)

/- A key of the workspace is accepted after it is suspended,
and still after it is purged. -/
theorem dead_key_accepted :
    Placed acmeDatabase ∧
    keyPrincipal.orgId ≠ defaultOrgId ∧
    (Run LifecycleStep acmeDatabase suspension
        suspendedDatabase ∧
      currentUser acmeDeployment suspendedDatabase keyRequest =
        .ok keyPrincipal ∧
      ¬ Living suspendedDatabase keyPrincipal.orgId) ∧
    Run LifecycleStep acmeDatabase (suspension ++ purge)
        purgedDatabase ∧
      currentUser acmeDeployment purgedDatabase keyRequest =
        .ok keyPrincipal ∧
      ¬ Living purgedDatabase keyPrincipal.orgId := by
  refine ⟨placed_acmeDatabase, by decide,
    ⟨run_suspension, by decide, ?_⟩,
    run_suspension.append run_purge, by decide, ?_⟩
  · rintro ⟨o, hO, hActive⟩
    have hRow :
        suspendedDatabase.org? keyPrincipal.orgId =
          some (acmeOrg (lit "suspended")) := by
      decide
    rw [hRow] at hO
    rw [← Option.some.inj hO] at hActive
    exact hActive rfl
  · rintro ⟨o, hO, _⟩
    have hRow :
        purgedDatabase.org? keyPrincipal.orgId = none := by
      decide
    rw [hRow] at hO
    cases hO

end ThreatOrbit.Auth
