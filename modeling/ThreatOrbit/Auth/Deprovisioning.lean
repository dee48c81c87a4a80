import ThreatOrbit.Auth.Saml
import ThreatOrbit.Auth.Users

/-
  Accounts that are disabled.

  The status of an account is written by the user
  administration, by SCIM, by the erasure of a subject, by
  the sign-on over OIDC or SAML, and by the verification of
  an address. A request that reads a row before it writes it
  does so in two steps, with others in between.
-/

---- SCIM

namespace ThreatOrbit.Auth

open Lib

section

def active : Str :=
  lit "active"

def disabled : Str :=
  lit "disabled"

/- A SCIM `User` payload, by the attributes that are read:
`none` where one is absent or, but for `active`, null. -/
structure ScimUser where
  userName : Option Str
  emails : List (Option Str)
  formatted : Option Str
  givenName : Option Str
  familyName : Option Str
  displayName : Option Str
  active : Option PyVal
  roles : List Str

/- The fields that `from_scim` provisions. -/
structure ScimFields where
  email : Str
  name : Str
  status : Str
  role : Str
deriving DecidableEq, Repr

/- `SCIM_ROLE_MAP` and `SCIM_DEFAULT_ROLE`. -/
structure ScimRoles where
  roleMap : List (Str × Str)
  defaultRole : Str

/- `value in _TRUE`. -/
def scimTrue : PyVal → Bool
| .bool b => b
| .int n => n == 1
| .float x => x == Float.ofBits 0x3ff0000000000000
| .str s => s == lit "true" || s == lit "True" || s == lit "1"
| _ => false

/- The status of a value of `active`. -/
def scimStatus (value : PyVal) : Str :=
  if scimTrue value then active else disabled

/- `resolve_role`. -/
def ScimRoles.resolve (c : ScimRoles) (roles : List Str) : Str :=
  let mapped := roles.filterMap fun r =>
    (lookup r c.roleMap).filter samlRoles.contains
  match mapped with
  | role :: _ => role
  | [] =>
      if samlRoles.contains c.defaultRole then c.defaultRole
      else lit "viewer"

variable [Unicode]

/- The address of a payload: some services only fill in
`emails`. -/
def ScimUser.email (body : ScimUser) : Str :=
  let own := Unicode.lower (strip (body.userName.getD []))
  let listed := body.emails.find? fun e =>
    (e.getD []).contains (cp '@')
  if own.contains (cp '@') then own
  else
    match listed with
    | some e => Unicode.lower (strip (e.getD []))
    | none => own

def ScimUser.name (body : ScimUser) : Str :=
  let parts := [body.givenName, body.familyName].filterMap id
  let full := strip
    (joinWith (lit " ") (parts.filter (· ≠ [])))
  strip
    (orStr body.formatted
      (orStr (some full)
        (orStr body.displayName
          (body.email.takeWhile (· ≠ cp '@')))))

/- `from_scim`; an absent `active` is true. -/
def fromScim
    (c : ScimRoles)
    (body : ScimUser) : Except Str ScimFields :=
  if !body.email.contains (cp '@') then
    .error (lit "userName (an email address) is required")
  else
    .ok
      { email := body.email
        name := body.name
        status := scimStatus (body.active.getD (.bool true))
        role := c.resolve body.roles }

theorem fromScim_status
    {c : ScimRoles} {body : ScimUser} {f : ScimFields}
    (hFields : fromScim c body = .ok f) :
    f.status = scimStatus (body.active.getD (.bool true)) := by
  unfold fromScim at hFields
  split at hFields
  · cases hFields
  · cases hFields
    rfl

/- A SCIM `PatchOp`. -/
structure PatchOp where
  op : Option Str
  path : Option Str
  value : PyVal

/- The paths that an operation sets, with their values. -/
def PatchOp.assignments (o : PatchOp) : List (Str × PyVal) :=
  let op := Unicode.lower (o.op.getD [])
  if op ≠ lit "replace" ∧ op ≠ lit "add" then []
  else
    match o.path, o.value with
    | some (c :: path), value => [(c :: path, value)]
    | _, .dict items => items
    | _, _ => []

def setPath (u : User) (path : Str) (value : PyVal) : User :=
  let p := Unicode.lower path
  if p = lit "active" then { u with status := scimStatus value }
  else if p = lit "displayname" ∨ p = lit "name.formatted" then
    { u with name := pyStr value }
  else if p = lit "username" then
    { u with email := Unicode.lower (strip (pyStr value)) }
  else u

def applyPatch (u : User) (ops : List PatchOp) : User :=
  (ops.flatMap PatchOp.assignments).foldl
    (fun u s => setPath u s.1 s.2) u

/- The status after an assignment, if one was set. -/
def patchedStatus
    (status : Option Str)
    (s : Str × PyVal) : Option Str :=
  if Unicode.lower s.1 = lit "active" then some (scimStatus s.2)
  else status

/- The status that a patch sets, if it sets one. -/
def patchStatus (ops : List PatchOp) : Option Str :=
  (ops.flatMap PatchOp.assignments).foldl patchedStatus none

theorem setPath_status
    (u : User) (path : Str) (value : PyVal) :
    (setPath u path value).status =
      if Unicode.lower path = lit "active" then scimStatus value
      else u.status := by
  unfold setPath
  simp only
  split
  · rfl
  split
  · rfl
  split
  · rfl
  · rfl

/- A patch leaves the status as the row had it, unless it
sets one. -/
theorem applyPatch_status
    (u : User) (ops : List PatchOp) :
    (applyPatch u ops).status =
      (patchStatus ops).getD u.status := by
  have hFold : ∀ (sets : List (Str × PyVal)) (u : User)
      (status : Option Str) (first : Str),
      u.status = status.getD first →
        (sets.foldl (fun u s => setPath u s.1 s.2) u).status =
          (sets.foldl patchedStatus status).getD first := by
    intro sets
    induction sets with
    | nil => exact fun u status first hSame => hSame
    | cons s rest ih =>
        intro u status first hSame
        apply ih
        rw [setPath_status]
        unfold patchedStatus
        split
        · rfl
        · exact hSame
  exact hFold _ u none u.status rfl

/- The status a patch sets is one of two. -/
theorem patchStatus_cases (ops : List PatchOp) :
    patchStatus ops = none ∨ patchStatus ops = some active ∨
      patchStatus ops = some disabled := by
  have hFold : ∀ (sets : List (Str × PyVal))
      (status : Option Str),
      (status = none ∨ status = some active ∨
        status = some disabled) →
        sets.foldl patchedStatus status = none ∨
          sets.foldl patchedStatus status = some active ∨
          sets.foldl patchedStatus status = some disabled := by
    intro sets
    induction sets with
    | nil => exact fun status hCases => hCases
    | cons s rest ih =>
        intro status hCases
        apply ih
        unfold patchedStatus scimStatus
        split
        · split
          · exact Or.inr (Or.inl rfl)
          · exact Or.inr (Or.inr rfl)
        · exact hCases
  exact hFold _ none (Or.inl rfl)

end

---- Requests

section

/- A sign-on service, with whether it owns the roles: it
does where a role map is configured. -/
structure SignOn where
  manageRoles : Bool
deriving DecidableEq, Repr

/- `_provision` of OIDC and of SAML. -/
def ssoProvision (oidcRoleMap : List (Str × Str)) : SignOn :=
  ⟨!oidcRoleMap.isEmpty⟩

def samlProvision (samlRoleMap : List (Str × Str)) : SignOn :=
  ⟨!samlRoleMap.isEmpty⟩

/- The update of `_provision` of a user it found. -/
def SignOn.provision
    (s : SignOn)
    (u : SsoUser)
    (found : User)
    (now : Str)
    (row : User) : User :=
  { row with
    name := u.name
    role := if s.manageRoles then u.role else found.role
    status := active
    lastLogin := some now }

/- The row of a user that `_provision` did not find. -/
def provisionedUser
    (u : SsoUser)
    (password : Str × Str)
    (id now : Str) : User where
  id := id
  email := u.email
  name := u.name
  role := u.role
  status := active
  passwordHash := password.1
  passwordSalt := password.2
  avatarColor := lit "#7A3CFF"
  mfaEnabled := false
  mfaSecret := none
  lastLogin := some now
  createdAt := now
  orgId := some defaultOrgId
  tokenEpoch := 0

/- The row that SCIM inserts. -/
def scimUser
    (f : ScimFields)
    (password : Str × Str)
    (id now : Str) : User where
  id := id
  email := f.email
  name := f.name
  role := f.role
  status := f.status
  passwordHash := password.1
  passwordSalt := password.2
  avatarColor := lit "#7A3CFF"
  mfaEnabled := false
  mfaSecret := none
  lastLogin := none
  createdAt := now
  orgId := some defaultOrgId
  tokenEpoch := 0

/- The update of `erase_user`. -/
def eraseUser
    (anon : Str)
    (password : Str × Str)
    (row : User) : User :=
  { row with
    email := anon
    name := lit "Erased user"
    avatarColor := lit "#555555"
    mfaSecret := none
    mfaEnabled := false
    status := disabled
    passwordHash := password.1
    passwordSalt := password.2 }

/- The body of `login`. -/
structure LoginRequest where
  email : Str
  password : Str
  code : Option Str
deriving DecidableEq, Repr

/- The verification of a password, and of the code of an
account with MFA. -/
structure Login where
  verifyPassword : Str → Str → Str → Bool
  checkMfa : User → Option Str → Except HttpError Unit

/- `login` up to its update. -/
def loginUser
    [Unicode]
    (d : Deployment)
    (l : Login)
    (db : Database)
    (body : LoginRequest) : Except HttpError User :=
  let invalid := unauthorized (lit "Invalid email or password")
  match db.users.find?
      (fun u => u.email == Unicode.lower body.email) with
  | none => .error invalid
  | some u =>
      if !l.verifyPassword body.password u.passwordHash
          u.passwordSalt then
        .error invalid
      else if u.status = disabled then
        .error ⟨403, lit "Account disabled"⟩
      else if u.status = lit "pending" then
        .error ⟨403, lit ("Please verify your email before " ++
          "signing in - check your inbox for the " ++
          "verification link.")⟩
      else if !isOrgActive d db (orgOr u.orgId) then
        .error ⟨403, lit "Workspace suspended"⟩
      else
        match l.checkMfa u body.code with
        | .error e => .error e
        | .ok () => .ok u

/- A request between its read of a row and its write. -/
inductive AccountCall where
| patch (id : Str) (ops : List PatchOp) (row : User)
| signOn (s : SignOn) (u : SsoUser) (found : User)
| verify (id : Str)
| login (id : Str)

/- The tables, the requests on their way, and the ids that
were ever drawn. -/
structure Directory where
  db : Database
  calls : List AccountCall
  issued : List Str

/- What a step does to an account. -/
inductive AccountEvent where
| other
| updated (id : Str) (body : UserUpdate)
| replaced (id : Str) (body : ScimUser)
| patched (id : Str) (ops : List PatchOp) (row : User)
| deactivated (id : Str)
| erased (id : Str)
| provisioned (id : Str)
| verified (id : Str)

def Directory.write
    (w : Directory)
    (id : Str)
    (set : User → User)
    (calls : List AccountCall) : Directory :=
  { w with
    db := { w.db with users := updateUsers w.db.users id set }
    calls }

/- A row is inserted under a new id. -/
def Directory.insert (w : Directory) (u : User) : Directory :=
  { w with
    db := { w.db with users := w.db.users ++ [u] }
    issued := u.id :: w.issued }

/- What the requests are answered with. -/
structure Services where
  deployment : Deployment
  login : Login
  scimRoles : ScimRoles
  admission : Admission

variable [Unicode]

/- The next state of the directory. A request that has read a
row may fail before it writes, and a request that writes
other columns keeps the status. -/
inductive Services.Step
    (s : Services) :
    Directory → AccountEvent → Directory → Prop
| create
    (w : Directory) (actor : Principal) (body : UserCreate)
    (id now : Str) (db : Database)
    (hNew : id ∉ w.issued)
    (hOk :
      createUser s.admission w.db actor body id now = .ok db) :
    s.Step w .other { w with db, issued := id :: w.issued }
| register
    (w : Directory) (u : User)
    (hNew : u.id ∉ w.issued) :
    s.Step w .other (w.insert u)
| scimCreate
    (w : Directory) (body : ScimUser) (f : ScimFields)
    (password : Str × Str) (id now : Str)
    (hNew : id ∉ w.issued)
    (hFields : fromScim s.scimRoles body = .ok f) :
    s.Step w .other (w.insert (scimUser f password id now))
| signOnCreate
    (w : Directory) (u : SsoUser)
    (password : Str × Str) (id now : Str)
    (hNew : id ∉ w.issued)
    (hAbsent : w.db.users.find?
      (fun row => row.email == u.email) = none) :
    s.Step w .other
      (w.insert (provisionedUser u password id now))
| remove
    (w : Directory) (keep : User → Bool) :
    s.Step w .other
      { w with
        db := { w.db with users := w.db.users.filter keep } }
| elsewhere
    (w : Directory) (db : Database)
    (hUsers : db.users = w.db.users) :
    s.Step w .other { w with db }
| columns
    (w : Directory) (id : Str) (set : User → User)
    (hId : ∀ u, (set u).id = u.id)
    (hStatus : ∀ u, (set u).status = u.status) :
    s.Step w .other (w.write id set w.calls)
| update
    (w : Directory) (id : Str) (body : UserUpdate)
    (db : Database)
    (hOk : updateUser w.db id body = .ok db) :
    s.Step w (.updated id body) { w with db }
| replace
    (w : Directory) (id : Str) (body : ScimUser)
    (f : ScimFields)
    (hFields : fromScim s.scimRoles body = .ok f) :
    s.Step w (.replaced id body)
      (w.write id
        (fun u =>
          { u with name := f.name, status := f.status
                   role := f.role })
        w.calls)
| patchRead
    (w : Directory) (id : Str) (ops : List PatchOp)
    (row : User)
    (hRow : w.db.user? id = some row) :
    s.Step w .other
      { w with calls := .patch id ops row :: w.calls }
| patchWrite
    (w : Directory) (id : Str) (ops : List PatchOp)
    (row : User) (rest : List AccountCall)
    (hCall : w.calls.Perm (.patch id ops row :: rest)) :
    s.Step w (.patched id ops row)
      (w.write id
        (fun u =>
          { u with
            name := (applyPatch row ops).name
            status := (applyPatch row ops).status
            email := (applyPatch row ops).email })
        rest)
| deactivate
    (w : Directory) (id : Str) :
    s.Step w (.deactivated id)
      (w.write id (fun u => { u with status := disabled })
        w.calls)
| erase
    (w : Directory) (id anon : Str) (password : Str × Str) :
    s.Step w (.erased id)
      (w.write id (eraseUser anon password) w.calls)
| signOnRead
    (w : Directory) (o : SignOn) (u : SsoUser) (found : User)
    (hFound : w.db.users.find?
      (fun row => row.email == u.email) = some found) :
    s.Step w .other
      { w with calls := .signOn o u found :: w.calls }
| signOnWrite
    (w : Directory) (o : SignOn) (u : SsoUser) (found : User)
    (now : Str) (rest : List AccountCall)
    (hCall : w.calls.Perm (.signOn o u found :: rest)) :
    s.Step w (.provisioned found.id)
      (w.write found.id (o.provision u found now) rest)
| verifyRead
    (w : Directory) (id : Str) (row : User)
    (hRow : w.db.user? id = some row)
    (hPending : row.status = lit "pending") :
    s.Step w .other
      { w with calls := .verify id :: w.calls }
| verifyWrite
    (w : Directory) (id : Str) (rest : List AccountCall)
    (hCall : w.calls.Perm (.verify id :: rest)) :
    s.Step w (.verified id)
      (w.write id (fun u => { u with status := active }) rest)
| loginRead
    (w : Directory) (body : LoginRequest) (u : User)
    (hOk : loginUser s.deployment s.login w.db body = .ok u) :
    s.Step w .other
      { w with calls := .login u.id :: w.calls }
| loginWrite
    (w : Directory) (id now : Str) (rest : List AccountCall)
    (hCall : w.calls.Perm (.login id :: rest)) :
    s.Step w .other
      (w.write id (fun u => { u with lastLogin := some now })
        rest)
| failed
    (w : Directory) (call : AccountCall)
    (rest : List AccountCall)
    (hCall : w.calls.Perm (call :: rest)) :
    s.Step w .other { w with calls := rest }

/- The account is disabled, if it is there. -/
def Disabled (a : Str) (db : Database) : Prop :=
  ∀ u ∈ db.users, u.id = a → u.status = disabled

/- No request gets a principal of the account. -/
def NoPrincipal (a : Str) (db : Database) : Prop :=
  ∀ d c p, currentUser d db c = .ok p →
    p.isService = false → p.id ≠ a

/- An administrator or a SCIM request sets the status of the
account to something else. -/
def AccountEvent.reactivates (a : Str) : AccountEvent → Prop
| .updated id body =>
    id = a ∧ ∃ status, body.status = some status ∧
      status ≠ disabled
| .replaced id body =>
    id = a ∧ ∃ value, body.active = some value ∧
      scimTrue value = true
| .patched id ops _ => id = a ∧ patchStatus ops = some active
| _ => False

/- A step on the account is no sign-on and no verification, a
replacement of it says whether it is active, and a patch
that does not say so has read the row disabled. -/
def AccountEvent.Quiet (a : Str) : AccountEvent → Prop
| .provisioned id => id ≠ a
| .verified id => id ≠ a
| .replaced id body => id = a → body.active.isSome = true
| .patched id ops row =>
    id = a → patchStatus ops = none → row.status = disabled
| _ => True

def HasRow (a : Str) (db : Database) : Prop :=
  ∃ u ∈ db.users, u.id = a

/- A step of a run in which nobody reactivates the account. -/
def Services.StepWithout
    (s : Services)
    (a : Str)
    (w : Directory)
    (e : AccountEvent)
    (v : Directory) : Prop :=
  s.Step w e v ∧ ¬ e.reactivates a

end

---- Disabled Accounts

section

theorem disabled_updateUsers
    {users : List User} {a id : Str} {set : User → User}
    (hOff : ∀ u ∈ users, u.id = a → u.status = disabled)
    (hId : ∀ u, (set u).id = u.id)
    (hSet :
      ∀ u ∈ users, id = a → u.id = a →
        (set u).status = disabled) :
    ∀ u ∈ updateUsers users id set, u.id = a →
      u.status = disabled := by
  intro u hU hSame
  unfold updateUsers at hU
  rcases List.mem_map.mp hU with ⟨old, hOld, rfl⟩
  split at hSame
  · rename_i hHere
    rw [if_pos hHere]
    rw [hId] at hSame
    exact hSet old hOld (hHere.symm.trans hSame) hSame
  · rename_i hThere
    rw [if_neg hThere]
    exact hOff old hOld hSame

/- A write that does not disable an account is seen. -/
theorem not_disabled_write
    {w : Directory} {a : Str} {set : User → User}
    {calls : List AccountCall}
    (hRow : HasRow a w.db)
    (hOff : Disabled a (w.write a set calls).db)
    (hId : ∀ u, (set u).id = u.id)
    (hSet : ∀ u, (set u).status ≠ disabled) :
    False := by
  rcases hRow with ⟨u, hU, hSame⟩
  apply hSet u
  apply hOff (set u)
  · simp only [Directory.write, updateUsers, List.mem_map]
    exact ⟨u, hU, if_pos hSame⟩
  · rw [hId]
    exact hSame

/- A disabled account signs nobody in. -/
theorem noPrincipal_of_disabled
    {a : Str} {db : Database}
    (hOff : Disabled a db) :
    NoPrincipal a db := by
  intro d c p hOk hHuman hSame
  rcases currentUser_ok hOk with
    ⟨token, _, _, hService⟩ | ⟨token, payload, _, _, _, hUser⟩
  · unfold principalFromApiKey at hService
    split at hService
    · cases hService
    split at hService
    · cases hService
    cases hService
    cases hHuman
  · rcases principalFromPayload_ok hUser with
      ⟨sub, u, _, hFound, hStatus, hActs, _⟩
    have hId := (actingPrincipal_ok hActs).1
    exact hStatus
      (hOff u (mem_of_user? hFound).1 (hId.symm.trans hSame))

/- The account is disabled, and its id is not drawn again. -/
structure OffInv (a : Str) (w : Directory) : Prop where
  off : Disabled a w.db
  drawn : a ∈ w.issued

theorem OffInv.insert
    {a : Str} {w : Directory} {u : User}
    (hInv : OffInv a w) (hNew : u.id ∉ w.issued) :
    OffInv a (w.insert u) := by
  constructor
  · intro row hRow hSame
    rcases List.mem_append.mp hRow with hOld | hAdded
    · exact hInv.off row hOld hSame
    · rw [List.mem_singleton.mp hAdded] at hSame
      rw [hSame] at hNew
      exact absurd hInv.drawn hNew
  · exact List.mem_cons_of_mem _ hInv.drawn

theorem OffInv.write
    {a id : Str} {w : Directory} {set : User → User}
    (hInv : OffInv a w) (hId : ∀ u, (set u).id = u.id)
    (hSet :
      ∀ u ∈ w.db.users, id = a → u.id = a →
        (set u).status = disabled)
    (calls : List AccountCall) :
    OffInv a (w.write id set calls) :=
  ⟨disabled_updateUsers hInv.off hId hSet, hInv.drawn⟩

variable [Unicode]

/- A quiet step keeps a disabled account disabled. -/
theorem OffInv.step
    {s : Services} {a : Str} {w v : Directory} {e : AccountEvent}
    (hInv : OffInv a w) (hStep : s.StepWithout a w e v)
    (hQuiet : HasRow a w.db → e.Quiet a) :
    OffInv a v := by
  rcases hStep with ⟨hStep, hAsked⟩
  cases hStep with
  | create actor body id now db hNew hOk =>
      rw [(createUser_ok hOk).2]
      exact hInv.insert hNew
  | register u hNew => exact hInv.insert hNew
  | scimCreate body f password id now hNew hFields =>
      exact hInv.insert hNew
  | signOnCreate u password id now hNew hAbsent =>
      exact hInv.insert hNew
  | remove keep =>
      refine ⟨?_, hInv.drawn⟩
      intro u hU hSame
      exact hInv.off u (List.mem_filter.mp hU).1 hSame
  | elsewhere db hUsers =>
      refine ⟨?_, hInv.drawn⟩
      intro u hU hSame
      simp only at hU
      rw [hUsers] at hU
      exact hInv.off u hU hSame
  | columns id set hId hStatus =>
      apply hInv.write hId
      intro u hU _ hSame
      rw [hStatus]
      exact hInv.off u hU hSame
  | update id body db hOk =>
      rw [(updateUser_ok hOk).2]
      change OffInv a (w.write id body.apply w.calls)
      refine hInv.write ?_ ?_ _
      · exact fun _ => rfl
      intro u hU hHere hSame
      cases hStatus : body.status with
      | none =>
          simp only [UserUpdate.apply, hStatus, Option.getD_none]
          exact hInv.off u hU hSame
      | some status =>
          simp only [UserUpdate.apply, hStatus, Option.getD_some]
          by_contra hOther
          exact hAsked ⟨hHere, status, hStatus, hOther⟩
  | replace id body f hFields =>
      refine hInv.write ?_ ?_ _
      · exact fun _ => rfl
      intro u hU hHere hSame
      have hGiven := hQuiet ⟨u, hU, hSame⟩ hHere
      rcases Option.isSome_iff_exists.mp hGiven with
        ⟨value, hValue⟩
      have hStatus := fromScim_status hFields
      rw [hValue, Option.getD_some] at hStatus
      simp only [hStatus, scimStatus]
      rw [if_neg]
      intro hTrue
      exact hAsked ⟨hHere, value, hValue, hTrue⟩
  | patchRead id ops row hRow => exact ⟨hInv.off, hInv.drawn⟩
  | patchWrite id ops row rest hCall =>
      refine hInv.write ?_ ?_ _
      · exact fun _ => rfl
      intro u hU hHere hSame
      simp only
      rw [applyPatch_status]
      rcases patchStatus_cases ops with
        hNone | hActive | hDisabled
      · rw [hNone]
        exact hQuiet ⟨u, hU, hSame⟩ hHere hNone
      · exact absurd ⟨hHere, hActive⟩ hAsked
      · rw [hDisabled]
        rfl
  | deactivate id =>
      refine hInv.write ?_ ?_ _
      · exact fun _ => rfl
      · exact fun _ _ _ _ => rfl
  | erase id anon password =>
      refine hInv.write ?_ ?_ _
      · exact fun _ => rfl
      · exact fun _ _ _ _ => rfl
  | signOnRead o u found hFound =>
      exact ⟨hInv.off, hInv.drawn⟩
  | signOnWrite o u found now rest hCall =>
      refine hInv.write ?_ ?_ _
      · exact fun _ => rfl
      intro u hU hHere hSame
      exact absurd hHere (hQuiet ⟨u, hU, hSame⟩)
  | verifyRead id row hRow hPending =>
      exact ⟨hInv.off, hInv.drawn⟩
  | verifyWrite id rest hCall =>
      refine hInv.write ?_ ?_ _
      · exact fun _ => rfl
      intro u hU hHere hSame
      exact absurd hHere (hQuiet ⟨u, hU, hSame⟩)
  | loginRead body u hOk => exact ⟨hInv.off, hInv.drawn⟩
  | loginWrite id now rest hCall =>
      refine hInv.write ?_ ?_ _
      · exact fun _ => rfl
      intro u hU _ hSame
      exact hInv.off u hU hSame
  | failed call rest hCall => exact ⟨hInv.off, hInv.drawn⟩

omit [Unicode] in
theorem active_ne_disabled : active ≠ disabled := by
  decide

/- A step that keeps the account disabled is quiet. -/
theorem quiet_of_disabled
    {s : Services} {a : Str} {w v : Directory} {e : AccountEvent}
    (hStep : s.StepWithout a w e v) (hOff : Disabled a v.db)
    (hRow : HasRow a w.db) :
    e.Quiet a := by
  rcases hStep with ⟨hStep, hAsked⟩
  cases hStep with
  | replace id body f hFields =>
      intro hHere
      by_contra hNone
      rw [Bool.not_eq_true, Option.isSome_eq_false_iff,
        Option.isNone_iff_eq_none] at hNone
      have hStatus : f.status = active := by
        rw [fromScim_status hFields, hNone]
        rfl
      rw [hHere] at hOff
      refine not_disabled_write hRow hOff ?_ ?_
      · exact fun _ => rfl
      intro u
      simp only [hStatus]
      exact active_ne_disabled
  | patchWrite id ops row rest hCall =>
      intro hHere hNone
      by_contra hRead
      rw [hHere] at hOff
      refine not_disabled_write hRow hOff ?_ ?_
      · exact fun _ => rfl
      intro u
      simp only [applyPatch_status, hNone, Option.getD_none]
      exact hRead
  | signOnWrite o u found now rest hCall =>
      intro hHere
      rw [hHere] at hOff
      refine not_disabled_write hRow hOff ?_ ?_
      · exact fun _ => rfl
      · exact fun _ => active_ne_disabled
  | verifyWrite id rest hCall =>
      intro hHere
      rw [hHere] at hOff
      refine not_disabled_write hRow hOff ?_ ?_
      · exact fun _ => rfl
      · exact fun _ => active_ne_disabled
  | _ => trivial

/- While nobody reactivates a disabled account, it stays
disabled and gives no principal, exactly when every step
on it is quiet. -/
theorem stays_disabled_iff
    {s : Services}
    {a : Str}
    {w v : Directory}
    {trace : List (Transition Directory AccountEvent)}
    (hOff : Disabled a w.db)
    (hDrawn : a ∈ w.issued)
    (hRun : Run (s.StepWithout a) w trace v) :
    (∀ t ∈ trace,
      Disabled a t.post.db ∧ NoPrincipal a t.post.db) ↔
    ∀ t ∈ trace, HasRow a t.pre.db → t.label.Quiet a :=
  Run.forall_post_iff
    (I := OffInv a)
    (J := fun w => Disabled a w.db ∧ NoPrincipal a w.db)
    (C := fun t => HasRow a t.pre.db → t.label.Quiet a)
    (fun _ hInv =>
      ⟨hInv.off, noPrincipal_of_disabled hInv.off⟩)
    (fun _ _ _ hInv hStep hQuiet => hInv.step hStep hQuiet)
    (fun _ _ _ _ hStep hPost hRow =>
      quiet_of_disabled hStep hPost.1 hRow)
    hRun ⟨hOff, hDrawn⟩

end

---- A Leaver

/- `str.lower` and its like on ASCII. -/
local instance deprovisioningUnicode : Unicode := asciiTables

/- A deployment that knows one session token. -/
def corpServices : Services where
  deployment :=
    { multiTenant := false
      jwtTtlMinutes := 60
      decodeToken := fun token =>
        if token = lit "h.p.s" then
          .ok ⟨some (lit "u7"), none, none, 0⟩
        else .error ⟨401, lit "Invalid token"⟩
      sha256 := fun _ => []
      microsSince := fun _ => 0 }
  login :=
    { verifyPassword := fun _ _ _ => false
      checkMfa := fun _ _ => .ok () }
  scimRoles := ⟨[], lit "viewer"⟩
  admission :=
    { passwordError := fun _ _ _ => none
      seatError := fun _ => none
      quotaError := fun _ _ => none
      hashPassword := fun _ => ([], []) }

/- An account that was disabled. -/
def leaver : User where
  id := lit "u7"
  email := lit "eve@corp.test"
  name := lit "Eve"
  role := lit "analyst"
  status := disabled
  passwordHash := []
  passwordSalt := []
  avatarColor := lit "#7A3CFF"
  mfaEnabled := false
  mfaSecret := none
  lastLogin := none
  createdAt := lit "2026-01-01T00:00:00+00:00"
  orgId := some defaultOrgId
  tokenEpoch := 0

def corpDirectory : Directory where
  db :=
    { users := [leaver]
      sessions := []
      orgs := []
      grants := []
      roles := []
      apiKeys := []
      sessionTimeout := none }
  calls := []
  issued := [lit "u7"]

theorem disabled_leaver :
    Disabled (lit "u7") corpDirectory.db := by
  intro u hU _
  rw [List.mem_singleton.mp hU]
  rfl

/- The user that the identity provider signs on. -/
def leaverSso : SsoUser :=
  ⟨lit "eve@corp.test", lit "Eve", [], lit "viewer"⟩

/- A patch of the name of the account. -/
def renameOps : List PatchOp :=
  [⟨some (lit "replace"), some (lit "displayName"),
    .str (lit "Eve L.")⟩]

/- The steps of the patch. -/
def rename : List (Transition Directory AccountEvent) :=
  let id := lit "u7"
  let reading :=
    { corpDirectory with calls := [.patch id renameOps leaver] }
  let renamed := reading.write id
    (fun u =>
      { u with
        name := (applyPatch leaver renameOps).name
        status := (applyPatch leaver renameOps).status
        email := (applyPatch leaver renameOps).email }) []
  [⟨corpDirectory, .other, reading⟩,
    ⟨reading, .patched id renameOps leaver, renamed⟩]

/- A patch that was read after the account was disabled
leaves it disabled. -/
theorem renamed_leaver_disabled :
    rename.Forall fun t =>
      Disabled (lit "u7") t.post.db ∧
        NoPrincipal (lit "u7") t.post.db := by
  rw [List.forall_iff_forall_mem]
  have hNone : patchStatus renameOps = none := by
    decide
  have hRun :
      ∃ v, Run (corpServices.StepWithout (lit "u7"))
        corpDirectory rename v := by
    refine ⟨_, .cons ⟨.patchRead _ (lit "u7") renameOps leaver
      (by decide), fun h => h⟩ (.cons ⟨.patchWrite _ (lit "u7")
        renameOps leaver [] (List.Perm.refl _), ?_⟩ (.nil _))⟩
    rintro ⟨_, hActive⟩
    rw [hNone] at hActive
    cases hActive
  rcases hRun with ⟨v, hRun⟩
  apply (stays_disabled_iff disabled_leaver (by decide)
    hRun).mpr
  intro t hT _
  simp only [rename, List.mem_cons, List.not_mem_nil,
    or_false] at hT
  rcases hT with rfl | rfl
  · trivial
  · exact fun _ _ => rfl

/- A sign-on over the identity provider makes the account
active, and its old session token is accepted again. -/
theorem sign_on_reactivates :
    ∃ v trace,
      Run (corpServices.StepWithout (lit "u7")) corpDirectory
        trace v ∧
      ¬ Disabled (lit "u7") v.db ∧
      ¬ NoPrincipal (lit "u7") v.db := by
  refine ⟨_, _,
    .cons ⟨.signOnRead _ (ssoProvision []) leaverSso leaver
      (by decide), fun h => h⟩
    (.cons ⟨.signOnWrite _ (ssoProvision []) leaverSso leaver
      (lit "2026-02-01T00:00:00+00:00") []
      (List.Perm.refl _), fun h => h⟩ (.nil _)), ?_, ?_⟩
  · intro hOff
    have hActive := hOff
      ((ssoProvision []).provision leaverSso leaver
        (lit "2026-02-01T00:00:00+00:00") leaver)
      (by decide) rfl
    exact active_ne_disabled hActive
  · intro hNone
    exact hNone corpServices.deployment
      ⟨some (lit "h.p.s"), none, none⟩ _ rfl rfl rfl

end ThreatOrbit.Auth
