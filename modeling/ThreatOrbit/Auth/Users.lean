import ThreatOrbit.Lib.Python
import ThreatOrbit.Auth.Accounts

/-
  The requests that create and update users.
-/

---- Creation

namespace ThreatOrbit.Auth

open Lib

/- The body of `create_user`. -/
structure UserCreate where
  email : Str
  name : Str
  role : Str
  password : Str
  avatarColor : Str
deriving DecidableEq, Repr

/- What `create_user` asks besides the tables of accounts:
the password policy, the seats of the license, the quota
of the workspace, and the hash of the password. -/
structure Admission where
  passwordError : Str → Str → Str → Option Str
  seatError : Database → Option Str
  quotaError : Database → Str → Option HttpError
  hashPassword : Str → Str × Str

/- The row that `create_user` inserts. -/
def newUser
    [Unicode]
    (a : Admission)
    (actor : Principal)
    (body : UserCreate)
    (id now : Str) : User :=
  let (hash, salt) := a.hashPassword body.password
  { id := id
    email := Unicode.lower body.email
    name := body.name
    role := body.role
    status := lit "active"
    passwordHash := hash
    passwordSalt := salt
    avatarColor := body.avatarColor
    mfaEnabled := false
    mfaSecret := none
    lastLogin := none
    createdAt := now
    orgId := some actor.orgId
    tokenEpoch := 0 }

/- What `create_user` refuses, in its order. -/
def createUserError
    [Unicode]
    (a : Admission)
    (db : Database)
    (actor : Principal)
    (body : UserCreate) : Option HttpError :=
  let email := Unicode.lower body.email
  if !roleExists db body.role then
    some ⟨400,
      lit "Unknown role (built-in or a defined custom role)"⟩
  else
    match a.passwordError body.password body.email body.name with
    | some e => some ⟨400, e⟩
    | none =>
        if db.users.any (·.email == email) then
          some
            ⟨409, lit "A user with that email already exists"⟩
        else
          match a.seatError db with
          | some e => some ⟨402, e⟩
          | none => a.quotaError db actor.orgId

/- `create_user` of a drawn id. -/
def createUser
    [Unicode]
    (a : Admission)
    (db : Database)
    (actor : Principal)
    (body : UserCreate)
    (id now : Str) : Except HttpError Database :=
  match createUserError a db actor body with
  | some e => .error e
  | none =>
      if (db.user? id).isSome then
        .error ⟨500, lit "Internal Server Error"⟩
      else
        .ok
          { db with
            users := db.users ++ [newUser a actor body id now] }

---- Updates

/- The body of `update_user`. -/
structure UserUpdate where
  name : Option Str
  role : Option Str
  status : Option Str
  avatarColor : Option Str
  mfaEnabled : Option Bool
deriving DecidableEq, Repr

/- The columns an update sets; MFA is only ever reset, which
clears the secret. -/
def UserUpdate.apply (body : UserUpdate) (u : User) : User :=
  { u with
    name := body.name.getD u.name
    role := body.role.getD u.role
    status := body.status.getD u.status
    avatarColor := body.avatarColor.getD u.avatarColor
    mfaEnabled :=
      if body.mfaEnabled.isSome then false else u.mfaEnabled
    mfaSecret :=
      if body.mfaEnabled.isSome then none else u.mfaSecret }

def updateUser
    (db : Database)
    (id : Str)
    (body : UserUpdate) : Except HttpError Database :=
  if body.role.any (fun role => !roleExists db role) then
    .error ⟨400, lit "Invalid role"⟩
  else if body.mfaEnabled = some true then
    .error ⟨400, lit ("MFA is enabled by the user via " ++
      "/auth/mfa enrolment; admins can only reset it off")⟩
  else if body = ⟨none, none, none, none, none⟩ then
    .error ⟨400, lit "No fields to update"⟩
  else if (db.user? id).isNone then
    .error ⟨404, lit "User not found"⟩
  else
    .ok { db with users := updateUsers db.users id body.apply }

@[simp]
theorem UserUpdate.apply_id
    (body : UserUpdate) (u : User) :
    (body.apply u).id = u.id :=
  rfl

@[simp]
theorem UserUpdate.apply_orgId
    (body : UserUpdate) (u : User) :
    (body.apply u).orgId = u.orgId :=
  rfl

/- What an answered creation inserts. -/
theorem createUser_ok
    [Unicode] {a : Admission} {db next : Database}
    {actor : Principal} {body : UserCreate} {id now : Str}
    (hOk : createUser a db actor body id now = .ok next) :
    db.user? id = none ∧
      next =
        { db with
          users := db.users ++ [newUser a actor body id now] } := by
  unfold createUser at hOk
  split at hOk
  · cases hOk
  split at hOk
  · cases hOk
  rename_i hNew
  cases hOk
  exact ⟨by simpa using hNew, rfl⟩

/- What an answered update sets. -/
theorem updateUser_ok
    {db next : Database} {id : Str} {body : UserUpdate}
    (hOk : updateUser db id body = .ok next) :
    (db.user? id).isSome = true ∧
      next =
        { db with users := updateUsers db.users id body.apply } := by
  unfold updateUser at hOk
  split at hOk
  · cases hOk
  split at hOk
  · cases hOk
  split at hOk
  · cases hOk
  split at hOk
  · cases hOk
  rename_i hFound
  cases hOk
  refine ⟨?_, rfl⟩
  rw [Option.isSome_iff_ne_none]
  simpa using hFound

end ThreatOrbit.Auth
