import ThreatOrbit.Lib.Run
import ThreatOrbit.Auth.Users

/-
  The requests that hand out capabilities.

  A capability is held in a workspace, by a user through the
  role there or by an API key through its scope. Roles are
  assigned at home and per workspace, and custom roles are
  redefined while they are assigned.
-/

---- Custom Roles

namespace ThreatOrbit.Auth

open Lib

section

/- The body of `create_role` and `update_role`. -/
structure RoleBody where
  id : Option Str
  name : Str
  description : Option Str
  capabilities : List Str
deriving DecidableEq, Repr

/- `_SLUG`. -/
def isSlug (s : Str) : Bool :=
  let letter := fun c => cp 'a' ≤ c && c ≤ cp 'z'
  match s with
  | [] => false
  | c :: rest =>
      letter c && 1 ≤ rest.length && rest.length ≤ 30 &&
        rest.all fun c => letter c || isDigit c || c == cp '-'

/- `sorted(set(...))`. -/
def sortedSet (l : List Str) : List Str :=
  l.dedup.mergeSort fun a b => decide (a ≤ b)

theorem mem_sortedSet
    {l : List Str} {s : Str} :
    s ∈ sortedSet l ↔ s ∈ l := by
  unfold sortedSet
  rw [List.mem_mergeSort, List.mem_dedup]

variable [Unicode]

def checkCaps
    (db : Database)
    (requested : List Str)
    (actorRole : Str) : Except HttpError (List Str) :=
  let caps := sortedSet requested
  let bad := caps.filter fun c => !capabilities.contains c
  let excess := caps.filter fun c =>
    !(permsFor db actorRole).contains c
  if bad ≠ [] then
    .error ⟨400, lit "Unknown capabilities: " ++
      pyRepr (.list (bad.map .str))⟩
  else if excess ≠ [] then
    .error ⟨403,
      lit "You cannot grant capabilities you don't hold: " ++
        pyRepr (.list (excess.map .str))⟩
  else .ok caps

def RoleBody.slug (body : RoleBody) : Str :=
  replaceAll (lit " ") (lit "-")
    (Unicode.lower (strip (orStr body.id body.name)))

def createRole
    (db : Database)
    (actor : Principal)
    (body : RoleBody) : Except HttpError Database :=
  let rid := body.slug
  if !isSlug rid then
    .error ⟨400, lit "Role id must be a slug (a-z, 0-9, -)"⟩
  else if (rolePermissions rid).isSome then
    .error ⟨409, lit "That id is a built-in role"⟩
  else
    match checkCaps db body.capabilities actor.role with
    | .error e => .error e
    | .ok caps =>
        if (db.role? rid).isSome then
          .error ⟨409, lit "Role already exists"⟩
        else
          let row := CustomRole.mk rid (strip body.name)
            body.description caps
          .ok { db with roles := db.roles ++ [row] }

def updateRole
    (db : Database)
    (actor : Principal)
    (rid : Str)
    (body : RoleBody) : Except HttpError Database :=
  if (rolePermissions rid).isSome then
    .error ⟨400, lit "Built-in roles cannot be modified"⟩
  else
    match checkCaps db body.capabilities actor.role with
    | .error e => .error e
    | .ok caps =>
        if (db.role? rid).isNone then
          .error ⟨404, lit "Role not found"⟩
        else
          let set := fun r : CustomRole =>
            { r with
              name := strip body.name
              description := body.description
              capabilities := caps }
          .ok
            { db with
              roles := db.roles.map fun r =>
                if r.id = rid then set r else r }

end

---- Members And Keys

section

/- The upsert of `set_member_role`. -/
def setGrant (grants : List Grant) (g : Grant) : List Grant :=
  if grants.any
      (fun h => h.userId == g.userId && h.orgId == g.orgId) then
    grants.map fun h =>
      if h.userId = g.userId ∧ h.orgId = g.orgId then g else h
  else grants ++ [g]

/- Whether all capabilities of a role are held by another. -/
def withinRole (db : Database) (role holder : Str) : Bool :=
  (permsFor db role).all fun c => (permsFor db holder).contains c

def setMemberRole
    (db : Database)
    (actor : Principal)
    (orgId userId role now : Str) : Except HttpError Database :=
  let role := strip role
  if !roleExists db role then
    .error ⟨400, lit "Unknown role"⟩
  else if !withinRole db role actor.role then
    .error ⟨403,
      lit "Cannot grant a role beyond your own privileges"⟩
  else if (db.org? orgId).isNone ∧ orgId ≠ defaultOrgId then
    .error ⟨404, lit "Workspace not found"⟩
  else
    match db.user? userId with
    | none => .error ⟨404, lit "User not found"⟩
    | some u =>
        if orgOr u.orgId = orgId then
          .error ⟨400, lit
            "User's home workspace already uses their base role"⟩
        else
          let g := Grant.mk userId orgId role actor.email now
          .ok { db with grants := setGrant db.grants g }

/- The body of `create_api_key`. -/
structure ApiKeyCreate where
  name : Str
  scope : Str
  orgId : Option Str
deriving DecidableEq, Repr

/- The workspace of a new key. -/
def ApiKeyCreate.org
    (body : ApiKeyCreate)
    (actor : Principal) : Str :=
  orStr (some (strip (body.orgId.getD []))) actor.orgId

/- `create_api_key`, of a drawn id and secret. -/
def createApiKey
    (db : Database)
    (actor : Principal)
    (body : ApiKeyCreate)
    (id secretHash : Str) : Except HttpError Database :=
  let scopes := [lit "read", lit "write", lit "admin"]
  if !scopes.contains body.scope then
    .error ⟨400, lit "scope must be read|write|admin"⟩
  else if strip body.name = [] then
    .error ⟨400, lit "Key name is required"⟩
  else if body.orgId.getD [] ≠ [] ∧
      (db.org? (body.org actor)).isNone then
    .error ⟨404, lit "Workspace not found"⟩
  else
    let key := ApiKey.mk id (strip body.name) secretHash
      body.scope false (some (body.org actor))
    .ok { db with apiKeys := db.apiKeys ++ [key] }

/- The requests that hand out capabilities. -/
inductive AdminRequest where
| createUser (body : UserCreate) (id now : Str)
| updateUser (id : Str) (body : UserUpdate)
| createRole (body : RoleBody)
| updateRole (rid : Str) (body : RoleBody)
| setMemberRole (orgId userId role now : Str)
| createApiKey (body : ApiKeyCreate) (id secretHash : Str)
deriving DecidableEq, Repr

/- The capability that `require_perm` asks for. -/
def AdminRequest.perm : AdminRequest → Str
| .createApiKey .. => lit "config.manage"
| _ => lit "users.manage"

/- An id that is drawn is in none of the tables. -/
def AdminRequest.Fresh (db : Database) : AdminRequest → Prop
| .createUser _ id _ => ∀ g ∈ db.grants, g.userId ≠ id
| .createApiKey _ id _ => ∀ key ∈ db.apiKeys, key.id ≠ id
| _ => True

variable [Unicode]

/- The tables after a request that is answered. -/
def AdminRequest.run
    (a : Admission)
    (db : Database)
    (actor : Principal) :
    AdminRequest → Except HttpError Database
| .createUser body id now => Auth.createUser a db actor body id now
| .updateUser id body => Auth.updateUser db id body
| .createRole body => Auth.createRole db actor body
| .updateRole rid body => Auth.updateRole db actor rid body
| .setMemberRole orgId userId role now =>
    Auth.setMemberRole db actor orgId userId role now
| .createApiKey body id secretHash =>
    Auth.createApiKey db actor body id secretHash

/- A caller with a request. -/
structure AdminCall where
  actor : Principal
  request : AdminRequest
deriving DecidableEq, Repr

/- The next state of the tables: the caller is authenticated,
passes the gate by the role alone, and is answered. -/
structure AdminStep
    (d : Deployment)
    (a : Admission)
    (db : Database)
    (call : AdminCall)
    (next : Database) : Prop where
  caller : ∃ c, currentUser d db c = .ok call.actor
  gate : hasPerm db call.actor.role call.request.perm = true
  fresh : call.request.Fresh db
  answered : call.request.run a db call.actor = .ok next

/- A user, or an API key. -/
inductive Holder where
| user (id : Str)
| key (id : Str)
deriving DecidableEq, Repr

/- The capabilities of a user or a key in a workspace. -/
def Holds (db : Database) : Holder → Str → Str → Prop
| .user id, workspace, cap =>
    (db.user? id).isSome = true ∧
      ∃ role, workspaceRole db id workspace = some role ∧
        cap ∈ permsFor db role
| .key id, workspace, cap =>
    ∃ key ∈ db.apiKeys, key.id = id ∧
      orgOr key.orgId = workspace ∧
      cap ∈ permsFor db (scopeRole key.scope)

def Principal.holder (p : Principal) : Holder :=
  if p.isService then .key p.id else .user p.id

/- What a request assigns: to whom, in which workspace. -/
def Awarded
    (db : Database)
    (call : AdminCall)
    (x : Holder)
    (workspace cap : Str) : Prop :=
  match call.request with
  | .createUser body id _ =>
      x = .user id ∧ workspace = orgOr (some call.actor.orgId) ∧
        cap ∈ permsFor db body.role
  | .updateUser id body =>
      x = .user id ∧ ∃ u role, db.user? id = some u ∧
        body.role = some role ∧ workspace = orgOr u.orgId ∧
        cap ∈ permsFor db role
  | .createRole body =>
      ∃ id, x = .user id ∧ (db.user? id).isSome = true ∧
        workspaceRole db id workspace = some body.slug ∧
        cap ∈ body.capabilities
  | .updateRole rid body =>
      ∃ id, x = .user id ∧ (db.user? id).isSome = true ∧
        workspaceRole db id workspace = some rid ∧
        cap ∈ body.capabilities
  | .setMemberRole orgId userId role _ =>
      x = .user userId ∧ workspace = orgId ∧
        cap ∈ permsFor db (strip role)
  | .createApiKey body id _ =>
      x = .key id ∧
        workspace = orgOr (some (body.org call.actor)) ∧
        cap ∈ permsFor db (scopeRole body.scope)

/- What the step adds, the caller holds in that workspace. -/
def Contained (t : Transition Database AdminCall) : Prop :=
  ∀ x workspace cap, Holds t.post x workspace cap →
    Holds t.pre x workspace cap ∨
      Holds t.pre t.label.actor.holder workspace cap

/- What the request assigns, its receiver or the caller holds
in that workspace. -/
def Covered (t : Transition Database AdminCall) : Prop :=
  ∀ x workspace cap, Awarded t.pre t.label x workspace cap →
    Holds t.pre x workspace cap ∨
      Holds t.pre t.label.actor.holder workspace cap

end

---- Lookups After A Write

theorem permsFor_congr
    {db next : Database}
    (hRoles : next.roles = db.roles) (role : Str) :
    permsFor next role = permsFor db role := by
  unfold permsFor customPerms Database.role?
  rw [hRoles]

theorem rolePermissions_scopeRole (scope : Str) :
    (rolePermissions (scopeRole scope)).isSome = true := by
  unfold scopeRole
  split
  · decide
  split
  · decide
  · decide

theorem permsFor_of_builtin
    {role : Str}
    (hBuiltin : (rolePermissions role).isSome = true)
    (db next : Database) :
    permsFor next role = permsFor db role := by
  unfold permsFor
  cases hPerms : rolePermissions role with
  | none =>
      rw [hPerms] at hBuiltin
      cases hBuiltin
  | some perms => rfl

theorem user?_append
    {db next : Database} {u : User}
    (hUsers : next.users = db.users ++ [u]) (id : Str) :
    next.user? id =
      (db.user? id).or (if u.id = id then some u else none) := by
  unfold Database.user?
  simp only [hUsers, List.find?_append, List.find?_singleton,
    beq_iff_eq]

theorem role?_append
    {db next : Database} {r : CustomRole}
    (hRoles : next.roles = db.roles ++ [r]) (id : Str) :
    next.role? id =
      (db.role? id).or (if r.id = id then some r else none) := by
  unfold Database.role?
  simp only [hRoles, List.find?_append, List.find?_singleton,
    beq_iff_eq]

theorem role?_map
    {db next : Database} {id : Str} {set : CustomRole → CustomRole}
    (hRoles :
      next.roles = db.roles.map
        fun r => if r.id = id then set r else r)
    (hId : ∀ r, (set r).id = r.id)
    (other : Str) :
    next.role? other =
      (db.role? other).map
        (fun r => if other = id then set r else r) := by
  unfold Database.role?
  rw [hRoles]
  apply find?_map_update
  intro r hR
  rw [hId, hR]

def Grant.place (g : Grant) : Str × Str :=
  (g.userId, g.orgId)

/- The grant of a user in a workspace, as one key. -/
theorem grant?_eq
    (db : Database) (userId orgId : Str) :
    db.grant? userId orgId =
      db.grants.find?
        (fun g => g.place == (userId, orgId)) :=
  rfl

theorem setGrant_eq
    (grants : List Grant) (g : Grant) :
    setGrant grants g =
      if grants.any (fun h => h.place == g.place) then
        grants.map fun h => if h.place = g.place then g else h
      else grants ++ [g] := by
  unfold setGrant
  simp only [Grant.place, Prod.mk.injEq]
  rfl

theorem grant?_setGrant
    {db next : Database} {g : Grant}
    (hGrants : next.grants = setGrant db.grants g)
    (userId orgId : Str) :
    next.grant? userId orgId =
      if (userId, orgId) = g.place then some g
      else db.grant? userId orgId := by
  rw [grant?_eq, grant?_eq, hGrants, setGrant_eq]
  by_cases hAny :
      db.grants.any (fun h => h.place == g.place) = true
  · rw [if_pos hAny]
    have hUpdate :
        (db.grants.map fun h =>
            if h.place = g.place then (fun _ => g) h else h).find?
            (fun h => h.place == (userId, orgId)) =
          (db.grants.find?
            fun h => h.place == (userId, orgId)).map
              (fun h =>
                if (userId, orgId) = g.place then (fun _ => g) h
                else h) :=
      find?_map_update (fun _ h => by rw [← h]) db.grants
        (userId, orgId)
    rw [hUpdate]
    split
    · rename_i hHere
      rw [hHere]
      have hSome :
          (db.grants.find?
            fun h => h.place == g.place).isSome = true := by
        rw [List.find?_isSome]
        simpa using hAny
      rcases Option.isSome_iff_exists.mp hSome with ⟨h, hH⟩
      rw [hH]
      rfl
    · rw [Option.map_id']
  · rw [if_neg hAny, List.find?_append, List.find?_singleton]
    by_cases hHere : (userId, orgId) = g.place
    · have hNone :
          db.grants.find? (fun h => h.place == g.place) =
            none := by
        rw [List.find?_eq_none]
        intro h hH hSame
        apply hAny
        rw [List.any_eq_true]
        exact ⟨h, hH, hSame⟩
      rw [hHere, hNone, if_pos rfl, BEq.rfl, if_pos rfl]
      rfl
    · rw [if_neg hHere, if_neg, Option.or_none]
      intro hSame
      rw [beq_iff_eq] at hSame
      exact hHere hSame.symm

---- What A Step Adds

section

theorem workspaceRole_congr
    {db next : Database} {id : Str}
    (hUser : next.user? id = db.user? id)
    (hGrants : next.grants = db.grants) (workspace : Str) :
    workspaceRole next id workspace =
      workspaceRole db id workspace := by
  unfold workspaceRole Database.grant?
  rw [hUser, hGrants]

/- At home a user has the role of the row. -/
theorem workspaceRole_home
    {db : Database} {id workspace : Str} {u : User}
    (hUser : db.user? id = some u)
    (hHome : orgOr u.orgId = workspace) :
    workspaceRole db id workspace = some u.role := by
  unfold workspaceRole
  rw [hUser]
  exact if_pos hHome

/- Elsewhere a user has the role that is granted. -/
theorem workspaceRole_away
    {db : Database} {id workspace : Str} {u : User}
    (hUser : db.user? id = some u)
    (hAway : orgOr u.orgId ≠ workspace) :
    workspaceRole db id workspace =
      (db.grant? id workspace).map Grant.role := by
  unfold workspaceRole
  rw [hUser]
  exact if_neg hAway

/- The role a principal acts with is its role in the
workspace it acts in. -/
theorem holds_of_caller
    {d : Deployment} {db : Database} {c : Credentials}
    {p : Principal} {cap : Str}
    (hCaller : currentUser d db c = .ok p)
    (hCap : cap ∈ permsFor db p.role) :
    Holds db p.holder p.orgId cap := by
  rcases currentUser_ok hCaller with
    ⟨token, _, _, hService⟩ | ⟨token, payload, _, _, _, hUser⟩
  · unfold principalFromApiKey at hService
    split at hService
    · cases hService
    rename_i key hKey
    split at hService
    · cases hService
    cases hService
    exact ⟨key, List.mem_of_find?_eq_some hKey, rfl, rfl, hCap⟩
  · rcases principalFromPayload_ok hUser with
      ⟨sub, u, _, hFound, _, hActs, _⟩
    rcases actingPrincipal_ok hActs with
      ⟨hId, hHuman, hWhere⟩
    have hSelf : db.user? p.id = some u := by
      rw [hId, (mem_of_user? hFound).2]
      exact hFound
    have hHolder : p.holder = .user p.id := by
      unfold Principal.holder
      rw [hHuman]
      rfl
    rw [hHolder]
    refine ⟨by rw [hSelf]; rfl, p.role, ?_, hCap⟩
    rcases hWhere with ⟨hHome, hRole⟩ | ⟨_, hAway⟩
    · rw [workspaceRole_home hSelf hHome.symm, hRole]
    · rw [hId]
      exact hAway

/- A user holds by the role there. -/
theorem holds_user_iff
    (db : Database) (id workspace cap : Str) :
    Holds db (.user id) workspace cap ↔
      (db.user? id).isSome = true ∧
        ∃ role, workspaceRole db id workspace = some role ∧
          cap ∈ permsFor db role :=
  Iff.rfl

/- What a user holds is unchanged where the row, the grants
and the roles are. -/
theorem holds_user_congr
    {db next : Database} {id : Str}
    (hUser : next.user? id = db.user? id)
    (hGrants : next.grants = db.grants)
    (hRoles : next.roles = db.roles) (workspace cap : Str) :
    Holds next (.user id) workspace cap ↔
      Holds db (.user id) workspace cap := by
  rw [holds_user_iff, holds_user_iff, hUser]
  simp only [workspaceRole_congr hUser hGrants,
    permsFor_congr hRoles]

/- What a key holds is unchanged where the keys are. -/
theorem holds_key_congr
    {db next : Database}
    (hKeys : next.apiKeys = db.apiKeys) (id workspace cap : Str) :
    Holds next (.key id) workspace cap ↔
      Holds db (.key id) workspace cap := by
  simp only [Holds, hKeys,
    permsFor_of_builtin (rolePermissions_scopeRole _) db next]

variable [Unicode]

/- What a user has that was just created. -/
theorem holds_createUser
    {a : Admission} {db next : Database} {actor : Principal}
    {body : UserCreate} {id now : Str}
    (hFresh : ∀ g ∈ db.grants, g.userId ≠ id)
    (hOk : createUser a db actor body id now = .ok next)
    (x : Holder) (workspace cap : Str) :
    Holds next x workspace cap ↔
      Holds db x workspace cap ∨
        x = .user id ∧ workspace = orgOr (some actor.orgId) ∧
          cap ∈ permsFor db body.role := by
  rcases createUser_ok hOk with ⟨hNew, hNext⟩
  have hUsers :
      next.users = db.users ++ [newUser a actor body id now] := by
    rw [hNext]
  have hGrants : next.grants = db.grants := by rw [hNext]
  have hRoles : next.roles = db.roles := by rw [hNext]
  have hKeys : next.apiKeys = db.apiKeys := by rw [hNext]
  clear hNext hOk
  have hLookup := user?_append hUsers
  cases x with
  | key kid =>
      rw [holds_key_congr hKeys]
      simp
  | user uid =>
      by_cases hSame : uid = id
      · have hUser :
            next.user? id = some (newUser a actor body id now) := by
          rw [hLookup, hNew, Option.none_or]
          exact if_pos rfl
        have hGrant : next.grant? id workspace = none := by
          unfold Database.grant?
          rw [List.find?_eq_none, hGrants]
          intro g hG hHere
          simp only [Bool.and_eq_true, beq_iff_eq] at hHere
          exact hFresh g hG hHere.1
        have hNothing : ¬ Holds db (.user id) workspace cap := by
          rintro ⟨hSome, _⟩
          rw [hNew] at hSome
          cases hSome
        rw [hSame, holds_user_iff, hUser]
        simp only [hNothing, false_or, Option.isSome_some,
          true_and, workspaceRole, hUser, hGrant,
          Option.map_none, permsFor_congr hRoles, newUser]
        constructor
        · rintro ⟨role, hRole, hCap⟩
          split at hRole
          · rename_i hOrg
            rw [← Option.some.inj hRole] at hCap
            exact ⟨hOrg.symm, hCap⟩
          · cases hRole
        · rintro ⟨hOrg, hCap⟩
          exact ⟨body.role, if_pos hOrg.symm, hCap⟩
      · have hUser : next.user? uid = db.user? uid := by
          rw [hLookup, if_neg, Option.or_none]
          exact fun h => hSame h.symm
        rw [holds_user_congr hUser hGrants hRoles]
        simp [hSame]

omit [Unicode] in
/- What a user has at home whose role was set. -/
theorem holds_updateUser
    {db next : Database} {id : Str} {body : UserUpdate}
    (hOk : updateUser db id body = .ok next) (x : Holder)
    (workspace cap : Str) :
    (Holds next x workspace cap →
      Holds db x workspace cap ∨
        x = .user id ∧ ∃ u role, db.user? id = some u ∧
          body.role = some role ∧ workspace = orgOr u.orgId ∧
          cap ∈ permsFor db role) ∧
    ((x = .user id ∧ ∃ u role, db.user? id = some u ∧
        body.role = some role ∧ workspace = orgOr u.orgId ∧
        cap ∈ permsFor db role) →
      Holds next x workspace cap) := by
  rcases updateUser_ok hOk with ⟨hSome, hNext⟩
  have hUsers : next.users = updateUsers db.users id body.apply := by
    rw [hNext]
  have hGrants : next.grants = db.grants := by rw [hNext]
  have hRoles : next.roles = db.roles := by rw [hNext]
  have hKeys : next.apiKeys = db.apiKeys := by rw [hNext]
  clear hNext hOk
  have hLookup := user?_updateUsers hUsers body.apply_id
  rcases Option.isSome_iff_exists.mp hSome with ⟨u, hU⟩
  have hUser : next.user? id = some (body.apply u) := by
    rw [hLookup, hU, Option.map_some, if_pos rfl]
  cases x with
  | key kid =>
      rw [holds_key_congr hKeys]
      exact ⟨Or.inl, fun h => by cases h.1⟩
  | user uid =>
      by_cases hSame : uid = id
      · rw [hSame]
        constructor
        · rintro ⟨_, role, hRole, hCap⟩
          rw [permsFor_congr hRoles] at hCap
          by_cases hHome : orgOr u.orgId = workspace
          · rw [workspaceRole_home hUser hHome,
              Option.some.injEq] at hRole
            cases hBody : body.role with
            | none =>
                simp only [UserUpdate.apply, hBody,
                  Option.getD_none] at hRole
                left
                exact ⟨hSome, u.role, workspaceRole_home hU hHome,
                  by rw [hRole]; exact hCap⟩
            | some r =>
                simp only [UserUpdate.apply, hBody,
                  Option.getD_some] at hRole
                right
                exact ⟨rfl, u, r, hU, rfl, hHome.symm,
                  by rw [hRole]; exact hCap⟩
          · rw [workspaceRole_away hUser hHome] at hRole
            unfold Database.grant? at hRole
            rw [hGrants] at hRole
            left
            refine ⟨hSome, role, ?_, hCap⟩
            rw [workspaceRole_away hU hHome]
            exact hRole
        · rintro ⟨_, v, role, hV, hBody, hHome, hCap⟩
          rw [hU, Option.some.injEq] at hV
          rw [← hV] at hHome
          refine ⟨by rw [hUser]; rfl, role, ?_, ?_⟩
          · rw [workspaceRole_home hUser hHome.symm]
            simp only [UserUpdate.apply, hBody,
              Option.getD_some]
          · rw [permsFor_congr hRoles]
            exact hCap
      · have hOther : next.user? uid = db.user? uid := by
          rw [hLookup]
          simp only [if_neg hSame, Option.map_id']
        rw [holds_user_congr hOther hGrants hRoles]
        refine ⟨Or.inl, fun h => ?_⟩
        exact absurd (Holder.user.inj h.1) hSame

theorem checkCaps_ok
    {db : Database} {requested caps : List Str} {actorRole : Str}
    (hOk : checkCaps db requested actorRole = .ok caps) :
    caps = sortedSet requested ∧
      ∀ cap ∈ caps, capabilities.contains cap = true := by
  unfold checkCaps at hOk
  simp only at hOk
  split at hOk
  · cases hOk
  rename_i hBad
  split at hOk
  · cases hOk
  cases hOk
  refine ⟨rfl, ?_⟩
  intro cap hCap
  rw [ne_eq, not_not, List.filter_eq_nil_iff] at hBad
  simpa using hBad cap hCap

/- A row of the roles that is set, and what it replaces. -/
structure RoleSet
    (db next : Database)
    (rid : Str)
    (caps : List Str) : Prop where
  users : next.users = db.users
  grants : next.grants = db.grants
  keys : next.apiKeys = db.apiKeys
  custom : rolePermissions rid = none
  same : ∀ role, role ≠ rid → permsFor next role = permsFor db role
  set : ∀ cap, cap ∈ permsFor next rid ↔ cap ∈ caps

theorem createRole_ok
    {db next : Database} {actor : Principal} {body : RoleBody}
    (hOk : createRole db actor body = .ok next) :
    RoleSet db next body.slug body.capabilities := by
  unfold createRole at hOk
  simp only at hOk
  split at hOk
  · cases hOk
  split at hOk
  · cases hOk
  rename_i hBuiltin
  split at hOk
  · cases hOk
  rename_i caps hCaps
  split at hOk
  · cases hOk
  rename_i hNew
  rcases checkCaps_ok hCaps with ⟨hList, hKnown⟩
  have hCustom : rolePermissions body.slug = none := by
    simpa using hBuiltin
  have hNone : db.role? body.slug = none := by
    simpa using hNew
  rw [Except.ok.injEq] at hOk
  have hRoles :
      next.roles = db.roles ++
        [⟨body.slug, strip body.name, body.description, caps⟩] := by
    rw [← hOk]
  have hLookup := role?_append hRoles
  refine ⟨by rw [← hOk], by rw [← hOk], by rw [← hOk],
    hCustom, ?_, ?_⟩
  · intro role hOther
    unfold permsFor customPerms
    rw [hLookup, if_neg (fun h => hOther h.symm),
      Option.or_none]
  · intro cap
    unfold permsFor customPerms
    rw [hCustom, hLookup, hNone, if_pos rfl]
    simp only [Option.none_or, List.mem_filter]
    rw [hList] at hKnown ⊢
    constructor
    · exact fun h => mem_sortedSet.mp h.1
    · exact fun h => ⟨mem_sortedSet.mpr h,
        hKnown cap (mem_sortedSet.mpr h)⟩

theorem updateRole_ok
    {db next : Database} {actor : Principal} {rid : Str}
    {body : RoleBody}
    (hOk : updateRole db actor rid body = .ok next) :
    RoleSet db next rid body.capabilities := by
  unfold updateRole at hOk
  split at hOk
  · cases hOk
  rename_i hBuiltin
  split at hOk
  · cases hOk
  rename_i caps hCaps
  split at hOk
  · cases hOk
  rename_i hOld
  rcases checkCaps_ok hCaps with ⟨hList, hKnown⟩
  have hCustom : rolePermissions rid = none := by
    simpa using hBuiltin
  rw [Except.ok.injEq] at hOk
  have hRoles :
      next.roles = db.roles.map fun r =>
        if r.id = rid then
          { r with
            name := strip body.name
            description := body.description
            capabilities := caps }
        else r := by
    rw [← hOk]
  have hLookup := role?_map hRoles (fun _ => rfl)
  refine ⟨by rw [← hOk], by rw [← hOk], by rw [← hOk],
    hCustom, ?_, ?_⟩
  · intro role hOther
    unfold permsFor customPerms
    rw [hLookup]
    simp only [if_neg hOther, Option.map_id']
  · intro cap
    rcases Option.ne_none_iff_exists'.mp
      (by simpa using hOld : db.role? rid ≠ none) with ⟨r, hR⟩
    unfold permsFor customPerms
    rw [hCustom, hLookup, hR]
    simp only [Option.map_some, if_true, List.mem_filter]
    rw [hList] at hKnown ⊢
    constructor
    · exact fun h => mem_sortedSet.mp h.1
    · exact fun h => ⟨mem_sortedSet.mpr h,
        hKnown cap (mem_sortedSet.mpr h)⟩

omit [Unicode] in
/- What the users of a role have after it was set. -/
theorem holds_roleSet
    {db next : Database} {rid : Str} {caps : List Str}
    (hSet : RoleSet db next rid caps) (x : Holder)
    (workspace cap : Str) :
    (Holds next x workspace cap →
      Holds db x workspace cap ∨
        ∃ id, x = .user id ∧ (db.user? id).isSome = true ∧
          workspaceRole db id workspace = some rid ∧
          cap ∈ caps) ∧
    ((∃ id, x = .user id ∧ (db.user? id).isSome = true ∧
        workspaceRole db id workspace = some rid ∧
        cap ∈ caps) →
      Holds next x workspace cap) := by
  cases x with
  | key kid =>
      rw [holds_key_congr hSet.keys]
      refine ⟨Or.inl, ?_⟩
      rintro ⟨id, hKey, _⟩
      cases hKey
  | user uid =>
      have hUser : next.user? uid = db.user? uid := by
        unfold Database.user?
        rw [hSet.users]
      have hRole := workspaceRole_congr hUser hSet.grants workspace
      constructor
      · rintro ⟨hSome, role, hHere, hCap⟩
        rw [hUser] at hSome
        rw [hRole] at hHere
        by_cases hSame : role = rid
        · rw [hSame] at hHere hCap
          exact Or.inr
            ⟨uid, rfl, hSome, hHere, (hSet.set cap).mp hCap⟩
        · rw [hSet.same role hSame] at hCap
          exact Or.inl ⟨hSome, role, hHere, hCap⟩
      · rintro ⟨id, hId, hSome, hHere, hCap⟩
        rw [← Holder.user.inj hId] at hSome hHere
        refine ⟨by rw [hUser]; exact hSome, rid, ?_,
          (hSet.set cap).mpr hCap⟩
        rw [hRole]
        exact hHere

omit [Unicode] in
/- What a member has in the workspace of the grant. -/
theorem holds_setMemberRole
    {db next : Database} {actor : Principal}
    {orgId userId role now : Str}
    (hOk :
      setMemberRole db actor orgId userId role now = .ok next)
    (x : Holder)
    (workspace cap : Str) :
    (Holds next x workspace cap →
      Holds db x workspace cap ∨
        x = .user userId ∧ workspace = orgId ∧
          cap ∈ permsFor db (strip role)) ∧
    ((x = .user userId ∧ workspace = orgId ∧
        cap ∈ permsFor db (strip role)) →
      Holds next x workspace cap) := by
  unfold setMemberRole at hOk
  simp only at hOk
  split at hOk
  · cases hOk
  split at hOk
  · cases hOk
  split at hOk
  · cases hOk
  split at hOk
  · cases hOk
  rename_i u hU
  split at hOk
  · cases hOk
  rename_i hAway
  rw [Except.ok.injEq] at hOk
  have hGrants :
      next.grants = setGrant db.grants
        ⟨userId, orgId, strip role, actor.email, now⟩ := by
    rw [← hOk]
  have hRoles : next.roles = db.roles := by rw [← hOk]
  have hKeys : next.apiKeys = db.apiKeys := by rw [← hOk]
  have hUser : ∀ id, next.user? id = db.user? id := by
    intro id
    rw [← hOk]
    rfl
  clear hOk
  have hLookup := grant?_setGrant hGrants
  cases x with
  | key kid =>
      rw [holds_key_congr hKeys]
      exact ⟨Or.inl, fun h => by cases h.1⟩
  | user uid =>
      by_cases hHere : uid = userId ∧ workspace = orgId
      · rcases hHere with ⟨rfl, rfl⟩
        have hGrant : workspaceRole next uid workspace =
            some (strip role) := by
          rw [workspaceRole_away ((hUser uid).trans hU) hAway,
            hLookup]
          exact congrArg (Option.map Grant.role) (if_pos rfl)
        rw [holds_user_iff, hGrant, hUser]
        constructor
        · rintro ⟨_, r, hR, hCap⟩
          rw [permsFor_congr hRoles, ← Option.some.inj hR] at hCap
          exact Or.inr ⟨rfl, rfl, hCap⟩
        · rintro ⟨_, _, hCap⟩
          refine ⟨by rw [hU]; rfl, _, rfl, ?_⟩
          rw [permsFor_congr hRoles]
          exact hCap
      · have hSame : workspaceRole next uid workspace =
            workspaceRole db uid workspace := by
          unfold workspaceRole
          rw [hUser, hLookup, if_neg]
          intro hPlace
          exact hHere (Prod.mk.inj hPlace)
        rw [holds_user_iff, holds_user_iff, hSame, hUser]
        simp only [permsFor_congr hRoles]
        refine ⟨Or.inl, ?_⟩
        rintro ⟨hX, hW, _⟩
        exact absurd ⟨Holder.user.inj hX, hW⟩ hHere

omit [Unicode] in
/- What a new key has. -/
theorem holds_createApiKey
    {db next : Database} {actor : Principal} {body : ApiKeyCreate}
    {id secretHash : Str}
    (hOk :
      createApiKey db actor body id secretHash = .ok next)
    (x : Holder)
    (workspace cap : Str) :
    Holds next x workspace cap ↔
      Holds db x workspace cap ∨
        x = .key id ∧
          workspace = orgOr (some (body.org actor)) ∧
          cap ∈ permsFor db (scopeRole body.scope) := by
  unfold createApiKey at hOk
  simp only at hOk
  split at hOk
  · cases hOk
  split at hOk
  · cases hOk
  split at hOk
  · cases hOk
  rw [Except.ok.injEq] at hOk
  have hKeys :
      next.apiKeys = db.apiKeys ++
        [⟨id, strip body.name, secretHash, body.scope, false,
          some (body.org actor)⟩] := by
    rw [← hOk]
  have hUser : ∀ id, next.user? id = db.user? id := by
    intro id
    rw [← hOk]
    rfl
  have hGrants : next.grants = db.grants := by rw [← hOk]
  have hRoles : next.roles = db.roles := by rw [← hOk]
  clear hOk
  cases x with
  | user uid =>
      rw [holds_user_congr (hUser uid) hGrants hRoles]
      simp
  | key kid =>
      simp only [Holds, hKeys, List.mem_append,
        List.mem_singleton, permsFor_congr hRoles,
        Holder.key.injEq]
      constructor
      · rintro ⟨key, hOld | rfl, hId, hOrg, hCap⟩
        · exact Or.inl ⟨key, hOld, hId, hOrg, hCap⟩
        · exact Or.inr ⟨hId.symm, hOrg.symm, hCap⟩
      · rintro (⟨key, hOld, hRest⟩ | ⟨rfl, hOrg, hCap⟩)
        · exact ⟨key, Or.inl hOld, hRest⟩
        · exact ⟨_, Or.inr rfl, rfl, hOrg.symm, hCap⟩

/- A step adds what its request assigns. -/
theorem holds_of_step
    {d : Deployment} {a : Admission} {db next : Database}
    {call : AdminCall}
    (hStep : AdminStep d a db call next) (x : Holder)
    (workspace cap : Str) :
    (Holds next x workspace cap →
      Holds db x workspace cap ∨
        Awarded db call x workspace cap) ∧
    (Awarded db call x workspace cap →
      Holds next x workspace cap) := by
  have hOk := hStep.answered
  have hFresh := hStep.fresh
  unfold Awarded
  cases hRequest : call.request with
  | createUser body id now =>
      rw [hRequest] at hOk hFresh
      have hIff := holds_createUser hFresh hOk x workspace cap
      exact ⟨hIff.mp, fun h => hIff.mpr (Or.inr h)⟩
  | updateUser id body =>
      rw [hRequest] at hOk
      exact holds_updateUser hOk x workspace cap
  | createRole body =>
      rw [hRequest] at hOk
      exact holds_roleSet (createRole_ok hOk) x workspace cap
  | updateRole rid body =>
      rw [hRequest] at hOk
      exact holds_roleSet (updateRole_ok hOk) x workspace cap
  | setMemberRole orgId userId role now =>
      rw [hRequest] at hOk
      exact holds_setMemberRole hOk x workspace cap
  | createApiKey body id secretHash =>
      rw [hRequest] at hOk
      have hIff := holds_createApiKey hOk x workspace cap
      exact ⟨hIff.mp, fun h => hIff.mpr (Or.inr h)⟩

/- A step adds no more than the caller holds, exactly when
its request is covered. -/
theorem contained_iff
    {d : Deployment} {a : Admission} {db next : Database}
    {call : AdminCall}
    (hStep : AdminStep d a db call next) :
    Contained ⟨db, call, next⟩ ↔ Covered ⟨db, call, next⟩ := by
  constructor
  · intro hContained x workspace cap hAwarded
    exact hContained x workspace cap
      ((holds_of_step hStep x workspace cap).2 hAwarded)
  · intro hCovered x workspace cap hHolds
    rcases (holds_of_step hStep x workspace cap).1 hHolds with
      hOld | hAwarded
    · exact Or.inl hOld
    · exact hCovered x workspace cap hAwarded

/- No request of a run makes anyone hold what the caller does
not, exactly when every request is covered; and then what
is held at the end and was not at the start, some caller
held in that workspace at the time of the request. -/
theorem no_escalation_iff
    {d : Deployment}
    {a : Admission}
    {start db : Database}
    {trace : List (Transition Database AdminCall)}
    (hRun : Run (AdminStep d a) start trace db) :
    ((∀ t ∈ trace, Contained t) ↔ ∀ t ∈ trace, Covered t) ∧
    ((∀ t ∈ trace, Covered t) →
      ∀ x workspace cap, Holds db x workspace cap →
        Holds start x workspace cap ∨
          ∃ t ∈ trace,
            Holds t.pre t.label.actor.holder workspace cap) := by
  induction hRun with
  | nil db => simp
  | @cons db mid last call rest hStep _ ih =>
      have hHere := contained_iff hStep
      constructor
      · rw [List.forall_mem_cons, List.forall_mem_cons, hHere,
          ih.1]
      · intro hCovered x workspace cap hHolds
        rw [List.forall_mem_cons] at hCovered
        rcases ih.2 hCovered.2 x workspace cap hHolds with
          hMid | ⟨t, hT, hCaller⟩
        · rcases hHere.mpr hCovered.1 x workspace cap hMid with
            hStart | hCaller
          · exact Or.inl hStart
          · exact Or.inr ⟨_, List.mem_cons_self, hCaller⟩
        · exact Or.inr ⟨t, List.mem_cons_of_mem _ hT, hCaller⟩

end

---- A Manager

/- `str.lower` and its like on ASCII. -/
local instance rolesUnicode : Unicode := asciiTables

/- A deployment that knows the session token of a manager
and admits every user. -/
def managerDeployment : Deployment where
  multiTenant := true
  jwtTtlMinutes := 60
  decodeToken token :=
    if token = lit "h.p.s" then
      .ok ⟨some (lit "u2"), none, none, 0⟩
    else .error ⟨401, lit "Invalid token"⟩
  sha256 _ := []
  microsSince _ := 0

def openAdmission : Admission where
  passwordError _ _ _ := none
  seatError _ := none
  quotaError _ _ := none
  hashPassword _ := ([], [])

def managerUser : User where
  id := lit "u2"
  email := lit "mia@corp.test"
  name := lit "Mia"
  role := lit "manager"
  status := lit "active"
  passwordHash := []
  passwordSalt := []
  avatarColor := lit "#7A3CFF"
  mfaEnabled := false
  mfaSecret := none
  lastLogin := none
  createdAt := lit "2026-01-01T00:00:00+00:00"
  orgId := some defaultOrgId
  tokenEpoch := 0

def managerDatabase : Database where
  users := [managerUser]
  sessions := []
  orgs := []
  grants := []
  roles := []
  apiKeys := []
  sessionTimeout := none

/- The creation of a user with a role. -/
def hire (role : Str) : AdminCall where
  actor := managerUser.principal
  request :=
    .createUser
      { email := lit "new@corp.test"
        name := lit "New"
        role := role
        password := lit "Correct-Horse-1"
        avatarColor := lit "#7A3CFF" }
      (lit "u3") (lit "2026-02-01T00:00:00+00:00")

/- The tables after it. -/
def hired (role : Str) : Database :=
  { managerDatabase with
    users :=
      [managerUser,
        newUser openAdmission managerUser.principal
          { email := lit "new@corp.test"
            name := lit "New"
            role := role
            password := lit "Correct-Horse-1"
            avatarColor := lit "#7A3CFF" }
          (lit "u3") (lit "2026-02-01T00:00:00+00:00")] }

theorem step_hire
    {role : Str}
    (hKnown : roleExists managerDatabase role = true) :
    AdminStep managerDeployment openAdmission managerDatabase
      (hire role) (hired role) := by
  have hCaller :
      currentUser managerDeployment managerDatabase
          ⟨some (lit "h.p.s"), none, none⟩ =
        .ok managerUser.principal := by
    decide
  have hGate :
      hasPerm managerDatabase (lit "manager")
        (lit "users.manage") = true := by
    decide
  refine ⟨⟨_, hCaller⟩, hGate, ?_, ?_⟩
  · intro g hG
    cases hG
  · have hEmail :
        managerDatabase.users.any
          (·.email == Unicode.lower (lit "new@corp.test")) =
            false := by
      decide
    have hNew : managerDatabase.user? (lit "u3") = none := by
      decide
    simp only [hire, AdminRequest.run, createUser,
      createUserError, hKnown, hEmail, hNew, openAdmission]
    rfl

/- A manager that hires an analyst hands out nothing that a
manager does not have. -/
theorem hire_analyst_contained :
    Contained ⟨managerDatabase, hire (lit "analyst"),
      hired (lit "analyst")⟩ := by
  have hStep :
      AdminStep managerDeployment openAdmission managerDatabase
        (hire (lit "analyst")) (hired (lit "analyst")) :=
    step_hire (by decide)
  apply (no_escalation_iff (.cons hStep (.nil _))).1.mpr ?_ _
    (List.mem_singleton.mpr rfl)
  intro t hT
  rw [List.mem_singleton.mp hT]
  rintro x workspace cap ⟨_, hOrg, hCap⟩
  right
  rcases hStep.caller with ⟨c, hCaller⟩
  have hSubset : withinRole managerDatabase (lit "analyst")
      (lit "manager") = true := by
    decide
  unfold withinRole at hSubset
  rw [List.all_eq_true] at hSubset
  have hHolds := holds_of_caller hCaller
    (List.contains_iff_mem.mp (hSubset cap hCap))
  rw [hOrg]
  exact hHolds

/- A manager that hires an administrator has made a user that
may delete users, which the manager may not. -/
theorem manager_escalates :
    AdminStep managerDeployment openAdmission managerDatabase
      (hire (lit "admin")) (hired (lit "admin")) ∧
    ¬ Contained ⟨managerDatabase, hire (lit "admin"),
      hired (lit "admin")⟩ := by
  refine ⟨step_hire (by decide), ?_⟩
  intro hContained
  have hNew :
      Holds (hired (lit "admin")) (.user (lit "u3"))
        defaultOrgId (lit "users.delete") :=
    ⟨by decide, lit "admin", by decide,
      by decide⟩
  rcases hContained _ _ _ hNew with
    ⟨hOld, _⟩ | ⟨_, role, hRole, hCap⟩
  · revert hOld
    decide
  · have hManager :
        workspaceRole managerDatabase (lit "u2") defaultOrgId =
          some (lit "manager") := by
      decide
    have hSame := hManager.symm.trans hRole
    rw [← Option.some.inj hSame] at hCap
    revert hCap
    decide

end ThreatOrbit.Auth
