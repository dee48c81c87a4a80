import ThreatOrbit.Lib.Run
import ThreatOrbit.Auth.Taxii

/-
  Break-glass: sessions that grant every capability for a
  time, to users whose role may open one.
-/

---- Sessions

namespace ThreatOrbit.Auth

open Lib

/- A row of `break_glass`. Times are in whole seconds. -/
structure GlassRow where
  userId : Str
  reason : Str
  activatedBy : Str
  activatedAt : Nat
  expiresAt : Nat
  orgId : Str
  deactivatedAt : Option Nat
deriving DecidableEq, Repr

/- `break_glass.use`. -/
def breakGlassUse : Str :=
  lit "break_glass.use"

def defaultMinutes : Int := 60

/- A session that is neither deactivated nor expired. -/
def GlassRow.live (now : Nat) (r : GlassRow) : Bool :=
  r.deactivatedAt.isNone && now < r.expiresAt

/- The users with a live session. -/
def liveUsers (now : Nat) (rows : List GlassRow) : List Str :=
  (rows.filter (GlassRow.live now)).map GlassRow.userId

/- `deactivate`: the sessions of a user that are open end. -/
def deactivate
    (now : Nat)
    (userId : Str)
    (rows : List GlassRow) : List GlassRow :=
  rows.map fun r =>
    if r.userId = userId ∧ r.deactivatedAt = none then
      { r with deactivatedAt := some now }
    else r

/- The length of a session in minutes, as it is clamped. -/
def clampMinutes (maxMinutes : Int) (minutes : Option Int) : Nat :=
  let asked :=
    match minutes with
    | none | some 0 => defaultMinutes
    | some m => m
  (max 1 (min asked maxMinutes)).toNat

/- The longest session there is, in seconds. -/
def maxSession (maxMinutes : Int) : Nat :=
  (max 1 maxMinutes).toNat * 60

def activate
    (maxMinutes : Int)
    (now : Nat)
    (user : Principal)
    (reason : Str)
    (minutes : Option Int)
    (rows : List GlassRow) : List GlassRow :=
  deactivate now user.id rows ++
    [{ userId := user.id
       reason := reason
       activatedBy := user.email
       activatedAt := now
       expiresAt := now + clampMinutes maxMinutes minutes * 60
       orgId := orgOr (some user.orgId)
       deactivatedAt := none }]

def breakGlassActivate
    (maxMinutes : Int)
    (d : Deployment)
    (db : Database)
    (now : Nat)
    (c : Credentials)
    (reason : Str)
    (minutes : Option Int)
    (rows : List GlassRow) :
    Except HttpError (List GlassRow) := do
  let user ←
    requirePerm d db (liveUsers now rows) [breakGlassUse] c
  let reason := strip reason
  if reason.length < 3 then
    throw ⟨400, lit "A reason (>=3 chars) is required"⟩
  return activate maxMinutes now user reason minutes rows

---- Calls Of Users

/- The role of a user in some workspace may open a session. -/
def holdsSomewhere (db : Database) (userId : Str) : Bool :=
  ((db.user? userId).any fun u =>
      hasPerm db u.role breakGlassUse) ||
    db.grants.any fun g =>
      g.userId == userId &&
        (workspaceRole db userId g.orgId).any fun role =>
          hasPerm db role breakGlassUse

/- The sessions, the accounts, the clock, and when a role of
each user in some workspace last held the capability. -/
structure GlassState where
  rows : List GlassRow
  db : Database
  now : Nat
  lastHeld : Str → Option Nat

/- When the capability was last held, at a time. -/
def heldAfter
    (db : Database)
    (now : Nat)
    (lastHeld : Str → Option Nat) : Str → Option Nat :=
  fun userId =>
    if holdsSomewhere db userId then some now
    else lastHeld userId

/- What a user asks for, with the state of the deployment at
that moment. -/
inductive GlassCall where
| wait (later : Nat)
| change (db : Database)
| activate
    (d : Deployment) (c : Credentials)
    (reason : Str) (minutes : Option Int)
| deactivate (d : Deployment) (c : Credentials)
| request
    (d : Deployment) (c : Credentials) (perms : List Str)

/- The rows after a call that may be refused. -/
def rowsAfter
    (rows : List GlassRow) :
    Except HttpError (List GlassRow) → List GlassRow
| .ok next => next
| .error _ => rows

/- Time passes, roles or other rows change, or a user who is
signed in makes a call. -/
inductive GlassStep
    (maxMinutes : Int) :
    GlassState → GlassCall → GlassState → Prop
| wait
    (s : GlassState) (later : Nat)
    (hLater : s.now ≤ later) :
    GlassStep maxMinutes s (.wait later)
      { s with
        now := later
        lastHeld := heldAfter s.db later s.lastHeld }
| change (s : GlassState) (db : Database) :
    GlassStep maxMinutes s (.change db)
      { s with
        db
        lastHeld := heldAfter db s.now s.lastHeld }
| activate
    (s : GlassState) (d : Deployment) (c : Credentials)
    (reason : Str) (minutes : Option Int) (user : Principal)
    (hUser : currentUser d s.db c = .ok user)
    (hPerson : user.isService = false) :
    GlassStep maxMinutes s (.activate d c reason minutes)
      { s with
        rows := rowsAfter s.rows
          (breakGlassActivate maxMinutes d s.db s.now c reason
            minutes s.rows) }
| deactivate
    (s : GlassState) (d : Deployment) (c : Credentials)
    (user : Principal)
    (hUser : currentUser d s.db c = .ok user)
    (hPerson : user.isService = false) :
    GlassStep maxMinutes s (.deactivate d c)
      { s with rows := deactivate s.now user.id s.rows }
| request
    (s : GlassState) (d : Deployment) (c : Credentials)
    (perms : List Str) (user : Principal)
    (hUser : currentUser d s.db c = .ok user)
    (hPerson : user.isService = false) :
    GlassStep maxMinutes s (.request d c perms) s

/- The role of a principal grants one of some permissions. -/
def ownGrant
    (db : Database)
    (perms : List Str)
    (user : Principal) : Bool :=
  perms.any (hasPerm db user.role)

/- A request is granted beyond the role's own permissions only
while the longest session after the last time a role of the
user held the capability lasts, and in the workspace where
the session was opened. -/
def GlassContained
    (maxMinutes : Int)
    (e : Transition GlassState GlassCall) : Prop :=
  ∀ d c perms user,
    e.label = .request d c perms →
    requirePerm d e.pre.db (liveUsers e.pre.now e.pre.rows)
      perms c = .ok user →
    ownGrant e.pre.db perms user = false →
    (∃ t, e.pre.lastHeld user.id = some t ∧
        e.pre.now < t + maxSession maxMinutes) ∧
      ∀ r ∈ e.pre.rows, r.live e.pre.now = true →
        r.userId = user.id → r.orgId = orgOr (some user.orgId)

/- A request that a session would grant is made in the
workspace where it was opened. -/
def RequestedThere (e : Transition GlassState GlassCall) : Prop :=
  ∀ d c perms user,
    e.label = .request d c perms →
    currentUser d e.pre.db c = .ok user →
    ownGrant e.pre.db perms user = false →
    isActive (liveUsers e.pre.now e.pre.rows) user.id = true →
    ∀ r ∈ e.pre.rows, r.live e.pre.now = true →
      r.userId = user.id → r.orgId = orgOr (some user.orgId)

/- No session is opened under a session, by a user whose role
does not hold the capability. -/
def OpenedByRole (e : Transition GlassState GlassCall) : Prop :=
  ∀ d c reason minutes user,
    e.label = .activate d c reason minutes →
    currentUser d e.pre.db c = .ok user →
    isActive (liveUsers e.pre.now e.pre.rows) user.id = true →
    hasPerm e.pre.db user.role breakGlassUse = true

/- The condition on a call. -/
def FitsGlass (e : Transition GlassState GlassCall) : Prop :=
  OpenedByRole e ∧ RequestedThere e

/- No session was opened yet. -/
structure GlassState.Starts (s : GlassState) : Prop where
  rows : s.rows = []
  held : s.lastHeld = heldAfter s.db s.now fun _ => none

---- Roles And Sessions

/- What a request has passed that is granted. -/
theorem requirePerm_ok
    {d : Deployment} {db : Database} {glass perms : List Str}
    {c : Credentials} {user : Principal}
    (hOk : requirePerm d db glass perms c = .ok user) :
    currentUser d db c = .ok user ∧
      (ownGrant db perms user = true ∨
        isActive glass user.id = true) := by
  unfold requirePerm at hOk
  rcases bind_eq_ok hOk with ⟨q, hUser, hRest⟩
  by_cases hOwn : perms.any (hasPerm db q.role) = true
  · rw [if_pos hOwn] at hRest
    cases hRest
    exact ⟨hUser, .inl hOwn⟩
  · rw [if_neg hOwn] at hRest
    by_cases hGlass : isActive glass q.id = true
    · rw [if_pos hGlass] at hRest
      cases hRest
      exact ⟨hUser, .inr hGlass⟩
    · rw [if_neg hGlass] at hRest
      cases hRest

/- A request that a session grants. -/
theorem requirePerm_of_isActive
    {d : Deployment} {db : Database} {glass perms : List Str}
    {c : Credentials} {user : Principal}
    (hUser : currentUser d db c = .ok user)
    (hGlass : isActive glass user.id = true) :
    requirePerm d db glass perms c = .ok user := by
  unfold requirePerm
  rw [hUser]
  show (if perms.any (hasPerm db user.role) = true then _ else _) =
    _
  split
  · rfl
  · rfl

theorem isActive_liveUsers_iff
    {now : Nat} {rows : List GlassRow} {userId : Str} :
    isActive (liveUsers now rows) userId = true ↔
      userId ≠ [] ∧
        ∃ r ∈ rows, r.live now = true ∧ r.userId = userId := by
  unfold isActive liveUsers
  rw [Bool.and_eq_true, List.contains_iff_mem, List.mem_map]
  simp only [List.mem_filter, and_assoc]
  constructor
  · rintro ⟨hGiven, r, hR, hLive, hIs⟩
    exact ⟨by simpa using hGiven, r, hR, hLive, hIs⟩
  · rintro ⟨hGiven, r, hR, hLive, hIs⟩
    exact ⟨by simpa using hGiven, r, hR, hLive, hIs⟩

/- The role a person acts with is that of some workspace. -/
theorem holdsSomewhere_of_hasPerm
    {d : Deployment} {db : Database} {c : Credentials}
    {user : Principal}
    (hUser : currentUser d db c = .ok user)
    (hPerson : user.isService = false)
    (hHolds : hasPerm db user.role breakGlassUse = true) :
    holdsSomewhere db user.id = true := by
  rcases currentUser_ok hUser with
    ⟨token, _, _, hKey⟩ | ⟨token, payload, _, _, _, hOk⟩
  · unfold principalFromApiKey at hKey
    split at hKey
    · cases hKey
    · split at hKey
      · cases hKey
      · cases hKey
        cases hPerson
  · rcases principalFromPayload_ok hOk with
      ⟨sub, u, _, hFound, _, hActs, _⟩
    have hHere : db.user? u.id = some u := by
      rw [(mem_of_user? hFound).2]
      exact hFound
    unfold holdsSomewhere
    rw [Bool.or_eq_true]
    rcases actingPrincipal_ok hActs with
      ⟨hId, _, ⟨_, hRole⟩ | ⟨hAway, hRole⟩⟩
    · left
      rw [hId, hHere, Option.any_some, ← hRole]
      exact hHolds
    · right
      rw [hId]
      have hGrant : ∃ g, db.grant? u.id user.orgId = some g := by
        unfold workspaceRole at hRole
        rw [hHere] at hRole
        dsimp only at hRole
        rw [if_neg (Ne.symm hAway)] at hRole
        rcases Option.map_eq_some_iff.mp hRole with ⟨g, hG, _⟩
        exact ⟨g, hG⟩
      rcases hGrant with ⟨g, hG⟩
      rcases mem_of_grant? hG with ⟨hMem, hGrantee, hOrg⟩
      apply List.any_eq_true.mpr
      refine ⟨g, hMem, ?_⟩
      rw [Bool.and_eq_true, beq_iff_eq, hOrg, hRole,
        Option.any_some]
      exact ⟨hGrantee, hHolds⟩

theorem clampMinutes_le
    (maxMinutes : Int) (minutes : Option Int) :
    clampMinutes maxMinutes minutes * 60 ≤
      maxSession maxMinutes := by
  have hClamp : clampMinutes maxMinutes minutes ≤
      (max 1 maxMinutes).toNat := by
    unfold clampMinutes
    dsimp only
    apply Int.toNat_le_toNat
    exact max_le_max (le_refl 1) (min_le_right _ _)
  exact Nat.mul_le_mul_right 60 hClamp

theorem mem_deactivate
    {now : Nat} {userId : Str} {rows : List GlassRow} {r : GlassRow}
    (hR : r ∈ deactivate now userId rows)
    (hOpen : r.deactivatedAt = none) :
    r ∈ rows := by
  rcases List.mem_map.mp hR with ⟨x, hX, hIs⟩
  split at hIs
  · rw [← hIs] at hOpen
    cases hOpen
  · rw [← hIs]
    exact hX

theorem mem_rowsAfter_activate
    {maxMinutes : Int} {d : Deployment} {db : Database}
    {now : Nat} {c : Credentials} {reason : Str}
    {minutes : Option Int} {rows : List GlassRow} {r : GlassRow}
    (hR : r ∈ rowsAfter rows
      (breakGlassActivate maxMinutes d db now c reason minutes
        rows))
    (hOpen : r.deactivatedAt = none) :
    r ∈ rows ∨
      ∃ user, currentUser d db c = .ok user ∧
        (hasPerm db user.role breakGlassUse = true ∨
          isActive (liveUsers now rows) user.id = true) ∧
        r.userId = user.id ∧
        r.expiresAt ≤ now + maxSession maxMinutes := by
  cases hOut : breakGlassActivate maxMinutes d db now c reason
      minutes rows with
  | error e =>
      rw [hOut] at hR
      exact .inl hR
  | ok next =>
      rw [hOut] at hR
      unfold breakGlassActivate at hOut
      rcases bind_eq_ok hOut with ⟨user, hOk, hRest⟩
      dsimp only at hRest
      split at hRest
      · cases hRest
      · cases hRest
        rcases List.mem_append.mp hR with hOld | hNew
        · exact .inl (mem_deactivate hOld hOpen)
        · right
          rw [List.mem_singleton.mp hNew]
          rcases requirePerm_ok hOk with ⟨hUser, hMay⟩
          refine ⟨user, hUser, ?_, rfl, ?_⟩
          · simpa [ownGrant] using hMay
          · exact Nat.add_le_add_left
              (clampMinutes_le maxMinutes minutes) now

---- Every Call

section

variable {maxMinutes : Int}
variable {s : GlassState}

/- Every session that is open was opened while a role of its
user held the capability, at most the longest session
before it ends. -/
structure GlassInv
    (maxMinutes : Int)
    (s : GlassState) : Prop where
  opened :
    ∀ r ∈ s.rows, r.deactivatedAt = none →
      ∃ t, s.lastHeld r.userId = some t ∧
        r.expiresAt ≤ t + maxSession maxMinutes
  current :
    ∀ userId, holdsSomewhere s.db userId = true →
      s.lastHeld userId = some s.now
  past : ∀ userId t, s.lastHeld userId = some t → t ≤ s.now

theorem GlassState.Starts.inv
    (hStart : s.Starts) :
    GlassInv maxMinutes s := by
  constructor
  · intro r hR
    rw [hStart.rows] at hR
    cases hR
  · intro userId hHolds
    rw [hStart.held, heldAfter, if_pos hHolds]
  · intro userId t hHeld
    rw [hStart.held] at hHeld
    unfold heldAfter at hHeld
    split at hHeld
    · cases hHeld
      exact le_refl _
    · cases hHeld

/- What is held later is held no earlier. -/
theorem GlassInv.later
    (hInv : GlassInv maxMinutes s) {later : Nat}
    (hLater : s.now ≤ later) (db : Database) :
    GlassInv maxMinutes
      { s with
        now := later
        db
        lastHeld := heldAfter db later s.lastHeld } := by
  constructor
  · intro r hR hOpen
    rcases hInv.opened r hR hOpen with ⟨t, hHeld, hEnds⟩
    dsimp only
    unfold heldAfter
    split
    · have hPast := hInv.past _ _ hHeld
      exact ⟨later, rfl, by omega⟩
    · exact ⟨t, hHeld, hEnds⟩
  · intro userId hHolds
    dsimp only at hHolds ⊢
    rw [heldAfter, if_pos hHolds]
  · intro userId t hHeld
    dsimp only at hHeld ⊢
    unfold heldAfter at hHeld
    split at hHeld
    · cases hHeld
      exact le_refl _
    · exact (hInv.past _ _ hHeld).trans hLater

/- A call after which every session was opened by a role. -/
theorem GlassInv.step
    {call : GlassCall} {next : GlassState}
    (hInv : GlassInv maxMinutes s)
    (hStep : GlassStep maxMinutes s call next)
    (hRole : OpenedByRole ⟨s, call, next⟩) :
    GlassInv maxMinutes next := by
  cases hStep with
  | wait later hLater => exact hInv.later hLater s.db
  | change db => exact hInv.later (le_refl s.now) db
  | activate d c reason minutes user hUser hPerson =>
      refine ⟨?_, hInv.current, hInv.past⟩
      intro r hR hOpen
      rcases mem_rowsAfter_activate hR hOpen with
        hOld | ⟨found, hFound, hMay, hIs, hEnds⟩
      · exact hInv.opened r hOld hOpen
      · rw [hUser] at hFound
        cases hFound
        have hHolds : hasPerm s.db user.role breakGlassUse =
            true := by
          rcases hMay with hOwn | hGlass
          · exact hOwn
          · exact hRole d c reason minutes user rfl hUser hGlass
        rw [hIs]
        exact ⟨s.now,
          hInv.current user.id
            (holdsSomewhere_of_hasPerm hUser hPerson hHolds),
          hEnds⟩
  | deactivate d c user hUser hPerson =>
      refine ⟨?_, hInv.current, hInv.past⟩
      intro r hR hOpen
      exact hInv.opened r (mem_deactivate hR hOpen) hOpen
  | request d c perms user hUser hPerson => exact hInv

/- A request is contained where the sessions are. -/
theorem GlassInv.contains
    {e : Transition GlassState GlassCall}
    (hInv : GlassInv maxMinutes e.pre) (hThere : RequestedThere e) :
    GlassContained maxMinutes e := by
  intro d c perms user hLabel hOk hOwn
  rcases requirePerm_ok hOk with ⟨hUser, hMay | hGlass⟩
  · rw [hOwn] at hMay
    cases hMay
  rcases isActive_liveUsers_iff.mp hGlass with
    ⟨_, r, hR, hLive, hIs⟩
  unfold GlassRow.live at hLive
  rw [Bool.and_eq_true, Option.isNone_iff_eq_none,
    decide_eq_true_eq] at hLive
  rcases hInv.opened r hR hLive.1 with ⟨t, hHeld, hEnds⟩
  rw [hIs] at hHeld
  exact ⟨⟨t, hHeld, by omega⟩,
    hThere d c perms user hLabel hUser hOwn hGlass⟩

/- A request that is contained is made where the session was
opened. -/
theorem requestedThere_of_contained
    {e : Transition GlassState GlassCall}
    (hContained : GlassContained maxMinutes e) :
    RequestedThere e := by
  intro d c perms user hLabel hUser hOwn hGlass
  exact (hContained d c perms user hLabel
    (requirePerm_of_isActive hUser hGlass) hOwn).2

/- In every run in which no session is opened under a session
by a role that does not hold the capability, and what a
session grants is asked for where it was opened, no request
is granted beyond the role for longer than a session after
the capability was last held, or in another workspace. The
second half of the condition is necessary. -/
theorem glass_contained
    (maxMinutes : Int)
    {start last : GlassState}
    {trace : List (Transition GlassState GlassCall)}
    (hStart : start.Starts)
    (hRun : Run (GlassStep maxMinutes) start trace last) :
    ((∀ e ∈ trace, FitsGlass e) →
        ∀ e ∈ trace, GlassContained maxMinutes e) ∧
      ((∀ e ∈ trace, GlassContained maxMinutes e) →
        ∀ e ∈ trace, RequestedThere e) := by
  constructor
  · intro hFits e hE
    have hSteps :=
      (hRun.restrict hFits).forall_step
        (I := GlassInv maxMinutes)
        (fun _ _ _ hInv hStep => hInv.step hStep.1 hStep.2.1)
        hStart.inv e hE
    exact hSteps.1.contains (hFits e hE).2
  · intro hAll e hE
    exact requestedThere_of_contained (hAll e hE)

end

---- A Session That Renews Itself

def glassUser (role : Str) : User where
  id := lit "u-1"
  email := lit "m@x.y"
  name := lit "M"
  role := role
  status := lit "active"
  passwordHash := []
  passwordSalt := []
  avatarColor := []
  mfaEnabled := false
  mfaSecret := none
  lastLogin := none
  createdAt := []
  orgId := none
  tokenEpoch := 0

/- The user is a member of a second workspace. -/
def glassTables (role : Str) : Database where
  users := [glassUser role]
  sessions := []
  orgs := []
  grants :=
    [⟨lit "u-1", lit "org-b", lit "viewer", lit "a@x.y", []⟩]
  roles := []
  apiKeys := []
  sessionTimeout := none

def glassDeployment : Deployment where
  multiTenant := true
  jwtTtlMinutes := 60
  decodeToken _ := .ok ⟨some (lit "u-1"), none, none, 0⟩
  sha256 _ := []
  microsSince _ := 0

def atHome : Credentials :=
  ⟨some (lit "h.p.s"), none, none⟩

def awayFromHome : Credentials :=
  ⟨some (lit "h.p.s"), none, some (lit "org-b")⟩

/- A manager before the first session. -/
def managing : GlassState where
  rows := []
  db := glassTables (lit "manager")
  now := 0
  lastHeld :=
    heldAfter (glassTables (lit "manager")) 0 fun _ => none

theorem managing_starts : managing.Starts :=
  ⟨rfl, rfl⟩

def activateCall : GlassCall :=
  .activate glassDeployment atHome (lit "approver away")
    (some 240)

def requestCall (c : Credentials) : GlassCall :=
  .request glassDeployment c [lit "users.delete"]

def activated (s : GlassState) : GlassState :=
  { s with
    rows := rowsAfter s.rows
      (breakGlassActivate 240 glassDeployment s.db s.now atHome
        (lit "approver away") (some 240) s.rows) }

def waited (later : Nat) (s : GlassState) : GlassState :=
  { s with
    now := later
    lastHeld := heldAfter s.db later s.lastHeld }

def demoted (s : GlassState) : GlassState :=
  { s with
    db := glassTables (lit "analyst")
    lastHeld :=
      heldAfter (glassTables (lit "analyst")) s.now s.lastHeld }

theorem activated_step
    {s : GlassState} {user : Principal}
    (hUser : currentUser glassDeployment s.db atHome = .ok user)
    (hPerson : user.isService = false) :
    GlassStep 240 s activateCall (activated s) :=
  .activate s glassDeployment atHome (lit "approver away")
    (some 240) user hUser hPerson

def homePrincipal (role : Str) : Principal :=
  ⟨lit "u-1", lit "m@x.y", lit "M", role, lit "active",
    lit "org-default", false, none⟩

/- A manager's session is used where it was opened. -/
theorem manager_contained :
    GlassContained 240
      ⟨activated managing, requestCall atHome,
        activated managing⟩ := by
  have hManager : currentUser glassDeployment managing.db
      atHome = .ok (homePrincipal (lit "manager")) := by
    decide
  have hRun : Run (GlassStep 240) managing
      [⟨managing, activateCall, activated managing⟩,
        ⟨activated managing, requestCall atHome,
          activated managing⟩] (activated managing) :=
    .cons (activated_step hManager rfl)
      (.cons (.request _ _ _ _ _ hManager rfl) (.nil _))
  apply (glass_contained 240 managing_starts hRun).1 ?_ _
    (List.mem_cons_of_mem _ (List.mem_singleton_self _))
  simp only [List.forall_mem_cons, List.not_mem_nil,
    false_imp_iff, implies_true, and_true]
  refine ⟨⟨?_, ?_⟩, ⟨?_, ?_⟩⟩
  · intro d c reason minutes user hLabel hUser _
    cases hLabel
    rw [hManager] at hUser
    cases hUser
    decide
  · intro d c perms user hLabel
    cases hLabel
  · intro d c reason minutes user hLabel
    cases hLabel
  · intro d c perms user hLabel hUser _ _ r hR _ _
    cases hLabel
    have hHere : currentUser glassDeployment
        (activated managing).db atHome =
          .ok (homePrincipal (lit "manager")) := hManager
    rw [hHere] at hUser
    cases hUser
    revert r
    decide

/- The last minute of a session after its user was demoted. -/
def expiring : GlassState :=
  waited 14399 (demoted (activated managing))

/- Four hours after the role last held the capability. -/
def renewed : GlassState :=
  waited 20000 (activated expiring)

/- The session opens the next one, so the user may still
delete users although no role has held the capability for
more than four hours; and a session opened at home grants
in another workspace. -/
theorem session_renews_itself :
    Run (GlassStep 240) managing
        [⟨managing, activateCall, activated managing⟩,
          ⟨activated managing, .change (glassTables (lit "analyst")),
            demoted (activated managing)⟩,
          ⟨demoted (activated managing), .wait 14399, expiring⟩,
          ⟨expiring, activateCall, activated expiring⟩,
          ⟨activated expiring, .wait 20000, renewed⟩,
          ⟨renewed, requestCall atHome, renewed⟩] renewed ∧
      ¬GlassContained 240 ⟨renewed, requestCall atHome, renewed⟩ ∧
      ¬GlassContained 240
        ⟨activated managing, requestCall awayFromHome,
          activated managing⟩ := by
  have hManager : currentUser glassDeployment managing.db
      atHome = .ok (homePrincipal (lit "manager")) := by
    decide
  have hAnalyst : currentUser glassDeployment
      (glassTables (lit "analyst")) atHome =
        .ok (homePrincipal (lit "analyst")) := by
    decide
  refine ⟨?_, ?_, ?_⟩
  · exact .cons (activated_step hManager rfl)
      (.cons (.change _ _) (.cons (.wait _ _ (by decide))
        (.cons (activated_step hAnalyst rfl)
          (.cons (.wait _ _ (by decide))
            (.cons (.request _ _ _ _ _ hAnalyst rfl)
              (.nil _))))))
  · intro hContained
    rcases hContained glassDeployment atHome
      [lit "users.delete"] (homePrincipal (lit "analyst")) rfl
      (by decide) (by decide) with
        ⟨⟨t, hHeld, hTime⟩, _⟩
    have hLast : renewed.lastHeld (lit "u-1") = some 0 := by
      decide
    have hSame := hLast.symm.trans hHeld
    cases hSame
    revert hTime
    decide
  · intro hContained
    rcases hContained glassDeployment awayFromHome
      [lit "users.delete"]
      ⟨lit "u-1", lit "m@x.y", lit "M", lit "viewer",
        lit "active", lit "org-b", false, some (lit "org-b")⟩
      rfl (by decide) (by decide) with
        ⟨_, hThere⟩
    revert hThere
    decide

end ThreatOrbit.Auth
