import ThreatOrbit.Lib.Run
import ThreatOrbit.Auth.Accounts

/-
  The end of sessions.

  A token carries the epoch its user had and the session it
  belongs to. Signing out everywhere raises the epoch that
  is stored, a change of the password writes one more than
  the epoch it read, and signing out a device marks its
  session.
-/

---- Tokens And Sessions

namespace ThreatOrbit.Auth

open Lib

/- `create_token`: the claims that are read. -/
def createToken
    (userId : Str)
    (epoch : Int)
    (sid : Option Str) : Payload where
  sub := some userId
  typ := none
  sid :=
    match sid with
    | some [] => none
    | sid => sid
  epoch := epoch

def Database.session?
    (db : Database)
    (sid : Str) : Option Session :=
  db.sessions.find? fun s => s.id == sid

/- `UPDATE sessions SET revoked=1 WHERE ...`. -/
def revokeSessions
    (sessions : List Session)
    (which : Session → Bool) : List Session :=
  sessions.map fun s =>
    if which s then { s with revoked := true } else s

/- `UPDATE users SET token_epoch=... WHERE id=?`. -/
def setEpoch
    (users : List User)
    (userId : Str)
    (next : Int → Int) : List User :=
  updateUsers users userId fun u =>
    { u with tokenEpoch := next u.tokenEpoch }

/- `revoke_all_sessions`, by the user or an administrator. -/
def revokeAllSessions
    (db : Database)
    (userId : Str) : Database :=
  { db with
    users := setEpoch db.users userId (· + 1)
    sessions :=
      revokeSessions db.sessions fun s =>
        s.userId == userId && !s.revoked }

/- The writes of `change_password`, with the epoch its
`current_user` read. -/
def changePassword
    (db : Database)
    (userId : Str)
    (password : Str × Str)
    (epoch : Int)
    (sid : Option Str) : Database :=
  { db with
    users := updateUsers db.users userId fun u =>
      { u with
        passwordHash := password.1
        passwordSalt := password.2
        tokenEpoch := epoch + 1 }
    sessions :=
      revokeSessions db.sessions fun s =>
        s.userId == userId && !s.revoked &&
          (match sid with
          | none | some [] => true
          | some own => s.id != own) }

/- The write of `revoke_session`. -/
def revokeSession (db : Database) (sid : Str) : Database :=
  { db with
    sessions := revokeSessions db.sessions fun s => s.id == sid }

/- What `current_user` demands of a token, beside others. -/
theorem principalFromPayload_session
    {d : Deployment} {db : Database} {payload : Payload}
    {xOrgId : Option Str} {p : Principal}
    (hOk : principalFromPayload d db payload xOrgId = .ok p) :
    ∃ sub u, payload.sub = some sub ∧ db.user? sub = some u ∧
      u.tokenEpoch ≤ payload.epoch ∧
      checkSession d db payload.sid = .ok () := by
  unfold principalFromPayload at hOk
  by_cases hStream : payload.typ = some (lit "stream")
  · rw [if_pos hStream] at hOk
    cases hOk
  rw [if_neg hStream] at hOk
  cases hSub : payload.sub with
  | none =>
      rw [hSub] at hOk
      cases hOk
  | some sub =>
      rw [hSub] at hOk
      cases hUser : db.user? sub with
      | none =>
          simp only [hUser] at hOk
          cases hOk
      | some u =>
          simp only [hUser] at hOk
          by_cases hOff : u.status = lit "disabled"
          · rw [if_pos hOff] at hOk
            cases hOk
          rw [if_neg hOff] at hOk
          by_cases hOld : payload.epoch < u.tokenEpoch
          · rw [if_pos hOld] at hOk
            cases hOk
          rw [if_neg hOld] at hOk
          rcases bind_eq_ok hOk with ⟨_, hSession, _⟩
          exact ⟨sub, u, rfl, hUser, not_lt.mp hOld, hSession⟩

/- A session that is marked is not one to go on with. -/
theorem checkSession_revoked
    {d : Deployment} {db : Database} {sid : Str} {s : Session}
    (hSid : sid ≠ []) (hSession : db.session? sid = some s)
    (hRevoked : s.revoked = true) :
    checkSession d db (some sid) ≠ .ok () := by
  cases sid with
  | nil => exact absurd rfl hSid
  | cons c rest =>
      unfold Database.session? at hSession
      simp [checkSession, hSession, hRevoked]

---- Requests In Any Order

/- A request of a user between its reads and its writes: a
login with the epoch it read; a token about to be minted;
a change of the password with the epoch and the session it
goes on with, and a sign-out everywhere, each with the
tokens that were issued when it started; and a sign-out of
one device. -/
inductive SessionCall where
| login (epoch : Int)
| mint (epoch : Int) (sid : Option Str)
| change
    (epoch : Int) (sid : Option Str) (before : List Payload)
| revokeAll (before : List Payload)
| revoke (sid : Str)

/- The tables and the requests on their way; the tokens that
were issued; those issued before a sign-out everywhere or
a change of the password that has been written started;
the sessions that were signed out; and the highest epoch
that was stored. -/
structure SessionWorld where
  db : Database
  calls : Nat → Option SessionCall
  issued : List Payload
  dead : List Payload
  ended : List Str
  peak : Int

def SessionWorld.goOn
    (w : SessionWorld)
    (call : Nat)
    (next : Option SessionCall) : SessionWorld :=
  { w with calls := Function.update w.calls call next }

inductive SessionLabel where
| loginRead (call : Nat)
| loginInsert (call : Nat) (session : Session)
| mint (call : Nat)
| changeRead (call : Nat) (token : Payload)
| changeWrite (call : Nat) (password : Str × Str)
| revokeAllStart (call : Nat)
| revokeAllWrite (call : Nat)
| revokeRead (call : Nat) (sid : Str)
| revokeWrite (call : Nat)
| touch (sid lastSeen : Str)
| abandon (call : Nat)

def touchSession
    (db : Database)
    (sid lastSeen : Str) : Database :=
  { db with
    sessions := db.sessions.map fun s =>
      if s.id = sid then { s with lastSeen } else s }

/- The database steps of the requests of the user `a`, in any
order. A request may fail at any point. `current_user`
reads the session of a token after the row of the user,
when the sessions may be others. -/
inductive SessionStep (a : Str) :
    SessionWorld → SessionLabel → SessionWorld → Prop
| loginRead (w : SessionWorld) (call : Nat) (u : User)
    (hNew : w.calls call = none)
    (hUser : w.db.user? a = some u) :
    SessionStep a w (.loginRead call)
      (w.goOn call (some (.login u.tokenEpoch)))
| loginInsert (w : SessionWorld) (call : Nat)
    (epoch : Int) (session : Session)
    (hCall : w.calls call = some (.login epoch))
    (hOwner : session.userId = a)
    (hOpen : session.revoked = false)
    (hDrawn : w.db.session? session.id = none) :
    SessionStep a w (.loginInsert call session)
      { w.goOn call (some (.mint epoch (some session.id))) with
        db := { w.db with
          sessions := w.db.sessions ++ [session] } }
| mint (w : SessionWorld) (call : Nat)
    (epoch : Int) (sid : Option Str)
    (hCall : w.calls call = some (.mint epoch sid)) :
    SessionStep a w (.mint call)
      { w.goOn call none with
        issued := w.issued ++ [createToken a epoch sid] }
| changeRead (w : SessionWorld) (call : Nat)
    (token : Payload) (u : User)
    (d : Deployment) (later : List Session)
    (xOrgId : Option Str) (p : Principal)
    (hNew : w.calls call = none)
    (hIssued : token ∈ w.issued)
    (hUser : w.db.user? a = some u)
    (hOk : principalFromPayload d
      { w.db with sessions := later } token xOrgId = .ok p) :
    SessionStep a w (.changeRead call token)
      (w.goOn call
        (some (.change u.tokenEpoch token.sid w.issued)))
| changeWrite (w : SessionWorld) (call : Nat)
    (password : Str × Str) (epoch : Int)
    (sid : Option Str) (before : List Payload)
    (hCall : w.calls call = some (.change epoch sid before)) :
    SessionStep a w (.changeWrite call password)
      { w.goOn call (some (.mint (epoch + 1) sid)) with
        db := changePassword w.db a password epoch sid
        dead := w.dead ++ before
        peak := max w.peak (epoch + 1) }
| revokeAllStart (w : SessionWorld) (call : Nat)
    (hNew : w.calls call = none) :
    SessionStep a w (.revokeAllStart call)
      (w.goOn call (some (.revokeAll w.issued)))
| revokeAllWrite (w : SessionWorld) (call : Nat)
    (u : User) (before : List Payload)
    (hCall : w.calls call = some (.revokeAll before))
    (hUser : w.db.user? a = some u) :
    SessionStep a w (.revokeAllWrite call)
      { w.goOn call none with
        db := revokeAllSessions w.db a
        dead := w.dead ++ before
        peak := max w.peak (u.tokenEpoch + 1) }
| revokeRead (w : SessionWorld) (call : Nat)
    (sid : Str) (session : Session)
    (hNew : w.calls call = none)
    (hPath : sid ≠ [])
    (hSession : w.db.session? sid = some session)
    (hOwner : session.userId = a)
    (hOpen : session.revoked = false) :
    SessionStep a w (.revokeRead call sid)
      (w.goOn call (some (.revoke sid)))
| revokeWrite (w : SessionWorld) (call : Nat) (sid : Str)
    (hCall : w.calls call = some (.revoke sid)) :
    SessionStep a w (.revokeWrite call)
      { w.goOn call none with
        db := revokeSession w.db sid
        ended := w.ended ++ [sid] }
| touch (w : SessionWorld) (sid lastSeen : Str) :
    SessionStep a w (.touch sid lastSeen)
      { w with db := touchSession w.db sid lastSeen }
| abandon (w : SessionWorld) (call : Nat) :
    SessionStep a w (.abandon call) (w.goOn call none)

/- The end of a session is final: the epoch has never gone
down; a token issued before a sign-out everywhere or a
change of the password is refused, whatever sessions are
read; and so is a token of a session that was signed out,
whatever users are read. -/
structure Final (a : Str) (w : SessionWorld) : Prop where
  epoch : ∀ u, w.db.user? a = some u → w.peak ≤ u.tokenEpoch
  dead : ∀ token ∈ w.dead, ∀ d sessions xOrgId p,
    principalFromPayload d { w.db with sessions } token xOrgId ≠
      .ok p
  ended : ∀ sid ∈ w.ended, ∀ token, token.sid = some sid →
    ∀ d users xOrgId p,
      principalFromPayload d { w.db with users } token xOrgId ≠
        .ok p

/- The condition on a change of the password: the epoch that
is stored has been raised once at most since it was read. -/
def Fresh
    (a : Str)
    (e : Transition SessionWorld SessionLabel) : Prop :=
  ∀ call password epoch sid before u,
    e.label = .changeWrite call password →
    e.pre.calls call = some (.change epoch sid before) →
    e.pre.db.user? a = some u → u.tokenEpoch ≤ epoch + 1

/- No request is on its way, and the tokens that were issued
to the user carry no later epoch than the one stored. -/
structure Quiescent (a : Str) (w : SessionWorld) : Prop where
  calls : ∀ call, w.calls call = none
  dead : w.dead = []
  ended : w.ended = []
  stored : ∃ u, w.db.user? a = some u ∧ u.tokenEpoch = w.peak
  issued : ∀ token ∈ w.issued,
    token.sub = some a ∧ token.epoch ≤ w.peak

---- What Stays Ended

section

variable {a : Str}
variable {w : SessionWorld}

/- A session that is found is found later, and marked if it
was. -/
def Kept (old next : Database) : Prop :=
  ∀ sid s, old.session? sid = some s →
    ∃ s', next.session? sid = some s' ∧
      (s.revoked = true → s'.revoked = true)

theorem Kept.refl
    {db next : Database}
    (hSame : next.sessions = db.sessions) :
    Kept db next := by
  intro sid s hSession
  unfold Database.session? at *
  rw [hSame]
  exact ⟨s, hSession, id⟩

theorem Kept.append
    {db next : Database} {new : Session}
    (hAppend : next.sessions = db.sessions ++ [new]) :
    Kept db next := by
  intro sid s hSession
  unfold Database.session? at *
  rw [hAppend, List.find?_append, hSession]
  exact ⟨s, rfl, id⟩

theorem Kept.map
    {db next : Database} {set : Session → Session}
    (hMap : next.sessions = db.sessions.map set)
    (hId : ∀ s, (set s).id = s.id)
    (hRevoked :
      ∀ s, s.revoked = true → (set s).revoked = true) :
    Kept db next := by
  intro sid s hSession
  unfold Database.session? at *
  have hSame :
      ((fun s : Session => s.id == sid) ∘ set) =
        fun s => s.id == sid := by
    funext s
    rw [Function.comp_apply, hId]
  rw [hMap, List.find?_map, hSame, hSession]
  exact ⟨set s, rfl, hRevoked s⟩

theorem Kept.revoke
    {db next : Database} {which : Session → Bool}
    (hRevoke :
      next.sessions = revokeSessions db.sessions which) :
    Kept db next := by
  apply Kept.map hRevoke
  · intro s
    split
    · rfl
    · rfl
  · intro s hRevoked
    split
    · rfl
    · exact hRevoked

/- What a request on its way may still do. -/
def SessionCall.Ok
    (a : Str)
    (db : Database)
    (peak : Int) : SessionCall → Prop
| .login epoch => epoch ≤ peak
| .mint epoch _ => epoch ≤ peak
| .change epoch _ before =>
    epoch ≤ peak ∧
      ∀ token ∈ before, token.sub = some a ∧ token.epoch ≤ epoch
| .revokeAll before =>
    ∀ token ∈ before, token.sub = some a ∧ token.epoch ≤ peak
| .revoke sid => sid ≠ [] ∧ ∃ s, db.session? sid = some s

theorem SessionCall.Ok.mono
    {db next : Database} {peak higher : Int} {call : SessionCall}
    (hOk : call.Ok a db peak) (hPeak : peak ≤ higher)
    (hKept : Kept db next) :
    call.Ok a next higher := by
  cases call with
  | login epoch => exact le_trans hOk hPeak
  | mint epoch sid => exact le_trans hOk hPeak
  | change epoch sid before => exact ⟨hOk.1.trans hPeak, hOk.2⟩
  | revokeAll before =>
      intro token hMem
      exact ⟨(hOk token hMem).1, (hOk token hMem).2.trans hPeak⟩
  | revoke sid =>
      rcases hOk with ⟨hSid, s, hSession⟩
      rcases hKept sid s hSession with ⟨s', hNext, _⟩
      exact ⟨hSid, s', hNext⟩

/- What makes the end of sessions final: the epoch stored is
the highest, the tokens that must be refused are behind
it, and the sessions signed out are marked. -/
structure SessionInv (a : Str) (w : SessionWorld) : Prop where
  stored : ∃ u, w.db.user? a = some u ∧ u.tokenEpoch = w.peak
  issued : ∀ token ∈ w.issued,
    token.sub = some a ∧ token.epoch ≤ w.peak
  calls : ∀ i call, w.calls i = some call →
    call.Ok a w.db w.peak
  dead : ∀ token ∈ w.dead,
    token.sub = some a ∧ token.epoch < w.peak
  ended : ∀ sid ∈ w.ended, sid ≠ [] ∧
    ∃ s, w.db.session? sid = some s ∧ s.revoked = true

theorem Quiescent.inv
    (hStart : Quiescent a w) :
    SessionInv a w where
  stored := hStart.stored
  issued := hStart.issued
  calls i call hCall := by simp [hStart.calls] at hCall
  dead := by simp [hStart.dead]
  ended := by simp [hStart.ended]

theorem SessionInv.final
    (hInv : SessionInv a w) :
    Final a w where
  epoch u hUser := by
    rcases hInv.stored with ⟨v, hStored, hPeak⟩
    rw [hUser] at hStored
    cases hStored
    exact hPeak.ge
  dead token hDead d sessions xOrgId p hOk := by
    rcases hInv.stored with ⟨v, hStored, hPeak⟩
    rcases hInv.dead token hDead with ⟨hSub, hBehind⟩
    rcases principalFromPayload_session hOk with
      ⟨sub, u, hSub', hUser, hEpoch, _⟩
    rw [hSub] at hSub'
    cases hSub'
    have hSame : w.db.user? a = some u := hUser
    rw [hStored] at hSame
    cases hSame
    omega
  ended sid hEnded token hSid d users xOrgId p hOk := by
    rcases hInv.ended sid hEnded with
      ⟨hSome, s, hSession, hRevoked⟩
    rcases principalFromPayload_session hOk with
      ⟨_, _, _, _, _, hChecked⟩
    rw [hSid] at hChecked
    have hFound :
        ({ w.db with users } : Database).session? sid = some s :=
      hSession
    exact checkSession_revoked hSome hFound hRevoked hChecked

/- A step of the tables keeps what was ended. -/
theorem SessionInv.move
    {peak : Int}
    (hInv : SessionInv a w) (db : Database) (i : Nat)
    (next : Option SessionCall)
    (hStored : ∃ u, db.user? a = some u ∧ u.tokenEpoch = peak)
    (hPeak : w.peak ≤ peak) (hKept : Kept w.db db)
    (hNext : ∀ call, next = some call → call.Ok a db peak) :
    SessionInv a
      { w.goOn i next with db := db, peak := peak } where
  stored := hStored
  issued token hMem :=
    ⟨(hInv.issued token hMem).1,
      (hInv.issued token hMem).2.trans hPeak⟩
  calls := forall_update
    (fun j call hCall => (hInv.calls j call hCall).mono hPeak hKept)
    hNext
  dead token hMem :=
    ⟨(hInv.dead token hMem).1,
      (hInv.dead token hMem).2.trans_le hPeak⟩
  ended sid hMem := by
    rcases hInv.ended sid hMem with ⟨hSid, s, hSession, hRevoked⟩
    rcases hKept sid s hSession with ⟨s', hNext, hStill⟩
    exact ⟨hSid, s', hNext, hStill hRevoked⟩

/- The row of the user after a write of its columns. -/
theorem user?_set
    {db next : Database} {set : User → User} {u : User}
    (hUsers : next.users = updateUsers db.users a set)
    (hId : ∀ u, (set u).id = u.id) (hUser : db.user? a = some u) :
    next.user? a = some (set u) := by
  rw [user?_updateUsers hUsers hId, hUser, Option.map_some,
    if_pos rfl]

@[simp] theorem revokeSession_session?
    {db : Database}
    {sid : Str} :
    (revokeSession db sid).session? sid =
      (db.session? sid).map
        fun s => { s with revoked := true } := by
  have hFind := @find?_map_update Session Str _ _ _ Session.id
    (fun s => { s with revoked := true }) sid (fun _ h => h)
    db.sessions sid
  simpa [Database.session?, revokeSession, revokeSessions]
    using hFind

theorem changePassword_user?
    {db : Database} {password : Str × Str} {epoch : Int}
    {sid : Option Str} {u : User}
    (hUser : db.user? a = some u) :
    ∃ v, (changePassword db a password epoch sid).user? a =
        some v ∧
      v.tokenEpoch = epoch + 1 :=
  ⟨_, user?_set rfl (fun _ => rfl) hUser, rfl⟩

theorem revokeAllSessions_user?
    {db : Database} {u : User}
    (hUser : db.user? a = some u) :
    ∃ v, (revokeAllSessions db a).user? a = some v ∧
      v.tokenEpoch = u.tokenEpoch + 1 :=
  ⟨_, user?_set rfl (fun _ => rfl) hUser, rfl⟩

/- A change of the password that writes no lower epoch ends
the tokens issued before it started. -/
theorem SessionInv.change
    {call : Nat} {password : Str × Str} {epoch : Int}
    {sid : Option Str} {before : List Payload}
    (hInv : SessionInv a w)
    (hCall : w.calls call = some (.change epoch sid before))
    (hFresh : w.peak ≤ epoch + 1) :
    SessionInv a
      { w.goOn call (some (.mint (epoch + 1) sid)) with
        db := changePassword w.db a password epoch sid
        dead := w.dead ++ before
        peak := max w.peak (epoch + 1) } := by
  rcases hInv.stored with ⟨u, hUser, _⟩
  have hMax : max w.peak (epoch + 1) = epoch + 1 :=
    max_eq_right hFresh
  have hCallOk := hInv.calls call _ hCall
  have hMoved := hInv.move
    (changePassword w.db a password epoch sid) call
    (some (.mint (epoch + 1) sid))
    (changePassword_user? hUser) hFresh (Kept.revoke rfl)
    (by
      intro next hNext
      cases hNext
      exact le_refl _)
  rw [hMax]
  refine ⟨hMoved.stored, hMoved.issued, hMoved.calls, ?_,
    hMoved.ended⟩
  intro token hMem
  rcases List.mem_append.mp hMem with hOld | hNew
  · exact hMoved.dead token hOld
  · have hBefore := hCallOk.2 token hNew
    exact ⟨hBefore.1, Int.lt_add_one_of_le hBefore.2⟩

/- A sign-out everywhere ends the tokens issued before it
started. -/
theorem SessionInv.revokeAll
    {call : Nat} {u : User} {before : List Payload}
    (hInv : SessionInv a w)
    (hCall : w.calls call = some (.revokeAll before))
    (hUser : w.db.user? a = some u) :
    SessionInv a
      { w.goOn call none with
        db := revokeAllSessions w.db a
        dead := w.dead ++ before
        peak := max w.peak (u.tokenEpoch + 1) } := by
  rcases hInv.stored with ⟨v, hStored, hPeak⟩
  rw [hUser] at hStored
  cases hStored
  have hMax : max w.peak (u.tokenEpoch + 1) =
      u.tokenEpoch + 1 := by
    omega
  have hMoved := hInv.move (revokeAllSessions w.db a) call none
    (revokeAllSessions_user? hUser) (by omega)
    (Kept.revoke rfl) nofun
  rw [hMax]
  refine ⟨hMoved.stored, hMoved.issued, hMoved.calls, ?_,
    hMoved.ended⟩
  intro token hMem
  rcases List.mem_append.mp hMem with hOld | hNew
  · exact hMoved.dead token hOld
  · have hBefore := hInv.calls call _ hCall token hNew
    exact ⟨hBefore.1, by
      have hLe := hBefore.2
      simp only
      omega⟩

/- A device that is signed out is marked. -/
theorem SessionInv.revoke
    {call : Nat} {sid : Str}
    (hInv : SessionInv a w)
    (hCall : w.calls call = some (.revoke sid)) :
    SessionInv a
      { w.goOn call none with
        db := revokeSession w.db sid
        ended := w.ended ++ [sid] } := by
  have hMoved := hInv.move (revokeSession w.db sid) call none
    hInv.stored (le_refl _) (Kept.revoke rfl) nofun
  refine ⟨hMoved.stored, hMoved.issued, hMoved.calls,
    hMoved.dead, ?_⟩
  intro other hMem
  rcases List.mem_append.mp hMem with hOld | hNew
  · exact hMoved.ended other hOld
  · rw [List.mem_singleton] at hNew
    subst hNew
    rcases hInv.calls call _ hCall with ⟨hSid, s, hSession⟩
    refine ⟨hSid, { s with revoked := true }, ?_, rfl⟩
    simp [hSession]

end

---- Sessions End Once And For All

section

variable {a : Str}
variable {w w' : SessionWorld}

/- A step that meets the condition keeps what was ended. -/
theorem SessionInv.step
    {label : SessionLabel}
    (hInv : SessionInv a w) (hStep : SessionStep a w label w')
    (hFresh : Fresh a ⟨w, label, w'⟩) :
    SessionInv a w' := by
  have hKept : Kept w.db w.db := Kept.refl rfl
  have hPeak := le_refl w.peak
  have hSame := hInv.stored
  cases hStep with
  | loginRead call u hNew hUser =>
      rcases hInv.stored with ⟨v, hStored, hEpoch⟩
      rw [hUser] at hStored
      cases hStored
      refine hInv.move _ _ _ hSame hPeak hKept ?_
      intro next hNext
      cases hNext
      exact hEpoch.le
  | loginInsert call epoch session hCall _ _ _ =>
      refine hInv.move _ _ _ hSame hPeak (Kept.append rfl) ?_
      intro next hNext
      cases hNext
      exact hInv.calls call _ hCall
  | mint call epoch sid hCall =>
      have hEpoch : epoch ≤ w.peak := hInv.calls call _ hCall
      have hMoved := hInv.move w.db call none
        hSame hPeak hKept nofun
      refine ⟨hMoved.stored, ?_, hMoved.calls, hMoved.dead,
        hMoved.ended⟩
      intro token hMem
      rcases List.mem_append.mp hMem with hOld | hNew
      · exact hMoved.issued token hOld
      · rw [List.mem_singleton] at hNew
        subst hNew
        exact ⟨rfl, hEpoch⟩
  | changeRead call token u d later xOrgId p hNew hIssued
      hUser hOk =>
      rcases hInv.stored with ⟨v, hStored, hEpoch⟩
      rw [hUser] at hStored
      cases hStored
      refine hInv.move _ _ _ hSame hPeak hKept ?_
      intro next hNext
      cases hNext
      rw [SessionCall.Ok, hEpoch]
      exact ⟨le_refl _, hInv.issued⟩
  | changeWrite call password epoch sid before hCall =>
      rcases hInv.stored with ⟨u, hUser, hEpoch⟩
      have hRaised := hFresh call password epoch sid before u
        rfl hCall hUser
      exact hInv.change hCall (hEpoch ▸ hRaised)
  | revokeAllStart call hNew =>
      refine hInv.move _ _ _ hSame hPeak hKept ?_
      intro next hNext
      cases hNext
      exact hInv.issued
  | revokeAllWrite call u before hCall hUser =>
      exact hInv.revokeAll hCall hUser
  | revokeRead call sid session hNew hPath hSession _ _ =>
      refine hInv.move _ _ _ hSame hPeak hKept ?_
      intro next hNext
      cases hNext
      exact ⟨hPath, session, hSession⟩
  | revokeWrite call sid hCall => exact hInv.revoke hCall
  | touch sid lastSeen =>
      have hTouched : Kept w.db (touchSession w.db sid lastSeen) := by
        apply Kept.map rfl
        · intro s
          split
          · rfl
          · rfl
        · intro s hRevoked
          split
          · exact hRevoked
          · exact hRevoked
      have hMoved := hInv.move (touchSession w.db sid lastSeen)
        0 (w.calls 0) hSame hPeak hTouched
        (fun call hCall =>
          (hInv.calls 0 call hCall).mono hPeak hTouched)
      rwa [SessionWorld.goOn, Function.update_eq_self] at hMoved
  | abandon call => exact hInv.move _ _ _ hSame hPeak hKept nofun

/- A step after which the end is final meets it. -/
theorem fresh_of_final
    {label : SessionLabel}
    (hInv : SessionInv a w) (hStep : SessionStep a w label w')
    (hFinal : Final a w') :
    Fresh a ⟨w, label, w'⟩ := by
  intro call password epoch sid before u hLabel hCall hUser
  cases hStep with
  | changeWrite _ _ epoch' sid' before' hCall' =>
      cases hLabel
      simp only at hCall hUser
      rw [hCall] at hCall'
      cases hCall'
      rcases hInv.stored with ⟨v, hStored, hPeak⟩
      rw [hUser] at hStored
      cases hStored
      have hNext : (changePassword w.db a password epoch
          sid).user? a = some _ :=
        user?_set rfl (fun _ => rfl) hUser
      have hHigh := hFinal.epoch _ hNext
      simp only at hHigh
      omega
  | _ => cases hLabel

/- Over every run of the requests of a user, their steps in
any order: the end of sessions is final in every state
reached exactly when every change of the password meets
the condition. -/
theorem final_iff
    {trace : List (Transition SessionWorld SessionLabel)}
    (hStart : Quiescent a w)
    (hRun : Run (SessionStep a) w trace w') :
    (∀ e ∈ trace, Final a e.post) ↔
      ∀ e ∈ trace, Fresh a e :=
  Run.forall_post_iff
    (fun _ hInv => hInv.final)
    (fun _ _ _ hInv hStep hFresh => hInv.step hStep hFresh)
    (fun _ _ _ hInv hStep hFinal =>
      fresh_of_final hInv hStep hFinal)
    hRun hStart.inv

end

---- Two Changes Of A Password

def deskDeployment : Deployment where
  multiTenant := false
  jwtTtlMinutes := 480
  decodeToken _ := .error ⟨401, lit "Invalid token"⟩
  sha256 _ := []
  microsSince _ := 0

def deskUser : User where
  id := lit "u1"
  email := lit "ann@corp.test"
  name := lit "Ann"
  role := lit "analyst"
  status := lit "active"
  passwordHash := []
  passwordSalt := []
  avatarColor := lit "#FF2E97"
  mfaEnabled := false
  mfaSecret := none
  lastLogin := none
  createdAt := lit "2026-01-01T00:00:00+00:00"
  orgId := none
  tokenEpoch := 0

/- A token that belongs to no session. -/
def deskToken (epoch : Int) : Payload :=
  createToken (lit "u1") epoch none

def deskWorld : SessionWorld where
  db := ⟨[deskUser], [], [], [], [], [], none⟩
  calls _ := none
  issued := [deskToken 0]
  dead := []
  ended := []
  peak := 0

theorem desk_quiescent : Quiescent (lit "u1") deskWorld where
  calls _ := rfl
  dead := rfl
  ended := rfl
  stored := ⟨deskUser, rfl, rfl⟩
  issued := by
    intro token hMem
    rw [deskWorld, List.mem_singleton] at hMem
    subst hMem
    exact ⟨rfl, le_refl _⟩

/- A change of the password, read, written and answered. -/
def readBy (w : SessionWorld) (call : Nat) : SessionWorld :=
  w.goOn call (some (.change 0 none [deskToken 0]))

def writtenBy (w : SessionWorld) (call : Nat) : SessionWorld :=
  { w.goOn call (some (.mint 1 none)) with
    db := changePassword w.db (lit "u1") ([], []) 0 none
    dead := w.dead ++ [deskToken 0]
    peak := max w.peak 1 }

def mintedBy (w : SessionWorld) (call : Nat) : SessionWorld :=
  { w.goOn call none with
    issued := w.issued ++ [deskToken 1] }

def deskRead : SessionWorld := readBy deskWorld 0

def deskWritten : SessionWorld := writtenBy deskRead 0

def deskChange : List (Transition SessionWorld SessionLabel) :=
  [⟨deskWorld, .changeRead 0 (deskToken 0), deskRead⟩,
    ⟨deskRead, .changeWrite 0 ([], []), deskWritten⟩,
    ⟨deskWritten, .mint 0, mintedBy deskWritten 0⟩]

theorem deskChange_run :
    Run (SessionStep (lit "u1"))
      deskWorld deskChange (mintedBy deskWritten 0) := by
  refine .cons (.changeRead _ 0 _ deskUser deskDeployment [] none
      deskUser.principal rfl (by simp [deskWorld]) rfl rfl)
    (.cons (.changeWrite _ 0 ([], []) 0 none [deskToken 0] ?_)
    (.cons (.mint _ 0 1 none ?_) (.nil _)))
  · simp [deskRead, readBy, SessionWorld.goOn]
  · simp [deskWritten, writtenBy, SessionWorld.goOn]

theorem deskChange_fresh :
    ∀ e ∈ deskChange, Fresh (lit "u1") e := by
  simp only [deskChange, List.forall_mem_cons,
    List.not_mem_nil, false_implies, implies_true, and_true]
  refine ⟨?_, ?_, ?_⟩
  · intro call password epoch sid before u hLabel
    cases hLabel
  · intro call password epoch sid before u hLabel hCall hUser
    cases hLabel
    simp only [deskRead, readBy, SessionWorld.goOn,
      Function.update_self, Option.some.injEq,
      SessionCall.change.injEq] at hCall
    have hSame : deskRead.db.user? (lit "u1") =
        some deskUser := rfl
    simp only at hUser
    rw [hUser] at hSame
    cases hSame
    rw [← hCall.1]
    decide
  · intro call password epoch sid before u hLabel
    cases hLabel

/- One change of the password ends the other sessions. -/
theorem deskChange_final :
    Final (lit "u1") deskWritten :=
  (final_iff desk_quiescent deskChange_run).mpr
    deskChange_fresh
    ⟨deskRead, .changeWrite 0 ([], []), deskWritten⟩
    (by simp [deskChange])

/- Two changes that read the same epoch, the second written
after a sign-out everywhere. -/
def deskBothRead : SessionWorld := readBy deskRead 1

def deskFirst : SessionWorld := writtenBy deskBothRead 1

def deskMinted : SessionWorld := mintedBy deskFirst 1

def deskSigningOut : SessionWorld :=
  deskMinted.goOn 2
    (some (.revokeAll [deskToken 0, deskToken 1]))

def deskSignedOut : SessionWorld :=
  { deskSigningOut.goOn 2 none with
    db := revokeAllSessions deskSigningOut.db (lit "u1")
    dead :=
      deskSigningOut.dead ++ [deskToken 0, deskToken 1]
    peak := max deskSigningOut.peak 2 }

def deskSecond : SessionWorld := writtenBy deskSignedOut 0

def deskChanges :
    List (Transition SessionWorld SessionLabel) :=
  [⟨deskWorld, .changeRead 0 (deskToken 0), deskRead⟩,
    ⟨deskRead, .changeRead 1 (deskToken 0), deskBothRead⟩,
    ⟨deskBothRead, .changeWrite 1 ([], []), deskFirst⟩,
    ⟨deskFirst, .mint 1, deskMinted⟩,
    ⟨deskMinted, .revokeAllStart 2, deskSigningOut⟩,
    ⟨deskSigningOut, .revokeAllWrite 2, deskSignedOut⟩,
    ⟨deskSignedOut, .changeWrite 0 ([], []), deskSecond⟩]

theorem deskChanges_run :
    Run (SessionStep (lit "u1"))
      deskWorld deskChanges deskSecond := by
  refine .cons (.changeRead _ 0 _ deskUser deskDeployment [] none
      deskUser.principal rfl (by simp [deskWorld]) rfl rfl)
    (.cons (.changeRead _ 1 _ deskUser deskDeployment [] none
      deskUser.principal ?_ ?_ rfl rfl)
    (.cons (.changeWrite _ 1 ([], []) 0 none [deskToken 0] ?_)
    (.cons (.mint _ 1 1 none ?_)
    (.cons (.revokeAllStart _ 2 ?_)
    (.cons (.revokeAllWrite _ 2
      { deskUser with tokenEpoch := 1 }
      [deskToken 0, deskToken 1] ?_ rfl)
    (.cons (.changeWrite _ 0 ([], []) 0 none [deskToken 0] ?_)
      (.nil _)))))))
  all_goals
    simp [deskSignedOut, deskSigningOut, deskMinted, mintedBy,
      deskFirst, writtenBy, deskBothRead, deskRead, readBy,
      SessionWorld.goOn, deskWorld]

/- The epoch goes down from two to one, and a token that was
signed out is let in again. -/
theorem signed_out_token_revived :
    Quiescent (lit "u1") deskWorld ∧
      Run (SessionStep (lit "u1"))
        deskWorld deskChanges deskSecond ∧
      (deskSignedOut.db.user? (lit "u1")).map
        User.tokenEpoch = some 2 ∧
      (deskSecond.db.user? (lit "u1")).map
        User.tokenEpoch = some 1 ∧
      deskToken 1 ∈ deskSignedOut.dead ∧
      principalFromPayload deskDeployment deskSecond.db
        (deskToken 1) none = .ok deskUser.principal :=
  ⟨desk_quiescent, deskChanges_run, rfl, rfl, by decide, rfl⟩

end ThreatOrbit.Auth
