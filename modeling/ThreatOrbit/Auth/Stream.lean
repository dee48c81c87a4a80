import ThreatOrbit.Lib.Run
import ThreatOrbit.Auth.Taxii

/-
  The authentication of the live stream, next to that of the
  API: a ticket that is to be used once, or a session token.

  The clock is in seconds, and a token's expiry is compared
  with its whole seconds.
-/

---- Tickets And Tokens

namespace ThreatOrbit.Auth

open Lib

/- The claims of a signed token, with those of a ticket. -/
structure Claims where
  payload : Payload
  jti : Str
  exp : Int
deriving DecidableEq, Repr

/- What decoding a token may raise. -/
inductive JwtError where
| http (e : HttpError)
| other
deriving DecidableEq, Repr

/- `_jwt_decode` at a time, given the check of the signature
and the claims that are signed. -/
def jwtDecode
    (verify : Str → Except JwtError Claims)
    (now : ℚ)
    (token : Str) : Except JwtError Claims :=
  match verify token with
  | .error e => .error e
  | .ok claims =>
      if claims.exp < ⌊now⌋ then
        .error (.http (unauthorized (lit "Token expired")))
      else .ok claims

def decodeStreamTicket
    (verify : Str → Except JwtError Claims)
    (now : ℚ)
    (ticket : Str) : Except JwtError Claims :=
  match jwtDecode verify now ticket with
  | .error e => .error e
  | .ok claims =>
      if claims.payload.typ = some (lit "stream") then
        .ok claims
      else
        .error (.http (unauthorized
          (lit "Not a stream ticket")))

/- `_consumed_tickets`: when each ticket that was used
expires. -/
abbrev Consumed := Str → Option Int

/- The entries that are not pruned. -/
def Consumed.prune (now : ℚ) (consumed : Consumed) : Consumed :=
  fun jti => (consumed jti).filter fun exp => now ≤ exp

def consumeTicket
    (jti : Str)
    (exp : Int)
    (now : ℚ)
    (consumed : Consumed) : Consumed × Bool :=
  let kept := consumed.prune now
  if jti.isEmpty || (kept jti).isSome then (kept, false)
  else (Function.update kept jti (some exp), true)

structure StreamPrincipal where
  id : Str
  orgId : Str
deriving DecidableEq, Repr

def principalForUser
    (db : Database)
    (uid : Option Str) : Except HttpError StreamPrincipal :=
  match uid.bind db.user? with
  | none => .error (unauthorized (lit "user no longer exists"))
  | some u =>
      if u.status = lit "disabled" then
        .error ⟨403, lit "account disabled"⟩
      else .ok ⟨u.id, orgOr u.orgId⟩

/- A request for the stream: its query parameters, the tables
it finds, and when it decodes the token and when it uses up
the ticket. -/
structure Opening where
  ticket : Str
  token : Str
  deployment : Deployment
  db : Database
  decodeAt : ℚ
  consumeAt : ℚ

/- `_validate`, with the tickets that are used after it. -/
def validate
    (verify : Str → Except JwtError Claims)
    (o : Opening)
    (consumed : Consumed) :
    Consumed × Except HttpError StreamPrincipal :=
  if o.ticket ≠ [] then
    match decodeStreamTicket verify o.decodeAt o.ticket with
    | .error (.http e) => (consumed, .error e)
    | .error .other =>
        (consumed,
          .error (unauthorized (lit "invalid stream ticket")))
    | .ok claims =>
        let out := consumeTicket claims.jti claims.exp
          o.consumeAt consumed
        if out.2 then
          (out.1, principalForUser o.db claims.payload.sub)
        else
          (out.1, .error (unauthorized
            (lit "stream ticket already used or expired")))
  else if o.token ≠ [] then
    match jwtDecode verify o.decodeAt o.token with
    | .error _ =>
        (consumed, .error (unauthorized (lit "invalid token")))
    | .ok claims =>
        if claims.payload.typ = some (lit "stream") then
          (consumed, .error (unauthorized
            (lit "use the ticket query parameter")))
        else
          (consumed, principalForUser o.db claims.payload.sub)
  else
    (consumed, .error (unauthorized
      (lit "ticket query parameter required")))

---- Openings

/- The tickets in use, those that were accepted, and the time
of the last opening. -/
structure StreamState where
  consumed : Consumed
  accepted : List Str
  clock : ℚ

/- The tickets that were accepted after an opening. -/
def acceptedAfter
    (verify : Str → Except JwtError Claims)
    (o : Opening)
    (s : StreamState) : List Str :=
  match (validate verify o s.consumed).2 with
  | .ok _ =>
      if o.ticket ≠ [] then s.accepted ++ [o.ticket]
      else s.accepted
  | .error _ => s.accepted

/- An opening, no earlier than the one before. -/
inductive StreamStep
    (verify : Str → Except JwtError Claims) :
    StreamState → Opening → StreamState → Prop
| opened
    (s : StreamState) (o : Opening)
    (hAfter : s.clock ≤ o.decodeAt)
    (hThen : o.decodeAt ≤ o.consumeAt) :
    StreamStep verify s o
      ⟨(validate verify o s.consumed).1,
        acceptedAfter verify o s, o.consumeAt⟩

/- No ticket was used before. -/
structure StreamState.Fresh (s : StreamState) : Prop where
  accepted : s.accepted = []

/- The API at the time of an opening. -/
def Opening.api
    (verify : Str → Except JwtError Claims)
    (o : Opening) : Deployment :=
  { o.deployment with
    decodeToken := fun token =>
      match jwtDecode verify o.decodeAt token with
      | .ok claims => .ok claims.payload
      | .error (.http e) => .error e
      | .error .other =>
          .error ⟨500, lit "Internal Server Error"⟩ }

/- The API accepts the token of a request. -/
def ApiAccepts
    (verify : Str → Except JwtError Claims)
    (o : Opening) : Prop :=
  ∃ q, currentUser (o.api verify) o.db
    ⟨some o.token, none, none⟩ = .ok q

/- What the stream is to admit: a user who is not disabled,
whose workspace is not suspended, with a token the API
accepts or a ticket that was not accepted before. -/
def AdmitsNoMore
    (verify : Str → Except JwtError Claims)
    (s : StreamState)
    (o : Opening)
    (p : StreamPrincipal) : Prop :=
  (∃ u, o.db.user? p.id = some u ∧
      u.status ≠ lit "disabled" ∧
      isOrgActive o.deployment o.db (orgOr u.orgId) = true) ∧
    (o.ticket = [] → ApiAccepts verify o) ∧
    (o.ticket ≠ [] → o.ticket ∉ s.accepted)

/- The claims of the credential a request presents. -/
def Opening.claims
    (verify : Str → Except JwtError Claims)
    (o : Opening) : Option Claims :=
  (verify (if o.ticket ≠ [] then o.ticket else o.token)).toOption

/- What the API checks of a token beyond its signature. -/
def Opening.Current
    (o : Opening)
    (claims : Claims)
    (u : User) : Prop :=
  if keyShaped o.token then
    ∃ q, principalFromApiKey o.deployment o.db o.token = .ok q
  else
    u.tokenEpoch ≤ claims.payload.epoch ∧
      checkSession o.deployment o.db claims.payload.sid = .ok ()

/- The workspace of the user is not suspended; a token is not
behind the user's epoch, and its session has not ended; and
a ticket that was accepted before is not presented after
the instant it expires. -/
def FitsStream
    (verify : Str → Except JwtError Claims)
    (s : StreamState)
    (o : Opening) : Prop :=
  ∀ claims u,
    o.claims verify = some claims →
    claims.payload.sub.bind o.db.user? = some u →
    isOrgActive o.deployment o.db (orgOr u.orgId) = true ∧
      (o.ticket = [] → o.Current claims u) ∧
      (o.ticket ∈ s.accepted → o.consumeAt ≤ claims.exp)

---- One Opening

section

variable {verify : Str → Except JwtError Claims}
variable {o : Opening}
variable {consumed : Consumed}
variable {p : StreamPrincipal}

theorem jwtDecode_ok
    {now : ℚ} {token : Str} {claims : Claims}
    (hOk : jwtDecode verify now token = .ok claims) :
    verify token = .ok claims ∧ ⌊now⌋ ≤ claims.exp := by
  unfold jwtDecode at hOk
  split at hOk
  · cases hOk
  · rename_i found hFound
    split at hOk
    · cases hOk
    · rename_i hLive
      cases hOk
      exact ⟨hFound, not_lt.mp hLive⟩

theorem decodeStreamTicket_ok
    {now : ℚ} {ticket : Str} {claims : Claims}
    (hOk : decodeStreamTicket verify now ticket = .ok claims) :
    jwtDecode verify now ticket = .ok claims := by
  unfold decodeStreamTicket at hOk
  split at hOk
  · cases hOk
  · rename_i found hFound
    split at hOk
    · cases hOk
      exact hFound
    · cases hOk

theorem principalForUser_ok
    {db : Database} {uid : Option Str}
    (hOk : principalForUser db uid = .ok p) :
    ∃ u, uid.bind db.user? = some u ∧
      u.status ≠ lit "disabled" ∧ p = ⟨u.id, orgOr u.orgId⟩ := by
  unfold principalForUser at hOk
  split at hOk
  · cases hOk
  · rename_i u hUser
    split at hOk
    · cases hOk
    · rename_i hOn
      cases hOk
      exact ⟨u, hUser, hOn, rfl⟩

/- What an opening that is accepted has passed. -/
theorem validate_ok
    (hOk : (validate verify o consumed).2 = .ok p) :
    ∃ claims u, o.claims verify = some claims ∧
      claims.payload.sub.bind o.db.user? = some u ∧
      u.status ≠ lit "disabled" ∧
      p = ⟨u.id, orgOr u.orgId⟩ ∧
      ((o.ticket ≠ [] ∧
          (consumeTicket claims.jti claims.exp o.consumeAt
            consumed).2 = true) ∨
        (o.ticket = [] ∧ o.token ≠ [] ∧
          claims.payload.typ ≠ some (lit "stream") ∧
          jwtDecode verify o.decodeAt o.token =
            .ok claims)) := by
  unfold validate at hOk
  by_cases hTicket : o.ticket ≠ []
  · rw [if_pos hTicket] at hOk
    cases hDecode :
        decodeStreamTicket verify o.decodeAt o.ticket with
    | error e =>
        rw [hDecode] at hOk
        cases e with
        | http e => cases hOk
        | other => cases hOk
    | ok claims =>
        rw [hDecode] at hOk
        dsimp only at hOk
        split at hOk
        · rename_i hUsed
          rcases principalForUser_ok hOk with
            ⟨u, hUser, hOn, hIs⟩
          refine ⟨claims, u, ?_, hUser, hOn, hIs,
            .inl ⟨hTicket, hUsed⟩⟩
          unfold Opening.claims
          rw [if_pos hTicket,
            (jwtDecode_ok (decodeStreamTicket_ok hDecode)).1]
          rfl
        · cases hOk
  · rw [if_neg hTicket] at hOk
    by_cases hToken : o.token ≠ []
    · rw [if_pos hToken] at hOk
      cases hDecode : jwtDecode verify o.decodeAt o.token with
      | error e =>
          rw [hDecode] at hOk
          cases hOk
      | ok claims =>
          rw [hDecode] at hOk
          dsimp only at hOk
          split at hOk
          · cases hOk
          · rename_i hTyp
            rcases principalForUser_ok hOk with
              ⟨u, hUser, hOn, hIs⟩
            refine ⟨claims, u, ?_, hUser, hOn, hIs,
              .inr ⟨not_not.mp hTicket, hToken, hTyp, rfl⟩⟩
            unfold Opening.claims
            rw [if_neg hTicket, (jwtDecode_ok hDecode).1]
            rfl
    · rw [if_neg hToken] at hOk
      cases hOk

/- The API accepts a token that it finds current. -/
theorem apiAccepts_iff
    {claims : Claims} {u : User}
    (hToken : o.token ≠ [])
    (hTyp : claims.payload.typ ≠ some (lit "stream"))
    (hDecode : jwtDecode verify o.decodeAt o.token = .ok claims)
    (hUser : claims.payload.sub.bind o.db.user? = some u)
    (hOn : u.status ≠ lit "disabled")
    (hOrg :
      isOrgActive o.deployment o.db (orgOr u.orgId) = true) :
    ApiAccepts verify o ↔ o.Current claims u := by
  have hPresents :
      Credentials.token ⟨some o.token, none, none⟩ =
        some o.token := by
    cases hIs : o.token with
    | nil => exact absurd hIs hToken
    | cons c rest => rfl
  have hPayload :
      (o.api verify).decodeToken o.token = .ok claims.payload := by
    unfold Opening.api
    dsimp only
    rw [hDecode]
  unfold ApiAccepts currentUser Opening.Current
  rw [hPresents]
  dsimp only
  cases hShape : keyShaped o.token with
  | true => exact Iff.rfl
  | false =>
      rw [if_neg Bool.false_ne_true, if_neg Bool.false_ne_true,
        hPayload]
      dsimp only
      constructor
      · rintro ⟨q, hOk⟩
        rcases principalFromPayload_home_iff.mp hOk with
          ⟨v, ⟨_, ⟨sub, hSub, hFound⟩, _, hNew, hSession, _⟩, _⟩
        rw [hSub, Option.bind_some, hFound] at hUser
        cases hUser
        exact ⟨hNew, hSession⟩
      · rintro ⟨hNew, hSession⟩
        rcases Option.bind_eq_some_iff.mp hUser with
          ⟨sub, hSub, hFound⟩
        exact ⟨u.principal, principalFromPayload_home_iff.mpr
          ⟨u, ⟨hTyp, ⟨sub, hSub, hFound⟩, hOn, hNew, hSession,
            hOrg⟩, rfl⟩⟩

end

---- Every Opening

section

variable {verify : Str → Except JwtError Claims}
variable {s : StreamState}

/- A ticket that was accepted is still in use, or it has
expired to the instant. -/
structure StreamInv
    (verify : Str → Except JwtError Claims)
    (s : StreamState) : Prop where
  given : ∀ ticket ∈ s.accepted, ticket ≠ []
  used :
    ∀ ticket ∈ s.accepted, ∃ claims,
      verify ticket = .ok claims ∧
        ((claims.exp : ℚ) < s.clock ∨
          s.consumed claims.jti = some claims.exp)

theorem StreamState.Fresh.inv
    (hFresh : s.Fresh) :
    StreamInv verify s := by
  constructor
  · simp [hFresh.accepted]
  · simp [hFresh.accepted]

/- An entry that has not expired outlives a ticket that is
used. -/
theorem consumeTicket_keeps
    {consumed : Consumed} {jti other : Str} {exp e : Int} {now : ℚ}
    (hHeld : consumed other = some e) (hLive : now ≤ e) :
    (consumeTicket jti exp now consumed).1 other = some e := by
  have hKept : consumed.prune now other = some e := by
    unfold Consumed.prune
    rw [hHeld, Option.filter_some, if_pos (by simpa using hLive)]
  unfold consumeTicket
  dsimp only
  split
  · exact hKept
  · rename_i hNew
    have hOther : other ≠ jti := by
      rintro rfl
      rw [hKept] at hNew
      simp at hNew
    exact (Function.update_of_ne hOther _ _).trans hKept

/- A ticket that is used is not used before it expires. -/
theorem consumeTicket_ok
    {consumed : Consumed} {jti : Str} {exp : Int} {now : ℚ}
    (hUsed : (consumeTicket jti exp now consumed).2 = true) :
    (∀ e, consumed jti = some e → (e : ℚ) < now) ∧
      (consumeTicket jti exp now consumed).1 jti = some exp := by
  unfold consumeTicket at hUsed ⊢
  dsimp only at hUsed ⊢
  split at hUsed
  · cases hUsed
  · rename_i hNew
    rw [if_neg hNew]
    constructor
    · intro e hHeld
      by_contra hLive
      apply hNew
      unfold Consumed.prune
      rw [hHeld, Option.filter_some,
        if_pos (by simpa using hLive)]
      simp
    · exact Function.update_self _ _ _

/- What an opening leaves of an entry that has not expired. -/
theorem validate_keeps
    {o : Opening} {jti : Str} {e : Int}
    (hHeld : s.consumed jti = some e) (hLive : o.consumeAt ≤ e) :
    (validate verify o s.consumed).1 jti = some e := by
  unfold validate
  split
  · split
    · exact hHeld
    · exact hHeld
    · dsimp only
      split
      · exact consumeTicket_keeps hHeld hLive
      · exact consumeTicket_keeps hHeld hLive
  · split
    · split
      · exact hHeld
      · split
        · exact hHeld
        · exact hHeld
    · exact hHeld

/- A ticket that is accepted is in use. -/
theorem validate_uses
    {o : Opening} {p : StreamPrincipal}
    (hTicket : o.ticket ≠ [])
    (hOk : (validate verify o s.consumed).2 = .ok p) :
    ∃ claims, verify o.ticket = .ok claims ∧
      (∀ e, s.consumed claims.jti = some e →
        (e : ℚ) < o.consumeAt) ∧
      (validate verify o s.consumed).1 claims.jti =
        some claims.exp := by
  unfold validate at hOk ⊢
  rw [if_pos hTicket] at hOk ⊢
  cases hDecode :
      decodeStreamTicket verify o.decodeAt o.ticket with
  | error e =>
      rw [hDecode] at hOk
      cases e with
      | http e => cases hOk
      | other => cases hOk
  | ok claims =>
      rw [hDecode] at hOk
      dsimp only at hOk ⊢
      split at hOk
      · rename_i hUsed
        rw [if_pos hUsed]
        exact ⟨claims,
          (jwtDecode_ok (decodeStreamTicket_ok hDecode)).1,
          consumeTicket_ok hUsed⟩
      · cases hOk

theorem StreamInv.step
    {o : Opening} {next : StreamState}
    (hInv : StreamInv verify s)
    (hStep : StreamStep verify s o next) :
    StreamInv verify next := by
  cases hStep with
  | opened hAfter hThen =>
      have hLater : s.clock ≤ o.consumeAt := hAfter.trans hThen
      have hOld : ∀ ticket ∈ s.accepted, ∃ claims,
          verify ticket = .ok claims ∧
            ((claims.exp : ℚ) < o.consumeAt ∨
              (validate verify o s.consumed).1 claims.jti =
                some claims.exp) := by
        intro ticket hTicket
        rcases hInv.used ticket hTicket with
          ⟨claims, hClaims, hGone | hHeld⟩
        · exact ⟨claims, hClaims,
            .inl (hGone.trans_le hLater)⟩
        · refine ⟨claims, hClaims, ?_⟩
          rcases lt_or_ge (claims.exp : ℚ) o.consumeAt with
            hPast | hLive
          · exact .inl hPast
          · exact .inr (validate_keeps hHeld hLive)
      have hCases : ∀ ticket ∈ acceptedAfter verify o s,
          ticket ∈ s.accepted ∨
            ticket = o.ticket ∧ o.ticket ≠ [] ∧
              ∃ p, (validate verify o s.consumed).2 = .ok p := by
        intro ticket hTicket
        unfold acceptedAfter at hTicket
        split at hTicket
        · rename_i p hOk
          split at hTicket
          · rename_i hGiven
            rcases List.mem_append.mp hTicket with hIn | hNew
            · exact .inl hIn
            · exact .inr
                ⟨List.mem_singleton.mp hNew, hGiven, p, hOk⟩
          · exact .inl hTicket
        · exact .inl hTicket
      constructor
      · intro ticket hTicket
        rcases hCases ticket hTicket with hIn | ⟨rfl, hGiven, _⟩
        · exact hInv.given ticket hIn
        · exact hGiven
      · intro ticket hTicket
        rcases hCases ticket hTicket with
          hIn | ⟨rfl, hGiven, p, hOk⟩
        · exact hOld ticket hIn
        · rcases validate_uses hGiven hOk with
            ⟨claims, hClaims, _, hHeld⟩
          exact ⟨claims, hClaims, .inr hHeld⟩

/- A ticket is accepted for the first time, except after the
instant it expires. -/
theorem StreamInv.first_use_iff
    {o : Opening} {p : StreamPrincipal} {claims : Claims}
    (hInv : StreamInv verify s) (hAfter : s.clock ≤ o.consumeAt)
    (hTicket : o.ticket ≠ [])
    (hClaims : verify o.ticket = .ok claims)
    (hOk : (validate verify o s.consumed).2 = .ok p) :
    o.ticket ∉ s.accepted ↔
      (o.ticket ∈ s.accepted → o.consumeAt ≤ claims.exp) := by
  constructor
  · intro hNew hOld
    exact absurd hOld hNew
  · intro hTime hOld
    have hLive := hTime hOld
    rcases hInv.used o.ticket hOld with
      ⟨held, hHeldClaims, hGone | hHeld⟩
    · rw [hClaims] at hHeldClaims
      cases hHeldClaims
      exact absurd (hGone.trans_le hAfter) (not_lt.mpr hLive)
    · rw [hClaims] at hHeldClaims
      cases hHeldClaims
      rcases validate_uses hTicket hOk with
        ⟨found, hFound, hUnused, _⟩
      rw [hClaims] at hFound
      cases hFound
      exact absurd (hUnused _ hHeld) (not_lt.mpr hLive)

/- An opening that is accepted from a state of a run. -/
theorem admits_iff
    {o : Opening} {p : StreamPrincipal}
    (hInv : StreamInv verify s) (hAfter : s.clock ≤ o.consumeAt)
    (hOk : (validate verify o s.consumed).2 = .ok p) :
    AdmitsNoMore verify s o p ↔ FitsStream verify s o := by
  rcases validate_ok hOk with
    ⟨claims, u, hClaims, hUser, hOn, rfl, hHow⟩
  rcases Option.bind_eq_some_iff.mp hUser with
    ⟨sub, hSub, hFound⟩
  have hId : o.db.user? u.id = some u := by
    rw [(mem_of_user? hFound).2]
    exact hFound
  have hOnly : FitsStream verify s o ↔
      isOrgActive o.deployment o.db (orgOr u.orgId) = true ∧
        (o.ticket = [] → o.Current claims u) ∧
        (o.ticket ∈ s.accepted →
          o.consumeAt ≤ claims.exp) := by
    constructor
    · intro hFits
      exact hFits claims u hClaims hUser
    · intro hFits claims' u' hClaims' hUser'
      rw [hClaims] at hClaims'
      cases hClaims'
      rw [hUser] at hUser'
      cases hUser'
      exact hFits
  have hOrgs : (∃ v, o.db.user? u.id = some v ∧
        v.status ≠ lit "disabled" ∧
        isOrgActive o.deployment o.db (orgOr v.orgId) =
          true) ↔
      isOrgActive o.deployment o.db (orgOr u.orgId) =
        true := by
    constructor
    · rintro ⟨v, hV, _, hOrg⟩
      rw [hId] at hV
      cases hV
      exact hOrg
    · intro hOrg
      exact ⟨u, hId, hOn, hOrg⟩
  rw [hOnly]
  unfold AdmitsNoMore
  rw [hOrgs]
  apply and_congr_right
  intro hOrg
  rcases hHow with ⟨hTicket, hUsed⟩ | ⟨hNone, hToken, hTyp, hDecode⟩
  · have hVerify : verify o.ticket = .ok claims := by
      unfold Opening.claims at hClaims
      rw [if_pos hTicket] at hClaims
      cases hIs : verify o.ticket with
      | error e =>
          rw [hIs] at hClaims
          cases hClaims
      | ok found =>
          rw [hIs] at hClaims
          cases hClaims
          rfl
    rw [← hInv.first_use_iff hAfter hTicket hVerify hOk]
    constructor
    · intro hNew
      exact ⟨fun hEmpty => absurd hEmpty hTicket,
        hNew.2 hTicket⟩
    · intro hNew
      exact ⟨fun hEmpty => absurd hEmpty hTicket,
        fun _ => hNew.2⟩
  · have hApi := apiAccepts_iff hToken hTyp hDecode hUser hOn
      hOrg
    have hNever : o.ticket ∉ s.accepted :=
      fun hOld => hInv.given o.ticket hOld hNone
    constructor
    · intro hNew
      exact ⟨fun _ => hApi.mp (hNew.1 hNone),
        fun hOld => absurd hOld hNever⟩
    · intro hNew
      exact ⟨fun _ => hApi.mpr (hNew.1 hNone),
        fun hGiven => absurd hNone hGiven⟩

/- In every sequence of openings, at times that do not go
back, an opening that is accepted admits no more than the
API does, and its ticket for the first time, exactly when
it meets the condition. -/
theorem stream_admits_iff
    (verify : Str → Except JwtError Claims)
    {start last : StreamState}
    {trace : List (Transition StreamState Opening)}
    (hFresh : start.Fresh)
    (hRun : Run (StreamStep verify) start trace last) :
    ∀ e ∈ trace, ∀ p,
      (validate verify e.label e.pre.consumed).2 = .ok p →
        (AdmitsNoMore verify e.pre e.label p ↔
          FitsStream verify e.pre e.label) := by
  intro e hE p hOk
  have hStep := hRun.forall_step (I := StreamInv verify)
    (fun _ _ _ hInv hStep => hInv.step hStep) hFresh.inv e hE
  have hAfter : e.pre.clock ≤ e.label.consumeAt := by
    rcases e with ⟨pre, o, post⟩
    dsimp only at hStep ⊢
    cases hStep.2 with
    | opened hAfter hThen => exact hAfter.trans hThen
  exact admits_iff hStep.1 hAfter hOk

end

---- A Ticket In Its Last Second

def viewerUser : User where
  id := lit "u-1"
  email := lit "v@x.y"
  name := lit "V"
  role := lit "viewer"
  status := lit "active"
  passwordHash := []
  passwordSalt := []
  avatarColor := []
  mfaEnabled := false
  mfaSecret := none
  lastLogin := none
  createdAt := []
  orgId := none
  tokenEpoch := 1

def viewerTables : Database where
  users := [viewerUser]
  sessions := []
  orgs := []
  grants := []
  roles := []
  apiKeys := []
  sessionTimeout := none

/- A ticket that expires at 160, and a token that is behind
the user's epoch. -/
def verifyViewer (token : Str) : Except JwtError Claims :=
  if token = lit "t.1.s" then
    .ok ⟨⟨some (lit "u-1"), some (lit "stream"), none, 0⟩,
      lit "0a", 160⟩
  else if token = lit "t.2.s" then
    .ok ⟨⟨some (lit "u-1"), none, none, 0⟩, [], 160⟩
  else .error (.http (unauthorized (lit "Invalid token")))

def streamDeployment : Deployment where
  multiTenant := true
  jwtTtlMinutes := 60
  decodeToken _ := .error (unauthorized (lit "Invalid token"))
  sha256 _ := []
  microsSince _ := 0

def openingAt (now : ℚ) : Opening where
  ticket := lit "t.1.s"
  token := []
  deployment := streamDeployment
  db := viewerTables
  decodeAt := now
  consumeAt := now

def unopened : StreamState :=
  ⟨fun _ => none, [], 0⟩

def afterOpening (now : ℚ) (s : StreamState) : StreamState :=
  ⟨(validate verifyViewer (openingAt now) s.consumed).1,
    acceptedAfter verifyViewer (openingAt now) s, now⟩

def viewerPrincipal : StreamPrincipal :=
  ⟨lit "u-1", lit "org-default"⟩

theorem first_opening :
    (validate verifyViewer (openingAt 120)
      unopened.consumed).2 = .ok viewerPrincipal := by
  decide

/- A ticket is accepted once before it expires. -/
theorem first_opening_admits :
    AdmitsNoMore verifyViewer unopened (openingAt 120)
      viewerPrincipal := by
  have hRun : Run (StreamStep verifyViewer) unopened
      [⟨unopened, openingAt 120, afterOpening 120 unopened⟩]
      (afterOpening 120 unopened) :=
    .cons (.opened _ _ (by decide) (le_refl _)) (.nil _)
  apply (stream_admits_iff verifyViewer ⟨rfl⟩ hRun
    ⟨unopened, openingAt 120, afterOpening 120 unopened⟩
    (List.mem_singleton_self _) viewerPrincipal
    first_opening).mpr
  intro claims u hClaims hUser
  cases hClaims
  cases hUser
  refine ⟨by decide, ?_, ?_⟩
  · intro hNone
    cases hNone
  · intro hOld
    cases hOld

def usedOnce : StreamState :=
  afterOpening 120 unopened

/- The raw token of the same user. -/
def tokenOpening : Opening :=
  { openingAt 150 with ticket := [], token := lit "t.2.s" }

/- Half a second after the instant it expires the ticket is
accepted again. A token that the API refuses, since it is
behind the user's epoch, is accepted too. -/
theorem last_second_reused :
    Run (StreamStep verifyViewer) unopened
        [⟨unopened, openingAt 120, usedOnce⟩,
          ⟨usedOnce, openingAt (321 / 2),
            afterOpening (321 / 2) usedOnce⟩]
        (afterOpening (321 / 2) usedOnce) ∧
      (validate verifyViewer (openingAt (321 / 2))
        usedOnce.consumed).2 = .ok viewerPrincipal ∧
      ¬AdmitsNoMore verifyViewer usedOnce
        (openingAt (321 / 2)) viewerPrincipal ∧
      (validate verifyViewer tokenOpening
        unopened.consumed).2 = .ok viewerPrincipal ∧
      ¬AdmitsNoMore verifyViewer unopened tokenOpening
        viewerPrincipal := by
  refine ⟨?_, by decide +kernel, ?_, by decide, ?_⟩
  · refine .cons (.opened _ _ (by decide) (le_refl _))
      (.cons (.opened _ _ ?_ (le_refl _)) (.nil _))
    show (120 : ℚ) ≤ 321 / 2
    norm_num
  · rintro ⟨_, _, hNew⟩
    exact hNew (by decide) (by decide)
  · rintro ⟨_, hApi, _⟩
    rcases hApi rfl with ⟨q, hOk⟩
    have hRefused : currentUser
        (tokenOpening.api verifyViewer) viewerTables
        ⟨some (lit "t.2.s"), none, none⟩ =
          .error (unauthorized
            (lit "Session ended; please sign in again")) := by
      decide
    have hBoth := hOk.symm.trans hRefused
    cases hBoth

end ThreatOrbit.Auth
