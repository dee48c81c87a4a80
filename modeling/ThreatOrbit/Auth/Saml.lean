import ThreatOrbit.Lib.Run
import ThreatOrbit.Lib.Python

/-
  SAML sign-in and the one use of an assertion.

  A call of `parse_response` takes its time, verifies the
  signature, prunes the table of used assertions, looks the
  assertion up, validates it and records it. The three
  statements on the table are steps of their own, so calls
  on any number of replicas interleave between them.
-/

---- Assertions

namespace ThreatOrbit.Auth

open Lib

/- What `datetime.fromisoformat` reads, in microseconds: with
an offset since the epoch, or of a local clock. -/
inductive Moment where
| aware (micros : Int)
| naive (micros : Int)
deriving DecidableEq, Repr

/- `Conditions`, by its two attributes. -/
structure Conditions where
  notBefore : Option Str
  notOnOrAfter : Option Str
deriving DecidableEq, Repr

/- `SubjectConfirmationData`. -/
structure Confirmation where
  recipient : Option Str
  notOnOrAfter : Option Str
  inResponseTo : Option Str
deriving DecidableEq, Repr

/- An `Attribute` with the texts of its values. -/
structure Attribute where
  name : Option Str
  friendlyName : Option Str
  values : List (Option Str)
deriving DecidableEq, Repr

/- What is read of an `Assertion`: the texts are those of the
elements as they stand, `none` for no element or no text. -/
structure Assertion where
  id : Option Str
  issuer : Option Str
  conditions : Option Conditions
  audiences : List (Option Str)
  confirmation : Option Confirmation
  nameId : Option Str
  attributes : List Attribute
deriving DecidableEq, Repr

/- The element the verifier reports as signed. -/
inductive Signed where
| assertion (a : Assertion)
| response (a : Option Assertion)
| other
deriving DecidableEq, Repr

/- The user that an assertion names. -/
structure SsoUser where
  email : Str
  name : Str
  groups : List Str
  role : Str
deriving DecidableEq, Repr

/- What `parse_response` raises. -/
inductive Refusal where
| valueError (message : Str)
| typeError
deriving DecidableEq, Repr

/- `_SKEW` and the ten minutes of an assertion without an
end, in microseconds. -/
def skew : Int := 120 * 1000000

def openEnded : Int := 600 * 1000000

/- `_VALID_ROLES`. -/
def samlRoles : List Str :=
  [lit "admin", lit "manager", lit "analyst", lit "viewer"]

/- `_text`. -/
def textOf (text : Option Str) : Str :=
  strip (text.getD [])

/- `assertion.get("ID") or ""`. -/
def Assertion.aid (a : Assertion) : Str :=
  a.id.getD []

/- `_attrs`: a friendly name does not replace a name. -/
def Assertion.attrs (a : Assertion) : List (Str × List Str) :=
  a.attributes.foldl
    (fun out attr =>
      let key := orStr attr.name (attr.friendlyName.getD [])
      let vals := (attr.values.map textOf).filter (· ≠ [])
      if key = [] then out
      else
        let out := setEntry key vals out
        match attr.friendlyName with
        | some [] | none => out
        | some fn =>
            if (lookup fn out).isSome then out
            else setEntry fn vals out)
    []

/- `attrs.get(key)` where it is not empty, else nothing. -/
def attrValues
    (attrs : List (Str × List Str))
    (key : Str) : List Str :=
  (lookup key attrs).getD []

---- Validation

section

variable [Unicode]

/- The configuration of the deployment, with the decoder of
the form field, the verifier of the signature, pinned to
the certificate of the identity provider, and
`datetime.fromisoformat`. -/
structure Provider where
  b64decode : Str → Option (List UInt8)
  verify : List UInt8 → Option (Option Signed)
  fromIso : Str → Option Moment
  idpEntityId : Str
  spEntityId : Str
  spAcsUrl : Str
  emailAttr : Str
  nameAttr : Str
  groupsAttr : Str
  roleMap : List (Str × Str)
  defaultRole : Str
  allowedDomains : List Str

def Provider.parseTime
    (p : Provider)
    (text : Option Str) : Option Moment :=
  match text with
  | none | some [] => none
  | some s => p.fromIso (replaceAll (lit "Z") (lit "+00:00") s)

/- `parse_response` up to the issuer, which is all that
comes before the table is asked. -/
def Provider.signedAssertion
    (p : Provider)
    (response : Str) : Except Refusal Assertion := do
  let some bytes := p.b64decode response
    | throw (.valueError (lit "malformed SAMLResponse encoding"))
  let some signed := p.verify bytes
    | throw (.valueError
        (lit "SAML signature verification failed"))
  let some element := signed
    | throw (.valueError
        (lit "no signed element in SAMLResponse"))
  let uncovered := Refusal.valueError
    (lit "the signature does not cover a SAML assertion")
  let a ← match element with
    | .assertion a | .response (some a) => pure a
    | .response none | .other => throw uncovered
  if textOf a.issuer ≠ p.idpEntityId then
    throw (.valueError (lit "assertion issuer mismatch"))
  return a

/- `now + _skew() < nb`: a time without an offset cannot be
compared. -/
def notYet
    (now : Int) : Option Moment → Except Refusal Bool
| none => .ok false
| some (.aware nb) => .ok (now + skew < nb)
| some (.naive _) => .error .typeError

/- `now - _skew() >= noa`. -/
def outlived
    (now : Int) : Option Moment → Except Refusal Bool
| none => .ok false
| some (.aware noa) => .ok (noa ≤ now - skew)
| some (.naive _) => .error .typeError

def Provider.mapRole
    (p : Provider)
    (groups : List Str) : Str :=
  let mapped := groups.filterMap fun g =>
    (lookup g p.roleMap).filter samlRoles.contains
  match mapped with
  | role :: _ => role
  | [] =>
      if samlRoles.contains p.defaultRole then p.defaultRole
      else lit "viewer"

/- The attributes that may carry the address. -/
def emailKeys : List Str :=
  [lit "email", lit "mail", lit "emailAddress",
    lit ("http://schemas.xmlsoap.org/ws/2005/05/" ++
      "identity/claims/emailaddress")]

/- The attributes that may carry the name. -/
def nameKeys : List Str :=
  [lit "displayName", lit "name", lit "cn",
    lit ("http://schemas.xmlsoap.org/ws/2005/05/" ++
      "identity/claims/name")]

/- The first value of the first key that has one. -/
def firstValue
    (attrs : List (Str × List Str))
    (keys : List Str) : Str :=
  ((keys.flatMap (attrValues attrs)).head?).getD []

/- The part of an address after its first `@`. -/
def domainOf (email : Str) : Str :=
  (email.dropWhile (· ≠ cp '@')).drop 1

def Provider.assertionToUser
    (p : Provider)
    (a : Assertion) : Except Refusal SsoUser := do
  let attrs := a.attrs
  let own :=
    if p.emailAttr = [] then [] else firstValue attrs [p.emailAttr]
  let subject := textOf a.nameId
  let named :=
    if own = [] ∧ subject.contains (cp '@') then subject else own
  let found :=
    if named = [] then firstValue attrs emailKeys else named
  let email := Unicode.lower (strip found)
  if !email.contains (cp '@') then
    throw (.valueError
      (lit "the IdP assertion did not include an email"))
  if p.allowedDomains ≠ [] ∧
      !p.allowedDomains.contains (domainOf email) then
    throw (.valueError
      (lit "your email domain is not permitted for SSO"))
  let keys :=
    (if p.nameAttr = [] then [] else [p.nameAttr]) ++ nameKeys
  let full := firstValue attrs keys
  let name :=
    if full = [] then email.takeWhile (· ≠ cp '@') else full
  let groups :=
    match attrValues attrs p.groupsAttr,
      attrValues attrs (lit "groups") with
    | [], [] => attrValues attrs (lit "Group")
    | [], groups => groups
    | groups, _ => groups
  return ⟨email, name, groups, p.mapRole groups⟩

/- The audience of an assertion, which it must have. -/
def Provider.checkAudience
    (p : Provider)
    (a : Assertion) : Except Refusal Unit := do
  let audiences := a.audiences.map textOf
  if audiences = [] then
    throw (.valueError (lit
      "assertion is missing a required audience restriction"))
  if !audiences.contains p.spEntityId then
    throw (.valueError (lit "audience mismatch"))

/- The subject confirmation, if there is one. -/
def Provider.checkSubject
    (p : Provider)
    (a : Assertion)
    (expected : Str)
    (now : Int) : Except Refusal Unit := do
  if let some scd := a.confirmation then
    if orStr scd.recipient p.spAcsUrl ≠ p.spAcsUrl then
      throw (.valueError (lit "subject recipient mismatch"))
    if ← outlived now (p.parseTime scd.notOnOrAfter) then
      throw (.valueError (lit "subject confirmation expired"))
    if orStr scd.inResponseTo expected ≠ expected then
      throw (.valueError (lit "InResponseTo mismatch"))

/- The end of an assertion that the code reads. -/
def Provider.noa
    (p : Provider)
    (a : Assertion) : Option Moment :=
  p.parseTime (a.conditions.bind (·.notOnOrAfter))

/- How long an assertion is kept as used. -/
def Provider.expiry
    (p : Provider)
    (a : Assertion)
    (now : Int) : Int :=
  match p.noa a with
  | some (.aware noa) | some (.naive noa) => noa + skew
  | none => now + openEnded

/- `parse_response` after the table was asked, up to the
record. -/
def Provider.validate
    (p : Provider)
    (a : Assertion)
    (expected : Str)
    (now : Int) : Except Refusal SsoUser := do
  let nb := p.parseTime (a.conditions.bind (·.notBefore))
  if ← notYet now nb then
    throw (.valueError (lit "assertion not yet valid"))
  if ← outlived now (p.noa a) then
    throw (.valueError (lit "assertion expired"))
  p.checkAudience a
  p.checkSubject a expected now
  p.assertionToUser a

end

---- The Table Of Used Assertions

section

/- `saml_replay`: when the entry of an assertion runs out. -/
abbrev ReplayTable := List (Str × Int)

/- The `DELETE` of `_replay_seen`. -/
def pruneReplay
    (table : ReplayTable)
    (now : Int) : ReplayTable :=
  table.filter (now < ·.2)

/- The `SELECT` of `_replay_seen`. -/
def replaySeen
    (table : ReplayTable)
    (aid : Str)
    (now : Int) : Bool :=
  table.any fun row => row.1 == aid && decide (now < row.2)

/- `_replay_record`. -/
def recordReplay
    (table : ReplayTable)
    (aid : Str)
    (expiry : Int) : ReplayTable :=
  setEntry aid expiry table

theorem replaySeen_of_mem
    {table : ReplayTable} {aid : Str} {now expiry : Int}
    (hMem : (aid, expiry) ∈ table) (hLive : now < expiry) :
    replaySeen table aid now = true := by
  unfold replaySeen
  rw [List.any_eq_true]
  refine ⟨_, hMem, ?_⟩
  simpa using hLive

theorem mem_pruneReplay
    {table : ReplayTable} {aid : Str} {now expiry : Int}
    (hMem : (aid, expiry) ∈ table) (hLive : now < expiry) :
    (aid, expiry) ∈ pruneReplay table now := by
  unfold pruneReplay
  rw [List.mem_filter]
  exact ⟨hMem, by simpa using hLive⟩

/- A call of `parse_response` by the statement it runs next,
with the time it took at its start. -/
inductive Presentation where
| prune (a : Assertion) (expected : Str) (now : Int)
| lookup (a : Assertion) (expected : Str) (now : Int)
| record (aid : Str) (user : SsoUser) (expiry : Int)
deriving DecidableEq, Repr

/- Whether a call is about to record the assertion. -/
def Presentation.records (aid : Str) : Presentation → Bool
| .record id _ _ => id == aid
| _ => false

/- The table, the clock the replicas share, and the calls
on their way. -/
structure Desk where
  table : ReplayTable
  clock : Int
  calls : List Presentation
deriving DecidableEq, Repr

/- What a step lets be seen: the table pruned at a time; an
assertion looked up, and what its call raises if it does
not go on; a call that raises, and one that returns. -/
inductive Shown where
| nothing
| pruned (now : Int)
| looked (a : Assertion) (expected : Str) (now : Int)
    (refusal : Option Refusal)
| raised (refusal : Refusal)
| returned (aid : Str) (user : SsoUser) (expiry : Int)
deriving DecidableEq, Repr

/- A call runs its next statement and goes on, or ends. -/
def Desk.advance
    (w : Desk)
    (c : Presentation)
    (table : ReplayTable)
    (next : Option Presentation) : Desk :=
  { w with table, calls := next.toList ++ w.calls.erase c }

/- The refusal of an assertion that was used. -/
def replayDetected : Refusal :=
  .valueError (lit "assertion replay detected")

variable [Unicode]

/- What a call does with the answer of the table. -/
def Provider.afterLookup
    (p : Provider)
    (table : ReplayTable)
    (a : Assertion)
    (expected : Str)
    (now : Int) : Except Refusal Presentation := do
  if replaySeen table a.aid now then
    throw replayDetected
  let user ← p.validate a expected now
  return .record a.aid user (p.expiry a now)

/- The next state of the replicas. -/
inductive Provider.Step
    (p : Provider) : Desk → Shown → Desk → Prop
| tick (w : Desk) (micros : Nat) :
    p.Step w .nothing { w with clock := w.clock + micros }
| unsigned
    (w : Desk) (response : Str) (refusal : Refusal)
    (hBad : p.signedAssertion response = .error refusal) :
    p.Step w (.raised refusal) w
| unnamed
    (w : Desk) (response : Str) (a : Assertion)
    (hSigned : p.signedAssertion response = .ok a)
    (hNone : a.aid = []) :
    p.Step w (.raised replayDetected) w
| present
    (w : Desk) (response expected : Str) (a : Assertion)
    (hSigned : p.signedAssertion response = .ok a)
    (hNamed : a.aid ≠ []) :
    p.Step w .nothing
      { w with
        calls := .prune a expected w.clock :: w.calls }
| prune
    (w : Desk) (a : Assertion) (expected : Str) (now : Int)
    (hCall : .prune a expected now ∈ w.calls) :
    p.Step w (.pruned now)
      (w.advance (.prune a expected now)
        (pruneReplay w.table now)
        (some (.lookup a expected now)))
| pass
    (w : Desk) (a : Assertion) (expected : Str) (now : Int)
    (next : Presentation)
    (hCall : .lookup a expected now ∈ w.calls)
    (hPass : p.afterLookup w.table a expected now = .ok next) :
    p.Step w (.looked a expected now none)
      (w.advance (.lookup a expected now) w.table (some next))
| refuse
    (w : Desk) (a : Assertion) (expected : Str) (now : Int)
    (refusal : Refusal)
    (hCall : .lookup a expected now ∈ w.calls)
    (hRefused :
      p.afterLookup w.table a expected now = .error refusal) :
    p.Step w (.looked a expected now (some refusal))
      (w.advance (.lookup a expected now) w.table none)
| record
    (w : Desk) (aid : Str) (user : SsoUser) (expiry : Int)
    (hCall : .record aid user expiry ∈ w.calls) :
    p.Step w (.returned aid user expiry)
      (w.advance (.record aid user expiry)
        (recordReplay w.table aid expiry) none)
| failed
    (w : Desk) (c : Presentation) (hCall : c ∈ w.calls) :
    p.Step w .nothing (w.advance c w.table none)

/- Whether a step returns a user for the assertion. -/
def Shown.returns (aid : Str) : Shown → Bool
| .returned id _ _ => id == aid
| _ => false

/- What a run has made of an assertion: when the entries of
its uses run out, and whether the table was pruned at a
time after that. -/
structure Usage where
  expiries : List Int
  overtaken : Bool
deriving DecidableEq, Repr

def Shown.usage
    (aid : Str)
    (u : Usage) : Shown → Usage
| .returned id _ expiry =>
    if id = aid then { u with expiries := expiry :: u.expiries }
    else u
| .pruned now =>
    { u with
      overtaken := u.overtaken || u.expiries.any (· ≤ now) }
| _ => u

/- An assertion that is valid is looked up while no call is
about to record it and, if it was used, while the entry of
its use has neither run out nor been pruned. -/
def Provider.Settled
    (p : Provider)
    (aid : Str)
    (u : Usage)
    (t : Transition Desk Shown) : Prop :=
  ∀ a expected now refusal,
    t.label = .looked a expected now refusal →
    a.aid = aid →
    (p.validate a expected now).isOk = true →
      (∀ c ∈ t.pre.calls, c.records aid = false) ∧
      u.overtaken = false ∧
      ∀ expiry ∈ u.expiries, now < expiry

/- Every step of a run is settled. -/
def Provider.SettledRun
    (p : Provider)
    (aid : Str) :
    Usage → List (Transition Desk Shown) → Prop
| _, [] => True
| u, t :: rest =>
    p.Settled aid u t ∧
      p.SettledRun aid (t.label.usage aid u) rest

end

---- One Use

section

theorem countP_advance
    {w : Desk} {c : Presentation}
    (hCall : c ∈ w.calls) (p : Presentation → Bool)
    (table : ReplayTable) (next : Option Presentation) :
    (w.advance c table next).calls.countP p +
        (if p c then 1 else 0) =
      w.calls.countP p + next.toList.countP p := by
  have hPerm := (List.perm_cons_erase hCall).countP_eq p
  rw [List.countP_cons] at hPerm
  simp only [Desk.advance, List.countP_append]
  omega

/- An assertion is used, or about to be used, at most once,
and the entry of its use is in the table. -/
structure UseInv
    (aid : Str)
    (u : Usage)
    (w : Desk) : Prop where
  once :
    u.expiries.length +
      w.calls.countP (Presentation.records aid) ≤ 1
  kept :
    u.overtaken = false →
      ∀ expiry ∈ u.expiries, (aid, expiry) ∈ w.table

variable [Unicode]

theorem afterLookup_ok
    {p : Provider} {table : ReplayTable} {a : Assertion}
    {expected : Str} {now : Int} {next : Presentation}
    (hPass : p.afterLookup table a expected now = .ok next) :
    replaySeen table a.aid now = false ∧
      ∃ user, p.validate a expected now = .ok user ∧
        next = .record a.aid user (p.expiry a now) := by
  unfold Provider.afterLookup at hPass
  cases hSeen : replaySeen table a.aid now with
  | true =>
      rw [hSeen] at hPass
      cases hPass
  | false =>
      rw [hSeen] at hPass
      cases hValid : p.validate a expected now with
      | error refusal =>
          rw [hValid] at hPass
          cases hPass
      | ok user =>
          rw [hValid] at hPass
          cases hPass
          exact ⟨rfl, user, rfl, rfl⟩

/- A valid assertion that was used is found in the table. -/
theorem UseInv.unused_of_pass
    {p : Provider} {aid expected : Str} {u : Usage} {w v : Desk}
    {a : Assertion} {now : Int} {next : Presentation}
    {refusal : Option Refusal}
    (hInv : UseInv aid u w) (hAid : a.aid = aid)
    (hPass : p.afterLookup w.table a expected now = .ok next)
    (hSettled :
      p.Settled aid u
        ⟨w, .looked a expected now refusal, v⟩) :
    u.expiries.length +
      w.calls.countP (Presentation.records aid) = 0 := by
  rcases afterLookup_ok hPass with ⟨hUnseen, user, hValid, _⟩
  have hOk : (p.validate a expected now).isOk = true := by
    rw [hValid]
    rfl
  rcases hSettled a expected now refusal rfl hAid hOk with
    ⟨hAlone, hFresh, hLive⟩
  have hNone : w.calls.countP (Presentation.records aid) = 0 := by
    rw [List.countP_eq_zero]
    intro c hC
    rw [hAlone c hC]
    exact Bool.false_ne_true
  cases hUses : u.expiries with
  | nil =>
      rw [hNone]
      rfl
  | cons expiry rest =>
      have hMem : expiry ∈ u.expiries := by
        rw [hUses]
        exact List.mem_cons_self
      have hSeen := replaySeen_of_mem
        (hInv.kept hFresh expiry hMem) (hLive expiry hMem)
      rw [← hAid, hUnseen] at hSeen
      cases hSeen

theorem UseInv.step
    {p : Provider} {aid : Str} {u : Usage} {w v : Desk}
    {seen : Shown}
    (hInv : UseInv aid u w) (hStep : p.Step w seen v)
    (hSettled : p.Settled aid u ⟨w, seen, v⟩) :
    UseInv aid (seen.usage aid u) v := by
  have hOnce := hInv.once
  cases hStep with
  | tick micros => exact ⟨hOnce, hInv.kept⟩
  | unsigned response refusal hBad => exact hInv
  | unnamed response a hSigned hNone => exact hInv
  | present response expected a hSigned hNamed =>
      refine ⟨?_, hInv.kept⟩
      rw [List.countP_cons_of_neg (by simp [Presentation.records])]
      exact hOnce
  | prune a expected now hCall =>
      have hCount := countP_advance hCall
        (Presentation.records aid) (pruneReplay w.table now)
        (some (.lookup a expected now))
      simp [Presentation.records] at hCount
      refine ⟨?_, ?_⟩
      · simp only [Shown.usage]
        rw [hCount]
        exact hOnce
      · intro hFresh expiry hMem
        simp only [Shown.usage, Bool.or_eq_false_iff,
          List.any_eq_false, decide_eq_true_eq,
          not_le] at hFresh hMem
        exact mem_pruneReplay (hInv.kept hFresh.1 expiry hMem)
          (hFresh.2 expiry hMem)
  | pass a expected now next hCall hPass =>
      have hCount := countP_advance hCall
        (Presentation.records aid) w.table (some next)
      rcases afterLookup_ok hPass with ⟨_, user, _, hNext⟩
      rw [hNext] at hCount
      simp [Presentation.records] at hCount
      refine ⟨?_, hInv.kept⟩
      simp only [Shown.usage]
      rw [hNext, hCount]
      by_cases hAid : a.aid = aid
      · have hUnused := hInv.unused_of_pass hAid hPass hSettled
        simp [hAid]
        omega
      · simp [hAid]
        exact hOnce
  | refuse a expected now refusal hCall hRefused =>
      have hCount := countP_advance hCall
        (Presentation.records aid) w.table none
      simp [Presentation.records] at hCount
      refine ⟨?_, hInv.kept⟩
      simp only [Shown.usage]
      rw [hCount]
      exact hOnce
  | record id user expiry hCall =>
      have hCount := countP_advance hCall
        (Presentation.records aid)
        (recordReplay w.table id expiry) none
      by_cases hId : id = aid
      · simp [Presentation.records, hId] at hCount
        simp only [Shown.usage, if_pos hId]
        refine ⟨?_, ?_⟩
        · rw [List.length_cons, hId]
          omega
        · intro hFresh e hE
          have hNil : u.expiries = [] := by
            apply List.eq_nil_of_length_eq_zero
            omega
          rw [hNil, List.mem_singleton] at hE
          rw [hE, hId]
          exact mem_setEntry aid expiry w.table
      · simp [Presentation.records, hId] at hCount
        simp only [Shown.usage, if_neg hId]
        refine ⟨?_, ?_⟩
        · rw [hCount]
          exact hOnce
        · intro hFresh e hE
          exact mem_setEntry_of_ne _ (hInv.kept hFresh e hE)
            (fun hSame => hId hSame.symm)
  | failed c hCall =>
      have hCount := countP_advance hCall
        (Presentation.records aid) w.table none
      simp at hCount
      refine ⟨?_, hInv.kept⟩
      simp only [Shown.usage]
      omega

theorem UseInv.run
    {p : Provider} {aid : Str} {u : Usage} {w v : Desk}
    {trace : List (Transition Desk Shown)}
    (hInv : UseInv aid u w) (hRun : Run p.Step w trace v)
    (hSettled : p.SettledRun aid u trace) :
    UseInv aid
      (trace.foldl (fun u t => t.label.usage aid u) u) v := by
  induction hRun generalizing u with
  | nil w => exact hInv
  | cons hStep _ ih =>
      exact ih (hInv.step hStep hSettled.1) hSettled.2

omit [Unicode] in
/- The uses of a run are the steps that return. -/
theorem length_usage
    (aid : Str) (u : Usage) (trace : List (Transition Desk Shown)) :
    (trace.foldl (fun u t => t.label.usage aid u)
        u).expiries.length =
      u.expiries.length +
        trace.countP (fun t => t.label.returns aid) := by
  induction trace generalizing u with
  | nil => rfl
  | cons t rest ih =>
      rw [List.foldl_cons, ih, List.countP_cons]
      cases t.label with
      | returned id user expiry =>
          by_cases hId : id = aid
          · simp [Shown.usage, Shown.returns, hId]
            omega
          · simp [Shown.usage, Shown.returns, hId]
      | _ => simp [Shown.usage, Shown.returns]

/- In a run that looks an assertion up only in a settled
state, at most one call returns a user for it. -/
theorem assertion_used_once
    {p : Provider}
    {aid : Str}
    {w v : Desk}
    {trace : List (Transition Desk Shown)}
    (hStart : w.calls = [])
    (hRun : Run p.Step w trace v)
    (hSettled : p.SettledRun aid ⟨[], false⟩ trace) :
    trace.countP (fun t => t.label.returns aid) ≤ 1 := by
  have hFirst : UseInv aid ⟨[], false⟩ w := by
    constructor
    · rw [hStart]
      exact Nat.zero_le 1
    · intro _ expiry hMem
      cases hMem
  have hInv := hFirst.run hRun hSettled
  have hLength := length_usage aid ⟨[], false⟩ trace
  have hOnce := hInv.once
  rw [hLength] at hOnce
  simp only [List.length_nil] at hOnce
  omega

end

---- Two Presentations

/- `str.lower` and its like on ASCII. -/
local instance samlUnicode : Unicode := asciiTables

/- The assertions of an identity provider: one with an end
and one without. -/
def boundedAssertion : Assertion where
  id := some (lit "_a1")
  issuer := some (lit "https://idp.test")
  conditions :=
    some ⟨none, some (lit "2026-01-01T00:05:00Z")⟩
  audiences := [some (lit "threatorbit-dashboard")]
  confirmation := none
  nameId := some (lit "ada@corp.test")
  attributes := []

def openAssertion : Assertion :=
  { boundedAssertion with
    id := some (lit "_a2")
    conditions := none }

/- Two signed messages, abbreviated to a byte each, and the
one date that occurs in them. -/
def smallProvider : Provider where
  b64decode s :=
    if s = lit "MQ==" then some [0x31]
    else if s = lit "Mg==" then some [0x32]
    else none
  verify bytes :=
    if bytes = [0x31] then
      some (some (.assertion boundedAssertion))
    else if bytes = [0x32] then
      some (some (.assertion openAssertion))
    else none
  fromIso s :=
    if s = lit "2026-01-01T00:05:00+00:00" then
      some (.aware 1767225900000000)
    else none
  idpEntityId := lit "https://idp.test"
  spEntityId := lit "threatorbit-dashboard"
  spAcsUrl := lit "http://localhost:8002/auth/saml/acs"
  emailAttr := []
  nameAttr := []
  groupsAttr := lit "groups"
  roleMap := []
  defaultRole := lit "viewer"
  allowedDomains := []

theorem signed_boundedAssertion :
    smallProvider.signedAssertion (lit "MQ==") =
      .ok boundedAssertion := by
  decide

theorem signed_openAssertion :
    smallProvider.signedAssertion (lit "Mg==") =
      .ok openAssertion := by
  decide

/- The user both assertions name. -/
def adaUser : SsoUser :=
  ⟨lit "ada@corp.test", lit "ada", [], lit "viewer"⟩

/- New year, in microseconds. -/
def newYear : Int := 1767225600000000

/- The record a call makes of the assertion with an end. -/
def boundedRecord : Presentation :=
  .record (lit "_a1") adaUser (newYear + 420000000)

/- The record of a call that presents the other one. -/
def openRecord (now : Int) : Presentation :=
  .record (lit "_a2") adaUser (now + openEnded)

/- The states of two calls, one after the other. -/
def firstCall : List (Transition Desk Shown) :=
  let a := boundedAssertion
  let table := [(lit "_a1", newYear + 420000000)]
  [⟨⟨[], newYear, []⟩, .nothing,
      ⟨[], newYear, [.prune a [] newYear]⟩⟩,
    ⟨⟨[], newYear, [.prune a [] newYear]⟩, .pruned newYear,
      ⟨[], newYear, [.lookup a [] newYear]⟩⟩,
    ⟨⟨[], newYear, [.lookup a [] newYear]⟩,
      .looked a [] newYear none,
      ⟨[], newYear, [boundedRecord]⟩⟩,
    ⟨⟨[], newYear, [boundedRecord]⟩,
      .returned (lit "_a1") adaUser (newYear + 420000000),
      ⟨table, newYear, []⟩⟩]

def secondCall : List (Transition Desk Shown) :=
  let a := boundedAssertion
  let table := [(lit "_a1", newYear + 420000000)]
  [⟨⟨table, newYear, []⟩, .nothing,
      ⟨table, newYear, [.prune a [] newYear]⟩⟩,
    ⟨⟨table, newYear, [.prune a [] newYear]⟩, .pruned newYear,
      ⟨table, newYear, [.lookup a [] newYear]⟩⟩,
    ⟨⟨table, newYear, [.lookup a [] newYear]⟩,
      .looked a [] newYear (some replayDetected),
      ⟨table, newYear, []⟩⟩]

theorem run_firstCall :
    Run smallProvider.Step ⟨[], newYear, []⟩ firstCall
      ⟨[(lit "_a1", newYear + 420000000)], newYear, []⟩ :=
  .cons (.present _ _ [] _ signed_boundedAssertion (by decide))
    (.cons (.prune _ boundedAssertion [] newYear (by decide))
      (.cons (.pass _ boundedAssertion [] newYear boundedRecord
          (by decide) (by decide))
        (.cons (.record _ _ _ _ (by decide))
          (.nil _))))

theorem run_secondCall :
    Run smallProvider.Step
      ⟨[(lit "_a1", newYear + 420000000)], newYear, []⟩
      secondCall
      ⟨[(lit "_a1", newYear + 420000000)], newYear, []⟩ :=
  .cons (.present _ _ [] _ signed_boundedAssertion (by decide))
    (.cons (.prune _ boundedAssertion [] newYear (by decide))
      (.cons (.refuse _ boundedAssertion [] newYear
          replayDetected (by decide) (by decide))
        (.nil _)))

/- The second of two calls is refused. -/
theorem sequential_assertion_used_once :
    (firstCall ++ secondCall).countP
      (fun t => t.label.returns (lit "_a1")) ≤ 1 := by
  apply assertion_used_once rfl
    (run_firstCall.append run_secondCall)
  refine ⟨?_, ?_, ?_, ?_, ?_, ?_, ?_, trivial⟩
  all_goals
    intro a expected now refusal hLooked hAid hValid
    cases hLooked
  · decide
  · decide

/- Two calls that overlap both return a user, and so do two
calls that present an assertion without an end ten
minutes apart. -/
theorem assertion_used_twice :
    (∃ (v : Desk) (trace : List (Transition Desk Shown)),
      Run smallProvider.Step ⟨[], newYear, []⟩ trace v ∧
      trace.countP (fun t => t.label.returns (lit "_a1")) =
        2) ∧
    ∃ (v : Desk) (trace : List (Transition Desk Shown)),
      Run smallProvider.Step ⟨[], newYear, []⟩ trace v ∧
      trace.countP (fun t => t.label.returns (lit "_a2")) =
        2 := by
  constructor
  · refine ⟨_, _,
      .cons (.present _ _ [] _ signed_boundedAssertion
        (by decide))
      (.cons (.present _ _ [] _ signed_boundedAssertion
        (by decide))
      (.cons (.prune _ boundedAssertion [] newYear (by decide))
      (.cons (.prune _ boundedAssertion [] newYear (by decide))
      (.cons (.pass _ boundedAssertion [] newYear boundedRecord
        (by decide) (by decide))
      (.cons (.pass _ boundedAssertion [] newYear boundedRecord
        (by decide) (by decide))
      (.cons (.record _ _ _ _ (List.mem_cons_self))
      (.cons (.record _ _ _ _ (List.mem_cons_self))
      (.nil _)))))))), by decide⟩
  · refine ⟨_, _,
      .cons (.present _ _ [] _ signed_openAssertion (by decide))
      (.cons (.prune _ openAssertion [] newYear (by decide))
      (.cons (.pass _ openAssertion [] newYear
        (openRecord newYear) (by decide) (by decide))
      (.cons (.record _ _ _ _ (List.mem_cons_self))
      (.cons (.tick _ 600000000)
      (.cons (.present _ _ [] _ signed_openAssertion
        (by decide))
      (.cons (.prune _ openAssertion [] (newYear + openEnded)
        (by decide))
      (.cons (.pass _ openAssertion [] (newYear + openEnded)
        (openRecord (newYear + openEnded)) (by decide)
        (by decide))
      (.cons (.record _ _ _ _ (List.mem_cons_self))
      (.nil _))))))))), by decide⟩

end ThreatOrbit.Auth
