import ThreatOrbit.Lib.Run
import ThreatOrbit.Auth.Accounts

/-
  The limits on users and assets, next to the requests that
  add them: each reads what it checks and inserts later, and
  several requests are in flight.
-/

---- Checks

namespace ThreatOrbit.Tenancy

open Lib
open Auth

/- What a workspace has a limit on. -/
inductive Resource where
| users
| assets
deriving DecidableEq, Repr

def Resource.name : Resource → Str
| .users => lit "users"
| .assets => lit "assets"

/- A row of `users` or `assets`: its email or its name, and
its workspace. -/
structure Member where
  key : Str
  orgId : Str
deriving DecidableEq, Repr

/- The active licence. Without a limit it is unlimited. -/
structure Licence where
  label : Str
  seats : Option Nat
deriving DecidableEq, Repr

/- `check_limit` of the seats. -/
def checkLimit
    (licence : Licence)
    (users : List Member) : Option HttpError :=
  match licence.seats with
  | none => none
  | some limit =>
      let used := users.length
      if used + 1 > limit then
        some ⟨402, licence.label ++ lit " plan allows " ++
          natStr limit ++ lit " users (" ++ natStr used ++
          lit " in use) - upgrade the license to add more"⟩
      else none

/- The rows of a workspace. -/
def countIn (org : Str) (rows : List Member) : Nat :=
  (rows.filter fun r => r.orgId == org).length

def enforceQuota
    (multiTenant : Bool)
    (resource : Resource)
    (limit : Option Nat)
    (org : Str)
    (rows : List Member) : Option HttpError :=
  if multiTenant = false then none
  else
    match limit with
    | none => none
    | some limit =>
        let used := countIn org rows
        if used ≥ limit then
          some ⟨402, lit "Workspace quota reached for " ++
            resource.name ++ lit " (" ++ natStr used ++
            lit "/" ++ natStr limit ++ lit ")"⟩
        else none

/- The requests that add a row. -/
inductive Path where
| createUser
| register
| scimCreateUser
| oidcProvision
| samlProvision
| createAsset
| promoteDiscovered
deriving DecidableEq, Repr

def Path.resource : Path → Resource
| .createAsset | .promoteDiscovered => .assets
| _ => .users

/- What a request reads before it inserts. -/
inductive Check where
| keyFree
| seats
| quota
deriving DecidableEq, Repr

/- The checks of each request, in their order. -/
def Path.checks : Path → List Check
| .createUser => [.keyFree, .seats, .quota]
| .createAsset => [.quota]
| .register | .scimCreateUser | .oidcProvision
| .samlProvision | .promoteDiscovered => [.keyFree]

/- The workspace of the new row. -/
def Path.org (actorOrg : Str) : Path → Str
| .createUser | .createAsset | .promoteDiscovered => actorOrg
| _ => defaultOrgId

/- What a request answers when the key is in use. A provision
updates the row instead. -/
def Path.taken : Path → HttpError
| .createUser =>
    ⟨409, lit "A user with that email already exists"⟩
| .register =>
    ⟨409, lit "An account with that email already exists"⟩
| .scimCreateUser =>
    ⟨409, lit "a user with this userName already exists"⟩
| .promoteDiscovered =>
    ⟨409, lit "Asset already in the inventory"⟩
| .oidcProvision | .samlProvision => ⟨302, []⟩
| .createAsset => ⟨500, lit "Internal Server Error"⟩

---- Requests In Flight

/- A request: the checks it has still to make, and whether a
limit it has consulted has been as it was since, with no
row added under it. -/
structure Adding where
  path : Path
  key : Str
  org : Str
  left : List Check
  quotaFresh : Bool
  seatsFresh : Bool
deriving DecidableEq, Repr

/- The rows, the limits of the workspaces, the licence, and
the requests; and which limits the rows were within when
they were set. -/
structure Quotas where
  rows : Resource → List Member
  limits : Resource → Str → Option Nat
  licence : Licence
  requests : Nat → Option Adding
  within : Resource → Str → Bool
  licenceWithin : Bool

/- What a check of a request refuses with. -/
def Quotas.refuses
    (multiTenant : Bool)
    (q : Quotas)
    (a : Adding) : Check → Option HttpError
| .keyFree =>
    if (q.rows a.path.resource).any fun r => r.key == a.key then
      some a.path.taken
    else none
| .seats => checkLimit q.licence (q.rows .users)
| .quota =>
    enforceQuota multiTenant a.path.resource
      (q.limits a.path.resource a.org) a.org
      (q.rows a.path.resource)

/- A request that has passed a check. -/
def Adding.passed (c : Check) (rest : List Check) (a : Adding) :
    Adding :=
  { a with
    left := rest
    quotaFresh := a.quotaFresh || c == .quota
    seatsFresh := a.seatsFresh || c == .seats }

/- A request whose quota is not as it was. -/
def Adding.stale
    (resource : Resource)
    (org : Str)
    (a : Adding) : Adding :=
  if a.path.resource = resource ∧ a.org = org then
    { a with quotaFresh := false }
  else a

/- A request under a licence that is not as it was. -/
def Adding.seatsStale (a : Adding) : Adding :=
  { a with seatsFresh := false }

/- A request after a row was added. -/
def Adding.afterInsert
    (resource : Resource)
    (org : Str)
    (a : Adding) : Adding :=
  let a := a.stale resource org
  if resource = .users then a.seatsStale else a

/- The database refuses a second user with an email. -/
def Quotas.duplicate (q : Quotas) (a : Adding) : Bool :=
  a.path.resource == .users &&
    (q.rows .users).any fun r => r.key == a.key

def Quotas.insert (k : Nat) (a : Adding) (q : Quotas) : Quotas :=
  if q.duplicate a then
    { q with requests := Function.update q.requests k none }
  else
    { q with
      rows := Function.update q.rows a.path.resource
        (q.rows a.path.resource ++ [⟨a.key, a.org⟩])
      requests := fun j =>
        if j = k then none
        else (q.requests j).map
          (Adding.afterInsert a.path.resource a.org) }

inductive QuotaCall where
| arrive (k : Nat) (path : Path) (key actorOrg : Str)
| check (k : Nat)
| insert (k : Nat)
| setLimit
    (resource : Resource) (org : Str) (limit : Option Nat)
| setLicence (licence : Licence)
deriving DecidableEq, Repr

/- One read or insertion of a request, or a limit that is
set. -/
inductive QuotaStep
    (multiTenant : Bool) : Quotas → QuotaCall → Quotas → Prop
| arrive
    (q : Quotas) (k : Nat) (path : Path) (key actorOrg : Str)
    (hNew : q.requests k = none) :
    QuotaStep multiTenant q (.arrive k path key actorOrg)
      { q with
        requests := Function.update q.requests k
          (some ⟨path, key, path.org actorOrg, path.checks,
            false, false⟩) }
| passes
    (q : Quotas) (k : Nat) (a : Adding)
    (c : Check) (rest : List Check)
    (hHere : q.requests k = some a)
    (hLeft : a.left = c :: rest)
    (hPasses : q.refuses multiTenant a c = none) :
    QuotaStep multiTenant q (.check k)
      { q with
        requests :=
          Function.update q.requests k (some (a.passed c rest)) }
| refused
    (q : Quotas) (k : Nat) (a : Adding)
    (c : Check) (rest : List Check) (e : HttpError)
    (hHere : q.requests k = some a)
    (hLeft : a.left = c :: rest)
    (hRefuses : q.refuses multiTenant a c = some e) :
    QuotaStep multiTenant q (.check k)
      { q with requests := Function.update q.requests k none }
| insert
    (q : Quotas) (k : Nat) (a : Adding)
    (hHere : q.requests k = some a)
    (hLeft : a.left = []) :
    QuotaStep multiTenant q (.insert k) (q.insert k a)
| setLimit
    (q : Quotas) (resource : Resource) (org : Str)
    (limit : Option Nat) :
    QuotaStep multiTenant q (.setLimit resource org limit)
      { q with
        limits := Function.update q.limits resource
          (Function.update (q.limits resource) org limit)
        within := Function.update q.within resource
          (Function.update (q.within resource) org
            (limit.all fun l => countIn org (q.rows resource) ≤ l))
        requests := fun j =>
          (q.requests j).map (Adding.stale resource org) }
| setLicence (q : Quotas) (licence : Licence) :
    QuotaStep multiTenant q (.setLicence licence)
      { q with
        licence
        licenceWithin :=
          licence.seats.all fun l => (q.rows .users).length ≤ l
        requests := fun j =>
          (q.requests j).map Adding.seatsStale }

/- No workspace that was within its limit exceeds it, and the
users do not exceed the seats of the licence. -/
structure QuotasHold
    (multiTenant : Bool)
    (q : Quotas) : Prop where
  quota :
    multiTenant = true →
      ∀ resource org limit,
        q.limits resource org = some limit →
        q.within resource org = true →
          countIn org (q.rows resource) ≤ limit
  seats :
    ∀ limit, q.licence.seats = some limit →
      q.licenceWithin = true → (q.rows .users).length ≤ limit

/- A row is inserted while its workspace, and the licence for
a user, have room. -/
def RoomLeft
    (multiTenant : Bool)
    (e : Transition Quotas QuotaCall) : Prop :=
  ∀ k a, e.label = .insert k →
    e.pre.requests k = some a →
    e.pre.duplicate a = false →
    (multiTenant = true →
      ∀ limit,
        e.pre.limits a.path.resource a.org = some limit →
        e.pre.within a.path.resource a.org = true →
          countIn a.org (e.pre.rows a.path.resource) < limit) ∧
      (a.path.resource = .users →
        ∀ limit, e.pre.licence.seats = some limit →
          e.pre.licenceWithin = true →
            (e.pre.rows .users).length < limit)

/- A request inserts where it has consulted every limit there
is, and no row was added and no limit set since. -/
def FitsQuota
    (multiTenant : Bool)
    (e : Transition Quotas QuotaCall) : Prop :=
  ∀ k a, e.label = .insert k →
    e.pre.requests k = some a →
    (multiTenant = true →
      (e.pre.limits a.path.resource a.org).isSome = true →
        a.quotaFresh = true) ∧
      (a.path.resource = .users →
        e.pre.licence.seats.isSome = true →
          a.seatsFresh = true)

/- No request is in flight, and the limits hold. -/
structure Quotas.Starts
    (multiTenant : Bool)
    (q : Quotas) : Prop where
  idle : ∀ k, q.requests k = none
  holds : QuotasHold multiTenant q

---- Insertions

section

variable {multiTenant : Bool}
variable {q : Quotas}

theorem countIn_append
    (org : Str) (rows : List Member) (r : Member) :
    countIn org (rows ++ [r]) =
      countIn org rows + if r.orgId = org then 1 else 0 := by
  unfold countIn
  rw [List.filter_append, List.length_append]
  congr 1
  by_cases hSame : r.orgId = org
  · simp [hSame]
  · simp [hSame]

theorem insert_rows
    {k : Nat} {a : Adding}
    (hNew : q.duplicate a = false) :
    (q.insert k a).rows =
      Function.update q.rows a.path.resource
        (q.rows a.path.resource ++ [⟨a.key, a.org⟩]) := by
  unfold Quotas.insert
  rw [hNew]
  rfl

theorem insert_same
    (k : Nat) (a : Adding) :
    (q.insert k a).limits = q.limits ∧
      (q.insert k a).within = q.within ∧
      (q.insert k a).licence = q.licence ∧
      (q.insert k a).licenceWithin = q.licenceWithin := by
  unfold Quotas.insert
  split
  · exact ⟨rfl, rfl, rfl, rfl⟩
  · exact ⟨rfl, rfl, rfl, rfl⟩

/- The rows of a table after a row was added. -/
theorem update_rows
    (a : Adding) (resource : Resource) (org : Str) :
    countIn org
        (Function.update q.rows a.path.resource
          (q.rows a.path.resource ++ [⟨a.key, a.org⟩])
          resource) =
      countIn org (q.rows resource) +
        if a.path.resource = resource ∧ a.org = org then 1
        else 0 := by
  by_cases hSame : resource = a.path.resource
  · rw [hSame, Function.update_self, countIn_append]
    simp
  · rw [Function.update_of_ne hSame]
    simp [Ne.symm hSame]

end

---- Limits That Are Consulted

section

variable {multiTenant : Bool}
variable {q : Quotas}

/- A limit that a request has consulted, and that is as it
was, has room. -/
structure Adding.Fresh
    (multiTenant : Bool)
    (q : Quotas)
    (a : Adding) : Prop where
  quota :
    a.quotaFresh = true → multiTenant = true →
      ∀ limit, q.limits a.path.resource a.org = some limit →
        countIn a.org (q.rows a.path.resource) < limit
  seats :
    a.seatsFresh = true →
      ∀ limit, q.licence.seats = some limit →
        (q.rows .users).length < limit

def FreshInv (multiTenant : Bool) (q : Quotas) : Prop :=
  ∀ k a, q.requests k = some a → a.Fresh multiTenant q

theorem room_of_enforceQuota
    {resource : Resource} {limit : Nat} {org : Str}
    {rows : List Member}
    (hTenancy : multiTenant = true)
    (hPasses :
      enforceQuota multiTenant resource (some limit) org rows =
        none) :
    countIn org rows < limit := by
  unfold enforceQuota at hPasses
  rw [if_neg (by simp [hTenancy])] at hPasses
  dsimp only at hPasses
  split at hPasses
  · cases hPasses
  · rename_i hRoom
    exact Nat.lt_of_not_ge hRoom

theorem room_of_checkLimit
    {licence : Licence} {limit : Nat} {users : List Member}
    (hLimit : licence.seats = some limit)
    (hPasses : checkLimit licence users = none) :
    users.length < limit := by
  unfold checkLimit at hPasses
  rw [hLimit] at hPasses
  dsimp only at hPasses
  split at hPasses
  · cases hPasses
  · omega

/- A check that passes leaves what it consulted fresh. -/
theorem Adding.Fresh.passed
    {a : Adding} {c : Check}
    (rest : List Check) (hFresh : a.Fresh multiTenant q)
    (hPasses : q.refuses multiTenant a c = none) :
    (a.passed c rest).Fresh multiTenant q := by
  constructor
  · intro hNow hTenancy limit hLimit
    rcases Bool.or_eq_true_iff.mp hNow with hBefore | hThis
    · exact hFresh.quota hBefore hTenancy limit hLimit
    · rw [beq_iff_eq.mp hThis] at hPasses
      have hQuota : enforceQuota multiTenant a.path.resource
          (q.limits a.path.resource a.org) a.org
          (q.rows a.path.resource) = none := hPasses
      have hHere : q.limits a.path.resource a.org =
          some limit := hLimit
      rw [hHere] at hQuota
      exact room_of_enforceQuota hTenancy hQuota
  · intro hNow limit hLimit
    rcases Bool.or_eq_true_iff.mp hNow with hBefore | hThis
    · exact hFresh.seats hBefore limit hLimit
    · rw [beq_iff_eq.mp hThis] at hPasses
      exact room_of_checkLimit hLimit hPasses

theorem stale_same
    (resource : Resource) (org : Str) (a : Adding) :
    (a.stale resource org).path = a.path ∧
      (a.stale resource org).org = a.org ∧
      (a.stale resource org).seatsFresh = a.seatsFresh ∧
      ((a.stale resource org).quotaFresh = true →
        a.quotaFresh = true ∧
          ¬(a.path.resource = resource ∧ a.org = org)) := by
  unfold Adding.stale
  split
  · exact ⟨rfl, rfl, rfl, fun hNow => by cases hNow⟩
  · rename_i hOther
    exact ⟨rfl, rfl, rfl, fun hNow => ⟨hNow, hOther⟩⟩

/- What stays fresh when a row is added. -/
theorem Adding.Fresh.afterInsert
    {a other : Adding} {k : Nat}
    (hFresh : other.Fresh multiTenant q)
    (hNew : q.duplicate a = false) :
    (other.afterInsert a.path.resource a.org).Fresh multiTenant
      (q.insert k a) := by
  rcases insert_same (q := q) k a with
    ⟨hLimits, _, hLicence, _⟩
  have hRows := insert_rows (k := k) hNew
  rcases stale_same a.path.resource a.org other with
    ⟨hPath, hOrg, hSeats, hQuota⟩
  have hSame :
      (other.afterInsert a.path.resource a.org).path =
          other.path ∧
        (other.afterInsert a.path.resource a.org).org =
          other.org ∧
        (other.afterInsert a.path.resource a.org).quotaFresh =
          (other.stale a.path.resource a.org).quotaFresh := by
    unfold Adding.afterInsert
    dsimp only
    split
    · exact ⟨hPath, hOrg, rfl⟩
    · exact ⟨hPath, hOrg, rfl⟩
  constructor
  · intro hNow hTenancy limit hLimit
    rw [hSame.2.2] at hNow
    rcases hQuota hNow with ⟨hBefore, hOther⟩
    rw [hSame.1, hSame.2.1, hLimits] at hLimit
    rw [hSame.1, hSame.2.1, hRows, update_rows, if_neg]
    · exact hFresh.quota hBefore hTenancy limit hLimit
    · rintro ⟨hResource, hHere⟩
      exact hOther ⟨hResource.symm, hHere.symm⟩
  · intro hNow limit hLimit
    rw [hLicence] at hLimit
    unfold Adding.afterInsert at hNow
    dsimp only at hNow
    split at hNow
    · cases hNow
    · rename_i hUsers
      rw [hSeats] at hNow
      rw [hRows, Function.update_of_ne (Ne.symm hUsers)]
      exact hFresh.seats hNow limit hLimit

/- A step of one request leaves the others fresh. -/
theorem FreshInv.update
    (hInv : FreshInv multiTenant q) {k : Nat} {next : Option Adding}
    (hNext : ∀ a, next = some a → a.Fresh multiTenant q) :
    FreshInv multiTenant
      { q with
        requests := Function.update q.requests k next } := by
  intro j a hA
  have hFresh := forall_update hInv hNext j a hA
  exact ⟨hFresh.quota, hFresh.seats⟩

/- Every step keeps what is fresh. -/
theorem FreshInv.step
    {call : QuotaCall} {next : Quotas}
    (hInv : FreshInv multiTenant q)
    (hStep : QuotaStep multiTenant q call next) :
    FreshInv multiTenant next := by
  cases hStep with
  | arrive k path key actorOrg hNew =>
      apply hInv.update
      intro a hA
      rw [← Option.some.inj hA]
      constructor
      · intro hNow
        cases hNow
      · intro hNow
        cases hNow
  | passes k a c rest hHere hLeft hPasses =>
      apply hInv.update
      intro a' hA
      rw [← Option.some.inj hA]
      exact (hInv k a hHere).passed rest hPasses
  | refused k a c rest e hHere hLeft hRefuses =>
      apply hInv.update
      intro a' hA
      cases hA
  | insert k a hHere hLeft =>
      intro j other hOther
      cases hDup : q.duplicate a with
      | true =>
          have hSame : q.insert k a =
              { q with
                requests :=
                  Function.update q.requests k none } := by
            unfold Quotas.insert
            rw [if_pos hDup]
          rw [hSame] at hOther ⊢
          have hKept : FreshInv multiTenant
              { q with
                requests :=
                  Function.update q.requests k none } := by
            apply hInv.update
            intro a' hA
            cases hA
          exact hKept j other hOther
      | false =>
          have hSame : (q.insert k a).requests j =
              if j = k then none
              else (q.requests j).map
                (Adding.afterInsert a.path.resource a.org) := by
            unfold Quotas.insert
            rw [hDup]
            rfl
          rw [hSame] at hOther
          split at hOther
          · cases hOther
          · rcases Option.map_eq_some_iff.mp hOther with
              ⟨before, hBefore, rfl⟩
            exact (hInv j before hBefore).afterInsert hDup
  | setLimit resource org limit =>
      intro j other hOther
      rcases Option.map_eq_some_iff.mp hOther with
        ⟨before, hBefore, rfl⟩
      have hFresh := hInv j before hBefore
      rcases stale_same resource org before with
        ⟨hPath, hOrg, hSeats, hQuota⟩
      constructor
      · intro hNow hTenancy limit' hLimit
        rcases hQuota hNow with ⟨hWas, hElse⟩
        dsimp only at hLimit ⊢
        rw [hPath, hOrg] at hLimit ⊢
        apply hFresh.quota hWas hTenancy limit'
        by_cases hRes : before.path.resource = resource
        · have hAway : before.org ≠ org :=
            fun hHere => hElse ⟨hRes, hHere⟩
          rw [hRes, Function.update_self,
            Function.update_of_ne hAway] at hLimit
          rw [hRes]
          exact hLimit
        · rw [Function.update_of_ne hRes] at hLimit
          exact hLimit
      · intro hNow
        rw [hSeats] at hNow
        exact hFresh.seats hNow
  | setLicence licence =>
      intro j other hOther
      rcases Option.map_eq_some_iff.mp hOther with
        ⟨before, hBefore, rfl⟩
      constructor
      · exact (hInv j before hBefore).quota
      · intro hNow
        cases hNow

/- Where the limits are consulted there is room. -/
theorem FreshInv.room
    {e : Transition Quotas QuotaCall}
    (hInv : FreshInv multiTenant e.pre)
    (hFits : FitsQuota multiTenant e) :
    RoomLeft multiTenant e := by
  intro k a hLabel hHere _
  have hFresh := hInv k a hHere
  rcases hFits k a hLabel hHere with ⟨hQuota, hSeats⟩
  constructor
  · intro hTenancy limit hLimit _
    exact hFresh.quota
      (hQuota hTenancy (by rw [hLimit]; rfl)) hTenancy limit
        hLimit
  · intro hUsers limit hLimit _
    exact hFresh.seats
      (hSeats hUsers (by rw [hLimit]; rfl)) limit hLimit

end

---- Every Step

section

variable {multiTenant : Bool}
variable {q : Quotas}

/- A limit is as it was, or the rows are compared with it
when it is set. -/
theorem QuotasHold.setLimit
    (hHolds : QuotasHold multiTenant q) (resource : Resource)
    (org : Str) (limit : Option Nat)
    (requests : Nat → Option Adding) :
    QuotasHold multiTenant
      { q with
        limits := Function.update q.limits resource
          (Function.update (q.limits resource) org limit)
        within := Function.update q.within resource
          (Function.update (q.within resource) org
            (limit.all fun l => countIn org (q.rows resource) ≤ l))
        requests } := by
  constructor
  · intro hTenancy res o limit' hLimit hIn
    dsimp only at hLimit hIn ⊢
    by_cases hRes : res = resource
    · subst hRes
      rw [Function.update_self] at hLimit hIn
      by_cases hOrg : o = org
      · subst hOrg
        rw [Function.update_self] at hLimit hIn
        rw [hLimit] at hIn
        simpa using hIn
      · rw [Function.update_of_ne hOrg] at hLimit hIn
        exact hHolds.quota hTenancy res o limit' hLimit hIn
    · rw [Function.update_of_ne hRes] at hLimit hIn
      exact hHolds.quota hTenancy res o limit' hLimit hIn
  · exact hHolds.seats

end

---- Concrete Requests

end ThreatOrbit.Tenancy
