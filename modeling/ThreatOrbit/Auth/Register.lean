import ThreatOrbit.Lib.Run
import ThreatOrbit.Lib.Python
import ThreatOrbit.Auth.Accounts

/-
  Self-service sign-ups in flight.

  A sign-up reads whether its email is free and whether there
  is any user, inserts its row and commits. The first account
  becomes the administrator.
-/

---- Sign-Ups

namespace ThreatOrbit.Auth

open Lib

section

/- The body of `register`. -/
structure RegisterRequest where
  name : Str
  email : Str
  password : Str
deriving DecidableEq, Repr

/- What `register` takes from the configuration, with the
password policy and the hash. -/
structure SignupPolicy where
  allowRegistration : Bool
  verifiesEmail : Bool
  passwordError : Str → Str → Str → Option Str
  hashPassword : Str → Str × Str

/- `_EMAIL_RE`, on a stripped text: a name, one `@`, and a
host with a dot inside. -/
def isEmail (text : Str) : Bool :=
  match splitOn (cp '@') text with
  | [name, host] =>
      name ≠ [] && !text.any isSpace &&
        (host.drop 1).dropLast.contains (cp '.')
  | _ => false

variable [Unicode]

/- The email of a sign-up. -/
def RegisterRequest.address (body : RegisterRequest) : Str :=
  Unicode.lower (strip body.email)

/- What `register` refuses before it opens the database. -/
def registerError
    (p : SignupPolicy)
    (throttled : Bool)
    (body : RegisterRequest) : Option HttpError :=
  let name := strip body.name
  let email := body.address
  if !p.allowRegistration then
    some ⟨403, lit "Self-service registration is disabled"⟩
  else if throttled then
    some ⟨429, lit "Too many attempts. Try again later."⟩
  else if name = [] then
    some ⟨400, lit "Name is required"⟩
  else if 200 < name.length then
    some ⟨400, lit "Name must be 200 characters or fewer"⟩
  else if !isEmail email then
    some ⟨400, lit "Enter a valid email address"⟩
  else
    (p.passwordError body.password email name).map
      fun reason => ⟨400, reason⟩

/- The row that `register` inserts. -/
def newAccount
    (p : SignupPolicy)
    (body : RegisterRequest)
    (first : Bool)
    (uid now : Str) : User :=
  let pending := p.verifiesEmail && !first
  let (hash, salt) := p.hashPassword body.password
  { id := uid
    email := body.address
    name := strip body.name
    role := if first then lit "admin" else lit "analyst"
    status := if pending then lit "pending" else lit "active"
    passwordHash := hash
    passwordSalt := salt
    avatarColor := lit "#FF2E97"
    mfaEnabled := false
    mfaSecret := none
    lastLogin := if pending then none else some now
    createdAt := now
    orgId := none
    tokenEpoch := 0 }

/- How far a sign-up is; from the count on with whether it has
found no user. -/
inductive Stage where
| validated
| emailFree
| counted (first : Bool)
| inserted (first : Bool)
deriving DecidableEq, Repr

/- A sign-up in flight. -/
structure Signup where
  body : RegisterRequest
  uid : Str
  now : Str
  stage : Stage
deriving DecidableEq, Repr

/- The committed users, and the requests. -/
structure Signups (κ : Type*) where
  users : List User
  requests : κ → Option Signup

variable {κ : Type*} [DecidableEq κ]

/- A request goes on, or ends. -/
def Signups.set
    (s : Signups κ)
    (k : κ)
    (next : Option Signup) : Signups κ :=
  { s with requests := Function.update s.requests k next }

/- A row clashes with the id or the email of a user. -/
def Signup.clashes (a : Signup) (users : List User) : Bool :=
  users.any fun u => u.email == a.body.address || u.id == a.uid

inductive RegisterCall (κ : Type*) where
| arrive (k : κ)
| readEmail (k : κ)
| readCount (k : κ)
| insert (k : κ)
| commit (k : κ)
| fail (k : κ)

/- One read or write of a request. Reads are of the committed
users. A row whose id or email another request has inserted
waits for it to commit or fail. -/
inductive RegisterStep
    (p : SignupPolicy) :
    Signups κ → RegisterCall κ → Signups κ → Prop
| arrive
    (s : Signups κ) (k : κ) (body : RegisterRequest)
    (uid now : Str)
    (hNew : s.requests k = none)
    (hOk : registerError p false body = none) :
    RegisterStep p s (.arrive k)
      (s.set k (some ⟨body, uid, now, .validated⟩))
| taken
    (s : Signups κ) (k : κ) (a : Signup)
    (hHere : s.requests k = some a)
    (hStage : a.stage = .validated)
    (hTaken :
      (s.users.any fun u => u.email == a.body.address) = true) :
    RegisterStep p s (.readEmail k) (s.set k none)
| free
    (s : Signups κ) (k : κ) (a : Signup)
    (hHere : s.requests k = some a)
    (hStage : a.stage = .validated)
    (hFree :
      (s.users.any fun u => u.email == a.body.address) = false) :
    RegisterStep p s (.readEmail k)
      (s.set k (some { a with stage := .emailFree }))
| count
    (s : Signups κ) (k : κ) (a : Signup)
    (hHere : s.requests k = some a)
    (hStage : a.stage = .emailFree) :
    RegisterStep p s (.readCount k)
      (s.set k
        (some { a with stage := .counted s.users.isEmpty }))
| insert
    (s : Signups κ) (k : κ) (a : Signup) (first : Bool)
    (hHere : s.requests k = some a)
    (hStage : a.stage = .counted first)
    (hUnique : a.clashes s.users = false)
    (hAlone :
      ∀ j b g, s.requests j = some b → b.stage = .inserted g →
        b.body.address ≠ a.body.address ∧ b.uid ≠ a.uid) :
    RegisterStep p s (.insert k)
      (s.set k (some { a with stage := .inserted first }))
| conflict
    (s : Signups κ) (k : κ) (a : Signup) (first : Bool)
    (hHere : s.requests k = some a)
    (hStage : a.stage = .counted first)
    (hClash : a.clashes s.users = true) :
    RegisterStep p s (.insert k) (s.set k none)
| commit
    (s : Signups κ) (k : κ) (a : Signup) (first : Bool)
    (hHere : s.requests k = some a)
    (hStage : a.stage = .inserted first) :
    RegisterStep p s (.commit k)
      { (s.set k none) with
        users :=
          s.users ++ [newAccount p a.body first a.uid a.now] }
| fail
    (s : Signups κ) (k : κ) (a : Signup)
    (hHere : s.requests k = some a) :
    RegisterStep p s (.fail k) (s.set k none)

/- No user, and no request. -/
def noSignups : Signups κ where
  users := []
  requests := fun _ => none

def User.isAdmin (u : User) : Bool :=
  u.role = lit "admin"

/- At most one of the accounts is an administrator, and no two
share an email. -/
structure OneAdmin (s : Signups κ) : Prop where
  admins : s.users.countP User.isAdmin ≤ 1
  emails : (s.users.map User.email).Nodup

/- A request that has counted no user commits while there is
none. -/
def CountStands
    (e : Transition (Signups κ) (RegisterCall κ)) : Prop :=
  ∀ k a, e.label = .commit k →
    e.pre.requests k = some a →
    a.stage = .inserted true → e.pre.users = []

end

---- What Every Step Keeps

section

variable [Unicode]

/- What a request in flight has read still holds as far as it
can: its inserted row is new, and with no user it has counted
none. -/
structure Signup.Fits
    (users : List User)
    (a : Signup) : Prop where
  new :
    ∀ first, a.stage = .inserted first →
      ∀ u ∈ users, u.email ≠ a.body.address
  counted :
    users = [] → ∀ first,
      a.stage = .counted first ∨ a.stage = .inserted first →
        first = true

variable {κ : Type*} [DecidableEq κ]

/- The emails differ, there is one administrator as soon as
there is a user, and the inserted rows are new and differ. -/
structure SignupInv (s : Signups κ) : Prop where
  emails : (s.users.map User.email).Nodup
  admins : s.users = [] ∨ s.users.countP User.isAdmin = 1
  fits : ∀ k a, s.requests k = some a → a.Fits s.users
  apart :
    ∀ j k a b f g,
      s.requests j = some a → s.requests k = some b →
      a.stage = .inserted f → b.stage = .inserted g →
      j ≠ k → a.body.address ≠ b.body.address

omit [DecidableEq κ] in
theorem SignupInv.start : SignupInv (noSignups (κ := κ)) := by
  refine ⟨List.nodup_nil, Or.inl rfl, ?_, ?_⟩
  · intro k a hHere
    cases hHere
  · intro j k a b f g hHere
    cases hHere

/- A request before its insert fits what it reads. -/
theorem fits_of_early
    {users : List User} {a : Signup}
    (hStage : a.stage = .validated ∨ a.stage = .emailFree) :
    a.Fits users := by
  constructor
  · intro first hInserted
    rcases hStage with hIs | hIs
    · rw [hIs] at hInserted
      cases hInserted
    · rw [hIs] at hInserted
      cases hInserted
  · rintro _ first (hLater | hLater)
    · rcases hStage with hIs | hIs
      · rw [hIs] at hLater
        cases hLater
      · rw [hIs] at hLater
        cases hLater
    · rcases hStage with hIs | hIs
      · rw [hIs] at hLater
        cases hLater
      · rw [hIs] at hLater
        cases hLater

/- One request goes on, with a row that no other has. -/
theorem SignupInv.set
    {s : Signups κ}
    (hInv : SignupInv s) {k : κ} {next : Option Signup}
    (hFits : ∀ a, next = some a → a.Fits s.users)
    (hApart :
      ∀ a f, next = some a → a.stage = .inserted f →
        ∀ j b g, s.requests j = some b →
          b.stage = .inserted g → j ≠ k →
          b.body.address ≠ a.body.address) :
    SignupInv (s.set k next) := by
  refine ⟨hInv.emails, hInv.admins,
    forall_update hInv.fits hFits, ?_⟩
  intro i j a b f g hA hB hF hG hOther
  change Function.update s.requests k next i = some a at hA
  change Function.update s.requests k next j = some b at hB
  by_cases hI : i = k
  · have hJ : j ≠ k := fun h => hOther (hI.trans h.symm)
    rw [hI, Function.update_self] at hA
    rw [Function.update_of_ne hJ] at hB
    exact (hApart a f hA hF j b g hB hG hJ).symm
  · rw [Function.update_of_ne hI] at hA
    by_cases hJ : j = k
    · rw [hJ, Function.update_self] at hB
      exact hApart b g hB hG i a f hA hF hI
    · rw [Function.update_of_ne hJ] at hB
      exact hInv.apart i j a b f g hA hB hF hG hOther

/- A request that ends, or is not yet at its insert. -/
theorem SignupInv.set_early
    {s : Signups κ}
    (hInv : SignupInv s) {k : κ} {next : Option Signup}
    (hFits : ∀ a, next = some a → a.Fits s.users)
    (hEarly :
      ∀ a f, next = some a → a.stage ≠ .inserted f) :
    SignupInv (s.set k next) := by
  apply hInv.set hFits
  intro a f hNext hStage
  exact absurd hStage (hEarly a f hNext)

theorem SignupInv.set_none
    {s : Signups κ}
    (hInv : SignupInv s) (k : κ) :
    SignupInv (s.set k none) := by
  apply hInv.set_early
  · intro a hNone
    cases hNone
  · intro a f hNone
    cases hNone

omit [DecidableEq κ] in
theorem email_ne_of_not_clashes
    {a : Signup} {users : List User}
    (hUnique : a.clashes users = false) :
    ∀ u ∈ users, u.email ≠ a.body.address := by
  intro u hu hSame
  have hNone := List.any_eq_false.mp hUnique u hu
  rw [hSame] at hNone
  simp at hNone

@[simp]
theorem newAccount_email
    (p : SignupPolicy) (body : RegisterRequest) (first : Bool)
    (uid now : Str) :
    (newAccount p body first uid now).email = body.address :=
  rfl

theorem newAccount_isAdmin
    (p : SignupPolicy) (body : RegisterRequest) (first : Bool)
    (uid now : Str) :
    (newAccount p body first uid now).isAdmin = first := by
  cases first with
  | true => exact decide_eq_true rfl
  | false =>
      apply decide_eq_false
      show lit "analyst" ≠ lit "admin"
      decide

/- A commit keeps the invariant where the count stands. -/
theorem SignupInv.commit
    {s : Signups κ}
    (hInv : SignupInv s) (p : SignupPolicy)
    {k : κ} {a : Signup} {first : Bool}
    (hHere : s.requests k = some a)
    (hStage : a.stage = .inserted first)
    (hStands : first = true → s.users = []) :
    SignupInv
      { (s.set k none) with
        users :=
          s.users ++ [newAccount p a.body first a.uid a.now] } := by
  have hFits := hInv.fits k a hHere
  refine ⟨?_, Or.inr ?_, ?_, ?_⟩
  · dsimp only
    rw [List.map_append, List.map_singleton, newAccount_email,
      List.nodup_append]
    refine ⟨hInv.emails, List.nodup_singleton _, ?_⟩
    intro email hEmail other hOther
    rcases List.mem_map.mp hEmail with ⟨u, hu, rfl⟩
    rw [List.mem_singleton.mp hOther]
    exact hFits.new first hStage u hu
  · dsimp only
    rw [List.countP_append, List.countP_singleton,
      newAccount_isAdmin]
    cases first with
    | true => simp [hStands rfl]
    | false =>
        rcases hInv.admins with hNone | hOne
        · have hFirst :=
            hFits.counted hNone false (Or.inr hStage)
          cases hFirst
        · simp [hOne]
  · intro j b hB
    change Function.update s.requests k none j = some b at hB
    by_cases hJ : j = k
    · rw [hJ, Function.update_self] at hB
      cases hB
    · rw [Function.update_of_ne hJ] at hB
      constructor
      · intro g hG u hu
        rcases List.mem_append.mp hu with hOld | hNew
        · exact (hInv.fits j b hB).new g hG u hOld
        · rw [List.mem_singleton.mp hNew, newAccount_email]
          exact hInv.apart k j a b first g hHere hB hStage hG
            (Ne.symm hJ)
      · intro hNil
        cases (List.append_eq_nil_iff.mp hNil).2
  · exact (hInv.set_none k).apart

/- Every step keeps the invariant where the count stands. -/
theorem SignupInv.step
    {p : SignupPolicy} {s next : Signups κ} {call : RegisterCall κ}
    (hInv : SignupInv s) (hStep : RegisterStep p s call next)
    (hStands : CountStands ⟨s, call, next⟩) :
    SignupInv next := by
  cases hStep with
  | arrive k body uid now hNew hOk =>
      apply hInv.set_early
      · intro a hA
        rw [← Option.some.inj hA]
        exact fits_of_early (Or.inl rfl)
      · intro a f hA
        rw [← Option.some.inj hA]
        exact Stage.noConfusion
  | taken k a hHere hStage hTaken => exact hInv.set_none k
  | free k a hHere hStage hFree =>
      apply hInv.set_early
      · intro b hB
        rw [← Option.some.inj hB]
        exact fits_of_early (Or.inr rfl)
      · intro b f hB
        rw [← Option.some.inj hB]
        exact Stage.noConfusion
  | count k a hHere hStage =>
      apply hInv.set_early
      · intro b hB
        rw [← Option.some.inj hB]
        refine ⟨fun first hIs => Stage.noConfusion hIs, ?_⟩
        rintro hNone first (hIs | hIs)
        · cases hIs
          rw [hNone]
          rfl
        · cases hIs
      · intro b f hB
        rw [← Option.some.inj hB]
        exact Stage.noConfusion
  | insert k a first hHere hStage hUnique hAlone =>
      apply hInv.set
      · intro b hB
        rw [← Option.some.inj hB]
        refine ⟨fun _ _ => email_ne_of_not_clashes hUnique, ?_⟩
        rintro hNone g (hIs | hIs)
        · cases hIs
        · cases hIs
          exact (hInv.fits k a hHere).counted hNone first
            (Or.inl hStage)
      · intro b f hB hF j c g hC hG _
        rw [← Option.some.inj hB]
        exact (hAlone j c g hC hG).1
  | conflict k a first hHere hStage hClash =>
      exact hInv.set_none k
  | commit k a first hHere hStage =>
      apply hInv.commit p hHere hStage
      intro hFirst
      rw [hFirst] at hStage
      exact hStands k a rfl hHere hStage
  | fail k a hHere => exact hInv.set_none k

omit [DecidableEq κ] in
theorem SignupInv.oneAdmin
    {s : Signups κ}
    (hInv : SignupInv s) :
    OneAdmin s := by
  refine ⟨?_, hInv.emails⟩
  rcases hInv.admins with hNone | hOne
  · simp [hNone]
  · exact le_of_eq hOne

/- With a second administrator the count does not stand. -/
theorem countStands_of_oneAdmin
    {p : SignupPolicy} {s next : Signups κ} {call : RegisterCall κ}
    (hInv : SignupInv s) (hStep : RegisterStep p s call next)
    (hOne : OneAdmin next) :
    CountStands ⟨s, call, next⟩ := by
  intro k a hLabel hHere hStage
  cases hStep with
  | commit k' b first hThere hFirst =>
      cases hLabel
      have hSame := Option.some.inj (hThere.symm.trans hHere)
      rw [hSame, hStage] at hFirst
      cases hFirst
      rcases hInv.admins with hNone | hAdmin
      · exact hNone
      · have hCount := hOne.admins
        dsimp only at hCount
        rw [List.countP_append, List.countP_singleton,
          newAccount_isAdmin, hAdmin] at hCount
        simp at hCount
  | arrive => cases hLabel
  | taken => cases hLabel
  | free => cases hLabel
  | count => cases hLabel
  | insert => cases hLabel
  | conflict => cases hLabel
  | fail => cases hLabel

/- From an empty table, there is at most one administrator
after every step of a run exactly if each request that has
counted no user commits while there is none. -/
theorem one_admin_iff
    {p : SignupPolicy}
    {trace : List (Transition (Signups κ) (RegisterCall κ))}
    {t : Signups κ}
    (hRun : Run (RegisterStep p) noSignups trace t) :
    (∀ e ∈ trace, OneAdmin e.post) ↔
      ∀ e ∈ trace, CountStands e :=
  Run.forall_post_iff
    (fun _ hInv => hInv.oneAdmin)
    (fun _ _ _ hInv hStep hStands => hInv.step hStep hStands)
    (fun _ _ _ hInv hStep hOne =>
      countStands_of_oneAdmin hInv hStep hOne)
    hRun SignupInv.start

end

---- Two Sign-Ups

local instance signupUnicode : Unicode := asciiTables

/- Anyone may sign up, with any password. -/
def openSignup : SignupPolicy where
  allowRegistration := true
  verifiesEmail := false
  passwordError := fun _ _ _ => none
  hashPassword := fun _ => ([], [])

def annSignup : RegisterRequest :=
  ⟨lit "Ann", lit "ann@example.com", []⟩

def bobSignup : RegisterRequest :=
  ⟨lit "Bob", lit "bob@example.com", []⟩

theorem annSignup_ok :
    registerError openSignup false annSignup = none := by
  decide

theorem bobSignup_ok :
    registerError openSignup false bobSignup = none := by
  decide

def signupOf (k : Bool) (stage : Stage) : Signup where
  body := if k then bobSignup else annSignup
  uid := if k then lit "2" else lit "1"
  now := []
  stage := stage

/- The requests at stages of theirs, over some users. -/
def signupsAt
    (users : List User)
    (stages : Bool → Option Stage) : Signups Bool where
  users := users
  requests := fun k => (stages k).map (signupOf k)

theorem signupsAt_set
    (users : List User) (stages : Bool → Option Stage) (k : Bool)
    (next : Option Stage) :
    (signupsAt users stages).set k (next.map (signupOf k)) =
      signupsAt users (Function.update stages k next) := by
  unfold signupsAt Signups.set
  congr 1
  funext j
  by_cases hSame : j = k
  · rw [hSame, Function.update_self, Function.update_self]
  · rw [Function.update_of_ne hSame, Function.update_of_ne hSame]

theorem requests_signupsAt
    {users : List User} {stages : Bool → Option Stage} {k : Bool}
    {stage : Stage}
    (hStage : stages k = some stage) :
    (signupsAt users stages).requests k =
      some (signupOf k stage) := by
  unfold signupsAt
  dsimp only
  rw [hStage]
  rfl

variable {users : List User}
variable {stages : Bool → Option Stage}

theorem signup_arrives
    {k : Bool}
    (hNone : stages k = none) :
    RegisterStep openSignup (signupsAt users stages) (.arrive k)
      (signupsAt users
        (Function.update stages k (some .validated))) := by
  rw [← signupsAt_set]
  refine .arrive _ k (signupOf k .validated).body
    (signupOf k .validated).uid [] ?_ ?_
  · unfold signupsAt
    dsimp only
    rw [hNone]
    rfl
  · cases k with
    | true => exact bobSignup_ok
    | false => exact annSignup_ok

theorem signup_readsEmail
    {k : Bool}
    (hStage : stages k = some .validated)
    (hFree :
      (users.any fun u =>
        u.email == (signupOf k .validated).body.address) =
          false) :
    RegisterStep openSignup (signupsAt users stages)
      (.readEmail k)
      (signupsAt users
        (Function.update stages k (some .emailFree))) := by
  rw [← signupsAt_set]
  exact .free _ k _ (requests_signupsAt hStage) rfl hFree

theorem signup_counts
    {k : Bool}
    (hStage : stages k = some .emailFree) :
    RegisterStep openSignup (signupsAt users stages)
      (.readCount k)
      (signupsAt users
        (Function.update stages k
          (some (.counted users.isEmpty)))) := by
  rw [← signupsAt_set]
  exact .count _ k _ (requests_signupsAt hStage) rfl

/- A request inserts while the other has not. -/
theorem signup_inserts
    {k first : Bool}
    (hStage : stages k = some (.counted first))
    (hUnique :
      (signupOf k (.counted first)).clashes users = false)
    (hOther : ∀ g, stages (!k) ≠ some (.inserted g)) :
    RegisterStep openSignup (signupsAt users stages)
      (.insert k)
      (signupsAt users
        (Function.update stages k
          (some (.inserted first)))) := by
  rw [← signupsAt_set]
  refine .insert _ k _ first (requests_signupsAt hStage) rfl
    hUnique ?_
  intro j b g hHere hInserted
  rcases Option.map_eq_some_iff.mp hHere with ⟨stage, hJ, rfl⟩
  have hIs : stage = .inserted g := hInserted
  rw [hIs] at hJ
  by_cases hSame : j = k
  · rw [hSame, hStage] at hJ
    cases hJ
  · have hNot : j = !k := by
      cases j <;> cases k <;> simp at hSame ⊢
    rw [hNot] at hJ
    exact absurd hJ (hOther g)

theorem signup_commits
    {k first : Bool}
    (hStage : stages k = some (.inserted first)) :
    RegisterStep openSignup (signupsAt users stages)
      (.commit k)
      (signupsAt
        (users ++
          [newAccount openSignup (signupOf k .validated).body
            first (signupOf k .validated).uid []])
        (Function.update stages k none)) := by
  have hStep :=
    RegisterStep.commit (p := openSignup) _ k _ first
      (@requests_signupsAt users _ _ _ hStage) rfl
  have hSet := signupsAt_set users stages k none
  rw [Option.map_none] at hSet
  rw [hSet] at hStep
  exact hStep

/- No request of the two has arrived. -/
def nobodyYet : Bool → Option Stage :=
  fun _ => none

/- A count of no user stands while there is none, and a count
of some users stands. -/
theorem countStands_empty
    {call : RegisterCall Bool} {t : Signups Bool} :
    CountStands ⟨signupsAt [] stages, call, t⟩ :=
  fun _ _ _ _ _ => rfl

theorem countStands_quiet
    {s t : Signups Bool} {call : RegisterCall Bool}
    (hQuiet : ∀ k, call ≠ .commit k) :
    CountStands ⟨s, call, t⟩ :=
  fun k _ hLabel => absurd hLabel (hQuiet k)

theorem countStands_later
    {k : Bool} {t : Signups Bool}
    (hStage : stages k = some (.inserted false)) :
    CountStands ⟨signupsAt users stages, .commit k, t⟩ := by
  intro j a hLabel hHere hFirst
  cases hLabel
  have hSame :=
    (@requests_signupsAt users _ _ _ hStage).symm.trans hHere
  rw [← Option.some.inj hSame] at hFirst
  cases hFirst

/- One after the other: Bob counts Ann. -/
theorem one_after_the_other :
    ∃ trace t,
      Run (RegisterStep openSignup) (noSignups (κ := Bool))
          trace t ∧
      t.users.length = 2 ∧ ∀ e ∈ trace, OneAdmin e.post := by
  have hRun :=
    Run.cons (@signup_arrives [] nobodyYet false rfl) <|
    .cons (signup_readsEmail (k := false) rfl rfl) <|
    .cons (signup_counts (k := false) rfl) <|
    .cons (signup_inserts (k := false) rfl rfl
      (by decide)) <|
    .cons (signup_commits (k := false) rfl) <|
    .cons (signup_arrives (k := true) rfl) <|
    .cons (signup_readsEmail (k := true) rfl
      (by decide)) <|
    .cons (signup_counts (k := true) rfl) <|
    .cons (signup_inserts (k := true) rfl (by decide)
      (by decide)) <|
    .cons (signup_commits (k := true) rfl) <|
    .nil _
  refine ⟨_, _, hRun, rfl, (one_admin_iff hRun).mpr ?_⟩
  simp only [List.forall_mem_cons]
  exact ⟨countStands_empty, countStands_empty,
    countStands_empty, countStands_empty, countStands_empty,
    countStands_quiet nofun,
    countStands_quiet nofun,
    countStands_quiet nofun,
    countStands_quiet nofun,
    countStands_later rfl, List.forall_mem_nil _⟩

/- Both count before either commits. -/
theorem both_count_none :
    ∃ trace t,
      Run (RegisterStep openSignup) (noSignups (κ := Bool))
          trace t ∧
        ¬ OneAdmin t := by
  have hRun :=
    Run.cons (@signup_arrives [] nobodyYet false rfl) <|
    .cons (signup_arrives (k := true) rfl) <|
    .cons (signup_readsEmail (k := false) rfl rfl) <|
    .cons (signup_readsEmail (k := true) rfl rfl) <|
    .cons (signup_counts (k := false) rfl) <|
    .cons (signup_counts (k := true) rfl) <|
    .cons (signup_inserts (k := false) rfl rfl
      (by decide)) <|
    .cons (signup_commits (k := false) rfl) <|
    .cons (signup_inserts (k := true) rfl (by decide)
      (by decide)) <|
    .cons (signup_commits (k := true) rfl) <|
    .nil _
  refine ⟨_, _, hRun, ?_⟩
  intro hOne
  have hCount := hOne.admins
  revert hCount
  decide

end ThreatOrbit.Auth
