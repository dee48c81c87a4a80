import ThreatOrbit.Auth.Mfa

/-
  The throttle of logins and of MFA codes: a request looks at
  the failures of its key, checks a password or a code, and
  records a failure of its own, while others do the same.

  Between the look and the record nothing holds the place of a
  request, so the failures that are recorded do not bound the
  guesses that are on their way.
-/

---- Verdicts

namespace ThreatOrbit.Auth

open Lib

section

/- What a login reads of a user. -/
structure LoginRow where
  passwordHash : Str
  passwordSalt : Str
  status : Str
  orgId : Option Str
  mfa : MfaRow
deriving DecidableEq, Repr

/- What comes of a request that the throttle lets through: it
is refused without a guess, there is no account, the password
or the code is wrong, or it passes. -/
inductive Verdict where
| refused (e : HttpError)
| unknown (e : HttpError)
| wrong (e : HttpError)
| passed
deriving DecidableEq, Repr

/- The digests, and `verify_password`. -/
structure GuessChecks where
  digests : MfaDigests
  verifyPassword : Str → Str → Str → Bool

/- `any(hmac.compare_digest(...))` over steps of the window; what
raises ends it. -/
def anyCode
    (d : MfaDigests)
    (secret cleaned : Str)
    (now : Int) : List Int → Bool
| [] => false
| i :: rest =>
    match codeIs d secret cleaned
        ((now + i * stepMicros) / stepMicros) with
    | none => false
    | some true => true
    | some false => anyCode d secret cleaned now rest

def verifyCode
    (d : MfaDigests)
    (secret code : Str)
    (now : Int) : Bool :=
  let cleaned := (strip code).filter (· != cp ' ')
  if cleaned = [] ∨ secret = [] then false
  else anyCode d secret cleaned now [-1, 0, 1]

variable [Unicode]

def throttleKey (host : Option Str) (email : Str) : Str :=
  host.getD (lit "unknown") ++ lit ":" ++ Unicode.lower email

/- `login` past the throttle, with the row it reads. -/
def loginVerdict
    (c : GuessChecks)
    (row : Option LoginRow)
    (isOrgActive : Str → Bool)
    (password : Str)
    (code : Option Str)
    (clock : Int) : Verdict :=
  match row with
  | none => .unknown (unauthorized (lit "Invalid email or password"))
  | some user =>
      if !c.verifyPassword password user.passwordHash
          user.passwordSalt then
        .wrong (unauthorized (lit "Invalid email or password"))
      else if user.status = lit "disabled" then
        .refused ⟨403, lit "Account disabled"⟩
      else if user.status = lit "pending" then
        .refused ⟨403, lit
          "Please verify your email before signing in - check your inbox for the verification link."⟩
      else if !isOrgActive (orStr user.orgId (lit "default")) then
        .refused ⟨403, lit "Workspace suspended"⟩
      else
        match loginFactor c.digests user.mfa code clock with
        | .ok _ => .passed
        | .error e =>
            if code.getD [] = [] then .refused e else .wrong e

omit [Unicode] in
/- `mfa_verify` past the throttle, with the secret it reads. -/
def mfaVerifyVerdict
    (c : GuessChecks)
    (secret : Option Str)
    (code : Str)
    (clock : Int) : Verdict :=
  if secret.getD [] = [] then
    .refused ⟨400, lit
      "No enrolment in progress - call /auth/mfa/enroll first"⟩
  else if !verifyCode c.digests (secret.getD []) code clock then
    .wrong ⟨400, lit "Invalid MFA code"⟩
  else .passed

inductive Guess where
| login (host : Option Str) (email password : Str)
    (code : Option Str)
| mfaVerify (userId code : Str)
deriving DecidableEq, Repr

def Guess.key : Guess → Str
| .login host email _ _ => throttleKey host email
| .mfaVerify userId _ => lit "mfa:" ++ userId

/- What a request reads of the database. -/
structure GuessRead where
  row : Option LoginRow
  isOrgActive : Str → Bool
  secret : Option Str

def Guess.verdict
    (c : GuessChecks)
    (read : GuessRead)
    (clock : Int) : Guess → Verdict
| .login _ _ password code =>
    loginVerdict c read.row read.isOrgActive password code clock
| .mfaVerify _ code => mfaVerifyVerdict c read.secret code clock

end

---- Requests on Their Way

section

/- `AUTH_MAX_FAILURES` and `AUTH_FAILURE_WINDOW_SEC`. -/
structure ThrottleSettings where
  maxFailures : Nat
  window : Int

/- How far a request has come: past the throttle, with a failure
that it will record, or with a pass. -/
inductive GuessStage where
| admitted (guess : Guess)
| failing
| passing
deriving DecidableEq, Repr

structure Flight where
  key : Str
  stage : GuessStage
deriving DecidableEq, Repr

/- The failures that are recorded, the requests on their way, the
monotonic clock, and, for each key, when guesses were found wrong
and when requests succeeded. -/
structure Throttle where
  failures : Str → List Int
  flights : List Flight
  now : Int
  wrongs : List (Str × Int)
  successes : List (Str × Int)

/- No request yet. -/
def Throttle.start (now : Int) : Throttle where
  failures _ := []
  flights := []
  now := now
  wrongs := []
  successes := []

/- The attempts that `_check_throttle` keeps. -/
def live
    (settings : ThrottleSettings)
    (now : Int)
    (times : List Int) : List Int :=
  times.filter fun t => decide (now - t < settings.window)

inductive GuessLabel where
| check (guess : Guess) (now : Int)
| throttled (guess : Guess)
| judge (key : Str) (verdict : Verdict)
| record (key : Str)
| clear (key : Str)
| abandon (key : Str)
deriving DecidableEq, Repr

variable [Unicode]

/- The steps of any number of requests, at times that do not
decrease. A check throttles its request or lets it through; a
request that is let through reads the database as it then is
and checks its guess; a failure is recorded, and a pass clears
the failures of its key. A request may also end before that. -/
inductive GuessStep
    (settings : ThrottleSettings)
    (c : GuessChecks) :
    Throttle → GuessLabel → Throttle → Prop
| check (s : Throttle) (now : Int) (guess : Guess)
    (hNow : s.now ≤ now)
    (hFree : (live settings now (s.failures guess.key)).length <
      settings.maxFailures) :
    GuessStep settings c s (.check guess now)
      { s with
        failures := Function.update s.failures guess.key
          (live settings now (s.failures guess.key))
        flights := ⟨guess.key, .admitted guess⟩ :: s.flights
        now := now }
| throttled (s : Throttle) (now : Int) (guess : Guess)
    (hNow : s.now ≤ now)
    (hFull : settings.maxFailures ≤
      (live settings now (s.failures guess.key)).length) :
    GuessStep settings c s (.throttled guess)
      { s with
        failures := Function.update s.failures guess.key
          (live settings now (s.failures guess.key))
        now := now }
| wrong (s : Throttle) (now clock : Int) (guess : Guess)
    (read : GuessRead) (e : HttpError) (first rest : List Flight)
    (hNow : s.now ≤ now)
    (hFlights : s.flights =
      first ++ ⟨guess.key, .admitted guess⟩ :: rest)
    (hVerdict : guess.verdict c read clock = .wrong e) :
    GuessStep settings c s (.judge guess.key (.wrong e))
      { s with
        flights := first ++ ⟨guess.key, .failing⟩ :: rest
        now := now
        wrongs := (guess.key, now) :: s.wrongs }
| unknown (s : Throttle) (now clock : Int) (guess : Guess)
    (read : GuessRead) (e : HttpError) (first rest : List Flight)
    (hNow : s.now ≤ now)
    (hFlights : s.flights =
      first ++ ⟨guess.key, .admitted guess⟩ :: rest)
    (hVerdict : guess.verdict c read clock = .unknown e) :
    GuessStep settings c s (.judge guess.key (.unknown e))
      { s with
        flights := first ++ ⟨guess.key, .failing⟩ :: rest
        now := now }
| passed (s : Throttle) (now clock : Int) (guess : Guess)
    (read : GuessRead) (first rest : List Flight)
    (hNow : s.now ≤ now)
    (hFlights : s.flights =
      first ++ ⟨guess.key, .admitted guess⟩ :: rest)
    (hVerdict : guess.verdict c read clock = .passed) :
    GuessStep settings c s (.judge guess.key .passed)
      { s with
        flights := first ++ ⟨guess.key, .passing⟩ :: rest
        now := now }
| record (s : Throttle) (now : Int) (key : Str)
    (first rest : List Flight)
    (hNow : s.now ≤ now)
    (hFlights : s.flights = first ++ ⟨key, .failing⟩ :: rest) :
    GuessStep settings c s (.record key)
      { s with
        failures := Function.update s.failures key
          (s.failures key ++ [now])
        flights := first ++ rest
        now := now }
| clear (s : Throttle) (now : Int) (key : Str)
    (first rest : List Flight)
    (hNow : s.now ≤ now)
    (hFlights : s.flights = first ++ ⟨key, .passing⟩ :: rest) :
    GuessStep settings c s (.clear key)
      { s with
        failures := Function.update s.failures key []
        flights := first ++ rest
        now := now
        successes := (key, now) :: s.successes }
| abandon (s : Throttle) (now : Int) (f : Flight)
    (first rest : List Flight)
    (hNow : s.now ≤ now)
    (hFlights : s.flights = first ++ f :: rest)
    (hStage : f.stage ≠ .failing) :
    GuessStep settings c s (.abandon f.key)
      { s with
        flights := first ++ rest
        now := now }

omit [Unicode] in
/- How often an event of a key is in a period. -/
def during
    (settings : ThrottleSettings)
    (key : Str)
    (start : Int)
    (events : List (Str × Int)) : Nat :=
  events.countP fun e => decide (e.1 = key) &&
    (decide (start ≤ e.2) && decide (e.2 < start + settings.window))

omit [Unicode] in
/- In every period as long as the window in which no request of a
key succeeds, as many guesses as failures are allowed are found
wrong at most. -/
def WithinBudget
    (settings : ThrottleSettings)
    (s : Throttle) : Prop :=
  ∀ key start, during settings key start s.successes = 0 →
    during settings key start s.wrongs ≤ settings.maxFailures

omit [Unicode] in
/- A request of a key that has not recorded a failure yet, and
may do so. -/
def Flight.pending (key : Str) (f : Flight) : Bool :=
  decide (f.key = key) && decide (f.stage ≠ .passing)

/- The condition on a check that lets a request through: the live
failures of the key and its requests on their way are below the
budget. -/
def HasRoom
    (settings : ThrottleSettings)
    (e : Transition Throttle GuessLabel) : Prop :=
  ∀ guess now, e.label = .check guess now →
    (live settings now (e.pre.failures guess.key)).length +
        e.pre.flights.countP (Flight.pending guess.key) <
      settings.maxFailures

end

---- Counts

section

/- How many times are not before a start. -/
def since (start : Int) (times : List Int) : Nat :=
  times.countP fun t => decide (start ≤ t)

/- How many events of a key are not before a start. -/
def eventsSince
    (key : Str)
    (start : Int)
    (events : List (Str × Int)) : Nat :=
  events.countP fun e => decide (e.1 = key) && decide (start ≤ e.2)

/- A request of a key that will record a failure. -/
def Flight.fails (key : Str) (f : Flight) : Bool :=
  decide (f.key = key) && decide (f.stage = .failing)

variable {settings : ThrottleSettings}

/- In a period that is not over all events so far are before its
end. -/
theorem during_open
    {events : List (Str × Int)} {now start : Int}
    (hTimes : ∀ e ∈ events, e.2 ≤ now)
    (hOpen : now < start + settings.window) (key : Str) :
    during settings key start events =
      eventsSince key start events := by
  apply List.countP_congr
  intro e hE
  have hTime := hTimes e hE
  simp only [Bool.and_eq_true, decide_eq_true_iff]
  constructor
  · rintro ⟨hKey, hStart, _⟩
    exact ⟨hKey, hStart⟩
  · rintro ⟨hKey, hStart⟩
    exact ⟨hKey, hStart, by omega⟩

theorem eventsSince_future
    {events : List (Str × Int)} {now start : Int}
    (hTimes : ∀ e ∈ events, e.2 ≤ now) (hFuture : now < start)
    (key : Str) :
    eventsSince key start events = 0 := by
  rw [eventsSince, List.countP_eq_zero]
  intro e hE hHit
  have hTime := hTimes e hE
  rw [Bool.and_eq_true, decide_eq_true_iff, decide_eq_true_iff]
    at hHit
  omega

/- What a check forgets is from before every period that is not
over. -/
theorem since_live
    {now start : Int}
    (hOpen : now < start + settings.window) (times : List Int) :
    since start (live settings now times) = since start times := by
  rw [since, live, List.countP_filter]
  apply List.countP_congr
  intro t _
  simp only [Bool.and_eq_true, decide_eq_true_iff]
  constructor
  · exact And.left
  · exact fun hStart => ⟨hStart, by omega⟩

theorem since_le_live
    {now start : Int}
    (hOpen : now < start + settings.window) (times : List Int) :
    since start times ≤ (live settings now times).length := by
  rw [← since_live hOpen]
  exact List.countP_le_length

theorem since_append
    (start now : Int) (times : List Int) :
    since start (times ++ [now]) =
      since start times + if start ≤ now then 1 else 0 := by
  simp [since, List.countP_append, List.countP_cons]

/- A request that will fail is pending. -/
theorem fails_le_pending
    (key : Str) (flights : List Flight) :
    flights.countP (Flight.fails key) ≤
      flights.countP (Flight.pending key) := by
  apply List.countP_mono_left
  intro f _ hF
  rw [Flight.fails, Bool.and_eq_true, decide_eq_true_iff,
    decide_eq_true_iff] at hF
  rw [Flight.pending, Bool.and_eq_true, decide_eq_true_iff,
    decide_eq_true_iff, hF.2]
  exact ⟨hF.1, by simp⟩

/- A flight in the middle of the others. -/
theorem countP_middle
    {α : Type}
    (p : α → Bool) (first rest : List α) (a : α) :
    (first ++ a :: rest).countP p =
      (first ++ rest).countP p + if p a then 1 else 0 := by
  rw [List.countP_append, List.countP_cons, List.countP_append]
  omega

end

---- The Invariant

section

variable {settings : ThrottleSettings}

/- In a period that is not over, the recorded failures and the
requests on their way are within the budget, and, if no request
of the key has succeeded in it, the guesses found wrong are
among them. -/
structure ThrottleInv
    (settings : ThrottleSettings)
    (s : Throttle) : Prop where
  wrongs : ∀ e ∈ s.wrongs, e.2 ≤ s.now
  successes : ∀ e ∈ s.successes, e.2 ≤ s.now
  budget : WithinBudget settings s
  room : ∀ key start, s.now < start + settings.window →
    since start (s.failures key) +
        s.flights.countP (Flight.pending key) ≤
      settings.maxFailures
  covered : ∀ key start, s.now < start + settings.window →
    eventsSince key start s.successes = 0 →
    eventsSince key start s.wrongs ≤
      since start (s.failures key) +
        s.flights.countP (Flight.fails key)

theorem ThrottleInv.start (now : Int) :
    ThrottleInv settings (Throttle.start now) := by
  refine ⟨?_, ?_, ?_, ?_, ?_⟩
  · exact fun e hE => absurd hE List.not_mem_nil
  · exact fun e hE => absurd hE List.not_mem_nil
  · exact fun key start _ => Nat.zero_le _
  · exact fun key start _ => Nat.zero_le _
  · exact fun key start _ _ => Nat.zero_le _

/- The budget of the periods that are not over follows from the
rest; that of the others is about what was before. -/
theorem withinBudget_of
    {s : Throttle}
    (hWrongs : ∀ e ∈ s.wrongs, e.2 ≤ s.now)
    (hSuccesses : ∀ e ∈ s.successes, e.2 ≤ s.now)
    (hRoom : ∀ key start, s.now < start + settings.window →
      since start (s.failures key) +
          s.flights.countP (Flight.pending key) ≤
        settings.maxFailures)
    (hCovered : ∀ key start, s.now < start + settings.window →
      eventsSince key start s.successes = 0 →
      eventsSince key start s.wrongs ≤
        since start (s.failures key) +
          s.flights.countP (Flight.fails key))
    (hOver : ∀ key start, start + settings.window ≤ s.now →
      during settings key start s.successes = 0 →
      during settings key start s.wrongs ≤ settings.maxFailures) :
    WithinBudget settings s := by
  intro key start hNone
  by_cases hOpen : s.now < start + settings.window
  · rw [during_open hSuccesses hOpen] at hNone
    rw [during_open hWrongs hOpen]
    have hMost := hCovered key start hOpen hNone
    have hFit := hRoom key start hOpen
    have hFails := fails_le_pending key s.flights
    omega
  · exact hOver key start (by omega) hNone

/- A step at a later time, which adds events of that time. -/
theorem ThrottleInv.next
    {s t : Throttle}
    (hInv : ThrottleInv settings s) (hNow : s.now ≤ t.now)
    (hWrongs : t.wrongs = s.wrongs ∨
      ∃ key, t.wrongs = (key, t.now) :: s.wrongs)
    (hSuccesses : t.successes = s.successes ∨
      ∃ key, t.successes = (key, t.now) :: s.successes)
    (hRoom : ∀ key start, t.now < start + settings.window →
      since start (t.failures key) +
          t.flights.countP (Flight.pending key) ≤
        settings.maxFailures)
    (hCovered : ∀ key start, t.now < start + settings.window →
      eventsSince key start t.successes = 0 →
      eventsSince key start t.wrongs ≤
        since start (t.failures key) +
          t.flights.countP (Flight.fails key)) :
    ThrottleInv settings t := by
  have hTimes {before after : List (Str × Int)}
      (hBefore : ∀ e ∈ before, e.2 ≤ s.now)
      (hAfter : after = before ∨
        ∃ key, after = (key, t.now) :: before) :
      ∀ e ∈ after, e.2 ≤ t.now := by
    rcases hAfter with rfl | ⟨key, rfl⟩
    · exact fun e hE => (hBefore e hE).trans hNow
    · rw [List.forall_mem_cons]
      exact ⟨le_refl _, fun e hE => (hBefore e hE).trans hNow⟩
  have hAllWrongs := hTimes hInv.wrongs hWrongs
  have hAllSuccesses := hTimes hInv.successes hSuccesses
  refine ⟨hAllWrongs, hAllSuccesses, ?_, hRoom, hCovered⟩
  apply withinBudget_of hAllWrongs hAllSuccesses hRoom hCovered
  intro key start hOver hNone
  -- in a period that is over nothing is added
  have hSame : during settings key start t.wrongs =
      during settings key start s.wrongs := by
    rcases hWrongs with hKept | ⟨other, hAdded⟩
    · rw [hKept]
    · have hOut : ¬ t.now < start + settings.window := by omega
      rw [hAdded, during, List.countP_cons]
      simp [hOut, during]
  have hBefore : during settings key start s.successes = 0 := by
    rcases hSuccesses with hKept | ⟨other, hAdded⟩
    · rwa [hKept] at hNone
    · rw [hAdded, during, List.countP_cons] at hNone
      rw [during]
      omega
  rw [hSame]
  exact hInv.budget key start hBefore

variable [Unicode] {c : GuessChecks}

/- Each step keeps the invariant if a check that lets a request
through has room. -/
theorem ThrottleInv.step
    {s t : Throttle} {label : GuessLabel}
    (hInv : ThrottleInv settings s)
    (hStep : GuessStep settings c s label t)
    (hRoom : HasRoom settings ⟨s, label, t⟩) :
    ThrottleInv settings t := by
  have hBoth (key : Str) (start now : Int) (hNow : s.now ≤ now)
      (hOpen : now < start + settings.window) :=
    And.intro
      (hInv.room key start (hNow.trans_lt hOpen))
      (hInv.covered key start (hNow.trans_lt hOpen))
  cases hStep with
  | check now guess hNow hFree =>
      have hPlace := hRoom guess now rfl
      dsimp only at hPlace
      refine hInv.next hNow (.inl rfl) (.inl rfl) ?_ ?_
      · intro key start hOpen
        dsimp only at hOpen ⊢
        rw [List.countP_cons]
        by_cases hKey : key = guess.key
        · have hLive := since_le_live hOpen (s.failures guess.key)
          rw [hKey, Function.update_self, since_live hOpen]
          split <;> omega
        · have hOther : ¬ guess.key = key := fun h => hKey h.symm
          rw [Function.update_of_ne hKey]
          simp only [Flight.pending, hOther, decide_false,
            Bool.false_and, Bool.false_eq_true, if_false,
            Nat.add_zero]
          exact (hBoth key start now hNow hOpen).1
      · intro key start hOpen hNone
        dsimp only at hOpen hNone ⊢
        have hCovered := (hBoth key start now hNow hOpen).2 hNone
        rw [List.countP_cons]
        by_cases hKey : key = guess.key
        · rw [hKey] at hCovered ⊢
          rw [Function.update_self, since_live hOpen]
          omega
        · rw [Function.update_of_ne hKey]
          omega
  | throttled now guess hNow hFull =>
      have hSince (key : Str) (start : Int)
          (hOpen : now < start + settings.window) :
          since start (Function.update s.failures guess.key
            (live settings now (s.failures guess.key)) key) =
          since start (s.failures key) := by
        by_cases hKey : key = guess.key
        · rw [hKey, Function.update_self, since_live hOpen]
        · rw [Function.update_of_ne hKey]
      refine hInv.next hNow (.inl rfl) (.inl rfl) ?_ ?_
      · intro key start hOpen
        dsimp only at hOpen ⊢
        rw [hSince key start hOpen]
        exact (hBoth key start now hNow hOpen).1
      · intro key start hOpen hNone
        dsimp only at hOpen hNone ⊢
        rw [hSince key start hOpen]
        exact (hBoth key start now hNow hOpen).2 hNone
  | wrong now clock guess read e first rest hNow hFlights hVerdict =>
      refine hInv.next hNow (.inr ⟨guess.key, rfl⟩) (.inl rfl) ?_ ?_
      · intro key start hOpen
        dsimp only at hOpen ⊢
        have hFit := (hBoth key start now hNow hOpen).1
        rw [hFlights, countP_middle] at hFit
        rw [countP_middle]
        simpa [Flight.pending] using hFit
      · intro key start hOpen hNone
        dsimp only at hOpen hNone ⊢
        have hCovered := (hBoth key start now hNow hOpen).2 hNone
        rw [hFlights, countP_middle] at hCovered
        rw [countP_middle, eventsSince, List.countP_cons,
          ← eventsSince]
        by_cases hKey : guess.key = key
        · simp only [Flight.fails, hKey, decide_true, Bool.true_and,
            reduceCtorEq, decide_false, Bool.false_eq_true,
            if_false, if_true] at hCovered ⊢
          split <;> omega
        · simpa [Flight.fails, hKey] using hCovered
  | unknown now clock guess read e first rest hNow hFlights
      hVerdict =>
      refine hInv.next hNow (.inl rfl) (.inl rfl) ?_ ?_
      · intro key start hOpen
        dsimp only at hOpen ⊢
        have hFit := (hBoth key start now hNow hOpen).1
        rw [hFlights, countP_middle] at hFit
        rw [countP_middle]
        simpa [Flight.pending] using hFit
      · intro key start hOpen hNone
        dsimp only at hOpen hNone ⊢
        have hCovered := (hBoth key start now hNow hOpen).2 hNone
        rw [hFlights, countP_middle] at hCovered
        rw [countP_middle]
        have hNo : (Flight.fails key
            ⟨guess.key, .admitted guess⟩) = false := by
          simp [Flight.fails]
        rw [hNo, if_neg Bool.false_ne_true] at hCovered
        omega
  | passed now clock guess read first rest hNow hFlights hVerdict =>
      refine hInv.next hNow (.inl rfl) (.inl rfl) ?_ ?_
      · intro key start hOpen
        dsimp only at hOpen ⊢
        have hFit := (hBoth key start now hNow hOpen).1
        rw [hFlights, countP_middle] at hFit
        rw [countP_middle]
        have hNo : (Flight.pending key
            ⟨guess.key, .passing⟩) = false := by
          simp [Flight.pending]
        rw [hNo, if_neg Bool.false_ne_true]
        omega
      · intro key start hOpen hNone
        dsimp only at hOpen hNone ⊢
        have hCovered := (hBoth key start now hNow hOpen).2 hNone
        rw [hFlights, countP_middle] at hCovered
        rw [countP_middle]
        have hNo : (Flight.fails key
            ⟨guess.key, .admitted guess⟩) = false := by
          simp [Flight.fails]
        rw [hNo, if_neg Bool.false_ne_true] at hCovered
        omega
  | record now key first rest hNow hFlights =>
      refine hInv.next hNow (.inl rfl) (.inl rfl) ?_ ?_
      · intro other start hOpen
        dsimp only at hOpen ⊢
        have hFit := (hBoth other start now hNow hOpen).1
        rw [hFlights, countP_middle] at hFit
        by_cases hKey : other = key
        · have hOne : Flight.pending other ⟨key, .failing⟩ =
              true := by
            simp [Flight.pending, hKey]
          rw [hOne, if_pos rfl] at hFit
          rw [hKey] at hFit ⊢
          rw [Function.update_self, since_append]
          split <;> omega
        · rw [Function.update_of_ne hKey]
          omega
      · intro other start hOpen hNone
        dsimp only at hOpen hNone ⊢
        have hCovered := (hBoth other start now hNow hOpen).2 hNone
        rw [hFlights, countP_middle] at hCovered
        by_cases hKey : other = key
        · have hOne : Flight.fails other ⟨key, .failing⟩ =
              true := by
            simp [Flight.fails, hKey]
          rw [hOne, if_pos rfl] at hCovered
          by_cases hStart : start ≤ now
          · rw [hKey] at hCovered ⊢
            rw [Function.update_self, since_append, if_pos hStart]
            omega
          · rw [eventsSince_future hInv.wrongs (by omega) other]
            exact Nat.zero_le _
        · have hNo : Flight.fails other ⟨key, .failing⟩ =
              false := by
            simp [Flight.fails, Ne.symm hKey]
          rw [hNo, if_neg Bool.false_ne_true] at hCovered
          rw [Function.update_of_ne hKey]
          omega
  | clear now key first rest hNow hFlights =>
      refine hInv.next hNow (.inl rfl) (.inr ⟨key, rfl⟩) ?_ ?_
      · intro other start hOpen
        dsimp only at hOpen ⊢
        have hFit := (hBoth other start now hNow hOpen).1
        rw [hFlights, countP_middle] at hFit
        by_cases hKey : other = key
        · rw [hKey] at hFit ⊢
          rw [Function.update_self]
          have hZero : since start [] = 0 := rfl
          omega
        · rw [Function.update_of_ne hKey]
          omega
      · intro other start hOpen hNone
        dsimp only at hOpen hNone ⊢
        rw [eventsSince, List.countP_cons, ← eventsSince] at hNone
        have hBefore : eventsSince other start s.successes = 0 := by
          omega
        have hCovered :=
          (hBoth other start now hNow hOpen).2 hBefore
        rw [hFlights, countP_middle] at hCovered
        by_cases hKey : other = key
        · by_cases hStart : start ≤ now
          · rw [hKey] at hNone
            simp [hStart] at hNone
          · rw [eventsSince_future hInv.wrongs (by omega) other]
            exact Nat.zero_le _
        · have hNo : Flight.fails other ⟨key, .passing⟩ =
              false := by
            simp [Flight.fails]
          rw [hNo, if_neg Bool.false_ne_true] at hCovered
          rw [Function.update_of_ne hKey]
          omega
  | abandon now f first rest hNow hFlights hStage =>
      refine hInv.next hNow (.inl rfl) (.inl rfl) ?_ ?_
      · intro key start hOpen
        dsimp only at hOpen ⊢
        have hFit := (hBoth key start now hNow hOpen).1
        rw [hFlights, countP_middle] at hFit
        omega
      · intro key start hOpen hNone
        dsimp only at hOpen hNone ⊢
        have hCovered := (hBoth key start now hNow hOpen).2 hNone
        rw [hFlights, countP_middle] at hCovered
        have hNo : Flight.fails key f = false := by
          simp [Flight.fails, hStage]
        rw [hNo, if_neg Bool.false_ne_true] at hCovered
        omega

/- A run whose checks have room stays within the budget. -/
theorem budget_of_room
    (settings : ThrottleSettings)
    (c : GuessChecks)
    (start : Int)
    {s : Throttle}
    {trace : List (Transition Throttle GuessLabel)}
    (hRun : Run (GuessStep settings c) (Throttle.start start)
      trace s)
    (hRoom : ∀ e ∈ trace, HasRoom settings e) :
    WithinBudget settings s ∧
      ∀ e ∈ trace, WithinBudget settings e.post := by
  have hKeep : ∀ s label t, ThrottleInv settings s →
      (GuessStep settings c s label t ∧
        HasRoom settings ⟨s, label, t⟩) → ThrottleInv settings t :=
    fun _ _ _ hInv hBoth => hInv.step hBoth.1 hBoth.2
  have hRuns := hRun.restrict hRoom
  refine ⟨(hRuns.invariant hKeep (.start start)).budget, ?_⟩
  intro e hE
  rcases hRuns.forall_step hKeep (.start start) e hE with
    ⟨hInv, hStep⟩
  exact (hInv.step hStep.1 hStep.2).budget

end

---- Eleven Guesses

local instance throttleUnicode : Unicode := asciiTables

def defaultThrottle : ThrottleSettings where
  maxFailures := 10
  window := 300

/- The code of the moment is another. -/
def codeChecks : GuessChecks where
  digests :=
    { totpCode := fun _ => some fun _ => lit "287082"
      sha256Hex := id }
  verifyPassword _ _ _ := false

def wrongCode : Guess :=
  .mfaVerify (lit "u1") (lit "000000")

/- Some requests whose code was wrong, and some that are still
let through. -/
def crowd (judged admitted : Nat) : Throttle where
  failures _ := []
  flights :=
    List.replicate judged ⟨wrongCode.key, .failing⟩ ++
      List.replicate admitted ⟨wrongCode.key, .admitted wrongCode⟩
  now := 0
  wrongs := List.replicate judged (wrongCode.key, 0)
  successes := []

theorem crowd_check (n : Nat) :
    GuessStep defaultThrottle codeChecks (crowd 0 n)
      (.check wrongCode 0) (crowd 0 (n + 1)) := by
  have hStep : GuessStep defaultThrottle codeChecks (crowd 0 n)
      (.check wrongCode 0) _ :=
    .check (crowd 0 n) 0 wrongCode (le_refl _) (Nat.zero_lt_succ 9)
  have hFailures : Function.update (crowd 0 n).failures
      wrongCode.key (live defaultThrottle 0 []) =
        fun _ => [] := by
    funext key
    rw [Function.update_apply]
    split
    · rfl
    · rfl
  have hSame : crowd 0 (n + 1) =
      { crowd 0 n with
        failures := Function.update (crowd 0 n).failures
          wrongCode.key (live defaultThrottle 0 [])
        flights := ⟨wrongCode.key, .admitted wrongCode⟩ ::
          (crowd 0 n).flights } := by
    rw [hFailures]
    rfl
  rw [hSame]
  exact hStep

theorem crowd_judge (judged admitted : Nat) :
    ∃ e, GuessStep defaultThrottle codeChecks
      (crowd judged (admitted + 1))
      (.judge wrongCode.key (.wrong e))
      (crowd (judged + 1) admitted) := by
  refine ⟨⟨400, lit "Invalid MFA code"⟩, ?_⟩
  have hStep : GuessStep defaultThrottle codeChecks
      (crowd judged (admitted + 1)) _ _ :=
    .wrong (crowd judged (admitted + 1)) 0 0 wrongCode
      ⟨none, fun _ => true, some (lit "JBSWY3DPEHPK3PXP")⟩
      ⟨400, lit "Invalid MFA code"⟩
      (List.replicate judged ⟨wrongCode.key, .failing⟩)
      (List.replicate admitted
        ⟨wrongCode.key, .admitted wrongCode⟩)
      (le_refl _) rfl (by rfl)
  have hSame : crowd (judged + 1) admitted =
      { crowd judged (admitted + 1) with
        flights :=
          List.replicate judged ⟨wrongCode.key, .failing⟩ ++
            ⟨wrongCode.key, .failing⟩ ::
              List.replicate admitted
                ⟨wrongCode.key, .admitted wrongCode⟩
        now := 0
        wrongs := (wrongCode.key, 0) ::
          (crowd judged (admitted + 1)).wrongs } := by
    rw [crowd, List.replicate_succ', List.append_assoc]
    rfl
  rw [hSame]
  exact hStep

theorem crowd_admitted (n : Nat) :
    ∃ trace, Run (GuessStep defaultThrottle codeChecks)
      (crowd 0 0) trace (crowd 0 n) := by
  induction n with
  | zero => exact ⟨[], .nil _⟩
  | succ n ih =>
      rcases ih with ⟨trace, hRun⟩
      exact ⟨_, hRun.append (.cons (crowd_check n) (.nil _))⟩

theorem crowd_judged (judged admitted : Nat) :
    ∃ trace, Run (GuessStep defaultThrottle codeChecks)
      (crowd judged admitted) trace
        (crowd (judged + admitted) 0) := by
  induction admitted generalizing judged with
  | zero => exact ⟨[], .nil _⟩
  | succ admitted ih =>
      rcases crowd_judge judged admitted with ⟨e, hStep⟩
      rcases ih (judged + 1) with ⟨trace, hRun⟩
      rw [Nat.add_assoc, Nat.add_comm 1] at hRun
      exact ⟨_, .cons hStep hRun⟩

/- Eleven requests pass the throttle before the first records its
failure. -/
theorem eleven_wrong :
    ¬ ∀ s trace, Run (GuessStep defaultThrottle codeChecks)
      (Throttle.start 0) trace s →
        WithinBudget defaultThrottle s := by
  intro hAll
  rcases crowd_admitted 11 with ⟨checks, hChecks⟩
  rcases crowd_judged 0 11 with ⟨judges, hJudges⟩
  have hBudget := hAll _ _ (hChecks.append hJudges)
    wrongCode.key 0 rfl
  exact absurd hBudget (by decide)

/- A guess alone has room. -/
theorem one_guess_within :
    WithinBudget defaultThrottle (crowd 0 1) := by
  have hRun : Run (GuessStep defaultThrottle codeChecks)
      (Throttle.start 0) [⟨crowd 0 0, .check wrongCode 0, crowd 0 1⟩]
        (crowd 0 1) :=
    .cons (crowd_check 0) (.nil _)
  refine (budget_of_room defaultThrottle codeChecks 0 hRun ?_).1
  rw [List.forall_mem_singleton]
  intro guess now hLabel
  injection hLabel with hGuess hNow
  rw [← hGuess, ← hNow]
  decide

end ThreatOrbit.Auth
