import ThreatOrbit.Lib.Python
import ThreatOrbit.Lib.Run
import ThreatOrbit.Auth.Accounts

/-
  The one-time codes of a login.

  A login with MFA reads the row of the user, checks the
  code against it, and writes back the time step it matched
  or the recovery codes that remain. Other logins may write
  in between.
-/

---- Codes

namespace ThreatOrbit.Auth

open Lib

section

/- The two digests: the codes of a secret at the time steps,
or `none` where the secret is malformed, and SHA-256 in
hex. -/
structure MfaDigests where
  totpCode : Str → Option (Int → Str)
  sha256Hex : Str → Str

/- `STEP_SECONDS`, in microseconds. -/
def stepMicros : Int := 30000000

/- `hmac.compare_digest` of a code of digits and a text: it
raises on a text that is not ASCII. -/
def compareDigest (code text : Str) : Option Bool :=
  if text.all (fun c => c < 128) then some (code == text)
  else none

/- A text against the code of a secret at a time step. -/
def codeIs
    (d : MfaDigests)
    (secret text : Str)
    (counter : Int) : Option Bool :=
  (d.totpCode secret).bind fun code =>
    compareDigest (code counter) text

/- The loop of `verify_code_counter`, over the steps of its
window. -/
@[grind =]
def firstCounter
    (d : MfaDigests)
    (secret cleaned : Str)
    (now after : Int) : List Int → Option Int
| [] => none
| i :: rest =>
    let counter := (now + i * stepMicros) / stepMicros
    if counter ≤ after then
      firstCounter d secret cleaned now after rest
    else
      match codeIs d secret cleaned counter with
      | none => none
      | some true => some counter
      | some false =>
          firstCounter d secret cleaned now after rest

/- `verify_code_counter`, at a time of the clock. -/
def verifyCodeCounter
    (d : MfaDigests)
    (secret code : Str)
    (now after : Int) : Option Int :=
  let cleaned := (strip code).filter (· != cp ' ')
  if cleaned = [] ∨ secret = [] then none
  else firstCounter d secret cleaned now after [-1, 0, 1]

variable [Unicode]

def rcNormalize (code : Str) : Str :=
  (Unicode.lower code).filter Unicode.isAlnum

def hashRecoveryCode (d : MfaDigests) (code : Str) : Str :=
  d.sha256Hex (rcNormalize code)

def consumeRecoveryCode
    (d : MfaDigests)
    (hashes : List Str)
    (code : Str) : Option (List Str) :=
  if code = [] ∨ hashes = [] then none
  else
    let target := hashRecoveryCode d code
    match (hashes.filter (· == target)).getLast? with
    | none => none
    | some matched => some (hashes.filter (· != matched))

end

---- The Second Factor Of A Login

section

/- The MFA columns of a user, with the secret decrypted. -/
structure MfaRow where
  mfaEnabled : Bool
  mfaSecret : Option Str
  mfaLastCounter : Option Int
  mfaRecoveryCodes : List Str
deriving DecidableEq, Repr

/- The account is enrolled and has its secret. -/
def MfaRow.asksCode (r : MfaRow) : Bool :=
  r.mfaEnabled && r.mfaSecret.getD [] != []

/- `int(user.get("mfa_last_counter") or -1)`. -/
def MfaRow.last (r : MfaRow) : Int :=
  match r.mfaLastCounter with
  | none => -1
  | some n => if n = 0 then -1 else n

/- The last counter itself. -/
def MfaRow.stored (r : MfaRow) : Int :=
  r.mfaLastCounter.getD (-1)

/- The time step that a code matches, later than another. -/
def MfaRow.matched
    (d : MfaDigests)
    (r : MfaRow)
    (code : Option Str)
    (now after : Int) : Option Int :=
  verifyCodeCounter d (r.mfaSecret.getD []) (code.getD [])
    now after

/- What a login is let in with: no code, a time step, or a
recovery code with the codes that remain. -/
inductive Factor where
| none
| counter (n : Int)
| recovery (hash : Str) (remaining : List Str)
deriving DecidableEq, Repr

def Factor.write (f : Factor) (r : MfaRow) : MfaRow :=
  match f with
  | .none => r
  | .counter n => { r with mfaLastCounter := some n }
  | .recovery _ remaining =>
      { r with mfaRecoveryCodes := remaining }

def Factor.counters : Factor → List Int
| .counter n => [n]
| _ => []

def Factor.codes : Factor → List Str
| .recovery hash _ => [hash]
| _ => []

variable [Unicode]

/- The step-up of `login`, on the row it has read. -/
def loginFactor
    (d : MfaDigests)
    (r : MfaRow)
    (code : Option Str)
    (now : Int) : Except HttpError Factor :=
  if !r.asksCode then .ok .none
  else if code.getD [] = [] then
    .error (unauthorized (lit "MFA code required"))
  else
    match r.matched d code now r.last with
    | some n => .ok (.counter n)
    | none =>
        match
            consumeRecoveryCode d r.mfaRecoveryCodes
              (code.getD []) with
        | none => .error (unauthorized (lit "Invalid MFA code"))
        | some remaining =>
            .ok (.recovery (hashRecoveryCode d (code.getD []))
              remaining)

end

---- Logins In Any Order

section

/- A user and the logins on their way, each with the row it
has read; and the time steps and the recovery codes that
were accepted, in the order the logins completed. -/
structure MfaLogins where
  row : MfaRow
  reads : Nat → Option MfaRow
  counters : List Int
  codes : List Str

inductive LoginLabel where
| read (login : Nat)
| accept (login : Nat) (code : Option Str) (now : Int)
| refuse (login : Nat)
deriving DecidableEq, Repr

/- A login with its factor completes. -/
def MfaLogins.accept
    (s : MfaLogins)
    (login : Nat)
    (f : Factor) : MfaLogins :=
  { row := f.write s.row
    reads := Function.update s.reads login none
    counters := s.counters ++ f.counters
    codes := s.codes ++ f.codes }

variable [Unicode]

/- The reads and the writes of logins, at any time of the
clock of each. A login that has read its row may fail for
another reason. -/
inductive LoginStep (d : MfaDigests) :
    MfaLogins → LoginLabel → MfaLogins → Prop
| read (s : MfaLogins) (login : Nat)
    (hNew : s.reads login = none) :
    LoginStep d s (.read login)
      { s with
        reads := Function.update s.reads login (some s.row) }
| accept (s : MfaLogins) (login : Nat)
    (code : Option Str) (now : Int)
    (r : MfaRow) (f : Factor)
    (hRead : s.reads login = some r)
    (hOk : loginFactor d r code now = .ok f) :
    LoginStep d s (.accept login code now) (s.accept login f)
| refuse (s : MfaLogins) (login : Nat) :
    LoginStep d s (.refuse login)
      { s with reads := Function.update s.reads login none }

/- The codes are one-time: the accepted time steps increase,
no recovery code was accepted twice, and none that was
accepted is stored, where it would be accepted again. -/
structure OneTime (s : MfaLogins) : Prop where
  increasing : s.counters.Pairwise (· < ·)
  once : s.codes.Nodup
  spent : ∀ h ∈ s.codes, h ∉ s.row.mfaRecoveryCodes

/- The condition on a login that completes: its code, checked
again with the counter that is stored now, matches as it
did; and where it is a recovery code, every code it read
is stored still. -/
def Rechecked
    (d : MfaDigests)
    (e : Transition MfaLogins LoginLabel) : Prop :=
  ∀ login code now r, e.label = .accept login code now →
    e.pre.reads login = some r → r.asksCode = true →
    r.matched d code now e.pre.row.stored =
        r.matched d code now r.last ∧
      (r.matched d code now r.last = none →
        ∀ h ∈ r.mfaRecoveryCodes,
          h ∈ e.pre.row.mfaRecoveryCodes)

/- No login is on its way, the codes were one-time so far, and
the counter that is stored is the last that was accepted. -/
structure Settled (s : MfaLogins) : Prop where
  oneTime : OneTime s
  reads : ∀ login, s.reads login = none
  stored : ∀ n, s.row.mfaLastCounter = some n → n ∈ s.counters
  latest : ∀ n ∈ s.counters, n ≤ s.row.stored

end

---- What A Code Matches

section

variable {d : MfaDigests}

theorem firstCounter_after
    {secret cleaned : Str} {now after n : Int} {steps : List Int}
    (hSome :
      firstCounter d secret cleaned now after steps = some n) :
    after < n := by
  induction steps with
  | nil => cases hSome
  | cons i rest ih =>
      rw [firstCounter] at hSome
      split at hSome
      · exact ih hSome
      · split at hSome
        · cases hSome
        · cases hSome
          omega
        · exact ih hSome

/- A step that is later than a later one is matched with
both. -/
theorem firstCounter_raise
    {secret cleaned : Str} {now after stored n : Int}
    {steps : List Int}
    (hLe : after ≤ stored) (hLt : stored < n)
    (hSome :
      firstCounter d secret cleaned now after steps = some n) :
    firstCounter d secret cleaned now stored steps =
      some n := by
  induction steps with
  | nil => cases hSome
  | cons i rest ih =>
      rw [firstCounter] at hSome ⊢
      split at hSome
      next hSkip =>
        rw [if_pos (hSkip.trans hLe)]
        exact ih hSome
      next hTry =>
        cases hIs : codeIs d secret cleaned
            ((now + i * stepMicros) / stepMicros) with
        | none => simp [hIs] at hSome
        | some same =>
            cases same with
            | true =>
                simp only [hIs, Option.some.injEq] at hSome
                rw [if_neg (by omega)]
                simp only [hSome]
            | false =>
                simp only [hIs] at hSome
                split
                · exact ih hSome
                · exact ih hSome

/- A comparison raises at every time step or at none. -/
theorem codeIs_none
    {secret text : Str} {c : Int}
    (hNone : codeIs d secret text c = none) (c' : Int) :
    codeIs d secret text c' = none := by
  unfold codeIs compareDigest at *
  cases hCode : d.totpCode secret with
  | none => rfl
  | some code =>
      rw [hCode, Option.bind_some] at hNone
      split at hNone
      · cases hNone
      · rw [Option.bind_some, if_neg (by assumption)]

theorem firstCounter_raised
    {secret cleaned : Str} {now after : Int} {steps : List Int}
    (hNone : ∀ c, codeIs d secret cleaned c = none) :
    firstCounter d secret cleaned now after steps = none := by
  induction steps with
  | nil => rfl
  | cons i rest ih =>
      rw [firstCounter]
      simp only [hNone]
      split
      · exact ih
      · rfl

/- What matches no step matches none that is later. -/
theorem firstCounter_none
    {secret cleaned : Str} {now after stored : Int}
    {steps : List Int}
    (hLe : after ≤ stored)
    (hNone :
      firstCounter d secret cleaned now after steps = none) :
    firstCounter d secret cleaned now stored steps = none := by
  induction steps with
  | nil => rfl
  | cons i rest ih =>
      rw [firstCounter] at hNone
      split at hNone
      next hSkip =>
        rw [firstCounter, if_pos (hSkip.trans hLe)]
        exact ih hNone
      next hTry =>
        cases hIs : codeIs d secret cleaned
            ((now + i * stepMicros) / stepMicros) with
        | none => exact firstCounter_raised (codeIs_none hIs)
        | some same =>
            cases same with
            | true => simp [hIs] at hNone
            | false =>
                simp only [hIs] at hNone
                rw [firstCounter]
                simp only [hIs]
                split
                · exact ih hNone
                · exact ih hNone

/- The counter that is stored changes what a code matches
only where it has come up to it. -/
theorem matched_eq_iff
    {r : MfaRow} {code : Option Str} {now after stored : Int}
    (hLe : after ≤ stored) :
    r.matched d code now stored = r.matched d code now after ↔
      ∀ n, r.matched d code now after = some n →
        stored < n := by
  unfold MfaRow.matched verifyCodeCounter
  simp only
  split
  next => simp
  next =>
    constructor
    · intro hSame n hSome
      rw [hSome] at hSame
      exact firstCounter_after hSame
    · intro hLater
      cases hMatch : firstCounter d (r.mfaSecret.getD []) _
          now after [-1, 0, 1] with
      | none => exact firstCounter_none hLe hMatch
      | some n =>
          exact firstCounter_raise hLe (hLater n hMatch) hMatch

/- A code matches a later time step only. -/
theorem matched_after
    {r : MfaRow} {code : Option Str} {now after n : Int}
    (hSome : r.matched d code now after = some n) :
    after < n := by
  unfold MfaRow.matched verifyCodeCounter at hSome
  simp only at hSome
  split at hSome
  · cases hSome
  · exact firstCounter_after hSome

/- The last counter as it is read is at most the one that is
stored. -/
theorem last_le_stored
    (r : MfaRow) :
    r.last ≤ r.stored := by
  unfold MfaRow.last MfaRow.stored
  cases r.mfaLastCounter with
  | none => exact le_refl _
  | some n =>
      simp only [Option.getD_some]
      split
      · omega
      · exact le_refl _

variable [Unicode]

/- A recovery code is one of those stored, and every copy of
it is taken out. -/
theorem consumeRecoveryCode_some
    {hashes remaining : List Str} {code : Str}
    (hSome :
      consumeRecoveryCode d hashes code = some remaining) :
    hashRecoveryCode d code ∈ hashes ∧
      remaining =
        hashes.filter (· != hashRecoveryCode d code) := by
  unfold consumeRecoveryCode at hSome
  split at hSome
  · cases hSome
  · simp only at hSome
    split at hSome
    next => cases hSome
    next matched hLast =>
      have hMem := List.mem_of_getLast? hLast
      rw [List.mem_filter, beq_iff_eq] at hMem
      cases hSome
      rw [← hMem.2]
      exact ⟨hMem.1, rfl⟩

/- How a login is let in. -/
theorem loginFactor_ok
    {r : MfaRow} {code : Option Str} {now : Int} {f : Factor}
    (hOk : loginFactor d r code now = .ok f) :
    (r.asksCode = false ∧ f = .none) ∨
      (r.asksCode = true ∧
        ∃ n, r.matched d code now r.last = some n ∧
          f = .counter n) ∨
      (r.asksCode = true ∧
        r.matched d code now r.last = none ∧
        ∃ hash ∈ r.mfaRecoveryCodes,
          f = .recovery hash
            (r.mfaRecoveryCodes.filter (· != hash))) := by
  unfold loginFactor at hOk
  cases hAsks : r.asksCode with
  | false =>
      rw [hAsks] at hOk
      cases hOk
      exact .inl ⟨rfl, rfl⟩
  | true =>
      right
      simp only [hAsks, Bool.not_true, Bool.false_eq_true,
        if_false] at hOk
      split at hOk
      · cases hOk
      · cases hMatch : r.matched d code now r.last with
        | some n =>
            rw [hMatch] at hOk
            cases hOk
            exact .inl ⟨rfl, n, rfl, rfl⟩
        | none =>
            simp only [hMatch] at hOk
            split at hOk
            next => cases hOk
            next remaining hSome =>
              rcases consumeRecoveryCode_some hSome with
                ⟨hMem, hRest⟩
              cases hOk
              exact .inr ⟨rfl, rfl, _, hMem, by rw [hRest]⟩

end

---- One Login For Each Code

section

variable {d : MfaDigests}
variable {s t : MfaLogins}

/- What keeps the codes one-time: the counter that is stored
is the last accepted, and a login on its way has read an
earlier row, from which only accepted codes have gone. -/
structure MfaInv (s : MfaLogins) : Prop where
  oneTime : OneTime s
  stored : ∀ n, s.row.mfaLastCounter = some n → n ∈ s.counters
  latest : ∀ n ∈ s.counters, n ≤ s.row.stored
  behind : ∀ login r, s.reads login = some r →
    r.stored ≤ s.row.stored
  first : ∀ login r, s.reads login = some r →
    s.row.mfaLastCounter = none → r.mfaLastCounter = none
  kept : ∀ login r, s.reads login = some r →
    ∀ h ∈ s.row.mfaRecoveryCodes, h ∈ r.mfaRecoveryCodes
  gone : ∀ login r, s.reads login = some r →
    ∀ h ∈ r.mfaRecoveryCodes,
      h ∈ s.row.mfaRecoveryCodes ∨ h ∈ s.codes

theorem Settled.inv
    (hSettled : Settled s) :
    MfaInv s where
  oneTime := hSettled.oneTime
  stored := hSettled.stored
  latest := hSettled.latest
  behind login r hRead := by simp [hSettled.reads] at hRead
  first login r hRead := by simp [hSettled.reads] at hRead
  kept login r hRead := by simp [hSettled.reads] at hRead
  gone login r hRead := by simp [hSettled.reads] at hRead

/- The rows that logins hold after a login has ended. -/
theorem reads_update_none
    {reads : Nat → Option MfaRow} {ended login : Nat} {r : MfaRow}
    (hRead :
      Function.update reads ended none login = some r) :
    reads login = some r := by
  by_cases hSame : login = ended
  · rw [hSame, Function.update_self] at hRead
    cases hRead
  · rwa [Function.update_of_ne hSame] at hRead

theorem MfaInv.refuse
    {login : Nat}
    (hInv : MfaInv s) :
    MfaInv { s with
      reads := Function.update s.reads login none } where
  oneTime := ⟨hInv.oneTime.1, hInv.oneTime.2, hInv.oneTime.3⟩
  stored := hInv.stored
  latest := hInv.latest
  behind other r hRead :=
    hInv.behind other r (reads_update_none hRead)
  first other r hRead :=
    hInv.first other r (reads_update_none hRead)
  kept other r hRead :=
    hInv.kept other r (reads_update_none hRead)
  gone other r hRead :=
    hInv.gone other r (reads_update_none hRead)

theorem MfaInv.read
    {login : Nat}
    (hInv : MfaInv s) :
    MfaInv { s with
      reads := Function.update s.reads login (some s.row) } := by
  have hCases : ∀ other r,
      Function.update s.reads login (some s.row) other = some r →
        r = s.row ∨ s.reads other = some r := by
    intro other r hRead
    by_cases hSame : other = login
    · rw [hSame, Function.update_self] at hRead
      cases hRead
      exact .inl rfl
    · rw [Function.update_of_ne hSame] at hRead
      exact .inr hRead
  refine ⟨⟨hInv.oneTime.1, hInv.oneTime.2, hInv.oneTime.3⟩,
    hInv.stored, hInv.latest, ?_, ?_, ?_, ?_⟩
  · intro other r hRead
    rcases hCases other r hRead with hNew | hOld
    · rw [hNew]
    · exact hInv.behind other r hOld
  · intro other r hRead hFirst
    rcases hCases other r hRead with hNew | hOld
    · rw [hNew]
      exact hFirst
    · exact hInv.first other r hOld hFirst
  · intro other r hRead h hMem
    rcases hCases other r hRead with hNew | hOld
    · rw [hNew]
      exact hMem
    · exact hInv.kept other r hOld h hMem
  · intro other r hRead h hMem
    rcases hCases other r hRead with hNew | hOld
    · rw [hNew] at hMem
      exact .inl hMem
    · exact hInv.gone other r hOld h hMem

/- A time step later than the stored one is accepted. -/
theorem MfaInv.counter
    {login : Nat} {n : Int}
    (hInv : MfaInv s) (hLater : s.row.stored < n) :
    MfaInv (s.accept login (.counter n)) where
  oneTime := by
    refine ⟨?_, ?_, ?_⟩
    · simp only [MfaLogins.accept, Factor.counters]
      rw [List.pairwise_append]
      refine ⟨hInv.oneTime.increasing,
        List.pairwise_singleton _ _, ?_⟩
      intro c hMem m hNew
      rw [List.mem_singleton] at hNew
      have hLatest := hInv.latest c hMem
      omega
    · simpa [MfaLogins.accept, Factor.codes] using
        hInv.oneTime.once
    · simpa [MfaLogins.accept, Factor.codes, Factor.write]
        using hInv.oneTime.spent
  stored m hStored := by
    simp only [MfaLogins.accept, Factor.write,
      Option.some.injEq] at hStored
    simp [MfaLogins.accept, Factor.counters, hStored]
  latest m hMem := by
    simp only [MfaLogins.accept, Factor.counters,
      Factor.write, MfaRow.stored, Option.getD_some] at hMem ⊢
    rcases List.mem_append.mp hMem with hOld | hNew
    · have hLatest := hInv.latest m hOld
      omega
    · rw [List.mem_singleton] at hNew
      omega
  behind other r hRead := by
    have hBehind := hInv.behind other r (reads_update_none hRead)
    simp only [MfaLogins.accept, Factor.write, MfaRow.stored,
      Option.getD_some] at *
    omega
  first other r hRead := nofun
  kept other r hRead :=
    hInv.kept other r (reads_update_none hRead)
  gone other r hRead := by
    simpa [MfaLogins.accept, Factor.codes, Factor.write] using
      hInv.gone other r (reads_update_none hRead)

/- A recovery code is accepted from a list that is stored
still. -/
theorem MfaInv.recovery
    {login : Nat} {r : MfaRow} {hash : Str}
    (hInv : MfaInv s) (hMem : hash ∈ r.mfaRecoveryCodes)
    (hStill : ∀ h ∈ r.mfaRecoveryCodes,
      h ∈ s.row.mfaRecoveryCodes)
    (hKept : ∀ h ∈ s.row.mfaRecoveryCodes,
      h ∈ r.mfaRecoveryCodes) :
    MfaInv (s.accept login (.recovery hash
      (r.mfaRecoveryCodes.filter (· != hash)))) where
  oneTime := by
    have hUnused : hash ∉ s.codes := fun hUsed =>
      hInv.oneTime.spent hash hUsed (hStill hash hMem)
    refine ⟨?_, ?_, ?_⟩
    · simpa [MfaLogins.accept, Factor.counters] using
        hInv.oneTime.increasing
    · simp only [MfaLogins.accept, Factor.codes]
      rw [← List.concat_eq_append, List.nodup_concat]
      exact ⟨hUnused, hInv.oneTime.once⟩
    · intro h hUsed hLeft
      simp only [MfaLogins.accept, Factor.codes, Factor.write,
        List.mem_append, List.mem_singleton, List.mem_filter,
        bne_iff_ne] at hUsed hLeft
      rcases hUsed with hOld | hNew
      · exact hInv.oneTime.spent h hOld (hStill h hLeft.1)
      · exact hLeft.2 hNew
  stored := by
    simpa [MfaLogins.accept, Factor.counters, Factor.write]
      using hInv.stored
  latest := by
    simpa [MfaLogins.accept, Factor.counters, Factor.write,
      MfaRow.stored] using hInv.latest
  behind other r' hRead :=
    hInv.behind other r' (reads_update_none hRead)
  first other r' hRead :=
    hInv.first other r' (reads_update_none hRead)
  kept other r' hRead h hLeft := by
    have hIn := List.mem_of_mem_filter hLeft
    exact hInv.kept other r' (reads_update_none hRead) h
      (hStill h hIn)
  gone other r' hRead h hHeld := by
    simp only [MfaLogins.accept, Factor.codes, Factor.write,
      List.mem_append, List.mem_singleton, List.mem_filter,
      bne_iff_ne]
    rcases hInv.gone other r' (reads_update_none hRead) h hHeld
      with hRow | hUsed
    · by_cases hSame : h = hash
      · exact .inr (.inr hSame)
      · exact .inl ⟨hKept h hRow, hSame⟩
    · exact .inr (.inl hUsed)

variable [Unicode]

/- A login that meets the condition keeps the codes
one-time. -/
theorem MfaInv.step
    {a : LoginLabel}
    (hInv : MfaInv s) (hStep : LoginStep d s a t)
    (hCond : Rechecked d ⟨s, a, t⟩) :
    MfaInv t := by
  cases hStep with
  | read login hNew => exact hInv.read
  | refuse login => exact hInv.refuse
  | accept login code now r f hRead hOk =>
      have hLe : r.last ≤ s.row.stored :=
        (last_le_stored r).trans (hInv.behind login r hRead)
      rcases loginFactor_ok hOk with
        ⟨_, hFactor⟩ | ⟨hAsks, n, hMatch, hFactor⟩ |
          ⟨hAsks, hNone, hash, hMem, hFactor⟩
      · rw [hFactor]
        simpa [MfaLogins.accept, Factor.write, Factor.counters,
          Factor.codes] using hInv.refuse
      · have hSame := (hCond login code now r rfl hRead hAsks).1
        rw [hFactor]
        exact hInv.counter
          ((matched_eq_iff hLe).mp hSame n hMatch)
      · have hStill :=
          (hCond login code now r rfl hRead hAsks).2 hNone
        rw [hFactor]
        exact hInv.recovery hMem hStill
          (hInv.kept login r hRead)

/- A login that leaves the codes one-time meets it. -/
theorem rechecked_of_oneTime
    {a : LoginLabel}
    (hInv : MfaInv s) (hStep : LoginStep d s a t)
    (hAfter : OneTime t) :
    Rechecked d ⟨s, a, t⟩ := by
  intro login code now r hLabel hRead hAsks
  cases hStep with
  | read | refuse => cases hLabel
  | accept _ _ _ r' f hRead' hOk =>
      cases hLabel
      simp only at hRead
      rw [hRead] at hRead'
      cases hRead'
      have hLe : r.last ≤ s.row.stored :=
        (last_le_stored r).trans (hInv.behind login r hRead)
      rw [matched_eq_iff hLe]
      rcases loginFactor_ok hOk with
        ⟨hNot, _⟩ | ⟨_, n, hMatch, hFactor⟩ |
          ⟨_, hNone, hash, hMem, hFactor⟩
      · rw [hAsks] at hNot
        cases hNot
      · rw [hMatch]
        refine ⟨?_, nofun⟩
        intro m hSome
        cases hSome
        have hOrder := hAfter.increasing
        simp only [hFactor, MfaLogins.accept,
          Factor.counters] at hOrder
        rw [List.pairwise_append] at hOrder
        cases hLast : s.row.mfaLastCounter with
        | some c =>
            have hLt := hOrder.2.2 c (hInv.stored c hLast) n
              (List.mem_singleton.mpr rfl)
            simpa [MfaRow.stored, hLast] using hLt
        | none =>
            have hFirst := hInv.first login r hRead hLast
            have hAfterLast := matched_after hMatch
            simpa [MfaRow.stored, MfaRow.last, hLast, hFirst]
              using hAfterLast
      · rw [hNone]
        refine ⟨nofun, ?_⟩
        intro _ h hHeld
        by_contra hLost
        rcases hInv.gone login r hRead h hHeld with hRow | hUsed
        · exact hLost hRow
        · have hOnce := hAfter.once
          have hSpent := hAfter.spent h
          simp only [hFactor, MfaLogins.accept, Factor.codes,
            Factor.write, List.mem_append, List.mem_singleton,
            List.mem_filter, bne_iff_ne] at hOnce hSpent
          rw [← List.concat_eq_append, List.nodup_concat] at hOnce
          by_cases hSame : h = hash
          · rw [hSame] at hUsed
            exact hOnce.1 hUsed
          · exact hSpent (.inl hUsed) ⟨hHeld, hSame⟩

/- Over every run of logins that read and write in any order,
from a user whose codes were one-time so far: they are
one-time in every state it reaches exactly when each login
that completes meets the condition. -/
theorem one_time_iff
    {trace : List (Transition MfaLogins LoginLabel)}
    (hSettled : Settled s)
    (hRun : Run (LoginStep d) s trace t) :
    (∀ e ∈ trace, OneTime e.post) ↔
      ∀ e ∈ trace, Rechecked d e :=
  Run.forall_post_iff
    (fun _ hInv => hInv.oneTime)
    (fun _ _ _ hInv hStep hCond => hInv.step hStep hCond)
    (fun _ _ _ hInv hStep hAfter =>
      rechecked_of_oneTime hInv hStep hAfter)
    hRun hSettled.inv

end

---- Two Logins With One Code

local instance loginUnicode : Unicode := asciiTables

/- The codes of one secret around a moment, and no recovery
code. -/
def phoneSecret : Str :=
  lit "GEZDGNBVGY3TQOJQGEZDGNBVGY3TQOJQ"

def phone : MfaDigests where
  totpCode secret :=
    if secret = phoneSecret then
      some fun counter =>
        if counter = 59999999 then lit "385088"
        else if counter = 60000000 then lit "768147"
        else lit "050219"
    else none
  sha256Hex _ := []

def phoneRow : MfaRow :=
  ⟨true, some phoneSecret, none, []⟩

def phoneMoment : Int := 1800000012000000

def phoneCode : Option Str := some (lit "768147")

def phoneRest : MfaLogins :=
  ⟨phoneRow, fun _ => none, [], []⟩

theorem phoneSettled : Settled phoneRest where
  oneTime := ⟨List.Pairwise.nil, List.nodup_nil, by simp [phoneRest]⟩
  reads _ := rfl
  stored n hStored := by simp [phoneRest, phoneRow] at hStored
  latest := by simp [phoneRest]

theorem phoneFactor :
    loginFactor phone phoneRow phoneCode phoneMoment =
      .ok (.counter 60000000) := by
  decide

/- The login `0` has read the row, and then the login `1`. -/
def phoneRead (s : MfaLogins) (login : Nat) : MfaLogins :=
  { s with
    reads := Function.update s.reads login (some s.row) }

def phoneFirst : MfaLogins := phoneRead phoneRest 0

def phoneBoth : MfaLogins := phoneRead phoneFirst 1

def phoneIn (s : MfaLogins) (login : Nat) : MfaLogins :=
  s.accept login (.counter 60000000)

/- One login, from its read to its write. -/
def phoneOnce : List (Transition MfaLogins LoginLabel) :=
  [⟨phoneRest, .read 0, phoneFirst⟩,
    ⟨phoneFirst, .accept 0 phoneCode phoneMoment,
      phoneIn phoneFirst 0⟩]

theorem phoneOnce_run :
    Run (LoginStep phone) phoneRest phoneOnce
      (phoneIn phoneFirst 0) :=
  .cons (.read _ 0 rfl)
    (.cons
      (.accept _ 0 phoneCode phoneMoment phoneRow _
        (by simp [phoneFirst, phoneRead, phoneRest])
        phoneFactor)
      (.nil _))

theorem phoneOnce_rechecked :
    ∀ e ∈ phoneOnce, Rechecked phone e := by
  simp only [phoneOnce, List.forall_mem_cons,
    List.not_mem_nil, false_implies, implies_true, and_true]
  constructor
  · intro login code now r hLabel
    cases hLabel
  · intro login code now r hLabel hRead _
    cases hLabel
    simp only [phoneFirst, phoneRead, Function.update_self,
      Option.some.injEq] at hRead
    subst hRead
    decide

/- One login leaves the codes one-time. -/
theorem phoneOnce_one_time :
    OneTime (phoneIn phoneFirst 0) :=
  (one_time_iff phoneSettled phoneOnce_run).mpr
    phoneOnce_rechecked
    ⟨phoneFirst, .accept 0 phoneCode phoneMoment,
      phoneIn phoneFirst 0⟩
    (by simp [phoneOnce])

/- Two logins that read before either writes. -/
def phoneTwice : List (Transition MfaLogins LoginLabel) :=
  [⟨phoneRest, .read 0, phoneFirst⟩,
    ⟨phoneFirst, .read 1, phoneBoth⟩,
    ⟨phoneBoth, .accept 0 phoneCode phoneMoment,
      phoneIn phoneBoth 0⟩,
    ⟨phoneIn phoneBoth 0, .accept 1 phoneCode phoneMoment,
      phoneIn (phoneIn phoneBoth 0) 1⟩]

/- They are both let in with the same time step. -/
theorem one_code_two_logins :
    Settled phoneRest ∧
      Run (LoginStep phone) phoneRest phoneTwice
        (phoneIn (phoneIn phoneBoth 0) 1) ∧
      (phoneIn (phoneIn phoneBoth 0) 1).counters =
        [60000000, 60000000] ∧
      ¬ ∀ e ∈ phoneTwice, OneTime e.post := by
  refine ⟨phoneSettled, ?_, rfl, ?_⟩
  · refine .cons (.read _ 0 rfl) (.cons (.read _ 1 ?_)
      (.cons (.accept _ 0 phoneCode phoneMoment phoneRow _ ?_
        phoneFactor)
      (.cons (.accept _ 1 phoneCode phoneMoment phoneRow _ ?_
        phoneFactor) (.nil _))))
    · simp [phoneFirst, phoneRead, phoneRest]
    · simp [phoneBoth, phoneFirst, phoneRead, phoneRest]
    · simp [phoneIn, MfaLogins.accept, phoneBoth, phoneFirst,
        phoneRead, phoneRest]
  · intro hAll
    have hOrder := (hAll
      ⟨phoneIn phoneBoth 0, .accept 1 phoneCode phoneMoment,
        phoneIn (phoneIn phoneBoth 0) 1⟩
      (by simp [phoneTwice])).increasing
    simp [phoneIn, MfaLogins.accept, Factor.counters, phoneBoth,
      phoneFirst, phoneRead, phoneRest] at hOrder

end ThreatOrbit.Auth
