import ThreatOrbit.Lib.Doubles
import ThreatOrbit.Lib.Python

/-
  Indicators that lose confidence as they age: the score
  that is left decides at any moment whether one is active,
  and the date on which it stops is computed ahead and
  stored.
-/

---- Rules And Instants

namespace ThreatOrbit.Intel

open Lib

/- An instant of the calendar, in microseconds since the
epoch. -/
structure Instant where
  micros : Int
  in_calendar :
    -62135596800000000 ≤ micros ∧ micros < 253402300800000000
deriving DecidableEq

/- An instant, if it is in the calendar. -/
def instant (micros : Int) : Except PyError Instant :=
  if h : -62135596800000000 ≤ micros ∧
      micros < 253402300800000000 then
    .ok ⟨micros, h⟩
  else
    .error .overflowError

/- `replace(microsecond=0)`. -/
def wholeSecond (micros : Int) : Int :=
  micros - micros % 1000000

/- A decay rule, as it governs an indicator. -/
structure DecayRule where
  halfLifeDays : Nat
  revokeScore : Nat
  maxAgeHalfLives : Nat
deriving DecidableEq, Repr

/- A rule of the store: its half-life is an integer of 64
bits. -/
structure DecayRule.Sound (rule : DecayRule) : Prop where
  half_pos : 1 ≤ rule.halfLifeDays
  half_le : rule.halfLifeDays ≤ 2 ^ 63
  revoke_le : rule.revokeScore ≤ 100
  age_pos : 1 ≤ rule.maxAgeHalfLives

/- `DEFAULT_HALFLIFE`. -/
def defaultHalfLife : Nat := 30

/- `rule["halfLifeDays"] or DEFAULT_HALFLIFE`. -/
def DecayRule.halfLife (rule : DecayRule) : Nat :=
  if rule.halfLifeDays = 0 then defaultHalfLife
  else rule.halfLifeDays

/- The hard ceiling of the age, in days. -/
def DecayRule.ceiling (rule : DecayRule) : Nat :=
  rule.halfLife * rule.maxAgeHalfLives

theorem DecayRule.Sound.halfLife_eq
    {rule : DecayRule}
    (hSound : rule.Sound) :
    rule.halfLife = rule.halfLifeDays := by
  have hPos := hSound.half_pos
  unfold DecayRule.halfLife
  rw [if_neg (by omega)]

theorem DecayRule.Sound.one_le_half
    {rule : DecayRule}
    (hSound : rule.Sound) :
    (1 : ℝ) ≤ rule.halfLifeDays := by
  exact_mod_cast hSound.half_pos

inductive IocLifecycle where
| knownGood
| active
| expired
deriving DecidableEq, Repr

---- The Decision

section

variable {F : Type} [Doubles F]

/- `age_days`: of an instant that could not be read, 0. -/
def ageDays (lastSeen : Option Instant) (now : Instant) : F :=
  match lastSeen with
  | none => Doubles.ofInt 0
  | some seen =>
      let age : F :=
        Doubles.div
          (Doubles.ratio (now.micros - seen.micros) 1000000)
          (Doubles.ofInt 86400)
      if Doubles.exceeds age 0 then age else Doubles.ofInt 0

def effectiveConfidence
    (F : Type)
    [Doubles F]
    (confidence : Nat)
    (lastSeen : Option Instant)
    (now : Instant)
    (rule : DecayRule) : Int :=
  let age : F := ageDays lastSeen now
  let factor : F :=
    if 0 < rule.halfLife then
      Doubles.halfPow
        (Doubles.div age (Doubles.ofInt rule.halfLife))
    else Doubles.ofInt 1
  max 0 (Doubles.round
    (Doubles.mul (Doubles.ofInt confidence) factor))

/- Whether an indicator has expired: by its score, or by its
age. -/
def isExpired
    (F : Type)
    [Doubles F]
    (confidence : Nat)
    (lastSeen : Option Instant)
    (now : Instant)
    (rule : DecayRule) : Bool :=
  decide (effectiveConfidence F confidence lastSeen now rule <
      rule.revokeScore) ||
    Doubles.exceeds (ageDays lastSeen now : F) rule.ceiling

/- The status in `lifecycle_of`. -/
def lifecycleOf
    (F : Type)
    [Doubles F]
    (status : IocLifecycle)
    (confidence : Nat)
    (lastSeen : Option Instant)
    (now : Instant)
    (rule : DecayRule) : IocLifecycle :=
  if status ≠ .knownGood then
    if isExpired F confidence lastSeen now rule then .expired
    else .active
  else status

/- The status that `decay_iocs` gives an indicator that is
not known-good. -/
def decayTarget
    (F : Type)
    [Doubles F]
    (confidence : Nat)
    (lastSeen : Option Instant)
    (now : Instant)
    (rule : DecayRule) : IocLifecycle :=
  if effectiveConfidence F confidence lastSeen now rule <
        rule.revokeScore ∨
      Doubles.exceeds (ageDays lastSeen now : F)
        (rule.halfLifeDays * rule.maxAgeHalfLives) = true then
    .expired
  else .active

def daysUntil
    (F : Type)
    [Doubles F]
    (score target : Nat)
    (rule : DecayRule) : Option F :=
  if score = 0 ∨ score ≤ target ∨ target = 0 ∨
      rule.halfLife = 0 then
    none
  else
    some (Doubles.mul (Doubles.ofInt rule.halfLife)
      (Doubles.log2 (Doubles.ratio score target)))

/- `timedelta(days=days)` in microseconds, of the ceiling or
of the time until the revoke score where that is less. -/
def validDays
    (F : Type)
    [Doubles F]
    (score : Nat)
    (rule : DecayRule) : Option Int :=
  match daysUntil F score rule.revokeScore rule with
  | none => some (rule.ceiling * 86400000000)
  | some t =>
      if Doubles.exceeds t rule.ceiling then
        some (rule.ceiling * 86400000000)
      else Doubles.dayMicros t

/- `valid_until`, which raises beyond the calendar. -/
def validUntil
    (F : Type)
    [Doubles F]
    (score : Nat)
    (lastSeen : Option Instant)
    (rule : DecayRule) : Except PyError (Option Instant) :=
  match lastSeen with
  | none => .ok none
  | some seen =>
      match validDays F score rule with
      | none => .error .overflowError
      | some days => do
          let stop ← instant (seen.micros + days)
          let date ← instant (wholeSecond stop.micros)
          .ok (some date)

/- The two computations decide alike. -/
theorem lifecycleOf_eq_target
    {status : IocLifecycle}
    (hOther : status ≠ .knownGood) {rule : DecayRule}
    (hSound : rule.Sound) (confidence : Nat)
    (lastSeen : Option Instant) (now : Instant) :
    lifecycleOf F status confidence lastSeen now rule =
      decayTarget F confidence lastSeen now rule := by
  have hHalf := hSound.halfLife_eq
  unfold lifecycleOf decayTarget isExpired DecayRule.ceiling
  rw [if_pos hOther, hHalf, Nat.cast_mul]
  simp only [Bool.or_eq_true, decide_eq_true_eq]

end

---- The Exact Curve

section

/- The days from a sighting to an instant, none before it. -/
noncomputable def exactAge
    (lastSeen : Option Instant)
    (now : Instant) : ℝ :=
  match lastSeen with
  | none => 0
  | some seen =>
      max 0
        (((now.micros - seen.micros : Int) : ℝ) /
          (86400000000 : Int))

/- The confidence that is left, halved once per half-life. -/
noncomputable def exactScore
    (confidence : Nat)
    (lastSeen : Option Instant)
    (now : Instant)
    (rule : DecayRule) : ℝ :=
  confidence *
    halved (exactAge lastSeen now / rule.halfLifeDays)

variable {F : Type} [Doubles F]

theorem span_le
    (seen now : Instant) :
    |now.micros - seen.micros| ≤ 316000000000000000 := by
  have hSeen := seen.in_calendar
  have hNow := now.in_calendar
  rw [abs_le]
  omega

theorem exactAge_nonneg
    (seen now : Instant) :
    0 ≤ exactAge (some seen) now :=
  le_max_left _ _

theorem exactAge_le
    (seen now : Instant) :
    exactAge (some seen) now ≤ 4000000 := by
  have hSpan := (abs_le.mp (span_le seen now)).2
  have hReal :
      ((now.micros - seen.micros : Int) : ℝ) ≤
        316000000000000000 := by
    exact_mod_cast hSpan
  unfold exactAge
  rw [Int.cast_ofNat]
  apply max_le
  · norm_num
  · rw [div_le_iff₀ (by norm_num)]
    linarith

/- The age in floating-point numbers, before it is cut at
zero. -/
theorem days_near
    {span : Int}
    (hSpan : |span| ≤ 316000000000000000) :
    |Doubles.val
          (Doubles.div (Doubles.ratio span 1000000)
            (Doubles.ofInt 86400) : F) -
        span / 86400000000| ≤ 1 / 1000000 := by
  have hReal : |(span : ℝ)| ≤ 316000000000000000 := by
    exact_mod_cast hSpan
  have hDay : Doubles.val (Doubles.ofInt 86400 : F) = 86400 := by
    rw [Doubles.ofInt_exact _ (by norm_num)]
    norm_num
  -- the seconds, and then the days
  have hSeconds :=
    Doubles.ratio_near (F := F) span 1000000
      (by omega) (by norm_num) (by norm_num)
  have hExact : |(span : ℝ) / (1000000 : Int)| ≤ 316000000000 := by
    rw [abs_div, div_le_iff₀ (by norm_num)]
    norm_num
    exact hReal
  have hClose := hSeconds.le hExact
  generalize (Doubles.ratio span 1000000 : F) = seconds at *
  have hCloses := abs_le.mp hClose
  have hExacts := abs_le.mp hExact
  have hBound : |Doubles.val seconds| ≤ 316000000001 := by
    rw [abs_le]
    constructor
    · linarith
    · linarith
  have hDays :=
    Doubles.div_near seconds (Doubles.ofInt 86400)
      (by linarith) (by rw [hDay]; norm_num)
  rw [hDay] at hDays
  have hQuotient : |Doubles.val seconds / 86400| ≤ 4000000 := by
    have hPos : |(86400 : ℝ)| = 86400 :=
      abs_of_pos (by norm_num)
    rw [abs_div, hPos, div_le_iff₀ (by norm_num)]
    linarith
  have hDaysClose := abs_le.mp (hDays.le hQuotient)
  have hSame :
      (span : ℝ) / 86400000000 =
        span / (1000000 : Int) / 86400 := by
    push_cast
    ring
  rw [hSame, abs_le]
  constructor
  · linarith
  · linarith

theorem ageDays_near
    (seen now : Instant) :
    |Doubles.val (ageDays (some seen) now : F) -
        exactAge (some seen) now| ≤ 1 / 1000000 := by
  have hDays := days_near (F := F) (span_le seen now)
  unfold exactAge ageDays
  dsimp only
  rw [Int.cast_ofNat]
  generalize now.micros - seen.micros = span at hDays ⊢
  generalize
    (Doubles.div (Doubles.ratio span 1000000)
      (Doubles.ofInt 86400) : F) = days at hDays ⊢
  -- the cut at zero brings the two no further apart
  have hCut :
      Doubles.val
          (if Doubles.exceeds days 0 then days
            else Doubles.ofInt 0) =
        max 0 (Doubles.val days) := by
    have hZero : Doubles.val (Doubles.ofInt 0 : F) = 0 := by
      rw [Doubles.ofInt_exact _ (by norm_num), Int.cast_zero]
    have hExceeds := Doubles.exceeds_iff days 0
    rw [Int.cast_zero] at hExceeds
    by_cases hPos : 0 < Doubles.val days
    · rw [if_pos (hExceeds.mpr hPos), max_eq_right hPos.le]
    · rw [if_neg (fun h => hPos (hExceeds.mp h)), hZero,
        max_eq_left (not_lt.mp hPos)]
  rw [hCut]
  apply le_trans _ hDays
  apply le_trans (abs_max_sub_max_le_max _ _ _ _)
  rw [sub_self, abs_zero]
  exact max_le (abs_nonneg _) le_rfl

theorem halfLife_near
    {rule : DecayRule}
    (hSound : rule.Sound) :
    |Doubles.val (Doubles.ofInt rule.halfLifeDays : F) -
        rule.halfLifeDays| ≤ (rule.halfLifeDays : ℝ) / 2 ^ 45 := by
  have hLe : |(rule.halfLifeDays : Int)| ≤ 2 ^ 63 := by
    have hHalf := hSound.half_le
    rw [Nat.abs_cast]
    exact_mod_cast hHalf
  have hNear := Doubles.ofInt_near (F := F) _ hLe
  rw [Int.cast_natCast, Nat.abs_cast] at hNear
  exact hNear

/- The half-lives that have passed. -/
theorem halvings_near
    {rule : DecayRule}
    (hSound : rule.Sound) (seen now : Instant) :
    |Doubles.val
          (Doubles.div (ageDays (some seen) now : F)
            (Doubles.ofInt rule.halfLifeDays)) -
        exactAge (some seen) now / rule.halfLifeDays| ≤
      1 / 100000 := by
  have hAge := ageDays_near (F := F) seen now
  have hHalf := halfLife_near (F := F) hSound
  have hOne := hSound.one_le_half
  have hNonneg := exactAge_nonneg seen now
  have hLe := exactAge_le seen now
  generalize (ageDays (some seen) now : F) = age at hAge ⊢
  generalize
    (Doubles.ofInt rule.halfLifeDays : F) = half at hHalf ⊢
  have hAges := abs_le.mp hAge
  have hHalfLe : 1 / 2 ≤ Doubles.val half := by
    have hHalves := abs_le.mp hHalf
    have hSmall :
        (rule.halfLifeDays : ℝ) / 2 ^ 45 ≤
          rule.halfLifeDays / 2 := by
      gcongr
      norm_num
    linarith
  have hAgeLe : |Doubles.val age| ≤ 5000000 := by
    rw [abs_le]
    constructor
    · linarith
    · linarith
  have hDiv :=
    Doubles.div_near age half (by linarith) hHalfLe
  have hQuotient : |Doubles.val age / Doubles.val half| ≤ 10000000 := by
    have hPos : 0 < Doubles.val half := by linarith
    rw [abs_div, abs_of_pos hPos, div_le_iff₀ hPos]
    linarith
  have hFirst := abs_le.mp (hDiv.le hQuotient)
  have hSecond := abs_le.mp (quotient_close hOne hAge hHalf)
  rw [abs_of_nonneg hNonneg] at hSecond
  rw [abs_le]
  constructor
  · linarith
  · linarith

/- The score before it is rounded. -/
theorem score_near
    {rule : DecayRule}
    (hSound : rule.Sound) {confidence : Nat}
    (hConfidence : confidence ≤ 100) (seen now : Instant) :
    |Doubles.val
          (Doubles.mul (Doubles.ofInt confidence)
            (Doubles.halfPow
              (Doubles.div (ageDays (some seen) now : F)
                (Doubles.ofInt rule.halfLifeDays)))) -
        exactScore confidence (some seen) now rule| ≤ 1 / 80 := by
  have hHalvings := halvings_near (F := F) hSound seen now
  have hNonneg : 0 ≤ exactAge (some seen) now / rule.halfLifeDays :=
    div_nonneg (exactAge_nonneg seen now) (Nat.cast_nonneg _)
  have hValue :
      Doubles.val (Doubles.ofInt confidence : F) = confidence := by
    rw [Doubles.ofInt_exact _ (by rw [Nat.abs_cast]; omega),
      Int.cast_natCast]
  have hConfidenceLe : (confidence : ℝ) ≤ 100 := by
    exact_mod_cast hConfidence
  unfold exactScore halved
  generalize
    (Doubles.div (ageDays (some seen) now)
      (Doubles.ofInt rule.halfLifeDays) : F) = y
    at hHalvings ⊢
  generalize
    exactAge (some seen) now / rule.halfLifeDays = x
    at hHalvings hNonneg ⊢
  generalize (Doubles.ofInt confidence : F) = score at hValue ⊢
  have hBounds := abs_le.mp hHalvings
  have hLow : -1 ≤ Doubles.val y := by linarith
  have hSlow := half_lipschitz hLow (by linarith : -1 ≤ x)
  have hOne : (1 / 2 : ℝ) ^ x ≤ 1 :=
    Real.rpow_le_one (by norm_num) (by norm_num) hNonneg
  have hPos : 0 < (1 / 2 : ℝ) ^ x := by positivity
  have hSlows := abs_le.mp hSlow
  have hPower : |(1 / 2 : ℝ) ^ Doubles.val y| ≤ 2 := by
    rw [abs_le]
    constructor
    · linarith
    · linarith
  have hPowers :=
    abs_le.mp ((Doubles.halfPow_near y hLow).le hPower)
  generalize (Doubles.halfPow y : F) = factor at hPowers ⊢
  have hFactor : |Doubles.val factor - (1 / 2) ^ x| ≤ 1 / 10000 := by
    rw [abs_le]
    constructor
    · linarith
    · linarith
  have hProduct :
      |confidence * Doubles.val factor - confidence * (1 / 2) ^ x| ≤
        1 / 100 := by
    rw [← mul_sub, abs_mul, Nat.abs_cast]
    nlinarith [abs_nonneg (Doubles.val factor - (1 / 2) ^ x)]
  have hProducts := abs_le.mp hProduct
  have hWhole : |Doubles.val score * Doubles.val factor| ≤ 200 := by
    rw [hValue, abs_le]
    constructor
    · nlinarith
    · nlinarith
  have hMul :=
    abs_le.mp
      ((Doubles.mul_near score factor (by linarith)).le hWhole)
  rw [hValue] at hMul
  rw [abs_le]
  constructor
  · linarith
  · linarith

/- The rounded score is less than a point from the exact
one. -/
theorem effective_near
    {rule : DecayRule}
    (hSound : rule.Sound) {confidence : Nat}
    (hConfidence : confidence ≤ 100) (seen now : Instant) :
    |(effectiveConfidence F confidence (some seen) now rule : ℝ) -
        exactScore confidence (some seen) now rule| ≤ 5 / 8 := by
  have hScore :=
    abs_le.mp (score_near (F := F) hSound hConfidence seen now)
  have hNonneg : 0 ≤ exactScore confidence (some seen) now rule := by
    unfold exactScore halved
    positivity
  have hHalfPos : 0 < rule.halfLifeDays := hSound.half_pos
  unfold effectiveConfidence
  dsimp only
  rw [hSound.halfLife_eq, if_pos hHalfPos]
  generalize
    (Doubles.mul (Doubles.ofInt confidence)
      (Doubles.halfPow
        (Doubles.div (ageDays (some seen) now : F)
          (Doubles.ofInt rule.halfLifeDays)))) = score
    at hScore ⊢
  have hRound := abs_le.mp (Doubles.round_near score)
  rw [Int.cast_max, Int.cast_zero, abs_le]
  constructor
  · have hRight := le_max_right 0 ((Doubles.round score : Int) : ℝ)
    linarith
  · rw [sub_le_iff_le_add]
    apply max_le
    · linarith
    · linarith

end

---- The Decision By The Exact Curve

section

variable {F : Type} [Doubles F]

theorem decayTarget_active_iff
    {confidence : Nat} {lastSeen : Option Instant} {now : Instant}
    {rule : DecayRule} :
    decayTarget F confidence lastSeen now rule = .active ↔
      (rule.revokeScore : Int) ≤
          effectiveConfidence F confidence lastSeen now rule ∧
        Doubles.val (ageDays lastSeen now : F) ≤
          rule.halfLifeDays * rule.maxAgeHalfLives := by
  have hAge :=
    Doubles.exceeds_iff (ageDays lastSeen now : F)
      (rule.halfLifeDays * rule.maxAgeHalfLives)
  push_cast at hAge
  unfold decayTarget
  rw [← not_lt, ← not_lt, ← hAge, ← not_or]
  split
  · rename_i hExpired
    simp [hExpired]
  · rename_i hActive
    simp [hActive]

theorem active_of
    {confidence : Nat} {seen now : Instant} {rule : DecayRule}
    (hSound : rule.Sound) (hConfidence : confidence ≤ 100)
    (hAge :
      exactAge (some seen) now + 1 / 100000 ≤
        rule.halfLifeDays * rule.maxAgeHalfLives)
    (hScore :
      (rule.revokeScore : ℝ) - 1 / 4 ≤
        exactScore confidence (some seen) now rule) :
    decayTarget F confidence (some seen) now rule =
      .active := by
  have hAges := abs_le.mp (ageDays_near (F := F) seen now)
  have hScores :=
    abs_le.mp
      (effective_near (F := F) hSound hConfidence seen now)
  rw [decayTarget_active_iff]
  constructor
  · have hAbove :
        (rule.revokeScore : ℝ) - 1 <
          effectiveConfidence F confidence (some seen) now
            rule := by
      linarith
    have hInt :
        (rule.revokeScore : Int) - 1 <
          effectiveConfidence F confidence (some seen) now
            rule := by
      exact_mod_cast hAbove
    omega
  · linarith

theorem not_active_of_age
    {confidence : Nat} {seen now : Instant} {rule : DecayRule}
    (hAge :
      (rule.halfLifeDays : ℝ) * rule.maxAgeHalfLives +
          1 / 100000 ≤
        exactAge (some seen) now) :
    decayTarget F confidence (some seen) now rule ≠
      .active := by
  have hAges := abs_le.mp (ageDays_near (F := F) seen now)
  intro hActive
  have hLe := (decayTarget_active_iff.mp hActive).2
  linarith

theorem not_active_of_score
    {confidence : Nat} {seen now : Instant} {rule : DecayRule}
    (hSound : rule.Sound) (hConfidence : confidence ≤ 100)
    (hScore :
      exactScore confidence (some seen) now rule <
        rule.revokeScore - 1) :
    decayTarget F confidence (some seen) now rule ≠
      .active := by
  have hScores :=
    abs_le.mp
      (effective_near (F := F) hSound hConfidence seen now)
  intro hActive
  have hLe := (decayTarget_active_iff.mp hActive).1
  have hReal :
      (rule.revokeScore : ℝ) ≤
        effectiveConfidence F confidence (some seen) now
          rule := by
    exact_mod_cast hLe
  linarith

end

---- The Stored Date

section

variable {F : Type} [Doubles F]

/- Two instants are at most a second apart, by the seconds
that they are in. -/
def WithinSecond (now date : Instant) : Prop :=
  |now.micros / 1000000 - date.micros / 1000000| ≤ 1

theorem instant_ok
    {micros : Int} {i : Instant}
    (hOk : instant micros = .ok i) :
    i.micros = micros := by
  unfold instant at hOk
  split at hOk
  · rw [Except.ok.injEq] at hOk
    rw [← hOk]
  · cases hOk

/- A stored date is the sighting and the days that are
valid, to the second. -/
theorem validUntil_ok
    {score : Nat} {lastSeen : Option Instant} {rule : DecayRule}
    {date : Instant}
    (hOk :
      validUntil F score lastSeen rule = .ok (some date)) :
    ∃ seen days,
      lastSeen = some seen ∧
        validDays F score rule = some days ∧
        date.micros = wholeSecond (seen.micros + days) ∧
        seen.micros + days < 253402300800000000 := by
  unfold validUntil at hOk
  cases lastSeen with
  | none => cases hOk
  | some seen =>
      dsimp only at hOk
      cases hDays : validDays F score rule with
      | none =>
          rw [hDays] at hOk
          cases hOk
      | some days =>
          rw [hDays] at hOk
          dsimp only at hOk
          cases hStop : instant (seen.micros + days) with
          | error e =>
              rw [hStop] at hOk
              cases hOk
          | ok stop =>
              rw [hStop] at hOk
              have hStopIs := instant_ok hStop
              have hCalendar := stop.in_calendar.2
              cases hDate : instant (wholeSecond stop.micros) with
              | error e =>
                  have hError :
                      (Except.error e :
                        Except PyError (Option Instant)) =
                        .ok (some date) := by
                    rw [← hOk]
                    change _ = (instant (wholeSecond stop.micros) >>= _)
                    rw [hDate]
                    rfl
                  cases hError
              | ok found =>
                  have hFound :
                      (Except.ok (some found) :
                        Except PyError (Option Instant)) =
                        .ok (some date) := by
                    rw [← hOk]
                    change _ = (instant (wholeSecond stop.micros) >>= _)
                    rw [hDate]
                    rfl
                  rw [Except.ok.injEq, Option.some.injEq] at hFound
                  have hDateIs := instant_ok hDate
                  rw [hStopIs] at hDateIs hCalendar
                  exact ⟨seen, days, rfl, rfl,
                    hFound ▸ hDateIs, hCalendar⟩

/- More than a second before its date the days are not over
by a second, -/
theorem exactAge_before
    {seen now date : Instant} {days : Int}
    (hDate : date.micros = wholeSecond (seen.micros + days))
    (hFar : ¬ WithinSecond now date)
    (hBefore : now.micros < date.micros) :
    exactAge (some seen) now ≤
      max 0 ((days : ℝ) / 86400000000 - 1 / 86400) := by
  unfold WithinSecond at hFar
  unfold wholeSecond at hDate
  have hSpan : now.micros - seen.micros ≤ days - 1000000 := by
    rw [abs_le] at hFar
    omega
  have hReal :
      ((now.micros - seen.micros : Int) : ℝ) ≤
        days - 1000000 := by
    exact_mod_cast hSpan
  unfold exactAge
  dsimp only
  rw [Int.cast_ofNat]
  apply max_le_max le_rfl
  rw [div_le_iff₀ (by norm_num)]
  linarith

/- and more than a second after it they are. -/
theorem exactAge_after
    {seen now date : Instant} {days : Int}
    (hDate : date.micros = wholeSecond (seen.micros + days))
    (hFar : ¬ WithinSecond now date)
    (hAfter : ¬ now.micros < date.micros) :
    (days : ℝ) / 86400000000 + 1 / 86400 ≤
      exactAge (some seen) now := by
  unfold WithinSecond at hFar
  unfold wholeSecond at hDate
  have hSpan : days + 1000000 ≤ now.micros - seen.micros := by
    rw [abs_le] at hFar
    omega
  have hReal :
      (days : ℝ) + 1000000 ≤
        ((now.micros - seen.micros : Int) : ℝ) := by
    exact_mod_cast hSpan
  unfold exactAge
  dsimp only
  rw [Int.cast_ofNat]
  apply le_max_of_le_right
  rw [le_div_iff₀ (by norm_num)]
  linarith

theorem validDays_ceiling
    {score : Nat} {rule : DecayRule}
    (hSound : rule.Sound)
    (hNever : score ≤ rule.revokeScore ∨ rule.revokeScore = 0) :
    validDays F score rule =
      some ((rule.halfLifeDays : Int) * rule.maxAgeHalfLives *
        86400000000) := by
  have hNone : daysUntil F score rule.revokeScore rule = none := by
    unfold daysUntil
    rw [if_pos]
    rcases hNever with hBelow | hZero
    · exact Or.inr (Or.inl hBelow)
    · exact Or.inr (Or.inr (Or.inl hZero))
  unfold validDays DecayRule.ceiling
  rw [hNone, hSound.halfLife_eq, Nat.cast_mul]

/- The days until the revoke score, in half-lives. -/
theorem daysUntil_near
    {score : Nat} {rule : DecayRule}
    (hSound : rule.Sound) (hScore : score ≤ 100)
    (hRevoke : 0 < rule.revokeScore)
    (hAbove : rule.revokeScore < score) :
    ∃ t : F,
      daysUntil F score rule.revokeScore rule = some t ∧
        |Doubles.val t / rule.halfLifeDays -
            Real.logb 2 (score / rule.revokeScore)| ≤
          1 / 1000000000 := by
  have hPos := hSound.half_pos
  refine ⟨Doubles.mul (Doubles.ofInt rule.halfLifeDays)
    (Doubles.log2 (Doubles.ratio score rule.revokeScore)),
    ?_, ?_⟩
  · unfold daysUntil
    rw [if_neg (by rw [hSound.halfLife_eq]; omega),
      hSound.halfLife_eq]
  have hHalf := halfLife_near (F := F) hSound
  have hOne := hSound.one_le_half
  generalize
    (Doubles.ofInt rule.halfLifeDays : F) = half at hHalf ⊢
  have hHalves := abs_le.mp hHalf
  have hRatio :=
    Doubles.ratio_near (F := F) score rule.revokeScore
      (by rw [Nat.abs_cast]; omega) (by omega)
      (by have hLe := hSound.revoke_le; omega)
  rw [Int.cast_natCast, Int.cast_natCast] at hRatio
  generalize
    (Doubles.ratio score rule.revokeScore : F) = ratio
    at hRatio ⊢
  have hRevokeReal : (1 : ℝ) ≤ rule.revokeScore := by
    exact_mod_cast hRevoke
  have hRevokePos : (0 : ℝ) < rule.revokeScore := by linarith
  have hScoreReal : (score : ℝ) ≤ 100 := by
    exact_mod_cast hScore
  have hAboveReal : (rule.revokeScore : ℝ) ≤ score := by
    exact_mod_cast hAbove.le
  have hLow : (1 : ℝ) ≤ score / rule.revokeScore :=
    (one_le_div hRevokePos).mpr hAboveReal
  have hHigh : (score : ℝ) / rule.revokeScore ≤ 100 := by
    rw [div_le_iff₀ hRevokePos]
    linarith
  generalize (score : ℝ) / rule.revokeScore = exact at *
  have hRatioClose :=
    hRatio.le (abs_le.mpr ⟨by linarith, hHigh⟩)
  have hRatios := abs_le.mp hRatioClose
  have hRatioLow : 1 / 2 ≤ Doubles.val ratio := by linarith
  have hRatioHigh : Doubles.val ratio ≤ 128 := by linarith
  -- the logarithm
  have hLogLow : -1 ≤ Real.logb 2 (Doubles.val ratio) := by
    rw [Real.le_logb_iff_rpow_le (by norm_num) (by linarith),
      Real.rpow_neg_one]
    linarith
  have hLogHigh : Real.logb 2 (Doubles.val ratio) ≤ 7 := by
    rw [Real.logb_le_iff_le_rpow (by norm_num) (by linarith)]
    norm_num
    exact hRatioHigh
  have hLog :=
    abs_le.mp
      ((Doubles.log2_near ratio hRatioLow (by linarith)).le
        (abs_le.mpr ⟨by linarith, hLogHigh⟩))
  have hLogClose :=
    abs_le.mp
      (logb_close hRatioLow (by linarith : 1 / 2 ≤ exact))
  have hGap : 4 * |Doubles.val ratio - exact| ≤ 1 / 10 ^ 10 := by
    linarith
  generalize Real.logb 2 exact = stop at *
  generalize Real.logb 2 (Doubles.val ratio) = near at *
  generalize (Doubles.log2 ratio : F) = log at *
  have hClose : |Doubles.val log - stop| ≤ 1 / 10 ^ 9 / 2 := by
    rw [abs_le]
    constructor
    · linarith
    · linarith
  have hLe : |Doubles.val log| ≤ 8 := by
    rw [abs_le]
    constructor
    · linarith
    · linarith
  have hHalfLe : (rule.halfLifeDays : ℝ) ≤ 2 ^ 63 := by
    exact_mod_cast hSound.half_le
  have hProduct : |Doubles.val half * Doubles.val log| ≤ 2 ^ 100 := by
    have hHalfAbs : |Doubles.val half| ≤ 2 ^ 64 := by
      rw [abs_le]
      constructor
      · linarith
      · linarith
    rw [abs_mul]
    apply le_trans (mul_le_mul hHalfAbs hLe (abs_nonneg _)
      (by norm_num))
    norm_num
  apply le_trans (product_close hOne hHalf hClose hLe
    (Doubles.mul_near half log hProduct))
  norm_num

end

---- The Date And The Decision

section

/- An indicator is active exactly until its date, up to a
point of the score and a second. -/
def Alike
    (active : Prop)
    (confidence : Nat)
    (lastSeen : Option Instant)
    (rule : DecayRule)
    (date now : Instant) : Prop :=
  (active ↔ now.micros < date.micros) ∨
    |exactScore confidence lastSeen now rule -
        rule.revokeScore| ≤ 1 ∨
    WithinSecond now date

/- The stored date is the one of the decision, as it is shown
and as the store is swept, and of a confidence that is too
low already it is not ahead. -/
structure Agrees
    (F : Type)
    [Doubles F]
    (confidence : Nat)
    (lastSeen : Option Instant)
    (rule : DecayRule)
    (date : Instant) : Prop where
  shown :
    ∀ status ≠ IocLifecycle.knownGood, ∀ now,
      Alike
        (lifecycleOf F status confidence lastSeen now rule =
          .active)
        confidence lastSeen rule date now
  swept :
    ∀ now,
      Alike
        (decayTarget F confidence lastSeen now rule = .active)
        confidence lastSeen rule date now
  not_ahead :
    confidence < rule.revokeScore →
      ∀ seen ∈ lastSeen, ∀ now : Instant,
        seen.micros ≤ now.micros →
          ¬ now.micros < date.micros

variable {F : Type} [Doubles F]

theorem agrees_of_swept
    {confidence : Nat} {lastSeen : Option Instant}
    {rule : DecayRule} {date : Instant}
    (hSound : rule.Sound) (hLe : rule.revokeScore ≤ confidence)
    (hSwept :
      ∀ now,
        Alike
          (decayTarget F confidence lastSeen now rule =
            .active)
          confidence lastSeen rule date now) :
    Agrees F confidence lastSeen rule date where
  shown status hOther now := by
    rw [lifecycleOf_eq_target hOther hSound]
    exact hSwept now
  swept := hSwept
  not_ahead hBelow := by omega

theorem DecayRule.Sound.one_le_ceiling
    {rule : DecayRule}
    (hSound : rule.Sound) :
    (1 : ℝ) ≤ rule.halfLifeDays * rule.maxAgeHalfLives := by
  have hAge : (1 : ℝ) ≤ rule.maxAgeHalfLives := by
    exact_mod_cast hSound.age_pos
  have hHalf := hSound.one_le_half
  nlinarith

/- A date at the ceiling, where the score does not fall below
the revoke score before it. -/
theorem alike_ceiling
    {confidence : Nat} {seen date : Instant} {rule : DecayRule}
    (hSound : rule.Sound) (hConfidence : confidence ≤ 100)
    (hDate :
      date.micros =
        wholeSecond
          (seen.micros +
            (rule.halfLifeDays : Int) * rule.maxAgeHalfLives *
              86400000000))
    (now : Instant)
    (hScore :
      exactAge (some seen) now ≤
          rule.halfLifeDays * rule.maxAgeHalfLives →
        (rule.revokeScore : ℝ) - 1 / 4 ≤
            exactScore confidence (some seen) now rule ∨
          |exactScore confidence (some seen) now rule -
              rule.revokeScore| ≤ 1) :
    Alike
      (decayTarget F confidence (some seen) now rule = .active)
      confidence (some seen) rule date now := by
  have hCeiling := hSound.one_le_ceiling
  by_cases hFar : WithinSecond now date
  · exact Or.inr (Or.inr hFar)
  by_cases hBefore : now.micros < date.micros
  · have hAge := exactAge_before hDate hFar hBefore
    push_cast at hAge
    rw [mul_div_assoc, div_self (by norm_num), mul_one,
      max_eq_right (by linarith)] at hAge
    rcases hScore (by linarith) with hAbove | hClose
    · have hActive :=
        active_of (F := F) hSound hConfidence (by linarith)
          hAbove
      exact Or.inl ⟨fun _ => hBefore, fun _ => hActive⟩
    · exact Or.inr (Or.inl hClose)
  · have hAge := exactAge_after hDate hFar hBefore
    push_cast at hAge
    rw [mul_div_assoc, div_self (by norm_num), mul_one] at hAge
    have hOver :
        (rule.halfLifeDays : ℝ) * rule.maxAgeHalfLives +
            1 / 100000 ≤
          exactAge (some seen) now := by
      linarith
    have hExpired :
        decayTarget F confidence (some seen) now rule ≠
          .active :=
      not_active_of_age hOver
    exact Or.inl
      ⟨fun h => absurd h hExpired, fun h => absurd h hBefore⟩

/- Until the curve reaches the revoke score, the score stays
above it. -/
theorem score_until
    {confidence : Nat} {seen now : Instant} {rule : DecayRule}
    {t : ℝ}
    (hConfidence : confidence ≤ 100)
    (hRevoke : 0 < rule.revokeScore)
    (hAbove : rule.revokeScore < confidence)
    (hCurve :
      t / rule.halfLifeDays -
          Real.logb 2 (confidence / rule.revokeScore) ≤
        1 / 1000000000)
    (hTime : exactAge (some seen) now ≤ max 0 t) :
    (rule.revokeScore : ℝ) - 1 / 4 ≤
      exactScore confidence (some seen) now rule := by
  have hRevokePos : (0 : ℝ) < rule.revokeScore := by
    exact_mod_cast hRevoke
  have hAboveReal : (rule.revokeScore : ℝ) ≤ confidence := by
    exact_mod_cast hAbove.le
  have hConfidenceReal : (confidence : ℝ) ≤ 100 := by
    exact_mod_cast hConfidence
  have hHalfNonneg : (0 : ℝ) ≤ rule.halfLifeDays :=
    Nat.cast_nonneg _
  have hLog : 0 ≤ Real.logb 2 (confidence / rule.revokeScore) :=
    Real.logb_nonneg (by norm_num)
      ((one_le_div hRevokePos).mpr hAboveReal)
  have hHalvings :
      exactAge (some seen) now / rule.halfLifeDays ≤
        Real.logb 2 (confidence / rule.revokeScore) +
          1 / 1000000000 := by
    rcases le_max_iff.mp hTime with hZero | hLater
    · have hNone :
          exactAge (some seen) now / rule.halfLifeDays ≤ 0 :=
        div_nonpos_of_nonpos_of_nonneg hZero hHalfNonneg
      linarith
    · have hRate :
          exactAge (some seen) now / rule.halfLifeDays ≤
            t / rule.halfLifeDays := by
        gcongr
      linarith
  have hScore :=
    mul_half_ge hRevokePos hAboveReal (by norm_num) hHalvings
  unfold exactScore halved
  linarith

/- A date at which the curve reaches the revoke score. -/
theorem alike_curve
    {confidence : Nat} {seen date : Instant} {rule : DecayRule}
    {days : Int} {t : F}
    (hSound : rule.Sound) (hConfidence : confidence ≤ 100)
    (hRevoke : 0 < rule.revokeScore)
    (hAbove : rule.revokeScore < confidence)
    (hDays : |(days : ℝ) - Doubles.val t * 86400000000| ≤ 1)
    (hCurve :
      |Doubles.val t / rule.halfLifeDays -
          Real.logb 2 (confidence / rule.revokeScore)| ≤
        1 / 1000000000)
    (hLe :
      Doubles.val t ≤ rule.halfLifeDays * rule.maxAgeHalfLives)
    (hDate :
      date.micros = wholeSecond (seen.micros + days))
    (now : Instant) :
    Alike
      (decayTarget F confidence (some seen) now rule = .active)
      confidence (some seen) rule date now := by
  have hCeiling := hSound.one_le_ceiling
  have hHalf := hSound.one_le_half
  have hHalfPos : (0 : ℝ) < rule.halfLifeDays := by linarith
  have hRevokeReal : (1 : ℝ) ≤ rule.revokeScore := by
    exact_mod_cast hRevoke
  have hRevokePos : (0 : ℝ) < rule.revokeScore := by linarith
  have hAboveReal : (rule.revokeScore : ℝ) ≤ confidence := by
    exact_mod_cast hAbove.le
  have hConfidenceReal : (confidence : ℝ) ≤ 100 := by
    exact_mod_cast hConfidence
  have hDayBounds := abs_le.mp hDays
  have hCurves := abs_le.mp hCurve
  by_cases hFar : WithinSecond now date
  · exact Or.inr (Or.inr hFar)
  by_cases hBefore : now.micros < date.micros
  · have hAge := exactAge_before hDate hFar hBefore
    have hStop :
        (days : ℝ) / 86400000000 ≤
          Doubles.val t + 1 / 86400000000 := by
      rw [div_le_iff₀ (by norm_num)]
      linarith
    have hUnder :
        exactAge (some seen) now + 1 / 100000 ≤
          rule.halfLifeDays * rule.maxAgeHalfLives := by
      rcases le_max_iff.mp hAge with hZero | hLater
      · linarith
      · linarith
    have hTime : exactAge (some seen) now ≤ max 0 (Doubles.val t) := by
      apply le_trans hAge
      apply max_le_max le_rfl
      linarith
    have hActive :
        decayTarget F confidence (some seen) now rule =
          .active :=
      active_of hSound hConfidence hUnder
        (score_until hConfidence hRevoke hAbove hCurves.2 hTime)
    exact Or.inl ⟨fun _ => hBefore, fun _ => hActive⟩
  · have hAge := exactAge_after hDate hFar hBefore
    have hStop :
        Doubles.val t - 1 / 86400000000 ≤
          (days : ℝ) / 86400000000 := by
      rw [le_div_iff₀ (by norm_num)]
      linarith
    have hTime : Doubles.val t ≤ exactAge (some seen) now := by
      linarith
    have hRate :
        Doubles.val t / rule.halfLifeDays ≤
          exactAge (some seen) now / rule.halfLifeDays := by
      gcongr
    have hHalvings :
        Real.logb 2 (confidence / rule.revokeScore) -
            1 / 1000000000 ≤
          exactAge (some seen) now / rule.halfLifeDays := by
      linarith
    have hScore :
        exactScore confidence (some seen) now rule ≤
          rule.revokeScore + 1 := by
      have hUnder :=
        mul_half_le hRevokePos hAboveReal (by norm_num)
          (by norm_num) hHalvings
      unfold exactScore halved
      linarith
    -- a point below the revoke score the rounding is over
    by_cases hClose :
        (rule.revokeScore : ℝ) - 1 ≤
          exactScore confidence (some seen) now rule
    · have hPoint :
          |exactScore confidence (some seen) now rule -
              rule.revokeScore| ≤ 1 := by
        rw [abs_le]
        constructor
        · linarith
        · linarith
      exact Or.inr (Or.inl hPoint)
    · have hExpired :
          decayTarget F confidence (some seen) now rule ≠
            .active :=
        not_active_of_score hSound hConfidence
          (not_le.mp hClose)
      exact Or.inl
        ⟨fun h => absurd h hExpired, fun h => absurd h hBefore⟩

/- A confidence that is above the revoke score at first. -/
theorem agrees_above
    {confidence : Nat} {lastSeen : Option Instant}
    {rule : DecayRule} {date : Instant}
    (hSound : rule.Sound) (hConfidence : confidence ≤ 100)
    (hRevoke : 0 < rule.revokeScore)
    (hAbove : rule.revokeScore < confidence)
    (hStored :
      validUntil F confidence lastSeen rule =
        .ok (some date)) :
    Agrees F confidence lastSeen rule date := by
  rcases validUntil_ok hStored with
    ⟨seen, days, rfl, hDays, hDate, _⟩
  rcases daysUntil_near (F := F) hSound hConfidence hRevoke
    hAbove with ⟨t, hUntil, hCurve⟩
  have hExceeds :=
    Doubles.exceeds_iff t
      (rule.halfLifeDays * rule.maxAgeHalfLives)
  push_cast at hExceeds
  unfold validDays DecayRule.ceiling at hDays
  rw [hUntil, hSound.halfLife_eq, Nat.cast_mul] at hDays
  dsimp only at hDays
  apply agrees_of_swept hSound hAbove.le
  intro now
  by_cases hOver :
      (rule.halfLifeDays : ℝ) * rule.maxAgeHalfLives <
        Doubles.val t
  · rw [if_pos (hExceeds.mpr hOver), Option.some.injEq] at hDays
    subst hDays
    apply alike_ceiling hSound hConfidence hDate now
    intro hAge
    left
    exact score_until hConfidence hRevoke hAbove
      (abs_le.mp hCurve).2
      (le_max_of_le_right (le_trans hAge hOver.le))
  · rw [if_neg (fun h => hOver (hExceeds.mp h))] at hDays
    exact alike_curve hSound hConfidence hRevoke hAbove
      (Doubles.dayMicros_near t days hDays) hCurve
      (not_lt.mp hOver) hDate now

/- Where no curve reaches the revoke score, the date is the
one of the ceiling. -/
theorem validUntil_ceiling
    {confidence : Nat} {lastSeen : Option Instant}
    {rule : DecayRule} {date : Instant}
    (hSound : rule.Sound)
    (hNever :
      confidence ≤ rule.revokeScore ∨ rule.revokeScore = 0)
    (hStored :
      validUntil F confidence lastSeen rule =
        .ok (some date)) :
    ∃ seen,
      lastSeen = some seen ∧
        date.micros =
          wholeSecond
            (seen.micros +
              (rule.halfLifeDays : Int) * rule.maxAgeHalfLives *
                86400000000) ∧
        seen.micros +
            (rule.halfLifeDays : Int) * rule.maxAgeHalfLives *
              86400000000 <
          253402300800000000 := by
  rcases validUntil_ok hStored with
    ⟨seen, days, hSeen, hDays, hDate, hCalendar⟩
  rw [validDays_ceiling hSound hNever,
    Option.some.injEq] at hDays
  subst hDays
  exact ⟨seen, hSeen, hDate, hCalendar⟩

theorem agrees_zero
    {confidence : Nat} {lastSeen : Option Instant}
    {rule : DecayRule} {date : Instant}
    (hSound : rule.Sound) (hConfidence : confidence ≤ 100)
    (hRevoke : rule.revokeScore = 0)
    (hStored :
      validUntil F confidence lastSeen rule =
        .ok (some date)) :
    Agrees F confidence lastSeen rule date := by
  rcases validUntil_ceiling hSound (Or.inr hRevoke) hStored with
    ⟨seen, rfl, hDate, _⟩
  apply agrees_of_swept hSound (by omega)
  intro now
  apply alike_ceiling hSound hConfidence hDate now
  intro _
  left
  have hNonneg : 0 ≤ exactScore confidence (some seen) now rule := by
    unfold exactScore halved
    positivity
  rw [hRevoke, Nat.cast_zero]
  linarith

/- A confidence at the revoke score, where the ceiling is
reached within a point of it. -/
theorem agrees_at
    {confidence : Nat} {lastSeen : Option Instant}
    {rule : DecayRule} {date : Instant}
    (hSound : rule.Sound) (hConfidence : confidence ≤ 100)
    (hSame : confidence = rule.revokeScore)
    (hClose :
      rule.revokeScore = 1 ∨
        (rule.revokeScore = 2 ∧ rule.maxAgeHalfLives = 1))
    (hStored :
      validUntil F confidence lastSeen rule =
        .ok (some date)) :
    Agrees F confidence lastSeen rule date := by
  rcases validUntil_ceiling hSound (Or.inl hSame.le) hStored with
    ⟨seen, rfl, hDate, _⟩
  apply agrees_of_swept hSound hSame.ge
  intro now
  apply alike_ceiling hSound hConfidence hDate now
  intro hAge
  right
  have hPos :
      0 < (1 / 2 : ℝ) ^
        (exactAge (some seen) now / rule.halfLifeDays) := by
    positivity
  have hOne :
      (1 / 2 : ℝ) ^
        (exactAge (some seen) now / rule.halfLifeDays) ≤ 1 :=
    Real.rpow_le_one (by norm_num) (by norm_num)
      (div_nonneg (exactAge_nonneg seen now) (Nat.cast_nonneg _))
  unfold exactScore halved
  rw [hSame]
  rcases hClose with hPoint | ⟨hTwo, hLife⟩
  · rw [hPoint, Nat.cast_one, one_mul, abs_le]
    constructor
    · linarith
    · linarith
  · rw [hLife, Nat.cast_one, mul_one] at hAge
    have hHalf := hSound.one_le_half
    have hHalving : exactAge (some seen) now / rule.halfLifeDays ≤ 1 :=
      (div_le_one (by linarith)).mpr hAge
    have hMono :
        (1 / 2 : ℝ) ^ (1 : ℝ) ≤
          (1 / 2) ^
            (exactAge (some seen) now / rule.halfLifeDays) :=
      Real.rpow_le_rpow_of_exponent_ge (by norm_num)
        (by norm_num) hHalving
    rw [Real.rpow_one] at hMono
    rw [hTwo, Nat.cast_ofNat, abs_le]
    constructor
    · linarith
    · linarith

/- A confidence that is too low already carries the date of
the ceiling. -/
theorem not_agrees_below
    {confidence : Nat} {lastSeen : Option Instant}
    {rule : DecayRule} {date : Instant}
    (hSound : rule.Sound) (hBelow : confidence < rule.revokeScore)
    (hStored :
      validUntil F confidence lastSeen rule =
        .ok (some date)) :
    ¬ Agrees F confidence lastSeen rule date := by
  rcases validUntil_ceiling hSound (Or.inl hBelow.le)
    hStored with ⟨seen, rfl, hDate, _⟩
  intro hAgrees
  have hCeiling :
      (1 : Int) ≤
        (rule.halfLifeDays : Int) * rule.maxAgeHalfLives := by
    exact_mod_cast hSound.one_le_ceiling
  apply hAgrees.not_ahead hBelow seen rfl seen le_rfl
  unfold wholeSecond at hDate
  omega

/- Three seconds before the ceiling the score is more than a
point below the one it began with. -/
theorem late_score
    {seen now : Instant} {rule : DecayRule}
    (hSound : rule.Sound) (hTwo : 2 ≤ rule.revokeScore)
    (hMore :
      3 ≤ rule.revokeScore ∨ 2 ≤ rule.maxAgeHalfLives)
    (hNow :
      now.micros =
        seen.micros +
          (rule.halfLifeDays : Int) * rule.maxAgeHalfLives *
            86400000000 - 3000000) :
    exactScore rule.revokeScore (some seen) now rule <
      rule.revokeScore - 1 := by
  have hHalf := hSound.one_le_half
  have hHalfPos : (0 : ℝ) < rule.halfLifeDays := by linarith
  have hCeiling := hSound.one_le_ceiling
  have hRevokeLe : (rule.revokeScore : ℝ) ≤ 100 := by
    exact_mod_cast hSound.revoke_le
  have hTwoReal : (2 : ℝ) ≤ rule.revokeScore := by
    exact_mod_cast hTwo
  have hAge :
      exactAge (some seen) now =
        rule.halfLifeDays * rule.maxAgeHalfLives -
          3 / 86400 := by
    unfold exactAge
    dsimp only
    rw [hNow, Int.cast_ofNat]
    push_cast
    rw [max_eq_right]
    · ring
    · apply div_nonneg
      · linarith
      · norm_num
  have hHalvings :
      (rule.maxAgeHalfLives : ℝ) - 3 / 86400 ≤
        exactAge (some seen) now / rule.halfLifeDays := by
    rw [hAge, le_div_iff₀ hHalfPos]
    nlinarith
  have hLives : (1 : ℝ) ≤ rule.maxAgeHalfLives := by
    exact_mod_cast hSound.age_pos
  have hMono :
      (1 / 2 : ℝ) ^
          (exactAge (some seen) now / rule.halfLifeDays) ≤
        (1 / 2) ^ ((rule.maxAgeHalfLives : ℝ) - 3 / 86400) :=
    Real.rpow_le_rpow_of_exponent_ge (by norm_num)
      (by norm_num) hHalvings
  have hSlow :=
    half_lipschitz
      (by linarith :
        -1 ≤ (rule.maxAgeHalfLives : ℝ) - 3 / 86400)
      (by linarith : -1 ≤ (rule.maxAgeHalfLives : ℝ))
  rw [sub_sub_cancel_left, abs_neg,
    abs_of_pos (by norm_num : (0 : ℝ) < 3 / 86400)] at hSlow
  have hSlows := (abs_le.mp hSlow).2
  -- all the half-lives leave a half, or a quarter
  have hLeft :
      (rule.revokeScore : ℝ) *
          (1 / 2) ^ (rule.maxAgeHalfLives : ℝ) ≤
        rule.revokeScore - 3 / 2 := by
    rcases hMore with hThree | hLonger
    · have hThreeReal : (3 : ℝ) ≤ rule.revokeScore := by
        exact_mod_cast hThree
      have hPower :
          (1 / 2 : ℝ) ^ (rule.maxAgeHalfLives : ℝ) ≤
            (1 / 2) ^ (1 : ℝ) :=
        Real.rpow_le_rpow_of_exponent_ge (by norm_num)
          (by norm_num) hLives
      rw [Real.rpow_one] at hPower
      nlinarith
    · have hLongerReal : (2 : ℝ) ≤ rule.maxAgeHalfLives := by
        exact_mod_cast hLonger
      have hPower :
          (1 / 2 : ℝ) ^ (rule.maxAgeHalfLives : ℝ) ≤
            (1 / 2) ^ (2 : ℝ) :=
        Real.rpow_le_rpow_of_exponent_ge (by norm_num)
          (by norm_num) hLongerReal
      rw [Real.rpow_two] at hPower
      nlinarith
  unfold exactScore halved
  nlinarith

/- One at the revoke score is expired seconds before the
ceiling. -/
theorem not_agrees_at
    {confidence : Nat} {lastSeen : Option Instant}
    {rule : DecayRule} {date : Instant}
    (hSound : rule.Sound) (hConfidence : confidence ≤ 100)
    (hSame : confidence = rule.revokeScore)
    (hTwo : 2 ≤ rule.revokeScore)
    (hMore :
      3 ≤ rule.revokeScore ∨ 2 ≤ rule.maxAgeHalfLives)
    (hStored :
      validUntil F confidence lastSeen rule =
        .ok (some date)) :
    ¬ Agrees F confidence lastSeen rule date := by
  rcases validUntil_ceiling hSound (Or.inl hSame.le)
    hStored with ⟨seen, rfl, hDate, hCalendar⟩
  intro hAgrees
  have hCeiling :
      (1 : Int) ≤
        (rule.halfLifeDays : Int) * rule.maxAgeHalfLives := by
    exact_mod_cast hSound.one_le_ceiling
  have hSeen := seen.in_calendar
  -- three seconds before the ceiling
  obtain ⟨now, hNow⟩ :
      ∃ now : Instant,
        now.micros =
          seen.micros +
            (rule.halfLifeDays : Int) * rule.maxAgeHalfLives *
              86400000000 - 3000000 :=
    ⟨⟨_, by omega⟩, rfl⟩
  unfold wholeSecond at hDate
  have hBefore : now.micros < date.micros := by omega
  have hFar : ¬ WithinSecond now date := by
    unfold WithinSecond
    rw [abs_le]
    omega
  have hScore :
      exactScore confidence (some seen) now rule <
        rule.revokeScore - 1 := by
    rw [hSame]
    exact late_score hSound hTwo hMore hNow
  rcases hAgrees.swept now with hAlike | hPoint | hNear
  · exact not_active_of_score hSound hConfidence hScore
      (hAlike.mpr hBefore)
  · have hPoints := (abs_le.mp hPoint).1
    linarith
  · exact hFar hNear

/- The date agrees with the decision exactly where the revoke
score is zero or the confidence is above it, or at it with
a ceiling that leaves no more than a point of decay. -/
theorem decay_agrees_iff
    {confidence : Nat}
    {lastSeen : Option Instant}
    {rule : DecayRule}
    {date : Instant}
    (hSound : rule.Sound)
    (hConfidence : confidence ≤ 100)
    (hStored :
      validUntil F confidence lastSeen rule =
        .ok (some date)) :
    Agrees F confidence lastSeen rule date ↔
      rule.revokeScore = 0 ∨
        rule.revokeScore < confidence ∨
        (confidence = rule.revokeScore ∧
          (rule.revokeScore = 1 ∨
            (rule.revokeScore = 2 ∧
              rule.maxAgeHalfLives = 1))) := by
  have hAgePos := hSound.age_pos
  constructor
  · intro hAgrees
    by_cases hZero : rule.revokeScore = 0
    · exact Or.inl hZero
    rcases lt_trichotomy confidence rule.revokeScore with
      hBelow | hSame | hAbove
    · exact absurd hAgrees
        (not_agrees_below hSound hBelow hStored)
    · right
      right
      refine ⟨hSame, ?_⟩
      by_contra hOther
      exact not_agrees_at hSound hConfidence hSame (by omega)
        (by omega) hStored hAgrees
    · exact Or.inr (Or.inl hAbove)
  · rintro (hZero | hAbove | ⟨hSame, hClose⟩)
    · exact agrees_zero hSound hConfidence hZero hStored
    · by_cases hZero : rule.revokeScore = 0
      · exact agrees_zero hSound hConfidence hZero hStored
      · exact agrees_above hSound hConfidence (by omega) hAbove
          hStored
    · exact agrees_at hSound hConfidence hSame hClose hStored

end

---- A Confidence Below The Revoke Score

attribute [local instance] exactDoubles

def ipRule : DecayRule := ⟨14, 15, 4⟩

/- Midnight of the first of January 2026, and 56 days
later. -/
def seenFirst : Instant := ⟨1767225600000000, by decide⟩

def fiftySixLater : Instant := ⟨1772064000000000, by decide⟩

theorem ipRule_sound : ipRule.Sound :=
  ⟨by decide, by decide, by decide, by decide⟩

theorem weak_stored :
    validUntil ℝ 10 (some seenFirst) ipRule =
      .ok (some fiftySixLater) :=
  rfl

theorem weak_decided :
    Agrees ℝ 10 (some seenFirst) ipRule fiftySixLater ↔
      ipRule.revokeScore = 0 ∨ ipRule.revokeScore < 10 ∨
        (10 = ipRule.revokeScore ∧
          (ipRule.revokeScore = 1 ∨
            (ipRule.revokeScore = 2 ∧
              ipRule.maxAgeHalfLives = 1))) :=
  decay_agrees_iff ipRule_sound (by decide) weak_stored

/- Its date is ahead for 56 days. -/
theorem weak_ahead :
    validUntil ℝ 10 (some seenFirst) ipRule =
        .ok (some fiftySixLater) ∧
      ¬ Agrees ℝ 10 (some seenFirst) ipRule fiftySixLater :=
  ⟨weak_stored,
    not_agrees_below ipRule_sound (by decide) weak_stored⟩

end ThreatOrbit.Intel
