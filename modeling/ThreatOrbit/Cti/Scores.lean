import ThreatOrbit.Cti.Context
import ThreatOrbit.Cti.Expiry

/-
  The score that is stored of an indicator and the scores that
  the pages show of it.

  The pass weighs the conclusions of the default workspace and
  grades the sources its own way, the lookups and the list
  weigh no conclusions, and the detail page those of the
  workspace.
-/

---- One Score

namespace ThreatOrbit.Cti

open Lib

open Intel (Instant)

section

variable [Unicode] [Normalizer] [Capitals]
variable (F : Type) [Doubles F]

/- The scores that are shown of a row: by the list, on a page
with some values; by a lookup, in a store with the same
sources; by a bulk lookup, with some values matched; and by
the detail page. -/
structure ShownAs
    (now : Instant)
    (store : IntelStore)
    (page matched : List Str)
    (row : Ioc)
    (score : Int) : Prop where
  listed :
    (listItem F now store
        (corroboration store.observations page) row).intelScore =
      score
  looked :
    ∀ (s : IocStore) (v : Str) (answer : LookupAnswer),
      s.observations = store.observations →
        s.grades = store.grades →
          matchIndicator s.iocs (strip v) = .ok (some row) →
            iocLookup F now s v = .ok answer →
              answer.intelScore = some score
  bulk :
    ∀ v, (bulkAnswer F now store.toIocStore
        (corroboration store.observations matched) v
        (some row)).intelScore =
      some score
  detail :
    (getIoc F now store row.orgId row).intelScore = score

/- What identifies an indicator to a score: its value, the
source of its row, and its workspace. -/
structure Scored where
  value : Str
  source : Option Str
  orgId : Str

omit [Capitals] in
structure Scored.Is (key : Scored) (ioc : Ioc) : Prop where
  value : ioc.value = key.value
  source : ioc.source = key.source
  orgId : ioc.orgId = key.orgId
  host : ioc.host = hostOf ioc.value ioc.type

/- Right after the pass, the stored score of every such
indicator is the one that is shown. -/
def OneScore
    (store : IntelStore)
    (page matched : List Str)
    (key : Scored) : Prop :=
  ∀ ioc after now, key.Is ioc → ioc.status ≠ knownGood →
    ioc.confidence ≤ 100 →
      decayIoc F now store ioc = .ok after →
        ShownAs F now store page matched after after.intelScore

/- Right after a conclusion is recorded about such an
indicator, its stored score is the one that is shown. -/
def RecordsOneScore
    (store : IntelStore)
    (page matched : List Str)
    (verdict : Str)
    (key : Scored) : Prop :=
  ∀ ioc now verdicts score, key.Is ioc → ioc.confidence ≤ 100 →
    recordVerdict F now store ioc.orgId verdict ioc =
        .ok (verdicts, score) →
      ShownAs F now { store with verdicts := verdicts } page
        matched { ioc with intelScore := score } score

omit [Unicode] [Normalizer] [Capitals] in
/- Whether the sources of a value count once among the values
of a page or of a bulk lookup: it has none, or enough to
reach the cap, or it stands in one chunk of the values. -/
def CountsOnce
    (observations : List Observation)
    (values : List Str)
    (value : Str) : Prop :=
  sourcesOf observations value = [] ∨
    5 ≤ (sourcesOf observations value).length ∨
    ((chunks importProbeChunk values).filter
      fun part => part.contains value).length ≤ 1

omit [Unicode] [Normalizer] in
/- The weight that a grade is scored with. -/
def gradeWeight (reliability : Str) : Int :=
  weightOf (gradeLetter
    (orStr (some reliability) defaultReliability))

/- What makes the scores agree: the grades of the pass and of
the pages weigh the same, neither the default workspace nor
that of the row moves the score, and the sources count
once. -/
structure ScoreSafe
    (store : IntelStore)
    (page matched : List Str)
    (key : Scored) : Prop where
  grade :
    gradeWeight
        (passGrade store.observations store.grades key.value
          key.source) =
      gradeWeight
        (pageGrade (sourcesOf store.observations key.value)
          store.grades key.source)
  pass : defaultShift store.verdicts key.value = 0
  own : summaryShift store.verdicts key.value key.orgId = 0
  page : CountsOnce store.observations page key.value
  matched : CountsOnce store.observations matched key.value

omit [Capitals] in
/- What makes them agree after a conclusion: it brings the
conclusions of the workspace to no movement, and the sources
count once. -/
def RecordSafe
    (store : IntelStore)
    (page matched : List Str)
    (verdict : Str)
    (key : Scored) : Prop :=
  let v := Unicode.lower (strip verdict)
  (lookup v verdictWeight).isSome = true →
    summaryShift
        (store.verdicts ++
          [⟨strip key.value,
            orStr (some key.orgId) (lit "org-default"), v⟩])
        key.value key.orgId = 0 ∧
      CountsOnce store.observations page key.value ∧
      CountsOnce store.observations matched key.value

end

---- The Parts Of A Score

open Intel (Instant effectiveConfidence)

section

/- A score cut to the scale. -/
def cut (raw : Int) : Int := max 0 (min 100 raw)

/- The claim of the sources, aged and weighed. -/
def baseOf
    [Unicode]
    (F : Type)
    [Doubles F]
    (now : Instant)
    (ioc : Ioc)
    (weight : Int) : Int :=
  Doubles.round
    (Doubles.mul
      (Doubles.ofInt (effectiveConfidence F ioc.confidence
        ioc.lastSeen now (builtinRule ioc.type)))
      (Doubles.ratio weight 100) : F)

theorem score_eq
    [Unicode] [Capitals]
    (F : Type) [Doubles F] (now : Instant) (ioc : Ioc)
    (sourceCount : Int) (reliability : Str)
    (localSightings verdictShift : Int) :
    (scoreIndicator F now ioc sourceCount reliability
        localSightings verdictShift).score =
      cut (baseOf F now ioc (gradeWeight reliability) +
        corroborationBonus (max 1 sourceCount) +
        sightingBonus localSightings + attribution ioc +
        verdictShift) :=
  rfl

theorem corroborationBonus_bounds
    (n : Int) :
    0 ≤ corroborationBonus n ∧ corroborationBonus n ≤ 26 := by
  unfold corroborationBonus corroborationCap corroborationFirst
    corroborationExtra
  split
  · omega
  · omega

/- Sources that count more than once leave the bonus as it is
only at none of them or at the cap. -/
theorem corroborationBonus_repeated
    {k n : Nat}
    (hPos : 0 < k) :
    corroborationBonus (max 1 ((k * n : Nat) : Int)) =
        corroborationBonus (max 1 (n : Int)) ↔
      n = 0 ∨ 5 ≤ n ∨ k ≤ 1 := by
  by_cases hOnce : k ≤ 1
  · have hK : k = 1 := by omega
    rw [hK, Nat.one_mul]
    exact iff_of_true rfl (.inr (.inr le_rfl))
  by_cases hMany : 5 ≤ n
  · have hMore : n ≤ k * n := Nat.le_mul_of_pos_left n hPos
    generalize k * n = m at hMore
    unfold corroborationBonus corroborationCap
      corroborationFirst corroborationExtra
    split_ifs
    all_goals omega
  · have hTwice : 2 * n ≤ k * n :=
      Nat.mul_le_mul_right n (by omega)
    by_cases hNone : n = 0
    · rw [hNone]
      simp
    · generalize k * n = m at hTwice
      unfold corroborationBonus corroborationCap
        corroborationFirst corroborationExtra
      split_ifs
      all_goals omega

theorem weightOf_cases
    (grade : Str) :
    weightOf grade = 100 ∨ weightOf grade = 92 ∨
      weightOf grade = 82 ∨ weightOf grade = 68 ∨
      weightOf grade = 50 ∨ weightOf grade = 40 := by
  unfold weightOf reliabilityWeight
  simp only [lookup]
  split_ifs
  all_goals simp

variable {F : Type} [Doubles F]

/- A product of a confidence and a weight that comes out
even. -/
theorem round_weighed
    {c w m : Int}
    (hC : 0 ≤ c ∧ c ≤ 100) (hW : 0 ≤ w ∧ w ≤ 100)
    (hEven : c * w = 100 * m) :
    Doubles.round
        (Doubles.mul (Doubles.ofInt c)
          (Doubles.ratio w 100) : F) = m := by
  have hOf : Doubles.val (Doubles.ofInt c : F) = c :=
    Doubles.ofInt_exact _ (by rw [abs_of_nonneg hC.1]; omega)
  have hRatio := Doubles.ratio_near (F := F) w 100
    (by rw [abs_of_nonneg hW.1]; omega) (by norm_num)
    (by norm_num)
  have hWReal : (0 : ℝ) ≤ w ∧ (w : ℝ) ≤ 100 := by
    exact_mod_cast hW
  have hCReal : (0 : ℝ) ≤ c ∧ (c : ℝ) ≤ 100 := by
    exact_mod_cast hC
  have hSize : |(w : ℝ) / (100 : Int)| ≤ 1 := by
    push_cast
    rw [abs_of_nonneg (by linarith [hWReal.1])]
    linarith [hWReal.2]
  have hClose := abs_le.mp (hRatio.le hSize)
  generalize (Doubles.ratio w 100 : F) = ratio at hClose ⊢
  push_cast at hClose
  have hProduct : |(c : ℝ) * Doubles.val ratio - m| ≤ 1 / 1000 := by
    have hExact : (c : ℝ) * w = 100 * m := by
      exact_mod_cast hEven
    have hSame : (m : ℝ) = c * (w / 100) := by linarith
    rw [hSame, ← mul_sub, abs_mul, abs_of_nonneg hCReal.1]
    have hDiff : |Doubles.val ratio - w / 100| ≤ 1 / 100000 := by
      rw [abs_le]
      constructor
      · linarith
      · linarith
    nlinarith [abs_nonneg (Doubles.val ratio - w / 100)]
  have hProducts := abs_le.mp hProduct
  have hM : (0 : ℝ) ≤ m ∧ (m : ℝ) ≤ 100 := by
    have hLow : 0 ≤ m := by nlinarith
    have hHigh : m ≤ 100 := by nlinarith
    exact_mod_cast And.intro hLow hHigh
  have hWhole : |Doubles.val (Doubles.ofInt c : F) *
      Doubles.val ratio| ≤ 101 := by
    rw [hOf, abs_le]
    constructor
    · linarith
    · linarith
  have hMul := abs_le.mp
    ((Doubles.mul_near (Doubles.ofInt c : F) ratio
      (by linarith)).le hWhole)
  rw [hOf] at hMul
  generalize
    (Doubles.mul (Doubles.ofInt c) ratio : F) = product
    at hMul ⊢
  have hRound := abs_le.mp (Doubles.round_near product)
  have hUpper : ((Doubles.round product : Int) : ℝ) <
      ((m + 1 : Int) : ℝ) := by
    push_cast
    linarith
  have hLower : ((m - 1 : Int) : ℝ) <
      ((Doubles.round product : Int) : ℝ) := by
    push_cast
    linarith
  have hInts : Doubles.round product < m + 1 ∧
      m - 1 < Doubles.round product := by
    exact ⟨by exact_mod_cast hUpper, by exact_mod_cast hLower⟩
  omega

/- An indicator that was never seen keeps its confidence. -/
theorem effective_none
    {rule : Intel.DecayRule}
    (hSound : rule.Sound) {confidence : Nat}
    (hConfidence : confidence ≤ 100) (now : Instant) :
    effectiveConfidence F confidence none now rule =
      confidence := by
  obtain ⟨later, hLater⟩ :
      ∃ later : Instant, later.micros = 86400000000 :=
    ⟨⟨_, by norm_num⟩, rfl⟩
  -- an instant that lies ahead gives the same age
  have hAge : (Intel.ageDays (some later) epoch : F) =
      Intel.ageDays none now := by
    have hDays := abs_le.mp (Intel.days_near (F := F)
      (by norm_num :
        |(-86400000000 : Int)| ≤ 316000000000000000))
    have hNot : ¬ Doubles.exceeds
        (Doubles.div
          (Doubles.ratio (-86400000000) 1000000)
          (Doubles.ofInt 86400) : F) 0 = true := by
      rw [Doubles.exceeds_iff]
      push_cast at hDays ⊢
      linarith
    unfold Intel.ageDays
    simp only [hLater, epoch, Int.zero_sub, hNot, if_false,
      Bool.false_eq_true]
  have hSame : effectiveConfidence F confidence none now rule =
      effectiveConfidence F confidence (some later) epoch
        rule := by
    unfold effectiveConfidence
    rw [hAge]
  have hExact :
      Intel.exactScore confidence (some later) epoch rule =
        confidence := by
    have hZero : Intel.exactAge (some later) epoch = 0 := by
      unfold Intel.exactAge
      simp only [hLater, epoch]
      norm_num
    unfold Intel.exactScore halved
    rw [hZero, zero_div, Real.rpow_zero, mul_one]
  rw [hSame]
  apply le_antisymm
  · apply effective_le hSound hConfidence
    rw [hExact]
    linarith
  · apply le_effective hSound hConfidence
    rw [hExact]
    linarith

end

---- Grades And Counts

section

/- The best of some grades is the least of them. -/
theorem bestGrade_spec
    (l : List Str) :
    (bestGrade l = none ↔ l = []) ∧
      ∀ g, bestGrade l = some g → g ∈ l ∧ ∀ h ∈ l, g ≤ h := by
  induction l with
  | nil => simp [bestGrade]
  | cons a rest ih =>
      rcases ih with ⟨hNone, hSome⟩
      rw [bestGrade]
      cases hRest : bestGrade rest with
      | none =>
          rw [hNone.mp hRest]
          simp
      | some b =>
          rcases hSome b hRest with ⟨hMem, hLeast⟩
          simp only
          split
          · rename_i hLess
            refine ⟨by simp, ?_⟩
            rintro g hG
            cases hG
            refine ⟨List.mem_cons_of_mem _ hMem, ?_⟩
            rw [List.forall_mem_cons]
            exact ⟨hLess.le, hLeast⟩
          · rename_i hNot
            refine ⟨by simp, ?_⟩
            rintro g hG
            cases hG
            refine ⟨List.mem_cons_self, ?_⟩
            rw [List.forall_mem_cons]
            exact ⟨le_rfl, fun h hH =>
              le_trans (not_lt.mp hNot) (hLeast h hH)⟩

theorem bestGrade_congr
    {l other : List Str}
    (hSame : ∀ g, g ∈ l ↔ g ∈ other) :
    bestGrade l = bestGrade other := by
  cases hL : bestGrade l with
  | none =>
      have hNil := (bestGrade_spec l).1.mp hL
      rw [hNil] at hSame
      have hOther : other = [] :=
        List.eq_nil_iff_forall_not_mem.mpr fun g hG =>
          List.not_mem_nil ((hSame g).mpr hG)
      rw [hOther]
      rfl
  | some g =>
      cases hOther : bestGrade other with
      | none =>
          have hNil := (bestGrade_spec other).1.mp hOther
          have hMem := ((bestGrade_spec l).2 g hL).1
          rw [hSame, hNil] at hMem
          cases hMem
      | some h =>
          have hFirst := (bestGrade_spec l).2 g hL
          have hSecond := (bestGrade_spec other).2 h hOther
          congr 1
          exact le_antisymm
            (hFirst.2 h ((hSame h).mpr hSecond.1))
            (hSecond.2 g ((hSame g).mp hFirst.1))

variable [Capitals]

/- Sources that count more than once have the same grade. -/
theorem pageGrade_repeated
    {k : Nat}
    (hPos : 0 < k) (sources : List Str) (grades : List (Str × Str))
    (source : Option Str) :
    pageGrade (List.replicate k sources).flatten grades source =
      pageGrade sources grades source := by
  unfold pageGrade
  simp only
  congr 1
  apply bestGrade_congr
  have hMem : ∀ s, s ∈ (List.replicate k sources).flatten ↔
      s ∈ sources := by
    intro s
    rw [List.mem_flatten]
    constructor
    · rintro ⟨l, hL, hS⟩
      rw [List.eq_of_mem_replicate hL] at hS
      exact hS
    · intro hS
      exact ⟨sources, List.mem_replicate.mpr ⟨by omega, rfl⟩, hS⟩
  intro g
  simp only [List.mem_map, List.mem_filter, List.mem_append,
    List.mem_filterMap, hMem]

omit [Capitals] in
theorem corrOf_count
    (observations : List Observation) (grades : List (Str × Str))
    (value : Str) :
    max 1 (corrOf observations grades value).1 =
      max 1 ((sourcesOf observations value).length : Int) := by
  have hLength : (sourcesOf observations value).length =
      (observations.filter fun o => o.value == value).length := by
    unfold sourcesOf
    rw [List.length_map, List.length_insertionSort]
  rw [hLength]
  unfold corrOf
  cases observations.filter fun o => o.value == value with
  | nil => rfl
  | cons o rest => rfl

theorem gradeWeight_cases
    (reliability : Str) :
    ∃ m, gradeWeight reliability = 2 * m ∧ 20 ≤ m ∧ m ≤ 50 := by
  have hCases := weightOf_cases (gradeLetter
    (orStr (some reliability) defaultReliability))
  refine ⟨gradeWeight reliability / 2, ?_⟩
  unfold gradeWeight
  omega

variable [Unicode]
variable {F : Type} [Doubles F]

/- The score of sources that count some times. -/
theorem scoreOf_repeated
    {k : Nat}
    (hPos : 0 < k) (now : Instant) (ioc : Ioc) (sources : List Str)
    (grades : List (Str × Str)) (shift : Int) :
    (scoreOf F now ioc (List.replicate k sources).flatten grades
        shift).score =
      cut (baseOf F now ioc
          (gradeWeight (pageGrade sources grades ioc.source)) +
        corroborationBonus
          (max 1 ((k * sources.length : Nat) : Int)) +
        sightingBonus ioc.localSightings + attribution ioc +
        shift) := by
  unfold scoreOf
  rw [score_eq, pageGrade_repeated hPos, List.length_flatten,
    List.map_replicate, List.sum_replicate, smul_eq_mul,
    ← max_assoc, max_self]

theorem scoreOf_once
    (now : Instant) (ioc : Ioc) (sources : List Str)
    (grades : List (Str × Str)) (shift : Int) :
    (scoreOf F now ioc sources grades shift).score =
      cut (baseOf F now ioc
          (gradeWeight (pageGrade sources grades ioc.source)) +
        corroborationBonus (max 1 (sources.length : Int)) +
        sightingBonus ioc.localSightings + attribution ioc +
        shift) := by
  have hOnce := scoreOf_repeated (F := F) Nat.one_pos now ioc
    sources grades shift
  simpa using hOnce

theorem passScore_eq
    [Normalizer]
    (now : Instant) (store : IntelStore) (ioc : Ioc) :
    passScore F now store ioc =
      cut (baseOf F now ioc
          (gradeWeight (passGrade store.observations store.grades
            ioc.value ioc.source)) +
        corroborationBonus
          (max 1 ((sourcesOf store.observations
            ioc.value).length : Int)) +
        sightingBonus ioc.localSightings + attribution ioc +
        defaultShift store.verdicts ioc.value) := by
  unfold passScore
  rw [score_eq, corrOf_count]

end

---- The Scores That Are Shown

open Intel (Instant IocLifecycle decayTarget)

section

variable [Unicode] [Normalizer] [Capitals]
variable {F : Type} [Doubles F]
variable {store : IntelStore}
variable {page matched : List Str}
variable {now : Instant}

/- How often the sources of a value count among some
values. -/
def timesIn (values : List Str) (value : Str) : Nat :=
  ((chunks importProbeChunk values).filter
    fun part => part.contains value).length

omit [Unicode] [Normalizer] [Capitals] in
theorem timesIn_pos
    {values : List Str} {value : Str}
    (hIn : value ∈ values) :
    0 < timesIn values value :=
  chunk_of_mem hIn

omit [Unicode] [Normalizer] [Capitals] in
theorem corroboration_times
    (observations : List Observation) (values : List Str)
    (value : Str) :
    (lookup value (corroboration observations values)).getD [] =
      (List.replicate (timesIn values value)
        (sourcesOf observations value)).flatten :=
  corroboration_eq observations values value

omit [Unicode] [Normalizer] [Capitals] in
/- The bonus counts the sources of a value once. -/
theorem countsOnce_iff
    {observations : List Observation} {values : List Str}
    {value : Str}
    (hIn : value ∈ values) :
    CountsOnce observations values value ↔
      corroborationBonus
          (max 1 ((timesIn values value *
            (sourcesOf observations value).length : Nat) : Int)) =
        corroborationBonus
          (max 1 ((sourcesOf observations value).length : Int)) := by
  rw [corroborationBonus_repeated (timesIn_pos hIn), CountsOnce,
    List.length_eq_zero_iff, timesIn]

/- A score with a bonus for the sources and a movement. -/
def scoreWith
    (F : Type)
    [Doubles F]
    (now : Instant)
    (store : IntelStore)
    (row : Ioc)
    (bonus shift : Int) : Int :=
  cut (baseOf F now row
      (gradeWeight (pageGrade
        (sourcesOf store.observations row.value) store.grades
        row.source)) +
    bonus + sightingBonus row.localSightings +
    attribution row + shift)

/- The list page weighs the sources once for each chunk of
its values. -/
theorem listItem_score
    {row : Ioc}
    (hPage : row.value ∈ page) :
    (listItem F now store
        (corroboration store.observations page)
        row).intelScore =
      scoreWith F now store row
        (corroborationBonus
          (max 1 ((timesIn page row.value *
            (sourcesOf store.observations
              row.value).length : Nat) : Int))) 0 := by
  unfold listItem scoreWith
  simp only
  rw [corroboration_times, scoreOf_repeated (timesIn_pos hPage)]

/- So does a bulk lookup. -/
theorem bulkAnswer_score
    {row : Ioc}
    (hSome : row.value ≠ []) (hMatched : row.value ∈ matched)
    (v : Str) :
    (bulkAnswer F now store.toIocStore
        (corroboration store.observations matched) v
        (some row)).intelScore =
      some (scoreWith F now store row
        (corroborationBonus
          (max 1 ((timesIn matched row.value *
            (sourcesOf store.observations
              row.value).length : Nat) : Int))) 0) := by
  unfold bulkAnswer scoreWith
  simp only [orStr_of_ne_nil hSome]
  rw [corroboration_times,
    scoreOf_repeated (timesIn_pos hMatched)]

theorem getIoc_score
    (row : Ioc) :
    (getIoc F now store row.orgId row).intelScore =
      scoreWith F now store row
        (corroborationBonus
          (max 1 ((sourcesOf store.observations
            row.value).length : Int)))
        (summaryShift store.verdicts row.value row.orgId) := by
  unfold getIoc scoreWith
  simp only
  rw [corroboration_single, scoreOf_once]

theorem iocLookup_score
    {row : Ioc} {s : IocStore} {v : Str} {answer : LookupAnswer}
    (hObservations : s.observations = store.observations)
    (hGrades : s.grades = store.grades)
    (hMatch : matchIndicator s.iocs (strip v) = .ok (some row))
    (hAnswer : iocLookup F now s v = .ok answer) :
    answer.intelScore =
      some (scoreWith F now store row
        (corroborationBonus
          (max 1 ((sourcesOf store.observations
            row.value).length : Int))) 0) := by
  unfold iocLookup at hAnswer
  simp only [hMatch, Except.map, Option.map_some,
    Option.getD_some, Except.ok.injEq] at hAnswer
  rw [← hAnswer]
  simp only
  rw [corroboration_single, scoreOf_once, hObservations, hGrades]
  rfl

/- What is shown of a row that a lookup of its value can
match. -/
theorem shownAs_iff
    {row : Ioc} {score : Int}
    (hStrip : strip row.value = row.value) (hSome : row.value ≠ [])
    (hHost : row.host = hostOf row.value row.type)
    (hPage : row.value ∈ page) (hMatched : row.value ∈ matched) :
    ShownAs F now store page matched row score ↔
      scoreWith F now store row
          (corroborationBonus
            (max 1 ((timesIn page row.value *
              (sourcesOf store.observations
                row.value).length : Nat) : Int))) 0 = score ∧
        scoreWith F now store row
          (corroborationBonus
            (max 1 ((sourcesOf store.observations
              row.value).length : Int))) 0 = score ∧
        scoreWith F now store row
          (corroborationBonus
            (max 1 ((timesIn matched row.value *
              (sourcesOf store.observations
                row.value).length : Nat) : Int))) 0 = score ∧
        scoreWith F now store row
          (corroborationBonus
            (max 1 ((sourcesOf store.observations
              row.value).length : Int)))
          (summaryShift store.verdicts row.value row.orgId) =
            score := by
  constructor
  · intro hShown
    have hAlone : ∃ s : IocStore,
        s.observations = store.observations ∧
          s.grades = store.grades ∧ s.iocs = [row] :=
      ⟨⟨[row], store.observations, store.grades,
        by simpa using hHost⟩, rfl, rfl, rfl⟩
    rcases hAlone with ⟨s, hObservations, hGrades, hRows⟩
    have hMatch : matchIndicator s.iocs (strip row.value) =
        .ok (some row) := by
      rw [hStrip, hRows]
      simp [matchIndicator, rowWith]
    have hFound : ∃ a, iocLookup F now s row.value = .ok a ∧
        a.found = true ∧ a.value = row.value :=
      iocLookup_found_iff.mpr ⟨row, hMatch, rfl⟩
    rcases hFound with ⟨answer, hAnswer, _⟩
    have hFirst := hShown.looked s row.value answer
      hObservations hGrades hMatch hAnswer
    rw [iocLookup_score hObservations hGrades hMatch hAnswer,
      Option.some.injEq] at hFirst
    have hSecond := hShown.bulk []
    rw [bulkAnswer_score hSome hMatched, Option.some.injEq]
      at hSecond
    have hThird := hShown.listed
    have hFourth := hShown.detail
    rw [listItem_score hPage] at hThird
    rw [getIoc_score] at hFourth
    exact ⟨hThird, hFirst, hSecond, hFourth⟩
  · rintro ⟨hThird, hFirst, hSecond, hFourth⟩
    refine ⟨by rw [listItem_score hPage, hThird], ?_, ?_,
      by rw [getIoc_score, hFourth]⟩
    · intro s v answer hObservations hGrades hMatch hAnswer
      rw [iocLookup_score hObservations hGrades hMatch hAnswer,
        hFirst]
    · intro v
      rw [bulkAnswer_score hSome hMatched, hSecond]

end

---- When There Is One Score

section

variable [Unicode] [Normalizer] [Capitals]
variable {F : Type} [Doubles F]
variable {store : IntelStore}
variable {page matched : List Str}

/- An indicator that was never seen. -/
def unseenIoc
    (key : Scored)
    (confidence : Nat)
    (sightings : Int) : Ioc where
  id := []
  type := []
  value := key.value
  threatType := none
  confidence := confidence
  severity := none
  source := key.source
  actor := none
  firstSeen := none
  lastSeen := none
  tags := []
  status := lit "active"
  sightings := sightings
  host := hostOf key.value []
  reportId := none
  malwareFamily := none
  orgId := key.orgId
  intelScore := 0

omit [Normalizer] [Capitals] in
theorem baseOf_unseen
    {ioc : Ioc} {w m : Int}
    (hUnseen : ioc.lastSeen = none)
    (hConfidence : ioc.confidence ≤ 100) (hW : 0 ≤ w ∧ w ≤ 100)
    (hEven : (ioc.confidence : Int) * w = 100 * m) (now : Instant) :
    baseOf F now ioc w = m := by
  unfold baseOf
  rw [hUnseen, effective_none (builtin_bounded ioc.type).sound
    hConfidence]
  exact round_weighed ⟨by omega, by omega⟩ hW hEven

/- The score of one that was seen here once and has no
confidence, under any grade. -/
theorem score_sighted
    (key : Scored) (reliability : Str) (bonus shift : Int) :
    cut (baseOf F epoch (unseenIoc key 0 2)
          (gradeWeight reliability) +
        bonus + sightingBonus (unseenIoc key 0 2).localSightings +
        attribution (unseenIoc key 0 2) + shift) =
      cut (bonus + 32 + shift) := by
  rcases gradeWeight_cases reliability with ⟨m, hM, hLow, hHigh⟩
  have hBase : baseOf F epoch (unseenIoc key 0 2)
      (gradeWeight reliability) = 0 :=
    baseOf_unseen rfl (Nat.zero_le _) (by omega)
      (by simp [unseenIoc]) epoch
  have hSighting :
      sightingBonus (unseenIoc key 0 2).localSightings = 32 := by
    simp [unseenIoc, Ioc.localSightings, sightingBonus,
      sightingFirst, sightingExtra, sightingCap,
      corroborationCap]
  have hAttribution : attribution (unseenIoc key 0 2) = 0 := by
    simp [attribution, unseenIoc, filled, strip, stripBy]
  rw [hBase, hSighting, hAttribution]
  congr 1
  ring

/- That of one with half of the confidence. -/
theorem score_half
    (key : Scored) (reliability : Str) (bonus shift : Int) :
    cut (baseOf F epoch (unseenIoc key 50 1)
          (gradeWeight reliability) +
        bonus +
        sightingBonus (unseenIoc key 50 1).localSightings +
        attribution (unseenIoc key 50 1) + shift) =
      cut (gradeWeight reliability / 2 + bonus + shift) := by
  rcases gradeWeight_cases reliability with ⟨m, hM, hLow, hHigh⟩
  have hBase : baseOf F epoch (unseenIoc key 50 1)
      (gradeWeight reliability) = gradeWeight reliability / 2 :=
    baseOf_unseen rfl (by simp [unseenIoc]) (by omega)
      (by simp only [unseenIoc]; omega) epoch
  have hSighting :
      sightingBonus (unseenIoc key 50 1).localSightings = 0 := by
    simp [unseenIoc, Ioc.localSightings, sightingBonus]
  have hAttribution : attribution (unseenIoc key 50 1) = 0 := by
    simp [attribution, unseenIoc, filled, strip, stripBy]
  rw [hBase, hSighting, hAttribution]
  congr 1
  ring

/- The pass does not fail at an indicator that was never
seen. -/
theorem decayIoc_unseen
    (key : Scored) (confidence : Nat) (sightings : Int)
    (now : Instant) :
    ∃ after, decayIoc F now store
      (unseenIoc key confidence sightings) = .ok after := by
  have hOther :
      (unseenIoc key confidence sightings).status ≠ knownGood :=
    active_ne_knownGood
  unfold decayIoc
  rw [if_neg hOther]
  exact ⟨_, rfl⟩

/- It changes the status and the score alone. -/
theorem decayIoc_score
    {now : Instant} {ioc after : Ioc}
    (hOther : ioc.status ≠ knownGood)
    (hAfter : decayIoc F now store ioc = .ok after) :
    ∃ status, after =
      { ioc with
        status := status
        intelScore := passScore F now store ioc } := by
  unfold decayIoc at hAfter
  rw [if_neg hOther] at hAfter
  simp only at hAfter
  split at hAfter
  · cases hAfter
  · cases hAfter
    exact ⟨_, rfl⟩

omit [Unicode] [Normalizer] [Capitals] in
theorem shiftOf_bounds
    (verdicts : List VerdictRow) (value org : Str) :
    -40 ≤ shiftOf verdicts value org ∧
      shiftOf verdicts value org ≤ 40 := by
  unfold shiftOf maxShift
  simp only
  omega

omit [Unicode] [Normalizer] [Capitals] in
/- Bonuses that come to the same score without a movement and
with one. -/
theorem bonus_eq_of_cut
    {bonus other shift : Int}
    (hBonus : 0 ≤ bonus ∧ bonus ≤ 26)
    (hOther : 0 ≤ other ∧ other ≤ 26)
    (hShift : -40 ≤ shift ∧ shift ≤ 40)
    (hNone : cut (bonus + 32 + 0) = cut (bonus + 32 + shift))
    (hSame : cut (other + 32 + 0) = cut (bonus + 32 + shift)) :
    shift = 0 ∧ other = bonus := by
  unfold cut at hNone hSame
  omega

/- The bonus of the sources of a value among some values. -/
def bonusIn
    (store : IntelStore)
    (values : List Str)
    (value : Str) : Int :=
  corroborationBonus
    (max 1 ((timesIn values value *
      (sourcesOf store.observations value).length : Nat) : Int))

/- The bonus of the sources of a value. -/
def bonusOnce (store : IntelStore) (value : Str) : Int :=
  corroborationBonus
    (max 1 ((sourcesOf store.observations value).length : Int))

theorem oneScore_mp
    {key : Scored}
    (hStrip : strip key.value = key.value) (hSome : key.value ≠ [])
    (hPage : key.value ∈ page) (hMatched : key.value ∈ matched)
    (hAll : OneScore F store page matched key) :
    ScoreSafe store page matched key := by
  have hOnce := corroborationBonus_bounds
    (max 1 ((sourcesOf store.observations
      key.value).length : Int))
  have hPaged := corroborationBonus_bounds
    (max 1 ((timesIn page key.value *
      (sourcesOf store.observations
        key.value).length : Nat) : Int))
  have hBulked := corroborationBonus_bounds
    (max 1 ((timesIn matched key.value *
      (sourcesOf store.observations
        key.value).length : Nat) : Int))
  have hDefault := shiftOf_bounds store.verdicts key.value
    (lit "org-default")
  have hOwn := shiftOf_bounds store.verdicts (strip key.value)
    (orStr (some key.orgId) (lit "org-default"))
  have hTest : ∀ (c : Nat) (n : Int), c ≤ 100 →
      let row := unseenIoc key c n
      let score := passScore F epoch store row
      scoreWith F epoch store row
          (bonusIn store page key.value) 0 = score ∧
        scoreWith F epoch store row
          (bonusOnce store key.value) 0 = score ∧
        scoreWith F epoch store row
          (bonusIn store matched key.value) 0 = score ∧
        scoreWith F epoch store row
          (bonusOnce store key.value)
          (summaryShift store.verdicts key.value key.orgId) =
            score := by
    intro c n hC
    have hPass : ∃ after, decayIoc F epoch store
        (unseenIoc key c n) = .ok after :=
      decayIoc_unseen key c n epoch
    rcases hPass with ⟨after, hAfter⟩
    have hShown := hAll (unseenIoc key c n) after epoch
      ⟨rfl, rfl, rfl, rfl⟩ active_ne_knownGood hC hAfter
    rcases decayIoc_score active_ne_knownGood hAfter with
      ⟨status, rfl⟩
    have hScores := fun hS hN hH hP hM =>
      (shownAs_iff hS hN hH hP hM).mp hShown
    exact hScores hStrip hSome rfl hPage hMatched
  -- one that was sighted shows the movements and the bonuses
  rcases hTest 0 2 (Nat.zero_le _) with
    ⟨hListed, hLooked, hBulk, hDetail⟩
  rw [passScore_eq] at hListed hLooked hBulk hDetail
  unfold scoreWith at hListed hLooked hBulk hDetail
  simp only [score_sighted] at hListed hLooked hBulk hDetail
  -- one with half of the confidence the grades
  have hHalf := (hTest 50 1 (by norm_num)).2.1
  rw [passScore_eq] at hHalf
  unfold scoreWith at hHalf
  simp only [score_half] at hHalf
  have hValue : (unseenIoc key 0 2).value = key.value := rfl
  have hValueHalf : (unseenIoc key 50 1).value = key.value := rfl
  have hSource : (unseenIoc key 50 1).source = key.source := rfl
  simp only [hValue] at hListed hLooked hBulk hDetail
  simp only [hValueHalf, hSource] at hHalf
  unfold bonusIn at hListed hBulk
  unfold bonusOnce at hLooked hDetail hHalf
  unfold summaryShift at hDetail
  unfold defaultShift at hListed hLooked hBulk hDetail hHalf
  have hPass := bonus_eq_of_cut hOnce hPaged hDefault hLooked
    hListed
  have hMatch := bonus_eq_of_cut hOnce hBulked hDefault hLooked
    hBulk
  refine ⟨?_, hPass.1, ?_, ?_, ?_⟩
  · rcases gradeWeight_cases (passGrade store.observations
      store.grades key.value key.source) with ⟨m, hM, _, _⟩
    rcases gradeWeight_cases (pageGrade
      (sourcesOf store.observations key.value) store.grades
      key.source) with ⟨n, hN, _, _⟩
    rw [hPass.1] at hHalf
    unfold cut at hHalf
    omega
  · unfold summaryShift
    rw [hPass.1] at hDetail
    unfold cut at hDetail
    omega
  · exact (countsOnce_iff hPage).mpr hPass.2
  · exact (countsOnce_iff hMatched).mpr hMatch.2

/- A row is shown with one score where its sources count once
and no conclusions move it. -/
theorem shownAs_of_once
    {now : Instant} {row : Ioc} {score : Int}
    (hStrip : strip row.value = row.value) (hSome : row.value ≠ [])
    (hHost : row.host = hostOf row.value row.type)
    (hPage : row.value ∈ page) (hMatched : row.value ∈ matched)
    (hPageOnce : CountsOnce store.observations page row.value)
    (hMatchedOnce :
      CountsOnce store.observations matched row.value)
    (hShift : summaryShift store.verdicts row.value row.orgId = 0)
    (hScore :
      scoreWith F now store row
        (bonusOnce store row.value) 0 = score) :
    ShownAs F now store page matched row score := by
  have hPaged := (countsOnce_iff hPage).mp hPageOnce
  have hBulked := (countsOnce_iff hMatched).mp hMatchedOnce
  unfold bonusOnce at hScore
  rw [shownAs_iff hStrip hSome hHost hPage hMatched, hPaged,
    hBulked, hShift]
  exact ⟨hScore, hScore, hScore, hScore⟩

theorem oneScore_mpr
    {key : Scored}
    (hStrip : strip key.value = key.value) (hSome : key.value ≠ [])
    (hPage : key.value ∈ page) (hMatched : key.value ∈ matched)
    (hSafe : ScoreSafe store page matched key) :
    OneScore F store page matched key := by
  intro ioc after now hIs hOther _ hAfter
  rcases decayIoc_score hOther hAfter with ⟨status, rfl⟩
  rcases key with ⟨value, source, orgId⟩
  rcases hIs with ⟨rfl, rfl, rfl, hHost⟩
  refine shownAs_of_once hStrip hSome hHost hPage hMatched
    hSafe.page hSafe.matched hSafe.own ?_
  simp only
  rw [passScore_eq, hSafe.grade, hSafe.pass]
  rfl

/- What a recorded conclusion leaves. -/
theorem recordVerdict_ok
    {now : Instant} {org verdict : Str} {ioc : Ioc}
    {verdicts : List VerdictRow} {score : Int}
    (hRecord :
      recordVerdict F now store org verdict ioc =
        .ok (verdicts, score)) :
    (lookup (Unicode.lower (strip verdict))
        verdictWeight).isSome = true ∧
      verdicts = store.verdicts ++
        [⟨strip ioc.value, orStr (some org) (lit "org-default"),
          Unicode.lower (strip verdict)⟩] ∧
      score = scoreWith F now store ioc
        (bonusOnce store ioc.value)
        (summaryShift verdicts ioc.value org) := by
  unfold recordVerdict at hRecord
  simp only at hRecord
  split at hRecord
  · cases hRecord
  · rename_i hValid
    split at hRecord
    · cases hRecord
    · rw [Except.ok.injEq, Prod.mk.injEq] at hRecord
      rcases hRecord with ⟨rfl, rfl⟩
      rw [Bool.not_eq_true, Option.isNone_eq_false_iff] at hValid
      refine ⟨hValid, rfl, ?_⟩
      rw [corroboration_single, scoreOf_once]
      rfl

theorem recordsOneScore_mpr
    {verdict : Str} {key : Scored}
    (hStrip : strip key.value = key.value) (hSome : key.value ≠ [])
    (hPage : key.value ∈ page) (hMatched : key.value ∈ matched)
    (hSafe : RecordSafe store page matched verdict key) :
    RecordsOneScore F store page matched verdict key := by
  intro ioc now verdicts score hIs _ hRecord
  rcases key with ⟨value, source, orgId⟩
  rcases hIs with ⟨rfl, rfl, rfl, hHost⟩
  rcases recordVerdict_ok hRecord with ⟨hValid, rfl, hScore⟩
  rcases hSafe hValid with ⟨hShift, hPageOnce, hMatchedOnce⟩
  refine shownAs_of_once hStrip hSome hHost hPage hMatched
    hPageOnce hMatchedOnce hShift ?_
  rw [hScore, hShift]
  rfl

theorem recordsOneScore_mp
    {verdict : Str} {key : Scored}
    (hStrip : strip key.value = key.value) (hSome : key.value ≠ [])
    (hPage : key.value ∈ page) (hMatched : key.value ∈ matched)
    (hAll : RecordsOneScore F store page matched verdict key) :
    RecordSafe store page matched verdict key := by
  intro hValid
  have hOnce := corroborationBonus_bounds
    (max 1 ((sourcesOf store.observations
      key.value).length : Int))
  have hPaged := corroborationBonus_bounds
    (max 1 ((timesIn page key.value *
      (sourcesOf store.observations
        key.value).length : Nat) : Int))
  have hBulked := corroborationBonus_bounds
    (max 1 ((timesIn matched key.value *
      (sourcesOf store.observations
        key.value).length : Nat) : Int))
  obtain ⟨verdicts, score, hRecord⟩ :
      ∃ verdicts score, recordVerdict F epoch store key.orgId
        verdict (unseenIoc key 0 2) = .ok (verdicts, score) := by
    have hValue : strip (unseenIoc key 0 2).value ≠ [] := by
      rw [show (unseenIoc key 0 2).value = key.value from rfl,
        hStrip]
      exact hSome
    have hKnown : (lookup (Unicode.lower (strip verdict))
        verdictWeight).isNone = false := by
      rw [← Option.not_isSome, hValid]
      rfl
    unfold recordVerdict
    simp only [hKnown, hValue, Bool.false_eq_true, if_false]
    exact ⟨_, _, rfl⟩
  have hShown := hAll (unseenIoc key 0 2) epoch verdicts score
    ⟨rfl, rfl, rfl, rfl⟩ (Nat.zero_le _) hRecord
  rcases recordVerdict_ok hRecord with ⟨_, rfl, hScore⟩
  have hScores := fun hS hN hH hP hM =>
    (shownAs_iff hS hN hH hP hM).mp hShown
  -- one that was sighted shows the movement and the bonuses
  have hAt : ∀ bonus, scoreWith F epoch store
      (unseenIoc key 0 2) bonus 0 = cut (bonus + 32 + 0) :=
    fun bonus => score_sighted key _ bonus 0
  have hMoved : score = cut (bonusOnce store key.value + 32 +
      summaryShift
        (store.verdicts ++
          [⟨strip key.value,
            orStr (some key.orgId) (lit "org-default"),
            Unicode.lower (strip verdict)⟩])
        key.value key.orgId) := by
    rw [hScore]
    exact score_sighted key _ _ _
  have hListed : scoreWith F epoch store (unseenIoc key 0 2)
      (bonusIn store page key.value) 0 = score :=
    (hScores hStrip hSome rfl hPage hMatched).1
  have hLooked : scoreWith F epoch store (unseenIoc key 0 2)
      (bonusOnce store key.value) 0 = score :=
    (hScores hStrip hSome rfl hPage hMatched).2.1
  have hBulk : scoreWith F epoch store (unseenIoc key 0 2)
      (bonusIn store matched key.value) 0 = score :=
    (hScores hStrip hSome rfl hPage hMatched).2.2.1
  rw [hAt, hMoved] at hListed hLooked hBulk
  have hShift := shiftOf_bounds
    (store.verdicts ++
      [⟨strip key.value,
        orStr (some key.orgId) (lit "org-default"),
        Unicode.lower (strip verdict)⟩])
    (strip key.value) (orStr (some key.orgId) (lit "org-default"))
  have hPass := bonus_eq_of_cut hOnce hPaged hShift hLooked hListed
  have hMatch := bonus_eq_of_cut hOnce hBulked hShift hLooked hBulk
  exact ⟨hPass.1, (countsOnce_iff hPage).mpr hPass.2,
    (countsOnce_iff hMatched).mpr hMatch.2⟩

/- The pass stores the score that is shown exactly when it
grades the sources as heavily as the pages, no conclusions
move the score, and the sources count once; and a recorded
conclusion exactly when, with it, the conclusions of the
workspace do not move the score and the sources count once. -/
theorem one_score_iff
    (F : Type)
    [Doubles F]
    (store : IntelStore)
    (verdict : Str)
    {key : Scored}
    (hStrip : strip key.value = key.value)
    (hSome : key.value ≠ [])
    (hPage : key.value ∈ page)
    (hMatched : key.value ∈ matched) :
    (OneScore F store page matched key ↔
        ScoreSafe store page matched key) ∧
      (RecordsOneScore F store page matched verdict key ↔
        RecordSafe store page matched verdict key) :=
  ⟨⟨oneScore_mp hStrip hSome hPage hMatched,
      oneScore_mpr hStrip hSome hPage hMatched⟩,
    recordsOneScore_mp hStrip hSome hPage hMatched,
    recordsOneScore_mpr hStrip hSome hPage hMatched⟩

end

---- Concrete Scores

local instance scoresUnicode : Unicode := asciiTables

local instance scoresCapitals : Capitals := asciiCapitals

local instance scoresNormalizer : Normalizer := ⟨id⟩

attribute [local instance] exactDoubles

/- A store in which a workspace has reached some
conclusions. -/
def concludedStore (verdicts : List VerdictRow) :
    IntelStore where
  iocs := []
  observations := []
  grades := []
  host_eq := by simp
  verdicts := verdicts
  rules := []

def concludedKey : Scored where
  value := lit "a.b"
  source := none
  orgId := lit "org-a"

/- With no conclusion, the pass stores the score that is
shown; after a first one, what is stored is not. -/
theorem none_concluded :
    OneScore ℝ (concludedStore []) [lit "a.b"] [lit "a.b"]
        concludedKey ∧
      ¬ RecordsOneScore ℝ (concludedStore []) [lit "a.b"]
        [lit "a.b"] (lit "confirmed") concludedKey := by
  have hIff :
      (OneScore ℝ (concludedStore []) [lit "a.b"] [lit "a.b"]
            concludedKey ↔
          ScoreSafe (concludedStore []) [lit "a.b"] [lit "a.b"]
            concludedKey) ∧
        (RecordsOneScore ℝ (concludedStore []) [lit "a.b"]
            [lit "a.b"] (lit "confirmed") concludedKey ↔
          RecordSafe (concludedStore []) [lit "a.b"]
            [lit "a.b"] (lit "confirmed") concludedKey) :=
    one_score_iff ℝ (concludedStore []) (lit "confirmed")
      (by decide) (by decide) (by decide) (by decide)
  constructor
  · exact hIff.1.mpr
      ⟨by decide, by decide, by decide, .inl rfl, .inl rfl⟩
  · intro hRecords
    have hZero := (hIff.2.mp hRecords (by decide)).1
    revert hZero
    decide

/- With a conclusion in the default workspace, the pass stores
a score that is not shown. -/
theorem concluded_score_differs :
    ¬ OneScore ℝ
      (concludedStore
        [⟨lit "a.b", lit "org-default", lit "confirmed"⟩])
      [lit "a.b"] [lit "a.b"] concludedKey := by
  intro hAll
  have hZero := (oneScore_mp (by decide) (by decide) (by decide)
    (by decide) hAll).pass
  revert hZero
  decide

end ThreatOrbit.Cti
