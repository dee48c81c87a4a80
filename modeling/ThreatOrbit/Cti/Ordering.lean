import ThreatOrbit.Cti.Scores
import ThreatOrbit.Lib.Rounding

/-
  What orders the scores of indicators.

  A row is read with the integers that its columns can hold.
  The parts of its score add up to it, it is on the scale,
  and more confidence, sources, sightings or credit from the
  analysts, or a better grade, never lower it.
-/

---- Rows As They Are Stored

namespace ThreatOrbit.Cti

open Lib

open Intel (Instant effectiveConfidence)

section

/- The columns of `iocs` that `score_indicator` reads. A
column without a value is `none`; `lastSeen` is as `_parse`
reads it. -/
structure Indicator where
  type : Option Str
  confidence : Option Int64
  lastSeen : Option Instant
  reportId : Option Str
  actor : Option Str
  malwareFamily : Option Str

/- `ioc.get("confidence") or 0`. -/
def Indicator.claimed (row : Indicator) : Int :=
  (row.confidence.map Int64.toInt).getD 0

def Indicator.attribution (row : Indicator) : Int :=
  if filled row.reportId || filled row.actor then
    attributionBonus
  else if strip (row.malwareFamily.getD []) != [] then
    familyBonus
  else 0

/- `effective_confidence` of any integer. -/
def effectiveOf
    (F : Type)
    [Doubles F]
    (confidence : Int)
    (lastSeen : Option Instant)
    (now : Instant)
    (rule : Intel.DecayRule) : Int :=
  let age : F := Intel.ageDays lastSeen now
  let factor : F :=
    if 0 < rule.halfLife then
      Doubles.halfPow
        (Doubles.div age (Doubles.ofInt rule.halfLife))
    else Doubles.ofInt 1
  max 0 (Doubles.round
    (Doubles.mul (Doubles.ofInt confidence) factor))

theorem effectiveOf_natCast
    (F : Type) [Doubles F] (confidence : Nat)
    (lastSeen : Option Instant) (now : Instant)
    (rule : Intel.DecayRule) :
    effectiveOf F confidence lastSeen now rule =
      effectiveConfidence F confidence lastSeen now rule :=
  rfl

variable [Unicode]

/- The claim of a row, aged without a rule. -/
def agedClaim
    (F : Type)
    [Doubles F]
    (now : Instant)
    (row : Indicator) : Int :=
  effectiveOf F row.claimed row.lastSeen now
    (builtinRule (row.type.getD []))

variable [Capitals]

/- `score_indicator`. -/
def scoreRow
    (F : Type)
    [Doubles F]
    (now : Instant)
    (row : Indicator)
    (sourceCount : Int)
    (reliability : Str)
    (localSightings verdictShift : Int) : Score :=
  let grade := gradeLetter
    (orStr (some reliability) defaultReliability)
  let weight := weightOf grade
  let aged := agedClaim F now row
  let base := Doubles.round
    (Doubles.mul (Doubles.ofInt aged)
      (Doubles.ratio weight 100) : F)
  let corroboration := corroborationBonus (max 1 sourceCount)
  let sighting := sightingBonus localSightings
  let raw := base + corroboration + sighting +
    row.attribution + verdictShift
  let total := max 0 (min 100 raw)
  { score := total
    band := bandFor total
    components :=
      ⟨lit "Source claim, aged", base⟩ ::
        (component "Corroboration" corroboration ++
          component "Seen in your environment" sighting ++
          component "Attributed" row.attribution ++
          component "Analyst conclusion" verdictShift ++
          component
            (if total < raw then "Capped" else "Floored")
            (total - raw))
    sourceCount := sourceCount
    reliability := grade }

/- A row of the store whose confidence is not negative. -/
def Ioc.indicator (ioc : Ioc) (confidence : Int64) : Indicator where
  type := some ioc.type
  confidence := some confidence
  lastSeen := ioc.lastSeen
  reportId := ioc.reportId
  actor := ioc.actor
  malwareFamily := ioc.malwareFamily

theorem scoreRow_ioc
    (F : Type) [Doubles F] (now : Instant) (ioc : Ioc)
    {confidence : Int64}
    (hSame : confidence.toInt = ioc.confidence) (sourceCount : Int)
    (reliability : Str) (localSightings verdictShift : Int) :
    scoreRow F now (ioc.indicator confidence) sourceCount
        reliability localSightings verdictShift =
      scoreIndicator F now ioc sourceCount reliability
        localSightings verdictShift := by
  have hAged : agedClaim F now (ioc.indicator confidence) =
      effectiveConfidence F ioc.confidence ioc.lastSeen now
        (builtinRule ioc.type) := by
    unfold agedClaim Indicator.claimed Ioc.indicator
    simp only [Option.map_some, Option.getD_some, hSame,
      effectiveOf_natCast]
  unfold scoreRow scoreIndicator
  rw [hAged]
  rfl

/- The parts of the score of a row add up to it. -/
theorem rowComponents_sum
    (F : Type) [Doubles F] (now : Instant) (row : Indicator)
    (sourceCount : Int) (reliability : Str)
    (localSightings verdictShift : Int) :
    ((scoreRow F now row sourceCount reliability localSightings
        verdictShift).components.map Component.delta).sum =
      (scoreRow F now row sourceCount reliability localSightings
        verdictShift).score := by
  simp only [scoreRow, List.map_cons, List.map_append,
    List.sum_cons, List.sum_append, component_sum]
  ring

end

---- The Order Of The Parts

open Intel (Instant)

section

/- More sources never lower the bonus, -/
theorem corroborationBonus_mono
    {m n : Int}
    (hLe : m ≤ n) :
    corroborationBonus m ≤ corroborationBonus n := by
  unfold corroborationBonus corroborationCap corroborationFirst
    corroborationExtra
  split
  · split
    · omega
    · omega
  · split
    · omega
    · omega

/- nor do more sightings. -/
theorem sightingBonus_mono
    {m n : Int}
    (hLe : m ≤ n) :
    sightingBonus m ≤ sightingBonus n := by
  unfold sightingBonus sightingCap sightingFirst sightingExtra
    corroborationCap
  split
  · split
    · omega
    · omega
  · split
    · omega
    · omega

theorem cut_mono
    {m n : Int}
    (hLe : m ≤ n) :
    cut m ≤ cut n := by
  unfold cut
  omega

theorem cut_range (n : Int) : 0 ≤ cut n ∧ cut n ≤ 100 := by
  unfold cut
  omega

/- The grades from A to F, the best first. -/
def gradeLetters : List Str :=
  reliabilityWeight.map Prod.fst

/- A better grade weighs no less. -/
theorem weightOf_mono
    {g better : Str}
    (hG : g ∈ gradeLetters) (hBetter : better ∈ gradeLetters)
    (hLe : better ≤ g) :
    weightOf g ≤ weightOf better := by
  have hAll :
      ∀ g ∈ gradeLetters, ∀ better ∈ gradeLetters,
        better ≤ g → weightOf g ≤ weightOf better := by
    decide
  exact hAll g hG better hBetter hLe

theorem weightOf_range (g : Str) :
    40 ≤ weightOf g ∧ weightOf g ≤ 100 := by
  have hCases := weightOf_cases g
  omega

variable {F : Type} [RoundedDoubles F]

/- The half-lives that have passed are not far below zero. -/
theorem halvings_ge
    {rule : Intel.DecayRule}
    (hSound : rule.Sound) (lastSeen : Option Instant)
    (now : Instant) :
    -1 ≤ Doubles.val
      (Doubles.div (Intel.ageDays lastSeen now : F)
        (Doubles.ofInt rule.halfLifeDays)) := by
  cases lastSeen with
  | some seen =>
      have hNear := abs_le.mp
        (Intel.halvings_near (F := F) hSound seen now)
      have hNonneg :
          0 ≤ Intel.exactAge (some seen) now /
            rule.halfLifeDays :=
        div_nonneg (Intel.exactAge_nonneg seen now)
          (Nat.cast_nonneg _)
      linarith
  | none =>
      have hZero : Doubles.val (Doubles.ofInt 0 : F) = 0 := by
        rw [Doubles.ofInt_exact _ (by norm_num), Int.cast_zero]
      have hHalf := abs_le.mp
        (Intel.halfLife_near (F := F) hSound)
      have hOne := hSound.one_le_half
      have hSmall : (rule.halfLifeDays : ℝ) / 2 ^ 45 ≤
          rule.halfLifeDays / 2 := by
        gcongr
        norm_num
      have hDiv := Doubles.div_near
        (Doubles.ofInt 0 : F) (Doubles.ofInt rule.halfLifeDays)
        (by rw [hZero]; norm_num) (by linarith)
      unfold Near at hDiv
      rw [hZero, zero_div] at hDiv
      have hBounds := abs_le.mp hDiv
      unfold Intel.ageDays
      norm_num at hBounds ⊢
      linarith

theorem claimed_le (row : Indicator) :
    |(row.claimed : ℝ)| ≤ 2 ^ 63 := by
  have hInt : |row.claimed| ≤ 2 ^ 63 := by
    unfold Indicator.claimed
    cases row.confidence with
    | none => norm_num
    | some c =>
        have hLow := c.le_toInt
        have hHigh := c.toInt_lt
        rw [Option.map_some, Option.getD_some, abs_le]
        omega
  exact_mod_cast hInt

/- What a claim is multiplied with for its age. -/
def ageFactor
    (F : Type)
    [Doubles F]
    (now : Instant)
    (rule : Intel.DecayRule)
    (lastSeen : Option Instant) : F :=
  Doubles.halfPow
    (Doubles.div (Intel.ageDays lastSeen now)
      (Doubles.ofInt rule.halfLifeDays))

theorem ageFactor_range
    {rule : Intel.DecayRule}
    (hSound : rule.Sound) (lastSeen : Option Instant)
    (now : Instant) :
    0 ≤ Doubles.val (ageFactor F now rule lastSeen) ∧
      Doubles.val (ageFactor F now rule lastSeen) ≤ 3 := by
  have hGe := halvings_ge (F := F) hSound lastSeen now
  exact ⟨RoundedDoubles.halfPow_nonneg _ hGe,
    RoundedDoubles.halfPow_le hGe⟩

theorem agedClaim_eq
    [Unicode]
    (now : Instant) (row : Indicator) :
    agedClaim F now row =
      max 0 (Doubles.round
        (Doubles.mul (Doubles.ofInt row.claimed)
          (ageFactor F now (builtinRule (row.type.getD []))
            row.lastSeen))) := by
  have hSound := (builtin_bounded (row.type.getD [])).sound
  have hPos : 0 < (builtinRule (row.type.getD [])).halfLifeDays :=
    hSound.half_pos
  unfold agedClaim effectiveOf ageFactor
  dsimp only
  rw [hSound.halfLife_eq, if_pos hPos]

/- A claim is far from overflow, aged or not. -/
theorem claim_product_le
    {rule : Intel.DecayRule}
    (hSound : rule.Sound) (now : Instant) (row : Indicator) :
    |Doubles.val (Doubles.ofInt row.claimed : F) *
        Doubles.val (ageFactor F now rule row.lastSeen)| ≤
      2 ^ 67 := by
  have hClaim := RoundedDoubles.ofInt_abs_le (F := F)
    (claimed_le row) (by norm_num)
  have hFactor :=
    ageFactor_range (F := F) hSound row.lastSeen now
  rw [abs_mul, abs_of_nonneg hFactor.1]
  have hLe := mul_le_mul hClaim hFactor.2 hFactor.1
    (by norm_num)
  apply hLe.trans
  norm_num

theorem agedClaim_range
    [Unicode]
    (now : Instant) (row : Indicator) :
    0 ≤ agedClaim F now row ∧
      (agedClaim F now row : ℝ) ≤ 2 ^ 70 := by
  have hSound := (builtin_bounded (row.type.getD [])).sound
  have hProduct := claim_product_le (F := F) hSound now row
  rw [agedClaim_eq]
  refine ⟨le_max_left _ _, ?_⟩
  generalize hFactor :
    ageFactor F now (builtinRule (row.type.getD [])) row.lastSeen
      = factor at hProduct ⊢
  have hValue := RoundedDoubles.mul_nearest
    (Doubles.ofInt row.claimed) factor
    (hProduct.trans (by norm_num))
  have hNearest := abs_le.mp
    (RoundedDoubles.abs_nearest_le (F := F) hProduct
      (by norm_num))
  have hRound := abs_le.mp (Doubles.round_near
    (Doubles.mul (Doubles.ofInt row.claimed) factor))
  rw [Int.cast_max, Int.cast_zero]
  apply max_le
  · norm_num
  · rw [hValue] at hRound
    have hUpper := hRound.2
    have hLimit := hNearest.2
    norm_num at hLimit ⊢
    linarith

/- A higher claim never ages to less. -/
theorem agedClaim_mono
    [Unicode]
    (now : Instant) (row : Indicator) {confidence : Option Int64}
    (hLe :
      row.claimed ≤
        ({ row with confidence := confidence } : Indicator).claimed) :
    agedClaim F now row ≤
      agedClaim F now { row with confidence := confidence } := by
  have hSound := (builtin_bounded (row.type.getD [])).sound
  have hBounds (r : Indicator) : |r.claimed| ≤ 2 ^ 200 := by
    have hReal := claimed_le r
    have hMore : |(r.claimed : ℝ)| ≤ 2 ^ 200 :=
      hReal.trans (by norm_num)
    exact_mod_cast hMore
  rw [agedClaim_eq, agedClaim_eq]
  apply max_le_max le_rfl
  apply RoundedDoubles.round_mono
  apply RoundedDoubles.mul_mono_left
  · exact (claim_product_le hSound now row).trans (by norm_num)
  · exact (claim_product_le hSound now
      { row with confidence := confidence }).trans (by norm_num)
  · exact (ageFactor_range hSound row.lastSeen now).1
  · exact RoundedDoubles.ofInt_mono (hBounds row) (hBounds _) hLe

end

---- The Order Of The Scores

section

variable {F : Type} [RoundedDoubles F]

/- The weights, in floating-point numbers. -/
theorem weight_range (g : Str) :
    0 ≤ Doubles.val (Doubles.ratio (weightOf g) 100 : F) ∧
      Doubles.val (Doubles.ratio (weightOf g) 100 : F) ≤ 3 := by
  have hWeight := weightOf_range g
  have hLow : (40 : ℝ) ≤ weightOf g := by
    exact_mod_cast hWeight.1
  have hHigh : (weightOf g : ℝ) ≤ 100 := by
    exact_mod_cast hWeight.2
  have hNear := Doubles.ratio_near (F := F) (weightOf g) 100
    (by rw [abs_of_nonneg (by omega)]; omega) (by norm_num)
    (by norm_num)
  have hExact : |(weightOf g : ℝ) / (100 : Int)| ≤ 1 := by
    rw [Int.cast_ofNat, abs_of_nonneg (by linarith)]
    linarith
  have hBounds := abs_le.mp (hNear.le hExact)
  rw [Int.cast_ofNat] at hBounds
  constructor
  · linarith
  · linarith

/- The claim of a source, weighed by its grade. -/
def weighed
    (F : Type)
    [Doubles F]
    (aged weight : Int) : Int :=
  Doubles.round
    (Doubles.mul (Doubles.ofInt aged)
      (Doubles.ratio weight 100) : F)

theorem weighed_product_le
    {aged : Int}
    (hPos : 0 ≤ aged) (hLe : (aged : ℝ) ≤ 2 ^ 70) (g : Str) :
    |Doubles.val (Doubles.ofInt aged : F) *
        Doubles.val (Doubles.ratio (weightOf g) 100 : F)| ≤
      2 ^ 200 := by
  have hReal : |(aged : ℝ)| ≤ 2 ^ 70 := by
    rw [abs_of_nonneg (by exact_mod_cast hPos)]
    exact hLe
  have hAged := RoundedDoubles.ofInt_abs_le (F := F) hReal
    (by norm_num)
  have hWeight := weight_range (F := F) g
  rw [abs_mul, abs_of_nonneg hWeight.1]
  have hProduct := mul_le_mul hAged hWeight.2 hWeight.1
    (by norm_num)
  apply hProduct.trans
  norm_num

/- A number up to 2 ** 70 is far from overflow. -/
theorem abs_aged_le
    {aged : Int}
    (hPos : 0 ≤ aged) (hLe : (aged : ℝ) ≤ 2 ^ 70) :
    |aged| ≤ 2 ^ 200 := by
  have hReal : (aged : ℝ) ≤ 2 ^ 200 :=
    hLe.trans (by norm_num)
  rw [abs_of_nonneg hPos]
  exact_mod_cast hReal

/- More of a claim weighs no less, -/
theorem weighed_mono_claim
    {aged more : Int}
    (hPos : 0 ≤ aged) (hMore : aged ≤ more)
    (hLe : (more : ℝ) ≤ 2 ^ 70) (g : Str) :
    weighed F aged (weightOf g) ≤ weighed F more (weightOf g) := by
  have hFirst : (aged : ℝ) ≤ 2 ^ 70 :=
    le_trans (by exact_mod_cast hMore) hLe
  apply RoundedDoubles.round_mono
  apply RoundedDoubles.mul_mono_left
  · exact weighed_product_le hPos hFirst g
  · exact weighed_product_le (hPos.trans hMore) hLe g
  · exact (weight_range g).1
  · exact RoundedDoubles.ofInt_mono (abs_aged_le hPos hFirst)
      (abs_aged_le (hPos.trans hMore) hLe) hMore

/- and of a better source as well. -/
theorem weighed_mono_weight
    {aged : Int}
    (hPos : 0 ≤ aged) (hLe : (aged : ℝ) ≤ 2 ^ 70) {g better : Str}
    (hWeight : weightOf g ≤ weightOf better) :
    weighed F aged (weightOf g) ≤
      weighed F aged (weightOf better) := by
  have hSmall (k : Str) : |weightOf k| ≤ 2 ^ 53 := by
    have hRange := weightOf_range k
    rw [abs_of_nonneg (by omega)]
    omega
  apply RoundedDoubles.round_mono
  apply RoundedDoubles.mul_mono_right
  · exact weighed_product_le hPos hLe g
  · exact weighed_product_le hPos hLe better
  · exact RoundedDoubles.ofInt_nonneg (abs_aged_le hPos hLe) hPos
  · rw [RoundedDoubles.ratio_nearest _ _ (hSmall g)
        (by norm_num) (by norm_num),
      RoundedDoubles.ratio_nearest _ _ (hSmall better)
        (by norm_num) (by norm_num)]
    apply RoundedDoubles.nearest_mono
    have hReal : (weightOf g : ℝ) ≤ weightOf better := by
      exact_mod_cast hWeight
    rw [Int.cast_ofNat]
    linarith

variable [Unicode] [Capitals]

theorem rowScore_eq
    (now : Instant) (row : Indicator) (sourceCount : Int)
    (reliability : Str) (localSightings verdictShift : Int) :
    (scoreRow F now row sourceCount reliability localSightings
        verdictShift).score =
      cut (weighed F (agedClaim F now row)
          (gradeWeight reliability) +
        corroborationBonus (max 1 sourceCount) +
        sightingBonus localSightings + row.attribution +
        verdictShift) :=
  rfl

/- The letter that a reliability is scored with. -/
def gradeOf (reliability : Str) : Str :=
  gradeLetter (orStr (some reliability) defaultReliability)

/- The second grade is nearer to A, both between A and F. -/
def Improves (reliability better : Str) : Prop :=
  gradeOf reliability ∈ gradeLetters ∧
    gradeOf better ∈ gradeLetters ∧
    gradeOf better ≤ gradeOf reliability

/- The parts of a score add up to it, it is between 0 and 100,
and no more confidence, sources, sightings, credit from the
analysts nor a better grade lowers it. -/
theorem score_explains_and_orders
    (now : Instant)
    (row : Indicator)
    (sourceCount : Int)
    (reliability : Str)
    (localSightings verdictShift : Int) :
    let scored := scoreRow F now row sourceCount reliability
      localSightings verdictShift
    (scored.components.map Component.delta).sum =
        scored.score ∧
      (0 ≤ scored.score ∧ scored.score ≤ 100) ∧
      (∀ confidence : Option Int64,
        row.claimed ≤
            ({ row with
              confidence := confidence } : Indicator).claimed →
          scored.score ≤
            (scoreRow F now { row with confidence := confidence }
              sourceCount reliability localSightings
              verdictShift).score) ∧
      (∀ more, sourceCount ≤ more →
        scored.score ≤
          (scoreRow F now row more reliability localSightings
            verdictShift).score) ∧
      (∀ more, localSightings ≤ more →
        scored.score ≤
          (scoreRow F now row sourceCount reliability more
            verdictShift).score) ∧
      (∀ more, verdictShift ≤ more →
        scored.score ≤
          (scoreRow F now row sourceCount reliability
            localSightings more).score) ∧
      ∀ better, Improves reliability better →
        scored.score ≤
          (scoreRow F now row sourceCount better localSightings
            verdictShift).score := by
  have hAged := agedClaim_range (F := F) now row
  dsimp only
  refine ⟨rowComponents_sum F now row sourceCount reliability
    localSightings verdictShift, ?_, ?_, ?_, ?_, ?_, ?_⟩
  · rw [rowScore_eq]
    exact cut_range _
  · intro confidence hLe
    have hMore := agedClaim_mono (F := F) now row hLe
    have hBase := weighed_mono_claim (F := F) hAged.1 hMore
      (agedClaim_range now _).2
      (gradeLetter (orStr (some reliability) defaultReliability))
    rw [rowScore_eq, rowScore_eq]
    apply cut_mono
    have hSame :
        ({ row with
          confidence := confidence } : Indicator).attribution =
          row.attribution := rfl
    rw [hSame]
    unfold gradeWeight
    omega
  · intro more hLe
    have hBonus := corroborationBonus_mono
      (max_le_max (le_refl (1 : Int)) hLe)
    rw [rowScore_eq, rowScore_eq]
    apply cut_mono
    omega
  · intro more hLe
    have hBonus := sightingBonus_mono hLe
    rw [rowScore_eq, rowScore_eq]
    apply cut_mono
    omega
  · intro more hLe
    rw [rowScore_eq, rowScore_eq]
    apply cut_mono
    omega
  · rintro better ⟨hGrade, hBetter, hLe⟩
    have hBase := weighed_mono_weight (F := F) hAged.1 hAged.2
      (weightOf_mono hGrade hBetter hLe)
    rw [rowScore_eq, rowScore_eq]
    apply cut_mono
    unfold gradeWeight
    unfold gradeOf at hBase
    omega

end

---- A Graded Address

local instance orderingUnicode : Unicode := asciiTables
local instance orderingCapitals : Capitals := asciiCapitals
noncomputable local instance orderingDoubles :
    RoundedDoubles ℝ := exactRounding

/- An address that one source claims with some confidence. -/
def claimedAddress (confidence : Int64) : Indicator where
  type := some (lit "ip")
  confidence := some confidence
  lastSeen := none
  reportId := none
  actor := none
  malwareFamily := none

/- A source that is graded A instead of F never scores it
lower. -/
theorem graded_a_not_below_f :
    (scoreRow ℝ epoch (claimedAddress 90) 1 (lit "F") 0 0).score ≤
      (scoreRow ℝ epoch (claimedAddress 90) 1 (lit "a") 0
        0).score :=
  (score_explains_and_orders epoch (claimedAddress 90) 1
    (lit "F") 0 0).2.2.2.2.2.2 (lit "a")
    (by unfold Improves; decide)

end ThreatOrbit.Cti
