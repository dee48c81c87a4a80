import ThreatOrbit.Intel.Decay

/-
  The score of an indicator, and the rule that it ages by
  where no other is passed.
-/

---- Indicators

namespace ThreatOrbit.Cti

open Lib

open Intel (Instant DecayRule)

/- A row of `iocs`, up to the columns that no lookup reads;
`lastSeen` as `_parse` reads it. -/
structure Ioc where
  id : Str
  type : Str
  value : Str
  threatType : Option Str
  confidence : Nat
  severity : Option Str
  source : Option Str
  actor : Option Str
  firstSeen : Option Str
  lastSeen : Option Instant
  tags : List Str
  status : Str
  sightings : Int
  host : Option Str
  reportId : Option Str
  malwareFamily : Option Str
  orgId : Str
  intelScore : Int
deriving DecidableEq

def knownGood : Str := lit "known-good"

/- `DECAY_HALFLIFE_DAYS`. -/
def decayHalfLifeDays : List (Str × Nat) :=
  [(lit "ip", 14), (lit "url", 21), (lit "domain", 45),
    (lit "email", 60), (lit "hash", 180), (lit "sha256", 180),
    (lit "md5", 180), (lit "sha1", 180), (lit "cve", 365)]

/- The constants that `half_life` and `lifecycle_of` fall back
to. -/
def builtinRule [Unicode] (type : Str) : DecayRule where
  halfLifeDays :=
    (lookup (Unicode.lower type) decayHalfLifeDays).getD
      Intel.defaultHalfLife
  revokeScore := 15
  maxAgeHalfLives := 4

---- The Score

open Intel (Instant effectiveConfidence)

/- `str.upper`. -/
class Capitals where
  upper : Str → Str

/- Capitals of no character beyond ASCII. -/
@[reducible] def asciiCapitals : Capitals where
  upper s := s.map fun c =>
    if cp 'a' ≤ c && c ≤ cp 'z' then c - 32 else c

/- `DEFAULT_RELIABILITY`. -/
def defaultReliability : Str := lit "C"

/- `RELIABILITY_WEIGHT`, in hundredths. -/
def reliabilityWeight : List (Str × Int) :=
  [(lit "A", 100), (lit "B", 92), (lit "C", 82), (lit "D", 68),
    (lit "E", 50), (lit "F", 40)]

def corroborationFirst : Int := 16

def corroborationExtra : Int := 4

def corroborationCap : Int := 26

def sightingFirst : Int := corroborationCap + 6

def sightingExtra : Int := 4

def sightingCap : Int := 44

def attributionBonus : Int := 8

def familyBonus : Int := 5

def corroborationBonus (sourceCount : Int) : Int :=
  if sourceCount < 2 then 0
  else
    min corroborationCap
      (corroborationFirst + (sourceCount - 2) * corroborationExtra)

def sightingBonus (sightings : Int) : Int :=
  if sightings < 1 then 0
  else
    min sightingCap
      (sightingFirst + (sightings - 1) * sightingExtra)

def bandFor (score : Int) : Str :=
  if 75 ≤ score then lit "high"
  else if 50 ≤ score then lit "moderate"
  else if 25 ≤ score then lit "low"
  else lit "weak"

/- Whether a column holds a text that is not empty. -/
def filled (column : Option Str) : Bool :=
  column.getD [] != []

/- The attribution of an indicator, in `score_indicator`. -/
def attribution (ioc : Ioc) : Int :=
  if filled ioc.reportId || filled ioc.actor then attributionBonus
  else if strip (ioc.malwareFamily.getD []) != [] then familyBonus
  else 0

/- A part of a score, without the reason that it shows. -/
structure Component where
  label : Str
  delta : Int
deriving DecidableEq

/- `max(0, (sightings or 1) - 1)`. -/
def Ioc.localSightings (ioc : Ioc) : Int :=
  max 0 ((if ioc.sightings = 0 then 1 else ioc.sightings) - 1)

structure Score where
  score : Int
  band : Str
  components : List Component
  sourceCount : Int
  reliability : Str
deriving DecidableEq

/- A part that is shown unless it is zero. -/
def component (label : String) (delta : Int) : List Component :=
  if delta = 0 then [] else [⟨lit label, delta⟩]

variable [Unicode] [Capitals]

omit [Unicode] in
/- `grade.upper()[:1]`. -/
def gradeLetter (grade : Str) : Str :=
  (Capitals.upper grade).take 1

omit [Unicode] [Capitals] in
/- The weight of a grade, that of the default where it is
unknown. -/
def weightOf (grade : Str) : Int :=
  (lookup grade reliabilityWeight).getD 82

def scoreIndicator
    (F : Type)
    [Doubles F]
    (now : Instant)
    (ioc : Ioc)
    (sourceCount : Int)
    (reliability : Str)
    (localSightings verdictShift : Int) : Score :=
  let grade := gradeLetter
    (orStr (some reliability) defaultReliability)
  let weight := weightOf grade
  let aged := effectiveConfidence F ioc.confidence ioc.lastSeen
    now (builtinRule ioc.type)
  let base := Doubles.round
    (Doubles.mul (Doubles.ofInt aged)
      (Doubles.ratio weight 100) : F)
  let corroboration := corroborationBonus (max 1 sourceCount)
  let sighting := sightingBonus localSightings
  let raw := base + corroboration + sighting +
    attribution ioc + verdictShift
  let total := max 0 (min 100 raw)
  { score := total
    band := bandFor total
    components :=
      ⟨lit "Source claim, aged", base⟩ ::
        (component "Corroboration" corroboration ++
          component "Seen in your environment" sighting ++
          component "Attributed" (attribution ioc) ++
          component "Analyst conclusion" verdictShift ++
          component
            (if total < raw then "Capped" else "Floored")
            (total - raw))
    sourceCount := sourceCount
    reliability := grade }

/- The least of some grades, which is the best. -/
def bestGrade : List Str → Option Str
| [] => none
| g :: rest =>
    match bestGrade rest with
    | none => some g
    | some h => if h < g then some h else some g

/- The grade that `_score_of` finds for a row. -/
def pageGrade
    (sources : List Str)
    (grades : List (Str × Str))
    (source : Option Str) : Str :=
  let given := sources.filterMap (lookup · grades)
  let own := (lookup (source.getD []) grades).toList
  (bestGrade (((given ++ own).filter (· != [])).map
    gradeLetter)).getD defaultReliability

def scoreOf
    (F : Type)
    [Doubles F]
    (now : Instant)
    (ioc : Ioc)
    (sources : List Str)
    (grades : List (Str × Str))
    (verdictShift : Int) : Score :=
  scoreIndicator F now ioc (max 1 sources.length)
    (pageGrade sources grades ioc.source) ioc.localSightings
    verdictShift

omit [Unicode] [Capitals] in
theorem component_sum
    (label : String) (delta : Int) :
    ((component label delta).map Component.delta).sum = delta := by
  unfold component
  split
  · rename_i hZero
    simp [hZero]
  · simp

end ThreatOrbit.Cti
