import ThreatOrbit.Cti.Lookup

/-
  The maintenance pass over the indicators, which stores their
  status and their score, and the pages that show them.
-/

---- Decay Rules

namespace ThreatOrbit.Cti

open Lib

open Intel (DecayRule)

section

/- The bounds that `update_decay_rule` checks. -/
structure Bounded (rule : DecayRule) : Prop where
  half : 1 ≤ rule.halfLifeDays ∧ rule.halfLifeDays ≤ 3650
  revoke : 1 ≤ rule.revokeScore ∧ rule.revokeScore ≤ 99
  age : 1 ≤ rule.maxAgeHalfLives ∧ rule.maxAgeHalfLives ≤ 20

/- A row of `decay_rules`. -/
structure DecayRuleRow where
  id : Str
  appliesTo : List Str
  rule : DecayRule
  enabled : Bool
  builtin : Bool
  bounded : Bounded rule

/- `ORDER BY builtin DESC, id`. -/
def DecayRuleRow.notAfter (a b : DecayRuleRow) : Prop :=
  (a.builtin = true ∧ b.builtin = false) ∨
    (a.builtin = b.builtin ∧ a.id ≤ b.id)

instance : DecidableRel DecayRuleRow.notAfter :=
  fun a b => inferInstanceAs (Decidable
    ((a.builtin = true ∧ b.builtin = false) ∨
      (a.builtin = b.builtin ∧ a.id ≤ b.id)))

/- `mapping.setdefault(key, value)`. -/
def setDefault
    {α : Type}
    (key : Str)
    (value : α)
    (d : List (Str × α)) : List (Str × α) :=
  if (lookup key d).isSome then d else setEntry key value d

/- `_fallback`. -/
def fallbackRule : DecayRule := ⟨Intel.defaultHalfLife, 15, 4⟩

variable [Unicode]

/- A rule under the types that it applies to. -/
def enterRule
    (byType : List (Str × DecayRule))
    (row : DecayRuleRow) : List (Str × DecayRule) :=
  (if row.appliesTo = [] then [lit "*"] else row.appliesTo).foldl
    (fun d t => setDefault (Unicode.lower t) row.rule d) byType

/- `_load`. -/
def loadRules (rows : List DecayRuleRow) : List (Str × DecayRule) :=
  setDefault (lit "*") fallbackRule
    (((rows.filter DecayRuleRow.enabled).insertionSort
      DecayRuleRow.notAfter).foldl enterRule [])

def ruleFor (rows : List DecayRuleRow) (type : Str) : DecayRule :=
  ((lookup (Unicode.lower type) (loadRules rows)).or
    (lookup (lit "*") (loadRules rows))).getD fallbackRule

end

---- Conclusions Of Analysts

/- A row of `ioc_verdicts`, as a score reads it. -/
structure VerdictRow where
  iocValue : Str
  orgId : Str
  verdict : Str
deriving DecidableEq

/- `WEIGHT`. -/
def verdictWeight : List (Str × Int) :=
  [(lit "confirmed", 20), (lit "false-positive", -35),
    (lit "benign-here", -22)]

/- `MAX_SHIFT`. -/
def maxShift : Int := 40

/- The net movement of the conclusions about a value in a
workspace: `shift_for` of their tally. -/
def shiftOf
    (verdicts : List VerdictRow)
    (value org : Str) : Int :=
  let rows := verdicts.filter fun r =>
    r.iocValue == value && r.orgId == org
  max (-maxShift) (min maxShift
    (rows.map fun r =>
      (lookup r.verdict verdictWeight).getD 0).sum)

/- `summary`: its shift. -/
def summaryShift
    (verdicts : List VerdictRow)
    (value org : Str) : Int :=
  shiftOf verdicts (strip value)
    (orStr (some org) (lit "org-default"))

/- `all_shifts` of the default workspace. -/
def defaultShift
    (verdicts : List VerdictRow)
    (value : Str) : Int :=
  shiftOf verdicts value (lit "org-default")

---- The Pass And The Pages

open Auth (HttpError)
open Intel (Instant IocLifecycle decayTarget validUntil
  effectiveConfidence)

/- The tables that a score is made of. -/
structure IntelStore [Unicode] [Normalizer]
    extends IocStore where
  verdicts : List VerdictRow
  rules : List DecayRuleRow

/- The number of the sources of a value and the least of
their grades, in `decay_iocs`. -/
def corrOf
    (observations : List Observation)
    (grades : List (Str × Str))
    (value : Str) : Int × Option Str :=
  match observations.filter fun o => o.value == value with
  | [] => (1, none)
  | rows =>
      (rows.length, bestGrade (rows.map fun o =>
        (lookup o.sourceId grades).getD defaultReliability))

/- The grade that `decay_iocs` scores a value with, and the
source that its row names. -/
def passGrade
    (observations : List Observation)
    (grades : List (Str × Str))
    (value : Str)
    (source : Option Str) : Str :=
  let best := (corrOf observations grades value).2
  let own := (lookup (source.getD []) grades).getD []
  orStr
    (if own ≠ [] ∧ (best = none ∨ own < best.getD []) then
      some own
    else best)
    defaultReliability

variable [Unicode] [Normalizer] [Capitals]
variable (F : Type) [Doubles F]

/- The score that `decay_iocs` stores. -/
def passScore
    (now : Instant)
    (store : IntelStore)
    (ioc : Ioc) : Int :=
  (scoreIndicator F now ioc
    (corrOf store.observations store.grades ioc.value).1
    (passGrade store.observations store.grades ioc.value
      ioc.source)
    ioc.localSightings
    (defaultShift store.verdicts ioc.value)).score

/- `decay_iocs` at a row; the dates that it stores too may lie
beyond the calendar. -/
def decayIoc
    (now : Instant)
    (store : IntelStore)
    (ioc : Ioc) : Except PyError Ioc :=
  if ioc.status = knownGood then .ok ioc
  else
    let rule := ruleFor store.rules (Unicode.lower ioc.type)
    match validUntil F ioc.confidence ioc.lastSeen rule with
    | .error e => .error e
    | .ok _ =>
        .ok { ioc with
          status := IocLifecycle.text
            (decayTarget F ioc.confidence ioc.lastSeen now rule)
          intelScore := passScore F now store ioc }

/- `decay_iocs`: the rows that it leaves. -/
def decayIocs
    (now : Instant)
    (store : IntelStore) : Except PyError (List Ioc) :=
  store.iocs.mapM (decayIoc F now store)

/- An item of `list_iocs`. -/
structure IocItem where
  ioc : Ioc
  effectiveConfidence : Int
  sources : List Str
  sourceCount : Nat
  intelScore : Int
  scoreBand : Str
deriving DecidableEq

/- The item of a row, with the sources of its page. -/
def listItem
    (now : Instant)
    (store : IntelStore)
    (byValue : List (Str × List Str))
    (ioc : Ioc) : IocItem :=
  let srcs := (lookup ioc.value byValue).getD []
  let scored := scoreOf F now ioc srcs store.grades 0
  { ioc := ioc
    effectiveConfidence :=
      effectiveConfidence F ioc.confidence ioc.lastSeen now
        (builtinRule ioc.type)
    sources := srcs
    sourceCount := max 1 srcs.length
    intelScore := scored.score
    scoreBand := scored.band }

/- What `get_ioc` shows of an indicator. -/
structure IocDetail where
  ioc : Ioc
  effectiveConfidence : Int
  status : Str
  sources : List Str
  sourceCount : Nat
  intelScore : Int
  scoreBand : Str
  scoreComponents : List Component
  reliability : Str
deriving DecidableEq

/- `get_ioc` of a row that the user may read. -/
def getIoc
    (now : Instant)
    (store : IntelStore)
    (org : Str)
    (ioc : Ioc) : IocDetail :=
  let rule := ruleFor store.rules ioc.type
  let srcs :=
    (lookup ioc.value
      (corroboration store.observations [ioc.value])).getD []
  let scored := scoreOf F now ioc srcs store.grades
    (summaryShift store.verdicts ioc.value org)
  { ioc := ioc
    effectiveConfidence :=
      effectiveConfidence F ioc.confidence ioc.lastSeen now rule
    status := IocLifecycle.text (ioc.lifecycle F now rule)
    sources := srcs
    sourceCount := max 1 srcs.length
    intelScore := scored.score
    scoreBand := scored.band
    scoreComponents := scored.components
    reliability := scored.reliability }

/- `record`, and the score that `record_verdict` stores and
answers. -/
def recordVerdict
    (now : Instant)
    (store : IntelStore)
    (org verdict : Str)
    (ioc : Ioc) :
    Except HttpError (List VerdictRow × Int) :=
  let v := Unicode.lower (strip verdict)
  let value := strip ioc.value
  if (lookup v verdictWeight).isNone then
    .error ⟨400, lit "verdict must be one of ('confirmed', " ++
      lit "'false-positive', 'benign-here')"⟩
  else if value = [] then
    .error ⟨400, lit "value is required"⟩
  else
    let verdicts := store.verdicts ++
      [⟨value, orStr (some org) (lit "org-default"), v⟩]
    let srcs :=
      (lookup ioc.value
        (corroboration store.observations [ioc.value])).getD []
    .ok (verdicts,
      (scoreOf F now ioc srcs store.grades
        (summaryShift verdicts ioc.value org)).score)

end ThreatOrbit.Cti
