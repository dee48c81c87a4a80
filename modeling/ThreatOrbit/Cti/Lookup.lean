import ThreatOrbit.Lib.Ranking
import ThreatOrbit.Lib.Url
import ThreatOrbit.Cti.Imports
import ThreatOrbit.Cti.Scoring

/-
  Lookups of values in the store of indicators, one at a time
  and in bulk.

  A lookup reads the first row of its value, a bulk lookup the
  last; and a bulk lookup counts the sources of an indicator
  once for every chunk of its values that it answers.
-/

---- Matching

namespace ThreatOrbit.Cti

open Lib

section

variable [Unicode] [Normalizer]

/- `(urlparse(v).hostname or "").strip(".")`. -/
def urlHost (v : Str) : Except PyError Str :=
  (urlparse v).map fun u =>
    stripBy (· == cp '.') (u.hostname.getD [])

/- `"://" in v`. -/
def isUrl (v : Str) : Bool := contains (lit "://") v

/- `"/" not in v and "." in v`. -/
def isBare (v : Str) : Bool :=
  !v.contains (cp '/') && v.contains (cp '.')

def hostOf (value type : Str) : Option Str :=
  let v := strip value
  if !isUrl v then none
  else if type != [] && type != lit "url" then none
  else
    match urlHost v with
    | .error _ => none
    | .ok host =>
        if Unicode.lower host = [] then none
        else some (Unicode.lower host)

/- A row of `observable_sources`, as a lookup reads it. -/
structure Observation where
  value : Str
  sourceId : Str
  firstSeen : Str
deriving DecidableEq

/- The tables that a lookup reads, in the order of their rows:
the indicators, who asserts what, and the grades of the
sources. -/
structure IocStore where
  iocs : List Ioc
  observations : List Observation
  grades : List (Str × Str)
  host_eq : ∀ r ∈ iocs, r.host = hostOf r.value r.type

omit [Unicode] [Normalizer] in
/- `SELECT * FROM iocs WHERE value=?`, the first row. -/
def rowWith (iocs : List Ioc) (v : Str) : Option Ioc :=
  iocs.find? fun r => r.value == v

/- The rows with the host of a bare value. -/
def hostedOn (iocs : List Ioc) (v : Str) : List Ioc :=
  iocs.filter fun r => r.host == some (Unicode.lower v)

def matchIndicator
    (iocs : List Ioc)
    (v : Str) : Except PyError (Option Ioc) :=
  match rowWith iocs v with
  | some row => .ok (some row)
  | none =>
      if isUrl v then
        (urlHost v).map fun host =>
          if host = [] then none else rowWith iocs host
      else if isBare v then
        .ok (top Ioc.confidence (hostedOn iocs v))
      else .ok none

end

---- Answers

open Auth (HttpError)
open Intel (Instant IocLifecycle DecayRule lifecycleOf
  effectiveConfidence)

section

/- `ORDER BY first_seen`. -/
def Observation.notYounger (a b : Observation) : Prop :=
  a.firstSeen ≤ b.firstSeen

instance : DecidableRel Observation.notYounger :=
  fun a b => inferInstanceAs (Decidable (a.firstSeen ≤ b.firstSeen))

def corroboration
    (observations : List Observation)
    (values : List Str) : List (Str × List Str) :=
  collect
    ((chunks importProbeChunk values).flatMap fun part =>
      ((observations.filter fun o =>
          part.contains o.value).insertionSort
        Observation.notYounger).map
          fun o => (o.value, o.sourceId))

def IocLifecycle.text : IocLifecycle → Str
| .knownGood => knownGood
| .active => lit "active"
| .expired => lit "expired"

/- The status in `lifecycle_of`, under a rule. -/
def Ioc.lifecycle
    (F : Type)
    [Doubles F]
    (now : Instant)
    (rule : DecayRule)
    (ioc : Ioc) : IocLifecycle :=
  lifecycleOf F
    (if ioc.status = knownGood then .knownGood else .active)
    ioc.confidence ioc.lastSeen now rule

/- What a lookup answers; a key that is left out is
`none`. -/
structure LookupAnswer where
  id : Option Str
  value : Str
  matched : Option Str
  found : Bool
  verdict : Str
  confidence : Nat
  severity : Option Str
  threatType : Option Str
  actor : Option Str
  source : Option Str
  firstSeen : Option Str
  lastSeen : Option Instant
  tags : List Str
  status : Option Str
  effectiveConfidence : Option Int
  sightings : Option Int
  knownGood : Option Bool
  sources : Option (List Str)
  sourceCount : Option Nat
  intelScore : Option Int
  scoreBand : Option Str
  scoreComponents : Option (List Component)
  reliability : Option Str
deriving DecidableEq

variable [Unicode]
variable (F : Type) [Doubles F]

/- The verdict of a row that is in the store. -/
def verdictOf (now : Instant) (ioc : Ioc) : Str :=
  if ioc.status = Cti.knownGood then lit "benign"
  else if ioc.lifecycle F now (builtinRule ioc.type) =
      .expired then
    lit "expired"
  else if ioc.severity = some (lit "critical") ∨
      ioc.severity = some (lit "high") then
    lit "malicious"
  else lit "suspicious"

def lookupPayload
    (now : Instant)
    (v : Str) : Option Ioc → LookupAnswer
| none =>
    { id := none
      value := v
      matched := none
      found := false
      verdict := lit "unverified"
      confidence := 0
      severity := none
      threatType := none
      actor := none
      source := none
      firstSeen := none
      lastSeen := none
      tags := []
      status := none
      effectiveConfidence := none
      sightings := none
      knownGood := none
      sources := none
      sourceCount := none
      intelScore := none
      scoreBand := none
      scoreComponents := none
      reliability := none }
| some ioc =>
    { id := some ioc.id
      value := v
      matched := some ioc.value
      found := true
      verdict := verdictOf F now ioc
      confidence := ioc.confidence
      severity := ioc.severity
      threatType := ioc.threatType
      actor := ioc.actor
      source := ioc.source
      firstSeen := ioc.firstSeen
      lastSeen := ioc.lastSeen
      tags := ioc.tags
      status := some (IocLifecycle.text
        (ioc.lifecycle F now (builtinRule ioc.type)))
      effectiveConfidence :=
        some (Intel.effectiveConfidence F ioc.confidence
          ioc.lastSeen now (builtinRule ioc.type))
      sightings := some ioc.sightings
      knownGood := some (ioc.status == Cti.knownGood)
      sources := none
      sourceCount := none
      intelScore := none
      scoreBand := none
      scoreComponents := none
      reliability := none }

variable [Capitals] [Normalizer]

def iocLookup
    (now : Instant)
    (store : IocStore)
    (value : Str) : Except PyError LookupAnswer :=
  let v := strip value
  (matchIndicator store.iocs v).map fun row =>
    let key := (row.map Ioc.value).getD v
    let srcs :=
      (lookup key (corroboration store.observations [key])).getD []
    let out := { lookupPayload F now v row with
      sources := some srcs }
    match row with
    | none => { out with sourceCount := some srcs.length }
    | some ioc =>
        let scored := scoreOf F now ioc srcs store.grades 0
        { out with
          value := ioc.value
          matched := none
          sourceCount := some (max 1 srcs.length)
          intelScore := some scored.score
          scoreBand := some scored.band
          scoreComponents := some scored.components
          reliability := some scored.reliability }

/- `_BULK_LOOKUP_MAX`. -/
def bulkLookupMax : Nat := 1000

/- The values of a bulk lookup, each once. -/
def bulkValues (values : List Str) : List Str :=
  firstsBy id [] ((values.map strip).filter (· != []))

/- The rows that the probes of a bulk lookup leave under
their values. -/
def probedRows
    (iocs : List Ioc)
    (ordered : List Str) : List (Str × Ioc) :=
  ((chunks importProbeChunk ordered).flatMap fun part =>
    iocs.filter fun r => part.contains r.value).foldl
      (fun rows r => setEntry r.value r rows) []

/- The rows after the values that the probes missed. -/
def matchMissing
    (iocs : List Ioc) :
    List Str → List (Str × Ioc) →
      Except PyError (List (Str × Ioc))
| [], rows => .ok rows
| v :: rest, rows =>
    match lookup v rows with
    | some _ => matchMissing iocs rest rows
    | none =>
        match matchIndicator iocs v with
        | .error e => .error e
        | .ok none => matchMissing iocs rest rows
        | .ok (some hit) =>
            matchMissing iocs rest (setEntry v hit rows)

/- The answer for a value, of the row that it matched. -/
def bulkAnswer
    (now : Instant)
    (store : IocStore)
    (byValue : List (Str × List Str))
    (v : Str)
    (row : Option Ioc) : LookupAnswer :=
  match row with
  | none => lookupPayload F now v none
  | some ioc =>
      let srcs :=
        (lookup (orStr (some ioc.value) v) byValue).getD []
      let scored := scoreOf F now ioc srcs store.grades 0
      { lookupPayload F now v (some ioc) with
        sources := some srcs
        sourceCount := some (max 1 srcs.length)
        intelScore := some scored.score
        scoreBand := some scored.band }

inductive RequestFailure where
| http (error : HttpError)
| raised (error : PyError)
deriving DecidableEq

/- `ioc_lookup_bulk`: its results. -/
def iocLookupBulk
    (now : Instant)
    (store : IocStore)
    (values : List Str) :
    Except RequestFailure (List LookupAnswer) :=
  let ordered := bulkValues values
  if bulkLookupMax < ordered.length then
    .error (.http ⟨413, lit "Too many values: " ++
      natStr ordered.length ++ lit " (max " ++
      natStr bulkLookupMax ++ lit " per request)"⟩)
  else
    match matchMissing store.iocs ordered
      (probedRows store.iocs ordered) with
    | .error e => .error (.raised e)
    | .ok rows =>
        let matched := ordered.filterMap fun v =>
          (lookup v rows).map fun ioc => orStr (some ioc.value) v
        let byValue := corroboration store.observations matched
        .ok (ordered.map fun v =>
          bulkAnswer F now store byValue v (lookup v rows))

end

---- What The Two Lookups Should Share

open Intel (Instant)

section

/- Two answers that agree; a missing list of sources has
none. -/
structure LookupAnswer.Agrees (a b : LookupAnswer) : Prop where
  found : a.found = b.found
  verdict : a.verdict = b.verdict
  confidence : a.confidence = b.confidence
  severity : a.severity = b.severity
  status : a.status = b.status
  sources : a.sources.getD [] = b.sources.getD []
  intelScore : a.intelScore = b.intelScore
  scoreBand : a.scoreBand = b.scoreBand

/- `SELECT * FROM iocs WHERE value=?`, the last row. -/
def lastRowWith (iocs : List Ioc) (v : Str) : Option Ioc :=
  (iocs.filter fun r => r.value == v).getLast?

/- The sources that assert a value, the earliest first. -/
def sourcesOf
    (observations : List Observation)
    (v : Str) : List Str :=
  ((observations.filter fun o => o.value == v).insertionSort
    Observation.notYounger).map Observation.sourceId

variable [Unicode] [Capitals] [Normalizer]

/- A bulk lookup answers each value once, in the order of
their first occurrences, with what a lookup of the value alone
answers. -/
def BulkAgrees
    (F : Type)
    [Doubles F]
    (now : Instant)
    (store : IocStore)
    (values : List Str) : Prop :=
  ∃ results, iocLookupBulk F now store values = .ok results ∧
    results.map LookupAnswer.value =
      ((values.map strip).filter (· != [])).eraseDups ∧
    ∀ r ∈ results, ∃ single,
      iocLookup F now store r.value = .ok single ∧
        r.Agrees single

/- Two rows of a value that a lookup reads alike. -/
structure ReadsAlike
    (F : Type)
    [Doubles F]
    (now : Instant)
    (store : IocStore)
    (a b : Ioc) : Prop where
  verdict : verdictOf F now a = verdictOf F now b
  confidence : a.confidence = b.confidence
  severity : a.severity = b.severity
  status :
    a.lifecycle F now (builtinRule a.type) =
      b.lifecycle F now (builtinRule b.type)
  score :
    (scoreOf F now a (sourcesOf store.observations a.value)
        store.grades 0).score =
      (scoreOf F now b (sourcesOf store.observations b.value)
        store.grades 0).score

omit [Capitals] in
/- The row that a lookup matches, none where it raises. -/
def hitOf (iocs : List Ioc) (v : Str) : Option Ioc :=
  match matchIndicator iocs v with
  | .error _ => none
  | .ok row => row

omit [Capitals] in
/- The values of the indicators that the values of a bulk
lookup match. -/
def matchedValues
    (store : IocStore)
    (values : List Str) : List Str :=
  (bulkValues values).filterMap fun v =>
    (hitOf store.iocs v).map Ioc.value

/- What makes the two lookups agree: no value that is not in
the store is a URL that cannot be parsed, the first and the
last row of every value read alike, no source asserts a value
that matches nothing, and none asserts an indicator that is
matched in two chunks. -/
structure BulkSafe
    (F : Type)
    [Doubles F]
    (now : Instant)
    (store : IocStore)
    (values : List Str) : Prop where
  parsed :
    ∀ v ∈ bulkValues values, rowWith store.iocs v = none →
      isUrl v = true → ∃ u, urlparse v = .ok u
  rows :
    ∀ v ∈ bulkValues values, ∀ first last,
      rowWith store.iocs v = some first →
        lastRowWith store.iocs v = some last →
          ReadsAlike F now store first last
  unmatched :
    ∀ v ∈ bulkValues values, hitOf store.iocs v = none →
      ∀ o ∈ store.observations, o.value ≠ v
  once :
    ∀ o ∈ store.observations,
      ((chunks importProbeChunk
          (matchedValues store values)).filter
        fun part => part.contains o.value).length ≤ 1

end

---- Rows And Sources

theorem rowWith_some
    {iocs : List Ioc} {v : Str} {r : Ioc}
    (hRow : rowWith iocs v = some r) :
    r ∈ iocs ∧ r.value = v := by
  refine ⟨List.mem_of_find?_eq_some hRow, ?_⟩
  have hIs := List.find?_some hRow
  exact beq_iff_eq.mp hIs

theorem rowWith_none_iff
    {iocs : List Ioc} {v : Str} :
    rowWith iocs v = none ↔ lastRowWith iocs v = none := by
  unfold rowWith lastRowWith
  rw [List.find?_eq_none, List.getLast?_eq_none_iff,
    List.filter_eq_nil_iff]

theorem lastRowWith_some
    {iocs : List Ioc} {v : Str} {r : Ioc}
    (hRow : lastRowWith iocs v = some r) :
    r ∈ iocs ∧ r.value = v := by
  have hMem := List.mem_of_getLast? hRow
  rw [List.mem_filter] at hMem
  exact ⟨hMem.1, beq_iff_eq.mp hMem.2⟩

instance : IsTrans Observation Observation.notYounger :=
  ⟨fun _ _ _ => le_trans⟩

instance : Std.Total Observation.notYounger :=
  ⟨fun a b => le_total a.firstSeen b.firstSeen⟩

/- The sources of a value, once for every chunk of the values
that holds it. -/
theorem corroboration_eq
    (observations : List Observation) (values : List Str)
    (v : Str) :
    (lookup v (corroboration observations values)).getD [] =
      (List.replicate
        ((chunks importProbeChunk values).filter
          fun part => part.contains v).length
        (sourcesOf observations v)).flatten := by
  have hPart : ∀ part : List Str,
      ((((observations.filter fun o =>
          part.contains o.value).insertionSort
        Observation.notYounger).map
          fun o => (o.value, o.sourceId)).filter
            fun p => decide (p.1 = v)).map Prod.snd =
        if part.contains v then sourcesOf observations v
        else [] := by
    intro part
    rw [List.filter_map, List.map_map, filter_insertionSort,
      List.filter_filter]
    split
    · rename_i hIn
      have hSame :
          observations.filter (fun o =>
              ((fun p : Str × Str => decide (p.1 = v)) ∘
                fun o => (o.value, o.sourceId)) o &&
                part.contains o.value) =
            observations.filter fun o => o.value == v := by
        apply List.filter_congr
        intro o _
        by_cases hValue : o.value = v
        · simp [hValue] at hIn ⊢
          exact hIn
        · simp [hValue]
      rw [hSame]
      rfl
    · rename_i hOut
      have hNone :
          observations.filter (fun o =>
              ((fun p : Str × Str => decide (p.1 = v)) ∘
                fun o => (o.value, o.sourceId)) o &&
                part.contains o.value) = [] := by
        rw [List.filter_eq_nil_iff]
        intro o _ hBoth
        by_cases hValue : o.value = v
        · rw [hValue] at hBoth
          simp at hBoth hOut
          exact hOut hBoth.2
        · simp [hValue] at hBoth
      rw [hNone]
      rfl
  rw [corroboration, lookup_collect]
  generalize chunks importProbeChunk values = parts
  induction parts with
  | nil => rfl
  | cons part rest ih =>
      rw [List.flatMap_cons, List.filter_append,
        List.map_append, ih, hPart, List.filter_cons]
      split
      · rw [List.length_cons, List.replicate_succ,
          List.flatten_cons]
      · rfl

/- The sources of one value alone. -/
theorem corroboration_single
    (observations : List Observation) (v : Str) :
    (lookup v (corroboration observations [v])).getD [] =
      sourcesOf observations v := by
  have hChunks : chunks importProbeChunk [v] = [[v]] := by
    simp [chunks, importProbeChunk]
  rw [corroboration_eq, hChunks]
  simp

---- The Rows Of A Bulk Lookup

section

/- The last of the rows under their values. -/
theorem lookup_foldl_rows
    (rows : List Ioc) (d : List (Str × Ioc)) (v : Str) :
    lookup v (rows.foldl (fun d r => setEntry r.value r d) d) =
      (lastRowWith rows v).or (lookup v d) := by
  induction rows generalizing d with
  | nil => simp [lastRowWith]
  | cons r rest ih =>
      rw [List.foldl_cons, ih, lookup_setEntry]
      unfold lastRowWith
      rw [List.filter_cons]
      by_cases hValue : r.value = v
      · rw [if_pos hValue, if_pos (beq_iff_eq.mpr hValue),
          List.getLast?_cons]
        cases (rest.filter fun r => r.value == v).getLast? with
        | none => rfl
        | some last => rfl
      · rw [if_neg hValue, if_neg (by simpa using hValue)]

/- The probes leave the last row of each value. -/
theorem lookup_probedRows
    (iocs : List Ioc) {ordered : List Str} {v : Str}
    (hIn : v ∈ ordered) :
    lookup v (probedRows iocs ordered) = lastRowWith iocs v := by
  have hPart : ∀ part : List Str,
      lastRowWith
          (iocs.filter fun r => part.contains r.value) v =
        if part.contains v then lastRowWith iocs v else none := by
    intro part
    unfold lastRowWith
    rw [List.filter_filter]
    split
    · rename_i hHolds
      congr 1
      apply List.filter_congr
      intro r _
      by_cases hValue : r.value = v
      · simp [hValue] at hHolds ⊢
        exact hHolds
      · simp [hValue]
    · rename_i hLacks
      rw [List.getLast?_eq_none_iff, List.filter_eq_nil_iff]
      intro r _ hBoth
      simp only [Bool.and_eq_true, beq_iff_eq] at hBoth
      rw [hBoth.1] at hBoth
      exact hLacks hBoth.2
  rw [probedRows, lookup_foldl_rows]
  have hLast : ∀ parts : List (List Str),
      lastRowWith (parts.flatMap fun part =>
          iocs.filter fun r => part.contains r.value) v =
        if parts.any (fun part => part.contains v) then
          lastRowWith iocs v
        else none := by
    intro parts
    induction parts with
    | nil => rfl
    | cons first rest ih =>
        have hSplit :
            lastRowWith ((first :: rest).flatMap fun part =>
                iocs.filter fun r => part.contains r.value) v =
              (lastRowWith (rest.flatMap fun part =>
                iocs.filter fun r => part.contains r.value) v).or
              (lastRowWith
                (iocs.filter fun r => first.contains r.value)
                v) := by
          unfold lastRowWith
          rw [List.flatMap_cons, List.filter_append,
            List.getLast?_append]
        rw [hSplit, hPart, ih, List.any_cons]
        cases first.contains v with
        | true =>
            cases rest.any (fun part => part.contains v) with
            | true => simp
            | false => simp
        | false => simp
  have hAny :
      (chunks importProbeChunk ordered).any
        (fun part => part.contains v) = true := by
    rcases (mem_chunks (n := importProbeChunk)
      (by decide) ordered v).mpr hIn with ⟨part, hPartIn, hVIn⟩
    exact List.any_eq_true.mpr
      ⟨part, hPartIn, List.contains_iff_mem.mpr hVIn⟩
  rw [hLast, if_pos hAny]
  exact Option.or_none

variable [Unicode] [Normalizer]

/- The values that the probes missed are matched one by
one. -/
theorem matchMissing_spec
    (iocs : List Ioc) (vs : List Str) (rows : List (Str × Ioc)) :
    (∀ after, matchMissing iocs vs rows = .ok after →
      (∀ v ∈ vs, lookup v rows = none →
        ∃ row, matchIndicator iocs v = .ok row) ∧
      ∀ v, lookup v after =
        if v ∈ vs then (lookup v rows).or (hitOf iocs v)
        else lookup v rows) ∧
    ((∀ v ∈ vs, lookup v rows = none →
        ∃ row, matchIndicator iocs v = .ok row) →
      ∃ after, matchMissing iocs vs rows = .ok after) := by
  induction vs generalizing rows with
  | nil =>
      constructor
      · intro after hAfter
        cases hAfter
        simp
      · intro _
        exact ⟨rows, rfl⟩
  | cons v rest ih =>
      rw [matchMissing]
      cases hKnown : lookup v rows with
      | some r =>
          simp only
          rcases ih rows with ⟨hOk, hSome⟩
          constructor
          · intro after hAfter
            rcases hOk after hAfter with ⟨hRest, hAt⟩
            refine ⟨List.forall_mem_cons.mpr ⟨?_, hRest⟩, ?_⟩
            · intro hNone
              rw [hKnown] at hNone
              cases hNone
            · intro w
              rw [hAt w]
              by_cases hW : w = v
              · simp [hW, hKnown]
              · simp [hW]
          · intro hAll
            exact hSome (List.forall_mem_cons.mp hAll).2
      | none =>
          simp only
          cases hMatch : matchIndicator iocs v with
          | error e =>
              constructor
              · intro after hAfter
                cases hAfter
              · intro hAll
                rcases (List.forall_mem_cons.mp hAll).1 hKnown
                  with ⟨row, hRow⟩
                rw [hMatch] at hRow
                cases hRow
          | ok row =>
              have hHit : hitOf iocs v = row := by
                unfold hitOf
                rw [hMatch]
              cases row with
              | none =>
                  simp only
                  rcases ih rows with ⟨hOk, hSome⟩
                  constructor
                  · intro after hAfter
                    rcases hOk after hAfter with ⟨hRest, hAt⟩
                    refine ⟨List.forall_mem_cons.mpr
                      ⟨fun _ => ⟨none, hMatch⟩, hRest⟩, ?_⟩
                    intro w
                    rw [hAt w]
                    by_cases hW : w = v
                    · simp [hW, hKnown, hHit]
                    · simp [hW]
                  · intro hAll
                    exact hSome (List.forall_mem_cons.mp hAll).2
              | some hit =>
                  simp only
                  have hStill : ∀ w,
                      lookup w (setEntry v hit rows) = none →
                        lookup w rows = none := by
                    intro w hNone
                    rw [lookup_setEntry] at hNone
                    split at hNone
                    · cases hNone
                    · exact hNone
                  rcases ih (setEntry v hit rows) with
                    ⟨hOk, hSome⟩
                  constructor
                  · intro after hAfter
                    rcases hOk after hAfter with ⟨hRest, hAt⟩
                    refine ⟨List.forall_mem_cons.mpr
                      ⟨fun _ => ⟨some hit, hMatch⟩, ?_⟩, ?_⟩
                    · intro w hW hNone
                      by_cases hSame : v = w
                      · exact ⟨some hit, hSame ▸ hMatch⟩
                      · apply hRest w hW
                        rw [lookup_setEntry, if_neg hSame]
                        exact hNone
                    · intro w
                      rw [hAt w, lookup_setEntry]
                      by_cases hSame : v = w
                      · rw [← hSame]
                        simp [hKnown, hHit]
                      · have hOther : w ≠ v := Ne.symm hSame
                        simp [hSame, hOther]
                  · intro hAll
                    apply hSome
                    intro w hW hNone
                    exact (List.forall_mem_cons.mp hAll).2 w hW
                      (hStill w hNone)

end

---- When They Agree

section

variable [Unicode] [Normalizer]

omit [Unicode] [Normalizer] in
theorem bulkValues_mem
    {values : List Str} {v : Str}
    (hV : v ∈ bulkValues values) :
    strip v = v ∧ v ≠ [] := by
  have hIn := (mem_of_mem_firstsBy hV).1
  rw [List.mem_filter, List.mem_map] at hIn
  rcases hIn with ⟨⟨raw, _, rfl⟩, hSome⟩
  exact ⟨strip_strip raw, by simpa using hSome⟩

/- A value is matched unless it is a URL that is not in the
store and cannot be parsed. -/
theorem matchIndicator_ok_iff
    {iocs : List Ioc} {v : Str} :
    (∃ row, matchIndicator iocs v = .ok row) ↔
      (rowWith iocs v = none → isUrl v = true →
        ∃ u, urlparse v = .ok u) := by
  unfold matchIndicator
  cases rowWith iocs v with
  | some row => simp
  | none =>
      cases isUrl v with
      | true =>
          unfold urlHost
          cases urlparse v with
          | error e => simp [Except.map]
          | ok u => simp [Except.map]
      | false =>
          simp only [Bool.false_eq_true, if_false]
          split
          · simp
          · simp

/- A row with a host has a value. -/
theorem value_ne_nil_of_host
    {value type host : Str}
    (hHost : hostOf value type = some host) :
    value ≠ [] := by
  rintro rfl
  have hNone : hostOf [] type = none := rfl
  rw [hNone] at hHost
  cases hHost

theorem matched_value_ne_nil
    {store : IocStore} {v : Str} {r : Ioc}
    (hMatch : matchIndicator store.iocs v = .ok (some r))
    (hSome : v ≠ []) :
    r.value ≠ [] := by
  unfold matchIndicator at hMatch
  cases hExact : rowWith store.iocs v with
  | some row =>
      rw [hExact] at hMatch
      cases hMatch
      rw [(rowWith_some hExact).2]
      exact hSome
  | none =>
      rw [hExact] at hMatch
      simp only at hMatch
      split at hMatch
      · cases hHost : urlHost v with
        | error e =>
            rw [hHost] at hMatch
            cases hMatch
        | ok host =>
            rw [hHost] at hMatch
            simp only [Except.map, Except.ok.injEq] at hMatch
            split at hMatch
            · cases hMatch
            · rename_i hNe
              rw [(rowWith_some hMatch).2]
              exact hNe
      · split at hMatch
        · rw [Except.ok.injEq] at hMatch
          have hMem := mem_of_top hMatch
          rw [hostedOn, List.mem_filter, beq_iff_eq,
            store.host_eq r (List.mem_of_mem_filter
              (mem_of_top hMatch))] at hMem
          exact value_ne_nil_of_host hMem.2
        · cases hMatch

/- The row that a bulk lookup answers a value with. -/
def bulkRow (iocs : List Ioc) (v : Str) : Option Ioc :=
  (lastRowWith iocs v).or (hitOf iocs v)

/- It has the value of the row that a lookup matches. -/
theorem bulkRow_value
    (iocs : List Ioc) (v : Str) :
    (bulkRow iocs v).map Ioc.value =
      (hitOf iocs v).map Ioc.value := by
  unfold bulkRow
  cases hLast : lastRowWith iocs v with
  | none => rfl
  | some last =>
      unfold hitOf matchIndicator
      cases hFirst : rowWith iocs v with
      | none =>
          rw [rowWith_none_iff.mp hFirst] at hLast
          cases hLast
      | some first =>
          simp [(lastRowWith_some hLast).2,
            (rowWith_some hFirst).2]

theorem hitOf_value_ne_nil
    {store : IocStore} {v m : Str}
    (hHit : (hitOf store.iocs v).map Ioc.value = some m)
    (hSome : v ≠ []) :
    m ≠ [] := by
  unfold hitOf at hHit
  cases hMatch : matchIndicator store.iocs v with
  | error e =>
      rw [hMatch] at hHit
      cases hHit
  | ok row =>
      rw [hMatch] at hHit
      rcases Option.map_eq_some_iff.mp hHit with ⟨r, rfl, rfl⟩
      exact matched_value_ne_nil hMatch hSome

variable [Capitals]
variable (F : Type) [Doubles F]
variable {now : Instant}

/- A bulk lookup answers exactly when every value can be
matched, and of which rows. -/
theorem iocLookupBulk_eq
    (now : Instant) (store : IocStore) {values : List Str}
    (hFew : values.length ≤ bulkLookupMax)
    (results : List LookupAnswer) :
    iocLookupBulk F now store values = .ok results ↔
      (∀ v ∈ bulkValues values, rowWith store.iocs v = none →
        isUrl v = true → ∃ u, urlparse v = .ok u) ∧
      results = (bulkValues values).map fun v =>
        bulkAnswer F now store
          (corroboration store.observations
            (matchedValues store values)) v
          (bulkRow store.iocs v) := by
  have hLength : (bulkValues values).length ≤ bulkLookupMax := by
    have hSub : (bulkValues values).length ≤
        ((values.map strip).filter (· != [])).length :=
      (firstsBy_sublist [] _).length_le
    have hFilter :=
      List.length_filter_le (· != []) (values.map strip)
    rw [List.length_map] at hFilter
    exact le_trans hSub (le_trans hFilter hFew)
  have hParsed :
      (∀ v ∈ bulkValues values,
        lookup v (probedRows store.iocs (bulkValues values)) =
            none →
          ∃ row, matchIndicator store.iocs v = .ok row) ↔
        ∀ v ∈ bulkValues values,
          rowWith store.iocs v = none → isUrl v = true →
            ∃ u, urlparse v = .ok u := by
    apply forall₂_congr
    intro v hV
    rw [lookup_probedRows _ hV, ← rowWith_none_iff,
      matchIndicator_ok_iff]
    exact ⟨fun h hNone => h hNone hNone, fun h _ => h⟩
  rcases matchMissing_spec store.iocs
    (bulkValues values)
    (probedRows store.iocs (bulkValues values)) with
    ⟨hOk, hSome⟩
  rw [← hParsed]
  unfold iocLookupBulk
  rw [if_neg (not_lt.mpr hLength)]
  cases hRows : matchMissing store.iocs (bulkValues values)
    (probedRows store.iocs (bulkValues values)) with
  | error e =>
      constructor
      · intro hResults
        cases hResults
      · rintro ⟨hAll, _⟩
        rcases hSome hAll with ⟨after, hAfter⟩
        rw [hRows] at hAfter
        cases hAfter
  | ok rows =>
      rcases hOk rows hRows with ⟨hAll, hAt⟩
      have hRow : ∀ v ∈ bulkValues values,
          lookup v rows = bulkRow store.iocs v := by
        intro v hV
        rw [hAt v, if_pos hV, lookup_probedRows _ hV]
        rfl
      have hMatched :
          ((bulkValues values).filterMap fun v =>
              (lookup v rows).map fun ioc =>
                orStr (some ioc.value) v) =
            matchedValues store values := by
        apply List.filterMap_congr
        intro v hV
        rw [hRow v hV, ← bulkRow_value]
        cases hBulk : bulkRow store.iocs v with
        | none => rfl
        | some r =>
            have hHit := bulkRow_value store.iocs v
            rw [hBulk] at hHit
            rw [Option.map_some, Option.map_some,
              orStr_of_ne_nil (hitOf_value_ne_nil hHit.symm
                (bulkValues_mem hV).2)]
      have hAnswers :
          ((bulkValues values).map fun v =>
              bulkAnswer F now store
                (corroboration store.observations
                  (matchedValues store values)) v
                (lookup v rows)) =
            (bulkValues values).map fun v =>
              bulkAnswer F now store
                (corroboration store.observations
                  (matchedValues store values)) v
                (bulkRow store.iocs v) := by
        apply List.map_congr_left
        intro v hV
        rw [hRow v hV]
      simp only [hMatched, hAnswers, Except.ok.injEq]
      exact ⟨fun hIs => ⟨hAll, hIs.symm⟩, fun h => h.2.symm⟩

end

---- Agreement

open Intel (Instant IocLifecycle)

section

theorem text_injective
    {a b : IocLifecycle} :
    IocLifecycle.text a = IocLifecycle.text b ↔ a = b := by
  cases a <;> cases b <;> decide

/- A list repeated is the list when it is empty or stands
once. -/
theorem flatten_replicate_iff
    {α : Type} {k : Nat}
    (hPos : 0 < k) {l : List α} :
    (List.replicate k l).flatten = l ↔ l = [] ∨ k ≤ 1 := by
  constructor
  · intro hSame
    have hLength := congrArg List.length hSame
    rw [List.length_flatten, List.map_replicate,
      List.sum_replicate, smul_eq_mul] at hLength
    by_cases hNone : l = []
    · exact .inl hNone
    · have hSome := List.length_pos_iff.mpr hNone
      right
      by_contra hMore
      have hTwice := Nat.mul_le_mul_right l.length
        (by omega : 2 ≤ k)
      omega
  · rintro (rfl | hOne)
    · simp
    · rw [show k = 1 by omega]
      simp

variable [Unicode] [Normalizer] [Capitals]
variable {F : Type} [Doubles F]
variable {now : Instant}
variable {store : IocStore}
variable {byValue : List (Str × List Str)}
variable {v : Str}

/- For a value that matches nothing. -/
theorem agrees_missing_iff
    (hStrip : strip v = v)
    (hMatch : matchIndicator store.iocs v = .ok none) :
    (∃ single, iocLookup F now store v = .ok single ∧
        (bulkAnswer F now store byValue v none).Agrees single) ↔
      sourcesOf store.observations v = [] := by
  have hSingle := corroboration_single store.observations v
  unfold iocLookup
  simp only [hStrip, hMatch, Except.map, Option.map_none,
    Option.getD_none, hSingle, Except.ok.injEq]
  constructor
  · rintro ⟨single, rfl, hAgrees⟩
    exact hAgrees.sources.symm
  · intro hNone
    exact ⟨_, rfl, rfl, rfl, rfl, rfl, rfl, hNone.symm, rfl, rfl⟩

/- For a value that the lookups match with two rows. -/
theorem agrees_found_iff
    {first last : Ioc}
    (hStrip : strip v = v)
    (hMatch : matchIndicator store.iocs v = .ok (some first))
    (hSame : last.value = first.value) (hSome : first.value ≠ []) :
    (∃ single, iocLookup F now store v = .ok single ∧
        (bulkAnswer F now store byValue v (some last)).Agrees
          single) ↔
      (lookup first.value byValue).getD [] =
          sourcesOf store.observations first.value ∧
        ReadsAlike F now store first last := by
  have hSingle := corroboration_single store.observations
    first.value
  unfold iocLookup bulkAnswer
  simp only [hStrip, hMatch, Except.map, Option.map_some,
    Option.getD_some, hSingle, Except.ok.injEq, hSame,
    orStr_of_ne_nil hSome]
  constructor
  · rintro ⟨single, rfl, hAgrees⟩
    have hSources :
        (lookup first.value byValue).getD [] =
          sourcesOf store.observations first.value :=
      hAgrees.sources
    have hScore := hAgrees.intelScore
    simp only [hSources, Option.some.injEq] at hScore
    refine ⟨hSources, hAgrees.verdict.symm,
      hAgrees.confidence.symm, hAgrees.severity.symm, ?_, ?_⟩
    · exact (text_injective.mp
        (Option.some.inj hAgrees.status)).symm
    · rw [hSame]
      exact hScore.symm
  · rintro ⟨hSources, hAlike⟩
    have hScore := hAlike.score
    rw [hSame] at hScore
    rw [hSources]
    refine ⟨_, rfl, rfl, hAlike.verdict.symm,
      hAlike.confidence.symm, hAlike.severity.symm, ?_, rfl,
      congrArg some hScore.symm, ?_⟩
    · exact congrArg some
        (congrArg IocLifecycle.text hAlike.status.symm)
    · exact congrArg some (congrArg bandFor hScore.symm)

omit [Unicode] [Normalizer] [Capitals] in
theorem sourcesOf_nil_iff
    {observations : List Observation} :
    sourcesOf observations v = [] ↔
      ∀ o ∈ observations, o.value ≠ v := by
  unfold sourcesOf
  rw [List.map_eq_nil_iff, ← List.length_eq_zero_iff,
    List.length_insertionSort, List.length_eq_zero_iff,
    List.filter_eq_nil_iff]
  simp

theorem bulkAnswer_value
    (row : Option Ioc) :
    (bulkAnswer F now store byValue v row).value = v := by
  cases row with
  | none => rfl
  | some r => rfl

omit [Capitals] in
theorem rowWith_of_unmatched
    {iocs : List Ioc}
    (hMatch : matchIndicator iocs v = .ok none) :
    rowWith iocs v = none := by
  cases hRow : rowWith iocs v with
  | none => rfl
  | some r =>
      unfold matchIndicator at hMatch
      rw [hRow] at hMatch
      cases hMatch

omit [Unicode] [Normalizer] [Capitals] in
theorem chunk_of_mem
    {values : List Str}
    (hV : v ∈ values) :
    0 < ((chunks importProbeChunk values).filter
      fun part => part.contains v).length := by
  rcases (mem_chunks (n := importProbeChunk)
    (by decide) values v).mpr hV with ⟨part, hPart, hHolds⟩
  apply List.length_pos_of_mem (a := part)
  exact List.mem_filter.mpr
    ⟨hPart, List.contains_iff_mem.mpr hHolds⟩

/- The indicator of a queried value is matched in a chunk. -/
omit [Capitals] in
theorem matched_in_chunk
    {values : List Str} {r : Ioc}
    (hIn : v ∈ bulkValues values)
    (hHit : hitOf store.iocs v = some r) :
    0 < ((chunks importProbeChunk
        (matchedValues store values)).filter
      fun part => part.contains r.value).length := by
  apply chunk_of_mem
  unfold matchedValues
  rw [List.mem_filterMap]
  exact ⟨v, hIn, by rw [hHit]; rfl⟩

/- An indicator that no queried value matches is in none. -/
omit [Capitals] in
theorem unmatched_in_no_chunk
    {values : List Str} {m : Str}
    (hMem : m ∉ matchedValues store values) :
    (chunks importProbeChunk
        (matchedValues store values)).filter
      (fun part => part.contains m) = [] := by
  rw [List.filter_eq_nil_iff]
  intro part hPart hHolds
  exact hMem ((mem_chunks (n := importProbeChunk)
    (by decide) _ _).mp
      ⟨part, hPart, List.contains_iff_mem.mp hHolds⟩)

/- The two rows the lookups answer of are the first and the
last with the value, or one row that is matched by host. -/
theorem reads_alike_iff
    {first last : Ioc}
    (hMatch : matchIndicator store.iocs v = .ok (some first))
    (hLast : bulkRow store.iocs v = some last) :
    ReadsAlike F now store first last ↔
      ∀ a b, rowWith store.iocs v = some a →
        lastRowWith store.iocs v = some b →
          ReadsAlike F now store a b := by
  have hHit : hitOf store.iocs v = some first := by
    unfold hitOf
    rw [hMatch]
  cases hExact : rowWith store.iocs v with
  | none =>
      have hIs : last = first := by
        rw [bulkRow, rowWith_none_iff.mp hExact, hHit] at hLast
        exact (Option.some.inj hLast).symm
      rw [hIs]
      refine iff_of_true ⟨rfl, rfl, rfl, rfl, rfl⟩ ?_
      intro a b hA
      cases hA
  | some r =>
      have hFirst : first = r := by
        unfold matchIndicator at hMatch
        rw [hExact] at hMatch
        cases hMatch
        rfl
      cases hEnd : lastRowWith store.iocs v with
      | none =>
          rw [rowWith_none_iff.mpr hEnd] at hExact
          cases hExact
      | some e =>
          have hIs : last = e := by
            rw [bulkRow, hEnd] at hLast
            exact (Option.some.inj hLast).symm
          rw [hFirst, hIs]
          constructor
          · intro hAlike a b hA hB
            cases hA
            cases hB
            exact hAlike
          · intro hAll
            exact hAll r e rfl rfl

/- What is asked of a value that is answered. -/
theorem answer_agrees_iff
    {values : List Str}
    (hIn : v ∈ bulkValues values)
    (hOk : ∃ row, matchIndicator store.iocs v = .ok row) :
    (∃ single, iocLookup F now store v = .ok single ∧
        (bulkAnswer F now store
          (corroboration store.observations
            (matchedValues store values)) v
          (bulkRow store.iocs v)).Agrees single) ↔
      (∀ first last, rowWith store.iocs v = some first →
        lastRowWith store.iocs v = some last →
          ReadsAlike F now store first last) ∧
      (hitOf store.iocs v = none →
        ∀ o ∈ store.observations, o.value ≠ v) ∧
      ∀ m, (hitOf store.iocs v).map Ioc.value = some m →
        sourcesOf store.observations m = [] ∨
          ((chunks importProbeChunk
              (matchedValues store values)).filter
            fun part => part.contains m).length ≤ 1 := by
  rcases bulkValues_mem hIn with ⟨hStrip, hSome⟩
  rcases hOk with ⟨row, hMatch⟩
  have hHit : hitOf store.iocs v = row := by
    unfold hitOf
    rw [hMatch]
  cases row with
  | none =>
      have hExact : rowWith store.iocs v = none :=
        rowWith_of_unmatched hMatch
      have hRow : bulkRow store.iocs v = none := by
        rw [bulkRow, rowWith_none_iff.mp hExact, hHit]
        rfl
      rw [hRow, agrees_missing_iff hStrip hMatch,
        sourcesOf_nil_iff, hHit, hExact]
      simp
  | some first =>
      have hValue := matched_value_ne_nil hMatch hSome
      have hBulk := bulkRow_value store.iocs v
      rw [hHit, Option.map_some] at hBulk
      rcases Option.map_eq_some_iff.mp hBulk with
        ⟨last, hLast, hSame⟩
      rw [hLast, agrees_found_iff hStrip hMatch hSame hValue,
        corroboration_eq,
        flatten_replicate_iff (matched_in_chunk hIn hHit),
        hHit, reads_alike_iff hMatch hLast]
      simp only [Option.map_some, Option.some.injEq,
        forall_eq', reduceCtorEq, false_implies, true_and]
      exact and_comm

/- A bulk lookup of at most a thousand values agrees with the
lookups of the values alone exactly when every URL that is
not in the store can be parsed, the first and the last row
of each value read alike, no value that matches nothing has
a source, and no indicator with a source is matched in two
chunks. -/
theorem bulk_agrees_iff
    (F : Type)
    [Doubles F]
    (now : Instant)
    (store : IocStore)
    {values : List Str}
    (hFew : values.length ≤ bulkLookupMax) :
    BulkAgrees F now store values ↔
      BulkSafe F now store values := by
  have hValues : ∀ row : Str → Option Ioc, ∀ byValue,
      ((bulkValues values).map fun v =>
          bulkAnswer F now store byValue v (row v)).map
        LookupAnswer.value = bulkValues values := by
    intro row byValue
    rw [List.map_map]
    conv_rhs => rw [← List.map_id (bulkValues values)]
    apply List.map_congr_left
    intro v _
    exact bulkAnswer_value (row v)
  have hOrder : bulkValues values =
      ((values.map strip).filter (· != [])).eraseDups := by
    rw [bulkValues, firstsBy_id]
    congr 1
    simp
  unfold BulkAgrees
  simp only [iocLookupBulk_eq F now store hFew]
  constructor
  · rintro ⟨results, ⟨hParsed, rfl⟩, _, hAll⟩
    have hEach : ∀ v ∈ bulkValues values,
        ∃ single, iocLookup F now store v = .ok single ∧
          (bulkAnswer F now store
            (corroboration store.observations
              (matchedValues store values)) v
            (bulkRow store.iocs v)).Agrees single := by
      intro v hV
      have hAt := hAll _ (List.mem_map_of_mem hV)
      rw [bulkAnswer_value] at hAt
      exact hAt
    have hSplit := fun v (hV : v ∈ bulkValues values) =>
      (answer_agrees_iff hV (matchIndicator_ok_iff.mpr
        (hParsed v hV))).mp (hEach v hV)
    refine ⟨hParsed, fun v hV => (hSplit v hV).1,
      fun v hV => (hSplit v hV).2.1, ?_⟩
    intro o hO
    by_cases hMem : o.value ∈ matchedValues store values
    · rcases List.mem_filterMap.mp hMem with ⟨v, hV, hHit⟩
      rcases (hSplit v hV).2.2 _ hHit with hNone | hOne
      · exact absurd rfl (sourcesOf_nil_iff.mp hNone o hO)
      · exact hOne
    · rw [unmatched_in_no_chunk hMem]
      exact Nat.zero_le _
  · intro hSafe
    refine ⟨_, ⟨hSafe.parsed, rfl⟩, ?_, ?_⟩
    · rw [hValues, hOrder]
    · intro r hR
      rcases List.mem_map.mp hR with ⟨v, hV, rfl⟩
      rw [bulkAnswer_value]
      apply (answer_agrees_iff hV (matchIndicator_ok_iff.mpr
        (hSafe.parsed v hV))).mpr
      refine ⟨hSafe.rows v hV, hSafe.unmatched v hV, ?_⟩
      intro m _
      by_cases hNone : sourcesOf store.observations m = []
      · exact .inl hNone
      · right
        rw [sourcesOf_nil_iff] at hNone
        push Not at hNone
        rcases hNone with ⟨o, hO, rfl⟩
        exact hSafe.once o hO

end

---- Concrete Lookups

local instance lookupUnicode : Unicode := asciiTables

local instance lookupCapitals : Capitals := asciiCapitals

local instance lookupNormalizer : Normalizer := ⟨id⟩

attribute [local instance] exactDoubles

/- A domain that a workspace holds. -/
def heldBy (org severity : String) : Ioc where
  id := lit org
  type := lit "domain"
  value := lit "a.b"
  threatType := none
  confidence := 80
  severity := some (lit severity)
  source := none
  actor := none
  firstSeen := none
  lastSeen := none
  tags := []
  status := lit "active"
  sightings := 1
  host := none
  reportId := none
  malwareFamily := none
  orgId := lit org
  intelScore := 0

def oneHolder : IocStore where
  iocs := [heldBy "org-a" "high"]
  observations := []
  grades := []
  host_eq := by decide

def twoHolders : IocStore where
  iocs := [heldBy "org-a" "high", heldBy "org-b" "low"]
  observations := []
  grades := []
  host_eq := by decide

def lookupTime : Instant := ⟨0, by decide⟩

/- A domain that one workspace holds is answered as it is
alone. -/
theorem one_holder_agrees :
    BulkAgrees ℝ lookupTime oneHolder [lit "a.b"] := by
  have hFew : [lit "a.b"].length ≤ bulkLookupMax := by decide
  apply (bulk_agrees_iff ℝ lookupTime oneHolder hFew).mpr
  have hFirst : rowWith oneHolder.iocs (lit "a.b") =
      some (heldBy "org-a" "high") := by
    decide
  have hValues : ∀ v ∈ bulkValues [lit "a.b"], v = lit "a.b" := by
    decide
  refine ⟨?_, ?_, ?_, ?_⟩
  · intro v hV hNone
    rw [hValues v hV, hFirst] at hNone
    cases hNone
  · intro v hV first last hA hB
    have hLast : lastRowWith oneHolder.iocs (lit "a.b") =
        some (heldBy "org-a" "high") := by
      decide
    rw [hValues v hV] at hA hB
    rw [hFirst] at hA
    rw [hLast] at hB
    cases hA
    cases hB
    exact ⟨rfl, rfl, rfl, rfl, rfl⟩
  · intro v _ _ o hO
    cases hO
  · intro o hO
    cases hO

/- One that two workspaces hold is answered with the severity
of the one in bulk and of the other alone. -/
theorem two_holders_disagree :
    ¬ BulkAgrees ℝ lookupTime twoHolders [lit "a.b"] := by
  rintro ⟨results, hBulk, _, hAll⟩
  have hFew : [lit "a.b"].length ≤ bulkLookupMax := by decide
  rcases (iocLookupBulk_eq ℝ lookupTime twoHolders hFew
    results).mp hBulk with ⟨_, rfl⟩
  have hIn : lit "a.b" ∈ bulkValues [lit "a.b"] := by decide
  have hLast : bulkRow twoHolders.iocs (lit "a.b") =
      some (heldBy "org-b" "low") := by
    decide
  have hAt := hAll _ (List.mem_map_of_mem hIn)
  rw [hLast] at hAt
  have hMatch : matchIndicator twoHolders.iocs (lit "a.b") =
      .ok (some (heldBy "org-a" "high")) := by
    rfl
  have hAlike := ((agrees_found_iff (by decide) hMatch (by decide)
    (by decide)).mp hAt).2.severity
  revert hAlike
  decide

end ThreatOrbit.Cti
