import ThreatOrbit.Lib.Grouping
import ThreatOrbit.Connectors.Indicators

/-
  The import of the indicators of a feed.

  A list is imported in sub-batches. Each drops the values
  it repeats, asks the store which of the others it holds,
  records who asserted them, fills the families that are
  blank and inserts the rest.
-/

---- The Store

namespace ThreatOrbit.Connectors

open Lib

/- A row of `observable_sources`: whoever writes one leaves
out sources without a name and cuts the others. -/
structure Assertion where
  value : Str
  source : Str
  firstSeen : Str
  lastSeen : Str
  rawLabel : Str
  confidence : Int
  named : source ≠ []
  short : source.length ≤ 200

/- A row of `intel_sources`. -/
structure IntelSource where
  id : Str
  firstSeen : Str
  lastSeen : Str
deriving DecidableEq

/- What `alert_from_intel` is given. -/
structure IntelAlert where
  value : Str
  iocType : Str
  severity : Str
  confidence : Int
  threatType : Str
  actorName : Str
  source : Str
deriving DecidableEq

structure IocStore where
  iocs : List IocRow
  assertions : List Assertion
  sources : List IntelSource
  alerts : List IntelAlert

/- The values that the store holds. -/
def IocStore.values (s : IocStore) : List Str :=
  s.iocs.map IocRow.value

/- `_MAX_INTEL_ALERTS_PER_RUN`. -/
def maxIntelAlertsPerRun : Nat := 10

/- `_EXISTS_CHUNK`. -/
def existsChunk : Nat := 900

/- Whether nobody has said which family a row is of. -/
def IocRow.blank (r : IocRow) : Bool :=
  r.malwareFamily.getD [] == []

---- One Sub-Batch

section

/- What the first pass makes of a sub-batch. -/
structure Sorted where
  candidates : List Candidate
  duplicates : Nat
  skipped : Nat

variable [Unicode]

/- The first pass, after the values it has seen. -/
@[grind =]
def sortBatch
    (t : ImportTools)
    (now source : Str) :
    List Str → List Indicator → Sorted
| _, [] => ⟨[], 0, 0⟩
| seen, ind :: rest =>
    match readIndicator t now source ind with
    | none =>
        let s := sortBatch t now source seen rest
        { s with skipped := s.skipped + 1 }
    | some c =>
        if seen.contains c.value then
          let s := sortBatch t now source seen rest
          { s with duplicates := s.duplicates + 1 }
        else
          let s := sortBatch t now source (c.value :: seen) rest
          { s with candidates := c :: s.candidates }

/- The rows that the probes of the store return. -/
def probe (values : List Str) (iocs : List IocRow) : List IocRow :=
  (chunks existsChunk values).flatMap fun part =>
    iocs.filter fun r => part.contains r.value

/- The row a candidate writes to `observable_sources`. -/
def assertionOf (now : Str) (c : Candidate) : Option Assertion :=
  if hSource : c.source.take 200 = [] then none
  else
    some
      { value := c.value
        source := c.source.take 200
        firstSeen := now
        lastSeen := now
        rawLabel := c.threatType.take 120
        confidence := c.conf
        named := hSource
        short := by simp }

/- `ON CONFLICT(value,source_id) DO UPDATE SET last_seen=?`. -/
def upsertAssertion
    (l : List Assertion)
    (a : Assertion) : List Assertion :=
  let same := fun b : Assertion =>
    b.value == a.value && b.source == a.source
  if l.any same then
    l.map fun b =>
      if same b then { b with lastSeen := a.lastSeen } else b
  else l ++ [a]

/- `ON CONFLICT(id) DO UPDATE SET last_seen=?`. -/
def upsertSource
    (l : List IntelSource)
    (s : IntelSource) : List IntelSource :=
  if l.any (·.id == s.id) then
    l.map fun b =>
      if b.id = s.id then { b with lastSeen := s.lastSeen } else b
  else l ++ [s]

def recordSourceAssertions
    (now : Str)
    (candidates : List Candidate)
    (store : IocStore) : IocStore :=
  let rows := candidates.filterMap (assertionOf now)
  let names := dictOf (rows.map fun a => (a.source, now))
  { store with
    assertions := rows.foldl upsertAssertion store.assertions
    sources :=
      (names.map fun e => IntelSource.mk e.1 e.2 e.2).foldl
        upsertSource store.sources }

/- `UPDATE iocs SET malware_family=? WHERE value IN (...)` of
a row. -/
def fillFamily
    (family : Str)
    (values : List Str)
    (r : IocRow) : IocRow :=
  if values.contains r.value && r.blank then
    { r with malwareFamily := some family }
  else r

/- The rows after an `UPDATE`, and how many were changed. -/
def updateFamily
    (family : Str)
    (acc : List IocRow × Nat)
    (values : List Str) : List IocRow × Nat :=
  (acc.1.map (fillFamily family values),
    acc.2 + acc.1.countP fun r =>
      values.contains r.value && r.blank)

def byFamily
    (unattributed : List Str)
    (candidates : List Candidate) : List (Str × List Str) :=
  collect
    ((candidates.filter fun c =>
        familyOf c.malwareFamily != [] &&
          unattributed.contains c.value).map
      fun c => (familyOf c.malwareFamily, c.value))

/- The families of values that nobody had attributed. -/
def attributeFamilies
    (unattributed : List Str)
    (candidates : List Candidate)
    (iocs : List IocRow) : List IocRow × Nat :=
  (byFamily unattributed candidates).foldl
    (fun acc e =>
      (chunks existsChunk e.2).foldl (updateFamily e.1) acc)
    (iocs, 0)

/- Whether a new indicator raises an alert. -/
def qualifies (t : ImportTools) (c : Candidate) : Bool :=
  c.severity == lit "critical" &&
    decide (t.alertMinConfidence ≤ c.conf)

/- The loop that raises alerts, within a budget. -/
@[grind =]
def raiseAlerts
    (t : ImportTools) : Nat → List Candidate → List Candidate
| _, [] => []
| 0, _ :: _ => []
| budget + 1, c :: rest =>
    if qualifies t c then c :: raiseAlerts t budget rest
    else raiseAlerts t (budget + 1) rest

def Candidate.alert (c : Candidate) : IntelAlert :=
  ⟨c.value, c.itype, c.severity, c.conf, c.threatType,
    c.actor, c.source⟩

/- What an import reports, with the candidates whose rows it
inserts. -/
structure Tally where
  inserted : List Candidate
  imported : Nat
  duplicates : Nat
  skipped : Nat
  alertsRaised : Nat
  attributed : Nat

def Tally.zero : Tally :=
  ⟨[], 0, 0, 0, 0, 0⟩

def Tally.add (a b : Tally) : Tally where
  inserted := a.inserted ++ b.inserted
  imported := a.imported + b.imported
  duplicates := a.duplicates + b.duplicates
  skipped := a.skipped + b.skipped
  alertsRaised := a.alertsRaised + b.alertsRaised
  attributed := a.attributed + b.attributed

/- `_import`. -/
def importBatch
    (t : ImportTools)
    (now source : Str)
    (budget : Nat)
    (store : IocStore)
    (inds : List Indicator) : IocStore × Tally :=
  let s := sortBatch t now source [] inds
  if s.candidates.isEmpty then
    (store, ⟨[], 0, s.duplicates, s.skipped, 0, 0⟩)
  else
    let found :=
      probe (s.candidates.map Candidate.value) store.iocs
    let existing := found.map IocRow.value
    let unattributed :=
      (found.filter IocRow.blank).map IocRow.value
    let asserted := recordSourceAssertions now s.candidates store
    let filled :=
      attributeFamilies unattributed s.candidates store.iocs
    let new := s.candidates.filter fun c =>
      !existing.contains c.value
    let alerts := raiseAlerts t budget new
    ({ asserted with
        iocs := filled.1 ++ new.map Candidate.row
        alerts := store.alerts ++ alerts.map Candidate.alert },
      { inserted := new
        imported := new.length
        duplicates :=
          s.duplicates + (s.candidates.length - new.length)
        skipped := s.skipped
        alertsRaised := alerts.length
        attributed := filled.2 })

/- The sub-batches one after another, with what is left of
the budget. -/
def importChunks
    (t : ImportTools)
    (now source : Str) :
    Nat → IocStore → List (List Indicator) → IocStore × Tally
| _, store, [] => (store, .zero)
| budget, store, part :: rest =>
    let r := importBatch t now source budget store part
    let more := importChunks t now source
      (budget - r.2.alertsRaised) r.1 rest
    (more.1, r.2.add more.2)

/- `import_indicators`, with `_IMPORT_BATCH`. -/
def importIndicators
    (t : ImportTools)
    (now source : Str)
    (batch : Nat)
    (store : IocStore)
    (inds : List Indicator) : IocStore × Tally :=
  importChunks t now source maxIntelAlertsPerRun store
    (chunks batch inds)

end

---- Sorting

section

variable [Unicode]
variable {t : ImportTools}
variable {now source : Str}

/- Which values are known is all that counts. -/
theorem sortBatch_congr
    {inds : List Indicator} {known other : List Str}
    (hSame : ∀ v, v ∈ known ↔ v ∈ other) :
    sortBatch t now source known inds =
      sortBatch t now source other inds := by
  induction inds generalizing known other with
  | nil => rfl
  | cons ind rest ih =>
      rw [sortBatch, sortBatch]
      cases readIndicator t now source ind with
      | none => simp only [ih hSame]
      | some c =>
          have hContains :
              known.contains c.value = other.contains c.value := by
            rw [Bool.eq_iff_iff, List.contains_iff_mem,
              List.contains_iff_mem]
            exact hSame c.value
          have hMore : ∀ v,
              v ∈ c.value :: known ↔ v ∈ c.value :: other := by
            intro v
            rw [List.mem_cons, List.mem_cons, hSame]
          simp only [hContains, ih hSame, ih hMore]

/- Every indicator is a candidate, a repeat or skipped. -/
theorem sortBatch_total
    (inds : List Indicator) (known : List Str) :
    (sortBatch t now source known inds).candidates.length +
        (sortBatch t now source known inds).duplicates +
        (sortBatch t now source known inds).skipped =
      inds.length := by
  induction inds generalizing known with
  | nil => rfl
  | cons ind rest ih =>
      rw [sortBatch]
      cases readIndicator t now source ind with
      | none =>
          have hRest := ih known
          simp only [List.length_cons]
          omega
      | some c =>
          simp only
          split
          · have hRest := ih known
            simp only [List.length_cons]
            omega
          · have hRest := ih (c.value :: known)
            simp only [List.length_cons]
            omega

/- Every value that can be imported is known or becomes a
candidate. -/
theorem sortBatch_covers
    {inds : List Indicator} {ind : Indicator} {c : Candidate}
    (known : List Str) (hInd : ind ∈ inds)
    (hRead : readIndicator t now source ind = some c) :
    c.value ∈ known ∨ c.value ∈
      (sortBatch t now source known inds).candidates.map
        Candidate.value := by
  induction inds generalizing known with
  | nil => cases hInd
  | cons first rest ih =>
      rw [sortBatch]
      cases hFirst : readIndicator t now source first with
      | none =>
          rcases List.mem_cons.mp hInd with hHead | hTail
          · rw [← hHead, hRead] at hFirst
            cases hFirst
          · exact ih known hTail
      | some d =>
          simp only
          split
          · rename_i hOld
            rw [List.contains_iff_mem] at hOld
            rcases List.mem_cons.mp hInd with hHead | hTail
            · rw [← hHead, hRead] at hFirst
              cases hFirst
              exact .inl hOld
            · exact ih known hTail
          · rcases List.mem_cons.mp hInd with hHead | hTail
            · rw [← hHead, hRead] at hFirst
              cases hFirst
              exact .inr (by simp)
            · rcases ih (d.value :: known) hTail with
                hKnown | hNew
              · rcases List.mem_cons.mp hKnown with hSame | hOld
                · exact .inr (by simp [hSame])
                · exact .inl hOld
              · right
                rw [List.map_cons]
                exact List.mem_cons_of_mem _ hNew

/- A candidate is an indicator of the list. -/
theorem sortBatch_mem
    {inds : List Indicator} {known : List Str} {c : Candidate}
    (hC :
      c ∈ (sortBatch t now source known inds).candidates) :
    ∃ ind ∈ inds, readIndicator t now source ind = some c := by
  induction inds generalizing known with
  | nil => cases hC
  | cons first rest ih =>
      rw [sortBatch] at hC
      cases hFirst : readIndicator t now source first with
      | none =>
          rw [hFirst] at hC
          rcases ih hC with ⟨ind, hInd, hRead⟩
          exact ⟨ind, List.mem_cons_of_mem _ hInd, hRead⟩
      | some d =>
          simp only [hFirst] at hC
          split at hC
          · rcases ih hC with ⟨ind, hInd, hRead⟩
            exact ⟨ind, List.mem_cons_of_mem _ hInd, hRead⟩
          · rcases List.mem_cons.mp hC with hHead | hTail
            · exact ⟨first, List.mem_cons_self, hHead ▸ hFirst⟩
            · rcases ih hTail with ⟨ind, hInd, hRead⟩
              exact ⟨ind, List.mem_cons_of_mem _ hInd, hRead⟩

/- Two lists, the second after what the first made known. -/
theorem sortBatch_append
    (first second : List Indicator) (known : List Str) :
    let a := sortBatch t now source known first
    let b := sortBatch t now source
      (known ++ a.candidates.map Candidate.value) second
    sortBatch t now source known (first ++ second) =
      ⟨a.candidates ++ b.candidates,
        a.duplicates + b.duplicates, a.skipped + b.skipped⟩ := by
  induction first generalizing known with
  | nil => simp [sortBatch]
  | cons ind rest ih =>
      simp only [List.cons_append]
      rw [sortBatch, sortBatch]
      cases readIndicator t now source ind with
      | none =>
          simp only [ih known, Sorted.mk.injEq, true_and]
          omega
      | some c =>
          simp only
          split
          · simp only [ih known, Sorted.mk.injEq, true_and,
              and_true]
            omega
          · have hSame :
                sortBatch t now source
                    ((c.value :: known) ++
                      (sortBatch t now source (c.value :: known)
                        rest).candidates.map Candidate.value)
                    second =
                  sortBatch t now source
                    (known ++ (c ::
                      (sortBatch t now source (c.value :: known)
                        rest).candidates).map Candidate.value)
                    second := by
              apply sortBatch_congr
              intro v
              simp only [List.mem_append, List.mem_cons,
                List.map_cons]
              tauto
            rw [← hSame]
            simp only [ih (c.value :: known), List.cons_append]

/- To drop the repeats and then what the store holds comes to
the same as to start from what the store holds. -/
theorem sortBatch_filter
    (inds : List Indicator) {seen known both : List Str}
    (hBoth : ∀ v, v ∈ both ↔ v ∈ seen ∨ v ∈ known) :
    (sortBatch t now source both inds).candidates =
        (sortBatch t now source seen inds).candidates.filter
          (fun c => !known.contains c.value) ∧
      (sortBatch t now source both inds).skipped =
        (sortBatch t now source seen inds).skipped := by
  induction inds generalizing seen both with
  | nil => exact ⟨rfl, rfl⟩
  | cons ind rest ih =>
      rw [sortBatch, sortBatch]
      cases readIndicator t now source ind with
      | none =>
          rcases ih hBoth with ⟨hCands, hSkipped⟩
          exact ⟨hCands, by simp only [hSkipped]⟩
      | some c =>
          simp only [List.contains_iff_mem]
          by_cases hSeen : c.value ∈ seen
          · rw [if_pos ((hBoth _).mpr (.inl hSeen)), if_pos hSeen]
            exact ih hBoth
          · have hMore : ∀ v, v ∈ both ∨ v = c.value ↔
                v ∈ c.value :: seen ∨ v ∈ known := by
              intro v
              rw [hBoth, List.mem_cons]
              tauto
            rw [if_neg hSeen]
            by_cases hKnown : c.value ∈ known
            · have hSame : ∀ v, v ∈ both ↔
                  v ∈ c.value :: seen ∨ v ∈ known := by
                intro v
                rw [← hMore]
                constructor
                · exact .inl
                · rintro (hV | rfl)
                  · exact hV
                  · exact (hBoth _).mpr (.inr hKnown)
              rw [if_pos ((hBoth _).mpr (.inr hKnown)),
                List.filter_cons_of_neg (by simpa using hKnown)]
              exact ih hSame
            · have hNew : ¬ c.value ∈ both := by
                rw [hBoth]
                tauto
              have hSame : ∀ v, v ∈ c.value :: both ↔
                  v ∈ c.value :: seen ∨ v ∈ known := by
                intro v
                rw [← hMore, List.mem_cons]
                tauto
              rw [if_neg hNew,
                List.filter_cons_of_pos (by simpa using hKnown)]
              rcases ih hSame with ⟨hCands, hSkipped⟩
              exact ⟨by rw [hCands], hSkipped⟩

end

---- Bulk Import And One At A Time

section

/- A row without its family, which may be filled later. -/
def IocRow.bare (r : IocRow) : IocRow :=
  { r with malwareFamily := none }

/- The alerts of new candidates, within a budget. -/
def alertsWithin
    (t : ImportTools)
    (budget : Nat)
    (new : List Candidate) : List Candidate :=
  (new.filter (qualifies t)).take budget

/- An import inserts what was sorted out, and counts it. -/
structure Imports
    (store : IocStore)
    (s : Sorted)
    (r : IocStore × Tally) : Prop where
  inserted : r.2.inserted = s.candidates
  imported : r.2.imported = s.candidates.length
  duplicates : r.2.duplicates = s.duplicates
  skipped : r.2.skipped = s.skipped
  values :
    r.1.values = store.values ++ s.candidates.map Candidate.value
  rows :
    r.1.iocs.map IocRow.bare =
      (store.iocs ++ s.candidates.map Candidate.row).map
        IocRow.bare

/- An import raises the first alerts of its budget. -/
structure Raises
    (t : ImportTools)
    (budget : Nat)
    (store : IocStore)
    (s : Sorted)
    (r : IocStore × Tally) : Prop where
  raised :
    r.2.alertsRaised = (alertsWithin t budget s.candidates).length
  alerts :
    r.1.alerts = store.alerts ++
      (alertsWithin t budget s.candidates).map Candidate.alert

theorem fillFamily_bare
    (family : Str) (values : List Str) (r : IocRow) :
    (fillFamily family values r).bare = r.bare := by
  unfold fillFamily
  split
  · rfl
  · rfl

/- What the updates do to one row. -/
def attributeRow
    (families : List (Str × List Str))
    (r : IocRow) : IocRow :=
  families.foldl
    (fun r e =>
      (chunks existsChunk e.2).foldl
        (fun r part => fillFamily e.1 part r) r)
    r

theorem foldl_updateFamily
    (family : Str) (parts : List (List Str))
    (acc : List IocRow × Nat) :
    (parts.foldl (updateFamily family) acc).1 =
      acc.1.map fun r =>
        parts.foldl (fun r part => fillFamily family part r) r := by
  induction parts generalizing acc with
  | nil => simp
  | cons part rest ih =>
      rw [List.foldl_cons, ih, updateFamily, List.map_map]
      rfl

theorem foldl_attribute
    (families : List (Str × List Str)) (acc : List IocRow × Nat) :
    (families.foldl
      (fun acc e =>
        (chunks existsChunk e.2).foldl (updateFamily e.1) acc)
      acc).1 = acc.1.map (attributeRow families) := by
  induction families generalizing acc with
  | nil => exact (List.map_id acc.1).symm
  | cons e rest ih =>
      rw [List.foldl_cons, ih, foldl_updateFamily, List.map_map]
      rfl

theorem foldl_fillFamily_bare
    (family : Str) (parts : List (List Str)) (r : IocRow) :
    (parts.foldl
      (fun r part => fillFamily family part r) r).bare =
      r.bare := by
  induction parts generalizing r with
  | nil => rfl
  | cons part rest ih =>
      rw [List.foldl_cons, ih, fillFamily_bare]

theorem attributeRow_bare
    (families : List (Str × List Str)) (r : IocRow) :
    (attributeRow families r).bare = r.bare := by
  unfold attributeRow
  induction families generalizing r with
  | nil => rfl
  | cons e rest ih =>
      rw [List.foldl_cons, ih, foldl_fillFamily_bare]

theorem map_value_of_bare
    {rows rows' : List IocRow}
    (hSame : rows.map IocRow.bare = rows'.map IocRow.bare) :
    rows.map IocRow.value = rows'.map IocRow.value := by
  have hValues := congrArg (List.map IocRow.value) hSame
  rw [List.map_map, List.map_map] at hValues
  exact hValues

/- The probes find the rows of the values. -/
theorem mem_probe
    {values : List Str} {iocs : List IocRow} {r : IocRow} :
    r ∈ probe values iocs ↔ r ∈ iocs ∧ r.value ∈ values := by
  unfold probe
  rw [List.mem_flatMap,
    ← mem_chunks (by decide : 0 < existsChunk) values]
  constructor
  · rintro ⟨part, hPart, hR⟩
    rw [List.mem_filter, List.contains_iff_mem] at hR
    exact ⟨hR.1, part, hPart, hR.2⟩
  · rintro ⟨hR, part, hPart, hValue⟩
    refine ⟨part, hPart, ?_⟩
    rw [List.mem_filter, List.contains_iff_mem]
    exact ⟨hR, hValue⟩

theorem raiseAlerts_eq
    (t : ImportTools) (budget : Nat) (new : List Candidate) :
    raiseAlerts t budget new = alertsWithin t budget new := by
  unfold alertsWithin
  induction new generalizing budget with
  | nil => simp [raiseAlerts]
  | cons c rest ih =>
      cases budget with
      | zero => simp [raiseAlerts]
      | succ budget =>
          rw [raiseAlerts]
          split
          · rename_i hQualifies
            rw [List.filter_cons_of_pos hQualifies,
              List.take_succ_cons, ih]
          · rename_i hNot
            rw [List.filter_cons_of_neg hNot, ih]

theorem alertsWithin_append
    (t : ImportTools) (budget : Nat)
    (first second : List Candidate) :
    alertsWithin t budget (first ++ second) =
      alertsWithin t budget first ++
        alertsWithin t
          (budget - (alertsWithin t budget first).length)
          second := by
  unfold alertsWithin
  rw [List.filter_append, List.take_append, List.length_take]
  congr 2
  omega

/- One import after another. -/
theorem Imports.append
    {store : IocStore} {first second : Sorted}
    {r more : IocStore × Tally}
    (hFirst : Imports store first r)
    (hSecond : Imports r.1 second more) :
    Imports store
      ⟨first.candidates ++ second.candidates,
        first.duplicates + second.duplicates,
        first.skipped + second.skipped⟩
      (more.1, r.2.add more.2) where
  inserted := by
    rw [Tally.add, hFirst.inserted, hSecond.inserted]
  imported := by
    rw [Tally.add, hFirst.imported, hSecond.imported,
      List.length_append]
  duplicates := by
    rw [Tally.add, hFirst.duplicates, hSecond.duplicates]
  skipped := by
    rw [Tally.add, hFirst.skipped, hSecond.skipped]
  values := by
    rw [hSecond.values, hFirst.values, List.map_append,
      List.append_assoc]
  rows := by
    rw [hSecond.rows, List.map_append, hFirst.rows]
    simp only [List.map_append, List.append_assoc]

theorem Raises.append
    {t : ImportTools} {budget : Nat} {store : IocStore}
    {first second : Sorted} {r more : IocStore × Tally}
    (hFirst : Raises t budget store first r)
    (hSecond :
      Raises t (budget - r.2.alertsRaised) r.1 second more) :
    Raises t budget store
      ⟨first.candidates ++ second.candidates,
        first.duplicates + second.duplicates,
        first.skipped + second.skipped⟩
      (more.1, r.2.add more.2) where
  raised := by
    rw [Tally.add, hSecond.raised, alertsWithin_append,
      List.length_append, ← hFirst.raised]
  alerts := by
    rw [hSecond.alerts, hFirst.alerts, alertsWithin_append,
      List.map_append, List.append_assoc, ← hFirst.raised]

variable [Unicode]
variable {t : ImportTools}
variable {now source : Str}

theorem sortBatch_row
    {known : List Str} {inds : List Indicator} :
    (sortBatch t now source known inds).candidates.map
        (fun c => c.row.value) =
      (sortBatch t now source known inds).candidates.map
        Candidate.value := by
  apply List.map_congr_left
  intro c hC
  rcases sortBatch_mem hC with ⟨ind, _, hRead⟩
  exact (readIndicator_some hRead).2.2.1

/- What the store lacks of a sub-batch, and what is skipped
of it. -/
theorem sortBatch_stored
    (store : IocStore) (inds : List Indicator) :
    (sortBatch t now source store.values inds).candidates =
        (sortBatch t now source [] inds).candidates.filter
          (fun c => !store.values.contains c.value) ∧
      (sortBatch t now source store.values inds).skipped =
        (sortBatch t now source [] inds).skipped :=
  sortBatch_filter inds fun v => by simp

/- The probes tell what the store holds of its values. -/
omit [Unicode] in
theorem probe_contains
    {values : List Str} {store : IocStore} {v : Str}
    (hValue : v ∈ values) :
    ((probe values store.iocs).map IocRow.value).contains v =
      store.values.contains v := by
  rw [Bool.eq_iff_iff, List.contains_iff_mem,
    List.contains_iff_mem, IocStore.values, List.mem_map,
    List.mem_map]
  constructor
  · rintro ⟨r, hR, hSame⟩
    exact ⟨r, (mem_probe.mp hR).1, hSame⟩
  · rintro ⟨r, hR, hSame⟩
    exact ⟨r, mem_probe.mpr ⟨hR, hSame ▸ hValue⟩, hSame⟩

/- A sub-batch with candidates, from what it sorted. -/
theorem importBatch_eq
    {budget : Nat} {store : IocStore} {inds : List Indicator}
    (hSome :
      (sortBatch t now source [] inds).candidates ≠ []) :
    importBatch t now source budget store inds =
      let s := sortBatch t now source [] inds
      let new :=
        (sortBatch t now source store.values inds).candidates
      let found :=
        probe (s.candidates.map Candidate.value) store.iocs
      let filled := attributeFamilies
        ((found.filter IocRow.blank).map IocRow.value)
        s.candidates store.iocs
      ({ recordSourceAssertions now s.candidates store with
          iocs := filled.1 ++ new.map Candidate.row
          alerts :=
            store.alerts ++
              (alertsWithin t budget new).map Candidate.alert },
        { inserted := new
          imported := new.length
          duplicates :=
            s.duplicates + (s.candidates.length - new.length)
          skipped := s.skipped
          alertsRaised := (alertsWithin t budget new).length
          attributed := filled.2 }) := by
  have hNew :
      ((sortBatch t now source [] inds).candidates.filter
          fun c =>
            !((probe
                ((sortBatch t now source [] inds).candidates.map
                  Candidate.value)
                store.iocs).map IocRow.value).contains c.value) =
        (sortBatch t now source store.values inds).candidates := by
    rw [(sortBatch_stored store inds).1]
    apply List.filter_congr
    intro c hC
    rw [probe_contains (List.mem_map_of_mem hC)]
  unfold importBatch
  simp only [hNew, raiseAlerts_eq, List.isEmpty_iff, hSome,
    if_false]

/- A sub-batch refines the sorting from what is stored. -/
theorem importBatch_spec
    (budget : Nat) (store : IocStore) (inds : List Indicator) :
    Imports store (sortBatch t now source store.values inds)
        (importBatch t now source budget store inds) ∧
      Raises t budget store
        (sortBatch t now source store.values inds)
        (importBatch t now source budget store inds) := by
  rcases @sortBatch_stored _ t now source store inds with
    ⟨hCandidates, hSkipped⟩
  have hAll := @sortBatch_total _ t now source inds []
  have hTotal := @sortBatch_total _ t now source inds store.values
  by_cases hNone :
      (sortBatch t now source [] inds).candidates = []
  · rw [hNone, List.filter_nil] at hCandidates
    have hImport :
        importBatch t now source budget store inds =
          (store, ⟨[], 0,
            (sortBatch t now source [] inds).duplicates,
            (sortBatch t now source [] inds).skipped, 0, 0⟩) := by
      unfold importBatch
      simp only [hNone, List.isEmpty_nil, if_true]
    rw [hImport]
    rw [hNone] at hAll
    rw [hCandidates] at hTotal
    simp only [List.length_nil] at hAll hTotal
    refine ⟨⟨hCandidates.symm, by rw [hCandidates]; rfl, ?_,
      hSkipped.symm, by simp [hCandidates],
      by simp [hCandidates]⟩, ⟨?_, ?_⟩⟩
    · simp only
      omega
    · simp [hCandidates, alertsWithin]
    · simp [hCandidates, alertsWithin]
  · have hFewer :
        (sortBatch t now source store.values
            inds).candidates.length ≤
          (sortBatch t now source [] inds).candidates.length := by
      rw [hCandidates]
      exact List.length_filter_le _ _
    have hFilled (u : List Str) (cs : List Candidate) :
        (attributeFamilies u cs store.iocs).1.map IocRow.bare =
          store.iocs.map IocRow.bare := by
      rw [attributeFamilies, foldl_attribute, List.map_map]
      apply List.map_congr_left
      intro r _
      exact attributeRow_bare _ r
    rw [importBatch_eq hNone]
    refine ⟨⟨rfl, rfl, ?_, hSkipped.symm, ?_, ?_⟩, ⟨rfl, rfl⟩⟩
    · simp only
      omega
    · simp only [IocStore.values, List.map_append]
      rw [map_value_of_bare (hFilled _ _), List.map_map]
      congr 1
      exact sortBatch_row
    · simp only [List.map_append, hFilled]

/- A row that reads the same at any time. -/
theorem readIndicator_value
    {now' source' : Str} {ind : Indicator} {c : Candidate}
    (hRead : readIndicator t now source ind = some c) :
    ∃ c', readIndicator t now' source' ind = some c' ∧
      c'.value = c.value := by
  unfold readIndicator at hRead ⊢
  simp only at hRead ⊢
  split at hRead
  · cases hRead
  · rename_i hGood
    rw [if_neg hGood]
    cases hRead
    exact ⟨_, rfl, rfl⟩

/- The sub-batches refine the sorting of the list. -/
theorem importChunks_spec
    (parts : List (List Indicator)) (budget : Nat)
    (store : IocStore) :
    Imports store
        (sortBatch t now source store.values parts.flatten)
        (importChunks t now source budget store parts) ∧
      Raises t budget store
        (sortBatch t now source store.values parts.flatten)
        (importChunks t now source budget store parts) := by
  induction parts generalizing budget store with
  | nil =>
      refine ⟨⟨rfl, rfl, rfl, rfl, ?_, ?_⟩, ⟨?_, ?_⟩⟩
      · simp [importChunks, sortBatch]
      · simp [importChunks, sortBatch]
      · simp [importChunks, sortBatch, alertsWithin, Tally.zero]
      · simp [importChunks, sortBatch, alertsWithin]
  | cons part rest ih =>
      rcases @importBatch_spec _ t now source budget store part
        with ⟨hFirst, hRaises⟩
      rcases ih
          (budget -
            (importBatch t now source budget store
              part).2.alertsRaised)
          (importBatch t now source budget store part).1 with
        ⟨hMore, hMoreRaises⟩
      rw [hFirst.values] at hMore hMoreRaises
      rw [List.flatten_cons, sortBatch_append, importChunks]
      exact ⟨hFirst.append hMore, hRaises.append hMoreRaises⟩

/- So does the import of a list, whatever the sub-batches. -/
theorem importIndicators_spec
    {batch : Nat}
    (hBatch : 0 < batch) (store : IocStore)
    (inds : List Indicator) :
    Imports store (sortBatch t now source store.values inds)
        (importIndicators t now source batch store inds) ∧
      Raises t maxIntelAlertsPerRun store
        (sortBatch t now source store.values inds)
        (importIndicators t now source batch store inds) := by
  have hSpec := @importChunks_spec _ t now source
    (chunks batch inds) maxIntelAlertsPerRun store
  rwa [flatten_chunks hBatch] at hSpec

end

---- Two Feeds That List One Domain

local instance importUnicode : Unicode := asciiTables

def plainTools : ImportTools where
  isDigitChar := isDigit
  hostOf _ _ := none
  ipHexOf _ _ := none
  regDomainOf _ _ := some (lit "evil.test")
  initialScore _ _ _ _ _ _ := 50
  alertMinConfidence := 85

/- An indicator of a feed, typed and rated by it. -/
def listedBy (feed family : Str) : Indicator where
  value := some (lit "evil.test")
  type := some (lit "domain")
  confidence := .none
  severity := some (lit "high")
  threatType := none
  tags := []
  actor := none
  malwareFamily := some family
  source := some feed
  firstSeen := none
  lastSeen := none
  reportId := none

def emptyStore : IocStore := ⟨[], [], [], []⟩

def importTime : Str := lit "2026-01-01T00:00:00+00:00"

def engineName : Str := lit "ThreatOrbit"

/- One sync of two feeds that list one domain. -/
def twoFeeds : List Indicator :=
  [listedBy (lit "osint:URLhaus") [],
    listedBy (lit "osint:Maltrail") (lit "emotet")]

end ThreatOrbit.Connectors
