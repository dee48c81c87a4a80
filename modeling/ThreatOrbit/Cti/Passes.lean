import ThreatOrbit.Cti.Ordering
import ThreatOrbit.Lib.Updates
import ThreatOrbit.Lib.Utc

/-
  One maintenance pass after another.

  A pass scans the indicators that are not known-good in any
  order, collects what is due of their status, their score
  and their expiry date, and writes it row by row. What is due
  is read off columns that the pass does not write.
-/

---- What Is Due

namespace ThreatOrbit.Cti

open Lib

open Intel (Instant IocLifecycle DecayRule)

section

/- A date as `_parse` reads it: the instant, and the offset
of the clock that it is written with, in microseconds. -/
structure Sighted where
  instant : Instant
  offset : Int

/- A row of `iocs`, up to the columns that a pass neither
reads nor writes. -/
structure StoredIoc where
  id : Str
  type : Str
  value : Str
  confidence : Int64
  lastSeen : Option Sighted
  status : Str
  sightings : Int64
  source : Option Str
  actor : Option Str
  malwareFamily : Option Str
  reportId : Option Str
  intelScore : Int
  validUntil : Option Str

/- `iocs`, with its primary key. -/
structure IocTable where
  rows : List StoredIoc
  nodup : (rows.map StoredIoc.id).Nodup

/- The other tables that a pass reads. -/
structure PassTables where
  observations : List Observation
  grades : List (Str × Str)
  verdicts : List VerdictRow
  rules : List DecayRuleRow

/- What of them is about one row: the rule of its type, the
number and the best grade of its sources, and the movement
of the verdicts. -/
structure Governing where
  rule : DecayRule
  sourceCount : Int
  grade : Str
  shift : Int

def PassTables.governing
    [Unicode]
    (t : PassTables)
    (row : StoredIoc) : Governing where
  rule := ruleFor t.rules (Unicode.lower row.type)
  sourceCount := (corrOf t.observations t.grades row.value).1
  grade := passGrade t.observations t.grades row.value row.source
  shift := defaultShift t.verdicts row.value

/- What `score_indicator` reads of a row. -/
def StoredIoc.indicator (row : StoredIoc) : Indicator where
  type := some row.type
  confidence := some row.confidence
  lastSeen := row.lastSeen.map Sighted.instant
  reportId := row.reportId
  actor := row.actor
  malwareFamily := row.malwareFamily

/- `max(0, (sightings or 1) - 1)`. -/
def StoredIoc.localSightings (row : StoredIoc) : Int :=
  max 0 ((if row.sightings.toInt = 0 then 1
    else row.sightings.toInt) - 1)

/- The offset of a clock as `isoformat` writes it. -/
def offsetText (offset : Int) : Str :=
  let size := offset.natAbs
  let seconds := size / 1000000
  (if offset < 0 then lit "-" else lit "+") ++
    pad 2 (seconds / 3600) ++ lit ":" ++
    pad 2 (seconds / 60 % 60) ++
    (if seconds % 60 = 0 ∧ size % 1000000 = 0 then []
    else
      lit ":" ++ pad 2 (seconds % 60) ++
        if size % 1000000 = 0 then []
        else lit "." ++ pad 6 (size % 1000000))

/- A clock, in microseconds since 1970, to the second. -/
def clockText (clock : Int) : Str :=
  isoLocal ((clock + 62135596800000000) / 1000000).toNat

/- `valid_until`. The calendar is that of the clock which the
date is written with; a score below zero is at its target
already, as 0 is. -/
def StoredIoc.expiry
    (F : Type)
    [Doubles F]
    (rule : DecayRule)
    (row : StoredIoc) : Except PyError (Option Str) :=
  match row.lastSeen with
  | none => .ok none
  | some seen =>
      match Intel.validDays F row.confidence.toInt.toNat rule with
      | none => .error .overflowError
      | some days => do
          let stop ← Intel.instant
            (seen.instant.micros + seen.offset + days)
          .ok (some
            (clockText stop.micros ++ offsetText seen.offset))

/- The status that a row should have. -/
def StoredIoc.target
    (F : Type)
    [Doubles F]
    (now : Instant)
    (rule : DecayRule)
    (row : StoredIoc) : IocLifecycle :=
  let seen := row.lastSeen.map Sighted.instant
  if effectiveOf F row.confidence.toInt seen now rule <
        rule.revokeScore ∨
      Doubles.exceeds (Intel.ageDays seen now : F)
        (rule.halfLifeDays * rule.maxAgeHalfLives) = true then
    .expired
  else .active

/- The three columns that a pass writes. -/
structure Due where
  status : Str
  score : Int
  validUntil : Option Str
deriving DecidableEq

variable [Unicode] [Capitals]

/- What a pass derives for a row. -/
def StoredIoc.due
    (F : Type)
    [Doubles F]
    (now : Instant)
    (g : Governing)
    (row : StoredIoc) : Except PyError Due := do
  let vu ← row.expiry F g.rule
  .ok {
    status := IocLifecycle.text (row.target F now g.rule)
    score :=
      (scoreRow F now row.indicator g.sourceCount g.grade
        row.localSightings g.shift).score
    validUntil := vu }

omit [Unicode] [Capitals] in
/- A row with these columns. -/
def StoredIoc.put (row : StoredIoc) (d : Due) : StoredIoc :=
  { row with
    status := d.status
    intelScore := d.score
    validUntil := d.validUntil }

end

---- The Pass

open Intel (Instant)

section

/- What a scan has collected. -/
structure Updates where
  statuses : List (Str × Str)
  scores : List (Int × Str)
  dates : List (Option Str × Str)
  expired : Nat
  reactivated : Nat
  rescored : Nat

def Updates.none : Updates := ⟨[], [], [], 0, 0, 0⟩

/- A row of the scan, with what is due of it. -/
def Updates.add
    (u : Updates)
    (row : StoredIoc)
    (d : Due) : Updates where
  dates :=
    if d.validUntil ≠ row.validUntil then
      u.dates ++ [(d.validUntil, row.id)]
    else u.dates
  statuses :=
    if d.status ≠ row.status then
      u.statuses ++ [(d.status, row.id)]
    else u.statuses
  expired :=
    if d.status ≠ row.status ∧ d.status = lit "expired" then
      u.expired + 1
    else u.expired
  reactivated :=
    if d.status ≠ row.status ∧ d.status ≠ lit "expired" then
      u.reactivated + 1
    else u.reactivated
  scores :=
    if d.score ≠ row.intelScore then
      u.scores ++ [(d.score, row.id)]
    else u.scores
  rescored :=
    if d.score ≠ row.intelScore then u.rescored + 1
    else u.rescored

variable [Unicode] [Capitals]

/- The loop over the rows of the scan. -/
def scanRows
    (F : Type)
    [Doubles F]
    (now : Instant)
    (t : PassTables) :
    Updates → List StoredIoc → Except PyError Updates
| u, [] => .ok u
| u, row :: rest => do
    let d ← row.due F now (t.governing row)
    scanRows F now t (u.add row d) rest

/- What `decay_iocs` returns. -/
structure Report where
  scanned : Nat
  expired : Nat
  reactivated : Nat
  rescored : Nat
  dated : Nat
deriving DecidableEq, Repr

def setStatus (v : Str) (r : StoredIoc) : StoredIoc :=
  { r with status := v }

def setScore (v : Int) (r : StoredIoc) : StoredIoc :=
  { r with intelScore := v }

def setValidUntil (v : Option Str) (r : StoredIoc) : StoredIoc :=
  { r with validUntil := v }

/- `decay_iocs`: the rows in the order of the scan, and the
table that they are written to. -/
def decayPass
    (F : Type)
    [Doubles F]
    (now : Instant)
    (t : PassTables)
    (scan rows : List StoredIoc) :
    Except PyError (Report × List StoredIoc) := do
  let u ← scanRows F now t .none scan
  let rows := updateMany StoredIoc.id setStatus rows u.statuses
  let rows := updateMany StoredIoc.id setScore rows u.scores
  let rows := updateMany StoredIoc.id setValidUntil rows u.dates
  .ok (⟨scan.length, u.expired, u.reactivated, u.rescored,
    u.dates.length⟩, rows)

/- The rows of `WHERE status != 'known-good'`, in the order
that the database returns them. -/
def Scans (rows scan : List StoredIoc) : Prop :=
  scan.Perm (rows.filter fun r => r.status != knownGood)

end

---- What A Pass Leaves

section

variable [Unicode] [Capitals]
variable {F : Type} [Doubles F]

/- What is due of a row does not depend on what a pass writes
to it. -/
theorem due_put
    (now : Instant) (g : Governing) (row : StoredIoc) (d : Due) :
    (row.put d).due F now g = row.due F now g :=
  rfl

omit [Capitals] in
theorem governing_put
    (t : PassTables) (row : StoredIoc) (d : Due) :
    t.governing (row.put d) = t.governing row :=
  rfl

/- The three columns of a row as they are. -/
def StoredIoc.current (row : StoredIoc) : Due :=
  ⟨row.status, row.intelScore, row.validUntil⟩

/- What is due of a row, or what it has where that raises. -/
def StoredIoc.dueOr
    (F : Type)
    [Doubles F]
    (now : Instant)
    (g : Governing)
    (row : StoredIoc) : Due :=
  match row.due F now g with
  | .ok d => d
  | .error _ => row.current

/- A row after a pass: known-good ones are left alone, and
the others have what is due of them. -/
def StoredIoc.refreshed
    (F : Type)
    [Doubles F]
    (now : Instant)
    (t : PassTables)
    (row : StoredIoc) : StoredIoc :=
  if row.status = knownGood then row
  else row.put (row.dueOr F now (t.governing row))

/- Each row of a scan has a date that can be written. -/
def AllDue
    (F : Type)
    [Doubles F]
    (now : Instant)
    (t : PassTables)
    (rows : List StoredIoc) : Prop :=
  ∀ row ∈ rows, row.status ≠ knownGood →
    ∃ d, row.due F now (t.governing row) = .ok d

theorem due_eq_dueOr
    {now : Instant} {g : Governing} {row : StoredIoc}
    (hDue : ∃ d, row.due F now g = .ok d) :
    row.due F now g = .ok (row.dueOr F now g) := by
  rcases hDue with ⟨d, hD⟩
  unfold StoredIoc.dueOr
  rw [hD]

/- What a scan collects, from what is due of its rows. -/
theorem scanRows_eq
    {now : Instant} {t : PassTables} {scan : List StoredIoc}
    {u : Updates}
    (hDue :
      ∀ row ∈ scan,
        ∃ d, row.due F now (t.governing row) = .ok d) :
    scanRows F now t u scan =
      .ok (scan.foldl (fun u row =>
        u.add row (row.dueOr F now (t.governing row))) u) := by
  induction scan generalizing u with
  | nil => rfl
  | cons row rest ih =>
      rw [List.forall_mem_cons] at hDue
      unfold scanRows
      rw [due_eq_dueOr hDue.1, List.foldl_cons]
      exact ih hDue.2

/- The updates that a scan collects, one column at a time. -/
omit [Unicode] [Capitals] in
theorem foldl_add
    (d : StoredIoc → Due) (scan : List StoredIoc) (u : Updates) :
    let v := scan.foldl (fun u row => u.add row (d row)) u
    v.statuses = u.statuses ++
        ((scan.filter fun row =>
          (d row).status != row.status).map
            fun row => ((d row).status, row.id)) ∧
      v.scores = u.scores ++
        ((scan.filter fun row =>
          (d row).score != row.intelScore).map
            fun row => ((d row).score, row.id)) ∧
      v.dates = u.dates ++
        ((scan.filter fun row =>
          (d row).validUntil != row.validUntil).map
            fun row => ((d row).validUntil, row.id)) := by
  induction scan generalizing u with
  | nil => simp
  | cons row rest ih =>
      rcases ih (u.add row (d row)) with
        ⟨hStatus, hScore, hDate⟩
      dsimp only
      rw [List.foldl_cons, hStatus, hScore, hDate]
      simp only [List.filter_cons, Updates.add, bne_iff_ne]
      refine ⟨?_, ?_, ?_⟩
      · split
        · simp
        · rfl
      · split
        · simp
        · rfl
      · split
        · simp
        · rfl

/- A column that is written only if it changes is written. -/
omit [Unicode] [Capitals] in
theorem put_of_changed
    (row : StoredIoc) (d : Due) :
    (if d.validUntil != row.validUntil then
        setValidUntil d.validUntil
          (if d.score != row.intelScore then
            setScore d.score
              (if d.status != row.status then
                setStatus d.status row
              else row)
          else
            if d.status != row.status then
              setStatus d.status row
            else row)
      else
        if d.score != row.intelScore then
          setScore d.score
            (if d.status != row.status then
              setStatus d.status row
            else row)
        else
          if d.status != row.status then
            setStatus d.status row
          else row) =
      row.put d := by
  rcases d with ⟨status, score, validUntil⟩
  simp only [bne_iff_ne, StoredIoc.put]
  split_ifs
  all_goals
    simp_all [setStatus, setScore, setValidUntil]

/- The three statements of a pass, one after another. -/
omit [Unicode] [Capitals] in
theorem writes_eq
    (d : StoredIoc → Due) {rows scan : List StoredIoc} {u : Updates}
    (hRows : (rows.map StoredIoc.id).Nodup)
    (hScan : Scans rows scan)
    (hU :
      u = scan.foldl (fun u row => u.add row (d row)) .none) :
    updateMany StoredIoc.id setValidUntil
        (updateMany StoredIoc.id setScore
          (updateMany StoredIoc.id setStatus rows u.statuses)
          u.scores)
        u.dates =
      rows.map fun row =>
        if row.status = knownGood then row
        else row.put (d row) := by
  rcases foldl_add d scan .none with ⟨hStatus, hScore, hDate⟩
  rw [hU, hStatus, hScore, hDate]
  simp only [Updates.none, List.nil_append, updateMany_eq_map,
    List.map_map]
  apply List.map_congr_left
  intro row hRow
  have hStatusId : ∀ b r, (setStatus b r).id = r.id :=
    fun _ _ => rfl
  have hScoreId : ∀ b r, (setScore b r).id = r.id :=
    fun _ _ => rfl
  have hDateId : ∀ b r, (setValidUntil b r).id = r.id :=
    fun _ _ => rfl
  simp only [Function.comp_apply]
  rw [touched_scan hStatusId hRows hScan
      (fun row => (d row).status) hRow rfl,
    touched_scan hScoreId hRows hScan
      (fun row => (d row).score) hRow (by split <;> rfl),
    touched_scan hDateId hRows hScan
      (fun row => (d row).validUntil) hRow
      (by split_ifs <;> rfl)]
  by_cases hGood : row.status = knownGood
  · simp [hGood]
  · have hScanned : (row.status != knownGood) = true :=
      bne_iff_ne.mpr hGood
    simp only [hScanned, Bool.true_and, if_neg hGood]
    exact put_of_changed row (d row)

/- A pass over rows that all have a date leaves each row
refreshed, whatever the order of the scan. -/
theorem decayPass_of_due
    {now : Instant} {t : PassTables} {rows scan : List StoredIoc}
    (hRows : (rows.map StoredIoc.id).Nodup)
    (hScan : Scans rows scan) (hDue : AllDue F now t rows) :
    ∃ report,
      decayPass F now t scan rows =
        .ok (report, rows.map (StoredIoc.refreshed F now t)) := by
  have hAll : ∀ row ∈ scan,
      ∃ d, row.due F now (t.governing row) = .ok d := by
    intro row hRow
    rw [hScan.mem_iff, List.mem_filter, bne_iff_ne] at hRow
    exact hDue row hRow.1 hRow.2
  unfold decayPass
  rw [scanRows_eq hAll]
  have hWrites := writes_eq
    (fun row => row.dueOr F now (t.governing row)) hRows hScan
    rfl
  simp only [bind, Except.bind, hWrites]
  exact ⟨_, rfl⟩

end

---- The Next Pass

section

variable [Unicode] [Capitals]
variable {F : Type} [Doubles F]

/- A row that has what is due of it. -/
def StoredIoc.UpToDate
    (F : Type)
    [Doubles F]
    (now : Instant)
    (t : PassTables)
    (row : StoredIoc) : Prop :=
  row.status ≠ knownGood →
    row.due F now (t.governing row) = .ok row.current

omit [Unicode] [Capitals] in
theorem add_current
    (u : Updates) (row : StoredIoc) :
    u.add row row.current = u := by
  simp [Updates.add, StoredIoc.current]

/- A scan of rows that are up to date collects nothing. -/
theorem scanRows_upToDate
    {now : Instant} {t : PassTables} {scan : List StoredIoc}
    {u : Updates}
    (hScan :
      ∀ row ∈ scan,
        row.due F now (t.governing row) = .ok row.current) :
    scanRows F now t u scan = .ok u := by
  induction scan with
  | nil => rfl
  | cons row rest ih =>
      rw [List.forall_mem_cons] at hScan
      unfold scanRows
      rw [hScan.1]
      simp only [bind, Except.bind, add_current]
      exact ih hScan.2

/- A pass over a table that is up to date reports that it
changed nothing, and changes nothing. -/
theorem decayPass_upToDate
    {now : Instant} {t : PassTables} {rows scan : List StoredIoc}
    (hScan : Scans rows scan)
    (hRows : ∀ row ∈ rows, row.UpToDate F now t) :
    decayPass F now t scan rows =
      .ok (⟨scan.length, 0, 0, 0, 0⟩, rows) := by
  have hAll : ∀ row ∈ scan,
      row.due F now (t.governing row) = .ok row.current := by
    intro row hRow
    rw [hScan.mem_iff, List.mem_filter, bne_iff_ne] at hRow
    exact hRows row hRow.1 hRow.2
  unfold decayPass
  rw [scanRows_upToDate hAll]
  rfl

/- A row that a pass has written is up to date. -/
theorem upToDate_refreshed
    {now : Instant} {t : PassTables} {row : StoredIoc}
    (hDue :
      row.status ≠ knownGood →
        ∃ d, row.due F now (t.governing row) = .ok d) :
    (row.refreshed F now t).UpToDate F now t := by
  unfold StoredIoc.refreshed
  split
  · rename_i hGood
    intro hOther
    exact absurd hGood hOther
  · rename_i hOther
    intro _
    rw [governing_put, due_put]
    exact due_eq_dueOr (hDue hOther)

/- What is due of a row can be told if its expiry date can. -/
theorem due_ok_iff
    (now : Instant) (g : Governing) (row : StoredIoc) :
    (∃ d, row.due F now g = .ok d) ↔
      ∃ vu, row.expiry F g.rule = .ok vu := by
  unfold StoredIoc.due
  cases row.expiry F g.rule with
  | error err => simp [bind, Except.bind]
  | ok vu => simp [bind, Except.bind]

/- A pass settles a table: whatever the order of its scan it
leaves the same rows, the next pass changes nothing and
reports so, known-good rows stay, and what every other row
is given is read off this row and what governs it. -/
structure Settles
    (F : Type)
    [Doubles F]
    (now : Instant)
    (t : PassTables)
    (table : IocTable)
    (after : List StoredIoc) : Prop where
  written :
    ∀ scan, Scans table.rows scan →
      ∃ report,
        decayPass F now t scan table.rows = .ok (report, after)
  again :
    ∀ scan, Scans after scan →
      decayPass F now t scan after =
        .ok (⟨scan.length, 0, 0, 0, 0⟩, after)
  spared :
    ∀ (i : Nat) (row : StoredIoc), table.rows[i]? = some row →
      row.status = knownGood → after[i]? = some row
  own :
    ∀ (i : Nat) (row : StoredIoc), table.rows[i]? = some row →
      row.status ≠ knownGood →
        ∃ d, row.due F now (t.governing row) = .ok d ∧
          after[i]? = some (row.put d)

theorem settles_of_due
    {now : Instant} {t : PassTables} {table : IocTable}
    (hDue : AllDue F now t table.rows) :
    Settles F now t table
      (table.rows.map (StoredIoc.refreshed F now t)) where
  written _ hScan := decayPass_of_due table.nodup hScan hDue
  again _ hScan := by
    refine decayPass_upToDate hScan fun row hRow => ?_
    rcases List.mem_map.mp hRow with ⟨old, hOld, rfl⟩
    exact upToDate_refreshed (hDue old hOld)
  spared i row hRow hGood := by
    rw [List.getElem?_map, hRow, Option.map_some,
      StoredIoc.refreshed, if_pos hGood]
  own i row hRow hOther := by
    have hMem := List.mem_of_getElem? hRow
    refine ⟨_, due_eq_dueOr (hDue row hMem hOther), ?_⟩
    rw [List.getElem?_map, hRow, Option.map_some,
      StoredIoc.refreshed, if_neg hOther]

/- A pass settles the table exactly if every row that is not
known-good has an expiry date that can be written, or none. -/
theorem decayPass_settles_iff
    (now : Instant)
    (t : PassTables)
    (table : IocTable) :
    (∃ after, Settles F now t table after) ↔
      ∀ row ∈ table.rows, row.status ≠ knownGood →
        ∃ vu, row.expiry F
          (ruleFor t.rules (Unicode.lower row.type)) = .ok vu := by
  constructor
  · rintro ⟨after, hSettles⟩ row hRow hOther
    rcases List.getElem?_of_mem hRow with ⟨i, hI⟩
    rcases hSettles.own i row hI hOther with ⟨d, hD, _⟩
    exact (due_ok_iff now (t.governing row) row).mp ⟨d, hD⟩
  · intro hDated
    refine ⟨_, settles_of_due fun row hRow hOther => ?_⟩
    exact (due_ok_iff now (t.governing row) row).mpr
      (hDated row hRow hOther)

end

---- Two Tables

local instance passesUnicode : Unicode := asciiTables
local instance passesCapitals : Capitals := asciiCapitals
noncomputable local instance passesDoubles : Doubles ℝ :=
  exactDoubles

/- No sources, no verdicts and no rules. -/
def bareTables : PassTables := ⟨[], [], [], []⟩

/- An address of some confidence, last seen then. -/
def seenAddress
    (confidence : Int64)
    (lastSeen : Option Sighted) : StoredIoc where
  id := lit "ioc-1"
  type := lit "ip"
  value := lit "203.0.113.7"
  confidence := confidence
  lastSeen := lastSeen
  status := lit "active"
  sightings := 1
  source := none
  actor := none
  malwareFamily := none
  reportId := none
  intelScore := 0
  validUntil := none

def addressTable
    (confidence : Int64)
    (lastSeen : Option Sighted) : IocTable where
  rows := [seenAddress confidence lastSeen]
  nodup := List.nodup_singleton _

def lastDay : Sighted where
  instant := ⟨253402214400000000, by norm_num⟩
  offset := 0

/- An address without a date of its last sighting settles. -/
theorem undated_settles :
    ∃ after,
      Settles ℝ epoch bareTables (addressTable 50 none) after :=
  (decayPass_settles_iff epoch bareTables
    (addressTable 50 none)).mpr fun row hRow _ => by
      rw [List.mem_singleton.mp hRow]
      exact ⟨none, rfl⟩

/- One that was last seen on the last day of the calendar
makes every pass raise. -/
theorem last_day_never_settles :
    ¬ ∃ after, Settles ℝ epoch bareTables
      (addressTable 10 (some lastDay)) after := by
  rintro ⟨after, hSettles⟩
  rcases hSettles.own 0 _ rfl (by decide) with ⟨d, hD, _⟩
  rcases (due_ok_iff epoch _ _).mp ⟨d, hD⟩ with ⟨vu, hVu⟩
  have hRule :
      (bareTables.governing
        (seenAddress 10 (some lastDay))).rule = fallbackRule :=
    rfl
  have hDays : Intel.validDays ℝ 10 fallbackRule =
      some (120 * 86400000000) := by
    unfold Intel.validDays Intel.daysUntil
    rw [if_pos (by decide)]
    rfl
  have hLate :
      Intel.instant (253402214400000000 + 0 +
          120 * 86400000000) =
        .error .overflowError := by
    unfold Intel.instant
    rw [dif_neg (by norm_num)]
  have hRaises :
      (seenAddress 10 (some lastDay)).expiry ℝ fallbackRule =
        .error .overflowError := by
    have hConfidence : (10 : Int64).toInt.toNat = 10 := by
      decide
    unfold StoredIoc.expiry seenAddress lastDay
    simp only [hConfidence, hDays, hLate, bind, Except.bind]
  rw [hRule, hRaises] at hVu
  cases hVu

end ThreatOrbit.Cti
