import ThreatOrbit.Detection.Groups
import ThreatOrbit.Hunting.Query
import ThreatOrbit.Lib.Iso
import ThreatOrbit.Lib.Run

/-
  Saved hunts over the events, run on a schedule: a run
  counts as new what matches and is younger than the last
  run, and raises an alert for it.
-/

---- Moments

namespace ThreatOrbit.Hunting

open Lib

/- A moment, in microseconds from the start of year 1: one of
the calendar, with a week of it before. -/
structure Moment where
  micros : Nat
  has_week : 604800 * 1000000 ≤ micros
  in_calendar : micros < calendarSeconds * 1000000

def Moment.second (m : Moment) : Nat :=
  m.micros / 1000000

/- A moment from the epoch on. -/
def Moment.sinceEpoch (m : Moment) : Int :=
  (m.micros : Int) - 62135596800000000

/- `now.replace(microsecond=0).isoformat()`. -/
def Moment.iso (m : Moment) : Str :=
  isoSecond m.second

theorem Moment.second_lt (m : Moment) :
    m.second < calendarSeconds := by
  have hBound := m.in_calendar
  unfold Moment.second
  omega

/- `RANGE_HOURS`. -/
def rangeHours : List (Str × Nat) :=
  [(lit "1h", 1), (lit "6h", 6), (lit "24h", 24),
    (lit "7d", 168)]

def windowStart (timeRange : Str) (clock : Moment) : Str :=
  let hours := (lookup timeRange rangeHours).getD 24
  isoSecond (clock.second - hours * 3600)

---- Searching

open Lib Detection

section

/- A row of `events`. -/
structure Stored where
  id : Str
  event : Event
deriving DecidableEq

/- `row.get(column)`. -/
def Stored.get (row : Stored) (column : Str) : PyVal :=
  if column = lit "id" then .str row.id
  else row.event.get column

/- What `ORDER BY ts DESC` does with rows: the rows of one
timestamp come in any order. -/
structure NewestFirst where
  order : List Stored → List Stored
  perm : ∀ rows, (order rows).Perm rows
  falling :
    ∀ rows,
      (order rows).Pairwise fun a b => b.event.ts ≤ a.event.ts

def keptColumns : List Str :=
  [lit "id", lit "ts", lit "category", lit "event_type",
    lit "src_ip", lit "dest_ip", lit "dest_port",
    lit "username", lit "hostname", lit "process_name",
    lit "action", lit "bytes_out", lit "mitre_tech_id",
    lit "raw"]

def Stored.kept (row : Stored) : List (Str × PyVal) :=
  keptColumns.map fun column => (column, row.get column)

variable [Unicode]

/- The text of a column, if it is filled. -/
def Stored.text (field : Str) (row : Stored) : Option Str :=
  match row.get field with
  | .none => none
  | .str [] => none
  | v => some (pyStr v)

/- The conditions of a search, free text among them. -/
def ParsedQuery.allConditions
    (p : ParsedQuery) : List Condition :=
  p.conditions ++ p.freetext.map fun text =>
    { field := some (lit "raw")
      op := some .contains
      value := .str text }

/- All of them. -/
def ParsedQuery.definition (p : ParsedQuery) : Definition where
  conditions := p.allConditions
  logic := some (lit "and")
  aggregation := none

variable [RegexEngine]

def matchingRows
    (d : Definition) :
    List Stored → Except PyError (List Stored)
| [] => .ok []
| row :: rest => do
    let hit ← matchesEvent row.event d
    let more ← matchingRows d rest
    .ok (if hit then row :: more else more)

/- The rows whose field has one of the texts. -/
def joinedRows
    (field : Str)
    (right left : List Stored) : List Stored :=
  let keys := right.filterMap (Stored.text field)
  left.filter fun row =>
    match row.text field with
    | none => false
    | some key => keys.contains key

/- The rows that meet the conditions of a search, if it has
any. -/
def conditionRows
    (p : ParsedQuery)
    (otherwise rows : List Stored) :
    Except PyError (List Stored) :=
  if p.allConditions.isEmpty then .ok otherwise
  else matchingRows p.definition rows

/- What a search keeps of some rows. -/
def searchMatches
    (p : ParsedQuery)
    (rows : List Stored) : Except PyError (List Stored) := do
  let left ← conditionRows p rows rows
  match p.join with
  | none => .ok left
  | some (field, query) =>
      let right ← conditionRows (parseQuery query) [] rows
      .ok (joinedRows field right left)

/- The rows by the text of a field, the most frequent
first. -/
def groupCounts
    (field : Str)
    (rows : List Stored) : List (Str × Nat) :=
  let groups := rows.foldl
    (fun groups row =>
      let key := (row.text field).getD (lit "-")
      setEntry key ((lookup key groups).getD 0 + 1) groups)
    []
  groups.mergeSort fun a b => decide (b.2 ≤ a.2)

structure SearchResult where
  scanned : Nat
  hits : Nat
  interpreted : ParsedQuery
  stats : Option (Str × List (Str × Nat))
  results : List (List (Str × PyVal))
  newHits : Option Nat
  newResults : Option (List (List (Str × PyVal)))

/- The rows of a window, the newest of them, as many as a
search reads. -/
def windowRows
    (since : Str)
    (table : List Stored) : List Stored :=
  table.filter fun row => decide (since ≤ row.event.ts)

def scanned
    (newest : NewestFirst)
    (since : Str)
    (table : List Stored) : List Stored :=
  (newest.order (windowRows since table)).take 5000

/- The rows younger than a timestamp. -/
def freshRows
    (since : Str)
    (rows : List Stored) : List Stored :=
  rows.filter fun row => decide (since < row.event.ts)

/- `event_search`, at a moment of the clock. -/
def eventSearch
    (newest : NewestFirst)
    (table : List Stored)
    (clock : Moment)
    (query timeRange : Str)
    (limit : Nat)
    (sinceIso : Option Str) : Except PyError SearchResult := do
  let parsed := parseQuery query
  let since := windowStart timeRange clock
  let matched ←
    searchMatches parsed (scanned newest since table)
  match parsed.stats with
  | some field =>
      .ok
        { scanned := (windowRows since table).length
          hits := matched.length
          interpreted := parsed
          stats :=
            some (field, (groupCounts field matched).take 50)
          results := []
          newHits := none
          newResults := none }
  | none =>
      let fresh := sinceIso.map fun last => freshRows last matched
      .ok
        { scanned := (windowRows since table).length
          hits := matched.length
          interpreted := parsed
          stats := none
          results := (matched.take limit).map Stored.kept
          newHits := fresh.map List.length
          newResults := fresh.map fun rows =>
            (rows.take limit).map Stored.kept }

end

---- Scheduled Runs

section

/- A saved hunt over the events. -/
structure HuntRow where
  id : Str
  name : Str
  query : Option Str
  technique : Option Str
  scheduleMinutes : Int
  autoAlert : Bool
  lastScheduled : Option Str
  lastRun : Option Str
  hitCount : Nat
  status : Str
deriving DecidableEq

/- What a scheduled hunt puts in an alert. -/
structure HuntAlert where
  title : Str
  severity : Str
  risk : Nat
  ruleName : Str
  srcIp : PyVal
  hostname : PyVal
  username : PyVal
  mitreTechId : PyVal
  description : Str
  rawLog : PyVal
  eventCount : Nat

/- A text that is there and not empty. -/
def filled : Option Str → Option Str
| some [] => none
| text => text

/- `" ".join(filter(None, [query, technique]))`. -/
def HuntRow.search (h : HuntRow) : Str :=
  joinWith (lit " ")
    ([h.query, h.technique].filterMap filled)

/- The alert of a run: the first result stands for them. -/
def huntAlert
    (h : HuntRow)
    (result : SearchResult)
    (newHits : Nat) : HuntAlert :=
  let fresh :=
    match result.newResults with
    | some (row :: rest) => row :: rest
    | _ => result.results
  let first := fresh.headD []
  let column (name : Str) : PyVal :=
    (lookup name first).getD .none
  let isFirst := (filled h.lastScheduled).isNone
  let count := natStr newHits
  { title :=
      if isFirst then
        lit "Scheduled hunt matched: " ++ h.name ++ lit " (" ++
          count ++ lit " hits)"
      else
        lit "Scheduled hunt newly matched: " ++ h.name ++
          lit " (" ++ count ++ lit " new)"
    severity := lit "medium"
    risk := 52
    ruleName := lit "Hunt · " ++ h.name
    srcIp := column (lit "src_ip")
    hostname := column (lit "hostname")
    username := column (lit "username")
    mitreTechId :=
      match filled h.technique with
      | some technique => .str technique
      | none => column (lit "mitre_tech_id")
    description :=
      lit "Saved hunt '" ++ h.name ++ lit "' (" ++ h.search ++
        (if isFirst then
          lit ") returned " ++ count ++
            lit " event(s) on its first scheduled run."
        else
          lit ") matched " ++ count ++
            lit " event(s) that were not there at the last " ++
            lit "check, out of " ++ natStr result.hits ++
            lit " in the last 24h.")
    rawLog := column (lit "raw")
    eventCount := newHits }

variable [IsoDates]

def HuntRow.isDue
    (h : HuntRow)
    (now : Moment) : Except PyError Bool :=
  match filled h.lastScheduled with
  | none => .ok true
  | some last =>
      match IsoDates.fromIso
          (replaceAll (lit "Z") (lit "+00:00") last) with
      | none => .ok true
      | some lastTime => do
          let gap ← timedeltaMinutes h.scheduleMinutes
          .ok (decide (gap ≤ now.sinceEpoch - lastTime))

variable [Unicode] [RegexEngine]

/- What a run of a hunt finds. -/
structure HuntOutcome where
  hits : Nat
  newHits : Nat
  alert : Option HuntAlert

/- One hunt over the events in `run_due_scheduled_hunts`: its
row afterwards, and what it finds if it is due. The hunts
of a call do not read each other's rows. -/
def runScheduled
    (newest : NewestFirst)
    (table : List Stored)
    (now clock : Moment)
    (h : HuntRow) :
    Except PyError (HuntRow × Option HuntOutcome) := do
  if h.scheduleMinutes ≤ 0 then
    .ok (h, none)
  else
    let due ← h.isDue now
    if due then
      let last := filled h.lastScheduled
      let result ←
        eventSearch newest table clock h.search (lit "24h") 200
          last
      let newHits :=
        if last.isSome then result.newHits.getD 0
        else result.hits
      let alert :=
        if 0 < newHits ∧ h.autoAlert then
          some (huntAlert h result newHits)
        else none
      .ok
        ({ h with
            lastScheduled := some now.iso
            lastRun := some now.iso
            hitCount := result.hits
            status := lit "scheduled" },
          some ⟨result.hits, newHits, alert⟩)
    else
      .ok (h, none)

end

---- What A Search Matches

section

variable [Unicode]

/- A condition on a text never raises. -/
omit [Unicode] in
theorem not_broken_of_str
    {c : Condition} {value : Str}
    (hValue : c.value = .str value) :
    c.broken = false := by
  unfold Condition.broken
  rw [hValue]
  cases c.op <;> simp [coerceNum]

/- The values of a parsed query are texts. -/
theorem str_of_parse
    {q : Str} {c : Condition}
    (hCond : c ∈ (parseQuery q).allConditions) :
    ∃ value, c.value = .str value := by
  rcases List.mem_append.mp hCond with hParsed | hFree
  · rcases List.mem_append.mp hParsed with hMember | hTerm
    · rcases List.mem_filterMap.mp hMember with ⟨m, _, hM⟩
      rcases Option.map_eq_some_iff.mp hM with ⟨_, _, rfl⟩
      exact ⟨_, rfl⟩
    · rcases List.mem_filterMap.mp hTerm with
        ⟨token, _, hParse⟩
      rcases parseTerm_value hParse with ⟨value, hValue, _⟩
      exact ⟨value, hValue⟩
  · rcases List.mem_map.mp hFree with ⟨text, _, rfl⟩
    exact ⟨text, rfl⟩

theorem definition_not_broken (q : Str) :
    (parseQuery q).definition.broken = false := by
  unfold Definition.broken
  rw [List.any_eq_false]
  intro c hC
  rcases str_of_parse hC with ⟨value, hValue⟩
  rw [not_broken_of_str hValue]
  simp

variable [RegexEngine]

/- Whether a row meets the conditions of a search. -/
def ParsedQuery.hits (p : ParsedQuery) (row : Stored) : Bool :=
  p.allConditions.isEmpty || p.definition.hits row.event

theorem matchingRows_ok
    {d : Definition}
    (hBroken : d.broken = false) (rows : List Stored) :
    matchingRows d rows =
      .ok (rows.filter fun row => d.hits row.event) := by
  induction rows with
  | nil => rfl
  | cons row rest ih =>
      simp only [matchingRows,
        matchesEvent_of_not_broken hBroken, ih, bind,
        Except.bind, List.filter_cons]

theorem conditionRows_ok
    (q : Str) (otherwise rows : List Stored) :
    conditionRows (parseQuery q) otherwise rows =
      .ok (if (parseQuery q).allConditions.isEmpty then
          otherwise
        else rows.filter (parseQuery q).hits) := by
  unfold conditionRows ParsedQuery.hits
  rw [matchingRows_ok (definition_not_broken q)]
  split
  · rfl
  · rename_i hSome
    simp [hSome]

/- The rows that a search keeps, of rows it reads all. -/
def matchedRows
    (p : ParsedQuery)
    (rows : List Stored) : List Stored :=
  match p.join with
  | none => rows.filter p.hits
  | some (field, query) =>
      let sub := parseQuery query
      joinedRows field
        (if sub.allConditions.isEmpty then []
          else rows.filter sub.hits)
        (rows.filter p.hits)

/- A search of a parsed query never raises. -/
theorem searchMatches_ok
    (q : Str) (rows : List Stored) :
    searchMatches (parseQuery q) rows =
      .ok (matchedRows (parseQuery q) rows) := by
  have hLeft :
      conditionRows (parseQuery q) rows rows =
        .ok (rows.filter (parseQuery q).hits) := by
    rw [conditionRows_ok]
    split
    · rename_i hEmpty
      unfold ParsedQuery.hits
      simp [hEmpty]
    · rfl
  unfold searchMatches matchedRows
  simp only [hLeft, conditionRows_ok, bind, Except.bind]
  cases (parseQuery q).join <;> rfl

omit [RegexEngine] in
theorem mem_joinedRows
    {field : Str} {right left : List Stored} {row : Stored} :
    row ∈ joinedRows field right left ↔
      row ∈ left ∧
        ∃ other ∈ right, ∃ key,
          row.text field = some key ∧
            other.text field = some key := by
  unfold joinedRows
  rw [List.mem_filter]
  apply and_congr_right
  intro _
  cases hText : row.text field with
  | none => simp
  | some key => simp [List.mem_filterMap]

/- What a search keeps depends on which rows there are. -/
theorem mem_matchedRows_congr
    (p : ParsedQuery) {rows others : List Stored}
    (hSame : ∀ row, row ∈ rows ↔ row ∈ others) (row : Stored) :
    row ∈ matchedRows p rows ↔ row ∈ matchedRows p others := by
  unfold matchedRows
  cases hJoin : p.join with
  | none => simp only [List.mem_filter, hSame]
  | some join =>
      simp only [mem_joinedRows, List.mem_filter, hSame]
      split
      · simp
      · simp only [List.mem_filter, hSame]

/- What a search keeps is among the rows that meet its
conditions, and all of them without a join. -/
theorem hits_of_mem_matchedRows
    {p : ParsedQuery} {rows : List Stored} {row : Stored}
    (hRow : row ∈ matchedRows p rows) :
    row ∈ rows ∧ p.hits row = true := by
  unfold matchedRows at hRow
  cases hJoin : p.join with
  | none =>
      rw [hJoin] at hRow
      exact List.mem_filter.mp hRow
  | some join =>
      rw [hJoin] at hRow
      exact List.mem_filter.mp (mem_joinedRows.mp hRow).1

end

---- What A Run Finds

section

variable [Unicode] [RegexEngine]

/- The rows that a search counts as new. -/
def countedRows
    (p : ParsedQuery)
    (last : Option Str)
    (matched : List Stored) : List Stored :=
  match last with
  | none => matched
  | some last =>
      if p.stats.isSome then [] else freshRows last matched

/- The rows of the last day that a hunt matches, and those of
them that it reads. -/
def HuntRow.matching
    (h : HuntRow)
    (table : List Stored)
    (clock : Moment) : List Stored :=
  matchedRows (parseQuery h.search)
    (windowRows (windowStart (lit "24h") clock) table)

def HuntRow.matched
    (newest : NewestFirst)
    (h : HuntRow)
    (table : List Stored)
    (clock : Moment) : List Stored :=
  matchedRows (parseQuery h.search)
    (scanned newest (windowStart (lit "24h") clock) table)

def HuntRow.afterRun
    (h : HuntRow)
    (now : Moment)
    (hits : Nat) : HuntRow :=
  { h with
    lastScheduled := some now.iso
    lastRun := some now.iso
    hitCount := hits
    status := lit "scheduled" }

theorem eventSearch_ok
    (newest : NewestFirst) (table : List Stored) (clock : Moment)
    (h : HuntRow) (limit : Nat) (last : Option Str) :
    ∃ result,
      eventSearch newest table clock h.search (lit "24h") limit
        last = .ok result ∧
      result.hits = (h.matched newest table clock).length ∧
      (if last.isSome then result.newHits.getD 0
        else result.hits) =
        (countedRows (parseQuery h.search) last
          (h.matched newest table clock)).length := by
  unfold eventSearch
  simp only [searchMatches_ok, bind, Except.bind]
  cases hStats : (parseQuery h.search).stats with
  | some field =>
      refine ⟨_, rfl, rfl, ?_⟩
      cases last with
      | none => rfl
      | some last => simp [countedRows, hStats]
  | none =>
      refine ⟨_, rfl, rfl, ?_⟩
      cases last with
      | none => rfl
      | some last => simp [countedRows, hStats, HuntRow.matched]

variable [IsoDates]

/- What `runScheduled` does: nothing to a hunt that is not
due, and a search for one that is. -/
theorem runScheduled_cases
    {newest : NewestFirst} {table : List Stored}
    {now clock : Moment} {h after : HuntRow}
    {found : Option HuntOutcome}
    (hRun :
      runScheduled newest table now clock h =
        .ok (after, found)) :
    (found = none ∧ after = h) ∨
      ∃ outcome,
        found = some outcome ∧
        after =
          h.afterRun now (h.matched newest table clock).length ∧
        outcome.hits = (h.matched newest table clock).length ∧
        outcome.newHits =
          (countedRows (parseQuery h.search)
            (filled h.lastScheduled)
            (h.matched newest table clock)).length ∧
        (outcome.alert.isSome ↔
          0 < outcome.newHits ∧ h.autoAlert = true) := by
  unfold runScheduled at hRun
  split at hRun
  · left
    cases hRun
    exact ⟨rfl, rfl⟩
  · cases hDue : h.isDue now with
    | error e =>
        rw [hDue] at hRun
        cases hRun
    | ok due =>
        rw [hDue] at hRun
        cases due with
        | false =>
            left
            cases hRun
            exact ⟨rfl, rfl⟩
        | true =>
            right
            rcases eventSearch_ok newest table clock h 200
              (filled h.lastScheduled) with
              ⟨result, hResult, hHits, hNew⟩
            simp only [bind, Except.bind, if_true, hResult]
              at hRun
            cases hRun
            refine ⟨_, rfl, ?_, hHits, hNew, ?_⟩
            · rw [hHits]
              rfl
            · dsimp only
              split
              · simp
              · simp

end

---- Insertions And Runs

section

variable [Unicode] [RegexEngine] [IsoDates]

/- A run of a hunt that was due, with the rows there were,
those it counted as new, and those of the last day that its
query matches. -/
structure Look where
  now : Moment
  table : List Stored
  counted : List Stored
  matching : List Stored
  outcome : HuntOutcome

/- The hunt, the events, the runs so far, and the time. -/
structure HuntState where
  hunt : HuntRow
  table : List Stored
  looks : List Look
  time : Nat

inductive HuntAction where
| insert (row : Stored) (stamp : Moment)
| visit (now clock : Moment)

/- One thing that happens, not before the last: an event is
inserted with the second it is inserted at, or
`run_due_scheduled_hunts` comes to the hunt. -/
inductive HuntStep
    (newest : NewestFirst) :
    HuntState → HuntAction → HuntState → Prop
| insert
    (s : HuntState)
    (row : Stored)
    (stamp : Moment)
    (hTime : s.time ≤ stamp.micros)
    (hId : row.id ∉ s.table.map Stored.id)
    (hStamp : row.event.ts = stamp.iso) :
    HuntStep newest s (.insert row stamp)
      { s with
        table := s.table ++ [row]
        time := stamp.micros }
| rest
    (s : HuntState)
    (now clock : Moment)
    (hTime : s.time ≤ now.micros)
    (hClock : now.micros ≤ clock.micros)
    (hRun :
      runScheduled newest s.table now clock s.hunt =
        .ok (s.hunt, none)) :
    HuntStep newest s (.visit now clock)
      { s with time := clock.micros }
| look
    (s : HuntState)
    (now clock : Moment)
    (after : HuntRow)
    (outcome : HuntOutcome)
    (hTime : s.time ≤ now.micros)
    (hClock : now.micros ≤ clock.micros)
    (hRun :
      runScheduled newest s.table now clock s.hunt =
        .ok (after, some outcome)) :
    HuntStep newest s (.visit now clock)
      { hunt := after
        table := s.table
        looks := s.looks ++
          [{ now := now
             table := s.table
             counted :=
               countedRows (parseQuery s.hunt.search)
                 (filled s.hunt.lastScheduled)
                 (s.hunt.matched newest s.table clock)
             matching := s.hunt.matching s.table clock
             outcome := outcome }]
        time := clock.micros }

/- The rows a search has to read: those younger than the last
run, and all of the last day at the first run or for a
join. -/
def HuntRow.needed
    (h : HuntRow)
    (table : List Stored)
    (clock : Moment) : List Stored :=
  let window := windowRows (windowStart (lit "24h") clock) table
  match filled h.lastScheduled, (parseQuery h.search).join with
  | some last, none => freshRows last window
  | _, _ => window

/- The hunt is clear at a step: no event that meets its
conditions is inserted in the second of its last run, and
the rows it has to read are not more than it reads. -/
def Clear (e : Transition HuntState HuntAction) : Prop :=
  match e.label with
  | .insert row stamp =>
      ∀ last ∈ e.pre.looks.getLast?,
        (parseQuery e.pre.hunt.search).hits row = true →
          stamp.second ≠ last.now.second
  | .visit _ clock =>
      (e.pre.hunt.needed e.pre.table clock).length ≤ 5000

/- The rows that came since an earlier run. -/
def Look.since (prev look : Look) : List Stored :=
  look.table.drop prev.table.length

/- A hunt that alerts and has not run yet, on an empty
table. -/
structure Waiting (s : HuntState) : Prop where
  auto_alert : s.hunt.autoAlert = true
  never_run : filled s.hunt.lastScheduled = none
  no_rows : s.table = []
  no_looks : s.looks = []

end

---- What A Search Reads

section

theorem mem_scanned
    {newest : NewestFirst} {since : Str} {table : List Stored}
    {row : Stored}
    (hRow : row ∈ scanned newest since table) :
    row ∈ windowRows since table := by
  have hOrder := List.mem_of_mem_take hRow
  exact (newest.perm _).mem_iff.mp hOrder

/- A search reads the whole window where it is small. -/
theorem mem_scanned_of_small
    {newest : NewestFirst} {since : Str} {table : List Stored}
    (hSmall : (windowRows since table).length ≤ 5000)
    (row : Stored) :
    row ∈ scanned newest since table ↔
      row ∈ windowRows since table := by
  have hLength :
      (newest.order (windowRows since table)).length ≤ 5000 := by
    rw [(newest.perm _).length_eq]
    exact hSmall
  unfold scanned
  rw [List.take_of_length_le hLength, (newest.perm _).mem_iff]

/- A search reads the rows younger than a timestamp where they
are few: a row that is not read is older than all that
are. -/
theorem mem_scanned_of_fresh
    {newest : NewestFirst} {since last : Str} {table : List Stored}
    (hFew :
      (freshRows last (windowRows since table)).length ≤ 5000)
    {row : Stored}
    (hRow : row ∈ windowRows since table)
    (hFresh : last < row.event.ts) :
    row ∈ scanned newest since table := by
  have hFalling := newest.falling (windowRows since table)
  have hPerm := newest.perm (windowRows since table)
  have hIn : row ∈ newest.order (windowRows since table) :=
    hPerm.mem_iff.mpr hRow
  unfold scanned
  by_contra hNot
  have hSplit :=
    List.take_append_drop 5000
      (newest.order (windowRows since table))
  have hDrop :
      row ∈ (newest.order (windowRows since table)).drop
        5000 := by
    rw [← hSplit, List.mem_append] at hIn
    exact hIn.resolve_left hNot
  have hFull :
      ((newest.order (windowRows since table)).take
        5000).length = 5000 := by
    rw [List.length_take]
    have hSome := List.length_pos_of_mem hDrop
    rw [List.length_drop] at hSome
    omega
  have hYoung :
      ∀ other ∈ (newest.order (windowRows since table)).take
        5000, decide (last < other.event.ts) = true := by
    intro other hOther
    rw [← hSplit, List.pairwise_append] at hFalling
    have hOlder := hFalling.2.2 other hOther row hDrop
    exact decide_eq_true (lt_of_lt_of_le hFresh hOlder)
  have hCount :
      (freshRows last
        (newest.order (windowRows since table))).length =
          (freshRows last (windowRows since table)).length :=
    (hPerm.filter _).length_eq
  have hMore :
      5000 <
        (freshRows last
          (newest.order (windowRows since table))).length := by
    unfold freshRows
    rw [← hSplit, List.filter_append, List.length_append,
      List.filter_eq_self.mpr hYoung, hFull]
    have hLater :
        row ∈ ((newest.order (windowRows since table)).drop
          5000).filter
            fun row => decide (last < row.event.ts) :=
      List.mem_filter.mpr ⟨hDrop, decide_eq_true hFresh⟩
    have hSome := List.length_pos_of_mem hLater
    omega
  omega

variable [Unicode] [RegexEngine]

/- A hunt that reads what it needs finds the rows younger
than its last run that its query matches. -/
theorem mem_matched_iff
    {newest : NewestFirst} {h : HuntRow} {table : List Stored}
    {clock : Moment} {last : Str}
    (hLast : filled h.lastScheduled = some last)
    (hNeeded : (h.needed table clock).length ≤ 5000) {row : Stored}
    (hFresh : last < row.event.ts) :
    row ∈ h.matched newest table clock ↔
      row ∈ h.matching table clock := by
  unfold HuntRow.needed at hNeeded
  rw [hLast] at hNeeded
  unfold HuntRow.matched HuntRow.matching
  cases hJoin : (parseQuery h.search).join with
  | some join =>
      rw [hJoin] at hNeeded
      apply mem_matchedRows_congr
      exact mem_scanned_of_small hNeeded
  | none =>
      rw [hJoin] at hNeeded
      unfold matchedRows
      rw [hJoin]
      dsimp only at hNeeded ⊢
      rw [List.mem_filter, List.mem_filter]
      constructor
      · rintro ⟨hIn, hHits⟩
        exact ⟨mem_scanned hIn, hHits⟩
      · rintro ⟨hIn, hHits⟩
        exact ⟨mem_scanned_of_fresh hNeeded hIn hFresh, hHits⟩

/- At its first run it finds all that its query matches. -/
theorem mem_matched_iff_first
    {newest : NewestFirst} {h : HuntRow} {table : List Stored}
    {clock : Moment}
    (hLast : filled h.lastScheduled = none)
    (hNeeded : (h.needed table clock).length ≤ 5000)
    (row : Stored) :
    row ∈ h.matched newest table clock ↔
      row ∈ h.matching table clock := by
  unfold HuntRow.needed at hNeeded
  rw [hLast] at hNeeded
  apply mem_matchedRows_congr
  exact mem_scanned_of_small hNeeded

/- What a hunt matches is in the table, and meets its
conditions. -/
theorem mem_matching
    {h : HuntRow} {table : List Stored} {clock : Moment}
    {row : Stored}
    (hRow : row ∈ h.matching table clock) :
    row ∈ table ∧ (parseQuery h.search).hits row = true := by
  rcases hits_of_mem_matchedRows hRow with ⟨hIn, hHits⟩
  exact ⟨List.mem_of_mem_filter hIn, hHits⟩

end

---- What Every Step Keeps

section

theorem isoSecond_ne_nil (second : Nat) :
    isoSecond second ≠ [] := by
  intro hNil
  have hLength := congrArg List.length hNil
  unfold isoSecond at hLength
  simp [length_pad] at hLength

theorem filled_iso (m : Moment) :
    filled (some m.iso) = some m.iso := by
  have hSome := isoSecond_ne_nil m.second
  unfold filled Moment.iso
  cases hIso : isoSecond m.second with
  | nil => exact absurd hIso hSome
  | cons c rest => rfl

/- A timestamp of a second up to a moment. -/
theorem isoSecond_le
    {u : Nat} {m : Moment}
    (hBound : u < calendarSeconds)
    (hTime : u * 1000000 ≤ m.micros) :
    isoSecond u ≤ m.iso := by
  refine not_lt.mp ?_
  intro hLess
  have hSecond :=
    (isoSecond_lt_iff m.second_lt hBound).mp hLess
  unfold Moment.second at hSecond
  omega

variable [Unicode] [RegexEngine]

/- A later run counts exactly what came since and matches. -/
def Exact (prev look : Look) : Prop :=
  ∀ row,
    row ∈ look.counted ↔
      row ∈ prev.since look ∧ row ∈ look.matching

/- What holds in every state of a run of clear steps of the
hunt with a given search. -/
structure HuntInv (search : Str) (s : HuntState) : Prop where
  auto_alert : s.hunt.autoAlert = true
  search_eq : s.hunt.search = search
  ids_nodup : (s.table.map Stored.id).Nodup
  stamps :
    ∀ row ∈ s.table, ∃ u,
      u < calendarSeconds ∧ u * 1000000 ≤ s.time ∧
        row.event.ts = isoSecond u
  tables : s.looks.Pairwise fun a b => a.table <+: b.table
  table_prefix : ∀ look ∈ s.looks, look.table <+: s.table
  scheduled :
    filled s.hunt.lastScheduled =
      s.looks.getLast?.map fun last => last.now.iso
  last_time : ∀ last ∈ s.looks.getLast?, last.now.micros ≤ s.time
  before_last :
    ∀ last ∈ s.looks.getLast?, ∀ row ∈ last.table,
      row.event.ts ≤ last.now.iso
  after_last :
    ∀ last ∈ s.looks.getLast?,
      ∀ row ∈ s.table.drop last.table.length,
        (parseQuery search).hits row = true →
          last.now.iso < row.event.ts
  counted : s.looks.IsChain Exact
  counted_first :
    ∀ look ∈ s.looks.head?, ∀ row,
      row ∈ look.counted ↔ row ∈ look.matching
  alerts :
    ∀ look ∈ s.looks,
      (look.outcome.alert.isSome ↔ look.counted ≠ [])

/- Before its first run a hunt has everything that is kept. -/
theorem HuntInv.start
    {s : HuntState}
    (hWaiting : Waiting s) :
    HuntInv s.hunt.search s := by
  rcases hWaiting with ⟨hAlert, hNever, hRows, hLooks⟩
  constructor
  · exact hAlert
  · rfl
  · simp [hRows]
  · simp [hRows]
  · simp [hLooks]
  · simp [hLooks]
  · simp [hLooks, hNever]
  · simp [hLooks]
  · simp [hLooks]
  · simp [hLooks]
  · simp [hLooks]
  · simp [hLooks]
  · simp [hLooks]

theorem HuntInv.insert
    {search : Str} {s : HuntState} {row : Stored} {stamp : Moment}
    (hInv : HuntInv search s) (hTime : s.time ≤ stamp.micros)
    (hId : row.id ∉ s.table.map Stored.id)
    (hStamp : row.event.ts = stamp.iso)
    (hClear :
      ∀ last ∈ s.looks.getLast?,
        (parseQuery s.hunt.search).hits row = true →
          stamp.second ≠ last.now.second) :
    HuntInv search
      { s with
        table := s.table ++ [row]
        time := stamp.micros } := by
  constructor
  · exact hInv.auto_alert
  · exact hInv.search_eq
  · rw [List.map_append, List.map_singleton,
      List.nodup_append]
    refine ⟨hInv.ids_nodup, List.nodup_singleton _, ?_⟩
    intro a hA b hB hSame
    rw [hSame, List.mem_singleton.mp hB] at hA
    exact hId hA
  · intro other hOther
    rcases List.mem_append.mp hOther with hOld | hNew
    · rcases hInv.stamps other hOld with
        ⟨u, hBound, hU, hTs⟩
      exact ⟨u, hBound, hU.trans hTime, hTs⟩
    · rw [List.mem_singleton.mp hNew]
      refine ⟨stamp.second, stamp.second_lt, ?_, hStamp⟩
      unfold Moment.second
      dsimp only
      omega
  · exact hInv.tables
  · intro look hLook
    exact (hInv.table_prefix look hLook).trans
      (List.prefix_append _ _)
  · exact hInv.scheduled
  · intro last hLast
    exact (hInv.last_time last hLast).trans hTime
  · exact hInv.before_last
  · intro last hLast other hOther hHits
    have hPrefix :=
      hInv.table_prefix last (List.mem_of_mem_getLast? hLast)
    rw [List.drop_append_of_le_length hPrefix.length_le]
      at hOther
    rcases List.mem_append.mp hOther with hOld | hNew
    · exact hInv.after_last last hLast other hOld hHits
    · rw [List.mem_singleton.mp hNew] at hHits ⊢
      rw [hInv.search_eq] at hClear
      have hOther := hClear last hLast hHits
      have hLastTime := hInv.last_time last hLast
      rw [hStamp]
      apply isoSecond_lt _ stamp.second_lt
      unfold Moment.second at hOther ⊢
      omega
  · exact hInv.counted
  · exact hInv.counted_first
  · exact hInv.alerts

/- The rows a run counts, after an earlier one: those that
came since and match. -/
theorem mem_countedRows
    {newest : NewestFirst} {search : Str} {s : HuntState}
    {clock : Moment} {last : Look}
    (hInv : HuntInv search s)
    (hStats : (parseQuery search).stats = none)
    (hNeeded : (s.hunt.needed s.table clock).length ≤ 5000)
    (hLast : s.looks.getLast? = some last) (row : Stored) :
    row ∈ countedRows (parseQuery s.hunt.search)
        (filled s.hunt.lastScheduled)
        (s.hunt.matched newest s.table clock) ↔
      row ∈ s.table.drop last.table.length ∧
        row ∈ s.hunt.matching s.table clock := by
  have hScheduled :
      filled s.hunt.lastScheduled = some last.now.iso := by
    rw [hInv.scheduled, hLast]
    rfl
  have hPrefix :=
    hInv.table_prefix last (List.mem_of_mem_getLast? hLast)
  rw [hScheduled, hInv.search_eq]
  simp only [countedRows, hStats, Option.isSome_none,
    Bool.false_eq_true, if_false, freshRows, List.mem_filter,
    decide_eq_true_eq]
  constructor
  · rintro ⟨hMatched, hFresh⟩
    have hMatching :=
      (mem_matched_iff hScheduled hNeeded hFresh).mp hMatched
    refine ⟨?_, hMatching⟩
    rcases hPrefix with ⟨more, hMore⟩
    have hIn := (mem_matching hMatching).1
    rw [← hMore, List.drop_left]
    rw [← hMore, List.mem_append] at hIn
    refine hIn.resolve_left ?_
    intro hOld
    exact not_lt.mpr (hInv.before_last last hLast row hOld)
      hFresh
  · rintro ⟨hNew, hMatching⟩
    have hHits := (mem_matching hMatching).2
    rw [hInv.search_eq] at hHits
    have hFresh := hInv.after_last last hLast row hNew hHits
    exact ⟨(mem_matched_iff hScheduled hNeeded hFresh).mpr
      hMatching, hFresh⟩

/- A run of the hunt keeps it, where it reads what it
needs. -/
theorem HuntInv.look
    {newest : NewestFirst} {search : Str} {s : HuntState}
    {now clock : Moment} {outcome : HuntOutcome} {hits : Nat}
    (hInv : HuntInv search s)
    (hStats : (parseQuery search).stats = none)
    (hTime : s.time ≤ now.micros)
    (hClock : now.micros ≤ clock.micros)
    (hNeeded : (s.hunt.needed s.table clock).length ≤ 5000)
    (hNew :
      outcome.newHits =
        (countedRows (parseQuery s.hunt.search)
          (filled s.hunt.lastScheduled)
          (s.hunt.matched newest s.table clock)).length)
    (hAlert :
      outcome.alert.isSome ↔
        0 < outcome.newHits ∧ s.hunt.autoAlert = true) :
    HuntInv search
      { hunt := s.hunt.afterRun now hits
        table := s.table
        looks := s.looks ++
          [{ now := now
             table := s.table
             counted :=
               countedRows (parseQuery s.hunt.search)
                 (filled s.hunt.lastScheduled)
                 (s.hunt.matched newest s.table clock)
             matching := s.hunt.matching s.table clock
             outcome := outcome }]
        time := clock.micros } := by
  constructor
  · exact hInv.auto_alert
  · exact hInv.search_eq
  · exact hInv.ids_nodup
  · intro row hRow
    rcases hInv.stamps row hRow with ⟨u, hBound, hU, hTs⟩
    exact ⟨u, hBound, hU.trans (hTime.trans hClock), hTs⟩
  · rw [List.pairwise_append]
    refine ⟨hInv.tables, List.pairwise_singleton _ _, ?_⟩
    intro look hLook added hAdded
    rw [List.mem_singleton.mp hAdded]
    exact hInv.table_prefix look hLook
  · intro look hLook
    rcases List.mem_append.mp hLook with hOld | hAdded
    · exact hInv.table_prefix look hOld
    · rw [List.mem_singleton.mp hAdded]
  · rw [List.getLast?_concat]
    exact filled_iso now
  · intro last hLast
    rw [List.getLast?_concat] at hLast
    cases hLast
    exact hClock
  · intro last hLast row hRow
    rw [List.getLast?_concat] at hLast
    cases hLast
    rcases hInv.stamps row hRow with ⟨u, hBound, hU, hTs⟩
    rw [hTs]
    exact isoSecond_le hBound (hU.trans hTime)
  · intro last hLast row hRow
    rw [List.getLast?_concat] at hLast
    cases hLast
    simp at hRow
  · rw [List.isChain_append]
    refine ⟨hInv.counted, List.isChain_singleton _, ?_⟩
    intro prev hPrev added hAdded
    cases hAdded
    exact mem_countedRows hInv hStats hNeeded hPrev
  · intro first hFirst row
    cases hLooks : s.looks with
    | nil =>
        rw [hLooks] at hFirst
        cases hFirst
        have hNever : filled s.hunt.lastScheduled = none := by
          rw [hInv.scheduled, hLooks]
          rfl
        dsimp only
        rw [hNever]
        exact mem_matched_iff_first hNever hNeeded row
    | cons head rest =>
        rw [hLooks] at hFirst
        cases hFirst
        refine hInv.counted_first first ?_ row
        rw [hLooks]
        rfl
  · intro look hLook
    rcases List.mem_append.mp hLook with hOld | hAdded
    · exact hInv.alerts look hOld
    · rw [List.mem_singleton.mp hAdded, hAlert, hNew,
        List.length_pos_iff]
      simp [hInv.auto_alert]

/- Every clear step keeps the invariant. -/
theorem HuntInv.keep [IsoDates]
    {newest : NewestFirst} {search : Str}
    (hStats : (parseQuery search).stats = none) (s : HuntState)
    (a : HuntAction) (t : HuntState) (hInv : HuntInv search s)
    (hStep : HuntStep newest s a t ∧ Clear ⟨s, a, t⟩) :
    HuntInv search t := by
  rcases hStep with ⟨hStep, hClear⟩
  cases hStep with
  | insert row stamp hTime hId hStamp =>
      exact hInv.insert hTime hId hStamp hClear
  | rest now clock hTime hClock hRun =>
      exact { hInv with
        stamps := fun row hRow =>
          let ⟨u, hBound, hU, hTs⟩ := hInv.stamps row hRow
          ⟨u, hBound, hU.trans (hTime.trans hClock), hTs⟩
        last_time := fun last hLast =>
          (hInv.last_time last hLast).trans
            (hTime.trans hClock) }
  | look now clock after outcome hTime hClock hRun =>
      rcases runScheduled_cases hRun with
        ⟨hNone, _⟩ | ⟨found, hFound, rfl, _, hNew, hAlert⟩
      · cases hNone
      · cases hFound
        exact hInv.look hStats hTime hClock hClear hNew hAlert

variable [IsoDates]

end

---- One Event After A Run

section

/- Whether a row may stand before another. -/
def younger (a b : Stored) : Bool :=
  decide (b.event.ts ≤ a.event.ts)

/- The rows by falling timestamp, those of one timestamp as
they stand. -/
def newestRows : NewestFirst where
  order rows := rows.mergeSort younger
  perm rows := List.mergeSort_perm rows younger
  falling rows := by
    have hTrans (a b c : Stored)
        (hAB : younger a b = true)
        (hBC : younger b c = true) :
        younger a c = true := by
      unfold younger at *
      simp only [decide_eq_true_eq] at *
      exact hBC.trans hAB
    have hTotal (a b : Stored) :
        (younger a b || younger b a) = true := by
      unfold younger
      simp only [Bool.or_eq_true, decide_eq_true_eq]
      exact le_total _ _
    have hSorted := List.pairwise_mergeSort hTrans hTotal rows
    unfold younger at hSorted ⊢
    simpa using hSorted

variable [Unicode]

theorem needed_length_le
    (h : HuntRow) (table : List Stored) (clock : Moment) :
    (h.needed table clock).length ≤ table.length := by
  have hWindow :
      (windowRows (windowStart (lit "24h") clock)
        table).length ≤ table.length :=
    List.length_filter_le _ _
  unfold HuntRow.needed
  dsimp only
  split
  · exact (List.length_filter_le _ _).trans hWindow
  · exact hWindow

variable [RegexEngine] [IsoDates]

theorem runScheduled_of_due
    (newest : NewestFirst) (table : List Stored) {now : Moment}
    (clock : Moment) {h : HuntRow}
    (hSchedule : 0 < h.scheduleMinutes)
    (hDue : h.isDue now = .ok true) :
    ∃ outcome,
      runScheduled newest table now clock h =
        .ok
          (h.afterRun now (h.matched newest table clock).length,
            some outcome) := by
  rcases eventSearch_ok newest table clock h 200
    (filled h.lastScheduled) with ⟨result, hResult, hHits, _⟩
  unfold runScheduled
  rw [if_neg (not_le.mpr hSchedule), hDue]
  simp only [bind, Except.bind, if_true, hResult, ← hHits]
  exact ⟨_, rfl⟩

end

---- Two Runs And One Event

local instance scheduledUnicode : Unicode := asciiTables

local instance scheduledPatterns : RegexEngine := noPatterns

local instance scheduledDates : IsoDates := newYearDates

/- A moment of the first day of a year. -/
def newYearPlus
    (micros : Nat)
    (hDay : micros < 86400 * 1000000) : Moment where
  micros := 63902822400 * 1000000 + micros
  has_week := by omega
  in_calendar := by
    unfold calendarSeconds calendarDays
    omega

/- Midnight, and two hours later. -/
def midnight : Moment := newYearPlus 0 (by decide)

def twoOClock : Moment :=
  newYearPlus (7200 * 1000000) (by decide)

/- A hunt for every event, each hour. -/
def everyEvent : HuntRow where
  id := lit "H-1"
  name := lit "Every event"
  query := none
  technique := none
  scheduleMinutes := 60
  autoAlert := true
  lastScheduled := none
  lastRun := none
  hitCount := 0
  status := lit "idle"

/- An event that is stored at a moment. -/
def storedAt (stamp : Moment) : Stored where
  id := lit "E-1"
  event := ⟨stamp.iso, []⟩

/- The query of the hunt: no condition, no join, no
count. -/
theorem parseQuery_nil :
    (parseQuery []).allConditions = [] ∧
      (parseQuery []).join = none ∧
      (parseQuery []).stats = none :=
  ⟨rfl, rfl, rfl⟩

theorem search_everyEvent (hits : Nat) :
    (everyEvent.afterRun midnight hits).search = [] :=
  rfl

/- An event of the day is in the window, and matches. -/
theorem storedAt_matching
    {stamp : Moment}
    (hAfter : midnight.micros ≤ stamp.micros) (hits : Nat) :
    storedAt stamp ∈
      (everyEvent.afterRun midnight hits).matching
        [storedAt stamp] twoOClock := by
  rcases parseQuery_nil with ⟨hNone, hJoin, _⟩
  have hWindow :
      storedAt stamp ∈
        windowRows (windowStart (lit "24h") twoOClock)
          [storedAt stamp] := by
    refine List.mem_filter.mpr
      ⟨List.mem_singleton_self _, decide_eq_true ?_⟩
    refine not_lt.mp ?_
    intro hLess
    have hBound : twoOClock.second - 24 * 3600 <
        calendarSeconds := by
      decide
    have hSecond : stamp.second < twoOClock.second - 24 * 3600 :=
      (isoSecond_lt_iff stamp.second_lt hBound).mp hLess
    unfold Moment.second at hSecond
    have hTwo : twoOClock.micros = 63902829600000000 := rfl
    have hZero : midnight.micros = 63902822400000000 := rfl
    omega
  unfold HuntRow.matching
  rw [search_everyEvent]
  unfold matchedRows
  rw [hJoin]
  refine List.mem_filter.mpr ⟨hWindow, ?_⟩
  unfold ParsedQuery.hits
  rw [hNone]
  rfl

end ThreatOrbit.Hunting
