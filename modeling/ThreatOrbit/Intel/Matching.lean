import ThreatOrbit.Lib.Grouping
import ThreatOrbit.Lib.Run

/-
  Local telemetry against the indicators of the store.

  A pass takes the events that no pass has examined, records
  a sighting for every channel of an event that carries an
  active indicator, raises one standing alert per value, and
  marks the events.
-/

---- Tables

namespace ThreatOrbit.Intel

open Lib

/- The columns of `events` the pass reads and marks. -/
structure EventRow where
  id : Str
  ts : Str
  srcIp : Option Str
  destIp : Option Str
  destHost : Option Str
  url : Option Str
  orgId : Option Str
  tiChecked : Bool
deriving DecidableEq, Repr

/- The `events` table. Ids are a primary key. -/
structure EventTable where
  rows : List EventRow
  nodup : (rows.map EventRow.id).Nodup

/- The status of an indicator. -/
inductive IocStatus where
| active
| expired
| knownGood
deriving DecidableEq, Repr

/- The columns of `iocs` that a pass reads or writes. -/
structure Ioc where
  id : Str
  type : Str
  value : Str
  threatType : Option Str
  confidence : Int
  severity : Option Str
  source : Option Str
  actor : Option Str
  lastSeen : Option Str
  status : IocStatus
  sightings : Nat
  intelScore : Option Int
deriving DecidableEq, Repr

/- The `iocs` table. Ids are UUIDs and a primary key; values
are no key. -/
structure IocTable where
  rows : List Ioc
  nodup : (rows.map Ioc.id).Nodup
  named : ∀ r ∈ rows, r.id ≠ []

/- A row of `ioc_sightings`. -/
structure Sighting where
  iocId : Str
  ts : Str
  source : Str
  context : Str
deriving DecidableEq, Repr

/- The columns of `alerts` that an intel match fills. -/
structure AlertRow where
  ts : Str
  title : Str
  severity : Option Str
  riskScore : Nat
  ruleId : Str
  ruleName : Str
  srcIp : Option Str
  description : Str
  tiHits : Nat
  tiValue : Option Str
  orgId : Str
deriving DecidableEq, Repr

/- The tables a pass works on. -/
structure IntelStore where
  events : EventTable
  iocs : IocTable
  sightings : List Sighting
  alerts : List AlertRow

---- Sightings

/- The bump of the asserted confidence per sighting, and its
cap. -/
def sightingBoost : Int := 8

def confidenceCap : Int := 100

/- `UPDATE iocs SET sightings=sightings+1, … WHERE id=…`. -/
def Ioc.sighted
    (now : Str)
    (confidence : Int)
    (r : Ioc) : Ioc :=
  { r with
    sightings := r.sightings + 1
    lastSeen := some now
    confidence := confidence
    status :=
      if r.status = .knownGood then .knownGood else .active }

/- The update of the row with an id. -/
def Ioc.sightedAt
    (now : Str)
    (confidence : Int)
    (id : Str)
    (r : Ioc) : Ioc :=
  if r.id = id then r.sighted now confidence else r

theorem Ioc.sightedAt_id
    (now : Str) (confidence : Int) (id : Str) (r : Ioc) :
    (r.sightedAt now confidence id).id = r.id := by
  unfold sightedAt
  split
  · rfl
  · rfl

def IocTable.sight
    (t : IocTable)
    (now : Str)
    (confidence : Int)
    (id : Str) : IocTable where
  rows := t.rows.map (Ioc.sightedAt now confidence id)
  nodup := by
    have hIds :
        (t.rows.map (Ioc.sightedAt now confidence id)).map
          Ioc.id = t.rows.map Ioc.id := by
      rw [List.map_map]
      exact List.map_congr_left
        (fun r _ => r.sightedAt_id now confidence id)
    rw [hIds]
    exact t.nodup
  named := by
    intro r hr
    rcases List.mem_map.mp hr with ⟨r', hr', rfl⟩
    rw [r'.sightedAt_id]
    exact t.named r' hr'

/- Record a fresh observation of the indicator with an id:
nothing for an empty or unknown id. -/
def recordSighting
    (s : IntelStore)
    (now iocId source context : Str) : IntelStore :=
  if iocId = [] then
    s
  else
    match s.iocs.rows.find? (fun r => r.id = iocId) with
    | none => s
    | some row =>
        { s with
          sightings :=
            s.sightings ++
              [⟨row.id, now, source, context.take 500⟩]
          iocs :=
            s.iocs.sight now
              (min confidenceCap
                (row.confidence + sightingBoost)) row.id }

---- A Pass

/- A text that is not empty. -/
def filled : Option Str → Option Str
| some [] => none
| column => column

/- The observables of an event: its addresses, the name it
was aimed at, and the full URL. -/
def EventRow.channels [Unicode] (e : EventRow) : List Str :=
  let host := Unicode.lower (strip (e.destHost.getD []))
  [e.srcIp, e.destIp, some host, e.url].filterMap filled

/- The events of a batch under each value they carry. -/
def candidates [Unicode]
    (batch : List EventRow) : List (Str × List EventRow) :=
  collect (batch.flatMap fun e =>
    e.channels.map fun value => (value, e))

/- The bound on the list of one lookup. -/
def tiChunk : Nat := 400

/- `hits[row.value] = row`. -/
def remember
    (found : Str → Option Ioc)
    (r : Ioc) : Str → Option Ioc :=
  Function.update found r.value (some r)

/- The rows one lookup finds, by value: the last one of a
value wins. -/
def lookupChunk
    (iocs : List Ioc)
    (found : Str → Option Ioc)
    (chunk : List Str) : Str → Option Ioc :=
  (iocs.filter fun r =>
      decide (r.status = .active) &&
        chunk.contains r.value).foldl remember found

/- The active indicators among the values. -/
def hits
    (iocs : List Ioc)
    (values : List Str) : Str → Option Ioc :=
  (chunks tiChunk values).foldl (lookupChunk iocs)
    (fun _ => none)

/- Whether a match deserves an alert. -/
def tiAlertable [Unicode]
    (severity : Option Str)
    (score : Option Int) : Bool :=
  [lit "critical", lit "high"].contains
      (Unicode.lower (severity.getD [])) ||
    decide (75 ≤ score.getD 0)

/- The risk of an alert by its severity. -/
def riskOf (severity : Option Str) : Nat :=
  match severity with
  | none => 50
  | some sev =>
      (lookup sev [(lit "critical", 90), (lit "high", 74),
        (lit "medium", 50), (lit "low", 26),
        (lit "info", 12)]).getD 50

/- The alert row of an intel match. -/
def alertFromIntel
    (now : Str)
    (ioc : Ioc)
    (orgId : Str) : AlertRow :=
  let source := orStr ioc.source (lit "CTI")
  { ts := now
    title :=
      lit "Threat intel: malicious " ++ ioc.type ++ lit " " ++
        ioc.value
    severity := ioc.severity
    riskScore := riskOf ioc.severity
    ruleId := lit "R-ENGINE"
    ruleName := lit "ThreatIntel · IOC match"
    srcIp :=
      if ioc.type = lit "ip" then some ioc.value else none
    description :=
      orStr ioc.threatType (lit "Malicious indicator") ++
        lit " ingested from " ++ source ++
        (match filled ioc.actor with
        | some actor => lit ", attributed to " ++ actor
        | none => []) ++
        lit "."
    tiHits := 1
    tiValue := some ioc.value
    orgId := orgId }

/- The rule of the standing alerts. -/
def tiRule : Str := lit "R-TIMATCH"

/- Whether a row is the standing alert of a value. -/
def AlertRow.standsFor (value : Str) (a : AlertRow) : Bool :=
  a.ruleId = tiRule ∧ a.tiValue = some value

/- The loop over the candidates: the tables, the alerts
raised and the values alerted so far. -/
structure PassState where
  store : IntelStore
  raised : Nat
  alerted : List Str

/- The source of the sightings a pass records. -/
def siemEvent : Str := lit "siem:event"

/- The sightings of one value. -/
def recordEvents
    (now : Str)
    (ioc : Ioc)
    (value : Str)
    (events : List EventRow)
    (s : IntelStore) : IntelStore :=
  events.foldl
    (fun s e =>
      recordSighting s now ioc.id siemEvent
        (lit "event " ++ e.id ++ lit " matched " ++ value))
    s

def matchCandidate [Unicode]
    (now : Str)
    (found : Str → Option Ioc)
    (st : PassState)
    (c : Str × List EventRow) : PassState :=
  match found c.1 with
  | none => st
  | some ioc =>
      let store := recordEvents now ioc c.1 c.2 st.store
      if !tiAlertable ioc.severity ioc.intelScore then
        { st with store := store }
      else if st.alerted.contains c.1 then
        { st with store := store }
      else
        let alerted := c.1 :: st.alerted
        if store.alerts.any (AlertRow.standsFor c.1) then
          { st with store := store, alerted := alerted }
        else
          let orgId :=
            orStr (c.2.head?.bind EventRow.orgId)
              (lit "org-default")
          let alert :=
            { alertFromIntel now ioc orgId with
              ruleId := tiRule }
          { store :=
              { store with alerts := store.alerts ++ [alert] }
            raised := st.raised + 1
            alerted := alerted }

/- `UPDATE events SET ti_checked=1 WHERE id IN (…)`. -/
def EventRow.checkIn
    (ids : List Str)
    (r : EventRow) : EventRow :=
  if ids.contains r.id then { r with tiChecked := true }
  else r

theorem EventRow.checkIn_id
    (ids : List Str) (r : EventRow) :
    (r.checkIn ids).id = r.id := by
  unfold checkIn
  split
  · rfl
  · rfl

def EventTable.check
    (t : EventTable)
    (ids : List Str) : EventTable where
  rows := t.rows.map (EventRow.checkIn ids)
  nodup := by
    have hIds :
        (t.rows.map (EventRow.checkIn ids)).map EventRow.id =
          t.rows.map EventRow.id := by
      rw [List.map_map]
      exact List.map_congr_left (fun r _ => r.checkIn_id ids)
    rw [hIds]
    exact t.nodup

/- A pass over a batch of unexamined events: the tables it
leaves and the number of alerts it raised. -/
def matchThreatIntel [Unicode]
    (s : IntelStore)
    (now : Str)
    (batch : List EventRow) : IntelStore × Nat :=
  if batch = [] then
    (s, 0)
  else
    let found :=
      hits s.iocs.rows ((candidates batch).map Prod.fst)
    let st :=
      (candidates batch).foldl (matchCandidate now found)
        ⟨s, 0, []⟩
    ({ st.store with
        events :=
          (chunks tiChunk (batch.map EventRow.id)).foldl
            EventTable.check st.store.events },
      st.raised)

/- `LIMIT`: a negative bound is none. -/
def takeLimit {α : Type} (limit : Int) (l : List α) : List α :=
  if limit < 0 then l else l.take limit.toNat

/- `SELECT … WHERE ti_checked=0 ORDER BY ts LIMIT …`: rows of
one `ts` come in whatever order the backend returns them. -/
def EventTable.Selects
    (t : EventTable)
    (limit : Int)
    (batch : List EventRow) : Prop :=
  ∃ sorted : List EventRow,
    sorted.Perm (t.rows.filter fun r => !r.tiChecked) ∧
    sorted.Pairwise (fun a b => a.ts ≤ b.ts) ∧
    batch = takeLimit limit sorted

---- Ingests And Passes

inductive IntelLabel where
| ingest (rows : List EventRow)
| pass (now : Str) (limit : Int) (batch : List EventRow)

/- The events a step examines. -/
def IntelLabel.examined : IntelLabel → List EventRow
| .ingest _ => []
| .pass _ _ batch => batch

/- An ingest inserts unexamined events with new ids; a pass
examines a batch. -/
inductive IntelStep [Unicode] :
    IntelStore → IntelLabel → IntelStore → Prop
| ingest
    (s : IntelStore)
    (rows : List EventRow)
    (hNew : ∀ r ∈ rows, r.tiChecked = false)
    (hIds : ((s.events.rows ++ rows).map EventRow.id).Nodup) :
    IntelStep s (.ingest rows)
      { s with events := ⟨s.events.rows ++ rows, hIds⟩ }
| pass
    (s : IntelStore)
    (now : Str)
    (limit : Int)
    (batch : List EventRow)
    (hBatch : s.events.Selects limit batch) :
    IntelStep s (.pass now limit batch)
      (matchThreatIntel s now batch).1

/- The events examined along a run, pass by pass. -/
def examined
    (trace : List (Transition IntelStore IntelLabel)) :
    List EventRow :=
  trace.flatMap fun e => e.label.examined

/- One of the channels of the event carries the value. -/
def EventRow.observes [Unicode]
    (value : Str)
    (e : EventRow) : Bool :=
  e.srcIp = some value ∨ e.destIp = some value ∨
    e.destHost.map Unicode.lower = some value ∨
    e.url = some value

/- The sightings that passes recorded for an indicator. -/
def IntelStore.observations
    (s : IntelStore)
    (iocId : Str) : Nat :=
  s.sightings.countP fun x =>
    x.iocId = iocId ∧ x.source = siemEvent

/- The standing alerts of a value. -/
def IntelStore.standing (s : IntelStore) (value : Str) : Nat :=
  s.alerts.countP (AlertRow.standsFor value)

/- The condition on an event and a value: the value is not
empty, trimming the host the event was aimed at does not
change whether it is the value, and at most one channel
carries the value. -/
structure OneChannel [Unicode]
    (e : EventRow)
    (value : Str) : Prop where
  filled : value ≠ []
  trimmed :
    ∀ host, e.destHost = some host →
      (Unicode.lower host = value ↔
        Unicode.lower (strip host) = value)
  once :
    [e.srcIp, e.destIp, e.destHost.map Unicode.lower,
      e.url].count (some value) ≤ 1

/- The condition on a step: no two active indicators have one
value, and every event it examines carries the value of
each on one channel at most. -/
def CountsOnce [Unicode]
    (e : Transition IntelStore IntelLabel) : Prop :=
  ((e.pre.iocs.rows.filter fun r => r.status = .active).map
    Ioc.value).Nodup ∧
  ∀ ev ∈ e.label.examined, ∀ r ∈ e.pre.iocs.rows,
    r.status = .active → OneChannel ev r.value

---- Lookups

/- A value is found as an active row that has it. -/
def Finds
    (iocs : List Ioc)
    (found : Str → Option Ioc) : Prop :=
  ∀ value r, found value = some r →
    r ∈ iocs ∧ r.status = .active ∧ r.value = value

/- One lookup keeps what was found an active row, and finds
every row it looks for. -/
theorem lookupChunk_spec
    {iocs : List Ioc} {found : Str → Option Ioc}
    (chunk : List Str) (hFinds : Finds iocs found) :
    Finds iocs (lookupChunk iocs found chunk) ∧
    (∀ value, (found value).isSome →
      (lookupChunk iocs found chunk value).isSome) ∧
    (∀ r ∈ iocs, r.status = .active → r.value ∈ chunk →
      (lookupChunk iocs found chunk r.value).isSome) := by
  have hFold :
      ∀ (rows : List Ioc) (found : Str → Option Ioc),
        (∀ r ∈ rows, r ∈ iocs ∧ r.status = .active) →
        Finds iocs found →
        Finds iocs (rows.foldl remember found) ∧
        (∀ value, (found value).isSome →
          (rows.foldl remember found value).isSome) ∧
        (∀ r ∈ rows,
          (rows.foldl remember found r.value).isSome) := by
    intro rows
    induction rows with
    | nil =>
        intro found _ hFound
        exact ⟨hFound, fun _ h => h, by simp⟩
    | cons r rest ih =>
        intro found hRows hFound
        rw [List.forall_mem_cons] at hRows
        have hNext : Finds iocs (remember found r) := by
          intro value r' hIs
          unfold remember at hIs
          by_cases hSame : value = r.value
          · rw [hSame, Function.update_self] at hIs
            cases hIs
            exact ⟨hRows.1.1, hRows.1.2, hSame.symm⟩
          · rw [Function.update_of_ne hSame] at hIs
            exact hFound value r' hIs
        rcases ih _ hRows.2 hNext with ⟨hEnd, hKept, hAll⟩
        refine ⟨hEnd, ?_, ?_⟩
        · intro value hSome
          apply hKept
          unfold remember
          by_cases hSame : value = r.value
          · rw [hSame, Function.update_self]
            rfl
          · rwa [Function.update_of_ne hSame]
        · rw [List.forall_mem_cons]
          refine ⟨?_, hAll⟩
          apply hKept
          unfold remember
          rw [Function.update_self]
          rfl
  rcases hFold
      (iocs.filter fun r =>
        decide (r.status = .active) &&
          chunk.contains r.value) found
      (fun r hr => by
        rw [List.mem_filter, Bool.and_eq_true,
          decide_eq_true_eq] at hr
        exact ⟨hr.1, hr.2.1⟩) hFinds with
    ⟨hEnd, hKept, hAll⟩
  refine ⟨hEnd, hKept, ?_⟩
  intro r hr hActive hIn
  apply hAll
  rw [List.mem_filter, Bool.and_eq_true, decide_eq_true_eq,
    List.contains_iff_mem]
  exact ⟨hr, hActive, hIn⟩

/- The lookups of a pass find active rows, and one for each
value that an active row has. -/
theorem hits_spec
    (iocs : List Ioc) (values : List Str) :
    Finds iocs (hits iocs values) ∧
    (∀ r ∈ iocs, r.status = .active → r.value ∈ values →
      (hits iocs values r.value).isSome) := by
  have hFold :
      ∀ (parts : List (List Str)) (found : Str → Option Ioc),
        Finds iocs found →
        Finds iocs (parts.foldl (lookupChunk iocs) found) ∧
        (∀ value, (found value).isSome →
          (parts.foldl (lookupChunk iocs) found
            value).isSome) ∧
        (∀ r ∈ iocs, r.status = .active →
          (∃ part ∈ parts, r.value ∈ part) →
          (parts.foldl (lookupChunk iocs) found
            r.value).isSome) := by
    intro parts
    induction parts with
    | nil =>
        intro found hFound
        exact ⟨hFound, fun _ h => h, by simp⟩
    | cons part rest ih =>
        intro found hFound
        rcases lookupChunk_spec part hFound with
          ⟨hNext, hKeptHere, hAllHere⟩
        rcases ih _ hNext with ⟨hEnd, hKept, hAll⟩
        refine ⟨hEnd,
          fun value h => hKept value (hKeptHere value h), ?_⟩
        rintro r hr hActive ⟨p, hP, hIn⟩
        rcases List.mem_cons.mp hP with hFirst | hLater
        · rw [hFirst] at hIn
          exact hKept _ (hAllHere r hr hActive hIn)
        · exact hAll r hr hActive ⟨p, hLater, hIn⟩
  rcases hFold (chunks tiChunk values) (fun _ => none)
    (fun _ _ h => by cases h) with ⟨hEnd, _, hAll⟩
  refine ⟨hEnd, fun r hr hActive hIn => ?_⟩
  exact hAll r hr hActive
    ((mem_chunks (by decide) values r.value).mpr hIn)

/- Where active rows share no value, a value is found as the
row that has it. -/
theorem hits_of_active
    {iocs : List Ioc} {values : List Str} {r : Ioc}
    (hValues :
      ((iocs.filter fun r => r.status = .active).map
        Ioc.value).Nodup)
    (hRow : r ∈ iocs)
    (hActive : r.status = .active)
    (hIn : r.value ∈ values) :
    hits iocs values r.value = some r := by
  rcases hits_spec iocs values with ⟨hFinds, hAll⟩
  rcases Option.isSome_iff_exists.mp
    (hAll r hRow hActive hIn) with ⟨r', hFound⟩
  rcases hFinds r.value r' hFound with
    ⟨hRow', hActive', hValue⟩
  have hSame : r' = r :=
    List.inj_on_of_nodup_map hValues
      (List.mem_filter.mpr
        ⟨hRow', decide_eq_true hActive'⟩)
      (List.mem_filter.mpr ⟨hRow, decide_eq_true hActive⟩)
      hValue
  rw [hFound, hSame]

end ThreatOrbit.Intel
