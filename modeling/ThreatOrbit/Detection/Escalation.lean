import ThreatOrbit.Lib.Json
import ThreatOrbit.Lib.Like

/-
  Escalation of correlated alerts to cases.

  The alerts of a recency window are grouped by host, user
  and address. Every value with three unresolved critical or
  high alerts is a pivot, and a pivot that no open case
  names yet gets one. Whether a case names it is asked with
  a `LIKE` over the serialized entities.
-/

---- Alerts And Cases

namespace ThreatOrbit

namespace Detection

open Lib

/- The columns of `alerts` the correlation reads. -/
structure AlertRecord where
  ts : Str
  severity : Str
  status : Str
  hostname : Option Str
  username : Option Str
  srcIp : Option Str
deriving DecidableEq, Repr

inductive Dimension where
| host
| user
| ip
deriving DecidableEq, Repr

namespace Dimension

/- The name of a dimension in the entities of a case. -/
def text : Dimension → Str
| .host => lit "host"
| .user => lit "user"
| .ip => lit "ip"

def column : Dimension → AlertRecord → Option Str
| .host => AlertRecord.hostname
| .user => AlertRecord.username
| .ip => AlertRecord.srcIp

/- The dimensions in the order of the scan. -/
def all : List Dimension := [.host, .user, .ip]

end Dimension

/- A row of the grouped query. -/
structure Pivot where
  dim : Dimension
  value : Str
  count : Nat
  hasCritical : Bool
deriving DecidableEq, Repr

/- A row of `cases`. The JSON columns hold what `dumps`
wrote, and are kept as the values it wrote. -/
structure CaseRow where
  id : Str
  title : Str
  type : Str
  severity : Str
  status : Str
  owner : Str
  playbook : Str
  slaHours : Nat
  created : Str
  updated : Str
  alertCount : Nat
  description : Str
  entities : PyVal
  warRoom : PyVal
  tasks : PyVal
  evidence : PyVal

/- The `cases` table. Ids are a primary key. -/
structure CaseTable where
  rows : List CaseRow
  nodup : (rows.map CaseRow.id).Nodup

/- `status NOT IN ('resolved','closed')`. -/
def unresolved (status : Str) : Bool :=
  status != lit "resolved" && status != lit "closed"

/- The value an alert contributes to a dimension. -/
def AlertRecord.contributes
    (cutoff : Str)
    (dim : Dimension)
    (a : AlertRecord) : Option Str :=
  if unresolved a.status &&
      (a.severity = lit "critical" || a.severity = lit "high")
      && decide (cutoff ≤ a.ts) then
    (dim.column a).filter (· != [])
  else
    none

/- `GROUP BY` yields its groups in an order of its own. -/
structure GroupOrder where
  sort : List Pivot → List Pivot
  perm : ∀ rows, (sort rows).Perm rows

def GroupOrder.listed : GroupOrder where
  sort rows := rows
  perm _ := List.Perm.refl _

/- The alerts that share a value. -/
def sharing
    (alerts : List AlertRecord)
    (cutoff : Str)
    (dim : Dimension)
    (value : Str) : List AlertRecord :=
  alerts.filter fun a => a.contributes cutoff dim == some value

/- The grouped row of a value. -/
def pivotOf
    (alerts : List AlertRecord)
    (cutoff : Str)
    (dim : Dimension)
    (value : Str) : Pivot :=
  let group := sharing alerts cutoff dim value
  { dim := dim
    value := value
    count := group.length
    hasCritical := group.any (·.severity == lit "critical") }

/- The grouped query of a dimension. -/
def dimensionPivots
    (order : GroupOrder)
    (alerts : List AlertRecord)
    (cutoff : Str)
    (dim : Dimension) : List Pivot :=
  order.sort
    ((((alerts.filterMap
      (AlertRecord.contributes cutoff dim)).dedup.map
        (pivotOf alerts cutoff dim))).filter (3 ≤ ·.count))

/- The pivots in the order of the scan. -/
def pivots
    (order : GroupOrder)
    (alerts : List AlertRecord)
    (cutoff : Str) : List Pivot :=
  Dimension.all.flatMap (dimensionPivots order alerts cutoff)

end Detection

end ThreatOrbit

---- Opening Cases

namespace ThreatOrbit

namespace Detection

open Lib

/- The random draws for the id of a case: the four-digit
numbers tried first, and the wide id after them. -/
structure IdDraws where
  tries : List Nat
  wide : Str
deriving DecidableEq, Repr

/- An id that is free, or else the wide one. -/
def IdDraws.choose (d : IdDraws) (cases : CaseTable) : Str :=
  let candidates := (d.tries.take 25).map fun n =>
    lit "CASE-" ++ natStr n
  (candidates.find? (fun id =>
    !(cases.rows.map CaseRow.id).contains id)).getD
      (lit "CASE-" ++ d.wide)

/- `[{"type": pk, "value": pv}]`. -/
def Pivot.entities (p : Pivot) : PyVal :=
  .list [.dict [(lit "type", .str p.dim.text),
    (lit "value", .str p.value)]]

def caseTask (i : Nat) (phase name : Str) : PyVal :=
  .dict [(lit "id", .str (lit "T" ++ natStr i)),
    (lit "phase", .str phase), (lit "name", .str name),
    (lit "status", .str (lit "pending")),
    (lit "assignee", .none), (lit "notes", .str [])]

/- `"{pk}={pv}"`. -/
def Pivot.label (p : Pivot) : Str :=
  p.dim.text ++ lit "=" ++ p.value

def Pivot.severity (p : Pivot) : Str :=
  if p.hasCritical then lit "critical" else lit "high"

/- "{count} correlated {sev} alerts share {pk}={pv}." -/
def Pivot.summary (p : Pivot) : Str :=
  natStr p.count ++ lit " correlated " ++ p.severity ++
    lit " alerts share " ++ p.label ++ lit "."

def Pivot.newCase (p : Pivot) (id now : Str) : CaseRow :=
  { id := id
    title := lit "Correlated incident on " ++ p.dim.text ++
      lit " " ++ p.value
    type := lit "Intrusion"
    severity := p.severity
    status := lit "new"
    owner := []
    playbook := []
    slaHours := if p.severity = lit "critical" then 4 else 8
    created := now
    updated := now
    alertCount := p.count
    description := p.summary ++
      lit " Auto-escalated by the correlation engine."
    entities := p.entities
    warRoom := .list [.dict [(lit "ts", .str now),
      (lit "actor", .str (lit "correlation-engine")),
      (lit "type", .str (lit "system")),
      (lit "content",
        .str (lit "Auto-opened: " ++ p.summary))]]
    tasks := .list
      [caseTask 1 (lit "Triage")
          (lit "Validate correlated alerts"),
        caseTask 2 (lit "Containment")
          (lit "Isolate " ++ p.value),
        caseTask 3 (lit "Eradication")
          (lit "Remove persistence"),
        caseTask 4 (lit "Recovery") (lit "Restore service")]
    evidence := .list [] }

theorem nodup_ids_append
    {rows : List CaseRow} {row : CaseRow}
    (hNodup : (rows.map CaseRow.id).Nodup)
    (hNew : ¬ rows.any (fun r => r.id == row.id) = true) :
    ((rows ++ [row]).map CaseRow.id).Nodup := by
  rw [List.map_append]
  apply hNodup.append (List.nodup_singleton _)
  rw [List.disjoint_singleton, List.mem_map]
  rintro ⟨r, hR, hSame⟩
  apply hNew
  rw [List.any_eq_true]
  exact ⟨r, hR, by rw [hSame]; exact BEq.rfl⟩

/- `INSERT INTO cases`. -/
def CaseTable.insert
    (cases : CaseTable)
    (row : CaseRow) : Except PyError CaseTable :=
  if h : cases.rows.any (fun r => r.id == row.id) = true then
    .error .databaseError
  else
    .ok
      { rows := cases.rows ++ [row]
        nodup := nodup_ids_append cases.nodup h }

/- `f'%"{pv}"%'`. -/
def Pivot.pattern (p : Pivot) : Str :=
  cp '%' :: (cp '"' :: p.value ++ [cp '"']) ++ [cp '%']

/- An open case whose serialized entities match. -/
def Pivot.matchedBy (p : Pivot) (c : CaseRow) : Bool :=
  unresolved c.status && like p.pattern (dumps c.entities)

/- Whether some open case matches the pattern of a pivot. -/
def Pivot.hit (p : Pivot) (cases : CaseTable) : Bool :=
  cases.rows.any p.matchedBy

/- The query for an open case of a pivot. -/
def Pivot.alreadyCased
    (p : Pivot)
    (cases : CaseTable) : Except PyError Bool :=
  if likeTooLong p.pattern &&
      cases.rows.any (unresolved ·.status) then
    .error .databaseError
  else
    .ok (p.hit cases)

structure ScanState where
  created : Nat
  cases : CaseTable

def scanPivot
    (draws : Nat → IdDraws)
    (now : Str)
    (s : ScanState)
    (p : Pivot) : Except PyError ScanState := do
  if ← p.alreadyCased s.cases then
    .ok s
  else do
    let id := (draws s.created).choose s.cases
    let cases ← s.cases.insert (p.newCase id now)
    .ok ⟨s.created + 1, cases⟩

/- The scan over the pivots. -/
def scan
    (draws : Nat → IdDraws)
    (now : Str) :
    ScanState → List Pivot → Except PyError ScanState
| s, [] => .ok s
| s, p :: rest => do
    let next ← scanPivot draws now s p
    scan draws now next rest

/- `_maybe_escalate_case`: the number of cases opened, and
the table with them. `cutoff` is the start of the window. -/
def maybeEscalateCase
    (order : GroupOrder)
    (draws : Nat → IdDraws)
    (now cutoff : Str)
    (alerts : List AlertRecord)
    (cases : CaseTable) : Except PyError ScanState :=
  scan draws now ⟨0, cases⟩ (pivots order alerts cutoff)

---- One Pivot

/- Whether a value is the entity of a pivot. -/
def Pivot.isEntity (p : Pivot) : PyVal → Bool
| .dict d =>
    (match lookup (lit "type") d with
      | some (.str t) => t == p.dim.text
      | _ => false) &&
      (match lookup (lit "value") d with
      | some (.str v) => v == p.value
      | _ => false)
| _ => false

/- Whether a case names the pair of a pivot. -/
def Pivot.namedBy (p : Pivot) (c : CaseRow) : Bool :=
  match c.entities with
  | .list items => items.any p.isEntity
  | _ => false

/- An open case that names exactly the pair of a pivot. -/
def Pivot.HasCase (p : Pivot) (cases : CaseTable) : Prop :=
  ∃ c ∈ cases.rows,
    unresolved c.status = true ∧ p.namedBy c = true

theorem newCase_named (p : Pivot) (id now : Str) :
    p.namedBy (p.newCase id now) = true := by
  have hKeys : lit "type" ≠ lit "value" := by decide
  simp [Pivot.namedBy, Pivot.newCase, Pivot.entities,
    Pivot.isEntity, lookup, hKeys]

theorem newCase_open (p : Pivot) (id now : Str) :
    unresolved (p.newCase id now).status = true := by
  change unresolved (lit "new") = true
  decide

theorem insert_rows
    {cases next : CaseTable} {row : CaseRow}
    (hInsert : cases.insert row = .ok next) :
    next.rows = cases.rows ++ [row] := by
  unfold CaseTable.insert at hInsert
  split at hInsert
  · cases hInsert
  · exact (congrArg CaseTable.rows
      (Except.ok.inj hInsert)).symm

/- What a step of the scan does: a pivot that is hit leaves
the state as it is, and one that is not gets a case. -/
theorem scanPivot_cases
    {draws : Nat → IdDraws} {now : Str} {s t : ScanState}
    {p : Pivot}
    (hStep : scanPivot draws now s p = .ok t) :
    (p.hit s.cases = true ∧ t = s) ∨
      (p.hit s.cases = false ∧ t.created = s.created + 1 ∧
        ∃ id, t.cases.rows =
          s.cases.rows ++ [p.newCase id now]) := by
  unfold scanPivot Pivot.alreadyCased at hStep
  cases hLong : (likeTooLong p.pattern &&
      s.cases.rows.any (unresolved ·.status)) with
  | true => simp [hLong, bind, Except.bind] at hStep
  | false =>
      simp only [hLong, Bool.false_eq_true, if_false, bind,
        Except.bind] at hStep
      cases hHit : p.hit s.cases with
      | true =>
          left
          simp only [hHit, if_true] at hStep
          exact ⟨rfl, (Except.ok.inj hStep).symm⟩
      | false =>
          right
          simp only [hHit, Bool.false_eq_true, if_false]
            at hStep
          cases hInsert : s.cases.insert
              (p.newCase ((draws s.created).choose s.cases)
                now) with
          | error err => simp [hInsert] at hStep
          | ok next =>
              simp only [hInsert] at hStep
              have hNext := Except.ok.inj hStep
              subst hNext
              exact ⟨rfl, rfl, _, insert_rows hInsert⟩

/- No step closes a case. -/
theorem scanPivot_keeps
    {draws : Nat → IdDraws} {now : Str} {s t : ScanState}
    {p : Pivot}
    (hStep : scanPivot draws now s p = .ok t) :
    s.created ≤ t.created ∧ s.cases.rows ⊆ t.cases.rows := by
  rcases scanPivot_cases hStep with
    ⟨_, rfl⟩ | ⟨_, hCreated, id, hRows⟩
  · exact ⟨le_refl _, List.Subset.refl _⟩
  · refine ⟨by omega, ?_⟩
    rw [hRows]
    exact List.subset_append_left _ _

theorem Pivot.HasCase.mono
    {p : Pivot} {cases next : CaseTable}
    (hCase : p.HasCase cases) (hRows : cases.rows ⊆ next.rows) :
    p.HasCase next := by
  rcases hCase with ⟨c, hc, hOpen, hNamed⟩
  exact ⟨c, hRows hc, hOpen, hNamed⟩

theorem Pivot.hit_mono
    {p : Pivot} {cases next : CaseTable}
    (hHit : p.hit cases = true) (hRows : cases.rows ⊆ next.rows) :
    p.hit next = true := by
  rcases List.any_eq_true.mp hHit with ⟨c, hc, hMatch⟩
  exact List.any_eq_true.mpr ⟨c, hRows hc, hMatch⟩

---- The Scan

/- Two rows of the grouped query for one pair. -/
def Pivot.Same (p q : Pivot) : Prop :=
  p.dim = q.dim ∧ p.value = q.value

/- The pivots of a scan, each with the table at its turn. -/
def visits
    (draws : Nat → IdDraws)
    (now : Str) :
    ScanState → List Pivot → List (Pivot × CaseTable)
| _, [] => []
| s, p :: rest =>
    (p, s.cases) ::
      match scanPivot draws now s p with
      | .ok next => visits draws now next rest
      | .error _ => []

theorem scan_cons
    {draws : Nat → IdDraws} {now : Str} {s t : ScanState}
    {p : Pivot} {rest : List Pivot}
    (hScan : scan draws now s (p :: rest) = .ok t) :
    ∃ next, scanPivot draws now s p = .ok next ∧
      scan draws now next rest = .ok t := by
  cases hStep : scanPivot draws now s p with
  | error err => simp [scan, hStep, bind, Except.bind] at hScan
  | ok next =>
      exact ⟨next, rfl, by
        simpa [scan, hStep, bind, Except.bind] using hScan⟩

theorem visits_cons
    {draws : Nat → IdDraws} {now : Str} {s next : ScanState}
    {p : Pivot}
    (rest : List Pivot)
    (hStep : scanPivot draws now s p = .ok next) :
    visits draws now s (p :: rest) =
      (p, s.cases) :: visits draws now next rest := by
  simp [visits, hStep]

/- A scan keeps every case. -/
theorem scan_keeps
    {draws : Nat → IdDraws} {now : Str} {s t : ScanState}
    {ps : List Pivot}
    (hScan : scan draws now s ps = .ok t) :
    s.created ≤ t.created ∧ s.cases.rows ⊆ t.cases.rows := by
  induction ps generalizing s with
  | nil =>
      cases hScan
      exact ⟨le_refl _, List.Subset.refl _⟩
  | cons p rest ih =>
      rcases scan_cons hScan with ⟨next, hStep, hRest⟩
      have hHead := scanPivot_keeps hStep
      have hTail := ih hRest
      exact ⟨by omega, List.Subset.trans hHead.2 hTail.2⟩

/- The cases after a scan are those before it and those of
the pivots that were not hit at their turn. -/
theorem mem_scan_iff
    {draws : Nat → IdDraws} {now : Str} {s t : ScanState}
    {ps : List Pivot}
    (hScan : scan draws now s ps = .ok t) :
    (∀ c ∈ t.cases.rows,
      c ∈ s.cases.rows ∨
        ∃ v ∈ visits draws now s ps,
          v.1.hit v.2 = false ∧
            ∃ id, c = v.1.newCase id now) ∧
      ∀ v ∈ visits draws now s ps,
        v.1.hit v.2 = false →
          ∃ id, v.1.newCase id now ∈ t.cases.rows := by
  induction ps generalizing s with
  | nil =>
      cases hScan
      exact ⟨fun c hc => Or.inl hc, fun v hv => by cases hv⟩
  | cons p rest ih =>
      rcases scan_cons hScan with ⟨next, hStep, hRest⟩
      rcases ih hRest with ⟨hFrom, hTo⟩
      rw [visits_cons rest hStep]
      constructor
      · intro c hc
        rcases hFrom c hc with hNext | ⟨v, hv, hNew⟩
        · rcases scanPivot_cases hStep with
            ⟨_, rfl⟩ | ⟨hMiss, _, id, hRows⟩
          · exact Or.inl hNext
          · rw [hRows, List.mem_append, List.mem_singleton]
              at hNext
            rcases hNext with hOld | hNew
            · exact Or.inl hOld
            · exact Or.inr
                ⟨(p, s.cases), List.mem_cons_self, hMiss, id,
                  hNew⟩
        · exact Or.inr ⟨v, List.mem_cons_of_mem _ hv, hNew⟩
      · intro v hv hMiss
        rcases List.mem_cons.mp hv with rfl | hLater
        · rcases scanPivot_cases hStep with
            ⟨hHit, _⟩ | ⟨_, _, id, hRows⟩
          · rw [hMiss] at hHit
            cases hHit
          · refine ⟨id, (scan_keeps hRest).2 ?_⟩
            rw [hRows]
            exact List.mem_append_right _
              (List.mem_singleton_self _)
        · exact hTo v hLater hMiss

theorem scan_from_visit
    {draws : Nat → IdDraws} {now : Str} {s t : ScanState}
    {ps : List Pivot}
    (hScan : scan draws now s ps = .ok t)
    {v : Pivot × CaseTable} {later : List (Pivot × CaseTable)}
    (hSuffix : (v :: later) <:+ visits draws now s ps) :
    ∃ s' rest,
      s'.cases = v.2 ∧ (v.1 :: rest) <:+ ps ∧
        visits draws now s' (v.1 :: rest) = v :: later ∧
        scan draws now s' (v.1 :: rest) = .ok t := by
  induction ps generalizing s with
  | nil =>
      have hNil := List.suffix_nil.mp hSuffix
      cases hNil
  | cons p rest ih =>
      rcases scan_cons hScan with ⟨next, hStep, hRest⟩
      rw [visits_cons rest hStep, List.suffix_cons_iff]
        at hSuffix
      rcases hSuffix with hHere | hLater
      · rcases List.cons.inj hHere with ⟨rfl, rfl⟩
        exact ⟨s, rest, rfl, List.suffix_refl _,
          visits_cons rest hStep, hScan⟩
      · rcases ih hRest hLater with
          ⟨s', rest', hCases, hSub, hVisits, hTail⟩
        exact ⟨s', rest', hCases,
          hSub.trans (List.suffix_cons _ _), hVisits, hTail⟩

theorem visits_map_fst
    {draws : Nat → IdDraws} {now : Str} {s t : ScanState}
    {ps : List Pivot}
    (hScan : scan draws now s ps = .ok t) :
    (visits draws now s ps).map Prod.fst = ps := by
  induction ps generalizing s with
  | nil => rfl
  | cons p rest ih =>
      rcases scan_cons hScan with ⟨next, hStep, hRest⟩
      rw [visits_cons rest hStep, List.map_cons, ih hRest]

/- A scan opens no case exactly when it hits every pivot. -/
theorem scan_created_iff
    {draws : Nat → IdDraws} {now : Str} {s t : ScanState}
    {ps : List Pivot}
    (hScan : scan draws now s ps = .ok t) :
    t.created = s.created ↔
      ∀ p ∈ ps, p.hit s.cases = true := by
  induction ps generalizing s with
  | nil =>
      cases hScan
      simp
  | cons p rest ih =>
      rcases scan_cons hScan with ⟨next, hStep, hRest⟩
      rcases scanPivot_cases hStep with
        ⟨hHit, rfl⟩ | ⟨hMiss, hCreated, _⟩
      · rw [ih hRest]
        simp [hHit]
      · have hMore := (scan_keeps hRest).1
        constructor
        · intro hSame
          omega
        · intro hAll
          have hHit := hAll p List.mem_cons_self
          rw [hMiss] at hHit
          cases hHit

---- The Pivots

/- A pair is a pivot at most once. -/
theorem pivots_distinct
    (order : GroupOrder) (alerts : List AlertRecord)
    (cutoff : Str) :
    (pivots order alerts cutoff).Pairwise
      (fun p q => ¬ p.Same q) := by
  have hDim : ∀ dim,
      ∀ p ∈ dimensionPivots order alerts cutoff dim,
        p.dim = dim := by
    intro dim p hp
    rw [dimensionPivots, (order.perm _).mem_iff] at hp
    rcases List.mem_map.mp (List.mem_filter.mp hp).1 with
      ⟨value, _, rfl⟩
    rfl
  have hOwn : ∀ dim,
      (dimensionPivots order alerts cutoff dim).Pairwise
        (fun p q => ¬ p.Same q) := by
    intro dim
    have hListed :
        (((alerts.filterMap
          (AlertRecord.contributes cutoff dim)).dedup.map
            (pivotOf alerts cutoff dim)).filter
              (3 ≤ ·.count)).Pairwise
          (fun p q => ¬ p.Same q) := by
      apply List.Pairwise.filter
      rw [List.pairwise_map]
      exact (List.nodup_dedup _).imp
        fun hNe hSame => hNe hSame.2
    exact hListed.perm (order.perm _).symm
      fun hNot hSame => hNot ⟨hSame.1.symm, hSame.2.symm⟩
  unfold pivots
  rw [List.pairwise_flatMap]
  refine ⟨fun dim _ => hOwn dim, ?_⟩
  have hDims : Dimension.all.Pairwise (fun a b => a ≠ b) := by
    decide
  refine hDims.imp ?_
  intro a b hNe p hp q hq hSame
  exact hNe ((hDim a p hp).symm.trans
    (hSame.1.trans (hDim b q hq)))

theorem contributes_mono
    {cutoff later : Str}
    (hLater : cutoff ≤ later)
    {dim : Dimension} {a : AlertRecord} {value : Str}
    (hIn : a.contributes later dim = some value) :
    a.contributes cutoff dim = some value := by
  unfold AlertRecord.contributes at hIn ⊢
  split at hIn
  next hKept =>
    simp only [Bool.and_eq_true, decide_eq_true_eq] at hKept
    rw [if_pos (by
      simp only [Bool.and_eq_true, decide_eq_true_eq]
      exact ⟨hKept.1, le_trans hLater hKept.2⟩)]
    exact hIn
  next => cases hIn

/- A pivot of a later window is one of an earlier window. -/
theorem pivots_mono
    {cutoff later : Str}
    (hLater : cutoff ≤ later) (order order' : GroupOrder)
    {alerts : List AlertRecord} {q : Pivot}
    (hq : q ∈ pivots order' alerts later) :
    ∃ p ∈ pivots order alerts cutoff, p.Same q := by
  rcases List.mem_flatMap.mp hq with ⟨dim, hDim, hIn⟩
  rw [dimensionPivots, (order'.perm _).mem_iff,
    List.mem_filter, List.mem_map] at hIn
  rcases hIn with ⟨⟨value, hValue, rfl⟩, hCount⟩
  rw [List.mem_dedup, List.mem_filterMap] at hValue
  rcases hValue with ⟨a, ha, hContributes⟩
  refine ⟨pivotOf alerts cutoff dim value, ?_, rfl, rfl⟩
  apply List.mem_flatMap.mpr
  refine ⟨dim, hDim, ?_⟩
  rw [dimensionPivots, (order.perm _).mem_iff,
    List.mem_filter, List.mem_map]
  have hMore :
      (sharing alerts later dim value).length ≤
        (sharing alerts cutoff dim value).length := by
    apply List.Sublist.length_le
    apply List.monotone_filter_right
    intro b hb
    rw [beq_iff_eq] at hb ⊢
    exact contributes_mono hLater hb
  refine ⟨⟨value, ?_, rfl⟩, ?_⟩
  · rw [List.mem_dedup, List.mem_filterMap]
    exact ⟨a, ha, contributes_mono hLater hContributes⟩
  · rw [decide_eq_true_eq] at hCount ⊢
    exact le_trans hCount hMore

theorem hit_of_same
    {p q : Pivot}
    (hSame : p.Same q) (cases : CaseTable) :
    p.hit cases = q.hit cases := by
  have hPattern : p.pattern = q.pattern := by
    unfold Pivot.pattern
    rw [hSame.2]
  unfold Pivot.hit Pivot.matchedBy
  rw [hPattern]

/- The case of a pivot names no other pair. -/
theorem same_of_named
    {p q : Pivot} {id now : Str}
    (hNamed : p.namedBy (q.newCase id now) = true) :
    p.Same q := by
  have hKeys : lit "type" ≠ lit "value" := by decide
  simp only [Pivot.namedBy, Pivot.newCase, Pivot.entities,
    Pivot.isEntity, lookup, hKeys, if_true, if_false,
    List.any_cons, List.any_nil, Bool.or_false,
    Bool.and_eq_true, beq_iff_eq] at hNamed
  refine ⟨?_, hNamed.2.symm⟩
  rcases hNamed with ⟨hText, _⟩
  revert hText
  cases p.dim <;> cases q.dim <;> decide

---- Settled Escalation

/- Every pivot has its case exactly when no pivot is hit
that has none at its turn. -/
theorem all_cased_iff
    {draws : Nat → IdDraws} {now : Str} {s t : ScanState}
    {ps : List Pivot}
    (hDistinct : ps.Pairwise (fun p q => ¬ p.Same q))
    (hScan : scan draws now s ps = .ok t) :
    (∀ p ∈ ps, p.HasCase t.cases) ↔
      ∀ v ∈ visits draws now s ps,
        v.1.hit v.2 = true → v.1.HasCase v.2 := by
  constructor
  · intro hAll v hv hHit
    rcases List.append_of_mem hv with ⟨front, later, hSplit⟩
    have hSuffix : (v :: later) <:+ visits draws now s ps :=
      ⟨front, hSplit.symm⟩
    rcases scan_from_visit hScan hSuffix with
      ⟨s', rest, hCases, hSub, hVisits, hTail⟩
    have hMem : v.1 ∈ ps :=
      hSub.subset List.mem_cons_self
    rcases hAll v.1 hMem with ⟨c, hc, hOpen, hNamed⟩
    rcases (mem_scan_iff hTail).1 c hc with
      hOld | ⟨w, hw, hMiss, id, rfl⟩
    · rw [hCases] at hOld
      exact ⟨c, hOld, hOpen, hNamed⟩
    · -- The case would be that of a later pivot of the pair.
      exfalso
      have hSame := same_of_named hNamed
      rw [hVisits] at hw
      rcases List.mem_cons.mp hw with rfl | hLater
      · rw [hHit] at hMiss
        cases hMiss
      · have hFst := visits_map_fst hTail
        rw [hVisits, List.map_cons] at hFst
        have hIn : w.1 ∈ rest := by
          rw [← (List.cons.inj hFst).2]
          exact List.mem_map_of_mem hLater
        have hApart := hDistinct.sublist hSub.sublist
        exact List.rel_of_pairwise_cons hApart hIn hSame
  · intro hEach p hp
    rw [← visits_map_fst hScan] at hp
    rcases List.mem_map.mp hp with ⟨v, hv, rfl⟩
    rcases List.append_of_mem hv with ⟨front, later, hSplit⟩
    rcases scan_from_visit hScan ⟨front, hSplit.symm⟩ with
      ⟨s', rest, hCases, _, _, hTail⟩
    cases hHit : v.1.hit v.2 with
    | true =>
        apply (hEach v hv hHit).mono
        rw [← hCases]
        exact (scan_keeps hTail).2
    | false =>
        rcases (mem_scan_iff hScan).2 v hv hHit with
          ⟨id, hNew⟩
        exact ⟨_, hNew, newCase_open _ _ _,
          newCase_named _ _ _⟩

/- A pivot is hit after the scan if it is hit at its turn,
or by the case of its own or a later turn. -/
theorem hit_after_iff
    {draws : Nat → IdDraws} {now : Str} {s t : ScanState}
    {ps : List Pivot}
    (hScan : scan draws now s ps = .ok t)
    {v : Pivot × CaseTable} {later : List (Pivot × CaseTable)}
    (hSuffix : (v :: later) <:+ visits draws now s ps) :
    v.1.hit t.cases = true ↔
      (v.1.hit v.2 = false →
        ∃ w ∈ v :: later, w.1.hit w.2 = false ∧
          like v.1.pattern (dumps w.1.entities) = true) := by
  rcases scan_from_visit hScan hSuffix with
    ⟨s', rest, hCases, _, hVisits, hTail⟩
  rcases mem_scan_iff hTail with ⟨hFrom, hTo⟩
  rw [hVisits] at hFrom hTo
  constructor
  · intro hAfter hMiss
    rcases List.any_eq_true.mp hAfter with ⟨c, hc, hMatch⟩
    rcases hFrom c hc with hOld | ⟨w, hw, hNew, id, rfl⟩
    · rw [hCases] at hOld
      have hHit : v.1.hit v.2 = true :=
        List.any_eq_true.mpr ⟨c, hOld, hMatch⟩
      rw [hMiss] at hHit
      cases hHit
    · unfold Pivot.matchedBy at hMatch
      rw [Bool.and_eq_true] at hMatch
      exact ⟨w, hw, hNew, hMatch.2⟩
  · intro hSelf
    cases hHit : v.1.hit v.2 with
    | true =>
        apply Pivot.hit_mono hHit
        rw [← hCases]
        exact (scan_keeps hTail).2
    | false =>
        rcases hSelf hHit with ⟨w, hw, hMiss, hMatch⟩
        rcases hTo w hw hMiss with ⟨id, hNew⟩
        refine List.any_eq_true.mpr ⟨_, hNew, ?_⟩
        unfold Pivot.matchedBy
        rw [Bool.and_eq_true]
        exact ⟨newCase_open _ _ _, hMatch⟩

/-
  The escalation settles: after a call every pivot has an
  open case with exactly its pair, and a later call over the
  same alerts opens none. This is so exactly when

  - a pivot that matches the entities of an open case at its
    turn has a case of its own at its turn; and
  - the pattern of a pivot that is given a case, and is a
    pivot still, matches the entities of that case or of a
    case given at a later turn.
-/
theorem escalation_settles_iff
    (order order' : GroupOrder)
    (draws draws' : Nat → IdDraws)
    {now now' cutoff cutoff' : Str}
    (hLater : cutoff ≤ cutoff')
    (alerts : List AlertRecord)
    (cases : CaseTable)
    {after again : ScanState}
    (hFirst :
      maybeEscalateCase order draws now cutoff alerts cases =
        .ok after)
    (hSecond :
      maybeEscalateCase order' draws' now' cutoff' alerts
        after.cases = .ok again) :
    ((∀ p ∈ pivots order alerts cutoff,
        p.HasCase after.cases) ∧ again.created = 0) ↔
      (∀ v ∈ visits draws now ⟨0, cases⟩
          (pivots order alerts cutoff),
        v.1.hit v.2 = true → v.1.HasCase v.2) ∧
      (∀ v later,
        (v :: later) <:+ visits draws now ⟨0, cases⟩
          (pivots order alerts cutoff) →
        (∃ q ∈ pivots order' alerts cutoff', v.1.Same q) →
        v.1.hit v.2 = false →
          ∃ w ∈ v :: later, w.1.hit w.2 = false ∧
            like v.1.pattern (dumps w.1.entities) = true) := by
  unfold maybeEscalateCase at hFirst hSecond
  rw [all_cased_iff (pivots_distinct order alerts cutoff)
    hFirst, scan_created_iff hSecond]
  apply and_congr_right'
  constructor
  · intro hAll v later hSuffix hStill
    rcases hStill with ⟨q, hq, hSame⟩
    apply (hit_after_iff hFirst hSuffix).mp
    rw [hit_of_same hSame]
    exact hAll q hq
  · intro hSelf q hq
    rcases pivots_mono hLater order order' hq with
      ⟨p, hp, hSame⟩
    rw [← visits_map_fst hFirst] at hp
    rcases List.mem_map.mp hp with ⟨v, hv, rfl⟩
    rcases List.append_of_mem hv with ⟨front, later, hSplit⟩
    rw [← hit_of_same hSame]
    apply (hit_after_iff hFirst ⟨front, hSplit.symm⟩).mpr
    exact hSelf v later ⟨front, hSplit.symm⟩ ⟨q, hq, hSame⟩

/- The entities text of a pivot, up to its value. -/
def Dimension.entitiesHead (dim : Dimension) : Str :=
  cp '[' :: 123 :: jsonStr (lit "type") ++
    cp ':' :: jsonStr dim.text ++
      cp ',' :: jsonStr (lit "value") ++ [cp ':']

/- The entities text of a pivot with a plain value. -/
theorem dumps_entities
    {p : Pivot}
    (hPlain : p.value.all isPlainChar = true) :
    dumps p.entities =
      p.dim.entitiesHead ++
        (cp '"' :: p.value ++ [cp '"']) ++ [125, cp ']'] := by
  simp [dumps, dumpsItems, dumpsEntries, joinWith,
    Pivot.entities, jsonStr_of_plain hPlain,
    Dimension.entitiesHead]

/- The pattern of a plain value matches its own case. -/
theorem plain_selfMatch
    {p : Pivot}
    (hPlain : p.value.all isPlainChar = true) :
    like p.pattern (dumps p.entities) = true := by
  have hNonzero : ∀ c ∈ p.value, c ≠ 0 := by
    intro c hc hZero
    have hChar := List.all_eq_true.mp hPlain c hc
    rw [hZero] at hChar
    revert hChar
    decide
  have hQuoted : ∀ c ∈ cp '"' :: p.value ++ [cp '"'],
      c ≠ 0 := by
    intro c hc
    rw [List.cons_append, List.mem_cons, List.mem_append,
      List.mem_singleton] at hc
    rcases hc with rfl | hValue | rfl
    · decide
    · exact hNonzero c hValue
    · decide
  have hPattern : ∀ c ∈ p.pattern, c ≠ 0 := by
    intro c hc
    rw [Pivot.pattern, List.cons_append, List.mem_cons,
      List.mem_append, List.mem_singleton] at hc
    rcases hc with rfl | hValue | rfl
    · decide
    · exact hQuoted c hValue
    · decide
  have hHead : ∀ c ∈ p.dim.entitiesHead, c ≠ 0 := by
    cases p.dim <;> decide
  have hTail : ∀ c ∈ [125, cp ']'], c ≠ 0 := by
    decide
  have hText : ∀ c ∈ dumps p.entities, c ≠ 0 := by
    intro c hc
    rw [dumps_entities hPlain, List.mem_append,
      List.mem_append] at hc
    rcases hc with (hFront | hValue) | hBack
    · exact hHead c hFront
    · exact hQuoted c hValue
    · exact hTail c hBack
  unfold like
  rw [cString_of_nonzero hPattern, cString_of_nonzero hText,
    dumps_entities hPlain]
  exact likeMatch_within _ _ _

def criticalAlert
    (hostname username : Option Str) : AlertRecord where
  ts := lit "2026-01-02"
  severity := lit "critical"
  status := lit "new"
  hostname := hostname
  username := username
  srcIp := none

def noCases : CaseTable where
  rows := []
  nodup := List.nodup_nil

/- The draws of the example calls. -/
def countingDraws (i : Nat) : IdDraws :=
  ⟨[1000 + i], lit "0000000A"⟩

/- The time of the example calls, and their cutoff. -/
def callTime : Str := lit "2026-01-03"

def callCutoff : Str := lit "2026-01-01"

/- A call over three alerts of a host or a user. -/
def escalateThree
    (a : AlertRecord)
    (cases : CaseTable) : Except PyError ScanState :=
  maybeEscalateCase .listed countingDraws callTime callCutoff
    (List.replicate 3 a) cases

/- An open case of the host `bob`. -/
def caseOfHost : CaseTable where
  rows :=
    [Pivot.newCase ⟨.host, lit "bob", 3, true⟩
      (lit "CASE-1") (lit "2026-01-02")]
  nodup := List.nodup_singleton _

/- A user with a backslash in the name gets a case on every
call, and a user whose name an open case gives to a host
gets none. -/
theorem escalation_unsettled :
    (∃ after again,
      escalateThree
          (criticalAlert none (some (lit "ACME\\bob")))
          noCases = .ok after ∧
        escalateThree
          (criticalAlert none (some (lit "ACME\\bob")))
          after.cases = .ok again ∧
        again.created = 1) ∧
      ∃ after,
        escalateThree
            (criticalAlert none (some (lit "bob")))
            caseOfHost = .ok after ∧
          ⟨.user, lit "bob", 3, true⟩ ∈
            pivots .listed
              (List.replicate 3
                (criticalAlert none (some (lit "bob"))))
              callCutoff ∧
          ¬ Pivot.HasCase ⟨.user, lit "bob", 3, true⟩
            after.cases := by
  constructor
  · exact ⟨_, _, rfl, rfl, rfl⟩
  · refine ⟨_, rfl, by decide, ?_⟩
    change ¬ ∃ c ∈ caseOfHost.rows,
      unresolved c.status = true ∧
        Pivot.namedBy ⟨.user, lit "bob", 3, true⟩ c = true
    decide

/- A host with a plain name gets its case, once. -/
theorem escalation_settles_plain :
    ∃ after again,
      escalateThree (criticalAlert (some (lit "ws-1")) none)
          noCases = .ok after ∧
        escalateThree
          (criticalAlert (some (lit "ws-1")) none)
          after.cases = .ok again ∧
        (∀ p ∈ pivots .listed
            (List.replicate 3
              (criticalAlert (some (lit "ws-1")) none))
            callCutoff,
          p.HasCase after.cases) ∧
        again.created = 0 := by
  refine ⟨_, _, rfl, rfl, ?_⟩
  apply (escalation_settles_iff .listed .listed countingDraws
    countingDraws (le_refl callCutoff)
    (List.replicate 3
      (criticalAlert (some (lit "ws-1")) none)) noCases
    (show escalateThree _ noCases = _ from rfl)
    (show escalateThree _ _ = _ from rfl)).mpr
  have hVisits :
      visits countingDraws callTime ⟨0, noCases⟩
          (pivots .listed
            (List.replicate 3
              (criticalAlert (some (lit "ws-1")) none))
            callCutoff) =
        [(⟨.host, lit "ws-1", 3, true⟩, noCases)] := rfl
  rw [hVisits]
  constructor
  · intro v hv hHit
    rw [List.mem_singleton.mp hv] at hHit
    have hMiss :
        Pivot.hit ⟨.host, lit "ws-1", 3, true⟩ noCases =
          false := rfl
    rw [hMiss] at hHit
    cases hHit
  · intro v later hSuffix _ hMiss
    refine ⟨v, List.mem_cons_self, hMiss, ?_⟩
    have hOnly := List.mem_singleton.mp
      (hSuffix.subset List.mem_cons_self)
    rw [hOnly]
    exact plain_selfMatch (by decide)

end Detection

end ThreatOrbit
