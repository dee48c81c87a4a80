import ThreatOrbit.Lib.Grouping
import ThreatOrbit.Lib.Lists

/-
  The risk of an entity: a user, a host or an address, by
  the alerts that name it.

  The ranking groups the alerts in SQL; the drill-down adds
  up the newest two hundred of one entity in Python. Both
  cap the risk at 100.
-/

---- Alerts

namespace ThreatOrbit.Siem

open Lib

/- The columns of `alerts` that the entity views read. -/
structure Alert where
  id : Str
  ts : Str
  severity : Str
  status : Str
  mitreTechId : Option Str
  username : Option Str
  hostname : Option Str
  srcIp : Option Str
  orgId : Str
deriving DecidableEq, Repr

inductive EntityType where
| user
| host
| ip
deriving DecidableEq, Repr

/- `_ENTITY_FIELD`. -/
def EntityType.field : EntityType → Alert → Option Str
| .user => Alert.username
| .host => Alert.hostname
| .ip => Alert.srcIp

/- `type` of the query: one type, or `all` of them. -/
def requestedTypes : Option EntityType → List EntityType
| some etype => [etype]
| none => [.user, .host, .ip]

/- `_SEV_WEIGHT`. -/
def sevWeight : List (Str × Nat) :=
  [(lit "critical", 25), (lit "high", 15),
    (lit "medium", 7), (lit "low", 3), (lit "info", 1)]

/- `scope_sql`: no clause where isolation is off. -/
structure Scope where
  enforced : Bool
  org : Str

def Scope.keeps (sc : Scope) (a : Alert) : Bool :=
  !sc.enforced || a.orgId == sc.org

/- What the SQL of the views leaves to the backend: the order
of the groups, and the order of alerts of one `ts` in
`ORDER BY ts DESC`. -/
structure Backend where
  groups : List Str → List Str
  sort : List Alert → List Alert
  groups_perm : ∀ keys, (groups keys).Perm keys
  sort_perm : ∀ rows, (sort rows).Perm rows
  newestFirst :
    ∀ rows,
      (sort rows).Pairwise (fun a b => b.ts ≤ a.ts)

---- The Ranking

/- `CASE severity WHEN .. THEN .. ELSE 1 END`. -/
def weightCase (severity : Str) : Nat :=
  match sevWeight.find? fun p => p.1 == severity with
  | some (_, weight) => weight
  | none => 1

/- `CASE WHEN mitre_tech_id != '' THEN mitre_tech_id END`. -/
def techCase (a : Alert) : Option Str :=
  match a.mitreTechId with
  | none => none
  | some tech => if tech ≠ [] then some tech else none

structure GroupedRow where
  entity : Str
  alerts : Nat
  score : Nat
  bySeverity : List (Str × Nat)
  openN : Nat
  tdiv : Nat
  lastSeen : Str
deriving DecidableEq, Repr

def openStatus (status : Str) : Bool :=
  !([lit "resolved", lit "closed"].contains status)

/- The aggregates of the alerts of one entity. -/
def aggregate
    (entity : Str)
    (rows : List Alert) : GroupedRow where
  entity := entity
  alerts := rows.length
  score := (rows.map fun a => weightCase a.severity).sum
  bySeverity := sevWeight.map fun p =>
    (p.1, rows.countP fun a => a.severity == p.1)
  openN := rows.countP fun a => openStatus a.status
  tdiv := (rows.filterMap techCase).dedup.length
  lastSeen := (rows.map Alert.ts).foldl max []

/- `WHERE field IS NOT NULL AND field != ''` and the scope. -/
def entityRows
    (sc : Scope)
    (etype : EntityType)
    (alerts : List Alert) : List Alert :=
  alerts.filter fun a =>
    match etype.field a with
    | none => false
    | some value => value != [] && sc.keeps a

/- The grouped query, a row for each entity. -/
def groupedRows
    (b : Backend)
    (sc : Scope)
    (etype : EntityType)
    (alerts : List Alert) : List GroupedRow :=
  let rows := entityRows sc etype alerts
  (b.groups (rows.filterMap etype.field).dedup).map fun v =>
    aggregate v (rows.filter fun a => etype.field a == some v)

/- `risk` of a grouped row. -/
def GroupedRow.risk (r : GroupedRow) : Nat :=
  min 100 (r.score + r.tdiv * 4)

structure Candidate where
  etype : EntityType
  row : GroupedRow
deriving DecidableEq, Repr

/- The candidates in the order they are counted in. -/
def candidates
    (b : Backend)
    (sc : Scope)
    (type : Option EntityType)
    (alerts : List Alert) : List Candidate :=
  (requestedTypes type).flatMap fun etype =>
    (groupedRows b sc etype alerts).map (Candidate.mk etype)

def band (risk : Nat) : Str :=
  if 70 ≤ risk then lit "critical"
  else if 45 ≤ risk then lit "high"
  else if 20 ≤ risk then lit "elevated"
  else lit "normal"

/- `a["mitre_tech_id"]`, where it is truthy. -/
def technique (a : Alert) : Option Str :=
  match a.mitreTechId with
  | some (c :: rest) => some (c :: rest)
  | _ => none

/- `_SEV_WEIGHT.get(severity, 1)`. -/
def weightOf (severity : Str) : Nat :=
  (lookup severity sevWeight).getD 1

end ThreatOrbit.Siem
