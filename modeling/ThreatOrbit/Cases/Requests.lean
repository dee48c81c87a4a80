import ThreatOrbit.Cases.Board

/-
  Requests on one board of cases, with their reads and writes
  one at a time.

  Each request reads the columns it works on, changes them in
  memory and writes them back whole, one row with each
  `UPDATE`. Between its reads and its writes, others read and
  write.
-/

---- Requests

namespace ThreatOrbit.Cases

open Lib

open Auth (HttpError)

/- The fields a task can be given. -/
inductive TaskField where
| status
| assignee
| notes
deriving DecidableEq, Repr

/- `TaskUpdate`. -/
structure TaskChange where
  status : Option Str
  assignee : Option Str
  notes : Option Str
deriving DecidableEq, Repr

def TaskChange.get (ch : TaskChange) : TaskField → Option Str
| .status => ch.status
| .assignee => ch.assignee
| .notes => ch.notes

def Task.get (t : Task) : TaskField → Option Str
| .status => some t.status
| .assignee => t.assignee
| .notes => some t.notes

/- The fields that are given, set in a task. -/
def TaskChange.apply (ch : TaskChange) (t : Task) : Task :=
  { t with
    status := ch.status.getD t.status
    assignee := ch.assignee.orElse fun _ => t.assignee
    notes := ch.notes.getD t.notes }

/- The first task of an id, changed. -/
def changeTask
    (taskId : Str)
    (ch : TaskChange) : List Task → Option (List Task)
| [] => none
| t :: rest =>
    if t.id = taskId then some (ch.apply t :: rest)
    else (changeTask taskId ch rest).map (t :: ·)

structure EvidenceAdd where
  type : Str
  name : Str
  content : Option Str
deriving DecidableEq, Repr

/- What the database is asked for. Texts made beforehand, such
as the time, a new id and the digest of the content, come
with the request. A playbook note is a step of a run that
has a case. -/
inductive CaseRequest where
| note (caseId content type actor now : Str)
| evidence
    (caseId : Str)
    (body : EvidenceAdd)
    (itemId sha256 actor now : Str)
| task (caseId taskId : Str) (body : TaskChange) (now : Str)
| link (caseId other relation now : Str)
| merge (call : MergeCall)
| playbookNote (caseId content ts now : Str)
deriving DecidableEq, Repr

/- A request is refused, or a step of a playbook fails. -/
inductive Refusal where
| http (e : HttpError)
| step (detail : Str)
deriving DecidableEq, Repr

/- `sorted(TASK_STATUSES)`. -/
def taskStatuses : List Str :=
  [lit "done", lit "in-progress", lit "pending"]

/- The checks made before the database is read. -/
def CaseRequest.check :
    CaseRequest → Except HttpError Unit
| .note _ content _ _ _ =>
    if strip content = [] then
      .error ⟨400, lit "Note content is required"⟩
    else .ok ()
| .evidence _ body _ _ _ _ =>
    if strip body.name = [] then
      .error ⟨400, lit "Evidence name is required"⟩
    else .ok ()
| .task _ _ body _ =>
    if body.status.any (fun s => !taskStatuses.contains s) then
      .error ⟨400, lit
        "Status must be one of ['done', 'in-progress', 'pending']"⟩
    else if body = ⟨none, none, none⟩ then
      .error ⟨400, lit "No fields to update"⟩
    else .ok ()
| .link caseId other relation _ =>
    if relation != lit "related" &&
        relation != lit "duplicate" then
      .error ⟨400, lit "relation must be related|duplicate"⟩
    else if other = caseId then
      .error ⟨400, lit "A case cannot link to itself"⟩
    else .ok ()
| .merge call =>
    if call.sourceId = call.caseId then
      .error ⟨400, lit "Cannot merge a case into itself"⟩
    else .ok ()
| .playbookNote _ _ _ _ => .ok ()

/- The row that is read first. -/
def CaseRequest.caseId : CaseRequest → Str
| .note caseId _ _ _ _ => caseId
| .evidence caseId _ _ _ _ _ => caseId
| .task caseId _ _ _ => caseId
| .link caseId _ _ _ => caseId
| .merge call => call.caseId
| .playbookNote caseId _ _ _ => caseId

/- The row that is read after it, if any. -/
def CaseRequest.second : CaseRequest → Option Str
| .link _ other _ _ => some other
| .merge call => some call.sourceId
| _ => none

---- Writes

section

/- What a write leaves in a case. -/
inductive Effect where
| entry (caseId : Str) (w : WarEntry)
| item (caseId : Str) (e : Evidence)
| link (caseId other : Str)
| task (caseId taskId : Str) (ch : TaskChange)
deriving DecidableEq, Repr

/- An `UPDATE` of a row: the row as it was read, the columns
set, and what this leaves in the case. -/
structure RowUpdate (ν : Type) where
  caseId : Str
  read : Case ν
  entities : Option (List (Entity ν)) := none
  warRoom : Option (List WarEntry) := none
  tasks : Option (List Task) := none
  evidence : Option (List Evidence) := none
  links : Option (List Link) := none
  alerts : Int := 0
  status : Option Str := none
  updated : Option Str := none
  effects : List Effect

variable {ν : Type} [DecidableEq ν]

/- The row after the `UPDATE`. -/
def RowUpdate.apply
    (u : RowUpdate ν)
    (c : Case ν) : Case ν :=
  { c with
    entities := u.entities.getD c.entities
    warRoom := u.warRoom.getD c.warRoom
    tasks := u.tasks.getD c.tasks
    evidence := u.evidence.getD c.evidence
    links := u.links.getD c.links
    alertCount := c.alertCount + u.alerts
    status := u.status.getD c.status
    updated := u.updated.getD c.updated }

/- The item a request for evidence adds. -/
def EvidenceAdd.item
    (body : EvidenceAdd)
    (itemId sha256 actor now : Str) : Evidence where
  id := itemId
  type := body.type
  name := strip body.name
  content := (orStr body.content []).take 2000
  sha256 := sha256
  addedBy := actor
  ts := now
  custody := [⟨actor, lit "collected", now⟩]

/- The `UPDATE` that adds an entry to the war room. -/
def addEntry
    (caseId : Str)
    (c : Case ν)
    (w : WarEntry)
    (now : Str) : RowUpdate ν where
  caseId := caseId
  read := c
  warRoom := some (c.warRoom ++ [w])
  updated := some now
  effects := [.entry caseId w]

/- The `UPDATE` that links a case to another. -/
def linkTo
    (caseId : Str)
    (c : Case ν)
    (l : Link) : RowUpdate ν where
  caseId := caseId
  read := c
  links := some (addLink c.links l)
  effects := [.link caseId l.caseId]

/- The `UPDATE` of the target of a merge. -/
def MergeCall.intoTarget
    (call : MergeCall)
    (mark : Nat)
    (tgt src : Case ν) : RowUpdate ν where
  caseId := call.caseId
  read := tgt
  entities := some (call.target mark tgt src).entities
  warRoom := some (call.target mark tgt src).warRoom
  evidence := some (call.target mark tgt src).evidence
  links := some (call.target mark tgt src).links
  alerts := src.alertCount
  updated := some call.now
  effects :=
    [.entry call.caseId (call.entry mark src.title),
      .link call.caseId call.sourceId]

/- The `UPDATE` that closes the source of a merge. -/
def MergeCall.closeSource
    (call : MergeCall)
    (src : Case ν) : RowUpdate ν where
  caseId := call.sourceId
  read := src
  links := some (call.source src).links
  status := some (call.source src).status
  updated := some call.now
  effects := [.link call.sourceId call.caseId]

/- A case that is not there. -/
def noCase : Refusal :=
  .http ⟨404, lit "Case not found"⟩

/- What a request writes, from the rows it has read. -/
def CaseRequest.plan
    (mark : Nat)
    (first second : Option (Case ν)) :
    CaseRequest → Except Refusal (List (RowUpdate ν))
| .note caseId content type actor now =>
    match first with
    | none => .error noCase
    | some c =>
        .ok [addEntry caseId c
          ⟨mark, now, actor, type, strip content⟩ now]
| .evidence caseId body itemId sha256 actor now =>
    match first with
    | none => .error noCase
    | some c =>
        let item := body.item itemId sha256 actor now
        .ok
          [{ caseId := caseId
             read := c
             evidence := some (c.evidence ++ [item])
             updated := some now
             effects := [.item caseId item] }]
| .task caseId taskId body now =>
    match first with
    | none => .error noCase
    | some c =>
        match changeTask taskId body c.tasks with
        | none => .error (.http ⟨404, lit "Task not found"⟩)
        | some tasks =>
            .ok
              [{ caseId := caseId
                 read := c
                 tasks := some tasks
                 updated := some now
                 effects := [.task caseId taskId body] }]
| .link caseId other relation now =>
    match first, second with
    | some a, some b =>
        .ok
          [linkTo caseId a ⟨other, relation, now⟩,
            linkTo other b ⟨caseId, relation, now⟩]
    | _, _ => .error noCase
| .merge call =>
    match first, second with
    | some tgt, some src =>
        .ok [call.intoTarget mark tgt src, call.closeSource src]
    | _, _ => .error noCase
| .playbookNote caseId content ts now =>
    match first with
    | none =>
        .error (.step
          (lit "Case " ++ caseId ++ lit " not found"))
    | some c =>
        .ok [addEntry caseId c
          ⟨mark, ts, lit "playbook-engine", lit "system",
            orStr (some content)
              (lit "Playbook checkpoint.")⟩ now]

end

---- Interleavings

variable {ν : Type} [DecidableEq ν]

/- How far a request is. -/
inductive Phase (ν : Type) where
/- It has read nothing. -/
| asked
/- It has read the first of two rows. -/
| half (first : Option (Case ν))
/- It writes; the goal is what all its writes leave. -/
| writing (goal : List Effect) (left : List (RowUpdate ν))
| failed (why : Refusal)
| succeeded (goal : List Effect)

structure CaseCall (ν : Type) where
  request : CaseRequest
  phase : Phase ν

/- The rows, the next mark and the requests. What the writes
so far have left, the latest first, is no column. -/
structure Desk (ν : Type) where
  cases : Str → Option (Case ν)
  next : Nat
  landed : List Effect
  calls : Nat → Option (CaseCall ν)

/- A request, gone on. -/
def Desk.set
    (d : Desk ν)
    (k : Nat)
    (call : CaseCall ν) : Desk ν :=
  { d with calls := Function.update d.calls k (some call) }

/- The phase of a request that has read what it needs. -/
def planned :
    Except Refusal (List (RowUpdate ν)) → Phase ν
| .error why => .failed why
| .ok updates =>
    .writing (updates.flatMap RowUpdate.effects) updates

/- The rows after an `UPDATE`. -/
def RowUpdate.write
    (u : RowUpdate ν)
    (cases : Str → Option (Case ν)) :
    Str → Option (Case ν) :=
  Function.update cases u.caseId
    ((cases u.caseId).map u.apply)

inductive CaseLabel where
| arrive (k : Nat)
| read (k : Nat)
| write (k : Nat)
| commit (k : Nat)

/- One read or write of one request. -/
inductive CaseStep :
    Desk ν → CaseLabel → Desk ν → Prop
| refused
    {d : Desk ν}
    {k : Nat}
    {req : CaseRequest}
    {e : Auth.HttpError}
    (hIdle : d.calls k = none)
    (hCheck : req.check = .error e) :
    CaseStep d (.arrive k) (d.set k ⟨req, .failed (.http e)⟩)
| arrived
    {d : Desk ν}
    {k : Nat}
    {req : CaseRequest}
    (hIdle : d.calls k = none)
    (hCheck : req.check = .ok ()) :
    CaseStep d (.arrive k) (d.set k ⟨req, .asked⟩)
| readOnly
    {d : Desk ν}
    {k : Nat}
    {req : CaseRequest}
    (hCall : d.calls k = some ⟨req, .asked⟩)
    (hOne : req.second = none) :
    CaseStep d (.read k)
      { d.set k
          ⟨req, planned
            (req.plan d.next (d.cases req.caseId) none)⟩ with
        next := d.next + 1 }
| readFirst
    {d : Desk ν}
    {k : Nat}
    {req : CaseRequest}
    {other : Str}
    (hCall : d.calls k = some ⟨req, .asked⟩)
    (hTwo : req.second = some other) :
    CaseStep d (.read k)
      (d.set k ⟨req, .half (d.cases req.caseId)⟩)
| readSecond
    {d : Desk ν}
    {k : Nat}
    {req : CaseRequest}
    {other : Str}
    {first : Option (Case ν)}
    (hCall : d.calls k = some ⟨req, .half first⟩)
    (hTwo : req.second = some other) :
    CaseStep d (.read k)
      { d.set k
          ⟨req, planned
            (req.plan d.next first (d.cases other))⟩ with
        next := d.next + 1 }
| write
    {d : Desk ν}
    {k : Nat}
    {req : CaseRequest}
    {goal : List Effect}
    {u : RowUpdate ν}
    {left : List (RowUpdate ν)}
    (hCall : d.calls k = some ⟨req, .writing goal (u :: left)⟩) :
    CaseStep d (.write k)
      { d.set k ⟨req, .writing goal left⟩ with
        cases := u.write d.cases
        landed := u.effects ++ d.landed }
| commit
    {d : Desk ν}
    {k : Nat}
    {req : CaseRequest}
    {goal : List Effect}
    (hCall : d.calls k = some ⟨req, .writing goal []⟩) :
    CaseStep d (.commit k) (d.set k ⟨req, .succeeded goal⟩)

end ThreatOrbit.Cases
