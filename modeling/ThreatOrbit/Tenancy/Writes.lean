import ThreatOrbit.Cases.Requests
import ThreatOrbit.Detection.Engine
import ThreatOrbit.Intel.Matching
import ThreatOrbit.Playbooks.Engine

/-
  The endpoints that change a record named by its id.

  Each looks the record up, or updates it by its id, and
  answers 404 where there is none. The workspace of the
  caller is read to stamp new records only.
-/

---- Tables

namespace ThreatOrbit.Tenancy

open Lib

section

/- The columns of `playbooks` an update sets, beside the
steps. -/
structure PlaybookColumns where
  enabled : Bool
  triggerMatch : Str
  triggerType : Str
  description : Option Str
deriving DecidableEq, Repr

/- A row of `playbook_versions`. -/
structure PlaybookVersion where
  playbookId : Str
  version : Nat
  steps : Option (List Playbooks.Step)
  triggerMatch : Str
  author : Str
  note : Str
deriving DecidableEq, Repr

/- The columns of `detection_rules` an update sets, for a
type of definitions. -/
structure RuleColumns (D : Type) where
  name : Str
  status : Str
  severityOverride : Option Str
  suppressionWindow : Option Int
  definition : D
  updatedBy : Option Str

/- A row of `saved_hunts`. -/
structure HuntColumns where
  domain : Str
  name : Str
  query : Option Str
  technique : Option Str
  lastRun : Option Str
  hitCount : Nat
  status : Str
  progress : Nat
  scheduleMinutes : Int
  autoAlert : Bool
deriving DecidableEq, Repr

/- The columns of `iocs` these endpoints use. -/
structure IocColumns where
  value : Str
  type : Str
  status : Str
  confidence : Option Int
  sightings : Nat
  lastSeen : Str
deriving DecidableEq, Repr

/- A row of `ioc_sightings`. -/
structure SightingRow where
  iocId : Str
  ts : Str
  source : Str
  context : Str
deriving DecidableEq, Repr

/- The tables whose records have ids. -/
inductive RecordKind where
| case
| playbook
| run
| suppression
| rule
| hunt
| ioc
deriving DecidableEq, Repr

/- The tables, each by the ids of its rows, and the workspace
column of every row. The audit log is left out, and what
the step actions of playbooks and the enrichment pipeline
write are tables of any type. -/
structure Tables (ν W D E : Type) where
  cases : Str → Option (Cases.Case ν)
  mark : Nat
  soar : Playbooks.Store W
  playbookColumns : Str → PlaybookColumns
  versions : List PlaybookVersion
  suppressions : Str → Option Detection.Suppression
  rules : Str → Option (RuleColumns D)
  hunts : Str → Option HuntColumns
  iocs : Str → Option IocColumns
  sightings : List SightingRow
  enrichments : E
  org : RecordKind → Str → Str

/- What the endpoints call: the playbook engine, what the
JSON reader says of the steps of a run's playbook, the checks
of a rule definition, the hits of a hunt and the enrichment
of an indicator. -/
structure Services (W D E : Type) where
  playbooks : Playbooks.Platform W
  jsonError : Str → Str
  invalidRule : D → Option Str
  hits : Str → Str → Nat
  enrich : E → Str → Str → Bool → E

variable {ν W D E : Type}

/- A record is there. -/
def Tables.Has
    (t : Tables ν W D E)
    (kind : RecordKind)
    (id : Str) : Prop :=
  match kind with
  | .case => t.cases id ≠ none
  | .playbook => t.soar.playbooks id ≠ none
  | .run => t.soar.runs id ≠ none
  | .suppression => t.suppressions id ≠ none
  | .rule => t.rules id ≠ none
  | .hunt => t.hunts id ≠ none
  | .ioc => t.iocs id ≠ none

end

---- Cases

open Auth (HttpError Principal)
open Cases (CaseRequest Refusal Case WarEntry Task Link)

section

variable {ν W D E : Type} [DecidableEq ν]

/- The answer to a refused request. A step of a playbook is
no endpoint. -/
def refusal : Refusal → HttpError
| .http e => e
| .step detail => ⟨500, detail⟩

/- A request on cases, its reads and writes in one piece. -/
def caseWrite
    (req : CaseRequest)
    (t : Tables ν W D E) : Except HttpError (Tables ν W D E) :=
  match req.check with
  | .error e => .error e
  | .ok _ =>
      match req.plan t.mark (t.cases req.caseId)
          (req.second.bind t.cases) with
      | .error why => .error (refusal why)
      | .ok updates =>
          .ok
            { t with
              cases :=
                updates.foldl (fun rows u => u.write rows) t.cases
              mark := t.mark + 1 }

def caseNotFound : HttpError :=
  ⟨404, lit "Case not found"⟩

/- `export_evidence_bundle`: it writes an audit entry. -/
def exportEvidenceBundle
    (caseId : Str)
    (t : Tables ν W D E) : Except HttpError (Tables ν W D E) :=
  match t.cases caseId with
  | none => .error caseNotFound
  | some _ => .ok t

/- `CaseSplit`, with the ids it draws and the time. -/
structure SplitBody (ν : Type) where
  title : Str
  entities : List (Cases.Entity ν)
  drawn : List Str
  now : Str

/- The tasks of a case that was split off. -/
def splitTasks : List Task :=
  [⟨lit "T1", lit "Triage", lit "Validate split scope",
      lit "pending", none, []⟩,
    ⟨lit "T2", lit "Containment", lit "Contain",
      lit "pending", none, []⟩,
    ⟨lit "T3", lit "Recovery", lit "Restore",
      lit "pending", none, []⟩]

/- The case that is split off. -/
def SplitBody.child
    (body : SplitBody ν)
    (user : Principal)
    (caseId : Str)
    (mark : Nat)
    (parent : Case ν) : Case ν where
  title := strip body.title
  status := lit "new"
  updated := body.now
  alertCount := 0
  entities := body.entities
  warRoom :=
    [⟨mark, body.now, user.email, lit "system",
      lit "Split from case " ++ caseId ++ lit " (" ++
        parent.title ++ lit ")."⟩]
  tasks := splitTasks
  evidence := []
  links := [⟨caseId, lit "split-from", body.now⟩]

def splitCase
    (caseId : Str)
    (body : SplitBody ν)
    (user : Principal)
    (t : Tables ν W D E) : Except HttpError (Tables ν W D E) :=
  if strip body.title = [] then
    .error ⟨400, lit "New case title is required"⟩
  else
    match t.cases caseId with
    | none => .error caseNotFound
    | some parent =>
        match (body.drawn.take 50).find?
            (fun cand => (t.cases cand).isNone) with
        | none => .error ⟨500, lit "Could not allocate a case id"⟩
        | some cid =>
            .ok
              { t with
                cases :=
                  Function.update
                    (Function.update t.cases cid
                      (some (body.child user caseId t.mark
                        parent)))
                    caseId
                    (some
                      { parent with
                        links :=
                          parent.links ++
                            [⟨cid, lit "split-into", body.now⟩]
                        updated := body.now })
                mark := t.mark + 1
                org :=
                  Function.update t.org .case
                    (Function.update (t.org .case) cid
                      (Auth.orgOr (some user.orgId))) }

end

---- Playbooks

open Playbooks (Step)

section

variable {ν W D E : Type}

/- `sorted(STEP_KINDS)`. -/
def stepKinds : List Str :=
  [lit "add_note", lit "approval", lit "block_ip",
    lit "close_alerts", lit "condition", lit "create_case",
    lit "disable_user", lit "enrich", lit "isolate_host",
    lit "notify", lit "webhook"]

/- The first step that is refused, and why. -/
def badStep : List Step → Nat → Option Str
| [], _ => none
| s :: rest, i =>
    if !(s.kind.any fun k => stepKinds.contains k.text) then
      some (lit "Step " ++ natStr (i + 1) ++
        lit ": kind must be one of ['add_note', 'approval', " ++
        lit "'block_ip', 'close_alerts', 'condition', " ++
        lit "'create_case', 'disable_user', 'enrich', " ++
        lit "'isolate_host', 'notify', 'webhook']")
    else if strip (orStr s.name []) = [] then
      some (lit "Step " ++ natStr (i + 1) ++
        lit ": name is required")
    else badStep rest (i + 1)

structure PlaybookUpdate where
  enabled : Option Bool
  steps : Option (List Step)
  triggerMatch : Option Str
  triggerType : Option Str
  description : Option Str
deriving DecidableEq, Repr

def playbookNotFound : HttpError :=
  ⟨404, lit "Playbook not found"⟩

/- The checks of `update_playbook`. -/
def PlaybookUpdate.check
    (body : PlaybookUpdate) : Option HttpError :=
  match body.steps.bind (badStep · 0) with
  | some detail => some ⟨400, detail⟩
  | none =>
      if body.triggerType.any fun x =>
          x != lit "auto" && x != lit "manual" then
        some ⟨400, lit "trigger_type must be auto|manual"⟩
      else if body = ⟨none, none, none, none, none⟩ then
        some ⟨400, lit "No fields to update"⟩
      else none

def snapshotVersion
    (t : Tables ν W D E)
    (playbookId : Str)
    (steps : Option (List Step))
    (triggerMatch author note : Str) : Tables ν W D E :=
  { t with
    versions :=
      t.versions ++
        [{ playbookId := playbookId
           version :=
            ((t.versions.filter
              (·.playbookId == playbookId)).map
              PlaybookVersion.version).foldr max 0 + 1
           steps := steps
           triggerMatch := triggerMatch
           author := author
           note := note }] }

def setPlaybook
    (t : Tables ν W D E)
    (id : Str)
    (steps : Option (List Step))
    (columns : PlaybookColumns) : Tables ν W D E :=
  { t with
    soar :=
      t.soar.updatePlaybook id fun row =>
        { row with steps := steps }
    playbookColumns :=
      Function.update t.playbookColumns id columns }

/- `update_playbook`. The display keys of the steps are no
part of a step here. -/
def updatePlaybook
    (id : Str)
    (body : PlaybookUpdate)
    (user : Principal)
    (t : Tables ν W D E) : Except HttpError (Tables ν W D E) :=
  match body.check with
  | some e => .error e
  | none =>
      match t.soar.playbooks id with
      | none => .error playbookNotFound
      | some row =>
          let old := t.playbookColumns id
          let steps := body.steps.map some |>.getD row.steps
          let columns : PlaybookColumns :=
            { enabled := body.enabled.getD old.enabled
              triggerMatch :=
                body.triggerMatch.getD old.triggerMatch
              triggerType := body.triggerType.getD old.triggerType
              description :=
                body.description.orElse fun _ =>
                  old.description }
          let t := setPlaybook t id steps columns
          .ok
            (if body.steps.isSome || body.triggerMatch.isSome then
              snapshotVersion t id steps columns.triggerMatch
                user.email (lit "edited")
            else t)

def revertPlaybook
    (id : Str)
    (version : Nat)
    (user : Principal)
    (t : Tables ν W D E) : Except HttpError (Tables ν W D E) :=
  match t.versions.find? fun v =>
      v.playbookId == id && v.version == version with
  | none => .error ⟨404, lit "Version not found"⟩
  | some snap =>
      match t.soar.playbooks id with
      | none => .error playbookNotFound
      | some _ =>
          let columns :=
            { t.playbookColumns id with
              triggerMatch := snap.triggerMatch }
          .ok
            (snapshotVersion (setPlaybook t id snap.steps columns)
              id snap.steps snap.triggerMatch user.email
              (lit "reverted to v" ++ natStr version))

/- `run_playbook`, under the id of the new run. -/
def runPlaybook
    (env : Services W D E)
    (id runId : Str)
    (alertId : Option Str)
    (dryRun : Bool)
    (user : Principal)
    (t : Tables ν W D E) : Except HttpError (Tables ν W D E) :=
  match t.soar.playbooks id with
  | none => .error playbookNotFound
  | some row =>
      if !(t.playbookColumns id).enabled then
        .error ⟨409, lit "Playbook is disabled"⟩
      else
        .ok
          { t with
            soar :=
              (Playbooks.executePlaybook env.playbooks t.soar runId
                row user.email (lit "manual") alertId
                dryRun).2 }

/- `approve_run` and `reject_run`. -/
def decideRun
    (env : Services W D E)
    (runId : Str)
    (approve : Bool)
    (user : Principal)
    (t : Tables ν W D E) : Except HttpError (Tables ν W D E) :=
  match Playbooks.resolveApproval env.playbooks t.soar runId
      approve user.email with
  | (.error .notAwaiting, _) =>
      .error ⟨409, lit "Run is not awaiting approval"⟩
  | (.error .badSteps, _) => .error ⟨409, env.jsonError runId⟩
  | (.ok none, _) => .error ⟨404, lit "Run not found"⟩
  | (.ok (some _), soar) => .ok { t with soar := soar }

end

---- Detection And Hunts

section

variable {ν W D E : Type}

def deleteSuppression
    (id : Str)
    (t : Tables ν W D E) : Except HttpError (Tables ν W D E) :=
  match t.suppressions id with
  | none => .error ⟨404, lit "Suppression not found"⟩
  | some _ =>
      .ok
        { t with
          suppressions := Function.update t.suppressions id none }

structure RuleUpdate (D : Type) where
  status : Option Str
  severityOverride : Option Str
  suppressionWindow : Option Int
  definition : Option D

def ruleNotFound : HttpError :=
  ⟨404, lit "Rule not found"⟩

/- The checks of `update_rule`. -/
def RuleUpdate.check
    (env : Services W D E)
    (body : RuleUpdate D) : Option HttpError :=
  if !([[], lit "disabled", lit "enabled",
      lit "suppressed"].contains (orStr body.status [])) then
    some ⟨400, lit "status must be one of " ++
      lit "['disabled', 'enabled', 'suppressed']"⟩
  else
    match body.definition.bind env.invalidRule with
    | some detail => some ⟨400, detail⟩
    | none =>
        if body.status.isNone && body.severityOverride.isNone &&
            body.suppressionWindow.isNone &&
            body.definition.isNone then
          some ⟨400, lit "No fields to update"⟩
        else none

/- `update_rule`. An empty override clears it. -/
def updateRule
    (env : Services W D E)
    (id : Str)
    (body : RuleUpdate D)
    (user : Principal)
    (t : Tables ν W D E) : Except HttpError (Tables ν W D E) :=
  match body.check env with
  | some e => .error e
  | none =>
      match t.rules id with
      | none => .error ruleNotFound
      | some row =>
          .ok
            { t with
              rules :=
                Function.update t.rules id
                  (some
                    { row with
                      status := body.status.getD row.status
                      severityOverride :=
                        match body.severityOverride with
                        | none => row.severityOverride
                        | some [] => none
                        | some s => some s
                      suppressionWindow :=
                        body.suppressionWindow.orElse fun _ =>
                          row.suppressionWindow
                      definition :=
                        body.definition.getD row.definition
                      updatedBy := some user.email }) }

def deleteRule
    (id : Str)
    (t : Tables ν W D E) : Except HttpError (Tables ν W D E) :=
  match t.rules id with
  | none => .error ruleNotFound
  | some _ =>
      .ok { t with rules := Function.update t.rules id none }

def huntNotFound : HttpError :=
  ⟨404, lit "Hunt not found"⟩

def huntIn
    (t : Tables ν W D E)
    (domain id : Str) : Option HuntColumns :=
  (t.hunts id).filter fun h => h.domain == domain

/- The text a saved hunt searches for. -/
def HuntColumns.text (h : HuntColumns) : Str :=
  joinWith (lit " ")
    ([orStr h.query [], orStr h.technique [], h.name].filter
      fun s => s != [])

/- `run_hunt` of a domain. -/
def runHunt
    (env : Services W D E)
    (domain id now : Str)
    (t : Tables ν W D E) : Except HttpError (Tables ν W D E) :=
  match huntIn t domain id with
  | none => .error huntNotFound
  | some h =>
      .ok
        { t with
          hunts :=
            Function.update t.hunts id
              (some
                { h with
                  lastRun := some now
                  hitCount := env.hits domain h.text
                  status := lit "complete"
                  progress := 100 }) }

/- `schedule_hunt` and `schedule_watchlist`. -/
def scheduleHunt
    (domain id : Str)
    (minutes : Int)
    (autoAlert : Bool)
    (t : Tables ν W D E) : Except HttpError (Tables ν W D E) :=
  if minutes < 0 || minutes > 10080 then
    .error ⟨400, lit "schedule_minutes must be 0..10080"⟩
  else
    match huntIn t domain id with
    | none => .error huntNotFound
    | some h =>
        .ok
          { t with
            hunts :=
              Function.update t.hunts id
                (some
                  { h with
                    scheduleMinutes := minutes
                    autoAlert := autoAlert
                    status :=
                      if minutes > 0 then lit "scheduled"
                      else lit "idle" }) }

end

---- Indicators

section

variable {ν W D E : Type}

def iocNotFound : HttpError :=
  ⟨404, lit "IOC not found"⟩

def IocColumns.seen (now : Str) (r : IocColumns) : IocColumns :=
  { r with
    sightings := r.sightings + 1
    lastSeen := now
    confidence :=
      some (min Intel.confidenceCap
        (r.confidence.getD 0 + Intel.sightingBoost))
    status :=
      if r.status = lit "known-good" then r.status
      else lit "active" }

def addSighting
    (id source : Str)
    (context : Option Str)
    (now : Str)
    (t : Tables ν W D E) : Except HttpError (Tables ν W D E) :=
  if id = [] then .error iocNotFound
  else
    match t.iocs id with
    | none => .error iocNotFound
    | some row =>
        .ok
          { t with
            sightings :=
              t.sightings ++
                [⟨id, now,
                  orStr (some (strip source)) (lit "manual"),
                  (orStr context []).take 500⟩]
            iocs :=
              Function.update t.iocs id (some (row.seen now)) }

def enrichIoc
    (env : Services W D E)
    (id : Str)
    (refresh : Bool)
    (t : Tables ν W D E) : Except HttpError (Tables ν W D E) :=
  match t.iocs id with
  | none => .error iocNotFound
  | some row =>
      .ok
        { t with
          enrichments :=
            env.enrich t.enrichments row.value row.type refresh }

/- `whitelist_ioc` and `unwhitelist_ioc`. -/
def setKnownGood
    (id : Str)
    (knownGood : Bool)
    (t : Tables ν W D E) : Except HttpError (Tables ν W D E) :=
  match t.iocs id with
  | none => .error iocNotFound
  | some row =>
      .ok
        { t with
          iocs :=
            Function.update t.iocs id
              (some
                { row with
                  status :=
                    if knownGood then lit "known-good"
                    else lit "active" }) }

end

---- Endpoints

open Cases (EvidenceAdd TaskChange)

/- The endpoints that name a record by its id, with what they
are sent. Times and new ids come with the request. -/
inductive Write (ν D : Type) where
| note (id content type now : Str)
| task (id taskId : Str) (body : TaskChange) (now : Str)
| evidence (id : Str) (body : EvidenceAdd)
    (itemId sha256 now : Str)
| exportBundle (id : Str)
| link (id other relation now : Str)
| merge (id source now : Str)
| split (id : Str) (body : SplitBody ν)
| updatePlaybook (id : Str) (body : PlaybookUpdate)
| revertPlaybook (id : Str) (version : Nat)
| runPlaybook (id runId : Str) (alertId : Option Str)
    (dryRun : Bool)
| approveRun (id : Str)
| rejectRun (id : Str)
| deleteSuppression (id : Str)
| updateRule (id : Str) (body : RuleUpdate D)
| deleteRule (id : Str)
| runHunt (domain id now : Str)
| scheduleHunt (domain id : Str) (minutes : Int)
    (autoAlert : Bool)
| sighting (id source : Str) (context : Option Str) (now : Str)
| enrich (id : Str) (refresh : Bool)
| knownGood (id : Str)
| notKnownGood (id : Str)

variable {ν W D E : Type}

/- The record an endpoint names. -/
def Write.names : Write ν D → RecordKind × Str
| .note id _ _ _ => (.case, id)
| .task id _ _ _ => (.case, id)
| .evidence id _ _ _ _ => (.case, id)
| .exportBundle id => (.case, id)
| .link id _ _ _ => (.case, id)
| .merge id _ _ => (.case, id)
| .split id _ => (.case, id)
| .updatePlaybook id _ => (.playbook, id)
| .revertPlaybook id _ => (.playbook, id)
| .runPlaybook id _ _ _ => (.playbook, id)
| .approveRun id => (.run, id)
| .rejectRun id => (.run, id)
| .deleteSuppression id => (.suppression, id)
| .updateRule id _ => (.rule, id)
| .deleteRule id => (.rule, id)
| .runHunt _ id _ => (.hunt, id)
| .scheduleHunt _ id _ _ => (.hunt, id)
| .sighting id _ _ _ => (.ioc, id)
| .enrich id _ => (.ioc, id)
| .knownGood id => (.ioc, id)
| .notKnownGood id => (.ioc, id)

variable [DecidableEq ν]

/- What an endpoint answers a caller: an error, or the tables
it leaves. -/
def Write.run
    (env : Services W D E)
    (user : Principal)
    (t : Tables ν W D E) :
    Write ν D → Except HttpError (Tables ν W D E)
| .note id content type now =>
    caseWrite (.note id content type user.email now) t
| .task id taskId body now => caseWrite (.task id taskId body now) t
| .evidence id body itemId sha256 now =>
    caseWrite (.evidence id body itemId sha256 user.email now) t
| .exportBundle id => exportEvidenceBundle id t
| .link id other relation now =>
    caseWrite (.link id other relation now) t
| .merge id source now =>
    caseWrite (.merge ⟨id, source, user.email, now⟩) t
| .split id body => splitCase id body user t
| .updatePlaybook id body => Tenancy.updatePlaybook id body user t
| .revertPlaybook id version =>
    Tenancy.revertPlaybook id version user t
| .runPlaybook id runId alertId dryRun =>
    Tenancy.runPlaybook env id runId alertId dryRun user t
| .approveRun id => decideRun env id true user t
| .rejectRun id => decideRun env id false user t
| .deleteSuppression id => Tenancy.deleteSuppression id t
| .updateRule id body => Tenancy.updateRule env id body user t
| .deleteRule id => Tenancy.deleteRule id t
| .runHunt domain id now => Tenancy.runHunt env domain id now t
| .scheduleHunt domain id minutes autoAlert =>
    Tenancy.scheduleHunt domain id minutes autoAlert t
| .sighting id source context now =>
    addSighting id source context now t
| .enrich id refresh => enrichIoc env id refresh t
| .knownGood id => setKnownGood id true t
| .notKnownGood id => setKnownGood id false t

end ThreatOrbit.Tenancy
