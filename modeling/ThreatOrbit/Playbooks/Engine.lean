import ThreatOrbit.Lib.Text

/-
  The SOAR playbook execution engine.

  A playbook is a list of steps. A run executes the steps in
  order, appends one result per step, and pauses at a step
  of kind `approval`; the paused run is kept in the
  `playbook_runs` table and resumed, or rejected, by
  `resolveApproval`.

  The step actions read and write the other tables of the
  platform. They, the clock, the audit log and the
  notification bell are the fields of `Platform`, over the
  type `W` of everything those tables hold.
-/

---- Steps And Results

namespace ThreatOrbit

namespace Playbooks

open Lib

/- What a step does, by its `kind`. -/
inductive StepKind where
| enrich
| condition
| blockIp
| isolateHost
| disableUser
| createCase
| addNote
| closeAlerts
| notify
| webhook
| approval
| other (name : Str)
deriving DecidableEq, Repr

namespace StepKind

/- The spelling of a kind in a stored step. -/
def text : StepKind → Str
| .enrich => lit "enrich"
| .condition => lit "condition"
| .blockIp => lit "block_ip"
| .isolateHost => lit "isolate_host"
| .disableUser => lit "disable_user"
| .createCase => lit "create_case"
| .addNote => lit "add_note"
| .closeAlerts => lit "close_alerts"
| .notify => lit "notify"
| .webhook => lit "webhook"
| .approval => lit "approval"
| .other name => name

end StepKind

/- The parameters an author gave a step. -/
abbrev Params := List (Str × Str)

/- One step of a playbook. -/
structure Step where
  kind : Option StepKind
  name : Option Str
  params : Params
deriving DecidableEq, Repr

/- The status a step action returns. -/
inductive StepStatus where
| success
| skipped
| failed
| gate
deriving DecidableEq, Repr

/- The status a result carries in the run record. -/
inductive ResultStatus where
| success
| skipped
| failed
| pendingApproval
deriving DecidableEq, Repr

/- The per-step entry of a run record. -/
structure StepResult where
  idx : Nat
  kind : Option StepKind
  name : Str
  status : ResultStatus
  detail : Str
  ts : Str
deriving DecidableEq, Repr

/- The status of a run. -/
inductive RunStatus where
| success
| failed
| awaitingApproval
| rejected
deriving DecidableEq, Repr

/- The default name of the step at an index. -/
def stepLabel (i : Nat) : Str :=
  lit "Step " ++ natStr (i + 1)

/- The name a result takes from its step. -/
def Step.displayName (s : Step) (i : Nat) : Str :=
  orStr s.name (orStr (s.kind.map StepKind.text)
    (stepLabel i))

end Playbooks

end ThreatOrbit

---- Run Context

namespace ThreatOrbit

namespace Playbooks

open Lib

/- The columns of the triggering alert a run keeps. -/
structure Alert where
  id : Str
  title : Option Str
  severity : Option Str
  srcIp : Option Str
  hostname : Option Str
  username : Option Str
  mitreTechId : Option Str
  mitreTactic : Option Str
  ruleName : Option Str
  ruleId : Option Str
  riskScore : Option Int
deriving DecidableEq, Repr

/- The dimension of the entity a run acts on. -/
inductive EntityType where
| ip
| host
| user
deriving DecidableEq, Repr

structure Entity where
  type : EntityType
  value : Str
deriving DecidableEq, Repr

/- What the enrichment step leaves for later steps. -/
structure Enrichment where
  ioc : Option (Option Str × Option Int × Option Str)
  relatedAlerts : Nat
deriving DecidableEq, Repr

/- The keys of the run context that are persisted. -/
structure StoredContext where
  alert : Option Alert
  entity : Option Entity
  caseId : Option Str
  enrichment : Option Enrichment
deriving DecidableEq, Repr

/- A webhook event queued by a step. -/
structure Dispatch where
  event : Str
  playbook : Str
  step : Str
  entity : Option Entity
  caseId : Option Str
deriving DecidableEq, Repr

/- The run context. The keys that start with an underscore,
here `playbookName` and `dispatches`, are not persisted. -/
structure RunContext extends StoredContext where
  playbookName : Str
  dispatches : List Dispatch
deriving DecidableEq, Repr

/- A column that holds a non-empty text. -/
def filled : Option Str → Option Str
| some [] => none
| column => column

/- The entity an alert is about: its address, host or user. -/
def Alert.entity (a : Alert) : Option Entity :=
  match filled a.srcIp, filled a.hostname,
      filled a.username with
  | some ip, _, _ => some ⟨.ip, ip⟩
  | none, some host, _ => some ⟨.host, host⟩
  | none, none, some user => some ⟨.user, user⟩
  | none, none, none => none

---- Platform And Tables

/- A notification for the bell. -/
structure Notification where
  type : Str
  severity : Str
  title : Str
  detail : Str
  link : Str
deriving DecidableEq, Repr

/- The outcome of a step action: its answer, or the text of
the exception it raised, with the context and the tables
as it left them. -/
structure StepOutcome (W : Type) where
  answer : Except Str (StepStatus × Str)
  ctx : RunContext
  world : W

/- A step action, given the parameters and the dry-run flag. -/
abbrev StepFn (W : Type) :=
  W → RunContext → Params → Bool → StepOutcome W

/- What the engine uses of the rest of the platform: the
clock, the alerts table, the step actions, the bell, the
audit log, and the rounding of a rate to three digits. -/
structure Platform (W : Type) where
  now : W → Str
  alertRow : W → Str → Option Alert
  stepFn : StepKind → Option (StepFn W)
  notify : W → Notification → W
  audit : W → Str → Str → Str → Str → W
  round3 : Rat → Rat

/- The status of the latest run, shown on the playbook. -/
inductive LastRunStatus where
| idle
| running
| success
| failure
deriving DecidableEq, Repr

/- A row of `playbooks`. `steps` is the stored JSON column,
`none` when its text does not parse. -/
structure PlaybookRow where
  id : Str
  name : Str
  runs : Nat
  successRate : Rat
  lastRun : Option Str
  lastRunStatus : LastRunStatus
  running : Bool
  steps : Option (List Step)
deriving DecidableEq, Repr

/- A row of `playbook_runs`. -/
structure RunRow where
  id : Str
  playbookId : Str
  playbookName : Str
  ts : Str
  finished : Option Str
  status : RunStatus
  trigger : Str
  actor : Str
  alertId : Option Str
  currentStep : Nat
  context : StoredContext
  steps : List StepResult
deriving DecidableEq, Repr

/- The run a call returns, before it is persisted. -/
structure PlaybookRun where
  id : Str
  playbookId : Str
  playbookName : Str
  ts : Str
  finished : Option Str
  status : RunStatus
  trigger : Str
  actor : Str
  alertId : Option Str
  currentStep : Nat
  context : RunContext
  steps : List StepResult
  dispatches : List Dispatch
  dryRun : Bool
deriving DecidableEq, Repr

/- The database: the playbook tables and the other tables. -/
structure Store (W : Type) where
  world : W
  playbooks : Str → Option PlaybookRow
  runs : Str → Option RunRow

namespace Store

variable {W : Type}

/- `UPDATE playbooks SET … WHERE id = …`. -/
def updatePlaybook
    (s : Store W)
    (id : Str)
    (f : PlaybookRow → PlaybookRow) : Store W :=
  { s with
    playbooks :=
      Function.update s.playbooks id
        ((s.playbooks id).map f) }

end Store

end Playbooks

end ThreatOrbit

---- Executor

namespace ThreatOrbit

namespace Playbooks

open Lib

section

variable {W : Type}

/- What executing a list of steps leaves behind. -/
structure ExecState (W : Type) where
  status : RunStatus
  results : List StepResult
  ctx : RunContext
  world : W

/- The result status a step status is recorded as. -/
def StepStatus.recorded : StepStatus → ResultStatus
| .success => .success
| .skipped => .skipped
| .failed => .failed
| .gate => .success

/- The loop of `execFrom`, over the steps still to run, from
index `i`, with the two flags of the source's loop. -/
def execLoop
    (P : Platform W)
    (dryRun : Bool) :
    List Step → Nat → Bool → Bool → List StepResult →
      RunContext → W → ExecState W
| [], _, _, failed, results, ctx, world =>
    { status := if failed then .failed else .success
      results := results
      ctx := ctx
      world := world }
| s :: rest, i, gated, failed, results, ctx, world =>
    let entry (w : W) (status : ResultStatus)
        (detail : Str) : StepResult :=
      { idx := i
        kind := s.kind
        name := s.displayName i
        status := status
        detail := detail
        ts := P.now w }
    if gated || failed then
      execLoop P dryRun rest (i + 1) gated failed
        (results ++ [entry world .skipped
          (if gated then lit "Gated by an earlier step"
            else lit "Skipped after failure")])
        ctx world
    else if s.kind = some .approval then
      if dryRun then
        execLoop P dryRun rest (i + 1) gated failed
          (results ++ [entry world .success
            (lit "Would pause for human approval")])
          ctx world
      else
        { status := .awaitingApproval
          results :=
            results ++ [entry world .pendingApproval
              (orStr (s.params.lookup (lit "message"))
                (lit "Awaiting human approval"))]
          ctx := ctx
          world := world }
    else
      match s.kind.bind P.stepFn with
      | none =>
          execLoop P dryRun rest (i + 1) gated failed
            (results ++ [entry world .skipped
              (lit "No executable action for this step")])
            ctx world
      | some fn =>
          let out := fn world ctx s.params dryRun
          match out.answer with
          | .error exc =>
              execLoop P dryRun rest (i + 1) gated true
                (results ++ [entry out.world .failed
                  (lit "Step error: " ++ exc)])
                out.ctx out.world
          | .ok (status, detail) =>
              execLoop P dryRun rest (i + 1)
                (decide (status = .gate))
                (decide (status = .failed))
                (results ++ [entry out.world
                  status.recorded detail])
                out.ctx out.world

/- Execute `steps[start:]`, appending one result per step, up
to the first approval gate that is reached. -/
def execFrom
    (P : Platform W)
    (steps : List Step)
    (results : List StepResult)
    (start : Nat)
    (ctx : RunContext)
    (dryRun : Bool)
    (world : W) : ExecState W :=
  execLoop P dryRun (steps.drop start) start false false
    results ctx world

/- The tables other than `playbooks` are left alone. -/
@[simp] theorem Store.updatePlaybook_runs
    (s : Store W)
    (id : Str)
    (f : PlaybookRow → PlaybookRow) :
    (s.updatePlaybook id f).runs = s.runs := rfl

/- No playbook has its steps edited between two stores. -/
def StepsKept (s t : Store W) : Prop :=
  ∀ pid,
    (t.playbooks pid).map PlaybookRow.steps =
      (s.playbooks pid).map PlaybookRow.steps

theorem StepsKept.trans
    {s t u : Store W}
    (hFirst : StepsKept s t) (hSecond : StepsKept t u) :
    StepsKept s u := by
  intro pid
  rw [hSecond pid, hFirst pid]

/- An update of other columns keeps the steps. -/
theorem Store.updatePlaybook_stepsKept
    (s : Store W) (id : Str) (f : PlaybookRow → PlaybookRow)
    (hKeep : ∀ row, (f row).steps = row.steps) :
    StepsKept s (s.updatePlaybook id f) := by
  intro pid
  by_cases hId : pid = id
  · subst hId
    simp only [Store.updatePlaybook, Function.update_self,
      Option.map_map]
    congr 1
    funext row
    exact hKeep row
  · simp [Store.updatePlaybook, hId]

/- The run context of a fresh run, from its alert if any. -/
def buildContext
    (P : Platform W)
    (world : W)
    (alertId : Option Str) : StoredContext :=
  match (filled alertId).bind (P.alertRow world) with
  | none => ⟨none, none, none, none⟩
  | some a => ⟨some a, a.entity, none, none⟩

/- The row a run is persisted as. -/
def PlaybookRun.row (run : PlaybookRun) : RunRow :=
  { id := run.id
    playbookId := run.playbookId
    playbookName := run.playbookName
    ts := run.ts
    finished := run.finished
    status := run.status
    trigger := run.trigger
    actor := run.actor
    alertId := run.alertId
    currentStep := run.currentStep
    context := run.context.toStoredContext
    steps := run.steps }

/- `INSERT OR REPLACE INTO playbook_runs`. -/
def saveRun (s : Store W) (run : PlaybookRun) : Store W :=
  { s with
    runs := Function.update s.runs run.id (some run.row) }

@[simp] theorem saveRun_playbooks
    (s : Store W)
    (run : PlaybookRun) :
    (saveRun s run).playbooks = s.playbooks := rfl

@[simp] theorem saveRun_runs_self
    (s : Store W)
    (run : PlaybookRun) :
    (saveRun s run).runs run.id = some run.row := by
  simp [saveRun]

/- Fold the outcome of a finished run into the success rate
of its playbook. -/
def finishPlaybook
    (P : Platform W)
    (s : Store W)
    (playbookId : Str)
    (ok : Bool) : Store W :=
  s.updatePlaybook playbookId (fun row =>
    let runs : Nat := max 1 row.runs
    { row with
      successRate :=
        P.round3
          ((row.successRate * ((runs : Rat) - 1) +
            (if ok then 1 else 0)) / (runs : Rat))
      lastRunStatus := if ok then .success else .failure
      running := false })

@[simp] theorem finishPlaybook_runs
    (P : Platform W)
    (s : Store W)
    (playbookId : Str)
    (ok : Bool) :
    (finishPlaybook P s playbookId ok).runs = s.runs := rfl

theorem finishPlaybook_stepsKept
    (P : Platform W) (s : Store W) (playbookId : Str) (ok : Bool) :
    StepsKept s (finishPlaybook P s playbookId ok) :=
  s.updatePlaybook_stepsKept _ _ (fun _ => rfl)

end

---- Starting And Resuming A Run

variable {W : Type}

/- Write an audit entry. -/
def Store.audit
    (P : Platform W)
    (s : Store W)
    (actor action target detail : Str) : Store W :=
  { s with world := P.audit s.world actor action target detail }

/- The spelling of a run status in the audit log. -/
def RunStatus.text : RunStatus → Str
| .success => lit "success"
| .failed => lit "failed"
| .awaitingApproval => lit "awaiting-approval"
| .rejected => lit "rejected"

/- The index of the result that waits, or their number. -/
def firstPending (results : List StepResult) : Nat :=
  match results.find?
      (fun r => r.status = .pendingApproval) with
  | some r => r.idx
  | none => results.length

/- The run record of a first execution. -/
def freshRun
    (P : Platform W)
    (runId : Str)
    (pb : PlaybookRow)
    (actor trigger : Str)
    (alertId : Option Str)
    (dryRun : Bool)
    (out : ExecState W) : PlaybookRun :=
  { id := runId
    playbookId := pb.id
    playbookName := pb.name
    ts := P.now out.world
    finished :=
      if out.status = .awaitingApproval then none
      else some (P.now out.world)
    status := out.status
    trigger := trigger
    actor := actor
    alertId := alertId
    currentStep := firstPending out.results
    context := out.ctx
    steps := out.results
    dispatches := out.ctx.dispatches
    dryRun := dryRun }

/- The columns a started run sets on its playbook. -/
def PlaybookRow.started
    (run : PlaybookRun)
    (row : PlaybookRow) : PlaybookRow :=
  { row with
    runs := row.runs + 1
    lastRun := some run.ts
    running := decide (run.status = .awaitingApproval) }

/- The column a paused run sets on its playbook. -/
def PlaybookRow.waiting (row : PlaybookRow) : PlaybookRow :=
  { row with lastRunStatus := .running }

/- The request for a decision on a paused run. -/
def approvalNotice (run : PlaybookRun) : Notification :=
  { type := lit "approval"
    severity := lit "high"
    title := lit "Approval required: " ++ run.playbookName
    detail := run.id
    link := lit "/dashboard/soar/playbooks" }

/- What a first execution updates on its playbook. -/
def notePlaybookRun
    (P : Platform W)
    (s : Store W)
    (run : PlaybookRun) : Store W :=
  let s :=
    s.updatePlaybook run.playbookId (PlaybookRow.started run)
  if run.status = .awaitingApproval then
    let s :=
      s.updatePlaybook run.playbookId PlaybookRow.waiting
    { s with world := P.notify s.world (approvalNotice run) }
  else
    finishPlaybook P s run.playbookId
      (decide (run.status = .success))

/- Run the steps of a playbook. The run record is persisted
under `runId` unless the run is a dry run. -/
def executePlaybook
    (P : Platform W)
    (s : Store W)
    (runId : Str)
    (pb : PlaybookRow)
    (actor trigger : Str)
    (alertId : Option Str)
    (dryRun : Bool) : PlaybookRun × Store W :=
  let ctx : RunContext :=
    { toStoredContext := buildContext P s.world alertId
      playbookName := pb.name
      dispatches := [] }
  let out :=
    execFrom P (pb.steps.getD []) [] 0 ctx dryRun s.world
  let run :=
    freshRun P runId pb actor trigger alertId dryRun out
  let s := { s with world := out.world }
  if dryRun then
    (run, s)
  else
    (run,
      (notePlaybookRun P (saveRun s run) run).audit P actor
        (lit "playbook.execute") pb.id
        (lit "name=" ++ pb.name ++ lit " trigger=" ++
          trigger ++ lit " status=" ++ out.status.text))

@[simp] theorem notePlaybookRun_runs
    (P : Platform W)
    (s : Store W)
    (run : PlaybookRun) :
    (notePlaybookRun P s run).runs = s.runs := by
  unfold notePlaybookRun
  dsimp only
  split <;> rfl

theorem notePlaybookRun_stepsKept
    (P : Platform W) (s : Store W) (run : PlaybookRun) :
    StepsKept s (notePlaybookRun P s run) := by
  have hStarted :=
    s.updatePlaybook_stepsKept run.playbookId
      (PlaybookRow.started run) (fun _ => rfl)
  unfold notePlaybookRun
  dsimp only
  split
  · exact hStarted.trans
      (Store.updatePlaybook_stepsKept _ run.playbookId
        PlaybookRow.waiting (fun _ => rfl))
  · exact hStarted.trans (finishPlaybook_stepsKept _ _ _ _)

/- Why a call to `resolveApproval` raises. -/
inductive ApprovalError where
| notAwaiting
| badSteps
deriving DecidableEq, Repr

/- The context a paused run is resumed with. The queued
dispatches of the first part are not persisted. -/
def RunRow.resumeContext (row : RunRow) : RunContext :=
  { toStoredContext := row.context
    playbookName := row.playbookName
    dispatches := [] }

/- The stamp of a decision on the pending entry. -/
def stampDecision
    (approve : Bool)
    (actor now : Str)
    (idx : Nat)
    (r : StepResult) : StepResult :=
  if r.idx = idx ∧ r.status = .pendingApproval then
    { r with
      status := if approve then .success else .failed
      detail :=
        (if approve then lit "Approved" else lit "Rejected") ++
          lit " by " ++ actor
      ts := now }
  else
    r

/- The entries a rejection appends for the steps it skips. -/
def skipRejected (now : Str) : List Step → Nat → List StepResult
| [], _ => []
| s :: rest, i =>
    { idx := i
      kind := s.kind
      name := orStr s.name (stepLabel i)
      status := .skipped
      detail := lit "Run rejected"
      ts := now } :: skipRejected now rest (i + 1)

/- What a decision does to the run: an approval executes the
steps after the gate, a rejection skips them. -/
def decideRun
    (P : Platform W)
    (world : W)
    (row : RunRow)
    (steps : List Step)
    (approve : Bool)
    (actor : Str) : ExecState W :=
  let idx := row.currentStep
  let now := P.now world
  let results :=
    row.steps.map (stampDecision approve actor now idx)
  if approve then
    execFrom P steps results (idx + 1) row.resumeContext
      false world
  else
    { status := .rejected
      results :=
        results ++ skipRejected now (steps.drop (idx + 1))
          (idx + 1)
      ctx := row.resumeContext
      world := world }

/- The run record after a decision. -/
def decidedRun
    (P : Platform W)
    (runId : Str)
    (row : RunRow)
    (out : ExecState W) : PlaybookRun :=
  { id := runId
    playbookId := row.playbookId
    playbookName := row.playbookName
    ts := row.ts
    finished := some (P.now out.world)
    status := out.status
    trigger := row.trigger
    actor := row.actor
    alertId := row.alertId
    currentStep := out.results.length
    context := out.ctx
    steps := out.results
    dispatches := out.ctx.dispatches
    dryRun := false }

/- Approve, and so resume, or reject a run paused at an
approval step. The answer is `none` for an unknown run; a
call that raises leaves the store as it was. -/
def resolveApproval
    (P : Platform W)
    (s : Store W)
    (runId : Str)
    (approve : Bool)
    (actor : Str) :
    Except ApprovalError (Option PlaybookRun) × Store W :=
  match s.runs runId with
  | none => (.ok none, s)
  | some row =>
    if row.status ≠ .awaitingApproval then
      (.error .notAwaiting, s)
    else
      let pb := s.playbooks row.playbookId
      match pb.elim (some []) PlaybookRow.steps with
      | none => (.error .badSteps, s)
      | some steps =>
        let out :=
          decideRun P s.world row steps approve actor
        let run := decidedRun P runId row out
        let s := saveRun { s with world := out.world } run
        let s :=
          match pb with
          | some pb =>
              finishPlaybook P s pb.id
                (decide (out.status = RunStatus.success))
          | none => s
        (.ok (some run),
          s.audit P actor (lit "playbook.approval") runId
            (lit "decision=" ++
              (if approve then lit "approve"
                else lit "reject") ++
              lit " playbook=" ++ row.playbookName))

end Playbooks

end ThreatOrbit
