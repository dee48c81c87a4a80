import ThreatOrbit.Playbooks.Approvals

/-
  Several callers decide on one run at a time.

  A call reads the run, reads its playbook, executes the
  steps one after the other and only then writes the run
  back. Nothing holds the run between the read and the
  write.
-/

---- One Iteration Of The Executor

namespace ThreatOrbit.Playbooks

open Lib

section

variable {W : Type}

/- The executor's loop between two of its iterations. -/
structure LoopState where
  rest : List Step
  idx : Nat
  gated : Bool
  failed : Bool
  results : List StepResult
  ctx : RunContext

/- The loop goes on, or it has ended. -/
inductive Iteration where
| next (l : LoopState)
| ended
    (status : RunStatus)
    (results : List StepResult)
    (ctx : RunContext)

/- What an iteration leaves, and whether it called the
action of its step. -/
structure Advanced (W : Type) where
  iteration : Iteration
  world : W
  acted : Bool

/- The loop after the iteration of one step. -/
def LoopState.after
    (l : LoopState)
    (rest : List Step)
    (gated failed : Bool)
    (r : StepResult)
    (ctx : RunContext) : LoopState :=
  ⟨rest, l.idx + 1, gated, failed, l.results ++ [r], ctx⟩

/- One iteration of the loop of `execFrom`. -/
def LoopState.advance
    (P : Platform W)
    (l : LoopState)
    (world : W) : Advanced W :=
  match l.rest with
  | [] =>
      ⟨.ended (if l.failed then .failed else .success)
        l.results l.ctx, world, false⟩
  | s :: rest =>
      let entry (w : W) (status : ResultStatus)
          (detail : Str) : StepResult :=
        { idx := l.idx
          kind := s.kind
          name := s.displayName l.idx
          status := status
          detail := detail
          ts := P.now w }
      if l.gated || l.failed then
        ⟨.next (l.after rest l.gated l.failed
          (entry world .skipped
            (if l.gated then lit "Gated by an earlier step"
              else lit "Skipped after failure")) l.ctx),
          world, false⟩
      else if s.kind = some .approval then
        ⟨.ended .awaitingApproval
          (l.results ++ [entry world .pendingApproval
            (orStr (s.params.lookup (lit "message"))
              (lit "Awaiting human approval"))])
          l.ctx, world, false⟩
      else
        match s.kind.bind P.stepFn with
        | none =>
            ⟨.next (l.after rest l.gated l.failed
              (entry world .skipped
                (lit "No executable action for this step"))
              l.ctx), world, false⟩
        | some fn =>
            let out := fn world l.ctx s.params false
            match out.answer with
            | .error exc =>
                ⟨.next (l.after rest l.gated true
                  (entry out.world .failed
                    (lit "Step error: " ++ exc)) out.ctx),
                  out.world, true⟩
            | .ok (status, detail) =>
                ⟨.next (l.after rest (decide (status = .gate))
                  (decide (status = .failed))
                  (entry out.world status.recorded detail)
                  out.ctx), out.world, true⟩

/- The rest of the execution, from a loop at rest. -/
def LoopState.finish
    (P : Platform W)
    (l : LoopState)
    (world : W) : ExecState W :=
  execLoop P false l.rest l.idx l.gated l.failed l.results
    l.ctx world

def Iteration.finish
    (P : Platform W)
    (world : W) :
    Iteration → ExecState W
| .next l => l.finish P world
| .ended status results ctx => ⟨status, results, ctx, world⟩

/- An iteration takes the loop one index and one result
further, or ends it without calling an action; a loop that
ends at an approval gate has one result more. -/
theorem LoopState.advance_cases
    (P : Platform W) (l : LoopState) (world : W) :
    (∃ l', (l.advance P world).iteration = .next l' ∧
      l'.rest.length + 1 = l.rest.length ∧
      l'.idx = l.idx + 1 ∧
      l'.results.length = l.results.length + 1) ∨
    (∃ status results ctx,
      (l.advance P world).iteration =
        .ended status results ctx ∧
      (l.advance P world).acted = false ∧
      (status = .awaitingApproval →
        results.length = l.results.length + 1)) := by
  rcases l with ⟨rest, idx, gated, failed, results, ctx⟩
  cases rest with
  | nil =>
      refine .inr ⟨_, _, _, rfl, rfl, ?_⟩
      cases failed <;> intro hNever <;> cases hNever
  | cons s rest =>
      simp only [advance]
      split
      · exact .inl ⟨_, rfl, rfl, rfl, by simp [after]⟩
      · split
        · exact .inr ⟨_, _, _, rfl, rfl, by simp⟩
        · split
          · exact .inl ⟨_, rfl, rfl, rfl, by simp [after]⟩
          · split
            · exact .inl ⟨_, rfl, rfl, rfl, by simp [after]⟩
            · exact .inl ⟨_, rfl, rfl, rfl, by simp [after]⟩

end

---- Calls In Flight

section

variable {W : Type}

/- What a call to `resolveApproval` is asked to do. -/
structure Call where
  approve : Bool
  actor : Str

/- How far a call has come. It has found the run waiting; it
executes the steps; it has decided and not yet written; it
has written the run. `row` is the row it read. -/
inductive Phase where
| idle
| waiting (row : RunRow)
| executing
    (row : RunRow)
    (playbookId : Option Str)
    (l : LoopState)
| decided
    (row : RunRow)
    (playbookId : Option Str)
    (status : RunStatus)
    (results : List StepResult)
    (ctx : RunContext)
| done (row : RunRow) (run : PlaybookRun)
| missing
| raised (error : ApprovalError)

/- The call reads the run. -/
def findRun (runId : Str) (s : Store W) : Phase :=
  match s.runs runId with
  | none => .missing
  | some row =>
      if row.status ≠ .awaitingApproval then
        .raised .notAwaiting
      else
        .waiting row

/- The call reads the playbook and stamps the gate. -/
def Call.start
    (P : Platform W)
    (call : Call)
    (s : Store W)
    (row : RunRow) : Phase :=
  let pb := s.playbooks row.playbookId
  match pb.elim (some []) PlaybookRow.steps with
  | none => .raised .badSteps
  | some steps =>
      let idx := row.currentStep
      let now := P.now s.world
      let results :=
        row.steps.map
          (stampDecision call.approve call.actor now idx)
      if call.approve then
        .executing row (pb.map PlaybookRow.id)
          ⟨steps.drop (idx + 1), idx + 1, false, false,
            results, row.resumeContext⟩
      else
        .decided row (pb.map PlaybookRow.id) .rejected
          (results ++ skipRejected now
            (steps.drop (idx + 1)) (idx + 1))
          row.resumeContext

/- The call after an iteration of its loop. -/
def Iteration.phase
    (row : RunRow)
    (playbookId : Option Str) :
    Iteration → Phase
| .next l => .executing row playbookId l
| .ended status results ctx =>
    .decided row playbookId status results ctx

/- The call writes the run, its playbook and the audit log.
The writes are one transaction: other calls see them
together, when it commits. -/
def Call.commit
    (P : Platform W)
    (call : Call)
    (runId : Str)
    (s : Store W)
    (row : RunRow)
    (playbookId : Option Str)
    (run : PlaybookRun) : Store W :=
  let s := saveRun s run
  let s :=
    match playbookId with
    | some id =>
        finishPlaybook P s id
          (decide (run.status = RunStatus.success))
    | none => s
  s.audit P call.actor (lit "playbook.approval") runId
    (lit "decision=" ++
      (if call.approve then lit "approve"
        else lit "reject") ++
      lit " playbook=" ++ row.playbookName)

/- The store, the calls by number, and the indices of the
steps whose actions the calls have called so far. -/
structure Floor (W : Type) where
  store : Store W
  calls : Nat → Phase
  executed : List Nat

/- No call was made yet. -/
def Floor.fresh (s : Store W) : Floor W :=
  ⟨s, fun _ => .idle, []⟩

inductive CallLabel where
| execute
| other
| readRun (c : Nat)
| readPlaybook (c : Nat)
| iterate (c : Nat)
| commit (c : Nat)
deriving DecidableEq

/- The call that takes the step. -/
def CallLabel.caller : CallLabel → Option Nat
| .execute => none
| .other => none
| .readRun c => some c
| .readPlaybook c => some c
| .iterate c => some c
| .commit c => some c

/- The run is started, the platform does anything that leaves
the run's record alone, or a call takes its next step. -/
inductive CallStep
    (P : Platform W)
    (runId : Str)
    (asked : Nat → Call) :
    Floor W → CallLabel → Floor W → Prop
| execute
    (f : Floor W)
    (pb : PlaybookRow)
    (actor trigger : Str)
    (alertId : Option Str)
    (hNew : f.store.runs runId = none) :
    CallStep P runId asked f .execute
      { f with
        store :=
          (executePlaybook P f.store runId pb actor trigger
            alertId false).2 }
| other
    (f : Floor W)
    (t : Store W)
    (hRecord : t.runs runId = f.store.runs runId) :
    CallStep P runId asked f .other { f with store := t }
| readRun
    (f : Floor W)
    (c : Nat)
    (hPhase : f.calls c = .idle) :
    CallStep P runId asked f (.readRun c)
      { f with
        calls :=
          Function.update f.calls c
            (findRun runId f.store) }
| readPlaybook
    (f : Floor W)
    (c : Nat)
    (row : RunRow)
    (hPhase : f.calls c = .waiting row) :
    CallStep P runId asked f (.readPlaybook c)
      { f with
        calls :=
          Function.update f.calls c
            ((asked c).start P f.store row) }
| iterate
    (f : Floor W)
    (c : Nat)
    (row : RunRow)
    (pb : Option Str)
    (l : LoopState)
    (hPhase : f.calls c = .executing row pb l) :
    CallStep P runId asked f (.iterate c)
      { store :=
          { f.store with
            world := (l.advance P f.store.world).world }
        calls :=
          Function.update f.calls c
            ((l.advance P f.store.world).iteration.phase
              row pb)
        executed :=
          f.executed ++
            if (l.advance P f.store.world).acted then [l.idx]
            else [] }
| commit
    (f : Floor W)
    (c : Nat)
    (row : RunRow)
    (pb : Option Str)
    (status : RunStatus)
    (results : List StepResult)
    (ctx : RunContext)
    (run : PlaybookRun)
    (hPhase :
      f.calls c = .decided row pb status results ctx)
    (hDecided :
      run =
        decidedRun P runId row
          ⟨status, results, ctx, f.store.world⟩) :
    CallStep P runId asked f (.commit c)
      { f with
        store :=
          (asked c).commit P runId f.store row pb run
        calls := Function.update f.calls c (.done row run) }

/- The row of a call that has found the run waiting and has
not yet written it or raised. -/
def Phase.inFlight : Phase → Option RunRow
| .waiting row => some row
| .executing row _ _ => some row
| .decided row _ _ _ _ => some row
| .idle => none
| .done _ _ => none
| .missing => none
| .raised _ => none

/- What an ended call returned or raised. -/
def Phase.answer :
    Phase → Option (Except ApprovalError (Option PlaybookRun))
| .done _ run => some (.ok (some run))
| .missing => some (.ok none)
| .raised error => some (.error error)
| .idle => none
| .waiting _ => none
| .executing _ _ _ => none
| .decided _ _ _ _ _ => none

end

---- A Call On Its Own

variable {W : Type}
variable {P : Platform W}
variable {runId : Str}
variable {asked : Nat → Call}

end ThreatOrbit.Playbooks
