import ThreatOrbit.Playbooks.SuccessRate

/-
  Playbooks that are edited while their runs wait.

  A run stores its results and not its steps: an approval
  performs the steps after the gate of the definition that
  is stored when it is given.
-/

---- Actions Performed

namespace ThreatOrbit.Playbooks

open Lib

section

variable {W : Type}

/- A step action that was called: its kind and parameters. -/
abbrev Action := StepKind × Params

/- The platform, with a log of the step actions called. -/
def logged (P : Platform W) : Platform (W × List Action) where
  now w := P.now w.1
  alertRow w id := P.alertRow w.1 id
  stepFn kind :=
    (P.stepFn kind).map fun fn w ctx params dryRun =>
      let out := fn w.1 ctx params dryRun
      { answer := out.answer
        ctx := out.ctx
        world := (out.world, w.2 ++ [(kind, params)]) }
  notify w n := (P.notify w.1 n, w.2)
  audit w actor action target detail :=
    (P.audit w.1 actor action target detail, w.2)
  round3 := P.round3

/- The actions that executing the steps performs: up to the
first that fails or gates the rest, and up to the next
approval gate. -/
@[grind =]
def performed
    (P : Platform W) :
    List Step → RunContext → W → List Action
| [], _, _ => []
| s :: rest, ctx, world =>
    match s.kind with
    | none => performed P rest ctx world
    | some kind =>
        if kind = .approval then
          []
        else
          match P.stepFn kind with
          | none => performed P rest ctx world
          | some fn =>
              let out := fn world ctx s.params false
              (kind, s.params) ::
                match out.answer with
                | .error _ => []
                | .ok (status, _) =>
                    if status = .failed ∨ status = .gate then
                      []
                    else
                      performed P rest out.ctx out.world

def Step.action (s : Step) : Option Action :=
  s.kind.map fun kind => (kind, s.params)

/- An execution that was gated or failed performs nothing. -/
theorem execLoop_logged_stopped
    (P : Platform W) (steps : List Step) (i : Nat)
    (gated failed : Bool) (results : List StepResult)
    (ctx : RunContext) (world : W × List Action)
    (hStopped : (gated || failed) = true) :
    (execLoop (logged P) false steps i gated failed results
      ctx world).world = world := by
  induction steps generalizing i results with
  | nil => rfl
  | cons s rest ih =>
      unfold execLoop
      rw [if_pos hStopped]
      exact ih _ _

/- The log of an execution is what it performs. -/
theorem execLoop_logged
    (P : Platform W) (steps : List Step) (i : Nat)
    (results : List StepResult) (ctx : RunContext) (world : W)
    (log : List Action) :
    (execLoop (logged P) false steps i false false results
      ctx (world, log)).world.2 =
        log ++ performed P steps ctx world := by
  induction steps generalizing i results ctx world log with
  | nil => simp [execLoop, performed]
  | cons s rest ih =>
      unfold execLoop performed
      simp only [Bool.or_self, Bool.false_eq_true, if_false]
      cases hKind : s.kind with
      | none => simpa using ih _ _ _ _ _
      | some kind =>
          simp only [Option.some.injEq, Option.bind_some]
          by_cases hGate : kind = .approval
          · simp [hGate]
          · simp only [hGate, if_false]
            cases hFn : P.stepFn kind with
            | none =>
                have hLogged : (logged P).stepFn kind = none := by
                  simp [logged, hFn]
                rw [hLogged]
                exact ih _ _ _ _ _
            | some fn =>
                have hLogged :
                    (logged P).stepFn kind =
                      some fun w ctx params dryRun =>
                        let out := fn w.1 ctx params dryRun
                        { answer := out.answer
                          ctx := out.ctx
                          world :=
                            (out.world,
                              w.2 ++ [(kind, params)]) } := by
                  simp [logged, hFn]
                rw [hLogged]
                dsimp only
                cases hAnswer :
                    (fn world ctx s.params false).answer with
                | error exc =>
                    simp [execLoop_logged_stopped]
                | ok answer =>
                    rcases answer with ⟨status, detail⟩
                    cases status with
                    | success =>
                        refine Eq.trans (ih _ _ _ _ _) ?_
                        rw [List.append_assoc]
                        rfl
                    | skipped =>
                        refine Eq.trans (ih _ _ _ _ _) ?_
                        rw [List.append_assoc]
                        rfl
                    | failed => simp [execLoop_logged_stopped]
                    | gate => simp [execLoop_logged_stopped]

/- An execution that pauses stops at an approval gate. -/
theorem execLoop_gate
    (P : Platform W) (dryRun : Bool) (steps : List Step) (i : Nat)
    (gated failed : Bool) (results : List StepResult)
    (ctx : RunContext) (world : W)
    (hPauses :
      (execLoop P dryRun steps i gated failed results ctx
        world).status = .awaitingApproval) :
    ∃ k s,
      steps[k]? = some s ∧ s.kind = some .approval ∧
      (execLoop P dryRun steps i gated failed results ctx
        world).results.length = results.length + k + 1 := by
  induction steps generalizing i gated failed results ctx
    world with
  | nil => cases failed <;> cases hPauses
  | cons s rest ih =>
      -- every branch but the pause goes on with one result more
      have hStep :
          ∀ (g f : Bool) (r : StepResult) (c : RunContext)
            (w : W),
            (execLoop P dryRun rest (i + 1) g f
              (results ++ [r]) c w).status =
                .awaitingApproval →
            ∃ k t,
              (s :: rest)[k]? = some t ∧
              t.kind = some .approval ∧
              (execLoop P dryRun rest (i + 1) g f
                (results ++ [r]) c w).results.length =
                  results.length + k + 1 := by
        intro g f r c w hLater
        rcases ih (i + 1) g f (results ++ [r]) c w hLater with
          ⟨k, t, hAt, hKind, hLength⟩
        refine ⟨k + 1, t, hAt, hKind, ?_⟩
        rw [hLength, List.length_append, List.length_singleton]
        omega
      unfold execLoop at hPauses ⊢
      dsimp only at hPauses ⊢
      split at hPauses
      · rename_i hStopped
        rw [if_pos hStopped]
        exact hStep _ _ _ _ _ hPauses
      · rename_i hGoes
        rw [if_neg hGoes]
        split at hPauses
        · rename_i hGate
          rw [if_pos hGate]
          split at hPauses
          · rename_i hDry
            rw [if_pos hDry]
            exact hStep _ _ _ _ _ hPauses
          · rename_i hReal
            rw [if_neg hReal]
            exact ⟨0, s, rfl, hGate, by simp⟩
        · rename_i hOther
          rw [if_neg hOther]
          split at hPauses
          · exact hStep _ _ _ _ _ hPauses
          · split at hPauses
            · exact hStep _ _ _ _ _ hPauses
            · exact hStep _ _ _ _ _ hPauses

end

---- Decisions

section

variable {W : Type}

/- A decision leaves the other runs alone. -/
theorem resolveApproval_runs_of_ne
    (P : Platform W) (s : Store W) {runId id : Str} (approve : Bool)
    (actor : Str) (hOther : id ≠ runId) :
    (resolveApproval P s runId approve actor).2.runs id =
      s.runs id := by
  unfold resolveApproval
  cases hRun : s.runs runId with
  | none => rfl
  | some row =>
      simp only
      split
      · rfl
      · split
        · rfl
        · cases hPb : s.playbooks row.playbookId with
          | none =>
              simp [Store.audit, saveRun, decidedRun, hOther]
          | some pb =>
              simp [Store.audit, saveRun, decidedRun, hOther]

/- What a decision on a waiting run performs: an approval the
steps after the current one of the stored definition, a
rejection nothing. -/
theorem resolveApproval_logged
    (P : Platform W) {s : Store (W × List Action)} {runId : Str}
    (approve : Bool) (actor : Str)
    {row : RunRow} {steps : List Step}
    (hRow : s.runs runId = some row)
    (hWaits : row.status = .awaitingApproval)
    (hSteps :
      (s.playbooks row.playbookId).elim (some [])
        PlaybookRow.steps = some steps) :
    (resolveApproval (logged P) s runId approve
        actor).2.world.2 =
      s.world.2 ++
        if approve then
          performed P (steps.drop (row.currentStep + 1))
            row.resumeContext s.world.1
        else [] := by
  have hLog :
      (decideRun (logged P) s.world row steps approve
          actor).world.2 =
        s.world.2 ++
          if approve then
            performed P (steps.drop (row.currentStep + 1))
              row.resumeContext s.world.1
          else [] := by
    unfold decideRun
    cases approve with
    | true => exact execLoop_logged P _ _ _ _ _ _
    | false =>
        rw [if_neg Bool.false_ne_true, if_neg Bool.false_ne_true,
          List.append_nil]
  rw [← hLog]
  unfold resolveApproval
  cases hPb : s.playbooks row.playbookId with
  | none =>
      rw [hPb] at hSteps
      cases hSteps
      simp only [hRow, hWaits, hPb]
      rfl
  | some pb =>
      rw [hPb] at hSteps
      have hParsed : pb.steps = some steps := hSteps
      simp only [hRow, hWaits, hPb, Option.elim_some, hParsed]
      rfl

end

---- Starting, Editing And Deciding

section

variable {W : Type}

/- The store, the definitions that the runs were started
with, and the runs on which a decision was taken. -/
structure Desk (W : Type) where
  store : Store W
  startedWith : Str → Option (List Step)
  decided : List Str

/- Calls on runs and on the definitions of playbooks. -/
inductive DeskLabel where
| execute (runId : Str) (pb : PlaybookRow)
| edit (playbookId : Str) (steps : Option (List Step))
| delete (playbookId : Str)
| decide (runId : Str) (approve : Bool)
deriving DecidableEq, Repr

/- A desk at which no run was started. -/
def Desk.fresh (s : Store W) : Desk W :=
  ⟨s, fun _ => none, []⟩

/- A step at the desk: a run is started of a definition, a
definition is replaced, by an edit or by going back to an
earlier version, or deleted, or a run is decided on. -/
inductive DeskStep
    (P : Platform W) :
    Desk W → DeskLabel → Desk W → Prop
| execute
    (d : Desk W)
    (runId : Str)
    (pb : PlaybookRow)
    (actor trigger : Str)
    (alertId : Option Str)
    (hNew : d.startedWith runId = none) :
    DeskStep P d (.execute runId pb)
      ⟨(executePlaybook P d.store runId pb actor trigger
          alertId false).2,
        Function.update d.startedWith runId
          (some (pb.steps.getD [])),
        d.decided⟩
| edit
    (d : Desk W)
    (playbookId : Str)
    (steps : Option (List Step)) :
    DeskStep P d (.edit playbookId steps)
      { d with
        store := d.store.updatePlaybook playbookId
          (fun row => { row with steps := steps }) }
| delete
    (d : Desk W)
    (playbookId : Str) :
    DeskStep P d (.delete playbookId)
      { d with
        store :=
          { d.store with
            playbooks :=
              Function.update d.store.playbooks playbookId
                none } }
| decide
    (d : Desk W)
    (runId : Str)
    (approve : Bool)
    (actor : Str) :
    DeskStep P d (.decide runId approve)
      ⟨(resolveApproval P d.store runId approve actor).2,
        d.startedWith, runId :: d.decided⟩

/- A decision leaves the store `resolveApproval` leaves. -/
theorem DeskStep.decided_store
    {P : Platform W} {d d' : Desk W} {runId : Str} {approve : Bool}
    (hStep : DeskStep P d (.decide runId approve) d') :
    ∃ actor,
      d'.store =
        (resolveApproval P d.store runId approve actor).2 := by
  cases hStep with
  | decide _ _ actor =>
      exact ⟨actor, rfl⟩

/- The definition an approval of the run goes by: none where
the stored one does not parse. -/
def storedSteps
    (s : Store W)
    (playbookId : Str) : Option (List Step) :=
  (s.playbooks playbookId).elim (some []) PlaybookRow.steps

/- A run that was started with a definition and not decided
on yet waits, if it does, at a gate of that definition. -/
def AtGate
    (D : List Step)
    (row : RunRow) : Prop :=
  row.status = .awaitingApproval →
    ∃ gate, D[row.currentStep]? = some gate ∧
      gate.kind = some .approval

def DeskInv (d : Desk W) : Prop :=
  ∀ runId D,
    d.startedWith runId = some D → runId ∉ d.decided →
      ∃ row, d.store.runs runId = some row ∧ AtGate D row

/- A run that was just started. -/
theorem executePlaybook_atGate
    (P : Platform W) (s : Store W) (runId : Str) (pb : PlaybookRow)
    (actor trigger : Str) (alertId : Option Str) :
    ∃ row,
      (executePlaybook P s runId pb actor trigger alertId
        false).2.runs = Function.update s.runs runId (some row) ∧
      AtGate (pb.steps.getD []) row := by
  let ctx : RunContext :=
    { toStoredContext := buildContext P s.world alertId
      playbookName := pb.name
      dispatches := [] }
  let out :=
    execFrom P (pb.steps.getD []) [] 0 ctx false s.world
  let run := freshRun P runId pb actor trigger alertId false out
  refine ⟨run.row, ?_, ?_⟩
  · show (notePlaybookRun P
      (saveRun { s with world := out.world } run) run).runs = _
    rw [notePlaybookRun_runs]
    rfl
  · intro hAwaits
    rcases execLoop_gate P false (pb.steps.getD []) 0 false
      false [] ctx s.world hAwaits with
      ⟨k, gate, hAt, hKind, hLength⟩
    rcases execLoop_spec P false (pb.steps.getD []) 0 false
      false [] ctx s.world with ⟨added, hResults, hAdded⟩
    rw [List.nil_append] at hResults
    have hRecord : RecordInv (pb.steps.getD []).length run.row := by
      apply recordInv_of_appended
      · rw [show run.row.steps = added from hResults]
        exact hAdded
      · rfl
    have hCurrent := (hRecord.last hAwaits).1
    have hCount : run.row.steps.length = k + 1 := by
      rw [List.length_nil, Nat.zero_add] at hLength
      exact hLength
    have hSame : run.row.currentStep = k := by omega
    exact ⟨gate, by rw [hSame]; exact hAt, hKind⟩

/- Every step keeps the invariant. -/
theorem DeskInv.step
    {P : Platform W} {d d' : Desk W} {a : DeskLabel}
    (hInv : DeskInv d) (hStep : DeskStep P d a d') :
    DeskInv d' := by
  cases hStep with
  | execute runId pb actor trigger alertId hNew =>
      rcases executePlaybook_atGate P d.store runId pb actor
        trigger alertId with ⟨row, hRuns, hGate⟩
      intro id D hStarted hOpen
      show ∃ r, (executePlaybook P d.store runId pb actor
        trigger alertId false).2.runs id = some r ∧ _
      rw [hRuns]
      by_cases hHere : id = runId
      · subst hHere
        simp only [Function.update_self, Option.some.injEq]
          at hStarted ⊢
        exact ⟨row, rfl, hStarted ▸ hGate⟩
      · simp only [Function.update_of_ne hHere] at hStarted ⊢
        exact hInv id D hStarted hOpen
  | edit playbookId steps => exact hInv
  | delete playbookId => exact hInv
  | decide runId approve actor =>
      intro id D hStarted hOpen
      rw [List.mem_cons, not_or] at hOpen
      rcases hInv id D hStarted hOpen.2 with ⟨row, hRow, hGate⟩
      refine ⟨row, ?_, hGate⟩
      rw [← hRow]
      exact resolveApproval_runs_of_ne P d.store approve actor
        hOpen.1

end

---- What An Approval Performs

variable {W : Type}

/- In every run of starts, edits and decisions, the first
decision on a waiting run is on a gate of the definition
it was started with, and an approval performs the steps
after that gate of the definition then stored: those of
the first definition where that is the one stored. -/
theorem approval_performs
    (P : Platform W)
    {s : Store (W × List Action)}
    {d : Desk (W × List Action)}
    {trace :
      List (Transition (Desk (W × List Action)) DeskLabel)}
    (hRun : Run (DeskStep (logged P)) (.fresh s) trace d) :
    ∀ e ∈ trace, ∀ runId approve D row steps,
      e.label = .decide runId approve →
      runId ∉ e.pre.decided →
      e.pre.startedWith runId = some D →
      e.pre.store.runs runId = some row →
      row.status = .awaitingApproval →
      storedSteps e.pre.store row.playbookId = some steps →
      ∃ before gate after,
        D = before ++ gate :: after ∧
        gate.kind = some .approval ∧
        (∀ last, steps.drop (before.length + 1) = last →
          e.post.store.world.2 =
            e.pre.store.world.2 ++
              if approve then
                performed P last row.resumeContext
                  e.pre.store.world.1
              else []) ∧
        (steps = D → steps.drop (before.length + 1) = after) := by
  intro e hE runId approve D row steps hLabel hOpen hStarted
    hRow hWaits hSteps
  have hFresh : DeskInv (Desk.fresh s) := by
    intro id D hNone
    cases hNone
  rcases hRun.forall_step (fun _ _ _ hInv hStep => hInv.step hStep)
    hFresh e hE with ⟨hInv, hStep⟩
  rcases hInv runId D hStarted hOpen with ⟨row', hRow', hGate⟩
  rw [hRow] at hRow'
  cases hRow'
  rcases hGate hWaits with ⟨gate, hAt, hKind⟩
  rcases List.getElem?_eq_some_iff.mp hAt with ⟨hBound, hGet⟩
  have hSplit :
      D = D.take row.currentStep ++
        gate :: D.drop (row.currentStep + 1) := by
    rw [← hGet, List.getElem_cons_drop, List.take_append_drop]
  have hLength : (D.take row.currentStep).length =
      row.currentStep := by
    rw [List.length_take]
    omega
  refine ⟨_, gate, _, hSplit, hKind, ?_, ?_⟩
  · intro last hLast
    rw [hLength] at hLast
    rw [hLabel] at hStep
    rcases hStep.decided_store with ⟨actor, hStore⟩
    rw [hStore, ← hLast]
    exact resolveApproval_logged P approve actor hRow hWaits
      hSteps
  · intro hSame
    rw [hLength, hSame]

/- A platform whose every step succeeds. -/
def doingPlatform : Platform Unit :=
  { idlePlatform with
    stepFn := fun _ =>
      some fun w ctx _ _ => ⟨.ok (.success, []), ctx, w⟩ }

/- An approval gate, and a step of a kind after it. -/
def gatedSteps (kind : StepKind) : List Step :=
  [⟨some .approval, some (lit "Approve"), []⟩,
    ⟨some kind, none, []⟩]

def gatedPlaybook : PlaybookRow :=
  { gatesPlaybook 0 with steps := some (gatedSteps .notify) }

def gatedStore : Store (Unit × List Action) :=
  { world := ((), [])
    playbooks := fun id =>
      if id = lit "pb-1" then some gatedPlaybook else none
    runs := fun _ => none }

/- The desk after the gated playbook was started. -/
def gatedDesk : Desk (Unit × List Action) :=
  ⟨(executePlaybook (logged doingPlatform) gatedStore
      (lit "run-1") gatedPlaybook (lit "analyst")
      (lit "manual") none false).2,
    Function.update (fun _ => none) (lit "run-1")
      (some (gatedSteps .notify)),
    []⟩

theorem gatedDesk_step :
    DeskStep (logged doingPlatform) (.fresh gatedStore)
      (.execute (lit "run-1") gatedPlaybook) gatedDesk :=
  .execute (.fresh gatedStore) (lit "run-1") gatedPlaybook
    (lit "analyst") (lit "manual") none rfl

/- The desk after the run was approved. -/
def approvedDesk
    (d : Desk (Unit × List Action)) :
    Desk (Unit × List Action) :=
  ⟨(resolveApproval (logged doingPlatform) d.store
      (lit "run-1") true (lit "lead")).2,
    d.startedWith, lit "run-1" :: d.decided⟩

/- Without an edit, the step after the gate is performed. -/
theorem approved_step_performed :
    (approvedDesk gatedDesk).store.world.2 =
      gatedDesk.store.world.2 ++ [(.notify, [])] := by
  have hRun :
      Run (DeskStep (logged doingPlatform)) (.fresh gatedStore)
        [⟨.fresh gatedStore,
            .execute (lit "run-1") gatedPlaybook, gatedDesk⟩,
          ⟨gatedDesk, .decide (lit "run-1") true,
            approvedDesk gatedDesk⟩]
        (approvedDesk gatedDesk) :=
    .cons gatedDesk_step
      (.cons (.decide gatedDesk (lit "run-1") true
        (lit "lead")) (.nil _))
  have hSome :
      (gatedDesk.store.runs (lit "run-1")).any
        (fun row => row.status == .awaitingApproval &&
          row.playbookId == lit "pb-1") = true := by
    decide
  cases hRow : gatedDesk.store.runs (lit "run-1") with
  | none =>
      rw [hRow] at hSome
      cases hSome
  | some row =>
      rw [hRow, Option.any_some, Bool.and_eq_true, beq_iff_eq,
        beq_iff_eq] at hSome
      have hSteps :
          storedSteps gatedDesk.store row.playbookId =
            some (gatedSteps .notify) := by
        rw [hSome.2]
        decide
      rcases approval_performs doingPlatform hRun
        ⟨gatedDesk, .decide (lit "run-1") true,
          approvedDesk gatedDesk⟩
        (List.mem_cons_of_mem _ (List.mem_singleton_self _))
        (lit "run-1") true (gatedSteps .notify) row
        (gatedSteps .notify) rfl List.not_mem_nil (by rfl) hRow
        hSome.1 hSteps with
        ⟨before, gate, after, hSplit, hKind, hLog, hAfter⟩
      -- the only gate of the definition is its first step
      have hBefore : before = [] := by
        cases before with
        | nil => rfl
        | cons first rest =>
            cases rest with
            | nil =>
                cases hSplit
                cases hKind
            | cons second rest =>
                have hLength := congrArg List.length hSplit
                simp [gatedSteps] at hLength
      subst hBefore
      have hPerformed := hLog _ rfl
      rw [hPerformed]
      rfl

/- With an edit while the run waits, the approval performs a
step that the definition it was started with has not. -/
theorem edited_step_performed :
    ∃ trace d,
      Run (DeskStep (logged doingPlatform)) (.fresh gatedStore)
        trace d ∧
      d.startedWith (lit "run-1") =
        some (gatedSteps .notify) ∧
      d.store.world.2 = [(.blockIp, [])] := by
  let edited : Desk (Unit × List Action) :=
    { gatedDesk with
      store := gatedDesk.store.updatePlaybook (lit "pb-1")
        (fun row =>
          { row with steps := some (gatedSteps .blockIp) }) }
  refine ⟨_, approvedDesk edited,
    .cons gatedDesk_step
      (.cons (.edit gatedDesk (lit "pb-1")
          (some (gatedSteps .blockIp)))
        (.cons (.decide edited (lit "run-1") true
          (lit "lead")) (.nil _))), rfl, ?_⟩
  decide

end ThreatOrbit.Playbooks
