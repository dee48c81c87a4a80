import ThreatOrbit.Lib.Run
import ThreatOrbit.Playbooks.Engine

/-
  Paused runs and the decisions that resume them.

  The index bookkeeping of a run record is right as long as
  no resumed execution comes to a further approval gate: a
  resumed run stores the number of its results as its
  current step, also when it pauses again.

  Main declarations:
    * `Consistent`
    * `stopsAtApproval` and `resumeStopsAgain`
    * `execLoop_spec`
    * `run_consistent_iff`
-/

---- The Record Of A Run

namespace ThreatOrbit.Playbooks

open Lib

section

variable {W : Type}

/- A result that waits for a human. -/
def StepResult.pending (r : StepResult) : Bool :=
  r.status = .pendingApproval

/- The record of a run of `n` steps is consistent: its
results carry the indices 0, 1, 2, … in order; while it
waits, its current step is the index of the one pending
result; once it ended, it has one result per step and none
of them is pending. -/
structure Consistent (n : Nat) (row : RunRow) : Prop where
  consecutive :
    row.steps.map StepResult.idx =
      List.range row.steps.length
  awaiting :
    row.status = .awaitingApproval →
      (row.steps.filter StepResult.pending).map
        StepResult.idx = [row.currentStep]
  ended :
    row.status ≠ .awaitingApproval →
      row.steps.length = n ∧
        ∀ r ∈ row.steps, r.pending = false

/- Whether executing the steps comes to an approval gate: no
step before it gates the run or fails. -/
@[grind =]
def stopsAtApproval
    (P : Platform W) :
    List Step → RunContext → W → Bool
| [], _, _ => false
| s :: rest, ctx, world =>
    if s.kind = some .approval then
      true
    else
      match s.kind.bind P.stepFn with
      | none => stopsAtApproval P rest ctx world
      | some fn =>
          let out := fn world ctx s.params false
          match out.answer with
          | .error _ => false
          | .ok (status, _) =>
              if status = .gate ∨ status = .failed then
                false
              else
                stopsAtApproval P rest out.ctx out.world

/- Whether approving the run, in the state the call finds,
would come to a further approval gate. -/
def resumeStopsAgain
    (P : Platform W)
    (s : Store W)
    (runId : Str) : Bool :=
  match s.runs runId with
  | none => false
  | some row =>
      decide (row.status = .awaitingApproval) &&
        match s.playbooks row.playbookId with
        | none => false
        | some pb =>
            stopsAtApproval P
              ((pb.steps.getD []).drop (row.currentStep + 1))
              row.resumeContext s.world

end

---- What An Execution Appends

section

variable {W : Type}

/- What an execution of `m` steps from index `i` appends: it
pauses, and the last result appended is the one pending,
or it ends, with one result per step and none pending. -/
structure Appended
    (m i : Nat)
    (status : RunStatus)
    (added : List StepResult) : Prop where
  indices :
    added.map StepResult.idx = List.range' i added.length
  paused :
    status = .awaitingApproval →
      added.length ≤ m ∧
        ∃ init last, added = init ++ [last] ∧
          last.pending = true ∧
          ∀ r ∈ init, r.pending = false
  ended :
    status ≠ .awaitingApproval →
      added.length = m ∧ ∀ r ∈ added, r.pending = false

/- Nothing is left to run. -/
theorem Appended.nil
    (i : Nat) {status : RunStatus}
    (hStatus : status ≠ .awaitingApproval) :
    Appended 0 i status [] where
  indices := rfl
  paused h := absurd h hStatus
  ended _ := ⟨rfl, by simp⟩

/- The run pauses at the step at hand. -/
theorem Appended.pause
    (m i : Nat) {r : StepResult} (hIdx : r.idx = i)
    (hPending : r.pending = true) :
    Appended (m + 1) i .awaitingApproval [r] where
  indices := by simp [hIdx]
  paused _ := ⟨by simp, [], r, by simp, hPending, by simp⟩
  ended h := absurd rfl h

/- One settled result before what the later steps append. -/
theorem Appended.cons
    {m i : Nat} {status : RunStatus} {added : List StepResult}
    {r : StepResult}
    (hRest : Appended m (i + 1) status added) (hIdx : r.idx = i)
    (hSettled : r.pending = false) :
    Appended (m + 1) i status (r :: added) where
  indices := by
    rw [List.map_cons, hRest.indices, hIdx,
      List.length_cons, List.range'_succ]
  paused h := by
    rcases hRest.paused h with
      ⟨hLength, init, last, rfl, hLast, hInit⟩
    refine ⟨by simpa using hLength, r :: init, last, rfl,
      hLast, ?_⟩
    simpa [hSettled] using hInit
  ended h := by
    rcases hRest.ended h with ⟨hLength, hNone⟩
    exact ⟨by simp [hLength], by simpa [hSettled] using hNone⟩

theorem recorded_settled (status : StepStatus) :
    status.recorded ≠ .pendingApproval := by
  cases status <;> simp [StepStatus.recorded]

/- The loop appends, to the results so far, what `Appended`
says about the steps still to run. -/
theorem execLoop_spec
    (P : Platform W) (dryRun : Bool) (steps : List Step) (i : Nat)
    (gated failed : Bool) (results : List StepResult)
    (ctx : RunContext) (world : W) :
    ∃ added,
      (execLoop P dryRun steps i gated failed results ctx
        world).results = results ++ added ∧
      Appended steps.length i
        (execLoop P dryRun steps i gated failed results ctx
          world).status added := by
  induction steps generalizing i gated failed results ctx
    world with
  | nil =>
      refine ⟨[], by simp [execLoop], ?_⟩
      apply Appended.nil
      cases failed <;> simp [execLoop]
  | cons s rest ih =>
      -- every branch but the pause appends a settled result
      have hStep :
          ∀ (g f : Bool) (r : StepResult) (c : RunContext)
            (w : W),
            r.idx = i → r.pending = false →
            ∃ added,
              (execLoop P dryRun rest (i + 1) g f
                (results ++ [r]) c w).results =
                results ++ added ∧
              Appended (rest.length + 1) i
                (execLoop P dryRun rest (i + 1) g f
                  (results ++ [r]) c w).status added := by
        intro g f r c w hIdx hSettled
        rcases ih (i + 1) g f (results ++ [r]) c w with
          ⟨added, hResults, hAdded⟩
        refine ⟨r :: added, ?_, hAdded.cons hIdx hSettled⟩
        rw [hResults, List.append_assoc]
        rfl
      rw [List.length_cons]
      unfold execLoop
      dsimp only
      split
      · exact hStep _ _ _ _ _ rfl rfl
      · split
        · split
          · exact hStep _ _ _ _ _ rfl rfl
          · exact ⟨_, rfl, Appended.pause _ _ rfl rfl⟩
        · split
          · exact hStep _ _ _ _ _ rfl rfl
          · split
            · exact hStep _ _ _ _ _ rfl rfl
            · refine hStep _ _ _ _ _ rfl ?_
              simpa [StepResult.pending] using
                recorded_settled _

/- A gated or failed execution never pauses. -/
theorem execLoop_status_of_stopped
    (P : Platform W) (dryRun : Bool) (steps : List Step) (i : Nat)
    (gated failed : Bool) (results : List StepResult)
    (ctx : RunContext) (world : W)
    (hStopped : (gated || failed) = true) :
    (execLoop P dryRun steps i gated failed results ctx
      world).status ≠ .awaitingApproval := by
  induction steps generalizing i results with
  | nil => cases failed <;> simp [execLoop]
  | cons s rest ih =>
      unfold execLoop
      rw [if_pos hStopped]
      exact ih _ _

/- An execution pauses exactly when it comes to a gate. -/
theorem execLoop_awaiting_iff
    (P : Platform W) (steps : List Step) (i : Nat)
    (results : List StepResult) (ctx : RunContext) (world : W) :
    (execLoop P false steps i false false results ctx
        world).status = .awaitingApproval ↔
      stopsAtApproval P steps ctx world = true := by
  induction steps generalizing i results ctx world with
  | nil => simp [execLoop, stopsAtApproval]
  | cons s rest ih =>
      have hNever :=
        execLoop_status_of_stopped P false rest (i + 1)
      unfold execLoop stopsAtApproval
      simp only [Bool.or_self, Bool.false_eq_true, if_false]
      by_cases hGate : s.kind = some .approval
      · simp [hGate]
      · simp only [hGate, if_false]
        cases hFn : s.kind.bind P.stepFn with
        | none => exact ih _ _ _ _
        | some fn =>
            dsimp only
            cases hAnswer :
                (fn world ctx s.params false).answer with
            | error exc => simp [hNever]
            | ok answer =>
                rcases answer with ⟨status, detail⟩
                cases status with
                | success => simpa using ih _ _ _ _
                | skipped => simpa using ih _ _ _ _
                | failed => simp [hNever]
                | gate => simp [hNever]

end

---- Calls On One Run

section

variable {W : Type}

/- What can happen while a run is waiting or after it ended. -/
inductive SessionLabel where
| resolve (approve : Bool) (actor : Str)
| other
deriving DecidableEq, Repr

/- A step of the life of one run. A call decides on the run;
anything else leaves its record alone, and does not edit
the steps of its playbook. -/
inductive SessionStep
    (P : Platform W)
    (runId playbookId : Str) :
    Store W → SessionLabel → Store W → Prop
| resolve (s : Store W) (approve : Bool) (actor : Str) :
    SessionStep P runId playbookId s
      (.resolve approve actor)
      (resolveApproval P s runId approve actor).2
| other
    (s t : Store W)
    (hRecord : t.runs runId = s.runs runId)
    (hSteps :
      (t.playbooks playbookId).map PlaybookRow.steps =
        (s.playbooks playbookId).map PlaybookRow.steps) :
    SessionStep P runId playbookId s .other t

/- The store holds a consistent record of the run. -/
def RecordConsistent
    (runId : Str)
    (n : Nat)
    (s : Store W) : Prop :=
  ∃ row, s.runs runId = some row ∧ Consistent n row

/- The condition on a step: an approval does not come to a
further approval gate. -/
def ApprovesLastGate
    (P : Platform W)
    (runId : Str)
    (e : Transition (Store W) SessionLabel) : Prop :=
  ∀ actor, e.label = .resolve true actor →
    resumeStopsAgain P e.pre runId = false

/- What the record of a run of `n` steps keeps beyond its
consistency: a waiting run has its pending result last. -/
structure RecordInv (n : Nat) (row : RunRow) : Prop where
  consistent : Consistent n row
  last :
    row.status = .awaitingApproval →
      row.steps.length = row.currentStep + 1 ∧
        row.steps.length ≤ n

/- The invariant of the runs that meet the condition. -/
structure SessionInv
    (runId playbookId : Str)
    (steps : Option (List Step))
    (s : Store W) : Prop where
  stored :
    (s.playbooks playbookId).map PlaybookRow.steps =
      some steps
  record :
    ∃ row, s.runs runId = some row ∧
      row.playbookId = playbookId ∧
      RecordInv (steps.getD []).length row

theorem SessionInv.consistent
    {runId playbookId : Str} {steps : Option (List Step)}
    {s : Store W}
    (hInv : SessionInv runId playbookId steps s) :
    RecordConsistent runId (steps.getD []).length s := by
  rcases hInv.record with ⟨row, hRow, _, hRecord⟩
  exact ⟨row, hRow, hRecord.consistent⟩

/- A run record with results appended in order. -/
theorem consecutive_append
    {m : Nat} {status : RunStatus} {earlier added : List StepResult}
    (hEarlier :
      earlier.map StepResult.idx = List.range earlier.length)
    (hAdded : Appended m earlier.length status added) :
    (earlier ++ added).map StepResult.idx =
      List.range (earlier ++ added).length := by
  rw [List.map_append, hEarlier, hAdded.indices,
    List.length_append, List.range_add,
    List.range'_eq_map_range]

/- Where the results before it are settled, the pending
result of a paused execution is the only one, and it is
the last. -/
theorem pending_last
    {m : Nat} {earlier added : List StepResult}
    (hEarlier :
      earlier.map StepResult.idx = List.range earlier.length)
    (hSettled : ∀ r ∈ earlier, r.pending = false)
    (hAdded :
      Appended m earlier.length .awaitingApproval added) :
    ∃ last,
      (earlier ++ added).filter StepResult.pending = [last] ∧
      last.idx + 1 = (earlier ++ added).length := by
  have hRange := consecutive_append hEarlier hAdded
  rcases hAdded.paused rfl with
    ⟨_, init, last, rfl, hLast, hInit⟩
  refine ⟨last, ?_, ?_⟩
  · have hNone :
        (earlier ++ init).filter StepResult.pending = [] := by
      rw [List.filter_eq_nil_iff]
      intro r hr
      rcases List.mem_append.mp hr with hOld | hNew
      · simp [hSettled r hOld]
      · simp [hInit r hNew]
    rw [← List.append_assoc, List.filter_append, hNone]
    simp [hLast]
  · have hGet := congrArg List.getLast? hRange
    rw [← List.append_assoc] at hGet ⊢
    simp only [List.map_append, List.map_cons, List.map_nil,
      List.getLast?_append, List.getLast?_singleton,
      Option.some_or, List.getLast?_range,
      List.length_append, List.length_singleton] at hGet
    simp at hGet
    simp [hGet, Nat.add_assoc]

end

---- Starting A Run

section

variable {W : Type}

theorem firstPending_of_find
    {results : List StepResult} {r : StepResult}
    (hFind : results.find? StepResult.pending = some r) :
    firstPending results = r.idx := by
  unfold StepResult.pending at hFind
  simp [firstPending, hFind]

/- The record of a first execution. -/
theorem recordInv_of_appended
    {n : Nat} {row : RunRow}
    (hAdded : Appended n 0 row.status row.steps)
    (hCurrent : row.currentStep = firstPending row.steps) :
    RecordInv n row := by
  have hEmpty :
      ([] : List StepResult).map StepResult.idx =
        List.range 0 := rfl
  have hRange : row.steps.map StepResult.idx =
      List.range row.steps.length :=
    consecutive_append hEmpty hAdded
  -- the first pending result is the last result
  have hPaused :
      row.status = .awaitingApproval →
        row.steps.length = row.currentStep + 1 ∧
          (row.steps.filter StepResult.pending).map
            StepResult.idx = [row.currentStep] := by
    intro hStatus
    rw [hStatus] at hAdded
    rcases pending_last hEmpty (by simp) hAdded with
      ⟨last, hFilter, hLength⟩
    rw [List.nil_append] at hFilter hLength
    have hFind : row.steps.find? StepResult.pending = some last := by
      rw [← List.head?_filter, hFilter]
      rfl
    have hIdx : row.currentStep = last.idx := by
      rw [hCurrent]
      exact firstPending_of_find hFind
    exact ⟨by rw [hIdx, hLength], by rw [hFilter, hIdx]; rfl⟩
  constructor
  · exact ⟨hRange, fun h => (hPaused h).2, hAdded.ended⟩
  · intro hStatus
    exact ⟨(hPaused hStatus).1, (hAdded.paused hStatus).1⟩

/- The record that `executePlaybook` persists. -/
theorem executePlaybook_sessionInv
    (P : Platform W) (s : Store W) (runId : Str) (pb : PlaybookRow)
    (actor trigger : Str) (alertId : Option Str)
    (hStored : s.playbooks pb.id = some pb) :
    SessionInv runId pb.id pb.steps
      (executePlaybook P s runId pb actor trigger alertId
        false).2 := by
  let ctx : RunContext :=
    { toStoredContext := buildContext P s.world alertId
      playbookName := pb.name
      dispatches := [] }
  let out :=
    execFrom P (pb.steps.getD []) [] 0 ctx false s.world
  let run := freshRun P runId pb actor trigger alertId false out
  rcases execLoop_spec P false (pb.steps.getD []) 0 false
      false [] ctx s.world with ⟨added, hResults, hAdded⟩
  rw [List.nil_append] at hResults
  have hSteps : run.row.steps = added := hResults
  constructor
  · have hKept :=
      notePlaybookRun_stepsKept P
        (saveRun { s with world := out.world } run) run pb.id
    have hRow :
        (s.playbooks pb.id).map PlaybookRow.steps =
          some pb.steps := by
      rw [hStored]
      rfl
    exact hKept.trans hRow
  · refine ⟨run.row, ?_, rfl, ?_⟩
    · change
        (notePlaybookRun P
          (saveRun { s with world := out.world } run)
          run).runs run.id = some run.row
      rw [notePlaybookRun_runs, saveRun_runs_self]
    · apply recordInv_of_appended
      · rw [hSteps]
        exact hAdded
      · rfl

end

---- Deciding On A Run

section

variable {W : Type}

/- What a call does: it leaves the store alone, because the
run does not wait or its steps do not parse, or it decides
on the run with the steps now stored. -/
theorem resolveApproval_cases
    (P : Platform W) (s : Store W) (runId : Str) (approve : Bool)
    (actor : Str) {row : RunRow} (hRow : s.runs runId = some row) :
    let t := (resolveApproval P s runId approve actor).2
    (t = s ∧
      (row.status = .awaitingApproval →
        ∃ pb, s.playbooks row.playbookId = some pb ∧
          pb.steps = none)) ∨
    ∃ steps,
      row.status = .awaitingApproval ∧
      (s.playbooks row.playbookId).elim (some [])
        PlaybookRow.steps = some steps ∧
      StepsKept s t ∧
      t.runs runId =
        some (decidedRun P runId row
          (decideRun P s.world row steps approve actor)).row := by
  intro t
  by_cases hStatus : row.status = .awaitingApproval
  · cases hPb : s.playbooks row.playbookId with
    | none =>
        right
        refine ⟨[], hStatus, rfl, ?_, ?_⟩
        · intro pid
          simp [t, resolveApproval, hRow, hStatus, hPb,
            Store.audit, saveRun]
        · simp [t, resolveApproval, hRow, hStatus, hPb,
            Store.audit, saveRun, decidedRun]
    | some pb =>
        cases hSteps : pb.steps with
        | none =>
            left
            refine ⟨?_, fun _ => ⟨pb, rfl, hSteps⟩⟩
            simp [t, resolveApproval, hRow, hStatus, hPb,
              hSteps]
        | some steps =>
            right
            refine ⟨steps, hStatus, hSteps, ?_, ?_⟩
            · intro pid
              have hKept :=
                finishPlaybook_stepsKept P
                  (saveRun
                    { s with
                      world :=
                        (decideRun P s.world row steps
                          approve actor).world }
                    (decidedRun P runId row
                      (decideRun P s.world row steps
                        approve actor)))
                  pb.id
                  (decide
                    ((decideRun P s.world row steps approve
                      actor).status = RunStatus.success)) pid
              simpa [t, resolveApproval, hRow, hStatus, hPb,
                hSteps, Store.audit] using hKept
            · simp [t, resolveApproval, hRow, hStatus, hPb,
                hSteps, Store.audit, saveRun, decidedRun]
  · left
    refine ⟨?_, fun h => absurd h hStatus⟩
    simp [t, resolveApproval, hRow, hStatus]

theorem skipRejected_appended
    (now : Str) (steps : List Step) (i : Nat) :
    Appended steps.length i .rejected
      (skipRejected now steps i) := by
  induction steps generalizing i with
  | nil => exact Appended.nil i (by simp)
  | cons s rest ih => exact (ih (i + 1)).cons rfl rfl

/- Stamping the decision changes no index. -/
theorem stampDecision_idx
    (approve : Bool) (actor now : Str) (idx : Nat)
    (r : StepResult) :
    (stampDecision approve actor now idx r).idx = r.idx := by
  unfold stampDecision
  split <;> rfl

/- A stamped result does not wait. -/
theorem stampDecision_settled
    (approve : Bool) (actor now : Str) {idx : Nat} {r : StepResult}
    (hIdx : r.pending = true → r.idx = idx) :
    (stampDecision approve actor now idx r).pending =
      false := by
  unfold stampDecision
  split
  · cases approve <;> simp [StepResult.pending]
  · rename_i hOther
    cases hPending : r.pending with
    | false => rfl
    | true =>
        refine absurd ⟨hIdx hPending, ?_⟩ hOther
        simpa [StepResult.pending] using hPending

/- A decision on a consistent waiting run settles the pending
result and appends what the later steps give. -/
theorem decideRun_spec
    (P : Platform W) (world : W) {row : RunRow} {steps : List Step}
    (approve : Bool) (actor : Str)
    (hInv : RecordInv steps.length row)
    (hWaiting : row.status = .awaitingApproval) :
    let out := decideRun P world row steps approve actor
    ∃ earlier added,
      out.results = earlier ++ added ∧
      earlier.length = row.currentStep + 1 ∧
      earlier.map StepResult.idx =
        List.range earlier.length ∧
      (∀ r ∈ earlier, r.pending = false) ∧
      Appended (steps.length - earlier.length)
        earlier.length out.status added := by
  intro out
  let now := P.now world
  let earlier :=
    row.steps.map
      (stampDecision approve actor now row.currentStep)
  have hLength : earlier.length = row.currentStep + 1 := by
    simpa [earlier] using (hInv.last hWaiting).1
  have hRange :
      earlier.map StepResult.idx =
        List.range earlier.length := by
    have hSame :
        earlier.map StepResult.idx =
          row.steps.map StepResult.idx := by
      simp only [earlier, List.map_map]
      apply List.map_congr_left
      intro r _
      exact stampDecision_idx _ _ _ _ r
    rw [hSame, hInv.consistent.consecutive]
    simp [earlier]
  have hSettled : ∀ r ∈ earlier, r.pending = false := by
    intro r hr
    rcases List.mem_map.mp hr with ⟨old, hOld, rfl⟩
    apply stampDecision_settled
    intro hPending
    have hMem :
        old.idx ∈
          (row.steps.filter StepResult.pending).map
            StepResult.idx :=
      List.mem_map.mpr
        ⟨old, List.mem_filter.mpr ⟨hOld, hPending⟩, rfl⟩
    rw [hInv.consistent.awaiting hWaiting] at hMem
    simpa using hMem
  have hDrop :
      (steps.drop (row.currentStep + 1)).length =
        steps.length - earlier.length := by
    rw [List.length_drop, hLength]
  cases approve with
  | true =>
      rcases execLoop_spec P false
          (steps.drop (row.currentStep + 1))
          (row.currentStep + 1) false false earlier
          row.resumeContext world with
        ⟨added, hResults, hAdded⟩
      rw [hDrop, ← hLength] at hAdded
      refine ⟨earlier, added, ?_, hLength, hRange, hSettled,
        ?_⟩
      · simpa [out, decideRun, execFrom] using hResults
      · simpa [out, decideRun, execFrom, hLength] using hAdded
  | false =>
      have hAdded :=
        skipRejected_appended now
          (steps.drop (row.currentStep + 1))
          (row.currentStep + 1)
      rw [hDrop, ← hLength] at hAdded
      refine ⟨earlier, _, ?_, hLength, hRange, hSettled,
        hAdded⟩
      simp [out, decideRun, earlier, now, hLength]

/- A decision pauses the run again at a further gate only. -/
theorem decideRun_awaiting_iff
    (P : Platform W) (world : W) (row : RunRow) (steps : List Step)
    (approve : Bool) (actor : Str) :
    (decideRun P world row steps approve actor).status =
        .awaitingApproval ↔
      approve = true ∧
        stopsAtApproval P (steps.drop (row.currentStep + 1))
          row.resumeContext world = true := by
  cases approve with
  | true =>
      simpa [decideRun, execFrom] using
        execLoop_awaiting_iff P
          (steps.drop (row.currentStep + 1))
          (row.currentStep + 1) _ row.resumeContext world
  | false => simp [decideRun]

/- A decision that ends the run leaves a consistent record. -/
theorem decidedRun_recordInv
    (P : Platform W) (world : W) (runId : Str)
    {row : RunRow} {steps : List Step}
    (approve : Bool) (actor : Str)
    (hInv : RecordInv steps.length row)
    (hWaiting : row.status = .awaitingApproval)
    (hEnds :
      (decideRun P world row steps approve actor).status ≠
        .awaitingApproval) :
    RecordInv steps.length
      (decidedRun P runId row
        (decideRun P world row steps approve actor)).row := by
  rcases decideRun_spec P world approve actor hInv hWaiting
    with ⟨earlier, added, hResults, hLength, hRange, hSettled,
      hAdded⟩
  rcases hAdded.ended hEnds with ⟨hAll, hNone⟩
  have hBound := (hInv.last hWaiting).2
  have hStart := (hInv.last hWaiting).1
  refine ⟨⟨?_, fun h => absurd h hEnds, fun _ => ⟨?_, ?_⟩⟩,
    fun h => absurd h hEnds⟩
  · simp only [decidedRun, PlaybookRun.row, hResults]
    exact consecutive_append hRange hAdded
  · simp only [decidedRun, PlaybookRun.row, hResults,
      List.length_append]
    omega
  · simp only [decidedRun, PlaybookRun.row, hResults]
    intro r hr
    rcases List.mem_append.mp hr with hOld | hNew
    · exact hSettled r hOld
    · exact hNone r hNew

/- A decision that pauses the run again stores the number of
results as the current step, one past the pending result. -/
theorem decidedRun_not_consistent
    (P : Platform W) (world : W) (runId : Str) (n : Nat)
    {row : RunRow} {steps : List Step}
    (approve : Bool) (actor : Str)
    (hInv : RecordInv steps.length row)
    (hWaiting : row.status = .awaitingApproval)
    (hPauses :
      (decideRun P world row steps approve actor).status =
        .awaitingApproval) :
    ¬ Consistent n
      (decidedRun P runId row
        (decideRun P world row steps approve actor)).row := by
  intro hConsistent
  rcases decideRun_spec P world approve actor hInv hWaiting
    with ⟨earlier, added, hResults, hLength, hRange, hSettled,
      hAdded⟩
  rw [hPauses] at hAdded
  rcases pending_last hRange hSettled hAdded with
    ⟨last, hFilter, hLast⟩
  have hOne := hConsistent.awaiting hPauses
  simp only [decidedRun, PlaybookRun.row, hResults, hFilter,
    List.map_cons, List.map_nil, List.cons.injEq,
    and_true] at hOne
  omega

end

---- Runs Of A Session

variable {W : Type}

/- Which call a resumption of the stored run makes. -/
theorem resumeStopsAgain_iff
    (P : Platform W)
    {s : Store W} {runId : Str} {row : RunRow} {pb : PlaybookRow}
    (hRow : s.runs runId = some row)
    (hWaiting : row.status = .awaitingApproval)
    (hPb : s.playbooks row.playbookId = some pb) :
    resumeStopsAgain P s runId =
      stopsAtApproval P
        ((pb.steps.getD []).drop (row.currentStep + 1))
        row.resumeContext s.world := by
  simp [resumeStopsAgain, hRow, hWaiting, hPb]

/- The step lemma: a call keeps the invariant when it does
not stop at a further gate, and otherwise it leaves an
inconsistent record. -/
theorem resolveApproval_step
    (P : Platform W) {s : Store W} {runId playbookId : Str}
    {steps : Option (List Step)}
    (approve : Bool) (actor : Str)
    (hInv : SessionInv runId playbookId steps s) :
    let t := (resolveApproval P s runId approve actor).2
    (approve = true → resumeStopsAgain P s runId = false) ∧
        SessionInv runId playbookId steps t ∨
      (approve = true ∧ resumeStopsAgain P s runId = true) ∧
        ¬ RecordConsistent runId (steps.getD []).length t := by
  intro t
  rcases hInv.record with ⟨row, hRow, hId, hRecord⟩
  have hStored := hInv.stored
  rw [← hId] at hStored
  rcases Option.map_eq_some_iff.mp hStored with
    ⟨pb, hPb, hPbSteps⟩
  rcases resolveApproval_cases P s runId approve actor hRow
    with ⟨hSame, hBad⟩ | ⟨found, hWaiting, hFound, hKept, hNew⟩
  · left
    refine ⟨fun _ => ?_, by rw [show t = s from hSame]; exact hInv⟩
    by_cases hWaiting : row.status = .awaitingApproval
    · rcases hBad hWaiting with ⟨pb', hPb', hNone⟩
      have hEq : pb' = pb := by
        rw [hPb] at hPb'
        exact (Option.some.inj hPb').symm
      subst hEq
      rw [resumeStopsAgain_iff P hRow hWaiting hPb, hNone]
      simp [stopsAtApproval]
    · simp [resumeStopsAgain, hRow, hWaiting]
  · have hSome : steps = some found := by
      rw [hPb] at hFound
      rw [← hPbSteps]
      simpa using hFound
    subst hSome
    rw [Option.getD_some] at hRecord
    have hStops :=
      resumeStopsAgain_iff P hRow hWaiting hPb
    rw [hPbSteps, Option.getD_some] at hStops
    have hIff :=
      decideRun_awaiting_iff P s.world row found approve actor
    rw [← hStops] at hIff
    by_cases hPauses :
        (decideRun P s.world row found approve actor).status =
          .awaitingApproval
    · right
      refine ⟨hIff.mp hPauses, ?_⟩
      rintro ⟨row', hRow', hConsistent⟩
      have hEq := Option.some.inj (hNew.symm.trans hRow')
      subst hEq
      exact decidedRun_not_consistent P s.world runId _
        approve actor hRecord hWaiting hPauses hConsistent
    · left
      refine ⟨?_, ?_, ?_⟩
      · intro hApprove
        cases hAgain : resumeStopsAgain P s runId with
        | false => rfl
        | true =>
            exact absurd (hIff.mpr ⟨hApprove, hAgain⟩) hPauses
      · rw [hKept playbookId]
        exact hInv.stored
      · exact ⟨_, hNew, hId,
          decidedRun_recordInv P s.world runId approve actor
            hRecord hWaiting hPauses⟩

/- The record that a first execution leaves is consistent,
and along every later run of calls every record is
consistent exactly when no approval of the run comes to a
further approval gate. -/
theorem run_consistent_iff
    (P : Platform W)
    (s : Store W)
    (runId : Str)
    (pb : PlaybookRow)
    (actor trigger : Str)
    (alertId : Option Str)
    (hStored : s.playbooks pb.id = some pb)
    {t : Store W}
    {trace : List (Transition (Store W) SessionLabel)}
    (hRun :
      Run (SessionStep P runId pb.id)
        (executePlaybook P s runId pb actor trigger alertId
          false).2 trace t) :
    RecordConsistent runId (pb.steps.getD []).length
        (executePlaybook P s runId pb actor trigger alertId
          false).2 ∧
      ((∀ e ∈ trace,
          RecordConsistent runId (pb.steps.getD []).length
            e.post) ↔
        ∀ e ∈ trace, ApprovesLastGate P runId e) := by
  have hStart :=
    executePlaybook_sessionInv P s runId pb actor trigger
      alertId hStored
  refine ⟨hStart.consistent, ?_⟩
  refine Run.forall_post_iff
    (fun _ hInv => hInv.consistent) ?_ ?_ hRun hStart
  · intro s a t hInv hStep hCond
    cases hStep with
    | resolve approve actor =>
        rcases resolveApproval_step P approve actor hInv with
          ⟨_, hNext⟩ | ⟨⟨hApprove, hAgain⟩, _⟩
        · exact hNext
        · subst hApprove
          rw [hCond actor rfl] at hAgain
          cases hAgain
    | other _ hRecord hSteps =>
        refine ⟨hSteps.trans hInv.stored, ?_⟩
        rw [hRecord]
        exact hInv.record
  · intro s a t hInv hStep hPost caller hLabel
    cases hStep with
    | resolve approve actor =>
        have hApprove : approve = true := by
          simp only [SessionLabel.resolve.injEq] at hLabel
          exact hLabel.1
        rcases resolveApproval_step P approve actor hInv with
          ⟨hLast, _⟩ | ⟨_, hBroken⟩
        · exact hLast hApprove
        · exact absurd hPost hBroken
    | other _ hRecord hSteps => cases hLabel

/- A platform with no step action of its own. -/
def idlePlatform : Platform Unit where
  now _ := lit "2026-01-01T00:00:00+00:00"
  alertRow _ _ := none
  stepFn _ := none
  notify w _ := w
  audit w _ _ _ _ := w
  round3 rate := rate

/- A playbook whose steps are approval gates. -/
def gatesPlaybook (gates : Nat) : PlaybookRow :=
  { id := lit "pb-1"
    name := lit "Gates"
    runs := 0
    successRate := 0
    lastRun := none
    lastRunStatus := .idle
    running := false
    steps :=
      some (List.replicate gates
        ⟨some .approval, some (lit "Approve"), []⟩) }

/- The store after a run of the gates playbook was started. -/
def gatesStarted (gates : Nat) : Store Unit :=
  (executePlaybook idlePlatform
    { world := ()
      playbooks := fun id =>
        if id = lit "pb-1" then some (gatesPlaybook gates)
        else none
      runs := fun _ => none }
    (lit "run-1") (gatesPlaybook gates) (lit "analyst")
    (lit "manual") none false).2

/- One gate, approved: the condition holds and so the record. -/
theorem run_consistent_oneGate :
    RecordConsistent (lit "run-1") 1
      (resolveApproval idlePlatform (gatesStarted 1)
        (lit "run-1") true (lit "lead")).2 := by
  let e : Transition (Store Unit) SessionLabel :=
    ⟨gatesStarted 1, .resolve true (lit "lead"),
      (resolveApproval idlePlatform (gatesStarted 1)
        (lit "run-1") true (lit "lead")).2⟩
  have hRun :
      Run (SessionStep idlePlatform (lit "run-1")
          (gatesPlaybook 1).id) (gatesStarted 1) [e] e.post :=
    .cons (.resolve _ true (lit "lead")) (.nil _)
  refine
    (run_consistent_iff idlePlatform _ (lit "run-1")
      (gatesPlaybook 1) (lit "analyst") (lit "manual") none
      (by rfl) hRun).2.mpr ?_ e (List.mem_singleton_self e)
  intro e he actor _
  rw [List.mem_singleton.mp he]
  decide

/- Two gates: the record after the first approval names step
2 as current while the pending result is that of step 1. -/
theorem twoGates_not_consistent :
    ¬ RecordConsistent (lit "run-1") 2
      (resolveApproval idlePlatform (gatesStarted 2)
        (lit "run-1") true (lit "lead")).2 := by
  rintro ⟨row, hRow, hConsistent⟩
  have hSeen :
      (((resolveApproval idlePlatform (gatesStarted 2)
        (lit "run-1") true (lit "lead")).2.runs
          (lit "run-1")).map
        (fun r => (r.status, r.currentStep,
          (r.steps.filter StepResult.pending).map
            StepResult.idx))) =
        some (.awaitingApproval, 2, [1]) := by
    decide
  rw [hRow] at hSeen
  simp only [Option.map_some, Option.some.injEq,
    Prod.mk.injEq] at hSeen
  rcases hSeen with ⟨hStatus, hCurrent, hPending⟩
  have hOne := hConsistent.awaiting hStatus
  rw [hPending, hCurrent] at hOne
  simp at hOne

end ThreatOrbit.Playbooks
