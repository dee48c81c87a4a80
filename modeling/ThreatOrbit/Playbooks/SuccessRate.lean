import ThreatOrbit.Lib.Mean
import ThreatOrbit.Playbooks.Approvals

/-
  The success rate of a playbook.

  It is kept as a running mean: each outcome is folded in
  with the number of runs started as the number of runs
  averaged. That number is right while no other run waits
  for an approval.
-/

---- Outcomes

namespace ThreatOrbit

namespace Playbooks

open Lib

section

variable {W : Type}

/- Whether executing the steps ends well: no step fails, up
to one that gates the rest, and there is no approval gate
before it. -/
def succeeds
    (P : Platform W) :
    List Step → RunContext → W → Bool
| [], _, _ => true
| s :: rest, ctx, world =>
    if s.kind = some .approval then
      false
    else
      match s.kind.bind P.stepFn with
      | none => succeeds P rest ctx world
      | some fn =>
          let out := fn world ctx s.params false
          match out.answer with
          | .error _ => false
          | .ok (status, _) =>
              if status = .failed then
                false
              else if status = .gate then
                true
              else
                succeeds P rest out.ctx out.world

/- The rest of an execution that a step gated is skipped. -/
theorem execLoop_status_of_gated
    (P : Platform W) (steps : List Step) (i : Nat) (failed : Bool)
    (results : List StepResult) (ctx : RunContext) (world : W) :
    (execLoop P false steps i true failed results ctx
      world).status = if failed then .failed else .success := by
  induction steps generalizing i results with
  | nil => rfl
  | cons s rest ih =>
      rw [execLoop]
      simp only [Bool.true_or, if_true]
      exact ih _ _

theorem execLoop_status_of_failed
    (P : Platform W) (steps : List Step) (i : Nat) (gated : Bool)
    (results : List StepResult) (ctx : RunContext) (world : W) :
    (execLoop P false steps i gated true results ctx
      world).status = .failed := by
  induction steps generalizing i results with
  | nil => rfl
  | cons s rest ih =>
      rw [execLoop]
      simp only [Bool.or_true, if_true]
      exact ih _ _

/- An execution succeeds exactly when it ends well. -/
theorem execLoop_success_iff
    (P : Platform W) (steps : List Step) (i : Nat)
    (results : List StepResult) (ctx : RunContext) (world : W) :
    (execLoop P false steps i false false results ctx
        world).status = .success ↔
      succeeds P steps ctx world = true := by
  induction steps generalizing i results ctx world with
  | nil => simp [execLoop, succeeds]
  | cons s rest ih =>
      unfold execLoop succeeds
      simp only [Bool.or_self, Bool.false_eq_true, if_false]
      by_cases hGate : s.kind = some .approval
      · simp [hGate]
      · simp only [hGate, if_false]
        cases hFn : s.kind.bind P.stepFn with
        | none => exact ih _ _ _ _
        | some fn =>
            dsimp only
            cases hAnswer :
                (fn world ctx s.params false).answer with
            | error exc =>
                simp [execLoop_status_of_failed]
            | ok answer =>
                rcases answer with ⟨status, detail⟩
                cases status with
                | success => simpa using ih _ _ _ _
                | skipped => simpa using ih _ _ _ _
                | failed => simp [execLoop_status_of_failed]
                | gate => simp [execLoop_status_of_gated]

/- Whether a first execution would pause, and end well. -/
def startPauses
    (P : Platform W)
    (s : Store W)
    (pb : PlaybookRow)
    (alertId : Option Str) : Bool :=
  stopsAtApproval P (pb.steps.getD [])
    { toStoredContext := buildContext P s.world alertId
      playbookName := pb.name
      dispatches := [] } s.world

def startSucceeds
    (P : Platform W)
    (s : Store W)
    (pb : PlaybookRow)
    (alertId : Option Str) : Bool :=
  succeeds P (pb.steps.getD [])
    { toStoredContext := buildContext P s.world alertId
      playbookName := pb.name
      dispatches := [] } s.world

/- Whether a decision on the run would end it well. -/
def resumeSucceeds
    (P : Platform W)
    (s : Store W)
    (runId : Str)
    (approve : Bool) : Bool :=
  approve &&
    match s.runs runId with
    | none => false
    | some row =>
        let steps := (s.playbooks row.playbookId).elim []
          fun pb => pb.steps.getD []
        succeeds P (steps.drop (row.currentStep + 1))
          row.resumeContext s.world

/- Whether a decision on the run takes effect. -/
def Decides
    (s : Store W)
    (runId : Str) : Prop :=
  ∃ row, s.runs runId = some row ∧
    row.status = .awaitingApproval ∧
    ∀ pb, s.playbooks row.playbookId = some pb →
      pb.steps.isSome

end

---- The Runs Of A Playbook

variable {W : Type}

/- The store, and the runs of the playbook in the order in
which they were started. -/
structure Ledger (W : Type) where
  store : Store W
  started : List Str

/- A run that ended. -/
def isFinished (row : Option RunRow) : Bool :=
  match row with
  | some row => row.status != .awaitingApproval
  | none => false

/- A run that ended well. -/
def isWon (row : Option RunRow) : Bool :=
  match row with
  | some row => row.status == .success
  | none => false

namespace Ledger

/- The number of finished runs. -/
def finished (l : Ledger W) : Nat :=
  l.started.countP fun id => isFinished (l.store.runs id)

/- The number of finished runs that succeeded. -/
def won (l : Ledger W) : Nat :=
  l.started.countP fun id => isWon (l.store.runs id)

/- The ledger of a playbook no run of which was started. -/
def fresh (s : Store W) : Ledger W :=
  ⟨s, []⟩

end Ledger

/- The calls on a playbook. -/
inductive RateLabel where
| execute
    (runId : Str)
    (pb : PlaybookRow)
    (alertId : Option Str)
    (dryRun : Bool)
| resolve (runId : Str) (approve : Bool)
deriving DecidableEq, Repr

/- A call on the playbook: a run is started, under a new id
and with the steps the caller read, or decided on. -/
inductive RateStep
    (P : Platform W)
    (playbookId : Str) :
    Ledger W → RateLabel → Ledger W → Prop
| execute
    (l : Ledger W)
    (runId : Str)
    (pb : PlaybookRow)
    (actor trigger : Str)
    (alertId : Option Str)
    (hPlaybook : pb.id = playbookId)
    (hNew : runId ∉ l.started) :
    RateStep P playbookId l
      (.execute runId pb alertId false)
      ⟨(executePlaybook P l.store runId pb actor trigger
          alertId false).2, l.started ++ [runId]⟩
| dryRun
    (l : Ledger W)
    (runId : Str)
    (pb : PlaybookRow)
    (actor trigger : Str)
    (alertId : Option Str) :
    RateStep P playbookId l
      (.execute runId pb alertId true)
      ⟨(executePlaybook P l.store runId pb actor trigger
          alertId true).2, l.started⟩
| resolve
    (l : Ledger W)
    (runId : Str)
    (approve : Bool)
    (actor : Str)
    (hOwn : runId ∈ l.started) :
    RateStep P playbookId l (.resolve runId approve)
      ⟨(resolveApproval P l.store runId approve actor).2,
        l.started⟩

/- The success rate is that of the finished runs. -/
def RateKept (playbookId : Str) (l : Ledger W) : Prop :=
  ∃ row, l.store.playbooks playbookId = some row ∧
    row.successRate = mean l.won l.finished ∧
    0 ≤ row.successRate ∧ row.successRate ≤ 1

/- The condition on a call: where it ends a run, every other
run has ended, or all of them had its outcome; and where
it pauses a resumed run, none has succeeded yet. -/
def CountsRight
    (P : Platform W)
    (e : Transition (Ledger W) RateLabel) : Prop :=
  let l := e.pre
  match e.label with
  | .execute _ pb alertId dryRun =>
      dryRun = false →
      startPauses P l.store pb alertId = false →
        l.finished = l.started.length ∨
          Unanimous l.won l.finished
            (startSucceeds P l.store pb alertId)
  | .resolve runId approve =>
      Decides l.store runId →
        if approve && resumeStopsAgain P l.store runId then
          l.won = 0
        else
          l.finished + 1 = l.started.length ∨
            Unanimous l.won l.finished
              (resumeSucceeds P l.store runId approve)

end Playbooks

end ThreatOrbit

---- What A Call Does

namespace ThreatOrbit

namespace Playbooks

open Lib

section

variable {W : Type}

/- The rate after an outcome is folded in. -/
def folded
    (P : Platform W)
    (row : PlaybookRow)
    (ok : Bool) : Rat :=
  P.round3
    ((row.successRate * (((max 1 row.runs : Nat) : Rat) - 1) +
      (if ok then 1 else 0)) / ((max 1 row.runs : Nat) : Rat))

/- The row of a playbook after an update. -/
theorem Store.updatePlaybook_self
    {s : Store W} {id : Str} {row : PlaybookRow}
    (hRow : s.playbooks id = some row)
    (f : PlaybookRow → PlaybookRow) :
    (s.updatePlaybook id f).playbooks id = some (f row) := by
  simp [Store.updatePlaybook, hRow]

/- A finished run is folded into its playbook. -/
theorem finishPlaybook_self
    (P : Platform W)
    {s : Store W} {playbookId : Str} {row : PlaybookRow}
    (hRow : s.playbooks playbookId = some row) (ok : Bool) :
    ∃ row',
      (finishPlaybook P s playbookId ok).playbooks playbookId =
        some row' ∧
      row'.id = row.id ∧ row'.runs = row.runs ∧
      row'.successRate = folded P row ok :=
  ⟨_, Store.updatePlaybook_self hRow _, rfl, rfl, rfl⟩

/- A run that is started. -/
theorem executePlaybook_effect
    (P : Platform W) {s : Store W} (runId : Str)
    {pb row : PlaybookRow}
    (actor trigger : Str) (alertId : Option Str)
    (hRow : s.playbooks pb.id = some row) :
    let t :=
      (executePlaybook P s runId pb actor trigger alertId
        false).2
    ∃ run row',
      t.runs = Function.update s.runs runId (some run) ∧
      run.playbookId = pb.id ∧
      (run.status = .awaitingApproval ↔
        startPauses P s pb alertId = true) ∧
      (run.status = .success ↔
        startSucceeds P s pb alertId = true) ∧
      t.playbooks pb.id = some row' ∧
      row'.id = row.id ∧ row'.runs = row.runs + 1 ∧
      row'.successRate =
        if run.status = .awaitingApproval then
          row.successRate
        else
          folded P { row with runs := row.runs + 1 }
            (decide (run.status = .success)) := by
  intro t
  let ctx : RunContext :=
    { toStoredContext := buildContext P s.world alertId
      playbookName := pb.name
      dispatches := [] }
  let out :=
    execFrom P (pb.steps.getD []) [] 0 ctx false s.world
  let run := freshRun P runId pb actor trigger alertId false out
  have hPauses :
      run.row.status = .awaitingApproval ↔
        startPauses P s pb alertId = true :=
    execLoop_awaiting_iff P (pb.steps.getD []) 0 [] ctx s.world
  have hWins :
      run.row.status = .success ↔
        startSucceeds P s pb alertId = true :=
    execLoop_success_iff P (pb.steps.getD []) 0 [] ctx s.world
  let saved : Store W := saveRun { s with world := out.world } run
  have hStarted :
      (saved.updatePlaybook pb.id
        (PlaybookRow.started run)).playbooks pb.id =
          some (PlaybookRow.started run row) :=
    Store.updatePlaybook_self hRow _
  have hPlaybooks :
      ∃ row',
        (notePlaybookRun P saved run).playbooks pb.id =
          some row' ∧
        row'.id = row.id ∧ row'.runs = row.runs + 1 ∧
        row'.successRate =
          if run.row.status = .awaitingApproval then
            row.successRate
          else
            folded P { row with runs := row.runs + 1 }
              (decide (run.row.status = .success)) := by
    unfold notePlaybookRun
    by_cases hAwaits : run.status = .awaitingApproval
    · have hAwaits' : run.row.status = .awaitingApproval :=
        hAwaits
      rw [if_pos hAwaits, if_pos hAwaits']
      exact ⟨(PlaybookRow.started run row).waiting,
        Store.updatePlaybook_self hStarted _, rfl, rfl, rfl⟩
    · have hAwaits' : run.row.status ≠ .awaitingApproval :=
        hAwaits
      rw [if_neg hAwaits, if_neg hAwaits']
      rcases finishPlaybook_self P hStarted
        (decide (run.status = .success)) with
        ⟨row', hRow', hId, hRuns, hRate⟩
      exact ⟨row', hRow', hId, hRuns, hRate⟩
  rcases hPlaybooks with ⟨row', hRow', hId, hRuns, hRate⟩
  refine ⟨run.row, row', ?_, rfl, hPauses, hWins, hRow', hId,
    hRuns, hRate⟩
  show (notePlaybookRun P saved run).runs = _
  rw [notePlaybookRun_runs]
  rfl

/- A decision succeeds when the resumed steps do. -/
theorem decideRun_success_iff
    (P : Platform W) (world : W) (row : RunRow) (steps : List Step)
    (approve : Bool) (actor : Str) :
    (decideRun P world row steps approve actor).status =
        .success ↔
      approve = true ∧
        succeeds P (steps.drop (row.currentStep + 1))
          row.resumeContext world = true := by
  cases approve with
  | true =>
      simpa [decideRun, execFrom] using
        execLoop_success_iff P
          (steps.drop (row.currentStep + 1))
          (row.currentStep + 1) _ row.resumeContext world
  | false => simp [decideRun]

/- A run that is decided on. -/
theorem resolveApproval_effect
    (P : Platform W) {s : Store W} {runId : Str} (approve : Bool)
    (actor : Str) {run : RunRow} {row : PlaybookRow}
    (hRun : s.runs runId = some run)
    (hRow : s.playbooks run.playbookId = some row)
    (hId : row.id = run.playbookId) :
    let t := (resolveApproval P s runId approve actor).2
    (¬ Decides s runId ∧ t = s) ∨
    Decides s runId ∧ run.status = .awaitingApproval ∧
      ∃ run' row',
        t.runs = Function.update s.runs runId (some run') ∧
        run'.playbookId = run.playbookId ∧
        (run'.status = .awaitingApproval ↔
          (approve && resumeStopsAgain P s runId) = true) ∧
        (run'.status = .success ↔
          resumeSucceeds P s runId approve = true) ∧
        t.playbooks run.playbookId = some row' ∧
        row'.id = row.id ∧ row'.runs = row.runs ∧
        row'.successRate =
          folded P row (decide (run'.status = .success)) := by
  intro t
  by_cases hStatus : run.status = .awaitingApproval
  · cases hSteps : row.steps with
    | none =>
        left
        refine ⟨?_, ?_⟩
        · rintro ⟨run', hRun', _, hSome⟩
          rw [hRun] at hRun'
          cases hRun'
          have hGot := hSome row hRow
          rw [hSteps] at hGot
          cases hGot
        · simp [t, resolveApproval, hRun, hStatus, hRow, hSteps]
    | some steps =>
        right
        have hDecides : Decides s runId := by
          refine ⟨run, hRun, hStatus, ?_⟩
          intro pb hPb
          rw [hRow] at hPb
          cases hPb
          rw [hSteps]
          rfl
        let out := decideRun P s.world run steps approve actor
        let decided := decidedRun P runId run out
        have hStops :=
          resumeStopsAgain_iff P hRun hStatus hRow
        rw [hSteps, Option.getD_some] at hStops
        have hAgain :
            resumeSucceeds P s runId approve =
              (approve &&
                succeeds P (steps.drop (run.currentStep + 1))
                  run.resumeContext s.world) := by
          simp [resumeSucceeds, hRun, hRow, hSteps]
        rcases finishPlaybook_self P
          (s := saveRun { s with world := out.world } decided)
          hRow (decide (out.status = .success)) with
          ⟨row', hRow', hSame, hRuns, hRate⟩
        refine ⟨hDecides, hStatus, decided.row, row', ?_, rfl,
          ?_, ?_, ?_, hSame, hRuns, hRate⟩
        · simp [t, resolveApproval, hRun, hStatus, hRow, hSteps,
            Store.audit, saveRun, decided, out, decidedRun]
        · rw [Bool.and_eq_true, hStops]
          exact decideRun_awaiting_iff P s.world run steps
            approve actor
        · rw [hAgain, Bool.and_eq_true]
          exact decideRun_success_iff P s.world run steps
            approve actor
        · rw [← hRow']
          simp [t, resolveApproval, hRun, hStatus, hRow, hSteps,
            Store.audit, decided, out, hId]
  · left
    refine ⟨?_, ?_⟩
    · rintro ⟨run', hRun', hWaits, _⟩
      rw [hRun] at hRun'
      cases hRun'
      exact hStatus hWaits
    · simp [t, resolveApproval, hRun, hStatus]

end

---- The Invariant

section

variable {W : Type}

/- The playbook of a ledger, and what it counts. -/
structure Counted
    (playbookId : Str)
    (l : Ledger W)
    (row : PlaybookRow) : Prop where
  stored : l.store.playbooks playbookId = some row
  id : row.id = playbookId
  runs : row.runs = l.started.length
  nodup : l.started.Nodup
  known :
    ∀ runId ∈ l.started, ∃ run,
      l.store.runs runId = some run ∧
        run.playbookId = playbookId

theorem Ledger.won_le_finished
    (l : Ledger W) :
    l.won ≤ l.finished := by
  apply List.countP_mono_left
  intro id _ hWon
  cases hRow : l.store.runs id with
  | none =>
      rw [hRow] at hWon
      cases hWon
  | some row =>
      rw [hRow] at hWon
      have hStatus : row.status = .success := by
        simpa [isWon] using hWon
      simp [isFinished, hStatus]

/- With the rounding left out, the fold is of exact numbers. -/
theorem folded_eq
    {P : Platform W}
    (hExact : ∀ rate, P.round3 rate = rate) (row : PlaybookRow)
    {w f n : Nat}
    (hRate : row.successRate = mean w f) (hRuns : row.runs = n + 1)
    (ok : Bool) :
    folded P row ok =
      (mean w f * n + outcome ok) / ((n : Rat) + 1) := by
  have hMax : max 1 row.runs = n + 1 := by omega
  have hOk : (if ok then (1 : Rat) else 0) = outcome ok := by
    cases ok <;> simp [outcome]
  unfold folded
  rw [hExact, hMax, hRate, hOk, Nat.cast_add, Nat.cast_one,
    add_sub_cancel_right]

/- The counts after a run is started. -/
theorem countP_started
    {l : Ledger W} {runId : Str}
    (hNew : runId ∉ l.started) (run : Option RunRow)
    (p : Option RunRow → Bool) :
    (l.started ++ [runId]).countP
        (fun id => p (Function.update l.store.runs runId run id)) =
      l.started.countP (fun id => p (l.store.runs id)) +
        (p run).toNat := by
  rw [List.countP_append,
    countP_update_of_not_mem hNew, List.countP_singleton,
    Function.update_self]
  cases p run <;> rfl

theorem toNat_outcome
    (ok : Bool) :
    ok.toNat = outcome ok := by
  cases ok <;> rfl

/- A status, as the counts see it. -/
theorem isFinished_some
    (run : RunRow) :
    isFinished (some run) =
      !decide (run.status = .awaitingApproval) := by
  show (run.status != .awaitingApproval) = _
  cases run.status <;> rfl

theorem isWon_some
    (run : RunRow) :
    isWon (some run) = decide (run.status = .success) := by
  show (run.status == .success) = _
  cases run.status <;> rfl

/- What a run that is started adds to the counts. -/
theorem started_counts
    {l : Ledger W} {s : Store W} {runId : Str} {run : RunRow}
    (hNew : runId ∉ l.started)
    (hRuns :
      s.runs =
        Function.update l.store.runs runId (some run)) :
    let l' : Ledger W := ⟨s, l.started ++ [runId]⟩
    l'.finished =
        l.finished +
          (!decide (run.status = .awaitingApproval)).toNat ∧
      l'.won =
        l.won + (decide (run.status = .success)).toNat := by
  intro l'
  unfold Ledger.finished Ledger.won
  simp only [l', hRuns]
  rw [← isFinished_some, ← isWon_some]
  exact ⟨countP_started hNew (some run) isFinished,
    countP_started hNew (some run) isWon⟩

/- What the decision on a run that waits adds to them. -/
theorem decided_counts
    {l : Ledger W} {s : Store W} {runId : Str} {run run' : RunRow}
    (hNodup : l.started.Nodup) (hOwn : runId ∈ l.started)
    (hRun : l.store.runs runId = some run)
    (hWaits : run.status = .awaitingApproval)
    (hRuns :
      s.runs =
        Function.update l.store.runs runId (some run')) :
    let l' : Ledger W := ⟨s, l.started⟩
    l'.finished =
        l.finished +
          (!decide (run'.status = .awaitingApproval)).toNat ∧
      l'.won =
        l.won + (decide (run'.status = .success)).toNat := by
  intro l'
  have hLost : run.status ≠ .success := by
    rw [hWaits]
    decide
  have hFinished := countP_update hNodup hOwn l.store.runs
    (some run') isFinished
  have hWon := countP_update hNodup hOwn l.store.runs
    (some run') isWon
  rw [hRun, isFinished_some run, decide_eq_true hWaits,
    isFinished_some] at hFinished
  rw [hRun, isWon_some run, decide_eq_false hLost,
    isWon_some] at hWon
  unfold Ledger.finished Ledger.won
  simp only [l', hRuns]
  exact ⟨hFinished, hWon⟩

/- Runs of a playbook stay so when one more is written. -/
theorem known_update
    {l : Ledger W} {s : Store W} {playbookId runId : Str}
    {run : RunRow}
    (hKnown :
      ∀ id ∈ l.started, ∃ r,
        l.store.runs id = some r ∧ r.playbookId = playbookId)
    (hOf : run.playbookId = playbookId)
    (hRuns :
      s.runs =
        Function.update l.store.runs runId (some run))
    {id : Str}
    (hMem : id = runId ∨ id ∈ l.started) :
    ∃ r, s.runs id = some r ∧ r.playbookId = playbookId := by
  rw [hRuns]
  by_cases hHere : id = runId
  · rw [hHere, Function.update_self]
    exact ⟨run, rfl, hOf⟩
  · rw [Function.update_of_ne hHere]
    exact hKnown id (hMem.resolve_left hHere)

/- A run is started. -/
theorem counted_execute
    {P : Platform W}
    (hExact : ∀ rate, P.round3 rate = rate)
    {playbookId : Str} {l : Ledger W} {row : PlaybookRow}
    (hInv : Counted playbookId l row)
    (hRate : row.successRate = mean l.won l.finished)
    {runId : Str} {pb : PlaybookRow}
    (actor trigger : Str) (alertId : Option Str)
    (hPlaybook : pb.id = playbookId) (hNew : runId ∉ l.started) :
    let l' : Ledger W :=
      ⟨(executePlaybook P l.store runId pb actor trigger
        alertId false).2, l.started ++ [runId]⟩
    ∃ row', Counted playbookId l' row' ∧
      (row'.successRate = mean l'.won l'.finished ↔
        CountsRight P
          ⟨l, .execute runId pb alertId false, l'⟩) := by
  intro l'
  subst hPlaybook
  rcases executePlaybook_effect P runId actor trigger alertId
    hInv.stored with
    ⟨run, row', hRuns, hOf, hPauses, hWins, hRow', hId, hCount,
      hNewRate⟩
  rcases started_counts hNew hRuns with ⟨hFinished, hWon⟩
  refine ⟨row', ⟨hRow', hId.trans hInv.id, ?_, ?_, ?_⟩, ?_⟩
  · rw [hCount, hInv.runs, List.length_append]
    rfl
  · rw [List.nodup_append]
    refine ⟨hInv.nodup, List.nodup_singleton _, ?_⟩
    intro a hA b hB hSame
    rw [List.mem_singleton.mp hB] at hSame
    exact hNew (hSame ▸ hA)
  · intro id hMem
    apply known_update hInv.known hOf hRuns
    rcases List.mem_append.mp hMem with hOld | hLast
    · exact .inr hOld
    · exact .inl (List.mem_singleton.mp hLast)
  · by_cases hAwaits : run.status = .awaitingApproval
    · have hLost : run.status ≠ .success := by
        rw [hAwaits]
        decide
      rw [hNewRate, if_pos hAwaits, hFinished, hWon,
        decide_eq_true hAwaits, decide_eq_false hLost, hRate]
      have hStart := hPauses.mp hAwaits
      constructor
      · intro _ _ hNone
        rw [hStart] at hNone
        cases hNone
      · intro _
        rfl
    · have hStart : startPauses P l.store pb alertId = false :=
        Bool.eq_false_of_not_eq_true
          fun h => hAwaits (hPauses.mpr h)
      have hOk :
          decide (run.status = .success) =
            startSucceeds P l.store pb alertId := by
        rw [Bool.eq_iff_iff, decide_eq_true_iff]
        exact hWins
      have hFold :=
        folded_eq hExact { row with runs := row.runs + 1 } hRate
          (congrArg (· + 1) hInv.runs)
          (startSucceeds P l.store pb alertId)
      rw [hNewRate, if_neg hAwaits, hFinished, hWon,
        decide_eq_false hAwaits, hOk, hFold, toNat_outcome]
      show _ = mean _ (l.finished + 1) ↔ _
      rw [mean_iff l.won_le_finished]
      constructor
      · intro hRight _ _
        exact hRight
      · intro hRight
        exact hRight rfl hStart

/- A run is decided on. -/
theorem counted_resolve
    {P : Platform W}
    (hExact : ∀ rate, P.round3 rate = rate)
    {playbookId : Str} {l : Ledger W} {row : PlaybookRow}
    (hInv : Counted playbookId l row)
    (hRate : row.successRate = mean l.won l.finished) {runId : Str}
    (approve : Bool) (actor : Str) (hOwn : runId ∈ l.started) :
    let l' : Ledger W :=
      ⟨(resolveApproval P l.store runId approve actor).2,
        l.started⟩
    ∃ row', Counted playbookId l' row' ∧
      (row'.successRate = mean l'.won l'.finished ↔
        CountsRight P ⟨l, .resolve runId approve, l'⟩) := by
  intro l'
  rcases hInv.known runId hOwn with ⟨run, hRun, hOf⟩
  have hStored := hInv.stored
  have hOwnId := hInv.id
  rw [← hOf] at hStored hOwnId
  rcases resolveApproval_effect P approve actor hRun hStored
    hOwnId with ⟨hNot, hSame⟩ | ⟨hDecides, hWaits, run', row',
      hRuns, hOf', hAgain, hWins, hRow', hId, hCount, hNewRate⟩
  · have hLedger : l' = l := by
      show Ledger.mk _ _ = l
      rw [hSame]
    rw [hLedger]
    refine ⟨row, hInv, ?_⟩
    constructor
    · intro _ hDecides
      exact absurd hDecides hNot
    · intro _
      exact hRate
  · have hStatus : l.store.runs runId = some run := hRun
    rcases decided_counts hInv.nodup hOwn hStatus hWaits hRuns
      with ⟨hFinished, hWon⟩
    -- the run itself is one of those started
    have hSome : 0 < l.started.length :=
      List.length_pos_of_mem hOwn
    have hStarted : row.runs = (l.started.length - 1) + 1 := by
      rw [hInv.runs]
      omega
    rw [hOf] at hRow'
    refine ⟨row', ⟨hRow', hId.trans hInv.id,
      hCount.trans hInv.runs, hInv.nodup, ?_⟩, ?_⟩
    · intro id hMem
      exact known_update hInv.known (hOf'.trans hOf) hRuns
        (.inr hMem)
    · have hOk :
          decide (run'.status = .success) =
            resumeSucceeds P l.store runId approve := by
        rw [Bool.eq_iff_iff, decide_eq_true_iff]
        exact hWins
      rw [hNewRate, folded_eq hExact row hRate hStarted, hFinished,
        hWon, toNat_outcome]
      by_cases hAwaits : run'.status = .awaitingApproval
      · have hLost : run'.status ≠ .success := by
          rw [hAwaits]
          decide
        rw [decide_eq_true hAwaits, decide_eq_false hLost]
        have hCond :
            CountsRight P ⟨l, .resolve runId approve, l'⟩ ↔
              l.won = 0 := by
          unfold CountsRight
          simp only [hAgain.mp hAwaits, if_true]
          exact ⟨fun h => h hDecides, fun h _ => h⟩
        rw [hCond]
        exact mean_again_iff l.won_le_finished
      · have hEnds :
            (approve && resumeStopsAgain P l.store runId) =
              false :=
          Bool.eq_false_of_not_eq_true
            fun h => hAwaits (hAgain.mpr h)
        rw [decide_eq_false hAwaits, hOk]
        show _ = mean _ (l.finished + 1) ↔ _
        rw [mean_iff l.won_le_finished]
        have hCond :
            CountsRight P ⟨l, .resolve runId approve, l'⟩ ↔
              (l.finished + 1 = l.started.length ∨
                Unanimous l.won l.finished
                  (resumeSucceeds P l.store runId approve)) := by
          unfold CountsRight
          simp only [hEnds, Bool.false_eq_true, if_false]
          exact ⟨fun h => h hDecides, fun h _ => h⟩
        rw [hCond]
        apply or_congr_left
        omega

end

---- Runs Of Calls

variable {W : Type}

/- The invariant of the calls that meet the condition. -/
def RateInv (playbookId : Str) (l : Ledger W) : Prop :=
  ∃ row, Counted playbookId l row ∧
    row.successRate = mean l.won l.finished

theorem RateInv.kept
    {playbookId : Str} {l : Ledger W}
    (hInv : RateInv playbookId l) :
    RateKept playbookId l := by
  rcases hInv with ⟨row, hRow, hRate⟩
  refine ⟨row, hRow.stored, hRate, ?_, ?_⟩
  · rw [hRate]
    exact mean_nonneg _ _
  · rw [hRate]
    exact mean_le_one l.won_le_finished

/- A call keeps the rate exactly when its counts are
right. -/
theorem counted_step
    {P : Platform W}
    (hExact : ∀ rate, P.round3 rate = rate)
    {playbookId : Str} {l l' : Ledger W} {a : RateLabel}
    (hInv : RateInv playbookId l)
    (hStep : RateStep P playbookId l a l') :
    ∃ row', Counted playbookId l' row' ∧
      (row'.successRate = mean l'.won l'.finished ↔
        CountsRight P ⟨l, a, l'⟩) := by
  rcases hInv with ⟨row, hRow, hRate⟩
  cases hStep with
  | execute runId pb actor trigger alertId hPlaybook hNew =>
      exact counted_execute hExact hRow hRate actor trigger
        alertId hPlaybook hNew
  | dryRun runId pb actor trigger alertId =>
      refine ⟨row, ⟨hRow.stored, hRow.id, hRow.runs,
        hRow.nodup, hRow.known⟩, ?_⟩
      constructor
      · intro _ hReal
        cases hReal
      · intro _
        exact hRate
  | resolve runId approve actor hOwn =>
      exact counted_resolve hExact hRow hRate approve actor
        hOwn

/- Along every run of calls on a playbook that was never run
before, the success rate is that of the finished runs
exactly when the counts are right at every call. -/
theorem rate_kept_iff
    {P : Platform W}
    (hExact : ∀ rate, P.round3 rate = rate)
    {s : Store W}
    {playbookId : Str}
    {row : PlaybookRow}
    (hStored : s.playbooks playbookId = some row)
    (hId : row.id = playbookId)
    (hRuns : row.runs = 0)
    (hRate : row.successRate = 0)
    {l : Ledger W}
    {trace : List (Transition (Ledger W) RateLabel)}
    (hRun :
      Run (RateStep P playbookId) (.fresh s) trace l) :
    (∀ e ∈ trace, RateKept playbookId e.post) ↔
      ∀ e ∈ trace, CountsRight P e := by
  have hStart : RateInv playbookId (Ledger.fresh s) := by
    refine ⟨row, ⟨hStored, hId, hRuns, List.nodup_nil, ?_⟩, ?_⟩
    · intro runId hMem
      cases hMem
    · rw [hRate]
      exact (div_zero _).symm
  refine Run.forall_post_iff
    (fun _ hInv => hInv.kept) ?_ ?_ hRun hStart
  · intro l a l' hInv hStep hRight
    rcases counted_step hExact hInv hStep with
      ⟨row', hRow', hIff⟩
    exact ⟨row', hRow', hIff.mpr hRight⟩
  · intro l a l' hInv hStep hKept
    rcases counted_step hExact hInv hStep with
      ⟨row', hRow', hIff⟩
    rcases hKept with ⟨row'', hRow'', hSame, _⟩
    have hOne := hRow'.stored.symm.trans hRow''
    cases hOne
    exact hIff.mp hSame

/- The store with the playbook of one gate. -/
def gateStore : Store Unit :=
  { world := ()
    playbooks := fun id =>
      if id = lit "pb-1" then some (gatesPlaybook 1) else none
    runs := fun _ => none }

/- A call that starts a run of the playbook of one gate. -/
def gateStart
    (l : Ledger Unit)
    (runId : Str) : Ledger Unit :=
  ⟨(executePlaybook idlePlatform l.store runId
      (gatesPlaybook 1) (lit "analyst") (lit "manual") none
      false).2, l.started ++ [runId]⟩

/- A call that approves a run. -/
def gateApprove
    (l : Ledger Unit)
    (runId : Str) : Ledger Unit :=
  ⟨(resolveApproval idlePlatform l.store runId true
      (lit "lead")).2, l.started⟩

theorem gateStart_step
    {l : Ledger Unit} {runId : Str}
    (hNew : runId ∉ l.started) :
    RateStep idlePlatform (lit "pb-1") l
      (.execute runId (gatesPlaybook 1) none false)
      (gateStart l runId) :=
  .execute l runId (gatesPlaybook 1) _ _ none rfl hNew

theorem gateApprove_step
    {l : Ledger Unit} {runId : Str}
    (hOwn : runId ∈ l.started) :
    RateStep idlePlatform (lit "pb-1") l
      (.resolve runId true) (gateApprove l runId) :=
  .resolve l runId true _ hOwn

/- One run that is started and approved: the rate is one. -/
theorem one_run_rate_kept :
    RateKept (lit "pb-1")
      (gateApprove (gateStart (.fresh gateStore) (lit "run-1"))
        (lit "run-1")) := by
  let l₀ : Ledger Unit := .fresh gateStore
  let l₁ := gateStart l₀ (lit "run-1")
  let l₂ := gateApprove l₁ (lit "run-1")
  have hRun :
      Run (RateStep idlePlatform (lit "pb-1")) l₀
        [⟨l₀, .execute (lit "run-1") (gatesPlaybook 1) none
            false, l₁⟩,
          ⟨l₁, .resolve (lit "run-1") true, l₂⟩] l₂ :=
    .cons (gateStart_step (by decide))
      (.cons (gateApprove_step (by decide)) (.nil _))
  have hStored :
      gateStore.playbooks (lit "pb-1") =
        some (gatesPlaybook 1) := by
    rfl
  refine (rate_kept_iff (fun _ => rfl) hStored rfl rfl rfl
    hRun).mpr ?_ ⟨l₁, _, l₂⟩
      (List.mem_cons_of_mem _ (List.mem_singleton_self _))
  intro e hE
  rcases List.mem_cons.mp hE with hFirst | hSecond
  · rw [hFirst]
    intro _ hNone
    have hPauses :
        startPauses idlePlatform l₀.store (gatesPlaybook 1)
          none = true := by
      decide
    rw [hPauses] at hNone
    cases hNone
  · rw [List.mem_singleton.mp hSecond]
    intro _
    have hLast :
        (true && resumeStopsAgain idlePlatform l₁.store
          (lit "run-1")) = false := by
      decide
    simp only [hLast, Bool.false_eq_true, if_false]
    left
    decide

/- Two runs wait and one is approved: one of one finished
run has succeeded, and the rate is a half. -/
theorem overlapping_runs_rate_lost :
    ∃ trace l,
      Run (RateStep idlePlatform (lit "pb-1"))
        (.fresh gateStore) trace l ∧
      l.finished = 1 ∧ l.won = 1 ∧
      (l.store.playbooks (lit "pb-1")).map
        PlaybookRow.successRate = some (1 / 2) ∧
      ¬ RateKept (lit "pb-1") l := by
  let l₀ : Ledger Unit := .fresh gateStore
  let l₁ := gateStart l₀ (lit "run-1")
  let l₂ := gateStart l₁ (lit "run-2")
  let l₃ := gateApprove l₂ (lit "run-1")
  have hRate :
      (l₃.store.playbooks (lit "pb-1")).map
        PlaybookRow.successRate = some (1 / 2) := by
    decide +kernel
  have hFinished : l₃.finished = 1 := by decide
  have hWon : l₃.won = 1 := by decide
  have hRun :
      Run (RateStep idlePlatform (lit "pb-1")) l₀
        [⟨l₀, .execute (lit "run-1") (gatesPlaybook 1) none
            false, l₁⟩,
          ⟨l₁, .execute (lit "run-2") (gatesPlaybook 1) none
            false, l₂⟩,
          ⟨l₂, .resolve (lit "run-1") true, l₃⟩] l₃ :=
    .cons (gateStart_step (by decide))
      (.cons (gateStart_step (by decide))
        (.cons (gateApprove_step (by decide)) (.nil _)))
  refine ⟨_, l₃, hRun, hFinished, hWon, hRate, ?_⟩
  rintro ⟨row, hRow, hSame, _⟩
  rw [hRow, Option.map_some, hSame, hFinished, hWon] at hRate
  revert hRate
  decide +kernel

end Playbooks

end ThreatOrbit
