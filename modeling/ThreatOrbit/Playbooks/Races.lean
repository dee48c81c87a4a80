import ThreatOrbit.Playbooks.Callers
import ThreatOrbit.Playbooks.Edits

/-
  Callers that decide on one waiting run.

  As long as a call that finds the run waiting is the only
  one in flight, the steps after a gate run once and one
  decision takes effect; two calls that read the run before
  either writes it execute the steps twice.
-/

---- Calls That Find The Run Alone

namespace ThreatOrbit.Playbooks

open Lib

section

variable {W : Type}
variable {P : Platform W}
variable {runId : Str}
variable {asked : Nat → Call}

/- The condition on a step: a call that finds the run waiting
is the only one in flight. -/
def FindsAlone
    (runId : Str)
    (e : Transition (Floor W) CallLabel) : Prop :=
  ∀ c row, e.label = .readRun c →
    e.pre.store.runs runId = some row →
    row.status = .awaitingApproval →
    ∀ c', (e.pre.calls c').inFlight = none

/- The call executes steps, or it has. -/
def Phase.started : Phase → Bool
| .executing _ _ _ => true
| .decided _ _ _ _ _ => true
| _ => false

/- The call has taken effect. -/
def Phase.isDone : Phase → Bool
| .done _ _ => true
| _ => false

/- How far the execution of a call is ahead of the steps that
were executed before. -/
def Phase.Ahead (executed : List Nat) : Phase → Prop
| .executing row _ l =>
    row.currentStep < l.idx ∧
    l.idx ≤ l.results.length + 1 ∧
    ∀ i ∈ executed, i < l.idx
| .decided row _ status results _ =>
    status = .awaitingApproval →
      row.currentStep < results.length ∧
      ∀ i ∈ executed, i ≤ results.length
| _ => True

/- The invariant of the callers that find the run alone: one
call at most is in flight, with the row that is stored;
the steps executed so far are behind the gate at which the
run waits, or behind the call that executes; the calls
that took effect did so at earlier gates. -/
structure Orderly (runId : Str) (f : Floor W) : Prop where
  alone :
    ∀ c c' row row',
      (f.calls c).inFlight = some row →
      (f.calls c').inFlight = some row' → c = c'
  current :
    ∀ c row, (f.calls c).inFlight = some row →
      f.store.runs runId = some row ∧
        row.status = .awaitingApproval
  recorded :
    ∀ row, f.store.runs runId = some row →
      row.status = .awaitingApproval →
      row.currentStep ≤ row.steps.length
  unborn :
    f.store.runs runId = none →
      f.executed = [] ∧ ∀ c, (f.calls c).isDone = false
  nodup : f.executed.Nodup
  ahead : ∀ c, (f.calls c).Ahead f.executed
  resting :
    ∀ row, f.store.runs runId = some row →
      row.status = .awaitingApproval →
      (∀ c, (f.calls c).started = false) →
      ∀ i ∈ f.executed, i ≤ row.currentStep
  earlier :
    ∀ c row run, f.calls c = .done row run →
      ∀ row', f.store.runs runId = some row' →
        row'.status = .awaitingApproval →
        row.currentStep < row'.currentStep ∧
          run.status = .awaitingApproval
  apart :
    ∀ c c' row run row' run',
      f.calls c = .done row run →
      f.calls c' = .done row' run' →
      c ≠ c' →
      row.currentStep ≠ row'.currentStep ∧
        (run.status = .awaitingApproval ∨
          run'.status = .awaitingApproval)

theorem Phase.started_inFlight
    {p : Phase}
    (hStarted : p.started = true) :
    ∃ row, p.inFlight = some row := by
  cases p with
  | executing row _ _ => exact ⟨row, rfl⟩
  | decided row _ _ _ _ => exact ⟨row, rfl⟩
  | idle => cases hStarted
  | waiting _ => cases hStarted
  | done _ _ => cases hStarted
  | missing => cases hStarted
  | raised _ => cases hStarted

/- A call that is not in flight need not be ahead. -/
theorem Phase.ahead_of_idle
    {p : Phase}
    (hIdle : p.inFlight = none) (executed : List Nat) :
    p.Ahead executed := by
  cases p with
  | executing _ _ _ => cases hIdle
  | decided _ _ _ _ _ => cases hIdle
  | idle => trivial
  | waiting _ => trivial
  | done _ _ => trivial
  | missing => trivial
  | raised _ => trivial

/- Where a call is in flight no other call is. -/
theorem Orderly.others
    {f : Floor W} {c : Nat} {row : RunRow}
    (hInv : Orderly runId f)
    (hFlight : (f.calls c).inFlight = some row) :
    ∀ c', c' ≠ c → (f.calls c').inFlight = none := by
  intro c' hOther
  cases hFlight' : (f.calls c').inFlight with
  | none => rfl
  | some row' =>
      exact absurd (hInv.alone c' c row' row hFlight' hFlight)
        hOther

/- A call that moves on without writing the run keeps the
order, where what it executed is ahead. -/
theorem Orderly.move
    {f : Floor W} {t : Store W} {c : Nat} {p : Phase}
    {added : List Nat}
    (hInv : Orderly runId f)
    (hRecord : t.runs runId = f.store.runs runId)
    (hNotDone : p.isDone = false)
    (hWasNot : (f.calls c).isDone = false)
    (hFlight :
      ∀ row, p.inFlight = some row →
        (f.store.runs runId = some row ∧
          row.status = .awaitingApproval) ∧
        ∀ c', c' ≠ c → (f.calls c').inFlight = none)
    (hAdded :
      added = [] ∨ ∃ row, (f.calls c).inFlight = some row)
    (hNodup : (f.executed ++ added).Nodup)
    (hAhead : p.Ahead (f.executed ++ added))
    (hResting :
      p.started = true ∨
        ((f.calls c).started = false ∧ added = [])) :
    Orderly runId
      ⟨t, Function.update f.calls c p,
        f.executed ++ added⟩ := by
  -- the calls that took effect are the ones that had
  have hDone :
      ∀ c' row run,
        Function.update f.calls c p c' = .done row run →
        f.calls c' = .done row run := by
    intro c' row run hIs
    by_cases hSame : c' = c
    · subst hSame
      rw [Function.update_self] at hIs
      rw [hIs] at hNotDone
      cases hNotDone
    · rwa [Function.update_of_ne hSame] at hIs
  constructor
  case alone =>
    intro c₁ c₂ row₁ row₂ h₁ h₂
    dsimp only at h₁ h₂
    by_cases hFirst : c₁ = c
    · by_cases hSecond : c₂ = c
      · rw [hFirst, hSecond]
      · rw [hFirst, Function.update_self] at h₁
        rw [Function.update_of_ne hSecond,
          (hFlight row₁ h₁).2 c₂ hSecond] at h₂
        cases h₂
    · by_cases hSecond : c₂ = c
      · rw [hSecond, Function.update_self] at h₂
        rw [Function.update_of_ne hFirst,
          (hFlight row₂ h₂).2 c₁ hFirst] at h₁
        cases h₁
      · rw [Function.update_of_ne hFirst] at h₁
        rw [Function.update_of_ne hSecond] at h₂
        exact hInv.alone c₁ c₂ row₁ row₂ h₁ h₂
  case current =>
    intro c₁ row h₁
    dsimp only at h₁ ⊢
    rw [hRecord]
    by_cases hFirst : c₁ = c
    · rw [hFirst, Function.update_self] at h₁
      exact (hFlight row h₁).1
    · rw [Function.update_of_ne hFirst] at h₁
      exact hInv.current c₁ row h₁
  case recorded =>
    intro row hRow
    dsimp only at hRow
    rw [hRecord] at hRow
    exact hInv.recorded row hRow
  case unborn =>
    intro hNone
    dsimp only at hNone ⊢
    rw [hRecord] at hNone
    rcases hInv.unborn hNone with ⟨hEmpty, hNoneDone⟩
    constructor
    · rcases hAdded with hNil | ⟨row, hWas⟩
      · rw [hEmpty, hNil]
        rfl
      · rw [(hInv.current c row hWas).1] at hNone
        cases hNone
    · intro c'
      by_cases hSame : c' = c
      · rw [hSame, Function.update_self]
        exact hNotDone
      · rw [Function.update_of_ne hSame]
        exact hNoneDone c'
  case nodup =>
    exact hNodup
  case ahead =>
    intro c'
    dsimp only
    by_cases hSame : c' = c
    · rw [hSame, Function.update_self]
      exact hAhead
    · rw [Function.update_of_ne hSame]
      rcases hAdded with hNil | ⟨row, hWas⟩
      · rw [hNil, List.append_nil]
        exact hInv.ahead c'
      · have hIdle := hInv.others hWas c' hSame
        exact Phase.ahead_of_idle hIdle _
  case resting =>
    intro row hRow hWaits hRest i hi
    dsimp only at hRow hRest hi
    rw [hRecord] at hRow
    rcases hResting with hStarted | ⟨hWas, hNil⟩
    · have hNo := hRest c
      rw [Function.update_self, hStarted] at hNo
      cases hNo
    · rw [hNil, List.append_nil] at hi
      refine hInv.resting row hRow hWaits ?_ i hi
      intro c'
      by_cases hSame : c' = c
      · rw [hSame]
        exact hWas
      · have hNo := hRest c'
        rwa [Function.update_of_ne hSame] at hNo
  case earlier =>
    intro c' row run hIs row' hRow'
    dsimp only at hRow'
    rw [hRecord] at hRow'
    exact hInv.earlier c' row run (hDone c' row run hIs) row'
      hRow'
  case apart =>
    intro c₁ c₂ row₁ run₁ row₂ run₂ h₁ h₂ hOther
    exact hInv.apart c₁ c₂ row₁ run₁ row₂ run₂
      (hDone c₁ row₁ run₁ h₁) (hDone c₂ row₂ run₂ h₂) hOther

end

---- One Step Of The Callers

section

variable {W : Type}
variable {P : Platform W}
variable {runId : Str}
variable {asked : Nat → Call}

/- No call is in flight before the run is started. -/
theorem Orderly.unborn_inFlight
    {f : Floor W}
    (hInv : Orderly runId f) (hNone : f.store.runs runId = none)
    (c : Nat) :
    (f.calls c).inFlight = none := by
  cases hFlight : (f.calls c).inFlight with
  | none => rfl
  | some row =>
      rw [(hInv.current c row hFlight).1] at hNone
      cases hNone

/- The record a first execution stores. -/
theorem executePlaybook_recorded
    (P : Platform W) (s : Store W) (runId : Str) (pb : PlaybookRow)
    (actor trigger : Str) (alertId : Option Str) :
    ∃ row,
      (executePlaybook P s runId pb actor trigger alertId
        false).2.runs runId = some row ∧
      (row.status = .awaitingApproval →
        row.currentStep ≤ row.steps.length) := by
  let ctx : RunContext :=
    { toStoredContext := buildContext P s.world alertId
      playbookName := pb.name
      dispatches := [] }
  let out :=
    execFrom P (pb.steps.getD []) [] 0 ctx false s.world
  let run := freshRun P runId pb actor trigger alertId false out
  rcases execLoop_spec P false (pb.steps.getD []) 0 false
      false [] ctx s.world with ⟨added, hResults, hAdded⟩
  rw [List.nil_append] at hResults
  have hSteps : run.row.steps = added := hResults
  have hRecord : RecordInv (pb.steps.getD []).length run.row := by
    refine recordInv_of_appended ?_ rfl
    rw [hSteps]
    exact hAdded
  have hStored :
      (saveRun { s with world := out.world } run).runs runId =
        some run.row :=
    saveRun_runs_self _ run
  refine ⟨run.row, ?_, ?_⟩
  · simp only [executePlaybook, Store.audit,
      Bool.false_eq_true, if_false, notePlaybookRun_runs]
    exact hStored
  · intro hWaits
    rw [(hRecord.last hWaits).1]
    exact Nat.le_succ _

theorem Orderly.execute
    {f : Floor W}
    (hInv : Orderly runId f) (hNew : f.store.runs runId = none)
    (pb : PlaybookRow) (actor trigger : Str)
    (alertId : Option Str) :
    Orderly runId
      { f with
        store :=
          (executePlaybook P f.store runId pb actor trigger
            alertId false).2 } := by
  rcases hInv.unborn hNew with ⟨hEmpty, hNoneDone⟩
  have hIdle := hInv.unborn_inFlight hNew
  rcases executePlaybook_recorded P f.store runId pb actor
    trigger alertId with ⟨row, hRow, hBound⟩
  have hNever : ∀ c row run, f.calls c ≠ .done row run := by
    intro c row run hIs
    have hNo := hNoneDone c
    rw [hIs] at hNo
    cases hNo
  constructor
  · exact hInv.alone
  · intro c row' hFlight
    rw [hIdle c] at hFlight
    cases hFlight
  · intro row' hRow' hWaits
    dsimp only at hRow'
    rw [hRow] at hRow'
    cases hRow'
    exact hBound hWaits
  · intro hNone
    dsimp only at hNone
    rw [hRow] at hNone
    cases hNone
  · exact hInv.nodup
  · exact hInv.ahead
  · intro row' _ _ _ i hi
    dsimp only at hi
    rw [hEmpty] at hi
    cases hi
  · intro c row' run hIs
    exact absurd hIs (hNever c row' run)
  · intro c c' row' run _ _ hIs
    exact absurd hIs (hNever c row' run)

theorem Orderly.other
    {f : Floor W} {t : Store W}
    (hInv : Orderly runId f)
    (hRecord : t.runs runId = f.store.runs runId) :
    Orderly runId { f with store := t } where
  alone := hInv.alone
  current c row hFlight := by
    rw [hRecord]
    exact hInv.current c row hFlight
  recorded row hRow := by
    rw [hRecord] at hRow
    exact hInv.recorded row hRow
  unborn hNone := by
    rw [hRecord] at hNone
    exact hInv.unborn hNone
  nodup := hInv.nodup
  ahead := hInv.ahead
  resting row hRow := by
    rw [hRecord] at hRow
    exact hInv.resting row hRow
  earlier c row run hIs row' hRow' := by
    rw [hRecord] at hRow'
    exact hInv.earlier c row run hIs row' hRow'
  apart := hInv.apart

/- What a call finds when it reads the run. -/
theorem findRun_cases
    (runId : Str) (s : Store W) :
    (s.runs runId = none ∧ findRun runId s = .missing) ∨
    (∃ row, s.runs runId = some row ∧
      row.status ≠ .awaitingApproval ∧
      findRun runId s = .raised .notAwaiting) ∨
    (∃ row, s.runs runId = some row ∧
      row.status = .awaitingApproval ∧
      findRun runId s = .waiting row) := by
  cases hRow : s.runs runId with
  | none => exact .inl ⟨rfl, by simp [findRun, hRow]⟩
  | some row =>
      by_cases hWaits : row.status = .awaitingApproval
      · exact .inr (.inr
          ⟨row, rfl, hWaits, by simp [findRun, hRow, hWaits]⟩)
      · exact .inr (.inl
          ⟨row, rfl, hWaits, by simp [findRun, hRow, hWaits]⟩)

theorem Orderly.readRun
    {f : Floor W} {c : Nat}
    (hInv : Orderly runId f) (hPhase : f.calls c = .idle)
    (hAlone :
      ∀ row, f.store.runs runId = some row →
        row.status = .awaitingApproval →
        ∀ c', (f.calls c').inFlight = none) :
    Orderly runId
      { f with
        calls :=
          Function.update f.calls c
            (findRun runId f.store) } := by
  have hMove :
      (findRun runId f.store).isDone = false →
      (∀ row,
        (findRun runId f.store).inFlight = some row →
        (f.store.runs runId = some row ∧
          row.status = .awaitingApproval) ∧
        ∀ c', c' ≠ c → (f.calls c').inFlight = none) →
      (findRun runId f.store).Ahead (f.executed ++ []) →
      Orderly runId
        ⟨f.store,
          Function.update f.calls c (findRun runId f.store),
          f.executed ++ []⟩ := by
    intro hNotDone hFlight hAhead
    refine hInv.move rfl hNotDone (by rw [hPhase]; rfl)
      hFlight (.inl rfl) ?_ hAhead
      (.inr ⟨by rw [hPhase]; rfl, rfl⟩)
    rw [List.append_nil]
    exact hInv.nodup
  rw [List.append_nil] at hMove
  apply hMove
  · rcases findRun_cases runId f.store with
      ⟨_, hFind⟩ | ⟨row, _, _, hFind⟩ | ⟨row, _, _, hFind⟩
    · rw [hFind]; rfl
    · rw [hFind]; rfl
    · rw [hFind]; rfl
  · intro row hFlight
    rcases findRun_cases runId f.store with
      ⟨_, hFind⟩ | ⟨row', _, _, hFind⟩ |
        ⟨row', hRow, hWaits, hFind⟩
    · rw [hFind] at hFlight; cases hFlight
    · rw [hFind] at hFlight; cases hFlight
    · rw [hFind] at hFlight
      cases hFlight
      exact ⟨⟨hRow, hWaits⟩,
        fun c' _ => hAlone row hRow hWaits c'⟩
  · rcases findRun_cases runId f.store with
      ⟨_, hFind⟩ | ⟨row, _, _, hFind⟩ | ⟨row, _, _, hFind⟩
    · rw [hFind]; trivial
    · rw [hFind]; trivial
    · rw [hFind]; trivial

/- A started call has read a definition that parses, and it
executes from the index after the gate or it rejects. -/
theorem Call.start_cases
    (P : Platform W) (call : Call) (s : Store W) (row : RunRow) :
    call.start P s row = .raised .badSteps ∨
    (∃ pb l, call.start P s row = .executing row pb l ∧
      l.idx = row.currentStep + 1 ∧
      l.results.length = row.steps.length) ∨
    (∃ pb results ctx,
      call.start P s row =
        .decided row pb .rejected results ctx) := by
  unfold Call.start
  dsimp only
  split
  · exact .inl rfl
  · split
    · exact .inr (.inl ⟨_, _, rfl, rfl, by simp⟩)
    · exact .inr (.inr ⟨_, _, _, rfl⟩)

theorem Orderly.readPlaybook
    {f : Floor W} {c : Nat} {row : RunRow}
    (hInv : Orderly runId f) (hPhase : f.calls c = .waiting row) :
    Orderly runId
      { f with
        calls :=
          Function.update f.calls c
            ((asked c).start P f.store row) } := by
  have hFlight : (f.calls c).inFlight = some row := by
    rw [hPhase]
    rfl
  rcases hInv.current c row hFlight with ⟨hRow, hWaits⟩
  have hOthers := hInv.others hFlight
  have hRest : ∀ i ∈ f.executed, i ≤ row.currentStep := by
    refine hInv.resting row hRow hWaits ?_
    intro c'
    by_cases hSame : c' = c
    · rw [hSame, hPhase]
      rfl
    · by_contra hStarted
      rcases Phase.started_inFlight (by simpa using hStarted)
        with ⟨row', hFlight'⟩
      rw [hOthers c' hSame] at hFlight'
      cases hFlight'
  have hMove :
      ∀ p : Phase, p.isDone = false →
        (∀ row', p.inFlight = some row' → row' = row) →
        p.Ahead f.executed →
        Orderly runId
          ⟨f.store, Function.update f.calls c p,
            f.executed⟩ := by
    intro p hNotDone hSame hAhead
    have hKept := @Orderly.move W runId f f.store c p [] hInv
      rfl hNotDone (by rw [hPhase]; rfl)
      (fun row' h => by
        rw [hSame row' h]
        exact ⟨⟨hRow, hWaits⟩, hOthers⟩)
      (.inl rfl)
      (by rw [List.append_nil]; exact hInv.nodup)
      (by rw [List.append_nil]; exact hAhead)
      (.inr ⟨by rw [hPhase]; rfl, rfl⟩)
    rwa [List.append_nil] at hKept
  rcases (asked c).start_cases P f.store row with
    hStart | ⟨pb, l, hStart, hIdx, hLength⟩ |
      ⟨pb, results, ctx, hStart⟩
  · rw [hStart]
    exact hMove _ rfl (fun row' h => by cases h) trivial
  · rw [hStart]
    refine hMove _ rfl (fun row' h => by cases h; rfl) ?_
    have hBound := hInv.recorded row hRow hWaits
    refine ⟨by omega, by omega, ?_⟩
    intro i hi
    have hBefore := hRest i hi
    omega
  · rw [hStart]
    exact hMove _ rfl (fun row' h => by cases h; rfl)
      (fun hNever => by cases hNever)

theorem Orderly.iterate
    {f : Floor W} {c : Nat} {row : RunRow} {pb : Option Str}
    {l : LoopState}
    (hInv : Orderly runId f)
    (hPhase : f.calls c = .executing row pb l) :
    Orderly runId
      { store :=
          { f.store with
            world := (l.advance P f.store.world).world }
        calls :=
          Function.update f.calls c
            ((l.advance P f.store.world).iteration.phase
              row pb)
        executed :=
          f.executed ++
            if (l.advance P f.store.world).acted then [l.idx]
            else [] } := by
  have hFlight : (f.calls c).inFlight = some row := by
    rw [hPhase]
    rfl
  have hOthers := hInv.others hFlight
  have hAhead := hInv.ahead c
  rw [hPhase] at hAhead
  rcases hAhead with ⟨hAfter, hLength, hBehind⟩
  -- the index at hand is ahead of all executed so far
  have hNodup :
      (f.executed ++
        if (l.advance P f.store.world).acted then [l.idx]
        else []).Nodup := by
    split
    · rw [List.nodup_append]
      refine ⟨hInv.nodup, List.nodup_singleton _, ?_⟩
      intro i hi j hj hSame
      rw [List.mem_singleton] at hj
      have hLess := hBehind i hi
      omega
    · rw [List.append_nil]
      exact hInv.nodup
  refine hInv.move rfl ?_ (by rw [hPhase]; rfl) ?_
    (.inr ⟨row, hFlight⟩) hNodup ?_ ?_
  · rcases l.advance_cases P f.store.world with
      ⟨l', hNext, _⟩ | ⟨status, results, ctx, hEnds, _⟩
    · rw [hNext]; rfl
    · rw [hEnds]; rfl
  · intro row' hIs
    have hSame : row' = row := by
      rcases l.advance_cases P f.store.world with
        ⟨l', hNext, _⟩ | ⟨status, results, ctx, hEnds, _⟩
      · rw [hNext] at hIs; cases hIs; rfl
      · rw [hEnds] at hIs; cases hIs; rfl
    rw [hSame]
    exact ⟨hInv.current c row hFlight, hOthers⟩
  · rcases l.advance_cases P f.store.world with
      ⟨l', hNext, _, hIdx, hResults⟩ |
        ⟨status, results, ctx, hEnds, hActed, hGate⟩
    · rw [hNext]
      refine ⟨by omega, by omega, ?_⟩
      intro i hi
      rcases List.mem_append.mp hi with hOld | hNew
      · have hLess := hBehind i hOld
        omega
      · split at hNew
        · rw [List.mem_singleton] at hNew
          omega
        · cases hNew
    · rw [hEnds, hActed]
      intro hWaits
      have hResults := hGate hWaits
      refine ⟨by omega, ?_⟩
      intro i hi
      simp only [Bool.false_eq_true, if_false,
        List.append_nil] at hi
      have hLess := hBehind i hi
      omega
  · left
    rcases l.advance_cases P f.store.world with
      ⟨l', hNext, _⟩ | ⟨status, results, ctx, hEnds, _⟩
    · rw [hNext]; rfl
    · rw [hEnds]; rfl

/- The record that a commit stores. -/
theorem Call.commit_runs
    (P : Platform W) (call : Call) (s : Store W) (row : RunRow)
    (pb : Option Str) (run : PlaybookRun) :
    (call.commit P run.id s row pb run).runs run.id =
      some run.row := by
  unfold Call.commit
  cases pb with
  | none => simp [Store.audit]
  | some id => simp [Store.audit]

theorem Orderly.commit
    {f : Floor W} {c : Nat} {row : RunRow} {pb : Option Str}
    {status : RunStatus} {results : List StepResult}
    {ctx : RunContext} {run : PlaybookRun}
    (hInv : Orderly runId f)
    (hPhase :
      f.calls c = .decided row pb status results ctx)
    (hDecided :
      run =
        decidedRun P runId row
          ⟨status, results, ctx, f.store.world⟩) :
    Orderly runId
      { f with
        store :=
          (asked c).commit P runId f.store row pb run
        calls :=
          Function.update f.calls c (.done row run) } := by
  have hFlight : (f.calls c).inFlight = some row := by
    rw [hPhase]
    rfl
  have hOthers := hInv.others hFlight
  rcases hInv.current c row hFlight with ⟨hRow, hWaits⟩
  have hAhead := hInv.ahead c
  rw [hPhase] at hAhead
  have hStatus : run.row.status = status := by
    rw [hDecided]
    rfl
  have hCurrent : run.row.currentStep = results.length := by
    rw [hDecided]
    rfl
  have hSteps : run.row.steps = results := by
    rw [hDecided]
    rfl
  have hStored :
      ((asked c).commit P runId f.store row pb run).runs runId =
        some run.row := by
    have hId : run.id = runId := by
      rw [hDecided]
      rfl
    rw [← hId]
    exact Call.commit_runs P (asked c) f.store row pb run
  have hIdle :
      ∀ c', (Function.update f.calls c (.done row run)
        c').inFlight = none := by
    intro c'
    by_cases hSame : c' = c
    · rw [hSame, Function.update_self]
      rfl
    · rw [Function.update_of_ne hSame]
      exact hOthers c' hSame
  constructor
  case alone =>
    intro c₁ c₂ row₁ row₂ h₁
    dsimp only at h₁
    rw [hIdle c₁] at h₁
    cases h₁
  case current =>
    intro c₁ row₁ h₁
    dsimp only at h₁
    rw [hIdle c₁] at h₁
    cases h₁
  case recorded =>
    intro row' hRow' _
    dsimp only at hRow'
    rw [hStored] at hRow'
    cases hRow'
    rw [hCurrent, hSteps]
  case unborn =>
    intro hNone
    dsimp only at hNone
    rw [hStored] at hNone
    cases hNone
  case nodup =>
    exact hInv.nodup
  case ahead =>
    exact fun c' => Phase.ahead_of_idle (hIdle c') _
  case resting =>
    intro row' hRow' hWaits' _ i hi
    dsimp only at hRow'
    rw [hStored] at hRow'
    cases hRow'
    rw [hStatus] at hWaits'
    rw [hCurrent]
    exact (hAhead hWaits').2 i hi
  case earlier =>
    intro c' row₁ run₁ hIs row' hRow' hWaits'
    dsimp only at hIs hRow'
    rw [hStored] at hRow'
    cases hRow'
    rw [hStatus] at hWaits'
    have hLess := (hAhead hWaits').1
    rw [hCurrent]
    by_cases hSame : c' = c
    · rw [hSame, Function.update_self] at hIs
      cases hIs
      exact ⟨hLess, hStatus.trans hWaits'⟩
    · rw [Function.update_of_ne hSame] at hIs
      rcases hInv.earlier c' row₁ run₁ hIs row hRow hWaits
        with ⟨hBefore, hOpen⟩
      exact ⟨hBefore.trans hLess, hOpen⟩
  case apart =>
    -- the calls that took effect before did so earlier
    have hBefore :
        ∀ c' row₁ run₁,
          f.calls c' = .done row₁ run₁ →
          row₁.currentStep < row.currentStep ∧
            run₁.status = .awaitingApproval :=
      fun c' row₁ run₁ hIs =>
        hInv.earlier c' row₁ run₁ hIs row hRow hWaits
    intro c₁ c₂ row₁ run₁ row₂ run₂ h₁ h₂ hOther
    dsimp only at h₁ h₂
    by_cases hFirst : c₁ = c
    · rw [hFirst, Function.update_self] at h₁
      cases h₁
      have hSecond : c₂ ≠ c :=
        fun hSame => hOther (hFirst.trans hSame.symm)
      rw [Function.update_of_ne hSecond] at h₂
      rcases hBefore c₂ row₂ run₂ h₂ with ⟨hLess, hOpen⟩
      exact ⟨hLess.ne', .inr hOpen⟩
    · rw [Function.update_of_ne hFirst] at h₁
      rcases hBefore c₁ row₁ run₁ h₁ with ⟨hLess, hOpen⟩
      by_cases hSecond : c₂ = c
      · rw [hSecond, Function.update_self] at h₂
        cases h₂
        exact ⟨hLess.ne, .inl hOpen⟩
      · rw [Function.update_of_ne hSecond] at h₂
        exact hInv.apart c₁ c₂ row₁ run₁ row₂ run₂ h₁ h₂ hOther

/- Every step of callers that find the run alone keeps the
order. -/
theorem Orderly.step
    {f f' : Floor W} {label : CallLabel}
    (hInv : Orderly runId f)
    (hStep : CallStep P runId asked f label f')
    (hAlone : FindsAlone runId ⟨f, label, f'⟩) :
    Orderly runId f' := by
  cases hStep with
  | execute pb actor trigger alertId hNew =>
      exact hInv.execute hNew pb actor trigger alertId
  | other t hRecord => exact hInv.other hRecord
  | readRun c hPhase =>
      exact hInv.readRun hPhase
        (fun row hRow => hAlone c row rfl hRow)
  | readPlaybook c row hPhase =>
      exact hInv.readPlaybook hPhase
  | iterate c row pb l hPhase => exact hInv.iterate hPhase
  | commit c row pb status results ctx run hPhase hDecided =>
      exact hInv.commit hPhase hDecided

end

---- Whole Runs

variable {W : Type}
variable {P : Platform W}
variable {runId : Str}
variable {asked : Nat → Call}

theorem Orderly.fresh
    {s : Store W}
    (hNew : s.runs runId = none) :
    Orderly runId (Floor.fresh s) where
  alone c c' row row' h := by cases h
  current c row h := by cases h
  recorded row hRow := by
    have hNone : s.runs runId = some row := hRow
    rw [hNew] at hNone
    cases hNone
  unborn _ := ⟨rfl, fun _ => rfl⟩
  nodup := List.nodup_nil
  ahead _ := trivial
  resting _ _ _ _ i hi := by cases hi
  earlier c row run h := by cases h
  apart c c' row run row' run' h := by cases h

/- The step of a call is the one that writes the run, or it
leaves the run and the playbooks as they were; a call that
ends without the write raises, if there is the run. -/
def WritesOrRaises
    (runId : Str)
    (e : Transition (Floor W) CallLabel)
    (c : Nat) : Prop :=
  (∃ row run, e.post.calls c = .done row run) ∨
  (e.post.store.runs = e.pre.store.runs ∧
    e.post.store.playbooks = e.pre.store.playbooks ∧
    ∀ answer, (e.post.calls c).answer = some answer →
      (∃ error, answer = .error error) ∨
        e.pre.store.runs runId = none)

theorem CallStep.writesOrRaises
    {f f' : Floor W} {label : CallLabel} {c : Nat}
    (hStep : CallStep P runId asked f label f')
    (hCaller : label.caller = some c) :
    WritesOrRaises runId ⟨f, label, f'⟩ c := by
  cases hStep with
  | execute pb actor trigger alertId hNew => cases hCaller
  | other t hRecord => cases hCaller
  | readRun c' hPhase =>
      cases hCaller
      refine .inr ⟨rfl, rfl, ?_⟩
      dsimp only
      rw [Function.update_self]
      intro answer hAnswer
      rcases findRun_cases runId f.store with
        ⟨hNone, _⟩ | ⟨row, _, _, hFind⟩ | ⟨row, _, _, hFind⟩
      · exact .inr hNone
      · rw [hFind] at hAnswer
        cases hAnswer
        exact .inl ⟨_, rfl⟩
      · rw [hFind] at hAnswer
        cases hAnswer
  | readPlaybook c' row hPhase =>
      cases hCaller
      refine .inr ⟨rfl, rfl, ?_⟩
      dsimp only
      rw [Function.update_self]
      intro answer hAnswer
      rcases (asked c).start_cases P f.store row with
        hStart | ⟨pb, l, hStart, _⟩ |
          ⟨pb, results, ctx, hStart⟩
      · rw [hStart] at hAnswer
        cases hAnswer
        exact .inl ⟨_, rfl⟩
      · rw [hStart] at hAnswer
        cases hAnswer
      · rw [hStart] at hAnswer
        cases hAnswer
  | iterate c' row pb l hPhase =>
      cases hCaller
      refine .inr ⟨rfl, rfl, ?_⟩
      dsimp only
      rw [Function.update_self]
      intro answer hAnswer
      rcases l.advance_cases P f.store.world with
        ⟨l', hNext, _⟩ | ⟨status, results, ctx, hEnds, _⟩
      · rw [hNext] at hAnswer
        cases hAnswer
      · rw [hEnds] at hAnswer
        cases hAnswer
  | commit c' row pb status results ctx run hPhase hDecided =>
      cases hCaller
      exact .inl ⟨row, run, Function.update_self c _ f.calls⟩

/- Once a call has reported a rejection nothing more is
executed. -/
theorem Orderly.rejected
    {f f' : Floor W} {label : CallLabel} {c : Nat} {row : RunRow}
    {run : PlaybookRun}
    (hInv : Orderly runId f)
    (hStep : CallStep P runId asked f label f')
    (hDone : f.calls c = .done row run)
    (hRejected : run.status = .rejected) :
    f'.executed = f.executed := by
  cases hStep with
  | execute pb actor trigger alertId hNew => rfl
  | other t hRecord => rfl
  | readRun c' hPhase => rfl
  | readPlaybook c' row' hPhase => rfl
  | iterate c' row' pb l hPhase =>
      have hFlight : (f.calls c').inFlight = some row' := by
        rw [hPhase]
        rfl
      rcases hInv.current c' row' hFlight with ⟨hRow, hWaits⟩
      have hOpen :=
        (hInv.earlier c row run hDone row' hRow hWaits).2
      rw [hRejected] at hOpen
      cases hOpen
  | commit c' row' pb status results ctx run' hPhase _ => rfl

/- In every run of callers that find the waiting run alone,
no step is executed twice; two calls take effect only at
different gates, where one of them left the run waiting
again; every other call raises and leaves the run and the
playbooks unchanged; and once a rejection was reported
nothing is executed. -/
theorem decided_once
    (P : Platform W)
    (runId : Str)
    (asked : Nat → Call)
    {s : Store W}
    {f : Floor W}
    {trace : List (Transition (Floor W) CallLabel)}
    (hNew : s.runs runId = none)
    (hRun : Run (CallStep P runId asked) (.fresh s) trace f)
    (hAlone : ∀ e ∈ trace, FindsAlone runId e) :
    f.executed.Nodup ∧
    (∀ c c' row run row' run',
      f.calls c = .done row run →
      f.calls c' = .done row' run' →
      c ≠ c' →
      row.currentStep ≠ row'.currentStep ∧
        (run.status = .awaitingApproval ∨
          run'.status = .awaitingApproval)) ∧
    (∀ e ∈ trace, ∀ c, e.label.caller = some c →
      WritesOrRaises runId e c) ∧
    (∀ e ∈ trace, ∀ c row run,
      e.pre.calls c = .done row run →
      run.status = .rejected →
      e.post.executed = e.pre.executed) := by
  have hRestricted := hRun.restrict hAlone
  have hKeep :
      ∀ f label f', Orderly runId f →
        (CallStep P runId asked f label f' ∧
          FindsAlone runId ⟨f, label, f'⟩) →
        Orderly runId f' :=
    fun _ _ _ hInv hStep => hInv.step hStep.1 hStep.2
  have hFresh := Orderly.fresh hNew
  have hEnd := hRestricted.invariant hKeep hFresh
  have hSteps := hRestricted.forall_step hKeep hFresh
  refine ⟨hEnd.nodup, hEnd.apart, ?_, ?_⟩
  · intro e hE c hCaller
    exact (hSteps e hE).2.1.writesOrRaises hCaller
  · intro e hE c row run hDone hRejected
    rcases hSteps e hE with ⟨hInv, hStep, _⟩
    exact hInv.rejected hStep hDone hRejected

/- The label of the next step of a call in a phase. -/
def Phase.label (c : Nat) : Phase → Option CallLabel
| .idle => some (.readRun c)
| .waiting _ => some (.readPlaybook c)
| .executing _ _ _ => some (.iterate c)
| .decided _ _ _ _ _ => some (.commit c)
| .done _ _ => none
| .missing => none
| .raised _ => none

/- The next step of a call. -/
def Floor.call
    (P : Platform W)
    (runId : Str)
    (asked : Nat → Call)
    (f : Floor W)
    (c : Nat) : Floor W :=
  match f.calls c with
  | .idle =>
      { f with
        calls :=
          Function.update f.calls c (findRun runId f.store) }
  | .waiting row =>
      { f with
        calls :=
          Function.update f.calls c
            ((asked c).start P f.store row) }
  | .executing row pb l =>
      let out := l.advance P f.store.world
      { store := { f.store with world := out.world }
        calls :=
          Function.update f.calls c
            (out.iteration.phase row pb)
        executed :=
          f.executed ++ if out.acted then [l.idx] else [] }
  | .decided row pb status results ctx =>
      let run :=
        decidedRun P runId row
          ⟨status, results, ctx, f.store.world⟩
      { f with
        store := (asked c).commit P runId f.store row pb run
        calls := Function.update f.calls c (.done row run) }
  | _ => f

/- The step a call takes is its next one. -/
theorem Floor.call_step
    (P : Platform W) (asked : Nat → Call)
    {f : Floor W} {c : Nat} {label : CallLabel}
    (hLabel : (f.calls c).label c = some label) :
    CallStep P runId asked f label
      (f.call P runId asked c) := by
  unfold Floor.call
  cases hPhase : f.calls c with
  | idle =>
      rw [hPhase] at hLabel
      cases hLabel
      exact .readRun f c hPhase
  | waiting row =>
      rw [hPhase] at hLabel
      cases hLabel
      exact .readPlaybook f c row hPhase
  | executing row pb l =>
      rw [hPhase] at hLabel
      cases hLabel
      exact .iterate f c row pb l hPhase
  | decided row pb status results ctx =>
      rw [hPhase] at hLabel
      cases hLabel
      exact .commit f c row pb status results ctx _ hPhase rfl
  | done _ _ =>
      rw [hPhase] at hLabel
      cases hLabel
  | missing =>
      rw [hPhase] at hLabel
      cases hLabel
  | raised _ =>
      rw [hPhase] at hLabel
      cases hLabel

theorem Phase.label_caller
    {p : Phase} {c : Nat} {label : CallLabel}
    (hLabel : p.label c = some label) :
    label.caller = some c := by
  cases p with
  | idle => cases hLabel; rfl
  | waiting _ => cases hLabel; rfl
  | executing _ _ _ => cases hLabel; rfl
  | decided _ _ _ _ _ => cases hLabel; rfl
  | done _ _ => cases hLabel
  | missing => cases hLabel
  | raised _ => cases hLabel

/- An ended call takes no step. -/
theorem Floor.call_ended
    (P : Platform W) (runId : Str) (asked : Nat → Call)
    {f : Floor W} {c : Nat}
    (hEnded : (f.calls c).label c = none) :
    f.call P runId asked c = f := by
  unfold Floor.call
  cases hPhase : f.calls c with
  | done _ _ => rfl
  | missing => rfl
  | raised _ => rfl
  | idle => rw [hPhase] at hEnded; cases hEnded
  | waiting _ => rw [hPhase] at hEnded; cases hEnded
  | executing _ _ _ => rw [hPhase] at hEnded; cases hEnded
  | decided _ _ _ _ _ => rw [hPhase] at hEnded; cases hEnded

/- The steps of a call leave the other calls alone. -/
theorem CallStep.calls_of_ne
    {f f' : Floor W} {label : CallLabel} {c c' : Nat}
    (hStep : CallStep P runId asked f label f')
    (hCaller : label.caller = some c) (hOther : c' ≠ c) :
    f'.calls c' = f.calls c' := by
  cases hStep with
  | execute pb actor trigger alertId hNew => cases hCaller
  | other t hRecord => cases hCaller
  | readRun _ _ =>
      cases hCaller
      exact Function.update_of_ne hOther _ _
  | readPlaybook _ _ _ =>
      cases hCaller
      exact Function.update_of_ne hOther _ _
  | iterate _ _ _ _ _ =>
      cases hCaller
      exact Function.update_of_ne hOther _ _
  | commit _ _ _ _ _ _ _ _ _ =>
      cases hCaller
      exact Function.update_of_ne hOther _ _

theorem CallStep.readRun_idle
    {f f' : Floor W} {c : Nat}
    (hStep : CallStep P runId asked f (.readRun c) f') :
    f.calls c = .idle := by
  cases hStep with
  | readRun _ hPhase => exact hPhase

/- A caller that no other meets finds the run alone. -/
theorem lone_caller
    {f f' : Floor W} {c : Nat}
    {trace : List (Transition (Floor W) CallLabel)}
    (hRun : Run (CallStep P runId asked) f trace f')
    (hOthers : ∀ c', c' ≠ c → (f.calls c').inFlight = none)
    (hCallers : ∀ e ∈ trace, e.label.caller = some c) :
    ∀ e ∈ trace, FindsAlone runId e := by
  have hSteps := (hRun.restrict hCallers).forall_step
    (I := fun f =>
      ∀ c', c' ≠ c → (f.calls c').inFlight = none)
    (fun f label f' hI hStep c' hOther => by
      rw [hStep.1.calls_of_ne hStep.2 hOther]
      exact hI c' hOther) hOthers
  intro e hE c₁ row hLabel _ _ c'
  rcases hSteps e hE with ⟨hIdle, hStep, hCaller⟩
  by_cases hSame : c' = c
  · rw [hLabel] at hStep hCaller
    cases hCaller
    rw [hSame, hStep.readRun_idle]
    rfl
  · exact hIdle c' hSame

/- The store before the gated playbook was started. -/
def floorStore : Store Unit :=
  { world := ()
    playbooks := fun id =>
      if id = lit "pb-1" then some gatedPlaybook else none
    runs := fun _ => none }

/- Every call is an approval. -/
def approvals : Nat → Call := fun _ => ⟨true, lit "lead"⟩

/- The run, started and waiting. -/
def waitingFloor : Floor Unit :=
  ⟨(executePlaybook doingPlatform floorStore (lit "run-1")
      gatedPlaybook (lit "analyst") (lit "manual") none
      false).2, fun _ => .idle, []⟩

theorem waitingFloor_step :
    CallStep doingPlatform (lit "run-1") approvals
      (.fresh floorStore) .execute waitingFloor :=
  .execute (.fresh floorStore) gatedPlaybook (lit "analyst")
    (lit "manual") none rfl

/- The floor after the calls took their steps in turn. -/
def turns (f : Floor Unit) (cs : List Nat) : Floor Unit :=
  cs.foldl
    (fun f c =>
      f.call doingPlatform (lit "run-1") approvals c) f

/- Calls that take turns are a run of theirs. -/
theorem turns_run
    (f : Floor Unit) (cs : List Nat) :
    ∃ trace,
      Run (CallStep doingPlatform (lit "run-1") approvals) f
        trace (turns f cs) ∧
      ∀ e ∈ trace, ∃ c ∈ cs, e.label.caller = some c := by
  induction cs generalizing f with
  | nil => exact ⟨[], .nil f, by simp⟩
  | cons c cs ih =>
      rcases ih (f.call doingPlatform (lit "run-1") approvals c)
        with ⟨trace, hRun, hCallers⟩
      have hLater :
          ∀ e ∈ trace, ∃ c' ∈ c :: cs,
            e.label.caller = some c' := by
        intro e hE
        rcases hCallers e hE with ⟨c', hMem, hCaller⟩
        exact ⟨c', List.mem_cons_of_mem _ hMem, hCaller⟩
      cases hLabel : (f.calls c).label c with
      | some label =>
          refine ⟨_, .cons
            (Floor.call_step doingPlatform approvals hLabel)
            hRun, ?_⟩
          rw [List.forall_mem_cons]
          exact ⟨⟨c, List.mem_cons_self,
            Phase.label_caller hLabel⟩, hLater⟩
      | none =>
          -- an ended call takes no step
          have hTurns : turns f (c :: cs) = turns f cs := by
            unfold turns
            rw [List.foldl_cons,
              Floor.call_ended _ _ _ hLabel]
          rw [Floor.call_ended _ _ _ hLabel] at hRun
          rw [hTurns]
          exact ⟨trace, hRun, hLater⟩

/- One approval, that no other call meets. -/
theorem approved_once :
    (turns waitingFloor [0, 0, 0, 0, 0]).executed = [1] ∧
      (turns waitingFloor [0, 0, 0, 0, 0]).executed.Nodup := by
  have hExecuted :
      (turns waitingFloor [0, 0, 0, 0, 0]).executed = [1] := by
    decide
  rcases turns_run waitingFloor [0, 0, 0, 0, 0] with
    ⟨trace, hRun, hCallers⟩
  have hAlone :
      ∀ e ∈ (⟨.fresh floorStore, .execute, waitingFloor⟩ ::
          trace),
        FindsAlone (lit "run-1") e := by
    rw [List.forall_mem_cons]
    constructor
    · intro c row hLabel
      cases hLabel
    · refine lone_caller hRun (c := 0) (fun c' _ => rfl) ?_
      intro e hE
      rcases hCallers e hE with ⟨c, hMem, hCaller⟩
      have hZero : c = 0 := by simpa using hMem
      rw [hCaller, hZero]
  exact ⟨hExecuted,
    (decided_once doingPlatform (lit "run-1") approvals rfl
      (.cons waitingFloor_step hRun) hAlone).1⟩

/- Two approvals that both read the run before either wrote
it both execute the step after the gate, and both take
effect. -/
theorem approved_twice :
    ∃ trace f,
      Run (CallStep doingPlatform (lit "run-1") approvals)
        (.fresh floorStore) trace f ∧
      f.executed = [1, 1] ∧
      (f.calls 0).isDone = true ∧ (f.calls 1).isDone = true := by
  rcases turns_run waitingFloor
    [0, 1, 0, 1, 0, 1, 0, 0, 1, 1] with ⟨trace, hRun, _⟩
  refine ⟨_, _, .cons waitingFloor_step hRun, ?_⟩
  decide

end ThreatOrbit.Playbooks
