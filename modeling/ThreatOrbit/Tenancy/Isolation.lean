import ThreatOrbit.Cases.Merge
import ThreatOrbit.Playbooks.Approvals
import ThreatOrbit.Tenancy.Writes

/-
  Writes to the records of another workspace.

  No endpoint compares the workspace of the record with that
  of the caller. A write to a record of another workspace is
  refused as not found only where it names a second thing
  that is not there.
-/

---- Containment

namespace ThreatOrbit.Tenancy

open Lib

open Auth (HttpError Principal)

open Cases (CaseRequest)

section

variable {ν W D E : Type}

def orgOf (user : Principal) : Str :=
  Auth.orgOr (some user.orgId)

/- The tables after an answer: an error leaves them. -/
def tablesAfter
    (t : Tables ν W D E) :
    Except HttpError (Tables ν W D E) → Tables ν W D E
| .error _ => t
| .ok t' => t'

/- The call fails with 404, and the tables are as before. -/
def Contained
    (t : Tables ν W D E)
    (answer : Except HttpError (Tables ν W D E)) : Prop :=
  (∃ e, answer = .error e ∧ e.status = 404) ∧
    tablesAfter t answer = t

/- The request passes the checks of its body and names, beside
the record, a thing that is not there: a task of the case,
another case, a version of the playbook, a hunt of the
domain of the endpoint. An empty id names no indicator. -/
def Write.Misses
    (t : Tables ν W D E) : Write ν D → Prop
| .task id taskId body now =>
    (CaseRequest.task id taskId body now).check = .ok () ∧
      ∀ c, t.cases id = some c → ∀ x ∈ c.tasks, x.id ≠ taskId
| .link id other relation now =>
    (CaseRequest.link id other relation now).check = .ok () ∧
      t.cases other = none
| .merge id source _ => source ≠ id ∧ t.cases source = none
| .revertPlaybook id version =>
    ∀ v ∈ t.versions,
      ¬ (v.playbookId = id ∧ v.version = version)
| .runHunt domain id _ =>
    ∀ h, t.hunts id = some h → h.domain ≠ domain
| .scheduleHunt domain id minutes _ =>
    (0 ≤ minutes ∧ minutes ≤ 10080) ∧
      ∀ h, t.hunts id = some h → h.domain ≠ domain
| .sighting id _ _ _ => id = []
| _ => False

/- An error leaves the tables, so it is the status that
counts. -/
theorem contained_iff
    (t : Tables ν W D E)
    (answer : Except HttpError (Tables ν W D E)) :
    Contained t answer ↔
      ∃ e, answer = .error e ∧ e.status = 404 := by
  constructor
  · exact fun hContained => hContained.1
  · rintro ⟨e, rfl, hStatus⟩
    exact ⟨⟨e, rfl, hStatus⟩, rfl⟩

theorem not_contained_ok (t t' : Tables ν W D E) :
    ¬ Contained t (.ok t') := by
  rw [contained_iff]
  rintro ⟨e, hError, _⟩
  cases hError

theorem contained_error_iff
    (t : Tables ν W D E) (e : HttpError) :
    Contained t (.error e) ↔ e.status = 404 := by
  rw [contained_iff]
  constructor
  · rintro ⟨e', hSame, hStatus⟩
    cases hSame
    exact hStatus
  · exact fun hStatus => ⟨e, rfl, hStatus⟩

/- A call that writes wherever its record is there is never
not found. -/
theorem not_contained_of_found
    {α : Type} {row : Option α} {t : Tables ν W D E}
    {answer : Except HttpError (Tables ν W D E)}
    (hThere : row ≠ none)
    (hWrites : ∀ r, row = some r → ∃ t', answer = .ok t') :
    ¬ Contained t answer := by
  rcases Option.ne_none_iff_exists'.mp hThere with ⟨r, hRow⟩
  rcases hWrites r hRow with ⟨t', hAnswer⟩
  rw [hAnswer]
  exact not_contained_ok t t'

end

---- Requests On Cases

open Cases (CaseRequest Refusal RowUpdate changeTask)

section

variable {ν W D E : Type} [DecidableEq ν]

/- A request that fails its checks is a bad one. -/
theorem check_status
    {req : CaseRequest} {e : HttpError}
    (hCheck : req.check = .error e) :
    e.status = 400 := by
  cases req <;> unfold CaseRequest.check at hCheck
  all_goals
    repeat' split at hCheck
    all_goals first
      | (cases hCheck; rfl)
      | cases hCheck

/- A request on cases is not found when it passes its checks
and its plan is refused so. -/
theorem caseWrite_notFound_iff
    (req : CaseRequest) (t : Tables ν W D E) :
    Contained t (caseWrite req t) ↔
      req.check = .ok () ∧
        ∃ why, req.plan t.mark (t.cases req.caseId)
            (req.second.bind t.cases) = .error why ∧
          (refusal why).status = 404 := by
  unfold caseWrite
  cases hCheck : req.check with
  | error e =>
      simp only [contained_error_iff, check_status hCheck]
      simp
  | ok u =>
      cases hPlan : req.plan t.mark (t.cases req.caseId)
          (req.second.bind t.cases) with
      | error why => simp [contained_error_iff]
      | ok updates => simp [not_contained_ok]

/- A task is changed unless there is none of the id. -/
theorem changeTask_none_iff
    (taskId : Str) (ch : Cases.TaskChange)
    (tasks : List Cases.Task) :
    changeTask taskId ch tasks = none ↔
      ∀ x ∈ tasks, x.id ≠ taskId := by
  induction tasks with
  | nil => simp [changeTask]
  | cons x rest ih =>
      rw [changeTask, List.forall_mem_cons]
      by_cases hHere : x.id = taskId
      · simp [hHere]
      · simp [hHere, ih]

end

---- Records Of Another Workspace

section

variable {ν W D E : Type} [DecidableEq ν]

/- A run that is there has an answer, or the call raises. -/
omit [DecidableEq ν] in
theorem answer_of_run
    {P : Playbooks.Platform W} {s : Playbooks.Store W}
    {runId actor : Str} {approve : Bool}
    (hRun : s.runs runId ≠ none) :
    (Playbooks.resolveApproval P s runId approve actor).1 ≠
      .ok none := by
  unfold Playbooks.resolveApproval
  cases hRow : s.runs runId with
  | none => exact absurd hRow hRun
  | some row =>
      dsimp only
      split
      · simp
      · split <;> simp

omit [DecidableEq ν] in
theorem decideRun_found
    (env : Services W D E) {t : Tables ν W D E} {runId : Str}
    (hRun : t.soar.runs runId ≠ none) (approve : Bool)
    (user : Principal) :
    ¬ Contained t (decideRun env runId approve user t) := by
  have hAnswer :
      (Playbooks.resolveApproval env.playbooks t.soar runId
        approve user.email).1 ≠ .ok none :=
    answer_of_run hRun
  unfold decideRun
  revert hAnswer
  rcases Playbooks.resolveApproval env.playbooks t.soar runId
    approve user.email with ⟨answer, soar⟩
  intro hAnswer
  rcases answer with why | run
  · cases why <;> simp [contained_error_iff]
  · cases run with
    | none => exact absurd rfl hAnswer
    | some run => exact not_contained_ok t _

/- A hunt that is there is not found when it is of another
domain. -/
omit [DecidableEq ν] in
theorem huntIn_none_iff
    (t : Tables ν W D E) (domain id : Str) :
    huntIn t domain id = none ↔
      ∀ h, t.hunts id = some h → h.domain ≠ domain := by
  unfold huntIn
  cases hRow : t.hunts id with
  | none => simp
  | some h => simp [Option.filter]

/- A request that passes its plan wherever its case is there
is never not found. -/
theorem caseWrite_found
    {req : CaseRequest} {t : Tables ν W D E}
    (hCase : t.cases req.caseId ≠ none)
    (hPlan :
      ∀ c why,
        req.plan t.mark (some c) (req.second.bind t.cases) ≠
          .error why) :
    ¬ Contained t (caseWrite req t) := by
  rw [caseWrite_notFound_iff]
  rintro ⟨_, why, hRefused, _⟩
  rcases Option.ne_none_iff_exists'.mp hCase with ⟨c, hRow⟩
  rw [hRow] at hRefused
  exact hPlan c why hRefused

theorem note_found
    {id content type actor now : Str} {t : Tables ν W D E}
    (hCase : t.cases id ≠ none) :
    ¬ Contained t
      (caseWrite (.note id content type actor now) t) :=
  caseWrite_found hCase fun c why => by simp [CaseRequest.plan]

theorem evidence_found
    {id itemId sha256 actor now : Str} {body : Cases.EvidenceAdd}
    {t : Tables ν W D E}
    (hCase : t.cases id ≠ none) :
    ¬ Contained t
      (caseWrite (.evidence id body itemId sha256 actor now)
        t) :=
  caseWrite_found hCase fun c why => by simp [CaseRequest.plan]

theorem task_missing_iff
    {id taskId now : Str} {body : Cases.TaskChange}
    {t : Tables ν W D E}
    (hCase : t.cases id ≠ none) :
    Contained t (caseWrite (.task id taskId body now) t) ↔
      (CaseRequest.task id taskId body now).check = .ok () ∧
        ∀ c, t.cases id = some c →
          ∀ x ∈ c.tasks, x.id ≠ taskId := by
  rw [caseWrite_notFound_iff]
  rcases Option.ne_none_iff_exists'.mp hCase with ⟨c, hRow⟩
  refine and_congr_right fun _ => ?_
  simp only [CaseRequest.plan, CaseRequest.caseId, hRow,
    Option.some.injEq, forall_eq',
    ← changeTask_none_iff taskId body c.tasks]
  cases hChange : Cases.changeTask taskId body c.tasks with
  | none => simp [refusal]
  | some tasks => simp

theorem link_missing_iff
    {id other relation now : Str} {t : Tables ν W D E}
    (hCase : t.cases id ≠ none) :
    Contained t (caseWrite (.link id other relation now) t) ↔
      (CaseRequest.link id other relation now).check = .ok () ∧
        t.cases other = none := by
  rw [caseWrite_notFound_iff]
  rcases Option.ne_none_iff_exists'.mp hCase with ⟨c, hRow⟩
  refine and_congr_right fun _ => ?_
  cases hOther : t.cases other with
  | none =>
      simp [CaseRequest.plan, CaseRequest.caseId,
        CaseRequest.second, hRow, hOther, Cases.noCase, refusal]
  | some d =>
      simp [CaseRequest.plan, CaseRequest.caseId,
        CaseRequest.second, hRow, hOther]

theorem merge_missing_iff
    {call : Cases.MergeCall} {t : Tables ν W D E}
    (hCase : t.cases call.caseId ≠ none) :
    Contained t (caseWrite (.merge call) t) ↔
      call.sourceId ≠ call.caseId ∧
        t.cases call.sourceId = none := by
  rw [caseWrite_notFound_iff]
  rcases Option.ne_none_iff_exists'.mp hCase with ⟨c, hRow⟩
  have hCheck : (CaseRequest.merge call).check = .ok () ↔
      call.sourceId ≠ call.caseId := by
    unfold CaseRequest.check
    split <;> simp_all
  rw [hCheck]
  refine and_congr_right fun _ => ?_
  cases hOther : t.cases call.sourceId with
  | none =>
      simp [CaseRequest.plan, CaseRequest.caseId,
        CaseRequest.second, hRow, hOther, Cases.noCase, refusal]
  | some d =>
      simp [CaseRequest.plan, CaseRequest.caseId,
        CaseRequest.second, hRow, hOther]

omit [DecidableEq ν] in
theorem split_found
    {id : Str} {body : SplitBody ν} {user : Principal}
    {t : Tables ν W D E}
    (hCase : t.cases id ≠ none) :
    ¬ Contained t (splitCase id body user t) := by
  rcases Option.ne_none_iff_exists'.mp hCase with ⟨c, hRow⟩
  unfold splitCase
  rw [hRow]
  split
  · simp [contained_error_iff]
  · dsimp only
    split
    · simp [contained_error_iff]
    · exact not_contained_ok t _

/- A change that fails its checks is a bad request. -/
theorem playbookCheck_status
    {body : PlaybookUpdate} {e : HttpError}
    (hCheck : body.check = some e) :
    e.status = 400 := by
  unfold PlaybookUpdate.check at hCheck
  split at hCheck
  · cases hCheck; rfl
  · split at hCheck
    · cases hCheck; rfl
    · split at hCheck
      · cases hCheck; rfl
      · cases hCheck

omit [DecidableEq ν] in
theorem updatePlaybook_found
    {id : Str} {body : PlaybookUpdate} {user : Principal}
    {t : Tables ν W D E}
    (hRow : t.soar.playbooks id ≠ none) :
    ¬ Contained t (updatePlaybook id body user t) := by
  rcases Option.ne_none_iff_exists'.mp hRow with ⟨row, hRow⟩
  unfold updatePlaybook
  cases hCheck : body.check with
  | some e =>
      simp [contained_error_iff, playbookCheck_status hCheck]
  | none =>
      rw [hRow]
      exact not_contained_ok t _

omit [DecidableEq ν] in
theorem revert_missing_iff
    {id : Str} {version : Nat} {user : Principal}
    {t : Tables ν W D E}
    (hRow : t.soar.playbooks id ≠ none) :
    Contained t (revertPlaybook id version user t) ↔
      ∀ v ∈ t.versions,
        ¬ (v.playbookId = id ∧ v.version = version) := by
  rcases Option.ne_none_iff_exists'.mp hRow with ⟨row, hRow⟩
  unfold revertPlaybook
  cases hFind : t.versions.find? fun v =>
      v.playbookId == id && v.version == version with
  | none =>
      have hNone := List.find?_eq_none.mp hFind
      simpa [contained_error_iff] using hNone
  | some snap =>
      rw [hRow]
      have hMem := List.mem_of_find?_eq_some hFind
      have hIs := List.find?_some hFind
      simp only [Bool.and_eq_true, beq_iff_eq] at hIs
      constructor
      · exact fun hContained =>
          absurd hContained (not_contained_ok t _)
      · exact fun hNone => absurd hIs (hNone snap hMem)

omit [DecidableEq ν] in
theorem runPlaybook_found
    (env : Services W D E)
    {id runId : Str} {alertId : Option Str} {dryRun : Bool}
    {user : Principal} {t : Tables ν W D E}
    (hRow : t.soar.playbooks id ≠ none) :
    ¬ Contained t
      (runPlaybook env id runId alertId dryRun user t) := by
  rcases Option.ne_none_iff_exists'.mp hRow with ⟨row, hRow⟩
  unfold runPlaybook
  rw [hRow]
  dsimp only
  split
  · simp [contained_error_iff]
  · exact not_contained_ok t _

theorem ruleCheck_status
    {env : Services W D E} {body : RuleUpdate D} {e : HttpError}
    (hCheck : body.check env = some e) :
    e.status = 400 := by
  unfold RuleUpdate.check at hCheck
  split at hCheck
  · cases hCheck; rfl
  · split at hCheck
    · cases hCheck; rfl
    · split at hCheck
      · cases hCheck; rfl
      · cases hCheck

omit [DecidableEq ν] in
theorem updateRule_found
    (env : Services W D E)
    {id : Str} {body : RuleUpdate D} {user : Principal}
    {t : Tables ν W D E}
    (hRow : t.rules id ≠ none) :
    ¬ Contained t (updateRule env id body user t) := by
  rcases Option.ne_none_iff_exists'.mp hRow with ⟨row, hRow⟩
  unfold updateRule
  cases hCheck : body.check env with
  | some e =>
      simp [contained_error_iff, ruleCheck_status hCheck]
  | none =>
      rw [hRow]
      exact not_contained_ok t _

omit [DecidableEq ν] in
theorem schedule_missing_iff
    {domain id : Str} {minutes : Int} {autoAlert : Bool}
    (t : Tables ν W D E) :
    Contained t (scheduleHunt domain id minutes autoAlert t) ↔
      (0 ≤ minutes ∧ minutes ≤ 10080) ∧
        ∀ h, t.hunts id = some h → h.domain ≠ domain := by
  rw [← huntIn_none_iff]
  unfold scheduleHunt
  by_cases hRange : 0 ≤ minutes ∧ minutes ≤ 10080
  · have hGuard :
        (minutes < 0 || minutes > 10080) = false := by
      simp only [Bool.or_eq_false_iff, decide_eq_false_iff_not]
      omega
    simp only [hGuard, hRange, and_self, true_and]
    cases hHunt : huntIn t domain id with
    | none => simp [contained_error_iff, huntNotFound]
    | some h => simp [not_contained_ok]
  · have hGuard :
        (minutes < 0 || minutes > 10080) = true := by
      simp only [Bool.or_eq_true, decide_eq_true_eq]
      omega
    simp [hGuard, hRange, contained_error_iff]

/- For every endpoint, caller and tables, and every record of
another workspace: the call is refused as not found, with
the tables as they were, if and only if it names a second
thing that is not there. -/
theorem outside_write_iff
    (env : Services W D E)
    (user : Principal)
    (t : Tables ν W D E)
    (w : Write ν D)
    (hThere : t.Has w.names.1 w.names.2)
    (hOutside : t.org w.names.1 w.names.2 ≠ orgOf user) :
    Contained t (w.run env user t) ↔ w.Misses t := by
  cases w with
  | note id content type now =>
      exact iff_false_intro (note_found hThere)
  | task id taskId body now => exact task_missing_iff hThere
  | evidence id body itemId sha256 now =>
      exact iff_false_intro (evidence_found hThere)
  | exportBundle id =>
      have hRecord : t.cases id ≠ none := hThere
      refine iff_false_intro
        (not_contained_of_found hRecord fun c hRow => ?_)
      simp [Write.run, exportEvidenceBundle, hRow]
  | link id other relation now => exact link_missing_iff hThere
  | merge id source now => exact merge_missing_iff hThere
  | split id body => exact iff_false_intro (split_found hThere)
  | updatePlaybook id body =>
      exact iff_false_intro (updatePlaybook_found hThere)
  | revertPlaybook id version => exact revert_missing_iff hThere
  | runPlaybook id runId alertId dryRun =>
      exact iff_false_intro (runPlaybook_found env hThere)
  | approveRun id =>
      exact iff_false_intro (decideRun_found env hThere true user)
  | rejectRun id =>
      exact iff_false_intro
        (decideRun_found env hThere false user)
  | deleteSuppression id =>
      have hRecord : t.suppressions id ≠ none := hThere
      refine iff_false_intro
        (not_contained_of_found hRecord fun s hRow => ?_)
      simp [Write.run, deleteSuppression, hRow]
  | updateRule id body =>
      exact iff_false_intro (updateRule_found env hThere)
  | deleteRule id =>
      have hRecord : t.rules id ≠ none := hThere
      refine iff_false_intro
        (not_contained_of_found hRecord fun r hRow => ?_)
      simp [Write.run, deleteRule, hRow]
  | runHunt domain id now =>
      rw [Write.Misses, ← huntIn_none_iff]
      simp only [Write.run, runHunt]
      cases hHunt : huntIn t domain id with
      | none => simp [contained_error_iff, huntNotFound]
      | some h => simp [not_contained_ok]
  | scheduleHunt domain id minutes autoAlert =>
      exact schedule_missing_iff t
  | sighting id source context now =>
      have hRecord : t.iocs id ≠ none := hThere
      rcases Option.ne_none_iff_exists'.mp hRecord with ⟨r, hRow⟩
      simp only [Write.run, addSighting, Write.Misses]
      by_cases hEmpty : id = []
      · simp [hEmpty, contained_error_iff, iocNotFound]
      · rw [if_neg hEmpty, hRow]
        simp [hEmpty, not_contained_ok]
  | enrich id refresh =>
      have hRecord : t.iocs id ≠ none := hThere
      refine iff_false_intro
        (not_contained_of_found hRecord fun r hRow => ?_)
      simp [Write.run, enrichIoc, hRow]
  | knownGood id =>
      have hRecord : t.iocs id ≠ none := hThere
      refine iff_false_intro
        (not_contained_of_found hRecord fun r hRow => ?_)
      simp [Write.run, setKnownGood, hRow]
  | notKnownGood id =>
      have hRecord : t.iocs id ≠ none := hThere
      refine iff_false_intro
        (not_contained_of_found hRecord fun r hRow => ?_)
      simp [Write.run, setKnownGood, hRow]

end

---- A Concrete Case

open Auth (Principal)

/- An analyst of the first workspace. -/
def ana : Principal where
  id := lit "u-1"
  email := lit "ana@example.org"
  name := lit "Ana"
  role := lit "analyst"
  status := lit "active"
  orgId := lit "org-a"
  isService := false
  actingOrg := none

/- The two cases, of the second workspace. -/
def theirTables : Tables Str Unit Unit Unit where
  cases := Cases.twoCases.cases
  mark := 3
  soar := ⟨(), fun _ => none, fun _ => none⟩
  playbookColumns _ := ⟨true, [], [], none⟩
  versions := []
  suppressions _ := none
  rules _ := none
  hunts _ := none
  iocs _ := none
  sightings := []
  enrichments := ()
  org _ _ := lit "org-b"

def idleServices : Services Unit Unit Unit where
  playbooks := Playbooks.idlePlatform
  jsonError _ := []
  invalidRule _ := none
  hits _ _ := 0
  enrich e _ _ _ := e

theorem theirTables_case :
    theirTables.cases (lit "CASE-1") ≠ none := by
  decide

def noteOnCase : Write Str Unit :=
  .note (lit "CASE-1") (lit "Seen before") (lit "manual")
    (lit "2026-01-01T00:00:00+00:00")

/- A case that is not there, into the first. -/
def mergeOfNone : Write Str Unit :=
  .merge (lit "CASE-1") (lit "CASE-9")
    (lit "2026-01-01T00:00:00+00:00")

/- A note on a case of another workspace is written. -/
theorem outside_note_written :
    theirTables.Has noteOnCase.names.1 noteOnCase.names.2 ∧
      theirTables.org noteOnCase.names.1 noteOnCase.names.2 ≠
        orgOf ana ∧
      ¬ Contained theirTables
        (noteOnCase.run idleServices ana theirTables) := by
  refine ⟨theirTables_case, by decide, ?_⟩
  unfold noteOnCase Write.run
  exact note_found theirTables_case

/- The merge of a case that is not there into a case of
another workspace is refused. -/
theorem outside_merge_refused :
    Contained theirTables
      (mergeOfNone.run idleServices ana theirTables) := by
  refine (outside_write_iff idleServices ana theirTables
    mergeOfNone theirTables_case (by decide)).mpr ?_
  exact ⟨by decide, by decide⟩

end ThreatOrbit.Tenancy
