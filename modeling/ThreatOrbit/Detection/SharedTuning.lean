import ThreatOrbit.Detection.Suppressing

/-
  Tuning by one workspace, seen from another.

  Suppressions and rules are stamped with a workspace that a
  pass does not read, a suppression closes by value, and the
  feedback on a rule goes by its name. Two histories that
  differ in the tuning of one workspace look the same to the
  others when that tuning reaches nothing outside it.
-/

---- Tables With Workspaces

namespace ThreatOrbit.Detection

open Lib

open Auth (HttpError)

section

variable [Unicode] [RegexEngine] [IsoDates]

/- An enabled rule, its workspace and its false-positive
rate. -/
structure TunedRule where
  row : RuleRow
  org : Str
  fpRate : Int

structure TunedSuppression where
  row : Suppression
  org : Str

/- An alert by its id, its origin left out. -/
structure SharedAlert where
  id : Str
  stored : StoredAlert

/- The workspace column of an alert. -/
def SharedAlert.inOrg (org : Str) (a : SharedAlert) : Bool :=
  isOrg org a.stored.row.orgId

/- The tables every workspace shares. -/
structure Shared where
  suppressions : List TunedSuppression
  ids : ∀ s ∈ suppressions, s.row.id ≠ []
  rules : List TunedRule
  alerts : List SharedAlert

def Shared.start : Shared where
  suppressions := []
  ids := by simp
  rules := []
  alerts := []

/- What happens, and for which workspace. -/
inductive SharedStep where
/- A request to suppress. -/
| suppress
    (org : Str)
    (body : SuppressionCreate)
    (sid : FreshId)
    (now : Int)
/- A rule created. -/
| addRule (org : Str) (row : RuleRow)
/- An alert triaged. -/
| triage
    (org alertId : Str)
    (status disposition : Option Str)
/- A pass over a batch, with the ids its alerts get. -/
| detect
    (started : Int)
    (clock : RuleRow → Int)
    (events : List Event)
    (ids : Raised → Str)

def falsePositive : Str :=
  lit "false-positive"

/- The tuning of a workspace: its suppressions, its rules and
its false-positive dispositions. -/
def SharedStep.tunes (org : Str) : SharedStep → Bool
| .suppress o _ _ _ => o == org
| .addRule o _ => o == org
| .triage o _ _ disposition =>
    o == org && disposition == some falsePositive
| .detect _ _ _ _ => false

/- The `UPDATE` of an alert of a workspace. -/
def SharedAlert.triaged
    (org alertId : Str)
    (status disposition : Option Str)
    (a : SharedAlert) : SharedAlert :=
  if a.id = alertId ∧ a.inOrg org = true then
    { a with
      stored :=
        { a.stored with
          status := status.getD a.stored.status
          disposition :=
            disposition.getD a.stored.disposition } }
  else a

/- `MIN(100, fp_rate+2)`, for the rules an alert names by its
rule id or its rule name. -/
def TunedRule.bumped
    (ruleId ruleName : Str)
    (r : TunedRule) : TunedRule :=
  if r.row.id = ruleId ∨ r.row.name = ruleName then
    { r with fpRate := min 100 (r.fpRate + 2) }
  else r

/- The feedback loop of `update_alert`, on the alert that was
updated. -/
def feedback
    (disposition : Option Str)
    (found : Option SharedAlert)
    (rules : List TunedRule) : List TunedRule :=
  match found with
  | none => rules
  | some a =>
      if disposition = some falsePositive ∧
          a.stored.ruleId ≠ [] then
        rules.map
          (TunedRule.bumped a.stored.ruleId a.stored.row.ruleName)
      else rules

/- The alert a triage updates. -/
def Shared.found
    (t : Shared)
    (org alertId : Str) : Option SharedAlert :=
  t.alerts.find? fun a => a.id == alertId && a.inOrg org

/- What retro-closing makes of an alert. -/
def SharedAlert.close
    (body : SuppressionCreate)
    (a : SharedAlert) : SharedAlert :=
  { a with stored := body.close a.stored }

/- The pass over the shared tables. -/
def Shared.pass
    (t : Shared)
    (started : Int)
    (clock : RuleRow → Int)
    (events : List Event) : Pass where
  rows := t.rules.map TunedRule.row
  table := t.suppressions.map TunedSuppression.row
  started := started
  clock := clock
  events := events

/- One step. A refused request changes nothing, and neither
does an update with no fields, or of an alert that is not
of the workspace. -/
def Shared.step (t : Shared) : SharedStep → Shared
| .suppress org body sid now =>
    match body.check with
    | .error _ => t
    | .ok _ =>
        { t with
          suppressions :=
            t.suppressions ++ [⟨body.row sid now, org⟩]
          ids := by
            intro s hs
            rcases List.mem_append.mp hs with hOld | hNew
            · exact t.ids s hOld
            · rw [List.mem_singleton.mp hNew]
              exact sid.2
          alerts :=
            if suppressionActive (body.row sid now) now then
              t.alerts.map (SharedAlert.close body)
            else t.alerts }
| .addRule org row =>
    { t with rules := t.rules ++ [⟨row, org, 0⟩] }
| .triage org alertId status disposition =>
    { t with
      rules :=
        feedback disposition (t.found org alertId) t.rules
      alerts :=
        t.alerts.map
          (SharedAlert.triaged org alertId status disposition) }
| .detect started clock events ids =>
    let p := t.pass started clock events
    { t with
      alerts :=
        t.alerts ++
          p.result.raised.map fun r =>
            ⟨ids r, { insertAlert p r with origin := none }⟩ }

/- The tables after a history. -/
def Shared.run (t : Shared) (history : List SharedStep) :
    Shared :=
  history.foldl Shared.step t

end

---- Staying Inside

section

variable [Unicode] [RegexEngine] [IsoDates]

/- The alerts of a workspace, in order, with their status and
disposition. -/
def Shared.alertsOf (t : Shared) (org : Str) :
    List SharedAlert :=
  t.alerts.filter (SharedAlert.inOrg org)

/- The rules of a workspace with their false-positive
rates. -/
def Shared.ratesOf (t : Shared) (org : Str) : List (Str × Int) :=
  (t.rules.filter (·.org == org)).map fun r =>
    (r.row.id, r.fpRate)

/- An active suppression of the tables covers a match. -/
def Shared.Covered
    (t : Shared)
    (which : TunedSuppression → Prop)
    (started : Int)
    (rule : RuleRow)
    (e : Event) : Prop :=
  ∃ s ∈ t.suppressions, which s ∧
    suppressionActive s.row started = true ∧
    s.row.covers rule.id e = true

/- A step does not reach outside a workspace. A suppression it
creates covers no open alert of another; an alert it marks
false-positive names no rule of another whose rate could
rise. In a pass, its suppressions drop no match of another
workspace's event under another's rule that is not dropped
anyway, and its rules raise alerts for its own events only. -/
def StaysInside
    (org : Str)
    (t : Shared) : SharedStep → Prop
| .suppress o body sid now =>
    o = org → body.check = .ok () →
      suppressionActive (body.row sid now) now = true →
        ∀ a ∈ t.alerts, a.inOrg org = false →
          body.covers a.stored = false
| .addRule _ _ => True
| .triage o alertId _ disposition =>
    o = org → disposition = some falsePositive →
      ∀ a, t.found o alertId = some a → a.stored.ruleId ≠ [] →
        ∀ r ∈ t.rules, r.org ≠ org →
          (r.row.id = a.stored.ruleId ∨
            r.row.name = a.stored.row.ruleName) →
              min 100 (r.fpRate + 2) = r.fpRate
| .detect started clock events _ =>
    ∀ r ∈ t.rules,
      r.row.definition.conditions.isEmpty = false →
        ∀ m ∈ r.row.matches events (clock r.row),
          m.event.inOrg org = false →
            if r.org = org then
              t.Covered (fun _ => True) started r.row m.event
            else
              t.Covered (·.org = org) started r.row m.event →
                t.Covered (·.org ≠ org) started r.row m.event

/- Every step of a history stays inside a workspace, from the
tables it is taken at. -/
def AllInside (org : Str) : Shared → List SharedStep → Prop
| _, [] => True
| t, step :: rest =>
    StaysInside org t step ∧ AllInside org (t.step step) rest

end

---- One Step

section

variable [Unicode] [RegexEngine] [IsoDates]

/- The alerts that are not of a workspace. -/
def outside
    (org : Str)
    (alerts : List SharedAlert) : List SharedAlert :=
  alerts.filter fun a => !a.inOrg org

/- Two tables that differ in the tuning of a workspace: the
first has more suppressions and rules of it, and outside it
the rules and the alerts are the same. -/
structure SameOutside (org : Str) (t u : Shared) : Prop where
  more : ∀ s ∈ u.suppressions, s ∈ t.suppressions
  extra :
    ∀ s ∈ t.suppressions, s ∈ u.suppressions ∨ s.org = org
  rules : t.rules.filter (·.org != org) = u.rules
  alerts : outside org t.alerts = outside org u.alerts

/- A match is kept when no active suppression covers it. -/
omit [RegexEngine] in
theorem kept_iff
    (t : Shared) (started : Int) (rule : RuleRow) (e : Event) :
    rule.droppedBy
        ((t.suppressions.map TunedSuppression.row).filter
          (suppressionActive · started)) e = none ↔
      ¬ t.Covered (fun _ => True) started rule e := by
  have hIds : ∀ s ∈
      (t.suppressions.map TunedSuppression.row).filter
        (suppressionActive · started), s.id ≠ [] := by
    intro s hs
    rcases List.mem_map.mp (List.mem_of_mem_filter hs) with
      ⟨x, hx, rfl⟩
    exact t.ids x hx
  rw [droppedBy_eq_none_iff hIds]
  constructor
  · rintro hAll ⟨s, hs, _, hActive, hCovers⟩
    have hMem : s.row ∈
        (t.suppressions.map TunedSuppression.row).filter
          (suppressionActive · started) :=
      List.mem_filter.mpr
        ⟨List.mem_map_of_mem hs, hActive⟩
    rw [hAll s.row hMem] at hCovers
    cases hCovers
  · intro hNone s hs
    rcases List.mem_filter.mp hs with ⟨hMem, hActive⟩
    rcases List.mem_map.mp hMem with ⟨x, hx, rfl⟩
    by_contra hCovers
    exact hNone ⟨x, hx, trivial, hActive, by simpa using hCovers⟩

/- What a rule raises outside a workspace. -/
def raisedOutside
    (org : Str)
    (t : Shared)
    (started : Int)
    (clock : RuleRow → Int)
    (events : List Event)
    (r : TunedRule) : List Raised :=
  ((r.row.raises
      ((t.suppressions.map TunedSuppression.row).filter
        (suppressionActive · started))
      events (clock r.row)).map (⟨r.row, ·⟩)).filter
    fun x => !x.found.event.inOrg org

/- The alerts of a pass outside a workspace come from its
rules one after another. -/
theorem raised_outside
    (org : Str) (t : Shared) (started : Int) (clock : RuleRow → Int)
    (events : List Event) :
    (t.pass started clock events).result.raised.filter
        (fun x => !x.found.event.inOrg org) =
      (t.rules.filter fun r =>
        !r.row.definition.conditions.isEmpty).flatMap
          (raisedOutside org t started clock events) := by
  unfold Pass.result runDetection Shared.pass raisedOutside
  simp only [List.filter_flatMap, List.filter_map,
    List.flatMap_map]
  rfl

omit [Unicode] [RegexEngine] [IsoDates] in
theorem flatMap_filter_of_nil
    {α β : Type} {p : α → Bool} {f : α → List β} {l : List α}
    (hNil : ∀ x ∈ l, p x = false → f x = []) :
    (l.filter p).flatMap f = l.flatMap f := by
  induction l with
  | nil => rfl
  | cons x rest ih =>
      rw [List.forall_mem_cons] at hNil
      rw [List.flatMap_cons, ← ih hNil.2]
      cases hKeep : p x with
      | true => rw [List.filter_cons_of_pos hKeep,
          List.flatMap_cons]
      | false => rw [List.filter_cons_of_neg (by simp [hKeep]),
          hNil.1 hKeep, List.nil_append]

/- A rule raises, outside a workspace, its matches there that
no active suppression covers. -/
theorem raisedOutside_eq
    (org : Str) (t : Shared) (started : Int) (clock : RuleRow → Int)
    (events : List Event) (r : TunedRule) :
    raisedOutside org t started clock events r =
      ((r.row.matches events (clock r.row)).filter fun m =>
        !m.event.inOrg org &&
          (r.row.droppedBy
            ((t.suppressions.map TunedSuppression.row).filter
              (suppressionActive · started))
            m.event).isNone).map (⟨r.row, ·⟩) := by
  unfold raisedOutside RuleRow.raises
  rw [List.filter_map, List.filter_filter]
  rfl

/- Under a rule of another workspace, two tables keep the same
matches outside. -/
theorem raisedOutside_same
    {org : Str} {t u : Shared} {started : Int}
    {clock : RuleRow → Int} {events : List Event} {r : TunedRule}
    (hSame : SameOutside org t u)
    (hCovered :
      ∀ m ∈ r.row.matches events (clock r.row),
        m.event.inOrg org = false →
          t.Covered (·.org = org) started r.row m.event →
            t.Covered (·.org ≠ org) started r.row m.event) :
    raisedOutside org t started clock events r =
      raisedOutside org u started clock events r := by
  rw [raisedOutside_eq, raisedOutside_eq]
  congr 1
  apply List.filter_congr
  intro m hm
  cases hOrg : m.event.inOrg org with
  | true => rfl
  | false =>
      have hKept :
          r.row.droppedBy
              ((t.suppressions.map TunedSuppression.row).filter
                (suppressionActive · started)) m.event = none ↔
            r.row.droppedBy
              ((u.suppressions.map TunedSuppression.row).filter
                (suppressionActive · started))
              m.event = none := by
        rw [kept_iff, kept_iff, not_iff_not]
        constructor
        · rintro ⟨s, hs, _, hActive, hCovers⟩
          have hOther : t.Covered (·.org ≠ org) started r.row
              m.event := by
            by_cases hOwn : s.org = org
            · exact hCovered m hm hOrg
                ⟨s, hs, hOwn, hActive, hCovers⟩
            · exact ⟨s, hs, hOwn, hActive, hCovers⟩
          rcases hOther with ⟨x, hx, hNot, hActive', hCovers'⟩
          exact ⟨x, (hSame.extra x hx).resolve_right hNot,
            trivial, hActive', hCovers'⟩
        · rintro ⟨s, hs, _, hActive, hCovers⟩
          exact ⟨s, hSame.more s hs, trivial, hActive, hCovers⟩
      simp only [Bool.not_false, Bool.true_and]
      rw [Bool.eq_iff_iff, Option.isNone_iff_eq_none,
        Option.isNone_iff_eq_none]
      exact hKept

/- Two passes raise the same outside a workspace whose tuning
stays inside. -/
theorem raised_outside_same
    {org : Str} {t u : Shared} {started : Int}
    {clock : RuleRow → Int} {events : List Event}
    {ids : Raised → Str}
    (hSame : SameOutside org t u)
    (hInside :
      StaysInside org t (.detect started clock events ids)) :
    (t.pass started clock events).result.raised.filter
        (fun x => !x.found.event.inOrg org) =
      (u.pass started clock events).result.raised.filter
        (fun x => !x.found.event.inOrg org) := by
  rw [raised_outside, raised_outside, ← hSame.rules,
    List.filter_comm]
  have hOwn : ∀ r ∈ t.rules.filter (fun r =>
      !r.row.definition.conditions.isEmpty),
      (r.org != org) = false →
        raisedOutside org t started clock events r = [] := by
    intro r hr hOrg
    rcases List.mem_filter.mp hr with ⟨hRule, hSome⟩
    rw [raisedOutside_eq, List.map_eq_nil_iff,
      List.filter_eq_nil_iff]
    intro m hm hKept
    simp only [Bool.and_eq_true, Bool.not_eq_true',
      Option.isNone_iff_eq_none] at hKept
    have hCovered := hInside r hRule (by simpa using hSome) m hm
      hKept.1
    rw [if_pos (by simpa using hOrg)] at hCovered
    exact (kept_iff t started r.row m.event).mp hKept.2 hCovered
  rw [← flatMap_filter_of_nil hOwn]
  apply List.flatMap_congr
  intro r hr
  rcases List.mem_filter.mp hr with ⟨hMem, hOrg⟩
  rcases List.mem_filter.mp hMem with ⟨hRule, hSome⟩
  apply raisedOutside_same hSame
  intro m hm hOutside
  have hCovered := hInside r hRule (by simpa using hSome) m hm
    hOutside
  rw [if_neg (by simpa using hOrg)] at hCovered
  exact hCovered

/- Closing and triage keep the workspace of an alert. -/
omit [RegexEngine] [IsoDates] in
theorem inOrg_close
    (org : Str) (body : SuppressionCreate) (a : SharedAlert) :
    (a.close body).inOrg org = a.inOrg org := by
  unfold SharedAlert.inOrg SharedAlert.close
  rw [(close_same body a.stored).1]

omit [Unicode] [RegexEngine] [IsoDates] in
theorem inOrg_triaged
    (org o alertId : Str) (status disposition : Option Str)
    (a : SharedAlert) :
    (a.triaged o alertId status disposition).inOrg org =
      a.inOrg org := by
  unfold SharedAlert.triaged
  split <;> rfl

/- A change that keeps the workspace of alerts changes those
outside one by one. -/
omit [Unicode] [RegexEngine] [IsoDates] in
theorem outside_map
    {org : Str} {f : SharedAlert → SharedAlert}
    (hKeep : ∀ a, (f a).inOrg org = a.inOrg org)
    (alerts : List SharedAlert) :
    outside org (alerts.map f) = (outside org alerts).map f := by
  unfold outside
  rw [List.filter_map]
  congr 1
  apply List.filter_congr
  intro a _
  show (!(f a).inOrg org) = !a.inOrg org
  rw [hKeep]

/- A change that leaves the alerts outside as they are. -/
omit [Unicode] [RegexEngine] [IsoDates] in
theorem outside_map_of_same
    {org : Str} {f : SharedAlert → SharedAlert}
    (hKeep : ∀ a, (f a).inOrg org = a.inOrg org)
    {alerts : List SharedAlert}
    (hSame : ∀ a ∈ alerts, a.inOrg org = false → f a = a) :
    outside org (alerts.map f) = outside org alerts := by
  rw [outside_map hKeep]
  have hAll : ∀ a ∈ outside org alerts, f a = id a := by
    intro a ha
    rcases List.mem_filter.mp ha with ⟨hMem, hNot⟩
    exact hSame a hMem (by simpa using hNot)
  rw [List.map_congr_left hAll, List.map_id]

/- The feedback keeps the workspaces of rules. -/
omit [Unicode] [RegexEngine] [IsoDates] in
theorem feedback_filter
    (org : Str) (disposition : Option Str)
    (found : Option SharedAlert) (rules : List TunedRule) :
    (feedback disposition found rules).filter (·.org != org) =
      feedback disposition found
        (rules.filter (·.org != org)) := by
  unfold feedback
  cases found with
  | none => rfl
  | some a =>
      dsimp only
      split
      · rw [List.filter_map]
        congr 1
        apply List.filter_congr
        intro r _
        show (((r.bumped _ _).org != org)) = (r.org != org)
        unfold TunedRule.bumped
        split <;> rfl
      · rfl

/- The tuning of a workspace that stays inside it changes
nothing outside. -/
theorem tuning_step_same
    {org : Str} {t u : Shared} {step : SharedStep}
    (hSame : SameOutside org t u) (hTunes : step.tunes org = true)
    (hInside : StaysInside org t step) :
    SameOutside org (t.step step) u := by
  cases step with
  | suppress o body sid now =>
      have hOrg : o = org := by
        simpa [SharedStep.tunes] using hTunes
      simp only [Shared.step]
      cases hCheck : body.check with
      | error e => exact hSame
      | ok _ =>
          refine ⟨fun s hs => List.mem_append_left _
            (hSame.more s hs), fun s hs => ?_, hSame.rules, ?_⟩
          · rcases List.mem_append.mp hs with hOld | hNew
            · exact hSame.extra s hOld
            · rw [List.mem_singleton.mp hNew]
              exact Or.inr hOrg
          · by_cases hActive :
                suppressionActive (body.row sid now) now = true
            · dsimp only
              rw [if_pos hActive, ← hSame.alerts]
              apply outside_map_of_same (inOrg_close org body)
              intro a ha hNot
              have hFree :=
                hInside hOrg hCheck hActive a ha hNot
              simp [SharedAlert.close, SuppressionCreate.close,
                hFree]
            · dsimp only
              rw [if_neg hActive]
              exact hSame.alerts
  | addRule o row =>
      have hOrg : o = org := by
        simpa [SharedStep.tunes] using hTunes
      refine ⟨hSame.more, hSame.extra, ?_, hSame.alerts⟩
      rw [← hSame.rules]
      simp [Shared.step, List.filter_append, hOrg]
  | triage o alertId status disposition =>
      have hOwn : o = org ∧ disposition = some falsePositive := by
        simpa [SharedStep.tunes] using hTunes
      refine ⟨hSame.more, hSame.extra, ?_, ?_⟩
      · rw [← hSame.rules]
        show (feedback disposition (t.found o alertId)
          t.rules).filter (·.org != org) = _
        rw [feedback_filter]
        unfold feedback
        cases hFound : t.found o alertId with
        | none => rfl
        | some a =>
            dsimp only
            split
            · next hBoth =>
                conv_rhs => rw [← List.map_id
                  (t.rules.filter _)]
                apply List.map_congr_left
                intro r hr
                rcases List.mem_filter.mp hr with ⟨hRule, hNot⟩
                have hFull := hInside hOwn.1 hOwn.2 a hFound
                  hBoth.2 r hRule (by simpa using hNot)
                unfold TunedRule.bumped
                split
                · next hNamed =>
                    rw [hFull hNamed]
                    rfl
                · rfl
            · rfl
      · show outside org (t.alerts.map _) = _
        rw [← hSame.alerts]
        apply outside_map_of_same
          (inOrg_triaged org o alertId status disposition)
        intro a _ hNot
        unfold SharedAlert.triaged
        rw [if_neg]
        rintro ⟨_, hIn⟩
        rw [hOwn.1, hNot] at hIn
        cases hIn
  | detect started clock events ids => cases hTunes

/- An alert is of one workspace. -/
omit [Unicode] [RegexEngine] [IsoDates] in
theorem not_inOrg_of_inOrg
    {org o : Str}
    (hOther : o ≠ org) {a : SharedAlert} (hIn : a.inOrg o = true) :
    a.inOrg org = false := by
  unfold SharedAlert.inOrg at hIn ⊢
  cases hVal : a.stored.row.orgId with
  | str s =>
      rw [hVal] at hIn
      simp only [isOrg, beq_iff_eq] at hIn ⊢
      rw [hIn]
      simpa using hOther
  | none => rfl
  | bool b => rfl
  | int n => rfl
  | float x => rfl
  | list items => rfl
  | dict items => rfl

/- The alert another workspace finds is outside. -/
omit [Unicode] [RegexEngine] [IsoDates] in
theorem found_same
    {org o : Str} {t u : Shared}
    (hSame : outside org t.alerts = outside org u.alerts)
    (hOther : o ≠ org) (alertId : Str) :
    t.found o alertId = u.found o alertId := by
  have hOutside : ∀ alerts : List SharedAlert,
      alerts.find? (fun a => a.id == alertId && a.inOrg o) =
        (outside org alerts).find?
          (fun a => a.id == alertId && a.inOrg o) := by
    intro alerts
    unfold outside
    rw [List.find?_filter]
    congr 1
    funext a
    cases hIn : a.inOrg o with
    | false => simp
    | true => simp [not_inOrg_of_inOrg hOther hIn, beq_eq_decide]
  unfold Shared.found
  rw [hOutside, hOutside u.alerts, hSame]

/- A step both histories take keeps them the same outside. -/
theorem shared_step_same
    {org : Str} {t u : Shared} {step : SharedStep}
    (hSame : SameOutside org t u) (hTunes : step.tunes org = false)
    (hInside : StaysInside org t step) :
    SameOutside org (t.step step) (u.step step) := by
  cases step with
  | suppress o body sid now =>
      simp only [Shared.step]
      cases hCheck : body.check with
      | error e => exact hSame
      | ok _ =>
          refine ⟨fun s hs => ?_, fun s hs => ?_, hSame.rules, ?_⟩
          · rcases List.mem_append.mp hs with hOld | hNew
            · exact List.mem_append_left _ (hSame.more s hOld)
            · exact List.mem_append_right _ hNew
          · rcases List.mem_append.mp hs with hOld | hNew
            · exact (hSame.extra s hOld).imp_left
                (List.mem_append_left _)
            · exact Or.inl (List.mem_append_right _ hNew)
          · dsimp only
            split
            · rw [outside_map (inOrg_close org body),
                outside_map (inOrg_close org body), hSame.alerts]
            · exact hSame.alerts
  | addRule o row =>
      have hOther : (o != org) = true := by
        simpa [SharedStep.tunes] using hTunes
      refine ⟨hSame.more, hSame.extra, ?_, hSame.alerts⟩
      let added : TunedRule := ⟨row, o, 0⟩
      have hAdded : [added].filter (·.org != org) = [added] :=
        List.filter_eq_self.mpr (by simpa [added] using hOther)
      show (t.rules ++ [added]).filter (·.org != org) =
        u.rules ++ [added]
      rw [List.filter_append, hSame.rules, hAdded]
  | triage o alertId status disposition =>
      refine ⟨hSame.more, hSame.extra, ?_, ?_⟩
      · show (feedback disposition (t.found o alertId)
          t.rules).filter (·.org != org) =
            feedback disposition (u.found o alertId) u.rules
        rw [feedback_filter, hSame.rules]
        by_cases hOther : o = org
        · have hNot : disposition ≠ some falsePositive := by
            simpa [SharedStep.tunes, hOther] using hTunes
          have hIdle : ∀ found,
              feedback disposition found u.rules = u.rules := by
            intro found
            cases found with
            | none => rfl
            | some a =>
                unfold feedback
                exact if_neg fun hBoth => hNot hBoth.1
          rw [hIdle, hIdle]
        · rw [found_same hSame.alerts hOther]
      · show outside org (t.alerts.map _) =
          outside org (u.alerts.map _)
        rw [outside_map
            (inOrg_triaged org o alertId status disposition),
          outside_map
            (inOrg_triaged org o alertId status disposition),
          hSame.alerts]
  | detect started clock events ids =>
      refine ⟨hSame.more, hSame.extra, hSame.rules, ?_⟩
      have hRaised := raised_outside_same hSame hInside
      have hNew : ∀ x : Shared,
          outside org
              (x.step (.detect started clock events ids)).alerts =
            outside org x.alerts ++
              ((x.pass started clock events).result.raised.filter
                (fun r => !r.found.event.inOrg org)).map fun r =>
                  (⟨ids r, ⟨r.alert, lit "R-ENGINE", lit "new",
                    lit "undetermined", none⟩⟩ : SharedAlert) := by
        intro x
        show outside org (x.alerts ++ List.map _ _) = _
        unfold outside
        rw [List.filter_append, List.filter_map]
        rfl
      rw [hNew, hNew, hSame.alerts, hRaised]

end

---- Two Histories

section

variable [Unicode] [RegexEngine] [IsoDates]

/- A history whose steps stay inside a workspace, and the same
without its tuning. -/
theorem run_same
    {org : Str} {t u : Shared} {history : List SharedStep}
    (hSame : SameOutside org t u)
    (hInside : AllInside org t history) :
    SameOutside org (t.run history)
      (u.run (history.filter fun step => !step.tunes org)) := by
  induction history generalizing t u with
  | nil => exact hSame
  | cons step rest ih =>
      rcases hInside with ⟨hStep, hRest⟩
      cases hTunes : step.tunes org with
      | true =>
          rw [List.filter_cons_of_neg (by simp [hTunes])]
          exact ih (tuning_step_same hSame hTunes hStep) hRest
      | false =>
          rw [List.filter_cons_of_pos (by simp [hTunes])]
          exact ih (shared_step_same hSame hTunes hStep) hRest

omit [Unicode] [RegexEngine] [IsoDates] in
theorem start_same (org : Str) :
    SameOutside org Shared.start Shared.start :=
  ⟨fun _ h => h, fun _ h => Or.inl h, rfl, rfl⟩

/- What is the same outside a workspace is the same to
another. -/
omit [Unicode] [RegexEngine] [IsoDates] in
theorem seen_same
    {org other : Str} {t u : Shared}
    (hSame : SameOutside org t u) (hOther : other ≠ org) :
    t.alertsOf other = u.alertsOf other ∧
      t.ratesOf other = u.ratesOf other := by
  have hAlerts : ∀ alerts : List SharedAlert,
      alerts.filter (SharedAlert.inOrg other) =
        (outside org alerts).filter
          (SharedAlert.inOrg other) := by
    intro alerts
    unfold outside
    rw [List.filter_filter]
    apply List.filter_congr
    intro a _
    cases hIn : a.inOrg other with
    | false => rfl
    | true => simp [not_inOrg_of_inOrg hOther hIn]
  have hRules : t.rules.filter (·.org == other) =
      u.rules.filter (·.org == other) := by
    rw [← hSame.rules, List.filter_filter]
    apply List.filter_congr
    intro r _
    by_cases hIs : r.org = other
    · simp [hIs, hOther]
    · simp [hIs]
  constructor
  · unfold Shared.alertsOf
    rw [hAlerts, hAlerts u.alerts, hSame.alerts]
  · unfold Shared.ratesOf
    rw [hRules]

/- For every two histories that differ only in the tuning of
one workspace, and in which every step stays inside it,
every other workspace has the same alerts, with the same
status and disposition, and the same false-positive rates. -/
theorem tuning_inside
    (org other : Str)
    (first second : List SharedStep)
    (hOther : other ≠ org)
    (hDiffer :
      first.filter (fun step => !step.tunes org) =
        second.filter (fun step => !step.tunes org))
    (hFirst : AllInside org Shared.start first)
    (hSecond : AllInside org Shared.start second) :
    (Shared.start.run first).alertsOf other =
        (Shared.start.run second).alertsOf other ∧
      (Shared.start.run first).ratesOf other =
        (Shared.start.run second).ratesOf other := by
  have hLeft := seen_same (run_same (start_same org) hFirst)
    hOther
  have hRight := seen_same (run_same (start_same org) hSecond)
    hOther
  rw [hDiffer] at hLeft
  exact ⟨hLeft.1.trans hRight.1.symm,
    hLeft.2.trans hRight.2.symm⟩

end

---- A Concrete Suppression

section

local instance sharedUnicode : Unicode := asciiTables
local instance sharedRegexEngine :
    RegexEngine := noPatterns
local instance sharedIsoDates : IsoDates := newYearDates

/- The rule of the first workspace, and a pass over two of
its failed logins. -/
def ownRule : SharedStep :=
  .addRule (lit "org-a") twoLogins

def ownPass : SharedStep :=
  .detect newYearInstant (fun _ => newYearInstant + 60000000)
    [failedLogin "org-a", failedLogin "org-a"]
    (fun _ => lit "alert-1")

/- The second workspace suppresses an address. -/
def theirSuppression (value : Str) : SharedStep :=
  .suppress (lit "org-b")
    { suppressAddress (lit "*") with value := value }
    aSid newYearInstant

/- Two histories that differ in a suppression of the second
workspace: after it, the alert of the first is closed. -/
theorem tuning_reaches_outside :
    [ownRule, ownPass].filter
          (fun step => !step.tunes (lit "org-b")) =
        [ownRule, ownPass,
          theirSuppression (lit "10.0.0.9")].filter
            (fun step => !step.tunes (lit "org-b")) ∧
      (Shared.start.run [ownRule, ownPass]).alertsOf
          (lit "org-a") ≠
        (Shared.start.run [ownRule, ownPass,
          theirSuppression (lit "10.0.0.9")]).alertsOf
            (lit "org-a") := by
  constructor
  · rfl
  · intro hSame
    have hStatus := congrArg
      (List.map fun a : SharedAlert => a.stored.status) hSame
    revert hStatus
    decide +kernel

/- A suppression of an address that no alert has. -/
theorem tuning_of_other_address :
    (Shared.start.run [ownRule, ownPass]).alertsOf
          (lit "org-a") =
        (Shared.start.run [ownRule, ownPass,
          theirSuppression (lit "10.0.0.1")]).alertsOf
            (lit "org-a") ∧
      (Shared.start.run [ownRule, ownPass]).ratesOf
          (lit "org-a") =
        (Shared.start.run [ownRule, ownPass,
          theirSuppression (lit "10.0.0.1")]).ratesOf
            (lit "org-a") := by
  have hPass : StaysInside (lit "org-b")
      (Shared.start.step ownRule) ownPass := by
    intro r hr _ m _ _
    rw [List.mem_singleton.mp hr, if_neg (by decide)]
    rintro ⟨s, hs, _⟩
    cases hs
  have hLast : StaysInside (lit "org-b")
      (Shared.start.run [ownRule, ownPass])
      (theirSuppression (lit "10.0.0.1")) := by
    intro _ _ _ a ha _
    have hAll : (Shared.start.run [ownRule, ownPass]).alerts.all
        (fun a => !(SuppressionCreate.covers
          { suppressAddress (lit "*") with
            value := lit "10.0.0.1" } a.stored)) = true := by
      decide +kernel
    simpa using List.all_eq_true.mp hAll a ha
  exact tuning_inside (lit "org-b") (lit "org-a")
    [ownRule, ownPass]
    [ownRule, ownPass, theirSuppression (lit "10.0.0.1")]
    (by decide) rfl ⟨trivial, hPass, trivial⟩
    ⟨trivial, hPass, hLast, trivial⟩

end

end ThreatOrbit.Detection
