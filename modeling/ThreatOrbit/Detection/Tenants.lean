import ThreatOrbit.Lib.Lists
import ThreatOrbit.Detection.Groups

/-
  Workspaces in one detection pass.

  A batch mixes the events of all workspaces, and an alert
  goes to the workspace of the event that represents its
  match. A rule without aggregation keeps the workspaces
  apart; an aggregated one counts a group over all of them.

  Main declarations:
    * `PassResult.viewsOf`
    * `RuleRow.credit`
    * `shown_perm_iff`
    * `tenant_alerts_iff`
-/

---- The Alerts Of A Workspace

namespace ThreatOrbit.Detection

open Lib

section

/- Whether a value of `org_id` names a workspace. -/
def isOrg (org : Str) : PyVal → Bool
| .str s => s == org
| _ => false

variable [Unicode]

/- Whether an event belongs to a workspace. -/
def Event.inOrg (org : Str) (e : Event) : Bool :=
  isOrg org e.org

/- What an alert says, under the rule that raised it. -/
structure AlertView where
  ruleId : Str
  entity : PyVal
  count : Nat
  title : Str
  severity : Str
  eventCount : Nat

/- The view of the alert of a match of a rule. -/
def RuleRow.view (rule : RuleRow) (m : Match) : AlertView :=
  { ruleId := rule.id
    entity := m.entity
    count := m.count
    title := (rule.alert m).title
    severity := (rule.alert m).severity
    eventCount := (rule.alert m).eventCount }

/- The alerts a pass inserts with `org_id` a workspace. -/
def PassResult.viewsOf
    (org : Str)
    (p : PassResult) : List AlertView :=
  (p.raised.filter fun r => isOrg org r.alert.orgId).map
    fun r => r.rule.view r.found

variable [RegexEngine] [IsoDates]

/- The matches of a rule that alert a workspace. -/
def RuleRow.shown
    (rule : RuleRow)
    (org : Str)
    (suppressions : List Suppression)
    (events : List Event)
    (now : Int) : List Match :=
  (rule.raises suppressions events now).filter fun m =>
    m.event.inOrg org

/- The number of events a group reports to a workspace: all
of its events, of every workspace, when they reach the
threshold and the last is an event of the workspace that
no suppression drops. -/
def RuleRow.credit
    (rule : RuleRow)
    (org : Str)
    (suppressions : List Suppression)
    (plan : Plan)
    (now : Int)
    (events : List Event)
    (key : Str) : Nat :=
  let group :=
    plan.group now (events.filter rule.definition.hits) key
  match group.getLast? with
  | some last =>
      if plan.threshold ≤ (group.length : Int) ∧
          last.inOrg org = true ∧
          (rule.droppedBy suppressions last).isNone = true then
        group.length
      else
        0
  | none => 0

/- The alerts of a workspace, rule by rule. -/
theorem viewsOf_runDetection
    (rows : List RuleRow) (table : List Suppression) (started : Int)
    (clock : RuleRow → Int) (org : Str) (events : List Event) :
    (runDetection rows table started clock events).viewsOf
        org =
      (rows.filter fun r =>
        !r.definition.conditions.isEmpty).flatMap fun r =>
        (r.shown org
          (table.filter (suppressionActive · started)) events
          (clock r)).map r.view := by
  unfold PassResult.viewsOf runDetection RuleRow.shown
  simp only [List.filter_flatMap, List.map_flatMap,
    List.filter_map, List.map_map]
  rfl

end

---- One Rule

section

variable [Unicode] [RegexEngine] [IsoDates]

/- Without aggregation the workspaces are apart. -/
theorem shown_of_perEvent
    {rule : RuleRow}
    (hEach : rule.definition.perEvent = true) (org : Str)
    (suppressions : List Suppression) (events : List Event)
    (now : Int) :
    rule.shown org suppressions events now =
      rule.shown org suppressions
        (events.filter (Event.inOrg org)) now := by
  have hApart : ∀ l : List Event,
      rule.shown org suppressions l now =
        (l.filter fun e =>
          rule.definition.hits e && e.inOrg org &&
            (rule.droppedBy suppressions e).isNone).map
          fun e => ⟨eventEntity e, 1, e⟩ := by
    intro l
    unfold RuleRow.shown RuleRow.raises
    rw [RuleRow.matches_eq, Definition.found, if_pos hEach]
    simp only [List.filter_map, List.filter_filter]
    congr 1
    apply List.filter_congr
    intro e _
    simp only [Function.comp]
    cases rule.definition.hits e <;> cases e.inOrg org <;>
      cases (rule.droppedBy suppressions e).isNone <;> rfl
  rw [hApart, hApart, List.filter_filter]
  congr 1
  apply List.filter_congr
  intro e _
  cases rule.definition.hits e <;> cases e.inOrg org <;>
    cases (rule.droppedBy suppressions e).isNone <;> rfl

/- A rule that cannot be evaluated shows nothing. -/
theorem shown_of_no_plan
    {rule : RuleRow}
    (hGroup : rule.definition.perEvent = false)
    (hPlan : rule.definition.plan = none) (org : Str)
    (suppressions : List Suppression) (events : List Event)
    (now : Int) :
    rule.shown org suppressions events now = [] := by
  unfold RuleRow.shown RuleRow.raises
  rw [RuleRow.matches_eq, Definition.found, hGroup, hPlan]
  rfl

/- What an aggregated rule shows a workspace. -/
theorem mem_shown_iff
    {rule : RuleRow} {plan : Plan}
    (hGroup : rule.definition.perEvent = false)
    (hPlan : rule.definition.plan = some plan) (org : Str)
    (suppressions : List Suppression) (events : List Event)
    (now : Int) (m : Match) :
    m ∈ rule.shown org suppressions events now ↔
      ∃ key last,
        (plan.group now (events.filter rule.definition.hits)
            key).getLast? = some last ∧
          rule.credit org suppressions plan now events key =
            (plan.group now
              (events.filter rule.definition.hits)
              key).length ∧
          m = ⟨.str key,
            rule.credit org suppressions plan now events key,
            last⟩ := by
  unfold RuleRow.shown RuleRow.raises
  rw [RuleRow.matches_eq, Definition.found, hGroup, hPlan]
  simp only [Bool.false_eq_true, if_false, List.mem_filter,
    Plan.mem_found_iff]
  constructor
  · rintro ⟨⟨⟨key, last, hLast, hReach, rfl⟩, hKept⟩, hOrg⟩
    have hCredit :
        rule.credit org suppressions plan now events key =
          (plan.group now
            (events.filter rule.definition.hits)
            key).length := by
      simp only [RuleRow.credit, hLast]
      rw [if_pos ⟨hReach, hOrg, hKept⟩]
    exact ⟨key, last, hLast, hCredit, by rw [hCredit]⟩
  · rintro ⟨key, last, hLast, hCredit, rfl⟩
    have hSome : 0 < (plan.group now
        (events.filter rule.definition.hits) key).length := by
      apply List.length_pos_of_mem
      exact List.mem_of_getLast? hLast
    have hAll := hCredit
    simp only [RuleRow.credit, hLast] at hAll
    split at hAll
    next hHolds =>
      rcases hHolds with ⟨hReach, hOrg, hKept⟩
      exact ⟨⟨⟨key, last, hLast, hReach, by rw [hCredit]⟩,
        hKept⟩, hOrg⟩
    next => omega

/- A credit is all of the group or nothing of it. -/
theorem credit_cases
    (rule : RuleRow) (org : Str) (suppressions : List Suppression)
    (plan : Plan) (now : Int) (events : List Event) (key : Str) :
    rule.credit org suppressions plan now events key = 0 ∨
      ∃ last,
        (plan.group now (events.filter rule.definition.hits)
            key).getLast? = some last ∧
          last.inOrg org = true ∧
          rule.credit org suppressions plan now events key =
            (plan.group now
              (events.filter rule.definition.hits)
              key).length := by
  cases hLast : (plan.group now
      (events.filter rule.definition.hits) key).getLast? with
  | none =>
      left
      simp only [RuleRow.credit, hLast]
  | some last =>
      simp only [RuleRow.credit, hLast]
      split
      next hHolds =>
        right
        exact ⟨last, rfl, hHolds.2.1, rfl⟩
      next =>
        left
        rfl

/- The last event of a group is one of the workspace's own
group, if it belongs to the workspace. -/
theorem group_last_inOrg
    {rule : RuleRow} {plan : Plan} {now : Int}
    {events : List Event} {key org : Str} {last : Event}
    (hLast :
      (plan.group now (events.filter rule.definition.hits)
        key).getLast? = some last)
    (hOrg : last.inOrg org = true) :
    (plan.group now
      ((events.filter (Event.inOrg org)).filter
        rule.definition.hits) key).getLast? = some last := by
  have hOwn := getLast?_filter_of_last hLast hOrg
  unfold Plan.group groupOf at hOwn ⊢
  rw [← hOwn]
  congr 1
  simp only [List.filter_filter]
  apply List.filter_congr
  intro e _
  cases e.inOrg org <;> cases rule.definition.hits e <;>
    simp

/- Batches with the same credits show the same matches. -/
theorem mem_shown_of_credit
    {rule : RuleRow} {plan : Plan}
    (hGroup : rule.definition.perEvent = false)
    (hPlan : rule.definition.plan = some plan)
    {org : Str} {suppressions : List Suppression} {now : Int}
    {first second : List Event}
    (hAgree :
      first.filter (Event.inOrg org) =
        second.filter (Event.inOrg org))
    (hCredit :
      ∀ key,
        rule.credit org suppressions plan now first key =
          rule.credit org suppressions plan now second key)
    {m : Match}
    (hMem : m ∈ rule.shown org suppressions first now) :
    m ∈ rule.shown org suppressions second now := by
  rw [mem_shown_iff hGroup hPlan] at hMem ⊢
  rcases hMem with ⟨key, last, hLast, hFull, rfl⟩
  have hSome := List.length_pos_of_mem
    (List.mem_of_getLast? hLast)
  have hFirst := credit_cases rule org suppressions plan now
    first key
  have hSecond := credit_cases rule org suppressions plan now
    second key
  rcases hFirst with hNone | ⟨own, hOwn, hOwnOrg, _⟩
  · omega
  · rcases hSecond with hNone | ⟨own', hOwn', hOwnOrg', hFull'⟩
    · have hSame := hCredit key
      omega
    · have hA := group_last_inOrg hOwn hOwnOrg
      have hB := group_last_inOrg hOwn' hOwnOrg'
      rw [← hAgree, hA] at hB
      rw [hLast] at hOwn
      cases hOwn
      cases hB
      exact ⟨key, last, hOwn', hFull', by rw [hCredit key]⟩

/- Batches that show the same views have the same credits. -/
theorem credit_eq_of_views
    {rule : RuleRow} {plan : Plan}
    (hGroup : rule.definition.perEvent = false)
    (hPlan : rule.definition.plan = some plan)
    {org : Str} {suppressions : List Suppression} {now : Int}
    {first second : List Event}
    (hViews :
      ∀ v,
        v ∈ (rule.shown org suppressions first now).map
          rule.view →
        v ∈ (rule.shown org suppressions second now).map
          rule.view)
    {key : Str}
    (hSome :
      rule.credit org suppressions plan now first key ≠ 0) :
    rule.credit org suppressions plan now second key =
      rule.credit org suppressions plan now first key := by
  rcases credit_cases rule org suppressions plan now first
      key with hNone | ⟨last, hLast, _, hFull⟩
  · exact absurd hNone hSome
  · have hShown := (mem_shown_iff hGroup hPlan org
      suppressions first now _).mpr
      ⟨key, last, hLast, hFull, rfl⟩
    have hView := hViews _ (List.mem_map_of_mem hShown)
    rcases List.mem_map.mp hView with ⟨m, hm, hSame⟩
    rcases (mem_shown_iff hGroup hPlan org suppressions
      second now m).mp hm with ⟨key', last', _, _, rfl⟩
    have hKey : key' = key :=
      PyVal.str.inj (congrArg AlertView.entity hSame)
    have hCount := congrArg AlertView.count hSame
    subst hKey
    exact hCount

/- An aggregated rule raises the same alerts for a workspace
from two batches exactly when every group reports the same
number of events to it. -/
theorem shown_perm_iff
    {rule : RuleRow} {plan : Plan}
    (hGroup : rule.definition.perEvent = false)
    (hPlan : rule.definition.plan = some plan)
    {org : Str} {suppressions : List Suppression} {now : Int}
    {first second : List Event}
    (hAgree :
      first.filter (Event.inOrg org) =
        second.filter (Event.inOrg org)) :
    ((rule.shown org suppressions first now).map
        rule.view).Perm
      ((rule.shown org suppressions second now).map
        rule.view) ↔
      ∀ key,
        rule.credit org suppressions plan now first key =
          rule.credit org suppressions plan now second key := by
  constructor
  · intro hPerm key
    by_cases hNone :
        rule.credit org suppressions plan now first key = 0
    · by_contra hNe
      have hSome :
          rule.credit org suppressions plan now second key ≠
            0 := by omega
      exact hNe
        (credit_eq_of_views hGroup hPlan
          (fun v hv => hPerm.mem_iff.mpr hv) hSome)
    · exact
        (credit_eq_of_views hGroup hPlan
          (fun v hv => hPerm.mem_iff.mp hv) hNone).symm
  · intro hCredit
    apply List.Perm.map
    have hNodup : ∀ l,
        (rule.shown org suppressions l now).Nodup := by
      intro l
      have hFound : (plan.found
          (l.filter rule.definition.hits) now).Nodup :=
        (plan.found_nodup now _).imp
          fun hNe hSame => hNe (congrArg Match.entity hSame)
      unfold RuleRow.shown RuleRow.raises
      rw [RuleRow.matches_eq, Definition.found, hGroup, hPlan]
      exact (hFound.filter _).filter _
    rw [List.perm_ext_iff_of_nodup (hNodup _) (hNodup _)]
    intro m
    constructor
    · exact mem_shown_of_credit hGroup hPlan hAgree hCredit
    · exact mem_shown_of_credit hGroup hPlan hAgree.symm
        fun key => (hCredit key).symm

end

---- Isolation Of A Pass

section

variable [Unicode] [RegexEngine] [IsoDates]

/- A rule without conditions credits nothing. -/
theorem credit_of_no_conditions
    {rule : RuleRow}
    (hEmpty : rule.definition.conditions.isEmpty = true) (org : Str)
    (suppressions : List Suppression) (plan : Plan) (now : Int)
    (events : List Event) (key : Str) :
    rule.credit org suppressions plan now events key = 0 := by
  have hNone : events.filter rule.definition.hits = [] := by
    rw [List.filter_eq_nil_iff]
    intro e _
    simp [Definition.hits, matchesEvent, hEmpty]
  unfold RuleRow.credit
  rw [hNone]
  rfl

/- Isolation of the workspaces in a detection pass. Two
batches with the same events of a workspace raise the same
alerts for it exactly when, for every aggregated rule,
every group reports the same number of events to it. -/
theorem tenant_alerts_iff
    (table : RuleTable)
    (suppressions : List Suppression)
    (started : Int)
    (clock : RuleRow → Int)
    (org : Str)
    (first second : List Event)
    (hAgree :
      first.filter (Event.inOrg org) =
        second.filter (Event.inOrg org)) :
    ((runDetection table.rows suppressions started clock
        first).viewsOf org).Perm
      ((runDetection table.rows suppressions started clock
        second).viewsOf org) ↔
      ∀ rule ∈ table.rows, ∀ plan,
        rule.definition.perEvent = false →
        rule.definition.plan = some plan →
        ∀ key,
          rule.credit org
              (suppressions.filter (suppressionActive · started))
              plan (clock rule) first key =
            rule.credit org
              (suppressions.filter (suppressionActive · started))
              plan (clock rule) second key := by
  have hNodup :
      ((table.rows.filter fun r =>
        !r.definition.conditions.isEmpty).map
          RuleRow.id).Nodup :=
    table.nodup.sublist (List.filter_sublist.map _)
  have hTag :
      ∀ events, ∀ r ∈ table.rows.filter fun r =>
          !r.definition.conditions.isEmpty,
        ∀ v ∈ (r.shown org
            (suppressions.filter (suppressionActive · started))
            events (clock r)).map r.view,
          v.ruleId = r.id := by
    intro events r _ v hv
    rcases List.mem_map.mp hv with ⟨m, _, rfl⟩
    rfl
  rw [viewsOf_runDetection, viewsOf_runDetection,
    flatMap_perm_iff RuleRow.id AlertView.ruleId hNodup
      (hTag first)
      (hTag second)]
  constructor
  · intro hPerm rule hRule plan hGroup hPlan key
    cases hEmpty : rule.definition.conditions.isEmpty with
    | true =>
        rw [credit_of_no_conditions hEmpty,
          credit_of_no_conditions hEmpty]
    | false =>
        have hEnabled : rule ∈ table.rows.filter fun r =>
            !r.definition.conditions.isEmpty :=
          List.mem_filter.mpr ⟨hRule, by simp [hEmpty]⟩
        exact (shown_perm_iff hGroup hPlan hAgree).mp
          (hPerm rule hEnabled) key
  · intro hCredit rule hEnabled
    have hRule := (List.mem_filter.mp hEnabled).1
    cases hGroup : rule.definition.perEvent with
    | true =>
        rw [shown_of_perEvent hGroup, hAgree,
          ← shown_of_perEvent hGroup]
    | false =>
        cases hPlan : rule.definition.plan with
        | none =>
            rw [shown_of_no_plan hGroup hPlan,
              shown_of_no_plan hGroup hPlan]
        | some plan =>
            exact (shown_perm_iff hGroup hPlan hAgree).mpr
              (hCredit rule hRule plan hGroup hPlan)

end

def eventOf (eventType org : String) : Event where
  ts := newYear
  columns :=
    [(lit "event_type", .text (lit eventType)),
      (lit "src_ip", .text (lit "10.0.0.9")),
      (lit "org_id", .text (lit org))]

def failedLogin (org : String) : Event :=
  eventOf "failed_login" org

section

local instance tenantsUnicode : Unicode := asciiTables
local instance tenantsRegexEngine :
    RegexEngine := noPatterns
local instance tenantsIsoDates : IsoDates := newYearDates

/- A pass over a batch a minute later. -/
def minuteLater (events : List Event) : PassResult :=
  runDetection oneRule.rows [] newYearInstant
    (fun _ => newYearInstant + 60000000) events

/- One failed login of a workspace raises nothing, and with
the login of another workspace before it, an alert. -/
theorem mixed_group_alerts :
    [failedLogin "org-a"].filter (Event.inOrg (lit "org-a")) =
        [failedLogin "org-b", failedLogin "org-a"].filter
          (Event.inOrg (lit "org-a")) ∧
      ¬ ((minuteLater [failedLogin "org-a"]).viewsOf
          (lit "org-a")).Perm
        ((minuteLater [failedLogin "org-b",
          failedLogin "org-a"]).viewsOf (lit "org-a")) := by
  constructor
  · decide
  · intro hPerm
    have hLength := hPerm.length_eq
    revert hLength
    decide +kernel

/- An event of another workspace that no rule hits leaves
the alerts as they are. -/
theorem tenant_alerts_iff_unmatched :
    ((minuteLater [failedLogin "org-a"]).viewsOf
        (lit "org-a")).Perm
      ((minuteLater [failedLogin "org-a",
        eventOf "web" "org-b"]).viewsOf (lit "org-a")) := by
  refine (tenant_alerts_iff oneRule [] newYearInstant
    (fun _ => newYearInstant + 60000000) (lit "org-a")
    [failedLogin "org-a"]
    [failedLogin "org-a", eventOf "web" "org-b"]
    (by decide)).mpr ?_
  intro rule hRule plan _ _ key
  rw [List.mem_singleton.mp hRule]
  have hHits :
      [failedLogin "org-a"].filter twoLogins.definition.hits =
        [failedLogin "org-a", eventOf "web" "org-b"].filter
          twoLogins.definition.hits := by
    decide
  unfold RuleRow.credit
  rw [hHits]

end

end ThreatOrbit.Detection
