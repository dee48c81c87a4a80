import ThreatOrbit.Detection.Groups

/-
  Rules that name their fields by ECS aliases.

  A condition resolves the field it names, so an alias there
  changes nothing. The field the groups are formed by is read
  as it stands: no row has a column of an alias's name, and
  every event falls into one group.
-/

---- Other Names

namespace ThreatOrbit.Detection

open Lib

/- The second name is the first, or an alias of it. -/
def Renamed (field other : Str) : Prop :=
  other = field ∨ lookup other ecsAliases = some field

/- The same for a key that may be missing. -/
inductive RenamedKey : Option Str → Option Str → Prop
| missing : RenamedKey none none
| named
    {field other : Str}
    (hNames : Renamed field other) :
    RenamedKey (some field) (some other)

/- The names of two conditions differ by an alias at most. -/
structure Condition.Renamed (c c' : Condition) : Prop where
  field : RenamedKey c.field c'.field
  op : c'.op = c.op
  value : c'.value = c.value

structure Aggregation.Renamed
    (agg agg' : Aggregation) : Prop where
  groupBy : RenamedKey agg.groupBy agg'.groupBy
  threshold : agg'.threshold = agg.threshold
  windowMinutes : agg'.windowMinutes = agg.windowMinutes

/- The aggregations, if there is one. -/
inductive RenamedAggregation :
    Option Aggregation → Option Aggregation → Prop
| missing : RenamedAggregation none none
| grouped
    {agg agg' : Aggregation}
    (hAgg : agg.Renamed agg') :
    RenamedAggregation (some agg) (some agg')

/- Fields of a rule replaced by aliases of theirs. -/
structure Definition.Renamed (d d' : Definition) : Prop where
  conditions :
    List.Forall₂ Condition.Renamed d.conditions d'.conditions
  logic : d'.logic = d.logic
  aggregation : RenamedAggregation d.aggregation d'.aggregation

/- What an alias stands for is no alias. -/
theorem lookup_native
    {field other : Str}
    (hAlias : lookup other ecsAliases = some field) :
    lookup field ecsAliases = none := by
  have hAll :
      ∀ entry ∈ ecsAliases,
        lookup entry.2 ecsAliases = none := by
    decide
  exact hAll _ (mem_of_lookup hAlias)

/- Both names resolve to one field. -/
theorem canonicalField_renamed
    {field other : Str}
    (hNames : Renamed field other) :
    canonicalField other = canonicalField field := by
  rcases hNames with rfl | hAlias
  · rfl
  · unfold canonicalField
    rw [hAlias, lookup_native hAlias]
    rfl

theorem actual_renamed
    {field other : Option Str}
    (hNames : RenamedKey field other) (e : Event) :
    e.actual other = e.actual field := by
  cases hNames with
  | missing => rfl
  | named hNames =>
      simp only [Event.actual, canonicalField_renamed hNames]

---- Conditions By Another Name

section

variable [Unicode] [RegexEngine]

theorem matchCondition_renamed
    {c c' : Condition}
    (hNames : c.Renamed c') (e : Event) :
    matchCondition e c' = matchCondition e c := by
  unfold matchCondition
  rw [actual_renamed hNames.field, hNames.op, hNames.value]

theorem matchConditions_renamed
    {conds conds' : List Condition}
    (hNames : List.Forall₂ Condition.Renamed conds conds')
    (e : Event) :
    matchConditions e conds' = matchConditions e conds := by
  induction hNames with
  | nil => rfl
  | cons hHead _ ih =>
      simp only [matchConditions, matchCondition_renamed hHead,
        ih]

theorem matchesEvent_renamed
    {d d' : Definition}
    (hNames : d.Renamed d') (e : Event) :
    matchesEvent e d' = matchesEvent e d := by
  have hEmpty : d'.conditions.isEmpty = d.conditions.isEmpty := by
    rw [Bool.eq_iff_iff, List.isEmpty_iff_length_eq_zero,
      List.isEmpty_iff_length_eq_zero,
      hNames.conditions.length_eq]
  unfold matchesEvent Definition.logicWord
  rw [hEmpty, matchConditions_renamed hNames.conditions,
    hNames.logic]

/- The same events match. -/
theorem matching_renamed
    {d d' : Definition}
    (hNames : d.Renamed d') (events : List Event) :
    matching d' events = matching d events := by
  induction events with
  | nil => rfl
  | cons e rest ih =>
      simp only [matching, matchesEvent_renamed hNames, ih]

end

---- Groups By Another Name

section

/- The columns of `events`, `ts` aside. -/
def eventColumns : List Str :=
  [lit "id", lit "category", lit "event_type", lit "src_ip",
    lit "dest_ip", lit "dest_port", lit "username",
    lit "hostname", lit "dest_host", lit "url",
    lit "process_name", lit "action", lit "bytes_out",
    lit "country", lit "severity_hint", lit "mitre_tech_id",
    lit "raw", lit "source", lit "processed",
    lit "ti_checked", lit "org_id", lit "claimed_by",
    lit "claimed_at"]

/- A row of the table has its columns and no others. -/
def Event.Stored (e : Event) : Prop :=
  ∀ column ∈ e.columns, column.1 ∈ eventColumns

/- A row has nothing under the name of an alias. -/
theorem get_alias
    {field other : Str}
    (hAlias : lookup other ecsAliases = some field) {e : Event}
    (hStored : e.Stored) :
    e.get other = .none := by
  have hNames :
      ∀ entry ∈ ecsAliases,
        entry.1 ≠ lit "ts" ∧ entry.1 ∉ eventColumns := by
    decide
  rcases hNames _ (mem_of_lookup hAlias) with ⟨hTs, hColumn⟩
  unfold Event.get
  rw [if_neg hTs]
  cases hFound : lookup other e.columns with
  | none => rfl
  | some v =>
      exact absurd (hStored _ (mem_of_lookup hFound)) hColumn

variable [Unicode]

theorem groupKey_alias
    {field other : Str}
    (hAlias : lookup other ecsAliases = some field) {e : Event}
    (hStored : e.Stored) :
    groupKey other e = lit "-" := by
  unfold groupKey
  rw [get_alias hAlias hStored]
  rfl

variable [IsoDates]

/- Groups under two names of one key are the same groups. -/
theorem groupEvents_congr
    {groupBy other : Str} {now window : Int} {found : List Event}
    (hKeys :
      ∀ e ∈ found, inWindow now window e = true →
        groupKey other e = groupKey groupBy e)
    (groups : List (Str × List Event)) :
    groupEvents other now window groups found =
      groupEvents groupBy now window groups found := by
  induction found generalizing groups with
  | nil => rfl
  | cons e rest ih =>
      rw [List.forall_mem_cons] at hKeys
      unfold groupEvents
      cases hTs : IsoDates.fromIso e.ts with
      | none => exact ih hKeys.2 groups
      | some ts =>
          by_cases hLate : window < now - ts
          · simp only [hLate, if_true]
            exact ih hKeys.2 groups
          · have hIn : inWindow now window e = true := by
              simp only [inWindow, hTs, decide_eq_true_eq]
              omega
            simp only [hLate, if_false, hKeys.1 hIn]
            exact ih hKeys.2 _

/- No group is larger than the window. -/
theorem length_group_le
    (plan : Plan) (now : Int) (found : List Event) (key : Str) :
    (plan.group now found key).length ≤
      (found.filter (inWindow now plan.window)).length := by
  have hSub :
      plan.group now found key =
        (found.filter (inWindow now plan.window)).filter
          fun e => groupKey plan.groupBy e == key := by
    simp only [Plan.group, groupOf, List.filter_filter,
      Bool.and_comm]
  rw [hSub]
  exact List.length_filter_le _ _

/- A group as large as the window holds all of it. -/
theorem key_of_whole_group
    {plan : Plan} {now : Int} {found : List Event} {key : Str}
    (hWhole :
      (plan.group now found key).length =
        (found.filter (inWindow now plan.window)).length)
    {e : Event}
    (hE : e ∈ found)
    (hIn : inWindow now plan.window e = true) :
    groupKey plan.groupBy e = key := by
  have hSub :
      plan.group now found key =
        (found.filter (inWindow now plan.window)).filter
          fun e => groupKey plan.groupBy e == key := by
    simp only [Plan.group, groupOf, List.filter_filter,
      Bool.and_comm]
  rw [hSub, List.length_filter_eq_length_iff] at hWhole
  exact beq_iff_eq.mp
    (hWhole e (List.mem_filter.mpr ⟨hE, hIn⟩))

/- Too few events for the threshold make no match. -/
theorem found_of_few
    {plan : Plan} {now : Int} {found : List Event}
    (hFew :
      ((found.filter (inWindow now plan.window)).length : Int) <
        plan.threshold) :
    plan.found found now = [] := by
  rw [List.eq_nil_iff_forall_not_mem]
  intro m hm
  rcases (plan.mem_found_iff now found m).mp hm with
    ⟨key, _, _, hReach, _⟩
  have hLe := length_group_le plan now found key
  omega

end

---- Evaluation By Another Name

section

variable [Unicode] [IsoDates]

/- Grouped by an alias, the events of the window are one group
under `-`. The matches are those of the field itself only
if there are too few events in all, or each of them has
that key already. -/
theorem reached_alias_iff
    {plan : Plan} {other : Str} {now : Int} {found : List Event}
    (hAlias : lookup other ecsAliases = some plan.groupBy)
    (hStored : ∀ e ∈ found, e.Stored) :
    ({ plan with groupBy := other } : Plan).found found now =
        plan.found found now ↔
      ((found.filter (inWindow now plan.window)).length : Int) <
          plan.threshold ∨
        ∀ e ∈ found, inWindow now plan.window e = true →
          groupKey plan.groupBy e = lit "-" := by
  have hOne (e : Event) (he : e ∈ found) :
      groupKey other e = lit "-" :=
    groupKey_alias hAlias (hStored e he)
  constructor
  · intro hSame
    by_contra hNot
    rw [not_or, not_lt] at hNot
    rcases hNot with ⟨hReach, hKeys⟩
    -- the group of the alias is the whole window
    have hWhole :
        ({ plan with groupBy := other } : Plan).group now found
            (lit "-") =
          found.filter (inWindow now plan.window) := by
      unfold Plan.group groupOf
      refine List.filter_congr fun e he => ?_
      simp [hOne e he]
    cases hLast :
        (found.filter (inWindow now plan.window)).getLast? with
    | none =>
        rw [List.getLast?_eq_none_iff] at hLast
        refine hKeys fun e he hIn => ?_
        have hMem := List.mem_filter.mpr ⟨he, hIn⟩
        rw [hLast] at hMem
        cases hMem
    | some last =>
        have hMatch :
            (⟨.str (lit "-"),
                (found.filter
                  (inWindow now plan.window)).length,
                last⟩ : Match) ∈
              ({ plan with groupBy := other } : Plan).found
                found now := by
          rw [Plan.mem_found_iff]
          refine ⟨lit "-", last, ?_, ?_, ?_⟩
          · rw [hWhole]
            exact hLast
          · rw [hWhole]
            exact hReach
          · rw [hWhole]
        rw [hSame, Plan.mem_found_iff] at hMatch
        rcases hMatch with ⟨key, _, _, _, hIs⟩
        simp only [Match.mk.injEq, PyVal.str.injEq] at hIs
        rcases hIs with ⟨rfl, hLength, _⟩
        exact hKeys fun e he hIn =>
          key_of_whole_group hLength.symm he hIn
  · rintro (hFew | hKeys)
    · rw [found_of_few hFew]
      exact found_of_few hFew
    · unfold Plan.found
      rw [groupEvents_congr]
      intro e he hIn
      rw [hOne e he, hKeys e he hIn]

variable [RegexEngine]

/- The rule groups the events of the window by this plan. -/
def Definition.GroupsBy
    (d : Definition)
    (events : List Event)
    (plan : Plan)
    (found : List Event) : Prop :=
  matching d events = .ok found ∧
    found ≠ [] ∧
    d.perEvent = false ∧
    d.plan = some plan

/- The two rules group by fields that are told apart in no
batch, or there is nothing to tell apart in this one. -/
def SameGroups
    (d d' : Definition)
    (events : List Event)
    (now : Int) : Prop :=
  ∀ plan found, d.GroupsBy events plan found →
    (d'.aggregation.map Aggregation.groupField =
        some plan.groupBy) ∨
      ((found.filter (inWindow now plan.window)).length : Int) <
          plan.threshold ∨
        ∀ e ∈ found, inWindow now plan.window e = true →
          groupKey plan.groupBy e = lit "-"

/- Without a plan that groups, the names do not matter. -/
theorem sameGroups_of_not
    {d d' : Definition} {events : List Event} {now : Int}
    (hNot : ∀ plan found, ¬ d.GroupsBy events plan found) :
    SameGroups d d' events now :=
  fun plan found hGroups => absurd hGroups (hNot plan found)

/- What an aggregated rule makes of the events it hits. -/
theorem evaluate_grouped
    {d : Definition} {agg : Aggregation}
    {events found : List Event} {now : Int}
    (hFound : matching d events = .ok found) (hSome : found ≠ [])
    (hAgg : d.aggregation = some agg)
    (hTruthy : truthy agg.threshold = true) :
    evaluate d events now = evaluateGroups agg now found := by
  simp [evaluate, hFound, hSome, hAgg, hTruthy, bind,
    Except.bind]

/- The limits do not depend on the names. -/
omit [Unicode] [IsoDates] [RegexEngine] in
theorem limits_renamed
    {agg agg' : Aggregation}
    (hNames : agg.Renamed agg') :
    agg'.limits = agg.limits := by
  unfold Aggregation.limits Aggregation.window
  rw [hNames.threshold, hNames.windowMinutes]

/- The group field is the same, or an alias of it. -/
omit [Unicode] [IsoDates] [RegexEngine] in
theorem groupField_renamed
    {agg agg' : Aggregation}
    (hNames : agg.Renamed agg') :
    agg'.groupField = agg.groupField ∨
      lookup agg'.groupField ecsAliases =
        some agg.groupField := by
  have hNonempty :
      ∀ entry ∈ ecsAliases, entry.1 ≠ [] ∧ entry.2 ≠ [] := by
    decide
  have hKey := hNames.groupBy
  unfold Aggregation.groupField
  generalize agg.groupBy = field at hKey
  generalize agg'.groupBy = other at hKey
  cases hKey with
  | missing => exact Or.inl rfl
  | named hField =>
      rcases hField with rfl | hAlias
      · exact Or.inl rfl
      · rcases hNonempty _ (mem_of_lookup hAlias) with
          ⟨hOther, hNative⟩
        rw [orStr_of_ne_nil hOther, orStr_of_ne_nil hNative]
        exact Or.inr hAlias

/- An aggregated rule gives the same matches under the other
names exactly if its groups are the same. -/
omit [RegexEngine] in
theorem evaluateGroups_alias_iff
    {agg agg' : Aggregation} {found : List Event}
    {now threshold window : Int}
    (hNames : agg.Renamed agg') (hStored : ∀ e ∈ found, e.Stored)
    (hLimits : agg.limits = .ok (some (threshold, window))) :
    evaluateGroups agg' now found =
        evaluateGroups agg now found ↔
      agg'.groupField = agg.groupField ∨
        ((found.filter (inWindow now window)).length : Int) <
            threshold ∨
          ∀ e ∈ found, inWindow now window e = true →
            groupKey agg.groupField e = lit "-" := by
  have hOther := limits_renamed hNames
  simp only [evaluateGroups, hOther, hLimits, bind,
    Except.bind, Except.ok.injEq]
  rcases groupField_renamed hNames with hSame | hAlias
  · simp [hSame]
  · have hNe : agg'.groupField ≠ agg.groupField := by
      intro hSame
      have hNative := lookup_native hAlias
      rw [← hSame, hAlias] at hNative
      cases hNative
    simp only [hNe, false_or]
    exact @reached_alias_iff _ _
      ⟨agg.groupField, threshold, window⟩ _ _ _ hAlias hStored

/- What matches is from the batch. -/
omit [IsoDates] in
theorem mem_of_matching
    {d : Definition} {events found : List Event}
    (hFound : matching d events = .ok found) :
    ∀ e ∈ found, e ∈ events := by
  cases hBroken : d.broken with
  | false =>
      rw [matching_of_not_broken hBroken] at hFound
      rw [← Except.ok.inj hFound]
      exact fun e he => List.mem_of_mem_filter he
  | true =>
      cases events with
      | nil =>
          rw [← Except.ok.inj hFound]
          exact fun e he => he
      | cons e rest =>
          rw [matching_of_broken hBroken] at hFound
          cases hFound

/- A rule that makes one match of every event does so under
the other names. -/
theorem evaluate_ungrouped
    {d : Definition} {events found : List Event} {now : Int}
    (hFound : matching d events = .ok found)
    (hPer : d.perEvent = true) :
    evaluate d events now =
      .ok (found.map fun e => ⟨eventEntity e, 1, e⟩) := by
  unfold Definition.perEvent at hPer
  by_cases hSome : found = []
  · simp [evaluate, hFound, hSome, bind, Except.bind]
  · cases hAgg : d.aggregation with
    | none =>
        simp [evaluate, hFound, hSome, hAgg, bind, Except.bind]
    | some agg =>
        simp only [hAgg, Bool.not_eq_true'] at hPer
        simp [evaluate, hFound, hSome, hAgg, hPer, bind,
          Except.bind]

/- The plan of an aggregated definition. -/
omit [Unicode] [IsoDates] [RegexEngine] in
theorem plan_of_limits
    {d : Definition} {agg : Aggregation} {threshold window : Int}
    (hAgg : d.aggregation = some agg)
    (hLimits : agg.limits = .ok (some (threshold, window))) :
    d.plan = some ⟨agg.groupField, threshold, window⟩ := by
  unfold Definition.plan
  rw [hAgg]
  simp only [hLimits]

/- The same, of rules that both have an aggregation. -/
theorem evaluate_alias_aggregated
    {d d' : Definition} {agg agg' : Aggregation}
    {events found : List Event} {now : Int}
    (hFound : matching d events = .ok found)
    (hMatching : matching d' events = .ok found)
    (hSome : found ≠ []) (hAgg : d.aggregation = some agg)
    (hAgg' : d'.aggregation = some agg') (hNames : agg.Renamed agg')
    (hStored : ∀ e ∈ found, e.Stored) :
    evaluate d' events now = evaluate d events now ↔
      SameGroups d d' events now := by
  have hOther := limits_renamed hNames
  cases hTruthy : truthy agg.threshold with
  | false =>
      have hPer : d.perEvent = true := by
        simp [Definition.perEvent, hAgg, hTruthy]
      have hPer' : d'.perEvent = true := by
        simp [Definition.perEvent, hAgg', hNames.threshold,
          hTruthy]
      refine iff_of_true ?_ (sameGroups_of_not ?_)
      · rw [evaluate_ungrouped hFound hPer,
          evaluate_ungrouped hMatching hPer']
      · rintro plan found' ⟨_, _, hNot, _⟩
        rw [hPer] at hNot
        cases hNot
  | true =>
      have hTruthy' : truthy agg'.threshold = true := by
        rw [hNames.threshold]
        exact hTruthy
      rw [evaluate_grouped hFound hSome hAgg hTruthy,
        evaluate_grouped hMatching hSome hAgg' hTruthy']
      have hPer : d.perEvent = false := by
        simp [Definition.perEvent, hAgg, hTruthy]
      have hNoPlan
          (hNone : ∀ pair, agg.limits ≠ .ok (some pair))
          (plan : Plan) :
          d.plan ≠ some plan := by
        intro hPlan
        unfold Definition.plan at hPlan
        rw [hAgg] at hPlan
        split at hPlan
        · cases hPlan
        · rename_i agg₁ hIs
          cases hIs
          split at hPlan
          · rename_i hLimits
            exact hNone _ hLimits
          · cases hPlan
      cases hLimits : agg.limits with
      | error err =>
          refine iff_of_true ?_ (sameGroups_of_not ?_)
          · simp [evaluateGroups, hOther, hLimits, bind,
              Except.bind]
          · rintro plan found' ⟨_, _, _, hPlan⟩
            refine hNoPlan ?_ plan hPlan
            simp [hLimits]
      | ok limits =>
          rcases limits with _ | ⟨threshold, window⟩
          · refine iff_of_true ?_ (sameGroups_of_not ?_)
            · simp [evaluateGroups, hOther, hLimits, bind,
                Except.bind]
            · rintro plan found' ⟨_, _, _, hPlan⟩
              refine hNoPlan ?_ plan hPlan
              simp [hLimits]
          · rw [evaluateGroups_alias_iff hNames hStored hLimits]
            have hPlan := plan_of_limits hAgg hLimits
            constructor
            · rintro hSame plan found' ⟨hOk, _, _, hIs⟩
              rw [hPlan] at hIs
              rw [hFound] at hOk
              cases hIs
              cases hOk
              simpa [hAgg'] using hSame
            · intro hSame
              have hAll :=
                hSame _ _ ⟨hFound, hSome, hPer, hPlan⟩
              simpa [hAgg'] using hAll

/- A rule whose fields are replaced by aliases gives the same
result over rows of the table exactly if the rule does not
group, groups by the same name, has too few events in its
window, or none with a value in the field. -/
theorem evaluate_alias_iff
    {d d' : Definition}
    {events : List Event}
    {now : Int}
    (hNames : d.Renamed d')
    (hStored : ∀ e ∈ events, e.Stored) :
    evaluate d' events now = evaluate d events now ↔
      SameGroups d d' events now := by
  have hMatching := matching_renamed hNames events
  cases hFound : matching d events with
  | error err =>
      rw [hFound] at hMatching
      have hSame : evaluate d' events now =
          evaluate d events now := by
        simp [evaluate, hFound, hMatching, bind, Except.bind]
      refine iff_of_true hSame (sameGroups_of_not ?_)
      rintro plan found ⟨hOk, _⟩
      rw [hFound] at hOk
      cases hOk
  | ok found =>
      rw [hFound] at hMatching
      by_cases hSome : found = []
      · have hSame : evaluate d' events now =
            evaluate d events now := by
          simp [evaluate, hFound, hMatching, hSome, bind,
            Except.bind]
        refine iff_of_true hSame (sameGroups_of_not ?_)
        rintro plan found' ⟨hOk, hNe, _⟩
        rw [hFound] at hOk
        exact hNe ((Except.ok.inj hOk).symm.trans hSome)
      · have hRows : ∀ e ∈ found, e.Stored :=
          fun e he => hStored e (mem_of_matching hFound e he)
        have hAggs := hNames.aggregation
        cases hAgg : d.aggregation with
        | none =>
            cases hAgg' : d'.aggregation with
            | some agg' =>
                rw [hAgg, hAgg'] at hAggs
                cases hAggs
            | none =>
                have hPer : d.perEvent = true := by
                  rw [Definition.perEvent, hAgg]
                have hPer' : d'.perEvent = true := by
                  rw [Definition.perEvent, hAgg']
                refine iff_of_true ?_ (sameGroups_of_not ?_)
                · rw [evaluate_ungrouped hFound hPer,
                    evaluate_ungrouped hMatching hPer']
                · rintro plan found' ⟨_, _, hNot, _⟩
                  rw [hPer] at hNot
                  cases hNot
        | some agg =>
            cases hAgg' : d'.aggregation with
            | none =>
                rw [hAgg, hAgg'] at hAggs
                cases hAggs
            | some agg' =>
                rw [hAgg, hAgg'] at hAggs
                cases hAggs with
                | grouped hAggs =>
                    exact evaluate_alias_aggregated hFound
                      hMatching hSome hAgg hAgg' hAggs hRows

end

---- Failed Logins By Source Address

local instance aliasesUnicode : Unicode := asciiTables
local instance aliasesRegexEngine :
    RegexEngine := noPatterns
local instance aliasesIsoDates : IsoDates := newYearDates

/- Failed logins from an address, grouped by this field. -/
def loginsBy
    (field groupBy : String)
    (threshold : Int) : Definition where
  conditions :=
    [⟨some (lit field), some .equals, .str (lit "failed")⟩]
  logic := none
  aggregation := some ⟨some (lit groupBy), .int threshold, .none⟩

/- A failed login from an address. -/
def failedFrom (srcIp : String) : Event where
  ts := newYear
  columns :=
    [(lit "event_type", .text (lit "failed")),
      (lit "src_ip", .text (lit srcIp))]

theorem failedFrom_stored
    (srcIp : String) :
    (failedFrom srcIp).Stored := by
  unfold Event.Stored failedFrom
  simp only [List.forall_mem_cons, List.not_mem_nil,
    IsEmpty.forall_iff, implies_true, and_true]
  decide

/- Both fields of the rule under an alias. -/
theorem loginsBy_renamed
    (threshold : Int) :
    (loginsBy "event_type" "src_ip" threshold).Renamed
      (loginsBy "event.type" "source.ip" threshold) where
  conditions :=
    .cons ⟨.named (Or.inr (by decide)), rfl, rfl⟩ .nil
  logic := rfl
  aggregation :=
    .grouped ⟨.named (Or.inr (by decide +kernel)), rfl, rfl⟩

/- Two addresses with one failed login each reach a threshold
of two together, once the address goes by its alias. -/
theorem alias_merges_groups :
    ¬ evaluate (loginsBy "event_type" "source.ip" 2)
          [failedFrom "10.0.0.1", failedFrom "10.0.0.2"]
          newYearInstant =
        evaluate (loginsBy "event_type" "src_ip" 2)
          [failedFrom "10.0.0.1", failedFrom "10.0.0.2"]
          newYearInstant := by
  intro hSame
  have hCount :
      (evaluate (loginsBy "event_type" "source.ip" 2)
          [failedFrom "10.0.0.1", failedFrom "10.0.0.2"]
          newYearInstant).toOption.map List.length =
        (evaluate (loginsBy "event_type" "src_ip" 2)
          [failedFrom "10.0.0.1", failedFrom "10.0.0.2"]
          newYearInstant).toOption.map List.length := by
    rw [hSame]
  revert hCount
  decide +kernel

/- One failed login is too few for either name. -/
theorem alias_keeps_few :
    evaluate (loginsBy "event.type" "source.ip" 2)
        [failedFrom "10.0.0.1"] newYearInstant =
      evaluate (loginsBy "event_type" "src_ip" 2)
        [failedFrom "10.0.0.1"] newYearInstant := by
  refine (evaluate_alias_iff (loginsBy_renamed 2) ?_).mpr ?_
  · intro e he
    rw [List.mem_singleton.mp he]
    exact failedFrom_stored _
  · rintro plan found ⟨hFound, _, _, hPlan⟩
    have hOne :
        matching (loginsBy "event_type" "src_ip" 2)
            [failedFrom "10.0.0.1"] =
          .ok [failedFrom "10.0.0.1"] := by
      rfl
    have hTwo :
        (loginsBy "event_type" "src_ip" 2).plan.map
            Plan.threshold = some 2 := by
      decide +kernel
    rw [hOne] at hFound
    rw [hPlan, Option.map_some, Option.some.injEq] at hTwo
    refine Or.inr (Or.inl ?_)
    rw [← Except.ok.inj hFound, hTwo]
    have hLe := List.length_filter_le
      (inWindow newYearInstant plan.window)
      [failedFrom "10.0.0.1"]
    rw [List.length_singleton] at hLe
    omega

end ThreatOrbit.Detection
