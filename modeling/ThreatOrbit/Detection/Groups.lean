import ThreatOrbit.Detection.Engine

/-
  What a rule finds in a batch.

  A rule that fails to evaluate fails on every batch that is
  not empty, so its matches are a function of the events its
  conditions hit. With an aggregation they are the groups of
  those events, inside the window, that reach the threshold.
-/

---- Failing Conditions

namespace ThreatOrbit.Detection

open Lib

section

variable [Unicode] [RegexEngine]

/- Whether the conditions of a definition hit an event. -/
def Definition.hits (d : Definition) (e : Event) : Bool :=
  match matchesEvent e d with
  | .ok hit => hit
  | .error _ => false

/- A condition that raises on every event. -/
def Condition.broken (c : Condition) : Bool :=
  match c.op with
  | some op =>
      op.numeric &&
        match coerceNum c.value with
        | .ok _ => false
        | .error _ => true
  | none => false

/- A definition that raises on every event. -/
def Definition.broken (d : Definition) : Bool :=
  d.conditions.any Condition.broken

omit [Unicode] [RegexEngine] in
/- A value of a database column is never too large. -/
theorem coerceNum_column (v : SqlVal) :
    ∃ x, coerceNum v.value = .ok x := by
  cases v with
  | null => exact ⟨none, rfl⟩
  | real x => exact ⟨some x, rfl⟩
  | text s => exact ⟨readFloat s, rfl⟩
  | integer n =>
      have hBound : n.toInt.natAbs ≤ 2 ^ 63 := by
        have hLow := n.le_toInt
        have hHigh := n.toInt_lt
        omega
      rcases Option.isSome_iff_exists.mp
          (floatOfInt_of_le hBound) with ⟨x, hX⟩
      refine ⟨some x, ?_⟩
      change coerceNum (.int n.toInt) = _
      rw [coerceNum_int, hX]
      rfl

omit [Unicode] [RegexEngine] in
theorem coerceNum_actual (e : Event) (field : Option Str) :
    ∃ x, coerceNum (e.actual field) = .ok x := by
  cases field with
  | none => exact ⟨none, rfl⟩
  | some field =>
      by_cases hTs : canonicalField field = lit "ts"
      · refine ⟨readFloat e.ts, ?_⟩
        simp [Event.actual, Event.get, hTs, coerceNum]
      · cases hColumn :
            lookup (canonicalField field) e.columns with
        | none =>
            refine ⟨none, ?_⟩
            simp [Event.actual, Event.get, hTs, hColumn,
              coerceNum]
        | some v =>
            rcases coerceNum_column v with ⟨x, hX⟩
            refine ⟨x, ?_⟩
            simpa [Event.actual, Event.get, hTs, hColumn]
              using hX

omit [Unicode] [RegexEngine] in
theorem coerceNum_error
    {v : PyVal} {err : PyError}
    (hErr : coerceNum v = .error err) :
    err = .overflowError := by
  cases v with
  | int n =>
      rw [coerceNum_int] at hErr
      cases hFloat : floatOfInt n with
      | some x =>
          rw [hFloat] at hErr
          cases hErr
      | none =>
          rw [hFloat] at hErr
          exact (Except.error.inj hErr).symm
  | none => cases hErr
  | bool b => cases hErr
  | float x => cases hErr
  | str s => cases hErr
  | list items => cases hErr
  | dict items => cases hErr

/- A condition raises by what it asks for, not by what the
event holds. -/
theorem matchCondition_of_broken
    {c : Condition}
    (hBroken : c.broken = true) (e : Event) :
    matchCondition e c = .error .overflowError := by
  rcases c with ⟨field, op, value⟩
  rcases coerceNum_actual e field with ⟨x, hActual⟩
  cases op with
  | none => simp [Condition.broken] at hBroken
  | some op =>
      cases hValue : coerceNum value with
      | ok y => simp [Condition.broken, hValue] at hBroken
      | error err =>
          have hKind := coerceNum_error hValue
          subst hKind
          cases op <;>
            simp [Condition.broken, Op.numeric] at hBroken <;>
            simp [matchCondition, Op.numeric, hActual,
              hValue, bind, Except.bind]

theorem matchCondition_of_not_broken
    {c : Condition}
    (hBroken : c.broken = false) (e : Event) :
    ∃ hit, matchCondition e c = .ok hit := by
  rcases c with ⟨field, op, value⟩
  rcases coerceNum_actual e field with ⟨x, hActual⟩
  cases op with
  | none => exact ⟨false, rfl⟩
  | some op =>
      cases hValue : coerceNum value with
      | error err =>
          cases op <;>
            simp [Condition.broken, Op.numeric, hValue]
              at hBroken <;>
            exact ⟨_, rfl⟩
      | ok y =>
          cases op <;> first
          | exact ⟨_, rfl⟩
          | (cases x <;> cases y <;>
              simp [matchCondition, Op.numeric, hActual,
                hValue, bind, Except.bind])

theorem matchConditions_of_broken
    {conds : List Condition}
    (hBroken : conds.any Condition.broken = true) (e : Event) :
    matchConditions e conds = .error .overflowError := by
  induction conds with
  | nil => simp at hBroken
  | cons c rest ih =>
      cases hHead : c.broken with
      | true =>
          simp [matchConditions,
            matchCondition_of_broken hHead e, bind,
            Except.bind]
      | false =>
          rcases matchCondition_of_not_broken hHead e with
            ⟨hit, hHit⟩
          have hRest : rest.any Condition.broken = true := by
            simpa [hHead] using hBroken
          simp [matchConditions, hHit, ih hRest, bind,
            Except.bind]

theorem matchConditions_of_not_broken
    {conds : List Condition}
    (hBroken : conds.any Condition.broken = false) (e : Event) :
    ∃ results, matchConditions e conds = .ok results := by
  induction conds with
  | nil => exact ⟨[], rfl⟩
  | cons c rest ih =>
      simp only [List.any_cons, Bool.or_eq_false_iff]
        at hBroken
      rcases matchCondition_of_not_broken hBroken.1 e with
        ⟨hit, hHit⟩
      rcases ih hBroken.2 with ⟨results, hResults⟩
      exact ⟨hit :: results, by
        simp [matchConditions, hHit, hResults, bind,
          Except.bind]⟩

theorem matchesEvent_of_broken
    {d : Definition}
    (hBroken : d.broken = true) (e : Event) :
    matchesEvent e d = .error .overflowError := by
  have hSome : d.conditions.isEmpty = false := by
    cases hConds : d.conditions with
    | nil => simp [Definition.broken, hConds] at hBroken
    | cons c rest => rfl
  simp [matchesEvent, hSome,
    matchConditions_of_broken hBroken e, bind, Except.bind]

theorem matchesEvent_of_not_broken
    {d : Definition}
    (hBroken : d.broken = false) (e : Event) :
    matchesEvent e d = .ok (d.hits e) := by
  rcases matchConditions_of_not_broken hBroken e with
    ⟨results, hResults⟩
  unfold Definition.hits
  cases hEmpty : d.conditions.isEmpty with
  | true => simp [matchesEvent, hEmpty]
  | false =>
      simp [matchesEvent, hEmpty, hResults, bind, Except.bind]

/- A definition that raises hits nothing. -/
theorem hits_of_broken
    {d : Definition}
    (hBroken : d.broken = true) (e : Event) :
    d.hits e = false := by
  simp [Definition.hits, matchesEvent_of_broken hBroken e]

theorem matching_of_not_broken
    {d : Definition}
    (hBroken : d.broken = false) (events : List Event) :
    matching d events = .ok (events.filter d.hits) := by
  induction events with
  | nil => rfl
  | cons e rest ih =>
      simp only [matching, matchesEvent_of_not_broken hBroken,
        ih, bind, Except.bind, List.filter_cons]

theorem matching_of_broken
    {d : Definition}
    (hBroken : d.broken = true) (e : Event) (rest : List Event) :
    matching d (e :: rest) = .error .overflowError := by
  simp [matching, matchesEvent_of_broken hBroken e, bind,
    Except.bind]

end

---- Groups

section

variable [IsoDates]

/- Whether an event lies inside the window. -/
def inWindow (now window : Int) (e : Event) : Bool :=
  match IsoDates.fromIso e.ts with
  | some ts => now - ts ≤ window
  | none => false

variable [Unicode]

/- The events of a group, in the order of the batch. -/
def groupOf
    (groupBy : Str)
    (now window : Int)
    (found : List Event)
    (key : Str) : List Event :=
  found.filter fun e =>
    inWindow now window e && groupKey groupBy e == key

/- The events a list of groups holds for a key. -/
def eventsAt
    (key : Str)
    (groups : List (Str × List Event)) : List Event :=
  (lookup key groups).getD []

omit [IsoDates] [Unicode] in
theorem eventsAt_addToGroup
    (key added : Str) (e : Event)
    (groups : List (Str × List Event)) :
    eventsAt key (addToGroup added e groups) =
      eventsAt key groups ++ if added = key then [e] else [] := by
  induction groups with
  | nil =>
      by_cases hSame : added = key
      · simp [addToGroup, eventsAt, lookup, hSame]
      · simp [addToGroup, eventsAt, lookup, hSame]
  | cons g rest ih =>
      rcases g with ⟨k, evs⟩
      unfold eventsAt at ih ⊢
      by_cases hHere : k = added
      · subst hHere
        by_cases hSame : k = key
        · simp [addToGroup, lookup, hSame]
        · simp [addToGroup, lookup, hSame]
      · by_cases hSame : k = key
        · subst hSame
          simp [addToGroup, lookup, hHere, Ne.symm hHere]
        · simpa [addToGroup, lookup, hHere, hSame] using ih

theorem eventsAt_groupEvents
    (groupBy key : Str) (now window : Int)
    (groups : List (Str × List Event)) (found : List Event) :
    eventsAt key
        (groupEvents groupBy now window groups found) =
      eventsAt key groups ++
        groupOf groupBy now window found key := by
  induction found generalizing groups with
  | nil => simp [groupEvents, groupOf]
  | cons e rest ih =>
      unfold groupOf at ih ⊢
      rw [List.filter_cons]
      cases hTs : IsoDates.fromIso e.ts with
      | none =>
          simp [groupEvents, inWindow, hTs, ih]
      | some ts =>
          by_cases hLate : window < now - ts
          · have hOut : ¬ now - ts ≤ window := by omega
            simp [groupEvents, inWindow, hTs, hLate, hOut, ih]
          · have hIn : now - ts ≤ window := by omega
            simp only [groupEvents, hTs, hLate, if_false, ih,
              eventsAt_addToGroup, inWindow, hIn, decide_true,
              Bool.true_and, beq_iff_eq]
            by_cases hSame : groupKey groupBy e = key
            · simp [hSame]
            · simp [hSame]

/- Groups with distinct keys, none of them empty. -/
structure WellGrouped
    (groups : List (Str × List Event)) : Prop where
  nodup : (groups.map Prod.fst).Nodup
  inhabited : ∀ g ∈ groups, g.2 ≠ []

omit [IsoDates] [Unicode] in
theorem mem_keys_addToGroup
    {key added : Str} {e : Event} {groups : List (Str × List Event)}
    (hKey : key ∈ (addToGroup added e groups).map Prod.fst) :
    key = added ∨ key ∈ groups.map Prod.fst := by
  induction groups with
  | nil =>
      left
      simpa [addToGroup] using hKey
  | cons g rest ih =>
      rcases g with ⟨k, evs⟩
      by_cases hHere : k = added
      · right
        simpa [addToGroup, hHere] using hKey
      · simp only [addToGroup, hHere, if_false, List.map_cons,
          List.mem_cons] at hKey ⊢
        rcases hKey with hHead | hTail
        · exact Or.inr (Or.inl hHead)
        · rcases ih hTail with hNew | hOld
          · exact Or.inl hNew
          · exact Or.inr (Or.inr hOld)

omit [IsoDates] [Unicode] in
theorem WellGrouped.addToGroup
    {groups : List (Str × List Event)}
    (hGroups : WellGrouped groups) (key : Str) (e : Event) :
    WellGrouped (addToGroup key e groups) := by
  induction groups with
  | nil =>
      constructor
      · simp [Detection.addToGroup]
      · simp [Detection.addToGroup]
  | cons g rest ih =>
      rcases g with ⟨k, evs⟩
      rcases hGroups with ⟨hNodup, hInhabited⟩
      simp only [List.map_cons, List.nodup_cons] at hNodup
      have hRest : WellGrouped rest :=
        ⟨hNodup.2, fun g hg =>
          hInhabited g (List.mem_cons_of_mem _ hg)⟩
      by_cases hHere : k = key
      · constructor
        · simp only [Detection.addToGroup, hHere, if_true,
            List.map_cons, List.nodup_cons]
          exact ⟨hHere ▸ hNodup.1, hNodup.2⟩
        · intro g hg
          simp only [Detection.addToGroup, hHere, if_true,
            List.mem_cons] at hg
          rcases hg with rfl | hg
          · simp
          · exact hRest.inhabited g hg
      · have hNext := ih hRest
        constructor
        · simp only [Detection.addToGroup, hHere, if_false,
            List.map_cons, List.nodup_cons]
          refine ⟨?_, hNext.nodup⟩
          intro hMem
          rcases mem_keys_addToGroup hMem with hNew | hOld
          · exact hHere hNew
          · exact hNodup.1 hOld
        · intro g hg
          simp only [Detection.addToGroup, hHere, if_false,
            List.mem_cons] at hg
          rcases hg with rfl | hg
          · exact hInhabited _ List.mem_cons_self
          · exact hNext.inhabited g hg

omit [Unicode] in
theorem WellGrouped.groupEvents
    [Unicode] {groups : List (Str × List Event)}
    (hGroups : WellGrouped groups) (groupBy : Str)
    (now window : Int) (found : List Event) :
    WellGrouped
      (groupEvents groupBy now window groups found) := by
  induction found generalizing groups with
  | nil => exact hGroups
  | cons e rest ih =>
      unfold Detection.groupEvents
      split
      · exact ih hGroups
      · split
        · exact ih hGroups
        · exact ih (hGroups.addToGroup _ e)

omit [IsoDates] [Unicode] in
theorem mem_iff_lookup
    {groups : List (Str × List Event)}
    (hNodup : (groups.map Prod.fst).Nodup) (key : Str)
    (evs : List Event) :
    (key, evs) ∈ groups ↔ lookup key groups = some evs := by
  induction groups with
  | nil => simp [lookup]
  | cons g rest ih =>
      rcases g with ⟨k, there⟩
      simp only [List.map_cons, List.nodup_cons] at hNodup
      by_cases hHere : k = key
      · subst hHere
        have hNotRest : (k, evs) ∉ rest := fun hMem =>
          hNodup.1 (List.mem_map.mpr ⟨(k, evs), hMem, rfl⟩)
        simp [lookup, hNotRest, eq_comm]
      · simp [lookup, hHere, Ne.symm hHere, ih hNodup.2]

/- The groups of a batch are its keys with their events. -/
theorem mem_groupEvents_iff
    (groupBy : Str) (now window : Int) (found : List Event)
    (key : Str) (evs : List Event) :
    (key, evs) ∈ groupEvents groupBy now window [] found ↔
      evs = groupOf groupBy now window found key ∧
        evs ≠ [] := by
  have hGroups :
      WellGrouped (groupEvents groupBy now window [] found) :=
    WellGrouped.groupEvents ⟨by simp, by simp⟩ groupBy now
      window found
  have hAt :=
    eventsAt_groupEvents groupBy key now window [] found
  simp only [eventsAt, lookup, Option.getD_none,
    List.nil_append] at hAt
  constructor
  · intro hMem
    have hSome := (mem_iff_lookup hGroups.nodup key evs).mp hMem
    rw [hSome] at hAt
    exact ⟨hAt, hGroups.inhabited _ hMem⟩
  · rintro ⟨hEvs, hSome⟩
    rw [mem_iff_lookup hGroups.nodup, hEvs, ← hAt]
    cases hLookup : lookup key
        (groupEvents groupBy now window [] found) with
    | some there => rfl
    | none =>
        rw [hLookup] at hAt
        exact absurd (hEvs.trans hAt.symm) hSome

end

---- The Matches Of A Rule

section

variable [Unicode] [RegexEngine] [IsoDates]

/- What an evaluable aggregation asks of a group. -/
structure Plan where
  groupBy : Str
  threshold : Int
  window : Int
deriving DecidableEq, Repr

/- A definition whose every hit is a match. -/
def Definition.perEvent (d : Definition) : Bool :=
  match d.aggregation with
  | none => true
  | some agg => !truthy agg.threshold

/- The plan of an aggregated definition, if it has one. -/
def Definition.plan (d : Definition) : Option Plan :=
  match d.aggregation with
  | none => none
  | some agg =>
      match agg.limits with
      | .ok (some (threshold, window)) =>
          some ⟨agg.groupField, threshold, window⟩
      | _ => none

/- The groups that reach the threshold of a plan. -/
def Plan.found
    (plan : Plan)
    (hit : List Event)
    (now : Int) : List Match :=
  reached plan.threshold
    (groupEvents plan.groupBy now plan.window [] hit)

/- The events of a group of a plan. -/
def Plan.group
    (plan : Plan)
    (now : Int)
    (hit : List Event)
    (key : Str) : List Event :=
  groupOf plan.groupBy now plan.window hit key

/- The matches the events hit by a definition make. -/
def Definition.found
    (d : Definition)
    (hit : List Event)
    (now : Int) : List Match :=
  if d.perEvent then
    hit.map fun e => ⟨eventEntity e, 1, e⟩
  else
    match d.plan with
    | some plan => plan.found hit now
    | none => []

omit [RegexEngine] in
theorem Definition.found_nil (d : Definition) (now : Int) :
    d.found [] now = [] := by
  unfold Definition.found
  split
  · rfl
  · split <;> rfl

/- The matches of a rule are those of the events its
conditions hit, whatever fails. -/
theorem RuleRow.matches_eq
    (rule : RuleRow) (events : List Event) (now : Int) :
    rule.matches events now =
      rule.definition.found
        (events.filter rule.definition.hits) now := by
  unfold RuleRow.matches
  cases hBroken : rule.definition.broken with
  | true =>
      have hNone : events.filter rule.definition.hits = [] := by
        simp [List.filter_eq_nil_iff, hits_of_broken hBroken]
      rw [hNone, Definition.found_nil]
      cases events with
      | nil => simp [evaluate, matching, bind, Except.bind]
      | cons e rest =>
          simp [evaluate, matching_of_broken hBroken, bind,
            Except.bind]
  | false =>
      simp only [evaluate, matching_of_not_broken hBroken,
        bind, Except.bind]
      by_cases hNone :
          events.filter rule.definition.hits = []
      · simp [hNone, Definition.found_nil]
      · cases hAgg : rule.definition.aggregation with
        | none =>
            simp [hNone, Definition.found,
              Definition.perEvent, hAgg]
        | some agg =>
            cases hThreshold : truthy agg.threshold with
            | false =>
                simp [hNone, Definition.found,
                  Definition.perEvent, hAgg, hThreshold]
            | true =>
                simp only [hNone, if_false, if_true, hAgg,
                  hThreshold, Definition.found,
                  Definition.perEvent, Definition.plan,
                  evaluateGroups, bind, Except.bind,
                  Bool.not_true, Bool.false_eq_true]
                cases agg.limits with
                | error err => rfl
                | ok limits =>
                    cases limits with
                    | none => rfl
                    | some pair => rfl

omit [RegexEngine] in
/- A reached group is one match, of its last event. -/
theorem Plan.mem_found_iff
    (plan : Plan) (now : Int) (hit : List Event) (m : Match) :
    m ∈ plan.found hit now ↔
      ∃ key last,
        (plan.group now hit key).getLast? = some last ∧
          plan.threshold ≤
            ((plan.group now hit key).length : Int) ∧
          m = ⟨.str key, (plan.group now hit key).length,
            last⟩ := by
  unfold Plan.found reached
  rw [List.mem_filterMap]
  constructor
  · rintro ⟨⟨key, evs⟩, hMem, hMatch⟩
    rw [mem_groupEvents_iff] at hMem
    rcases hMem with ⟨rfl, hSome⟩
    split at hMatch
    next hReach =>
      rcases Option.map_eq_some_iff.mp hMatch with
        ⟨last, hLast, rfl⟩
      exact ⟨key, last, hLast, hReach, rfl⟩
    next => cases hMatch
  · rintro ⟨key, last, hLast, hReach, rfl⟩
    refine ⟨(key, plan.group now hit key), ?_, ?_⟩
    · unfold Plan.group at hLast ⊢
      rw [mem_groupEvents_iff]
      refine ⟨rfl, ?_⟩
      intro hNone
      rw [hNone] at hLast
      cases hLast
    · simp [hReach, hLast]

omit [RegexEngine] in
/- A rule matches a group at most once. -/
theorem Plan.found_nodup
    (plan : Plan) (now : Int) (hit : List Event) :
    (plan.found hit now).Pairwise
      (fun a b => a.entity ≠ b.entity) := by
  have hEmpty : WellGrouped [] := ⟨by simp, by simp⟩
  have hGroups :=
    (hEmpty.groupEvents plan.groupBy now plan.window hit).nodup
  unfold Plan.found reached
  rw [List.pairwise_filterMap]
  refine (List.pairwise_map.mp hGroups).imp ?_
  intro g h hNe a hA b hB hSame
  split at hA
  · split at hB
    · rcases Option.map_eq_some_iff.mp hA with ⟨_, _, rfl⟩
      rcases Option.map_eq_some_iff.mp hB with ⟨_, _, rfl⟩
      exact hNe (PyVal.str.inj hSame)
    · cases hB
  · cases hA

end

---- A Rule In Force

/- A date the example events carry. -/
def newYear : Str := lit "2026-01-01T00:00:00+00:00"

/- The instant of that date, in microseconds. -/
def newYearInstant : Int := 1767225600000000

/- Dates that read that one text. -/
@[reducible] def newYearDates : IsoDates where
  fromIso s :=
    if s = newYear then some newYearInstant else none

/- An engine no pattern compiles for. -/
@[reducible] def noPatterns : RegexEngine where
  compiles _ := false
  search _ _ := false

/- Two failed logins from one address. -/
def twoLogins : RuleRow where
  id := lit "R-1"
  name := lit "Failed logins"
  severity := lit "high"
  severityOverride := none
  mitreTechId := none
  mitreTech := none
  mitreTactic := none
  mitreTacticId := none
  definition :=
    { conditions :=
        [⟨some (lit "event_type"), some .equals,
          .str (lit "failed_login")⟩]
      logic := some (lit "and")
      aggregation :=
        some ⟨some (lit "src_ip"), .int 2, .int 5⟩ }

/- The one rule in force. -/
def oneRule : RuleTable where
  rows := [twoLogins]
  nodup := by simp

end ThreatOrbit.Detection
