import ThreatOrbit.Detection.Pool
import ThreatOrbit.Detection.Groups

/-
  Detection over the batches the queue hands out.

  Every claim of the pool is evaluated on its own, so an
  aggregated rule counts a group inside one batch only. Its
  alerts are those of all events in one batch exactly when
  the batches do not split a group that reaches the
  threshold.

  Main declarations:
    * `claimedEvents`, `PassResult.alerted`
    * `RuleRow.Reports`
    * `split_alerts_iff`
-/

---- Claimed Batches

namespace ThreatOrbit.Detection

open Lib

/- The columns of an event besides those of the queue. -/
abbrev Columns := List (Str × SqlVal)

/- `dict(row)`. -/
def EventRow.asEvent (r : EventRow Columns) : Event :=
  ⟨r.ts, (lit "id", .text r.id) :: r.event⟩

/- The events a step of the pool hands to a worker. -/
def claimedEvents
    (postgres : Bool)
    (order : TsOrder Columns)
    (lease : Nat)
    (e : Transition (Pool Columns) (Nat × PoolLabel)) :
    List Event :=
  match e.label with
  | (clock, .claim worker batch) =>
      (claimLocked postgres order e.pre.events worker batch
        lease clock).1.map EventRow.asEvent
  | _ => []

@[simp] theorem EventRow.lease_asEvent
    (ids : List Str)
    (worker : Str)
    (stamp : Int)
    (r : EventRow Columns) :
    (r.lease ids worker stamp).asEvent = r.asEvent := by
  unfold EventRow.lease
  split <;> rfl

@[simp] theorem EventRow.finish_asEvent
    (ids : List Str)
    (r : EventRow Columns) :
    (r.finish ids).asEvent = r.asEvent := by
  unfold EventRow.finish
  split <;> rfl

@[simp] theorem EventRow.release_asEvent
    (cutoff : Int)
    (r : EventRow Columns) :
    (r.release cutoff).asEvent = r.asEvent := by
  unfold EventRow.release
  split <;> rfl

/- No step of the pool changes what an event says. -/
theorem asEvent_step
    {postgres : Bool} {order : TsOrder Columns} {lease : Nat}
    {s t : Pool Columns} {a : Nat × PoolLabel}
    (hStep : PoolStep postgres order lease s a t) :
    t.events.rows.map EventRow.asEvent =
      s.events.rows.map EventRow.asEvent := by
  cases hStep with
  | claim worker batch clock _ =>
      simp [Pool.claim, claimLocked_rows, Function.comp_def]
  | complete b clock _ _ _ =>
      simp [Pool.complete, complete, EventTable.update,
        Function.comp_def]
  | requeueStale clock _ =>
      simp [Pool.requeueStale, requeueStale,
        EventTable.update, Function.comp_def]
  | tick clock _ => rfl

/- Both backends return what the claim picked. -/
theorem claimLocked_asEvent
    (postgres : Bool) (order : TsOrder Columns)
    (t : EventTable Columns) (worker : Str)
    (batch lease clock : Nat) :
    (claimLocked postgres order t worker batch lease
        clock).1.map EventRow.asEvent =
      (pick order t (seconds clock - lease) batch).map
        EventRow.asEvent := by
  unfold claimLocked claim
  cases postgres
  · rfl
  · simp [Function.comp_def]

/- A claim hands out events of the table, each row once. -/
theorem claimedEvents_subperm
    {postgres : Bool} {order : TsOrder Columns} {lease : Nat}
    (e : Transition (Pool Columns) (Nat × PoolLabel)) :
    (claimedEvents postgres order lease e).Subperm
      (e.pre.events.rows.map EventRow.asEvent) := by
  unfold claimedEvents
  split
  next clock worker batch _ =>
    rw [claimLocked_asEvent]
    unfold pick
    have hTake := (List.take_sublist batch
      (order.sort (e.pre.events.rows.filter
        (EventRow.claimable (seconds clock - lease))))).subperm
    have hSort := hTake.trans (order.perm _).subperm
    rcases hSort.trans List.filter_sublist.subperm with
      ⟨rows, hPerm, hSub⟩
    exact ⟨rows.map EventRow.asEvent, hPerm.map _, hSub.map _⟩
  next => exact List.nil_subperm

/- Every batch of a run is made of the events at its start. -/
theorem claimedEvents_of_run
    {postgres : Bool} {order : TsOrder Columns} {lease : Nat}
    {start s : Pool Columns}
    {trace :
      List (Transition (Pool Columns) (Nat × PoolLabel))}
    (hRun : Run (PoolStep postgres order lease) start trace s) :
    ∀ e ∈ trace,
      (claimedEvents postgres order lease e).Subperm
        (start.events.rows.map EventRow.asEvent) := by
  induction hRun with
  | nil s => simp
  | @cons s t u a rest hStep hRest ih =>
      intro e he
      rcases List.mem_cons.mp he with rfl | hLater
      · exact claimedEvents_subperm _
      · rw [← asEvent_step hStep]
        exact ih e hLater

/- One claim of all events, when none is claimed. -/
theorem claim_all
    {postgres : Bool} {order : TsOrder Columns}
    {t : EventTable Columns}
    (hPending :
      ∀ r ∈ t.rows, r.processed = false ∧ r.claimedBy = none)
    (worker : Str)
    (lease clock : Nat) :
    ((claimLocked postgres order t worker t.rows.length lease
        clock).1.map EventRow.asEvent).Perm
      (t.rows.map EventRow.asEvent) := by
  have hAll :
      t.rows.filter
          (EventRow.claimable (seconds clock - lease)) =
        t.rows := by
    rw [List.filter_eq_self]
    intro r hr
    simp [EventRow.claimable, hPending r hr]
  have hSorted :
      pick order t (seconds clock - lease) t.rows.length =
        order.sort t.rows := by
    unfold pick
    rw [hAll]
    apply List.take_of_length_le
    exact le_of_eq (order.perm t.rows).length_eq
  rw [claimLocked_asEvent, hSorted]
  exact (order.perm t.rows).map _

---- The Alerts Of A Batch

section

variable [Unicode] [RegexEngine] [IsoDates]

/- Whether a pass raises an alert of a rule for an entity. -/
def PassResult.Alerted
    (p : PassResult)
    (ruleId key : Str) : Prop :=
  ∃ r ∈ p.raised,
    r.rule.id = ruleId ∧ r.found.entity = .str key

/- The events of a batch that fall in a group of a rule. -/
def RuleRow.inGroup
    (rule : RuleRow)
    (plan : Plan)
    (batch : List Event)
    (key : Str) : List Event :=
  batch.filter fun e =>
    rule.definition.hits e && groupKey plan.groupBy e == key

/- Whether no active suppression drops the last event, the
one that represents the group. -/
def RuleRow.Undropped
    (rule : RuleRow)
    (active : List Suppression)
    (group : List Event) : Prop :=
  ∃ last, group.getLast? = some last ∧
    rule.droppedBy active last = none

/- Whether a batch alone reports a group. -/
def RuleRow.Reports
    (rule : RuleRow)
    (plan : Plan)
    (active : List Suppression)
    (batch : List Event)
    (key : Str) : Prop :=
  plan.threshold ≤
      ((rule.inGroup plan batch key).length : Int) ∧
    rule.Undropped active (rule.inGroup plan batch key)

omit [RegexEngine] in
/- Inside the window a group is a matter of its key. -/
theorem group_eq_inGroup
    [RegexEngine] {rule : RuleRow} {plan : Plan} {now : Int}
    {batch : List Event}
    (hWindow :
      ∀ e ∈ batch, inWindow now plan.window e = true)
    (key : Str) :
    plan.group now (batch.filter rule.definition.hits) key =
      rule.inGroup plan batch key := by
  unfold Plan.group groupOf RuleRow.inGroup
  rw [List.filter_filter]
  apply List.filter_congr
  intro e he
  rw [hWindow e he, Bool.true_and, Bool.and_comm]

/- An aggregated rule alerts the groups its batch reports. -/
theorem alerted_iff_reports
    {table : RuleTable} {rule : RuleRow}
    (hRule : rule ∈ table.rows) {plan : Plan}
    (hGroup : rule.definition.perEvent = false)
    (hPlan : rule.definition.plan = some plan)
    (suppressions : List Suppression) (started : Int)
    (clock : RuleRow → Int) {batch : List Event}
    (hWindow :
      ∀ e ∈ batch,
        inWindow (clock rule) plan.window e = true)
    (key : Str) :
    (runDetection table.rows suppressions started clock
        batch).Alerted rule.id key ↔
      rule.Reports plan
        (suppressions.filter (suppressionActive · started))
        batch key := by
  unfold PassResult.Alerted runDetection
  simp only [List.mem_flatMap, List.mem_filter, List.mem_map]
  constructor
  · rintro ⟨_, ⟨other, ⟨hOther, _⟩, m, hm, rfl⟩, hId, hKey⟩
    have hSame : other = rule :=
      List.inj_on_of_nodup_map table.nodup hOther hRule hId
    subst hSame
    rcases List.mem_filter.mp hm with ⟨hFound, hKept⟩
    rw [RuleRow.matches_eq, Definition.found, hGroup, hPlan]
      at hFound
    rcases (plan.mem_found_iff _ _ m).mp hFound with
      ⟨key', last, hLast, hReach, rfl⟩
    have hThis : key' = key := PyVal.str.inj hKey
    subst hThis
    rw [group_eq_inGroup hWindow] at hLast hReach
    exact ⟨hReach, last, hLast,
      Option.isNone_iff_eq_none.mp hKept⟩
  · rintro ⟨hReach, last, hLast, hKept⟩
    have hHit : last ∈ rule.inGroup plan batch key :=
      List.mem_of_getLast? hLast
    have hSome : rule.definition.conditions.isEmpty = false := by
      cases hEmpty : rule.definition.conditions.isEmpty with
      | false => rfl
      | true =>
          simp [RuleRow.inGroup, Definition.hits, matchesEvent,
            hEmpty] at hHit
    rw [← group_eq_inGroup hWindow] at hReach hLast
    have hFound := (plan.mem_found_iff (clock rule)
      (batch.filter rule.definition.hits) _).mpr
      ⟨key, last, hLast, hReach, rfl⟩
    refine ⟨⟨rule, ⟨.str key,
        (plan.group (clock rule)
          (batch.filter rule.definition.hits) key).length,
        last⟩⟩,
      ⟨rule, ⟨hRule, by simp [hSome]⟩, _, ?_, rfl⟩, rfl, rfl⟩
    unfold RuleRow.raises
    rw [List.mem_filter, RuleRow.matches_eq, Definition.found,
      hGroup, hPlan]
    exact ⟨hFound, Option.isNone_iff_eq_none.mpr hKept⟩

omit [IsoDates] in
/- A larger batch holds at least as much of a group. -/
theorem inGroup_length_le
    (rule : RuleRow) (plan : Plan) {batch whole : List Event}
    (hSub : batch.Subperm whole) (key : Str) :
    (rule.inGroup plan batch key).length ≤
      (rule.inGroup plan whole key).length :=
  (hSub.filter _).length_le

end

---- Split Batches

section

variable [Unicode] [RegexEngine] [IsoDates]

/- The alerts of the batches of a pool run, against those of
all events in one batch. They are for the same entities
exactly when a group that one batch of everything reports
is reported by some batch of the run, and a group that
some batch of the run reports is not dropped, by its
oldest event, from the one batch. -/
theorem split_alerts_iff
    (postgres : Bool)
    (order : TsOrder Columns)
    (lease : Nat)
    {start s : Pool Columns}
    {trace :
      List (Transition (Pool Columns) (Nat × PoolLabel))}
    (hRun : Run (PoolStep postgres order lease) start trace s)
    (hPending :
      ∀ r ∈ start.events.rows,
        r.processed = false ∧ r.claimedBy = none)
    (table : RuleTable)
    (suppressions : List Suppression)
    (rule : RuleRow)
    (hRule : rule ∈ table.rows)
    (plan : Plan)
    (hGroup : rule.definition.perEvent = false)
    (hPlan : rule.definition.plan = some plan)
    (started :
      Transition (Pool Columns) (Nat × PoolLabel) → Int)
    (clock :
      Transition (Pool Columns) (Nat × PoolLabel) →
        RuleRow → Int)
    (worker : Str)
    (claimAt : Nat)
    (startedAll : Int)
    (clockAll : RuleRow → Int)
    (hWindow :
      ∀ r ∈ start.events.rows,
        inWindow (clockAll rule) plan.window r.asEvent =
            true ∧
          ∀ e ∈ trace,
            inWindow (clock e rule) plan.window r.asEvent =
              true) :
    let whole :=
      (claimLocked postgres order start.events worker
        start.events.rows.length lease claimAt).1.map
        EventRow.asEvent
    let active := fun at' =>
      suppressions.filter (suppressionActive · at')
    (∀ key,
        (∃ e ∈ trace,
          (runDetection table.rows suppressions (started e)
            (clock e)
            (claimedEvents postgres order lease e)).Alerted
            rule.id key) ↔
          (runDetection table.rows suppressions startedAll
            clockAll whole).Alerted rule.id key) ↔
      (∀ key,
        rule.Reports plan (active startedAll) whole key →
        ∃ e ∈ trace,
          rule.Reports plan (active (started e))
            (claimedEvents postgres order lease e) key) ∧
      (∀ key,
        (∃ e ∈ trace,
          rule.Reports plan (active (started e))
            (claimedEvents postgres order lease e) key) →
        rule.Undropped (active startedAll)
          (rule.inGroup plan whole key)) := by
  intro whole active
  have hWhole : whole.Perm
      (start.events.rows.map EventRow.asEvent) :=
    claim_all hPending worker lease claimAt
  have hBatches := claimedEvents_of_run hRun
  have hInWhole : ∀ e ∈ whole,
      inWindow (clockAll rule) plan.window e = true := by
    intro e he
    rcases List.mem_map.mp (hWhole.mem_iff.mp he) with
      ⟨r, hr, rfl⟩
    exact (hWindow r hr).1
  have hInBatch : ∀ e ∈ trace,
      ∀ x ∈ claimedEvents postgres order lease e,
        inWindow (clock e rule) plan.window x = true := by
    intro e he x hx
    rcases List.mem_map.mp ((hBatches e he).subset hx) with
      ⟨r, hr, rfl⟩
    exact (hWindow r hr).2 e he
  have hOne : ∀ key,
      (runDetection table.rows suppressions startedAll
          clockAll whole).Alerted rule.id key ↔
        rule.Reports plan (active startedAll) whole key :=
    alerted_iff_reports hRule hGroup hPlan suppressions
      startedAll clockAll hInWhole
  have hSplit : ∀ key,
      (∃ e ∈ trace,
        (runDetection table.rows suppressions (started e)
          (clock e)
          (claimedEvents postgres order lease e)).Alerted
          rule.id key) ↔
        ∃ e ∈ trace,
          rule.Reports plan (active (started e))
            (claimedEvents postgres order lease e) key := by
    intro key
    constructor
    · rintro ⟨e, he, hAlert⟩
      exact ⟨e, he,
        (alerted_iff_reports hRule hGroup hPlan suppressions
          (started e) (clock e) (hInBatch e he) key).mp hAlert⟩
    · rintro ⟨e, he, hReport⟩
      exact ⟨e, he,
        (alerted_iff_reports hRule hGroup hPlan suppressions
          (started e) (clock e) (hInBatch e he) key).mpr
          hReport⟩
  simp only [hOne, hSplit]
  constructor
  · intro hSame
    exact ⟨fun key => (hSame key).mpr,
      fun key hBatch => ((hSame key).mp hBatch).2⟩
  · rintro ⟨hKept, hShown⟩ key
    constructor
    · rintro ⟨e, he, hReport⟩
      have hSub := (hBatches e he).trans hWhole.symm.subperm
      have hMore := inGroup_length_le rule plan hSub key
      have hReach := hReport.1
      exact ⟨by omega, hShown key ⟨e, he, hReport⟩⟩
    · exact hKept key

end

section

local instance batchesUnicode : Unicode := asciiTables
local instance batchesRegexEngine :
    RegexEngine := noPatterns
local instance batchesIsoDates : IsoDates := newYearDates

/- The row of a pending failed login. -/
def pendingLogin (id : String) : EventRow Columns where
  id := lit id
  ts := newYear
  processed := false
  claimedBy := none
  claimedAt := none
  event :=
    [(lit "event_type", .text (lit "failed_login")),
      (lit "src_ip", .text (lit "10.0.0.9"))]

/- Two failed logins from one address. -/
def twoPending : EventTable Columns where
  rows := [pendingLogin "e1", pendingLogin "e2"]
  nodup := by decide
  stamped := by decide

/- A worker that claims one event at a time. -/
def firstClaimed : Pool Columns :=
  Pool.claim false (TsOrder.stable Columns) 300
    ⟨twoPending, 0, []⟩ (lit "pool-0") 1 1000000

def firstDone : Pool Columns :=
  firstClaimed.complete
    ⟨lit "pool-0", [lit "e1"], 1000000, false⟩ 2000000

def secondClaimed : Pool Columns :=
  Pool.claim false (TsOrder.stable Columns) 300 firstDone
    (lit "pool-0") 1 3000000

def secondDone : Pool Columns :=
  secondClaimed.complete
    ⟨lit "pool-0", [lit "e2"], 3000000, false⟩ 4000000

/- The steps of that worker. -/
def oneByOne :
    List (Transition (Pool Columns) (Nat × PoolLabel)) :=
  [⟨⟨twoPending, 0, []⟩,
      (1000000, .claim (lit "pool-0") 1), firstClaimed⟩,
    ⟨firstClaimed,
      (2000000, .complete
        ⟨lit "pool-0", [lit "e1"], 1000000, false⟩),
      firstDone⟩,
    ⟨firstDone, (3000000, .claim (lit "pool-0") 1),
      secondClaimed⟩,
    ⟨secondClaimed,
      (4000000, .complete
        ⟨lit "pool-0", [lit "e2"], 3000000, false⟩),
      secondDone⟩]

/- All events in one batch. -/
def allAtOnce : List Event :=
  (claimLocked false (TsOrder.stable Columns) twoPending
    (lit "pool-0") twoPending.rows.length 300 1000000).1.map
    EventRow.asEvent

/- A pass over a batch a minute later. -/
def passLater (batch : List Event) : PassResult :=
  runDetection oneRule.rows [] newYearInstant
    (fun _ => newYearInstant + 60000000) batch

/- The rule asks for two events. One batch of both raises an
alert, and the worker that claims them one by one, though
it drains the queue, raises none. -/
theorem split_batches_miss :
    Run (TimelyStep false (TsOrder.stable Columns) 300)
        ⟨twoPending, 0, []⟩ oneByOne secondDone ∧
      (∀ r ∈ secondDone.events.rows, r.processed = true) ∧
      (passLater allAtOnce).Alerted (lit "R-1")
        (lit "10.0.0.9") ∧
      ∀ e ∈ oneByOne,
        ¬ (passLater (claimedEvents false
            (TsOrder.stable Columns) 300 e)).Alerted
          (lit "R-1") (lit "10.0.0.9") := by
  have hPlan : twoLogins.definition.plan =
      some ⟨lit "src_ip", 2, 300000000⟩ := by
    decide +kernel
  have hRule : twoLogins ∈ oneRule.rows := List.mem_cons_self
  refine ⟨?_, by decide, ?_, ?_⟩
  · apply Run.cons
      ⟨.claim _ _ _ _ (by decide), fun _ h => by cases h⟩
    apply Run.cons
      ⟨.complete _ _ _ (by decide) (by decide) rfl, by decide⟩
    apply Run.cons ⟨.claim _ _ _ _ (by decide), by decide⟩
    apply Run.cons
      ⟨.complete _ _ _ (by decide) (by decide) rfl, by decide⟩
    exact .nil _
  · rw [passLater, show lit "R-1" = twoLogins.id from rfl,
      alerted_iff_reports hRule rfl hPlan _ _ _ (by decide)]
    exact ⟨by decide, (pendingLogin "e2").asEvent, by decide,
      rfl⟩
  · intro e he
    rw [passLater, show lit "R-1" = twoLogins.id from rfl,
      alerted_iff_reports hRule rfl hPlan _ _ _
        (by revert e; decide)]
    rintro ⟨hReach, _⟩
    clear * - hReach he
    revert e
    decide

/- The worker that claims both events at once alerts as one
batch does. -/
theorem split_alerts_iff_whole :
    let step : Transition (Pool Columns) (Nat × PoolLabel) :=
      ⟨⟨twoPending, 0, []⟩,
        (1000000, .claim (lit "pool-0") 2),
        Pool.claim false (TsOrder.stable Columns) 300
          ⟨twoPending, 0, []⟩ (lit "pool-0") 2 1000000⟩
    twoPending.rows ≠ [] ∧
      ∀ key,
        (∃ e ∈ [step],
          (passLater (claimedEvents false
            (TsOrder.stable Columns) 300 e)).Alerted
            twoLogins.id key) ↔
          (passLater allAtOnce).Alerted twoLogins.id key := by
  intro step
  have hPlan : twoLogins.definition.plan =
      some ⟨lit "src_ip", 2, 300000000⟩ := by
    decide +kernel
  have hSame :
      claimedEvents false (TsOrder.stable Columns) 300 step =
        allAtOnce := by
    decide
  refine ⟨by decide, ?_⟩
  apply (split_alerts_iff false (TsOrder.stable Columns) 300
    (.cons (.claim _ (lit "pool-0") 2 1000000 (by decide))
      (.nil _)) (by decide) oneRule [] twoLogins
    List.mem_cons_self _ rfl hPlan (fun _ => newYearInstant)
    (fun _ _ => newYearInstant + 60000000) (lit "pool-0")
    1000000 newYearInstant
    (fun _ => newYearInstant + 60000000) (by decide)).mpr
  constructor
  · intro key hReport
    refine ⟨step, List.mem_singleton_self _, ?_⟩
    rw [hSame]
    exact hReport
  · rintro key ⟨e, he, hReport⟩
    rw [List.mem_singleton.mp he, hSame] at hReport
    exact hReport.2

end

end ThreatOrbit.Detection
