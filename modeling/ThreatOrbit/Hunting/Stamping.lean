import ThreatOrbit.Lib.Picking
import ThreatOrbit.Hunting.Scheduled

/-
  The alerts of scheduled hunts: a run inserts an alert as the
  detection engine does, and then stamps the newest alert of
  the table as a hunt's.

  Which of the alerts of the latest second is the newest is up
  to the database.
-/

---- Alerts

namespace ThreatOrbit.Hunting

open Lib Detection

/- A row of `alerts`. -/
structure AlertRow where
  id : Str
  ts : Str
  ruleId : Str
  alert : HuntAlert

/- The row as a hunt's. -/
def AlertRow.stamped (r : AlertRow) : AlertRow :=
  { r with ruleId := lit "R-HUNT" }

/- `SELECT … ORDER BY ts DESC LIMIT 1`: one of the rows with
the latest timestamp. -/
abbrev NewestAlert :=
  Picker AlertRow.ts

/- `_insert_alert`; the primary key is unique. -/
def insertAlert
    (alerts : List AlertRow)
    (row : AlertRow) : Except PyError (List AlertRow) :=
  if alerts.any fun r => r.id = row.id then
    .error .databaseError
  else
    .ok (alerts ++ [row])

/- `UPDATE alerts SET rule_id='R-HUNT' WHERE id=(…)`. -/
def stampNewest
    (newest : NewestAlert)
    (alerts : List AlertRow) : List AlertRow :=
  match newest.pick alerts with
  | none => alerts
  | some first =>
      alerts.map fun r =>
        if r.id = first.id then r.stamped else r

---- A Run Over The Saved Hunts

section

/- A row of `saved_hunts`, with the store it hunts in. -/
structure SavedHunt extends HuntRow where
  domain : Str

/- A turn of the loop: the hunt, the events there are when it
searches, the clock then and when it inserts an alert, and
the id that is drawn for one. -/
structure Turn where
  hunt : SavedHunt
  events : List Stored
  searched : Moment
  written : Moment
  uuid : Str

def Turn.row (t : Turn) (alert : HuntAlert) : AlertRow where
  id := t.uuid
  ts := t.written.iso
  ruleId := lit "R-ENGINE"
  alert := alert

structure RunResult where
  hunts : List SavedHunt
  table : List AlertRow
  ran : Nat
  alerts : Nat

variable [IsoDates] [Unicode] [RegexEngine]

/- What a run shares: the order of the events, the hits of a
hunt over the indicators, and the time of the run. -/
structure RunContext where
  events : NewestFirst
  iocHits : SavedHunt → Except PyError Nat
  now : Moment

/- `_run_cti_watchlist`: the row of the hunt afterwards. -/
def RunContext.watchlist
    (c : RunContext)
    (h : SavedHunt) : Except PyError SavedHunt := do
  let hits ← c.iocHits h
  .ok { h with toHuntRow := h.toHuntRow.afterRun c.now hits }

/- A turn up to its alert: the row of the hunt afterwards,
and, if it was due, the alert to insert. -/
def RunContext.look
    (c : RunContext)
    (t : Turn) :
    Except PyError (SavedHunt × Option (Option HuntAlert)) :=
  if t.hunt.domain = lit "cti" then
    if t.hunt.scheduleMinutes ≤ 0 then
      .ok (t.hunt, none)
    else do
      let due ← t.hunt.isDue c.now
      if due then
        let after ← c.watchlist t.hunt
        .ok (after, some none)
      else
        .ok (t.hunt, none)
  else do
    let found ←
      runScheduled c.events t.events c.now t.searched
        t.hunt.toHuntRow
    .ok
      ({ t.hunt with toHuntRow := found.1 },
        found.2.map HuntOutcome.alert)

def runDueScheduledHunts
    (c : RunContext)
    (newest : NewestAlert) :
    List Turn → List AlertRow → Except PyError RunResult
| [], table => .ok ⟨[], table, 0, 0⟩
| t :: rest, table => do
    let found ← c.look t
    match found.2 with
    | none =>
        let r ← runDueScheduledHunts c newest rest table
        .ok { r with hunts := found.1 :: r.hunts }
    | some none =>
        let r ← runDueScheduledHunts c newest rest table
        .ok
          { r with
            hunts := found.1 :: r.hunts
            ran := r.ran + 1 }
    | some (some alert) =>
        let inserted ← insertAlert table (t.row alert)
        let r ←
          runDueScheduledHunts c newest rest
            (stampNewest newest inserted)
        .ok
          { r with
            hunts := found.1 :: r.hunts
            ran := r.ran + 1
            alerts := r.alerts + 1 }

/- The row that a turn inserts. -/
def RunContext.raised
    (c : RunContext)
    (t : Turn) : Option AlertRow :=
  match c.look t with
  | .ok (_, some (some alert)) => some (t.row alert)
  | _ => none

/- The rows that a run inserts, as it inserts them. -/
def RunContext.own
    (c : RunContext)
    (turns : List Turn) : List AlertRow :=
  turns.filterMap c.raised

end

---- Stamps

/- Rows that are inserted and stamped, one by one. -/
def stampAll
    (newest : NewestAlert)
    (rows table : List AlertRow) : List AlertRow :=
  rows.foldl
    (fun table row => stampNewest newest (table ++ [row])) table

/- Each row is later than all that are in the table when it
is inserted. -/
structure StrictlyNewest (rows table : List AlertRow) : Prop where
  later : ∀ row ∈ rows, ∀ r ∈ table, r.ts < row.ts
  rising : rows.Pairwise fun a b => a.ts < b.ts

/- The ids that are drawn are new. -/
structure FreshIds (rows table : List AlertRow) : Prop where
  fresh : ∀ row ∈ rows, ∀ r ∈ table, r.id ≠ row.id
  distinct : rows.Pairwise fun a b => a.id ≠ b.id

theorem map_id_stampNewest
    (newest : NewestAlert) (table : List AlertRow) :
    (stampNewest newest table).map AlertRow.id =
      table.map AlertRow.id := by
  unfold stampNewest
  cases newest.pick table with
  | none => rfl
  | some first =>
      dsimp only
      rw [List.map_map]
      apply List.map_congr_left
      intro r _
      dsimp only [Function.comp]
      split
      · rfl
      · rfl

/- A property of the ids of a table is kept by a stamp. -/
theorem forall_id_stampNewest
    (newest : NewestAlert) (table : List AlertRow)
    (P : Str → Prop) :
    (∀ r ∈ stampNewest newest table, P r.id) ↔
      ∀ r ∈ table, P r.id := by
  have hMap := map_id_stampNewest newest table
  have hSplit (rows : List AlertRow) :
      (∀ r ∈ rows, P r.id) ↔
        ∀ id ∈ rows.map AlertRow.id, P id :=
    List.forall_mem_map.symm
  rw [hSplit, hSplit, hMap]

/- A row that is later than the others is the one that is
stamped. -/
theorem stampNewest_of_newest
    (newest : NewestAlert) {table : List AlertRow} {row : AlertRow}
    (hLater : ∀ r ∈ table, r.ts < row.ts)
    (hFresh : ∀ r ∈ table, r.id ≠ row.id) :
    stampNewest newest (table ++ [row]) =
      table ++ [row.stamped] := by
  have hRow : row ∈ table ++ [row] :=
    List.mem_append_right _ (List.mem_singleton_self _)
  rcases newest.some_of_mem _ row hRow with ⟨first, hPick⟩
  have hFirst : first = row := by
    rcases List.mem_append.mp (newest.mem _ _ hPick) with
      hOld | hNew
    · have hLess := hLater first hOld
      exact absurd (newest.greatest _ _ hPick row hRow)
        (not_le.mpr hLess)
    · exact List.mem_singleton.mp hNew
  have hOthers :
      table.map (fun r =>
        if r.id = row.id then r.stamped else r) = table := by
    calc
      table.map (fun r =>
          if r.id = row.id then r.stamped else r) =
          table.map id := by
        apply List.map_congr_left
        intro r hr
        exact if_neg (hFresh r hr)
      _ = table := List.map_id table
  unfold stampNewest
  rw [hPick, hFirst]
  dsimp only
  rw [List.map_append, List.map_singleton, if_pos rfl, hOthers]

/- Rows that are each the newest are stamped themselves. -/
theorem stampAll_of_newest
    (newest : NewestAlert) {rows table : List AlertRow}
    (hNewest : StrictlyNewest rows table)
    (hFresh : FreshIds rows table) :
    stampAll newest rows table =
      table ++ rows.map AlertRow.stamped := by
  induction rows generalizing table with
  | nil => simp [stampAll]
  | cons row rest ih =>
      have hRising := List.pairwise_cons.mp hNewest.rising
      have hDistinct := List.pairwise_cons.mp hFresh.distinct
      have hStamp :=
        stampNewest_of_newest newest
          (hNewest.later row List.mem_cons_self)
          (hFresh.fresh row List.mem_cons_self)
      have hLater : StrictlyNewest rest (table ++ [row.stamped]) := by
        refine ⟨?_, hRising.2⟩
        intro other hOther r hr
        rcases List.mem_append.mp hr with hOld | hOwn
        · exact hNewest.later other
            (List.mem_cons_of_mem _ hOther) r hOld
        · rw [List.mem_singleton.mp hOwn]
          exact hRising.1 other hOther
      have hRest : FreshIds rest (table ++ [row.stamped]) := by
        refine ⟨?_, hDistinct.2⟩
        intro other hOther r hr
        rcases List.mem_append.mp hr with hOld | hOwn
        · exact hFresh.fresh other
            (List.mem_cons_of_mem _ hOther) r hOld
        · rw [List.mem_singleton.mp hOwn]
          exact hDistinct.1 other hOther
      have hTail := ih hLater hRest
      unfold stampAll at hTail ⊢
      rw [List.foldl_cons, hStamp, hTail, List.map_cons,
        List.append_assoc, List.singleton_append]

/- The order of an index over the timestamps: rows of one
second by their age in the table. -/
def firstNewest : NewestAlert :=
  Picker.first AlertRow.ts

/- A new row is stamped only as the newest one, and then no
other row is touched. -/
theorem newest_of_stampNewest
    {table before : List AlertRow} {row : AlertRow}
    (hFresh : ∀ r ∈ table, r.id ≠ row.id)
    (hPlain : row.ruleId = lit "R-ENGINE")
    (hStamp :
      stampNewest firstNewest (table ++ [row]) =
        before ++ [row.stamped]) :
    before = table ∧ ∀ r ∈ table, r.ts < row.ts := by
  have hRow : row ∈ table ++ [row] :=
    List.mem_append_right _ (List.mem_singleton_self _)
  rcases firstNewest.some_of_mem _ row hRow with ⟨first, hPick⟩
  rcases firstBy_append_singleton hPick with
    hOld | ⟨hIs, hLater⟩
  · -- the row itself keeps the engine's id
    have hKept :
        stampNewest firstNewest (table ++ [row]) =
          table.map (fun r =>
            if r.id = first.id then r.stamped else r) ++
              [row] := by
      unfold stampNewest
      rw [hPick]
      dsimp only
      rw [List.map_append, List.map_singleton,
        if_neg (hFresh first hOld).symm]
    rw [hKept] at hStamp
    have hLast :=
      List.singleton_inj.mp
        (List.append_inj_right' hStamp rfl)
    have hRule : row.ruleId = lit "R-HUNT" :=
      congrArg AlertRow.ruleId hLast
    rw [hPlain] at hRule
    exact absurd hRule (by decide)
  · rw [stampNewest_of_newest firstNewest hLater hFresh]
      at hStamp
    exact ⟨(List.append_inj_left' hStamp rfl).symm, hLater⟩

theorem stampAll_append
    (newest : NewestAlert) (rows : List AlertRow) (row : AlertRow)
    (table : List AlertRow) :
    stampAll newest (rows ++ [row]) table =
      stampNewest newest
        (stampAll newest rows table ++ [row]) := by
  unfold stampAll
  rw [List.foldl_append]
  rfl

/- Inserting and stamping keeps the ids. -/
theorem map_id_stampAll
    (newest : NewestAlert) (rows table : List AlertRow) :
    (stampAll newest rows table).map AlertRow.id =
      table.map AlertRow.id ++ rows.map AlertRow.id := by
  induction rows using List.reverseRecOn with
  | nil => simp [stampAll]
  | append_singleton before row ih =>
      rw [stampAll_append, map_id_stampNewest, List.map_append,
        ih, List.map_append, List.append_assoc]

/- If all new rows are stamped and no other, each of them was
the newest one. -/
theorem newest_of_stampAll
    {rows table : List AlertRow}
    (hFresh : FreshIds rows table)
    (hPlain : ∀ row ∈ rows, row.ruleId = lit "R-ENGINE")
    (hStamp :
      stampAll firstNewest rows table =
        table ++ rows.map AlertRow.stamped) :
    StrictlyNewest rows table := by
  induction rows using List.reverseRecOn with
  | nil => exact ⟨List.forall_mem_nil _, List.Pairwise.nil⟩
  | append_singleton before row ih =>
      have hParts := List.pairwise_append.mp hFresh.distinct
      have hLast : row ∈ before ++ [row] :=
        List.mem_append_right _ (List.mem_singleton_self _)
      have hFront : ∀ other ∈ before, other ∈ before ++ [row] :=
        fun other hOther => List.mem_append_left _ hOther
      have hNew :
          ∀ r ∈ stampAll firstNewest before table,
            r.id ≠ row.id := by
        intro r hr hSame
        have hId := List.mem_map_of_mem (f := AlertRow.id) hr
        rw [map_id_stampAll, List.mem_append] at hId
        rcases hId with hOld | hOwn
        · rcases List.mem_map.mp hOld with ⟨s, hs, hIs⟩
          exact hFresh.fresh row hLast s hs (hIs.trans hSame)
        · rcases List.mem_map.mp hOwn with ⟨s, hs, hIs⟩
          exact hParts.2.2 s hs row
            (List.mem_singleton_self _) (hIs.trans hSame)
      rw [stampAll_append, List.map_append, List.map_singleton,
        ← List.append_assoc] at hStamp
      rcases newest_of_stampNewest hNew (hPlain row hLast)
        hStamp with ⟨hBefore, hLater⟩
      have hInner :=
        ih ⟨fun other hOther =>
            hFresh.fresh other (hFront other hOther),
          hParts.1⟩
          (fun other hOther => hPlain other (hFront other hOther))
          hBefore.symm
      rw [← hBefore] at hLater
      refine ⟨?_, ?_⟩
      · intro other hOther r hr
        rcases List.mem_append.mp hOther with hIn | hIs
        · exact hInner.later other hIn r hr
        · rw [List.mem_singleton.mp hIs]
          exact hLater r (List.mem_append_left _ hr)
      · refine List.pairwise_append.mpr
          ⟨hInner.rising, List.pairwise_singleton _ _, ?_⟩
        intro other hOther last hIs
        rw [List.mem_singleton.mp hIs]
        exact hLater other.stamped
          (List.mem_append_right _ (List.mem_map_of_mem hOther))

theorem insertAlert_cases
    (table : List AlertRow) (row : AlertRow) :
    (insertAlert table row = .ok (table ++ [row]) ∧
      ∀ r ∈ table, r.id ≠ row.id) ∨
    (insertAlert table row = .error .databaseError ∧
      ∃ r ∈ table, r.id = row.id) := by
  unfold insertAlert
  by_cases hAny : table.any fun r => r.id = row.id
  · rw [if_pos hAny]
    rcases List.any_eq_true.mp hAny with ⟨r, hr, hId⟩
    exact Or.inr ⟨rfl, r, hr, of_decide_eq_true hId⟩
  · rw [if_neg hAny]
    refine Or.inl ⟨rfl, ?_⟩
    intro r hr hId
    exact hAny (List.any_eq_true.mpr
      ⟨r, hr, decide_eq_true hId⟩)

/- The ids of a run that goes on after a stamp. -/
theorem freshIds_cons_iff
    (newest : NewestAlert) (row : AlertRow)
    (rest table : List AlertRow) :
    FreshIds (row :: rest) table ↔
      (∀ r ∈ table, r.id ≠ row.id) ∧
        FreshIds rest (stampNewest newest (table ++ [row])) := by
  have hIds (other : AlertRow) :=
    forall_id_stampNewest newest (table ++ [row])
      fun id => id ≠ other.id
  constructor
  · rintro ⟨hFresh, hDistinct⟩
    rcases List.pairwise_cons.mp hDistinct with ⟨hHead, hTail⟩
    refine ⟨hFresh row List.mem_cons_self, ?_, hTail⟩
    intro other hOther
    rw [hIds other, List.forall_mem_append,
      List.forall_mem_singleton]
    exact ⟨hFresh other (List.mem_cons_of_mem _ hOther),
      hHead other hOther⟩
  · rintro ⟨hHead, hFresh, hDistinct⟩
    have hBoth (other : AlertRow) (hOther : other ∈ rest) :=
      List.forall_mem_append.mp
        ((hIds other).mp (hFresh other hOther))
    refine ⟨?_, List.pairwise_cons.mpr ⟨?_, hDistinct⟩⟩
    · rw [List.forall_mem_cons]
      exact ⟨hHead, fun other hOther => (hBoth other hOther).1⟩
    · intro other hOther
      exact (hBoth other hOther).2 row
        (List.mem_singleton_self _)

---- What A Run Stamps

section

variable [IsoDates] [Unicode] [RegexEngine]

/- No turn raises, and the ids that are drawn are new. -/
structure Completes
    (c : RunContext)
    (turns : List Turn)
    (table : List AlertRow) : Prop where
  looked : ∀ t ∈ turns, ∃ found, c.look t = .ok found
  ids : FreshIds (c.own turns) table

theorem own_plain
    {c : RunContext} {turns : List Turn} {row : AlertRow}
    (hRow : row ∈ c.own turns) :
    row.ruleId = lit "R-ENGINE" := by
  rcases List.mem_filterMap.mp hRow with ⟨t, _, hRaised⟩
  unfold RunContext.raised at hRaised
  split at hRaised
  · cases hRaised
    rfl
  · cases hRaised

/- A turn without an alert. -/
theorem own_cons_of_quiet
    {c : RunContext} {t : Turn} {rest : List Turn}
    (hQuiet : c.raised t = none) :
    c.own (t :: rest) = c.own rest := by
  unfold RunContext.own
  rw [List.filterMap_cons, hQuiet]

/- A turn with one. -/
theorem own_cons_of_raised
    {c : RunContext} {t : Turn} {row : AlertRow}
    (hRaised : c.raised t = some row) (rest : List Turn) :
    c.own (t :: rest) = row :: c.own rest := by
  unfold RunContext.own
  rw [List.filterMap_cons, hRaised]

theorem completes_cons_of_quiet
    {c : RunContext} {t : Turn}
    {found : SavedHunt × Option (Option HuntAlert)}
    (hLook : c.look t = .ok found) (hQuiet : c.raised t = none)
    (rest : List Turn) (table : List AlertRow) :
    Completes c (t :: rest) table ↔ Completes c rest table := by
  constructor
  · rintro ⟨hLooked, hIds⟩
    rw [own_cons_of_quiet hQuiet] at hIds
    exact ⟨(List.forall_mem_cons.mp hLooked).2, hIds⟩
  · rintro ⟨hLooked, hIds⟩
    refine ⟨List.forall_mem_cons.mpr ⟨⟨found, hLook⟩, hLooked⟩,
      ?_⟩
    rw [own_cons_of_quiet hQuiet]
    exact hIds

theorem completes_cons_of_raised
    {c : RunContext} {t : Turn}
    {found : SavedHunt × Option (Option HuntAlert)} {row : AlertRow}
    (newest : NewestAlert) (hLook : c.look t = .ok found)
    (hRaised : c.raised t = some row) (rest : List Turn)
    (table : List AlertRow) :
    Completes c (t :: rest) table ↔
      (∀ r ∈ table, r.id ≠ row.id) ∧
        Completes c rest
          (stampNewest newest (table ++ [row])) := by
  constructor
  · rintro ⟨hLooked, hIds⟩
    rw [own_cons_of_raised hRaised,
      freshIds_cons_iff newest] at hIds
    exact ⟨hIds.1, (List.forall_mem_cons.mp hLooked).2, hIds.2⟩
  · rintro ⟨hHead, hLooked, hIds⟩
    refine ⟨List.forall_mem_cons.mpr ⟨⟨found, hLook⟩, hLooked⟩,
      ?_⟩
    rw [own_cons_of_raised hRaised, freshIds_cons_iff newest]
    exact ⟨hHead, hIds⟩

/- The run returns if no turn raises, and then leaves the
table with its alerts inserted and stamped one by one. -/
structure RunsAs
    (c : RunContext)
    (newest : NewestAlert)
    (turns : List Turn)
    (table : List AlertRow) : Prop where
  returns :
    Completes c turns table →
      ∃ r, runDueScheduledHunts c newest turns table = .ok r
  result :
    ∀ r, runDueScheduledHunts c newest turns table = .ok r →
      Completes c turns table ∧
        r.table = stampAll newest (c.own turns) table

/- A turn without an alert leaves the table to the rest. -/
theorem RunsAs.cons_of_quiet
    {c : RunContext} {newest : NewestAlert} {t : Turn}
    {rest : List Turn} {table : List AlertRow}
    {found : SavedHunt × Option (Option HuntAlert)}
    (hRest : RunsAs c newest rest table)
    (hLook : c.look t = .ok found)
    (hQuiet : found.2 = none ∨ found.2 = some none) :
    RunsAs c newest (t :: rest) table := by
  rcases found with ⟨after, outcome⟩
  have hRaised : c.raised t = none := by
    unfold RunContext.raised
    rw [hLook]
    rcases hQuiet with rfl | rfl <;> rfl
  have hRun :
      ∃ f : RunResult → RunResult,
        (∀ r, (f r).table = r.table) ∧
        runDueScheduledHunts c newest (t :: rest) table =
          (runDueScheduledHunts c newest rest table).map f := by
    rcases hQuiet with rfl | rfl
    · refine ⟨fun r => { r with hunts := after :: r.hunts },
        fun _ => rfl, ?_⟩
      simp only [runDueScheduledHunts, hLook, bind, Except.bind]
      cases runDueScheduledHunts c newest rest table <;> rfl
    · refine ⟨fun r =>
          { r with hunts := after :: r.hunts, ran := r.ran + 1 },
        fun _ => rfl, ?_⟩
      simp only [runDueScheduledHunts, hLook, bind, Except.bind]
      cases runDueScheduledHunts c newest rest table <;> rfl
  rcases hRun with ⟨f, hTable, hRun⟩
  refine ⟨?_, ?_⟩
  · intro hDone
    rw [completes_cons_of_quiet hLook hRaised] at hDone
    rcases hRest.returns hDone with ⟨r, hOk⟩
    rw [hRun, hOk]
    exact ⟨f r, rfl⟩
  · intro r hOk
    rw [hRun] at hOk
    cases hLater : runDueScheduledHunts c newest rest table with
    | error e =>
        rw [hLater] at hOk
        cases hOk
    | ok later =>
        rw [hLater] at hOk
        cases hOk
        rw [completes_cons_of_quiet hLook hRaised,
          own_cons_of_quiet hRaised, hTable]
        exact hRest.result later hLater

/- A turn with an alert leaves it the table with the stamp. -/
theorem RunsAs.cons_of_raised
    {c : RunContext} {newest : NewestAlert} {t : Turn}
    {rest : List Turn} {table : List AlertRow} {after : SavedHunt}
    {alert : HuntAlert}
    (hRest :
      RunsAs c newest rest
        (stampNewest newest (table ++ [t.row alert])))
    (hLook : c.look t = .ok (after, some (some alert))) :
    RunsAs c newest (t :: rest) table := by
  have hRaised : c.raised t = some (t.row alert) := by
    unfold RunContext.raised
    rw [hLook]
  have hCompletes :=
    completes_cons_of_raised newest hLook hRaised rest table
  rcases insertAlert_cases table (t.row alert) with
    ⟨hInsert, hFresh⟩ | ⟨hInsert, other, hOther, hId⟩
  · refine ⟨?_, ?_⟩
    · intro hDone
      rcases hRest.returns (hCompletes.mp hDone).2 with
        ⟨r, hOk⟩
      simp only [runDueScheduledHunts, hLook, bind, Except.bind,
        hInsert, hOk]
      exact ⟨_, rfl⟩
    · intro r hOk
      simp only [runDueScheduledHunts, hLook, bind, Except.bind,
        hInsert] at hOk
      cases hLater : runDueScheduledHunts c newest rest
          (stampNewest newest (table ++ [t.row alert])) with
      | error e =>
          rw [hLater] at hOk
          cases hOk
      | ok later =>
          rw [hLater] at hOk
          cases hOk
          have hParts := hRest.result later hLater
          rw [hCompletes, own_cons_of_raised hRaised]
          exact ⟨⟨hFresh, hParts.1⟩, hParts.2⟩
  · refine ⟨?_, ?_⟩
    · intro hDone
      exact absurd hId ((hCompletes.mp hDone).1 other hOther)
    · intro r hOk
      simp only [runDueScheduledHunts, hLook, bind, Except.bind,
        hInsert] at hOk
      cases hOk

theorem runDue_alerts
    (c : RunContext) (newest : NewestAlert) (turns : List Turn)
    (table : List AlertRow) :
    RunsAs c newest turns table := by
  induction turns generalizing table with
  | nil =>
      refine ⟨fun _ => ⟨_, rfl⟩, ?_⟩
      intro r hRun
      cases hRun
      exact ⟨⟨List.forall_mem_nil _, List.forall_mem_nil _,
        List.Pairwise.nil⟩, rfl⟩
  | cons t rest ih =>
      cases hLook : c.look t with
      | error e =>
          refine ⟨?_, ?_⟩
          · intro hDone
            rcases hDone.looked t List.mem_cons_self with
              ⟨found, hFound⟩
            rw [hLook] at hFound
            cases hFound
          · intro r hRun
            simp only [runDueScheduledHunts, hLook, bind,
              Except.bind] at hRun
            cases hRun
      | ok found =>
          rcases found with ⟨after, outcome⟩
          cases outcome with
          | none =>
              exact (ih table).cons_of_quiet hLook
                (Or.inl rfl)
          | some raised =>
              cases raised with
              | none =>
                  exact (ih table).cons_of_quiet hLook
                    (Or.inr rfl)
              | some alert =>
                  exact RunsAs.cons_of_raised (ih _) hLook

/- A run stamps its own alerts and leaves the others as they
are, whichever newest alert the database returns. -/
def StampsOwn
    (c : RunContext)
    (turns : List Turn)
    (table : List AlertRow) : Prop :=
  ∀ newest r,
    runDueScheduledHunts c newest turns table = .ok r →
      r.table = table ++ (c.own turns).map AlertRow.stamped

theorem stampsOwn_of_newest
    {c : RunContext} {turns : List Turn} {table : List AlertRow}
    (hNewest :
      Completes c turns table →
        StrictlyNewest (c.own turns) table) :
    StampsOwn c turns table := by
  intro newest r hRun
  rcases (runDue_alerts c newest turns table).result r hRun with
    ⟨hDone, hTable⟩
  rw [hTable]
  exact stampAll_of_newest newest (hNewest hDone) hDone.ids

theorem newest_of_stampsOwn
    {c : RunContext} {turns : List Turn} {table : List AlertRow}
    (hOwn : StampsOwn c turns table)
    (hDone : Completes c turns table) :
    StrictlyNewest (c.own turns) table := by
  have hAlerts := runDue_alerts c firstNewest turns table
  rcases hAlerts.returns hDone with ⟨r, hRun⟩
  apply newest_of_stampAll hDone.ids
  · intro row hRow
    exact own_plain hRow
  · rw [← (hAlerts.result r hRun).2]
    exact hOwn firstNewest r hRun

/- A run stamps exactly its own alerts if and only if it
raises, or each of its alerts is later, to the second, than
all alerts there are when it is inserted. -/
theorem hunts_stamp_own_iff
    (c : RunContext)
    (turns : List Turn)
    (table : List AlertRow) :
    StampsOwn c turns table ↔
      (Completes c turns table →
        StrictlyNewest (c.own turns) table) :=
  ⟨newest_of_stampsOwn, stampsOwn_of_newest⟩

end

---- An Alert Of The Same Second

local instance stampingUnicode : Unicode := asciiTables

local instance stampingPatterns : RegexEngine := noPatterns

local instance stampingDates : IsoDates := newYearDates

/- A run at two o'clock. -/
def atTwo : RunContext where
  events := newestRows
  iocHits := fun _ => .ok 0
  now := twoOClock

/- The turn of the hunt for every event, with one event. -/
def turnAtTwo : Turn where
  hunt := { toHuntRow := everyEvent, domain := lit "siem" }
  events := [storedAt midnight]
  searched := twoOClock
  written := twoOClock
  uuid := lit "A-2"

/- An alert that the engine raised in the same second. -/
def engineAlert : AlertRow where
  id := lit "A-1"
  ts := twoOClock.iso
  ruleId := lit "R-ENGINE"
  alert := huntAlert everyEvent
    ⟨0, 0, parseQuery [], none, [], none, none⟩ 0

theorem turnAtTwo_raises :
    ∃ after alert,
      atTwo.look turnAtTwo = .ok (after, some (some alert)) := by
  have hMatching :
      storedAt midnight ∈
        everyEvent.matching [storedAt midnight] twoOClock :=
    storedAt_matching (le_refl _) 0
  have hMatched :
      storedAt midnight ∈
        everyEvent.matched newestRows [storedAt midnight]
          twoOClock := by
    refine (mem_matched_iff_first rfl ?_ _).mpr hMatching
    exact (needed_length_le _ _ _).trans (by decide)
  rcases runScheduled_of_due newestRows [storedAt midnight]
    twoOClock (show 0 < everyEvent.scheduleMinutes by decide)
    (show everyEvent.isDue twoOClock = .ok true from rfl) with
    ⟨outcome, hRun⟩
  rcases runScheduled_cases hRun with
    ⟨hNone, _⟩ | ⟨_, hSome, _, _, hNew, hAlert⟩
  · cases hNone
  · cases hSome
    have hPositive : 0 < outcome.newHits := by
      rw [hNew]
      exact List.length_pos_of_mem hMatched
    rcases Option.isSome_iff_exists.mp
      (hAlert.mpr ⟨hPositive, rfl⟩) with ⟨alert, hIs⟩
    unfold RunContext.look
    rw [if_neg (by decide)]
    have hSame :
        runScheduled atTwo.events turnAtTwo.events atTwo.now
          turnAtTwo.searched turnAtTwo.hunt.toHuntRow =
            runScheduled newestRows [storedAt midnight]
              twoOClock twoOClock everyEvent := rfl
    simp only [hSame, hRun, bind, Except.bind, Option.map_some,
      hIs]
    exact ⟨_, _, rfl⟩

/- The engine's alert can be stamped in place of the hunt's. -/
theorem same_second_stamped :
    ¬ StampsOwn atTwo [turnAtTwo] [engineAlert] := by
  intro hOwn
  rcases turnAtTwo_raises with ⟨after, alert, hLook⟩
  have hRaised :
      atTwo.raised turnAtTwo = some (turnAtTwo.row alert) := by
    unfold RunContext.raised
    rw [hLook]
  have hRows :
      atTwo.own [turnAtTwo] = [turnAtTwo.row alert] := by
    rw [own_cons_of_raised hRaised]
    rfl
  have hDone : Completes atTwo [turnAtTwo] [engineAlert] := by
    refine ⟨List.forall_mem_singleton.mpr ⟨_, hLook⟩, ?_⟩
    rw [hRows]
    refine ⟨?_, List.pairwise_singleton _ _⟩
    rw [List.forall_mem_singleton, List.forall_mem_singleton]
    show lit "A-1" ≠ lit "A-2"
    decide
  have hNewest := newest_of_stampsOwn hOwn hDone
  rw [hRows] at hNewest
  have hLess :=
    hNewest.later _ (List.mem_singleton_self _) _
      (List.mem_singleton_self _)
  exact lt_irrefl _ hLess

end ThreatOrbit.Hunting
