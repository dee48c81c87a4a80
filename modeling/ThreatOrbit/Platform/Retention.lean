import ThreatOrbit.Lib.Python
import ThreatOrbit.Lib.Run
import ThreatOrbit.Lib.Utc

/-
  The purge of what is past its retention, table by table and
  workspace by workspace, while other requests insert rows.

  The rows of a scope are selected, written to every archive
  that is set up, and then deleted by a statement of its own.
-/

---- Settings

namespace ThreatOrbit.Platform

open Lib

section

/- A row of one of the tables that are purged. -/
structure RetainedRow where
  table : Str
  id : Str
  orgId : Str
  time : UtcTime
deriving DecidableEq

/- The column `ts`. -/
def RetainedRow.ts (r : RetainedRow) : Str :=
  r.time.text

/- Where rows are archived: a directory, or a bucket. -/
inductive ArchiveTarget where
| directory
| bucket
deriving DecidableEq, Repr

/- What a purge reads before it starts: the settings, whether
workspaces are isolated, their ids, the archives that are
set up, and the clock. -/
structure RetentionSetup where
  settings : Str → Option Str
  isdigit : Str → Bool
  isolated : Bool
  orgs : List Str
  targets : List ArchiveTarget
  now : UtcTime
  orgs_nodup : orgs.Nodup

variable (d : RetentionSetup)

/- `int(row["value"]) if row and row["value"].isdigit()`. -/
def RetentionSetup.days
    (key : Str) : Except PyError (Option Int) :=
  match d.settings key with
  | none => .ok none
  | some value =>
      if d.isdigit value then
        match readInt value with
        | none => .error .valueError
        | some days => .ok (some days)
      else .ok none

def RetentionSetup.defaultDays : Except PyError Int :=
  (d.days (lit "data_retention_days")).map (·.getD 90)

def RetentionSetup.daysFor (table : Str) : Except PyError Int := do
  let default ← d.defaultDays
  let own ← d.days (lit "retention_days_" ++ table)
  pure (own.getD default)

/- The days of a table in a workspace, with
`org_retention_days`. -/
def RetentionSetup.scopeDays
    (table : Str) : Option Str → Except PyError Int
| none | some [] => d.daysFor table
| some org => do
    let default ← d.daysFor table
    let own ← d.days (lit "org_retention_days:" ++ org)
    pure (own.getD default)

/- `(now - timedelta(days=days)).replace(microsecond=0)`, as
text. -/
def cutoffText (now : UtcTime) (days : Int) : Except PyError Str :=
  let second : Int := now.second - 86400 * days
  if 0 ≤ second ∧ second < calendarSeconds then
    .ok (isoSecond second.toNat)
  else .error .overflowError

/- A table in a workspace, or in all, and the text that its
rows are compared with. -/
structure RetentionScope where
  table : Str
  org : Option Str
  cutoff : Str
deriving DecidableEq

def RetentionSetup.scope
    (table : Str)
    (org : Option Str) : Except PyError RetentionScope := do
  let days ← d.scopeDays table org
  let cutoff ← cutoffText d.now days
  pure ⟨table, org, cutoff⟩

/- The rows of a table in a workspace. -/
def inPlace (place : Str × Option Str) (r : RetainedRow) : Bool :=
  r.table = place.1 &&
    match place.2 with
    | none => true
    | some org => r.orgId = org

def RetentionScope.place (s : RetentionScope) : Str × Option Str :=
  (s.table, s.org)

/- `ts < ? AND org_id=?`. -/
def RetentionScope.dooms
    (s : RetentionScope)
    (r : RetainedRow) : Bool :=
  inPlace s.place r && r.ts < s.cutoff

def retentionTables : List Str :=
  [lit "alerts", lit "events", lit "dark_web_findings",
    lit "scans", lit "notifications"]

def RetentionSetup.orgIds : List (Option Str) :=
  if d.isolated then d.orgs.map some else [none]

/- What the loops do one after the other. -/
inductive RetentionTask where
| window (table : Str)
| purge (table : Str) (org : Option Str)
deriving DecidableEq

def RetentionSetup.plan : List RetentionTask :=
  retentionTables.flatMap fun table =>
    .window table :: d.orgIds.map (.purge table)

end

---- Purges

/- Where a purge is: between two scopes, after the SELECT of a
scope with the archives that are still to be written, or at
its end. -/
inductive PurgePhase where
| ready
| archiving
    (scope : RetentionScope)
    (doomed : List RetainedRow)
    (left : List ArchiveTarget)
| committed
| raised (error : PyError)

/- A purge under way: the rows that its statements see, the
rows it has deleted, what it has written, what it will
return, and what is left to do. -/
structure Purging where
  rows : List RetainedRow
  removed : List RetainedRow
  archive : ArchiveTarget → List RetainedRow
  windows : List (Str × Int)
  counts : List (Str × Nat)
  failed : List RetentionScope
  plan : List RetentionTask
  phase : PurgePhase

/- The start of `enforce_retention`. -/
def RetentionSetup.begin
    (d : RetentionSetup)
    (rows : List RetainedRow) : Purging where
  rows := rows
  removed := []
  archive := fun _ => []
  windows := []
  counts := []
  failed := []
  plan := d.plan
  phase := .ready

/- An insert of another request; an id is taken once in a
table. -/
def Purging.insert (p : Purging) (r : RetainedRow) : Purging :=
  if p.rows.any fun s => s.table = r.table && s.id = r.id then p
  else { p with rows := p.rows ++ [r] }

/- An exception that is not caught: the transaction is rolled
back. -/
def Purging.raise (p : Purging) (error : PyError) : Purging :=
  { p with
    rows := p.rows ++ p.removed
    removed := []
    phase := .raised error }

/- `SELECT * FROM … WHERE …`; `archive_rows` has nothing to
write where no row is found. -/
def Purging.select
    (p : Purging)
    (targets : List ArchiveTarget)
    (scope : RetentionScope) : Purging :=
  let doomed := p.rows.filter scope.dooms
  { p with
    phase := .archiving scope doomed
      (if doomed = [] then [] else targets) }

/- `_write_local` or `_write_s3`. -/
def Purging.write
    (p : Purging)
    (scope : RetentionScope)
    (doomed : List RetainedRow)
    (target : ArchiveTarget)
    (left : List ArchiveTarget) : Purging :=
  { p with
    archive := fun t =>
      if t = target then p.archive t ++ doomed else p.archive t
    phase := .archiving scope doomed left }

/- A write that raises `OSError`: the scope is left as it
is. -/
def Purging.skip (p : Purging) (scope : RetentionScope) : Purging :=
  { p with failed := p.failed ++ [scope], phase := .ready }

/- `DELETE FROM … WHERE …`. -/
def Purging.delete
    (p : Purging)
    (scope : RetentionScope) : Purging :=
  let gone := p.rows.filter scope.dooms
  { p with
    rows := p.rows.filter fun r => !scope.dooms r
    removed := p.removed ++ gone
    counts := p.counts ++ [(scope.table, gone.length)]
    phase := .ready }

/- The next statement of the purge; a write works, or it
fails. -/
def Purging.next
    (d : RetentionSetup)
    (works : Bool)
    (p : Purging) : Purging :=
  match p.phase with
  | .committed | .raised _ => p
  | .ready =>
      match p.plan with
      | [] => { p with phase := .committed }
      | .window table :: rest =>
          match d.daysFor table with
          | .error error => p.raise error
          | .ok days =>
              { p with
                windows := p.windows ++ [(table, days)]
                plan := rest }
      | .purge table org :: rest =>
          match d.scope table org with
          | .error error => p.raise error
          | .ok scope =>
              Purging.select { p with plan := rest } d.targets
                scope
  | .archiving scope _ [] => p.delete scope
  | .archiving scope doomed (target :: left) =>
      if works then p.write scope doomed target left
      else p.skip scope

/- What may happen while a purge is under way. -/
inductive PurgeEvent where
| insert (row : RetainedRow)
| next (works : Bool)

def Purging.after
    (d : RetentionSetup)
    (p : Purging) : PurgeEvent → Purging
| .insert row => p.insert row
| .next works => p.next d works

def PurgeStep
    (d : RetentionSetup)
    (p : Purging)
    (e : PurgeEvent)
    (q : Purging) : Prop :=
  q = p.after d e

/- What `enforce_retention` returns: an archive that failed is
an error of its table. -/
structure RetentionReport where
  retentionDays : Except PyError Int
  perTableDays : List (Str × Int)
  purged : List (Str × Nat)
  archived : List (Str × Option Nat)

def Purging.total (p : Purging) (table : Str) : Nat :=
  ((p.counts.filter fun c => c.1 = table).map Prod.snd).sum

def Purging.report
    (d : RetentionSetup)
    (p : Purging) : RetentionReport where
  retentionDays := d.defaultDays
  perTableDays := p.windows
  purged := retentionTables.map fun t => (t, p.total t)
  archived :=
    if d.targets = [] then []
    else
      retentionTables.map fun t =>
        (t, if p.failed.any (fun s => s.table = t) then none
          else some (p.total t))

---- Windows

section

/- The days that the rows of its table are kept in the
workspace of a row. -/
def RetentionSetup.windowOf
    (d : RetentionSetup)
    (r : RetainedRow) : Except PyError Int :=
  d.scopeDays r.table (if d.isolated then some r.orgId else none)

/- A row from before the window of its workspace, neither in
it nor at its start. -/
def Expired (d : RetentionSetup) (r : RetainedRow) : Prop :=
  ∃ days, d.windowOf r = .ok days ∧
    (r.time.micros : Int) < d.now.micros - days * 86400000000

variable {d : RetentionSetup}

/- A cutoff is the text of the second its window starts in. -/
theorem cutoffText_ok
    {now : UtcTime} {days : Int} {cutoff : Str}
    (hCutoff : cutoffText now days = .ok cutoff) :
    ∃ second : Nat,
      second < calendarSeconds ∧ cutoff = isoSecond second ∧
        (second : Int) = now.second - 86400 * days := by
  unfold cutoffText at hCutoff
  dsimp only at hCutoff
  split at hCutoff
  · rename_i hBounds
    cases hCutoff
    refine ⟨_, ?_, rfl, ?_⟩
    · have hBelow := hBounds.2
      omega
    · exact Int.toNat_of_nonneg hBounds.1
  · cases hCutoff

theorem scope_ok
    {table : Str} {org : Option Str} {scope : RetentionScope}
    (hScope : d.scope table org = .ok scope) :
    scope.table = table ∧ scope.org = org ∧
      ∃ days, d.scopeDays table org = .ok days ∧
        cutoffText d.now days = .ok scope.cutoff := by
  unfold RetentionSetup.scope at hScope
  cases hDays : d.scopeDays table org with
  | error error =>
      rw [hDays] at hScope
      cases hScope
  | ok days =>
      rw [hDays] at hScope
      cases hCutoff : cutoffText d.now days with
      | error error =>
          change (cutoffText d.now days).bind _ = _ at hScope
          rw [hCutoff] at hScope
          cases hScope
      | ok cutoff =>
          change (cutoffText d.now days).bind _ = _ at hScope
          rw [hCutoff] at hScope
          cases hScope
          exact ⟨rfl, rfl, days, rfl, hCutoff⟩

theorem dooms_iff
    {scope : RetentionScope} {r : RetainedRow} :
    scope.dooms r = true ↔
      inPlace scope.place r = true ∧ r.ts < scope.cutoff := by
  unfold RetentionScope.dooms
  rw [Bool.and_eq_true, decide_eq_true_eq]

/- The workspace that the days of a row are read for. -/
theorem windowOf_of_inPlace
    {table : Str} {org : Option Str} {r : RetainedRow}
    (hOrg : org ∈ d.orgIds) (hIn : inPlace (table, org) r = true) :
    d.windowOf r = d.scopeDays table org := by
  unfold inPlace at hIn
  rw [Bool.and_eq_true, decide_eq_true_eq] at hIn
  unfold RetentionSetup.orgIds at hOrg
  unfold RetentionSetup.windowOf
  rw [hIn.1]
  split at hOrg
  · rename_i hIsolated
    rcases List.mem_map.mp hOrg with ⟨id, _, rfl⟩
    rw [if_pos hIsolated, of_decide_eq_true hIn.2]
  · rename_i hShared
    rw [if_neg hShared, List.mem_singleton.mp hOrg]

/- What a scope dooms is past the window of its workspace. -/
theorem expired_of_dooms
    {scope : RetentionScope} {r : RetainedRow}
    (hScope : d.scope scope.table scope.org = .ok scope)
    (hOrg : scope.org ∈ d.orgIds) (hDooms : scope.dooms r = true) :
    Expired d r := by
  rcases dooms_iff.mp hDooms with ⟨hIn, hBefore⟩
  rcases (scope_ok hScope).2.2 with ⟨days, hDays, hCutoff⟩
  rcases cutoffText_ok hCutoff with
    ⟨second, hBound, hText, hSecond⟩
  refine ⟨days, (windowOf_of_inPlace hOrg hIn).trans hDays, ?_⟩
  rw [hText] at hBefore
  have hEarlier := (r.time.text_lt_iff hBound).mp hBefore
  have hMicro := r.time.micro_lt
  unfold UtcTime.micros
  push_cast
  omega

end

---- Places

section

/- No row is in both places. -/
def PlacesApart (a b : Str × Option Str) : Prop :=
  ∀ r, ¬ (inPlace a r = true ∧ inPlace b r = true)

def RetentionTask.places :
    RetentionTask → List (Str × Option Str)
| .window _ => []
| .purge table org => [(table, org)]

def PurgePhase.places : PurgePhase → List (Str × Option Str)
| .archiving scope _ _ => [scope.place]
| .ready | .committed | .raised _ => []

/- The places that are still to be purged. -/
def Purging.pending (p : Purging) : List (Str × Option Str) :=
  p.phase.places ++ p.plan.flatMap RetentionTask.places

variable {d : RetentionSetup}

theorem places_plan :
    d.plan.flatMap RetentionTask.places =
      retentionTables.flatMap fun table =>
        d.orgIds.map (Prod.mk table) := by
  unfold RetentionSetup.plan
  rw [List.flatMap_assoc]
  congr 1
  funext table
  rw [List.flatMap_cons, List.flatMap_map]
  exact List.map_eq_flatMap.symm

theorem apart_of_tables
    {a b : Str × Option Str}
    (hTables : a.1 ≠ b.1) :
    PlacesApart a b := by
  rintro r ⟨hA, hB⟩
  unfold inPlace at hA hB
  rw [Bool.and_eq_true, decide_eq_true_eq] at hA hB
  exact hTables (hA.1.symm.trans hB.1)

/- The places of a purge have no row in common. -/
theorem purgePlaces_apart :
    (d.plan.flatMap RetentionTask.places).Pairwise PlacesApart := by
  rw [places_plan, List.pairwise_flatMap]
  have hNodup : retentionTables.Nodup := by decide
  refine ⟨?_, hNodup.imp ?_⟩
  · intro table _
    rw [List.pairwise_map]
    unfold RetentionSetup.orgIds
    split
    · rw [List.pairwise_map]
      refine d.orgs_nodup.imp ?_
      rintro a b hNe r ⟨hA, hB⟩
      unfold inPlace at hA hB
      rw [Bool.and_eq_true] at hA hB
      exact hNe ((of_decide_eq_true hA.2).symm.trans
        (of_decide_eq_true hB.2))
    · exact List.pairwise_singleton _ _
  · intro first second hNe a hA b hB
    rcases List.mem_map.mp hA with ⟨_, _, rfl⟩
    rcases List.mem_map.mp hB with ⟨_, _, rfl⟩
    exact apart_of_tables hNe

theorem org_of_mem_places
    {a : Str × Option Str}
    (hMem : a ∈ d.plan.flatMap RetentionTask.places) :
    a.2 ∈ d.orgIds := by
  rw [places_plan] at hMem
  rcases List.mem_flatMap.mp hMem with ⟨table, _, hOrg⟩
  rcases List.mem_map.mp hOrg with ⟨org, hIn, rfl⟩
  exact hIn

end

---- Statements

section

variable {d : RetentionSetup}
variable {p : Purging}

/- The rows that a purge has deleted are in every archive, and
were past their windows; and it has deleted no row of a
scope that could not be archived. -/
structure NothingLost
    (d : RetentionSetup)
    (p : Purging) : Prop where
  archived :
    ∀ r ∈ p.removed, ∀ t ∈ d.targets, r ∈ p.archive t
  expired : ∀ r ∈ p.removed, Expired d r
  spared :
    ∀ s ∈ p.failed, ∀ r ∈ p.removed, inPlace s.place r = false

/- A scope between its SELECT and its DELETE: what was found
is in the archives but for those that are left, and, while
no row came too late, what is there to be deleted was found. -/
structure Underway
    (timely : Prop)
    (d : RetentionSetup)
    (p : Purging)
    (scope : RetentionScope)
    (doomed : List RetainedRow)
    (left : List ArchiveTarget) : Prop where
  derived : d.scope scope.table scope.org = .ok scope
  written :
    ∀ r ∈ doomed, ∀ t ∈ d.targets, t ∈ left ∨ r ∈ p.archive t
  found :
    timely → ∀ r ∈ p.rows, scope.dooms r = true → r ∈ doomed

/- The places that are still to be purged have no row in common
with one another, with what was deleted, or with what could
not be archived. -/
structure Separate
    (d : RetentionSetup)
    (removed : List RetainedRow)
    (failed : List RetentionScope)
    (pending : List (Str × Option Str)) : Prop where
  apart : pending.Pairwise PlacesApart
  known : ∀ a ∈ pending, a.2 ∈ d.orgIds
  untouched : ∀ r ∈ removed, ∀ a ∈ pending, inPlace a r = false
  skipped : ∀ s ∈ failed, ∀ a ∈ pending, PlacesApart s.place a

/- The invariant of a purge; only what is said of the archives
depends on the rows that are inserted. -/
structure Orderly
    (timely : Prop)
    (d : RetentionSetup)
    (p : Purging) : Prop where
  archived :
    timely → ∀ r ∈ p.removed, ∀ t ∈ d.targets, r ∈ p.archive t
  expired : ∀ r ∈ p.removed, Expired d r
  spared :
    ∀ s ∈ p.failed, ∀ r ∈ p.removed, inPlace s.place r = false
  separate : Separate d p.removed p.failed p.pending
  underway :
    ∀ scope doomed left,
      p.phase = .archiving scope doomed left →
        Underway timely d p scope doomed left

variable {timely : Prop}

theorem orderly_begin (rows : List RetainedRow) :
    Orderly timely d (d.begin rows) where
  archived _ := List.forall_mem_nil _
  expired := List.forall_mem_nil _
  spared := List.forall_mem_nil _
  separate :=
    ⟨purgePlaces_apart, fun _ hMem => org_of_mem_places hMem,
      List.forall_mem_nil _, List.forall_mem_nil _⟩
  underway _ _ _ hPhase := by cases hPhase

/- A row is inserted: not one that a scope between its SELECT
and its DELETE dooms. -/
theorem orderly_insert
    {r : RetainedRow}
    (hInv : Orderly timely d p)
    (hTimely :
      timely → ∀ scope doomed left,
        p.phase = .archiving scope doomed left →
          scope.dooms r = false) :
    Orderly timely d (p.insert r) := by
  unfold Purging.insert
  split
  · exact hInv
  · refine ⟨hInv.archived, hInv.expired, hInv.spared,
      hInv.separate, ?_⟩
    intro scope doomed left hPhase
    have hNow := hInv.underway scope doomed left hPhase
    refine ⟨hNow.derived, hNow.written, ?_⟩
    intro hIn s hMem hDooms
    rcases List.mem_append.mp hMem with hOld | hNew
    · exact hNow.found hIn s hOld hDooms
    · rw [List.mem_singleton.mp hNew,
        hTimely hIn scope doomed left hPhase] at hDooms
      cases hDooms

/- An exception gives the rows back. -/
theorem orderly_raise
    (hInv : Orderly timely d p) (hPhase : p.phase = .ready)
    (error : PyError) :
    Orderly timely d (p.raise error) := by
  have hPending : (p.raise error).pending = p.pending := by
    unfold Purging.pending Purging.raise
    rw [hPhase]
    rfl
  refine ⟨fun _ => List.forall_mem_nil _, List.forall_mem_nil _,
    fun _ _ => List.forall_mem_nil _, ?_, ?_⟩
  · rw [hPending]
    exact ⟨hInv.separate.apart, hInv.separate.known,
      List.forall_mem_nil _, hInv.separate.skipped⟩
  · intro scope doomed left hRaised
    cases hRaised

theorem orderly_commit
    (hInv : Orderly timely d p) (hPhase : p.phase = .ready) :
    Orderly timely d { p with phase := .committed } := by
  refine ⟨hInv.archived, hInv.expired, hInv.spared, ?_, ?_⟩
  · have hSeparate := hInv.separate
    unfold Purging.pending at hSeparate
    rw [hPhase] at hSeparate
    exact hSeparate
  · intro scope doomed left hArchiving
    cases hArchiving

theorem orderly_window
    {table : Str} {rest : List RetentionTask}
    (hInv : Orderly timely d p) (hPhase : p.phase = .ready)
    (hPlan : p.plan = .window table :: rest) (days : Int) :
    Orderly timely d
      { p with
        windows := p.windows ++ [(table, days)]
        plan := rest } := by
  refine ⟨hInv.archived, hInv.expired, hInv.spared, ?_, ?_⟩
  · have hSeparate := hInv.separate
    unfold Purging.pending at hSeparate
    rw [hPlan] at hSeparate
    exact hSeparate
  · intro scope doomed left hArchiving
    cases hPhase.symm.trans hArchiving

/- The rows of a scope are selected. -/
theorem orderly_select
    {table : Str} {org : Option Str} {rest : List RetentionTask}
    {scope : RetentionScope}
    (hInv : Orderly timely d p) (hPhase : p.phase = .ready)
    (hPlan : p.plan = .purge table org :: rest)
    (hScope : d.scope table org = .ok scope) :
    Orderly timely d
      (Purging.select { p with plan := rest } d.targets scope) := by
  rcases scope_ok hScope with ⟨rfl, rfl, _⟩
  have hPending :
      (Purging.select { p with plan := rest } d.targets
        scope).pending = p.pending := by
    unfold Purging.pending Purging.select
    rw [hPhase, hPlan]
    rfl
  refine ⟨hInv.archived, hInv.expired, hInv.spared, ?_, ?_⟩
  · rw [hPending]
    exact hInv.separate
  · intro other doomed left hArchiving
    cases hArchiving
    refine ⟨hScope, ?_, ?_⟩
    · intro r hDoomed t hTarget
      refine Or.inl ?_
      rw [if_neg (List.ne_nil_of_mem hDoomed)]
      exact hTarget
    · intro _ r hRow hDooms
      exact List.mem_filter.mpr ⟨hRow, hDooms⟩

/- What was found is written to an archive. -/
theorem orderly_write
    {scope : RetentionScope} {doomed : List RetainedRow}
    {target : ArchiveTarget} {left : List ArchiveTarget}
    (hInv : Orderly timely d p)
    (hPhase : p.phase = .archiving scope doomed (target :: left)) :
    Orderly timely d (p.write scope doomed target left) := by
  have hNow := hInv.underway _ _ _ hPhase
  have hPending :
      (p.write scope doomed target left).pending = p.pending := by
    unfold Purging.pending Purging.write
    rw [hPhase]
    rfl
  have hMore :
      ∀ t, ∀ r ∈ p.archive t,
        r ∈ (p.write scope doomed target left).archive t := by
    intro t r hMem
    unfold Purging.write
    dsimp only
    split
    · exact List.mem_append_left _ hMem
    · exact hMem
  refine ⟨fun hIn r hRow t hTarget => hMore t r
    (hInv.archived hIn r hRow t hTarget),
    hInv.expired, hInv.spared, ?_, ?_⟩
  · rw [hPending]
    exact hInv.separate
  · intro other found rest hArchiving
    cases hArchiving
    refine ⟨hNow.derived, ?_, hNow.found⟩
    intro r hDoomed t hTarget
    rcases hNow.written r hDoomed t hTarget with hLeft | hThere
    · rcases List.mem_cons.mp hLeft with rfl | hRest
      · refine Or.inr ?_
        unfold Purging.write
        dsimp only
        rw [if_pos rfl]
        exact List.mem_append_right _ hDoomed
      · exact Or.inl hRest
    · exact Or.inr (hMore t r hThere)

/- The first of the pending places is done with. -/
theorem Separate.tail
    {removed : List RetainedRow} {failed : List RetentionScope}
    {a : Str × Option Str} {rest : List (Str × Option Str)}
    (hSeparate : Separate d removed failed (a :: rest)) :
    Separate d removed failed rest where
  apart := (List.pairwise_cons.mp hSeparate.apart).2
  known b hb := hSeparate.known b (List.mem_cons_of_mem _ hb)
  untouched r hRow b hb :=
    hSeparate.untouched r hRow b (List.mem_cons_of_mem _ hb)
  skipped s hFailed b hb :=
    hSeparate.skipped s hFailed b (List.mem_cons_of_mem _ hb)

/- An archive fails: the scope is not touched any more. -/
theorem orderly_skip
    {scope : RetentionScope} {doomed : List RetainedRow}
    {left : List ArchiveTarget}
    (hInv : Orderly timely d p)
    (hPhase : p.phase = .archiving scope doomed left) :
    Orderly timely d (p.skip scope) := by
  have hPending :
      p.pending = scope.place :: (p.skip scope).pending := by
    unfold Purging.pending Purging.skip
    rw [hPhase]
    rfl
  have hSeparate := hInv.separate
  rw [hPending] at hSeparate
  have hRest := hSeparate.tail
  refine ⟨hInv.archived, hInv.expired, ?_,
    ⟨hRest.apart, hRest.known, hRest.untouched, ?_⟩, ?_⟩
  · intro s hFailed
    rcases List.mem_append.mp hFailed with hOld | hNew
    · exact hInv.spared s hOld
    · rw [List.mem_singleton.mp hNew]
      exact fun r hRow =>
        hSeparate.untouched r hRow _ List.mem_cons_self
  · intro s hFailed
    rcases List.mem_append.mp hFailed with hOld | hNew
    · exact hRest.skipped s hOld
    · rw [List.mem_singleton.mp hNew]
      exact (List.pairwise_cons.mp hSeparate.apart).1
  · intro other found rest hArchiving
    cases hArchiving

/- The rows of a scope are deleted, after every archive. -/
theorem orderly_delete
    {scope : RetentionScope} {doomed : List RetainedRow}
    (hInv : Orderly timely d p)
    (hPhase : p.phase = .archiving scope doomed []) :
    Orderly timely d (p.delete scope) := by
  have hNow := hInv.underway _ _ _ hPhase
  have hPending :
      p.pending = scope.place :: (p.delete scope).pending := by
    unfold Purging.pending Purging.delete
    rw [hPhase]
    rfl
  have hSeparate := hInv.separate
  rw [hPending] at hSeparate
  have hRest := hSeparate.tail
  -- a row that is deleted is in the place of the scope
  have hElsewhere :
      ∀ r ∈ p.rows.filter scope.dooms, ∀ a,
        PlacesApart scope.place a → inPlace a r = false := by
    intro r hGone a hApart
    have hIn := (dooms_iff.mp (List.mem_filter.mp hGone).2).1
    by_contra hBoth
    exact hApart r ⟨hIn, Bool.eq_true_of_not_eq_false hBoth⟩
  refine ⟨?_, ?_, ?_,
    ⟨hRest.apart, hRest.known, ?_, hRest.skipped⟩, ?_⟩
  · intro hIn r hRow t hTarget
    rcases List.mem_append.mp hRow with hOld | hGone
    · exact hInv.archived hIn r hOld t hTarget
    · rcases List.mem_filter.mp hGone with ⟨hThere, hDooms⟩
      have hFound := hNow.found hIn r hThere hDooms
      rcases hNow.written r hFound t hTarget with hLeft | hIn
      · cases hLeft
      · exact hIn
  · intro r hRow
    rcases List.mem_append.mp hRow with hOld | hGone
    · exact hInv.expired r hOld
    · exact expired_of_dooms hNow.derived
        (hSeparate.known _ List.mem_cons_self)
        (List.mem_filter.mp hGone).2
  · intro s hFailed r hRow
    rcases List.mem_append.mp hRow with hOld | hGone
    · exact hInv.spared s hFailed r hOld
    · exact hElsewhere r hGone s.place fun t hBoth =>
        hSeparate.skipped s hFailed _ List.mem_cons_self t
          hBoth.symm
  · intro r hRow a ha
    rcases List.mem_append.mp hRow with hOld | hGone
    · exact hRest.untouched r hOld a ha
    · exact hElsewhere r hGone a
        ((List.pairwise_cons.mp hSeparate.apart).1 a ha)
  · intro other found rest hArchiving
    cases hArchiving

end

---- Runs

section

/- Whether a row is inserted that a scope dooms, between the
SELECT and the DELETE of the scope. -/
def Purging.late (p : Purging) : PurgeEvent → Bool
| .next _ => false
| .insert r =>
    match p.phase with
    | .archiving scope _ _ => scope.dooms r
    | .ready | .committed | .raised _ => false

def Timely (e : Transition Purging PurgeEvent) : Prop :=
  e.pre.late e.label = false

instance : DecidablePred Timely :=
  fun _ => inferInstanceAs (Decidable (_ = _))

variable {d : RetentionSetup}
variable {p : Purging}
variable {timely : Prop}

/- The next statement keeps the invariant. -/
theorem orderly_next
    (hInv : Orderly timely d p) (works : Bool) :
    Orderly timely d (p.next d works) := by
  unfold Purging.next
  cases hPhase : p.phase with
  | committed => exact hInv
  | raised error => exact hInv
  | ready =>
      dsimp only
      cases hPlan : p.plan with
      | nil =>
          have hDone := orderly_commit hInv hPhase
          rw [hPlan] at hDone
          exact hDone
      | cons task rest =>
          cases task with
          | window table =>
              dsimp only
              cases d.daysFor table with
              | error error => exact orderly_raise hInv hPhase error
              | ok days =>
                  have hNext := orderly_window hInv hPhase hPlan days
                  rw [← hPhase]
                  exact hNext
          | purge table org =>
              dsimp only
              cases hScope : d.scope table org with
              | error error => exact orderly_raise hInv hPhase error
              | ok scope =>
                  exact orderly_select hInv hPhase hPlan hScope
  | archiving scope doomed left =>
      cases left with
      | nil => exact orderly_delete hInv hPhase
      | cons target left =>
          dsimp only
          split
          · exact orderly_write hInv hPhase
          · exact orderly_skip hInv hPhase

/- A step keeps the invariant, if it does not insert a row too
late. -/
theorem orderly_step
    {q : Purging} {e : PurgeEvent}
    (hInv : Orderly timely d p) (hStep : PurgeStep d p e q)
    (hTimely : timely → p.late e = false) :
    Orderly timely d q := by
  rw [hStep]
  cases e with
  | next works => exact orderly_next hInv works
  | insert r =>
      refine orderly_insert hInv ?_
      intro hIn scope doomed left hPhase
      have hEarly := hTimely hIn
      unfold Purging.late at hEarly
      rw [hPhase] at hEarly
      exact hEarly

/- Every run keeps the invariant, as far as its steps are
timely. -/
theorem orderly_run
    {rows : List RetainedRow}
    {trace : List (Transition Purging PurgeEvent)}
    (hRun : Run (PurgeStep d) (d.begin rows) trace p)
    (hTimely : timely → ∀ e ∈ trace, Timely e) :
    Orderly timely d p ∧ ∀ e ∈ trace, Orderly timely d e.post := by
  have hKeep :
      ∀ s e t, Orderly timely d s →
        PurgeStep d s e t ∧ (timely → Timely ⟨s, e, t⟩) →
          Orderly timely d t :=
    fun _ _ _ hInv hStep => orderly_step hInv hStep.1 hStep.2
  have hOwn :=
    hRun.restrict
      (C := fun e => timely → Timely e)
      fun e hMem hIn => hTimely hIn e hMem
  refine ⟨hOwn.invariant hKeep (orderly_begin rows), ?_⟩
  intro e hMem
  rcases hOwn.forall_step hKeep (orderly_begin rows) e hMem with
    ⟨hInv, hStep⟩
  exact hKeep _ _ _ hInv hStep

/- Whatever is inserted, no row of a window is deleted, and no
row of a scope that could not be archived. -/
theorem purge_keeps_windows
    {rows : List RetainedRow}
    {trace : List (Transition Purging PurgeEvent)}
    (hRun : Run (PurgeStep d) (d.begin rows) trace p) :
    (∀ r ∈ p.removed, Expired d r) ∧
      ∀ s ∈ p.failed, ∀ r ∈ p.removed,
        inPlace s.place r = false := by
  have hInv : Orderly False d p :=
    (orderly_run hRun False.elim).1
  exact ⟨hInv.expired, hInv.spared⟩

theorem Orderly.lossless
    (hInv : Orderly True d p) :
    NothingLost d p where
  archived := hInv.archived trivial
  expired := hInv.expired
  spared := hInv.spared

/- In a run in which no row is inserted too late, nothing is
lost: whatever else is inserted and when, whichever archives
fail and whatever the settings are. -/
theorem purge_nothing_lost
    {rows : List RetainedRow}
    {trace : List (Transition Purging PurgeEvent)}
    (hRun : Run (PurgeStep d) (d.begin rows) trace p)
    (hTimely : ∀ e ∈ trace, Timely e) :
    NothingLost d p ∧ ∀ e ∈ trace, NothingLost d e.post := by
  rcases orderly_run hRun (fun _ : True => hTimely) with
    ⟨hEnd, hEach⟩
  exact ⟨hEnd.lossless,
    fun e hMem => (hEach e hMem).lossless⟩

end

---- What Becomes Of A Late Row

section

variable {d : RetentionSetup}
variable {p : Purging}

end

---- What Is Reported

section

variable {d : RetentionSetup}
variable {p : Purging}

/- The count of each table is that of its deleted rows, unless
the purge was given up. -/
def Counted (p : Purging) : Prop :=
  (∃ error, p.phase = .raised error) ∨
    ∀ table, p.total table = p.removed.countP (·.table = table)

end

---- A Row That Comes Too Late

/- The run of some events. -/
def purgeTrace (d : RetentionSetup) :
    Purging → List PurgeEvent →
      List (Transition Purging PurgeEvent)
| _, [] => []
| p, e :: rest =>
    ⟨p, e, p.after d e⟩ :: purgeTrace d (p.after d e) rest

theorem run_purgeTrace
    (d : RetentionSetup) (p : Purging) (events : List PurgeEvent) :
    Run (PurgeStep d) p (purgeTrace d p events)
      (events.foldl (Purging.after d) p) := by
  induction events generalizing p with
  | nil => exact .nil p
  | cons e rest ih => exact .cons rfl (ih _)

/- One directory to archive to, no settings, and the start of
2026. -/
def newYear : RetentionSetup where
  settings _ := none
  isdigit s := s != [] && s.all isDigit
  isolated := false
  orgs := []
  targets := [.directory]
  now := ⟨63902822400, 0, by decide, by decide⟩
  orgs_nodup := List.nodup_nil

/- An alert from some days before. -/
def alertBefore (id : String) (days : Nat) : RetainedRow where
  table := lit "alerts"
  id := lit id
  orgId := lit "org-default"
  time :=
    ⟨63902822400 - 86400 * (days % 365), 0,
      lt_of_le_of_lt (Nat.sub_le _ _) (by decide), by decide⟩

/- The events up to the DELETE of the alerts, with an alert
inserted after their SELECT. -/
def alertsPurged (r : RetainedRow) : List PurgeEvent :=
  [.next true, .next true, .insert r, .next true, .next true]

theorem new_alert_spared :
    NothingLost newYear
      ((alertsPurged (alertBefore "new" 1)).foldl
        (Purging.after newYear)
        (newYear.begin [alertBefore "old" 120])) :=
  (purge_nothing_lost
    (run_purgeTrace newYear _ (alertsPurged (alertBefore "new" 1)))
    (by decide +kernel)).1

theorem alerts_purged_old :
    let p := (alertsPurged (alertBefore "new" 1)).foldl
      (Purging.after newYear) (newYear.begin [alertBefore "old" 120])
    (∀ r ∈ p.removed, Expired newYear r) ∧
      ∀ s ∈ p.failed, ∀ r ∈ p.removed, inPlace s.place r = false :=
  purge_keeps_windows
    (run_purgeTrace newYear _ (alertsPurged (alertBefore "new" 1)))

/- An old alert that is inserted after the SELECT is deleted,
and is in no archive. -/
theorem late_alert_lost :
    ¬ ∀ trace p,
      Run (PurgeStep newYear)
        (newYear.begin [alertBefore "old" 120]) trace p →
          NothingLost newYear p := by
  intro hAll
  have hLost :=
    (hAll _ _ (run_purgeTrace newYear _
      (alertsPurged (alertBefore "late" 100)))).archived
  revert hLost
  decide +kernel

end ThreatOrbit.Platform
