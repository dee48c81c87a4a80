import ThreatOrbit.Lib.Python
import ThreatOrbit.Auth.Accounts

/-
  Purging a workspace over the whole schema.

  The tables with an `org_id` column are those created with
  it and those that a migration adds it to. The purge goes
  over a list of its own, one delete for each table.
-/

---- The Schema

namespace ThreatOrbit.Tenancy

open Lib

/- `TENANT_TABLES`. -/
def tenantTables : List Str :=
  [lit "alerts", lit "iocs", lit "cases", lit "assets",
    lit "detection_rules", lit "events",
    lit "dark_web_findings", lit "threat_actors",
    lit "log_sources", lit "connectors", lit "playbooks",
    lit "playbook_runs", lit "saved_hunts", lit "scans",
    lit "suppressions", lit "notifications",
    lit "saved_views", lit "report_schedules",
    lit "intel_reports"]

/- The other tables of a purge. -/
def extraTables : List Str :=
  [lit "user_org_roles", lit "break_glass", lit "users"]

/- The tables of a purge, in its order. -/
def purgedTables : List Str :=
  tenantTables ++ extraTables

/- The tables that the schema creates with an `org_id`. -/
def createdWithOrg : List Str :=
  [lit "users", lit "roles", lit "ioc_verdicts",
    lit "intel_reports", lit "break_glass",
    lit "user_org_roles"]

/- The tables that a migration adds an `org_id` to, in the
order of `_MIGRATIONS`. -/
def migratedOrg : List Str :=
  [lit "users", lit "alerts", lit "cases", lit "iocs",
    lit "assets", lit "dark_web_findings",
    lit "detection_rules", lit "events",
    lit "threat_actors", lit "log_sources",
    lit "connectors", lit "playbooks",
    lit "playbook_runs", lit "saved_hunts", lit "scans",
    lit "suppressions", lit "notifications",
    lit "saved_views", lit "report_schedules",
    lit "api_keys", lit "webhooks", lit "intel_reports"]

/- The tables with an `org_id` column. -/
def orgTables : List Str :=
  createdWithOrg ++ migratedOrg

/- Those that the purge does not go over. -/
def unpurgedTables : List Str :=
  [lit "api_keys", lit "webhooks", lit "roles",
    lit "ioc_verdicts"]

theorem mem_orgTables_iff (table : Str) :
    table ∈ orgTables ↔
      table ∈ purgedTables ∨ table ∈ unpurgedTables := by
  have hThere :
      ∀ t ∈ orgTables, t ∈ purgedTables ∨ t ∈ unpurgedTables := by
    decide
  have hBack : ∀ t ∈ purgedTables ++ unpurgedTables, t ∈ orgTables := by
    decide
  constructor
  · exact hThere table
  · intro hEither
    exact hBack table (List.mem_append.mpr hEither)

theorem not_mem_purgedTables
    {table : Str}
    (hTable : table ∈ unpurgedTables) :
    table ∉ purgedTables := by
  have hAll : ∀ t ∈ unpurgedTables, t ∉ purgedTables := by
    decide
  exact hAll table hTable

---- The Purge

open Lib Auth

section

/- A row of a table: its `org_id`, if the column has one, and
the rest. -/
structure Row (ρ : Type) where
  orgId : Option Str
  data : ρ

/- The tables of the database by name, and the workspaces by
id. -/
structure OrgDatabase (ρ : Type) where
  rows : Str → List (Row ρ)
  orgs : List (Str × ρ)

def Row.isOf
    {ρ : Type}
    (orgId : Str)
    (r : Row ρ) : Bool :=
  r.orgId = some orgId

/- The row is of the default workspace, by its column or for
want of one. -/
def Row.atHome
    {ρ : Type}
    (r : Row ρ) : Bool :=
  orgOr r.orgId = defaultOrgId

variable {ρ : Type}

/- `DELETE FROM table WHERE org_id=?`. -/
def OrgDatabase.delete
    (db : OrgDatabase ρ)
    (orgId table : Str) : OrgDatabase ρ :=
  { db with
    rows := fun t =>
      if t = table then
        (db.rows t).filter fun r => !r.isOf orgId
      else db.rows t }

/- A purge under way: the tables, and what was deleted. -/
structure Purging (ρ : Type) where
  db : OrgDatabase ρ
  counts : List (Str × Nat)

/- One delete, which counts as none where it raises. -/
def Purging.next
    (raises : Str → Bool)
    (orgId : Str)
    (p : Purging ρ)
    (table : Str) : Purging ρ :=
  if raises table then
    { p with counts := setEntry table 0 p.counts }
  else
    { db := p.db.delete orgId table
      counts :=
        setEntry table
          ((p.db.rows table).countP fun r => r.isOf orgId)
          p.counts }

/- The deletes of some tables. -/
def purgeTables
    (raises : Str → Bool)
    (orgId : Str)
    (tables : List Str)
    (p : Purging ρ) : Purging ρ :=
  tables.foldl (Purging.next raises orgId) p

/- `purge_org`; only the last delete is not guarded. -/
def purgeOrg
    (raises : Str → Bool)
    (db : OrgDatabase ρ)
    (orgId : Str) : Option (Purging ρ) :=
  let p := purgeTables raises orgId purgedTables ⟨db, []⟩
  if raises (lit "orgs") then
    none
  else
    some
      { db :=
          { p.db with
            orgs := p.db.orgs.filter fun o => o.1 ≠ orgId }
        counts :=
          setEntry (lit "orgs")
            (p.db.orgs.countP fun o => o.1 = orgId)
            p.counts }

end

---- What A Purge Leaves

variable {ρ : Type}

/- A purge empties the tables it goes over of the workspace,
where their deletes do not raise. -/
theorem purgeTables_rows
    (raises : Str → Bool) (orgId : Str) (tables : List Str)
    (p : Purging ρ) (t : Str) :
    (purgeTables raises orgId tables p).db.rows t =
      if t ∈ tables ∧ raises t = false then
        (p.db.rows t).filter fun r => !r.isOf orgId
      else p.db.rows t := by
  induction tables generalizing p with
  | nil => simp [purgeTables]
  | cons table rest ih =>
      have hTail := ih (p.next raises orgId table)
      have hHead :
          (p.next raises orgId table).db.rows t =
            if t = table ∧ raises t = false then
              (p.db.rows t).filter fun r => !r.isOf orgId
            else p.db.rows t := by
        unfold Purging.next OrgDatabase.delete
        by_cases hIs : t = table
        · rw [hIs]
          cases raises table with
          | true => simp
          | false => simp
        · cases raises table with
          | true => simp [hIs]
          | false => simp [hIs]
      unfold purgeTables at hTail ⊢
      rw [List.foldl_cons, hTail, hHead]
      simp only [List.mem_cons]
      cases raises t with
      | true => simp
      | false =>
          by_cases hIs : t = table
          · simp [hIs]
          · simp [hIs]

theorem purgeTables_orgs
    (raises : Str → Bool) (orgId : Str) (tables : List Str)
    (p : Purging ρ) :
    (purgeTables raises orgId tables p).db.orgs =
      p.db.orgs := by
  induction tables generalizing p with
  | nil => rfl
  | cons table rest ih =>
      have hTail := ih (p.next raises orgId table)
      have hHead : (p.next raises orgId table).db.orgs = p.db.orgs := by
        unfold Purging.next
        split
        · rfl
        · rfl
      unfold purgeTables at hTail ⊢
      rw [List.foldl_cons, hTail, hHead]

/- The rows of each table after a purge that returns. -/
theorem purgeOrg_some
    {raises : Str → Bool} {db : OrgDatabase ρ} {orgId : Str}
    {after : Purging ρ}
    (hPurge : purgeOrg raises db orgId = some after) :
    raises (lit "orgs") = false ∧
      after.db.orgs = db.orgs.filter (fun o => o.1 ≠ orgId) ∧
      ∀ t, after.db.rows t =
        if t ∈ purgedTables ∧ raises t = false then
          (db.rows t).filter fun r => !r.isOf orgId
        else db.rows t := by
  unfold purgeOrg at hPurge
  cases hRaises : raises (lit "orgs") with
  | true =>
      rw [hRaises] at hPurge
      cases hPurge
  | false =>
      rw [hRaises] at hPurge
      cases hPurge
      refine ⟨rfl, ?_, ?_⟩
      · dsimp only
        rw [purgeTables_orgs]
      · intro t
        exact purgeTables_rows raises orgId purgedTables _ t

/- A purge of a workspace that is complete and contained: no
row of it is left in a table with an `org_id`, the rows of
the others are as they were, and so are those of the
default workspace. -/
structure Purged
    (orgId : Str)
    (before after : OrgDatabase ρ) : Prop where
  complete :
    ∀ t ∈ orgTables, ∀ r ∈ after.rows t, r.isOf orgId = false
  others :
    ∀ t, (after.rows t).filter (fun r => !r.isOf orgId) =
      (before.rows t).filter fun r => !r.isOf orgId
  home :
    ∀ t, (after.rows t).filter Row.atHome =
      (before.rows t).filter Row.atHome
  orgs :
    after.orgs.filter (fun o => o.1 ≠ orgId) =
      before.orgs.filter fun o => o.1 ≠ orgId
  homeOrg :
    after.orgs.filter (fun o => o.1 = defaultOrgId) =
      before.orgs.filter fun o => o.1 = defaultOrgId

/- A table has no row of the workspace. -/
def OrgDatabase.Without
    (db : OrgDatabase ρ)
    (orgId table : Str) : Prop :=
  ∀ r ∈ db.rows table, r.isOf orgId = false

/- The workspace is the default one, or the empty text that
stands for it. -/
def IsHome (orgId : Str) : Prop :=
  orgOr (some orgId) = defaultOrgId

instance (orgId : Str) : Decidable (IsHome orgId) :=
  inferInstanceAs (Decidable (_ = _))

/- What a purge needs to be exact. -/
structure Purgeable
    (raises : Str → Bool)
    (db : OrgDatabase ρ)
    (orgId : Str) : Prop where
  unpurged : ∀ t ∈ unpurgedTables, db.Without orgId t
  guarded :
    ∀ t ∈ purgedTables, raises t = true → db.Without orgId t
  home :
    IsHome orgId → ∀ t ∈ purgedTables, db.Without orgId t
  homeOrg :
    orgId = defaultOrgId → ∀ o ∈ db.orgs, o.1 ≠ orgId

theorem filter_notOf_eq
    {rows : List (Row ρ)} {orgId : Str}
    (hWithout : ∀ r ∈ rows, r.isOf orgId = false) :
    rows.filter (fun r => !r.isOf orgId) = rows := by
  rw [List.filter_eq_self]
  intro r hr
  rw [hWithout r hr]
  rfl

/- A row of a workspace that is not the default one. -/
theorem notOf_of_atHome
    {orgId : Str}
    (hAway : ¬ IsHome orgId) {r : Row ρ} (hHome : r.atHome = true) :
    r.isOf orgId = false := by
  unfold Row.atHome at hHome
  unfold Row.isOf
  rw [decide_eq_false_iff_not]
  intro hIs
  rw [hIs] at hHome
  exact hAway (of_decide_eq_true hHome)

theorem atHome_of_isOf
    {orgId : Str}
    (hHome : IsHome orgId) {r : Row ρ} (hIs : r.isOf orgId = true) :
    r.atHome = true := by
  unfold Row.atHome
  rw [of_decide_eq_true hIs]
  exact decide_eq_true hHome

/- The rows that a delete takes from the default workspace. -/
theorem filter_atHome_iff
    (rows : List (Row ρ)) (orgId : Str) :
    (rows.filter fun r => !r.isOf orgId).filter Row.atHome =
        rows.filter Row.atHome ↔
      (IsHome orgId → ∀ r ∈ rows, r.isOf orgId = false) := by
  constructor
  · intro hSame hHome r hr
    by_contra hIs
    rw [Bool.not_eq_false] at hIs
    have hIn : r ∈ rows.filter Row.atHome :=
      List.mem_filter.mpr ⟨hr, atHome_of_isOf hHome hIs⟩
    rw [← hSame] at hIn
    have hNot :=
      (List.mem_filter.mp (List.mem_filter.mp hIn).1).2
    rw [hIs] at hNot
    cases hNot
  · intro hWithout
    by_cases hHome : IsHome orgId
    · rw [filter_notOf_eq (hWithout hHome)]
    · rw [List.filter_filter]
      apply List.filter_congr
      intro r _
      cases hAt : r.atHome with
      | false => rfl
      | true => rw [notOf_of_atHome hHome hAt]; rfl

theorem filter_homeOrg_iff
    (orgs : List (Str × ρ)) (orgId : Str) :
    (orgs.filter fun o => o.1 ≠ orgId).filter
          (fun o => o.1 = defaultOrgId) =
        orgs.filter (fun o => o.1 = defaultOrgId) ↔
      (orgId = defaultOrgId → ∀ o ∈ orgs, o.1 ≠ orgId) := by
  constructor
  · intro hSame hHome o ho hIs
    have hIn : o ∈ orgs.filter fun o => o.1 = defaultOrgId :=
      List.mem_filter.mpr
        ⟨ho, decide_eq_true (hIs.trans hHome)⟩
    rw [← hSame] at hIn
    have hNot :=
      (List.mem_filter.mp (List.mem_filter.mp hIn).1).2
    exact of_decide_eq_true hNot hIs
  · intro hWithout
    rw [List.filter_filter]
    apply List.filter_congr
    intro o ho
    by_cases hHome : o.1 = defaultOrgId
    · have hNot : o.1 ≠ orgId := fun hIs =>
        hWithout (hIs.symm.trans hHome) o ho hIs
      rw [hHome] at hNot
      simp [hHome, hNot]
    · simp [hHome]

/- A purge that is complete and contained did not have to
leave anything. -/
theorem purgeable_of_purged
    {raises : Str → Bool} {db : OrgDatabase ρ} {orgId : Str}
    {after : Purging ρ}
    (hAfter : purgeOrg raises db orgId = some after)
    (hExact : Purged orgId db after.db) :
    Purgeable raises db orgId := by
  rcases purgeOrg_some hAfter with ⟨_, hOrgs, hRows⟩
  -- a table that is not emptied is as it was
  have hKept (t : Str)
      (hTable : t ∈ orgTables)
      (hNot : ¬ (t ∈ purgedTables ∧ raises t = false)) :
      db.Without orgId t := by
    have hAll := hExact.complete t hTable
    rw [hRows t, if_neg hNot] at hAll
    exact hAll
  refine ⟨?_, ?_, ?_, ?_⟩
  · intro t hTable
    refine hKept t
      ((mem_orgTables_iff t).mpr (Or.inr hTable)) ?_
    rintro ⟨hPurge, _⟩
    exact not_mem_purgedTables hTable hPurge
  · intro t hTable hGuard
    refine hKept t
      ((mem_orgTables_iff t).mpr (Or.inl hTable)) ?_
    rintro ⟨_, hOk⟩
    rw [hGuard] at hOk
    cases hOk
  · intro hHome t hTable
    cases hGuard : raises t with
    | true =>
        refine hKept t
          ((mem_orgTables_iff t).mpr (Or.inl hTable)) ?_
        rintro ⟨_, hOk⟩
        rw [hGuard] at hOk
        cases hOk
    | false =>
        have hSame := hExact.home t
        rw [hRows t, if_pos ⟨hTable, hGuard⟩] at hSame
        exact (filter_atHome_iff _ _).mp hSame hHome
  · have hSame := hExact.homeOrg
    rw [hOrgs] at hSame
    exact (filter_homeOrg_iff _ _).mp hSame

theorem purged_of_purgeable
    {raises : Str → Bool} {db : OrgDatabase ρ} {orgId : Str}
    {after : Purging ρ}
    (hAfter : purgeOrg raises db orgId = some after)
    (hFit : Purgeable raises db orgId) :
    Purged orgId db after.db := by
  rcases purgeOrg_some hAfter with ⟨_, hOrgs, hRows⟩
  refine ⟨?_, ?_, ?_, ?_, ?_⟩
  · intro t hTable r hr
    rw [hRows t] at hr
    split at hr
    · have hNot := (List.mem_filter.mp hr).2
      cases hIs : r.isOf orgId with
      | false => rfl
      | true =>
          rw [hIs] at hNot
          cases hNot
    · rename_i hKept
      rcases (mem_orgTables_iff t).mp hTable with
        hPurge | hLeft
      · have hGuard : raises t = true := by
          by_contra hOk
          exact hKept ⟨hPurge, by simpa using hOk⟩
        exact hFit.guarded t hPurge hGuard r hr
      · exact hFit.unpurged t hLeft r hr
  · intro t
    rw [hRows t]
    split
    · rw [List.filter_filter]
      simp
    · rfl
  · intro t
    rw [hRows t]
    split
    · rename_i hBoth
      refine (filter_atHome_iff _ _).mpr ?_
      intro hHome
      exact hFit.home hHome t hBoth.1
    · rfl
  · rw [hOrgs, List.filter_filter]
    simp
  · rw [hOrgs]
    exact (filter_homeOrg_iff _ _).mpr hFit.homeOrg

/- A purge is complete and contained exactly if it raises, or
the four tables that it does not go over have no row of the
workspace, none of its guarded deletes raises over one, and
the workspace is not the default one with rows of its own. -/
theorem purge_exact_iff
    (raises : Str → Bool)
    (db : OrgDatabase ρ)
    (orgId : Str) :
    (∀ after, purgeOrg raises db orgId = some after →
        Purged orgId db after.db) ↔
      raises (lit "orgs") = true ∨
        Purgeable raises db orgId := by
  cases hRaises : raises (lit "orgs") with
  | true =>
      have hNone : purgeOrg raises db orgId = none := by
        unfold purgeOrg
        rw [hRaises]
        rfl
      rw [hNone]
      simp
  | false =>
      have hSome : ∃ after, purgeOrg raises db orgId =
          some after := by
        unfold purgeOrg
        rw [hRaises]
        exact ⟨_, rfl⟩
      simp only [Bool.false_eq_true, false_or]
      constructor
      · intro hPurged
        rcases hSome with ⟨after, hAfter⟩
        exact purgeable_of_purged hAfter (hPurged after hAfter)
      · intro hFit after hAfter
        exact purged_of_purgeable hAfter hFit

/- One API key of a workspace, and nothing else. -/
def oneKey (orgId : Str) : OrgDatabase Str where
  rows := fun t =>
    if t = lit "api_keys" then [⟨some orgId, lit "key-1"⟩]
    else []
  orgs := [(orgId, lit "Globex")]

/- The key of a workspace outlives it. -/
theorem key_outlives_workspace :
    ¬ ∀ after,
        purgeOrg (fun _ => false) (oneKey (lit "org-globex"))
            (lit "org-globex") = some after →
          Purged (lit "org-globex")
            (oneKey (lit "org-globex")) after.db := by
  intro hPurged
  have hSome : ∃ after,
      purgeOrg (fun _ => false) (oneKey (lit "org-globex"))
        (lit "org-globex") = some after := ⟨_, rfl⟩
  rcases hSome with ⟨after, hAfter⟩
  rcases purgeOrg_some hAfter with ⟨_, _, hRows⟩
  have hLeft : lit "api_keys" ∈ unpurgedTables := by
    decide
  have hComplete :=
    (hPurged after hAfter).complete (lit "api_keys")
      ((mem_orgTables_iff _).mpr (Or.inr hLeft))
  rw [hRows, if_neg fun hBoth =>
    not_mem_purgedTables hLeft hBoth.1] at hComplete
  have hRow := hComplete ⟨some (lit "org-globex"), lit "key-1"⟩
    (List.mem_singleton_self _)
  exact absurd hRow (by decide)

end ThreatOrbit.Tenancy
