import ThreatOrbit.Lib.Firsts
import ThreatOrbit.Lib.Iso

/-
  The indicators of the feed service: the list that it serves,
  and the table that it is restored from.

  A run of the pipeline publishes its list, writes it to the
  table, and deletes the rows that are old; a restart serves
  what the table has.
-/

---- Indicators

namespace ThreatOrbit.Threat

open Lib

/- What the pipeline reads of an indicator; `lastSeen` is the
date in ISO format. -/
structure Ioc where
  iocType : Str
  value : Str
  source : Str
  threatType : Option Str
  tags : List Str
  lastSeen : Option Str
  description : Option Str
  confidence : Int
deriving DecidableEq, Repr

/- An indicator with what the enrichment adds. -/
structure EnrichedIoc extends Ioc where
  vtMaliciousCount : Option Int
  enrichmentStatus : Str
deriving DecidableEq, Repr

/- What tells the indicators apart. -/
def Ioc.triple (i : Ioc) : Str × Str × Str :=
  (i.iocType, i.value, i.source)

def EnrichedIoc.triple (i : EnrichedIoc) : Str × Str × Str :=
  i.toIoc.triple

---- The Table

/- A row of `iocs`. -/
structure IocRecord where
  iocType : Str
  value : Str
  source : Str
  threatType : Option Str
  confidence : Int
  enrichmentStatus : Str
  vtMaliciousCount : Option Int
  createdAt : Option Str
  dataJson : Option Str
deriving DecidableEq, Repr

def IocRecord.triple (r : IocRecord) : Str × Str × Str :=
  (r.iocType, r.value, r.source)

/- What the store uses of the libraries, the model as JSON and
a moment in ISO format, and the configured limits. -/
structure StoreTools where
  dumpJson : EnrichedIoc → Str
  validateJson : Str → Option EnrichedIoc
  isoformat : Int → Str
  maxPerSource : Int
  maxTotal : Int

def recordOf
    (tools : StoreTools)
    (i : EnrichedIoc) : IocRecord where
  iocType := i.iocType
  value := i.value
  source := i.source
  threatType := i.threatType
  confidence := i.confidence
  enrichmentStatus := i.enrichmentStatus
  vtMaliciousCount := i.vtMaliciousCount
  createdAt := i.lastSeen
  dataJson := some (tools.dumpJson i)

/- The `DO UPDATE` of a conflict. -/
def IocRecord.updated (r row : IocRecord) : IocRecord :=
  { r with
    threatType := row.threatType
    confidence := row.confidence
    enrichmentStatus := row.enrichmentStatus
    vtMaliciousCount := row.vtMaliciousCount
    createdAt := row.createdAt
    dataJson := row.dataJson }

/- `INSERT INTO iocs ... ON CONFLICT`. -/
def upsertRecord
    (table : List IocRecord)
    (row : IocRecord) : List IocRecord :=
  if table.any fun r => decide (r.triple = row.triple) then
    table.map fun r =>
      if r.triple = row.triple then r.updated row else r
  else
    table ++ [row]

def upsertIocs
    (tools : StoreTools)
    (table : List IocRecord)
    (iocs : List EnrichedIoc) : List IocRecord :=
  (iocs.map (recordOf tools)).foldl upsertRecord table

/- `created_at < cutoff`, which is not true of a null. -/
def IocRecord.olderThan
    (cutoff : Str)
    (r : IocRecord) : Bool :=
  match r.createdAt with
  | none => false
  | some date => decide (date < cutoff)

def cleanupOldIocs
    (cutoff : Str)
    (table : List IocRecord) : List IocRecord :=
  table.filter fun r => !r.olderThan cutoff

/- `ORDER BY created_at DESC`, where nulls come last. -/
def newerFirst (a b : IocRecord) : Bool :=
  match a.createdAt, b.createdAt with
  | _, none => true
  | none, some _ => false
  | some d, some e => decide (e ≤ d)

/- `load_iocs_from_db`; a text that is not valid is skipped. -/
def loadIocsFromDb
    (tools : StoreTools)
    (limit : Nat)
    (table : List IocRecord) : List EnrichedIoc :=
  (((table.filter fun r => r.dataJson.isSome).mergeSort
      newerFirst).take limit).filterMap fun r =>
    r.dataJson.bind tools.validateJson

---- The Pipeline

/- Where a run raises: before its list is published, in one of
the two calls of the database, or after them. -/
inductive Stage where
| preparing
| upserting
| cleaning
| finishing
deriving DecidableEq, Repr

/- A run: when it is, what the five sources give, in the order
of the loop, what the steps up to the enrichment make of a
list (`none` where one raises), and where it raises. -/
structure PipelineRun where
  now : Int
  sources : List (List Ioc)
  normalizeIocs : List Ioc → List Ioc
  applyTrustScoring : List Ioc → Option (List Ioc)
  boostConfidence : List Ioc → List Ioc
  enrichIocs : List Ioc → Option (List EnrichedIoc)
  raises : Option Stage

def cap {α : Type} (items : List α) (n : Int) : List α :=
  items.take (max 0 n).toNat

/- The list that a run publishes, if it comes to that. -/
def PipelineRun.prepared
    (tools : StoreTools)
    (r : PipelineRun) : Option (List EnrichedIoc) :=
  if r.raises = some .preparing then none
  else
    let all :=
      cap (r.sources.flatMap fun iocs =>
        cap iocs tools.maxPerSource) tools.maxTotal
    (r.applyTrustScoring (r.normalizeIocs all)).bind
      fun trusted =>
        r.enrichIocs
          (r.boostConfidence (firstsBy Ioc.triple [] trusted))

/- In microseconds. -/
def thirtyDays : Int := 30 * 24 * 60 * 60 * 1000000

def StoreTools.cutoff (tools : StoreTools) (now : Int) : Str :=
  tools.isoformat (now - thirtyDays)

/- The list in memory, and the table. -/
structure Service where
  store : List EnrichedIoc
  table : List IocRecord
deriving DecidableEq, Repr

/- `_run_pipeline`: the list is published before the table is
written, and a call that raises writes nothing. -/
def runPipeline
    (tools : StoreTools)
    (s : Service)
    (r : PipelineRun) : Service :=
  match r.prepared tools with
  | none => s
  | some enriched =>
      if r.raises = some .upserting then
        { s with store := enriched }
      else
        let written := upsertIocs tools s.table enriched
        if r.raises = some .cleaning then
          ⟨enriched, written⟩
        else
          ⟨enriched, cleanupOldIocs (tools.cutoff r.now) written⟩

def PipelineRun.raised
    (tools : StoreTools)
    (r : PipelineRun) : Prop :=
  r.prepared tools = none ∨ r.raises ≠ none

/- The rows that `cleanup_old_iocs` deletes in a run. -/
def deletedBy
    (tools : StoreTools)
    (s : Service)
    (r : PipelineRun) : List IocRecord :=
  match r.prepared tools with
  | none => []
  | some enriched =>
      if r.raises = some .upserting ∨
          r.raises = some .cleaning then
        []
      else
        (upsertIocs tools s.table enriched).filter
          (IocRecord.olderThan (tools.cutoff r.now))

def loadLimit : Nat := 10000

/- A new process: the list starts empty, and is what the table
gives if that is not empty. -/
def restart (tools : StoreTools) (s : Service) : Service :=
  match loadIocsFromDb tools loadLimit s.table with
  | [] => { s with store := [] }
  | restored => { s with store := restored }

inductive Event where
| run (r : PipelineRun)
| restart

def stepEvent
    (tools : StoreTools)
    (s : Service) : Event → Service
| .run r => runPipeline tools s r
| .restart => restart tools s

/- The service after some events, from an empty table. -/
def execute
    (tools : StoreTools)
    (events : List Event) : Service :=
  events.foldl (stepEvent tools) ⟨[], []⟩

---- Consistency

section

variable (tools : StoreTools)

def triples (iocs : List EnrichedIoc) :
    List (Str × Str × Str) :=
  iocs.map EnrichedIoc.triple

/- When a run that does not raise was, and what it fetched. -/
def Event.completed : Event → Option (Int × List EnrichedIoc)
| .restart => none
| .run r =>
    if r.raises = none then
      (r.prepared tools).map fun enriched => (r.now, enriched)
    else none

/- The runs among some events that did not raise. -/
def completedRuns (events : List Event) :
    List (Int × List EnrichedIoc) :=
  events.filterMap (Event.completed tools)

def fetched (events : List Event) : List EnrichedIoc :=
  (completedRuns tools events).flatMap Prod.snd

/- What the last of them fetched. -/
def latestRun (events : List Event) : List EnrichedIoc :=
  match (completedRuns tools events).getLast? with
  | none => []
  | some last => last.2

/- A run in the thirty days up to a moment fetched a triple. -/
def FetchedLately
    (events : List Event)
    (now : Int)
    (k : Str × Str × Str) : Prop :=
  ∃ c ∈ completedRuns tools events,
    now - thirtyDays ≤ c.1 ∧ k ∈ triples c.2

/- What is asked of an event after some others: a run that
raises changes nothing, one deletes no row that was fetched
lately, and a restart serves the same triples. -/
def EventConsistent (past : List Event) : Event → Prop
| .run r =>
    (r.raised tools →
      runPipeline tools (execute tools past) r =
        execute tools past) ∧
    ∀ row ∈ deletedBy tools (execute tools past) r,
      ¬ FetchedLately tools (past ++ [.run r]) r.now row.triple
| .restart =>
    ∀ k, k ∈ triples (restart tools (execute tools past)).store ↔
      k ∈ triples (execute tools past).store

/- The last indicator of a list with a triple. -/
def latestOf
    (k : Str × Str × Str)
    (iocs : List EnrichedIoc) : Option EnrichedIoc :=
  iocs.reverse.find? fun i => decide (i.triple = k)

/- An event of the kinds that are handled: a run that raises
only before it publishes, with a list that a restart can
hold, and that comes when no triple fetched lately was last
given with an old date; and a restart when the last run
fetched all that there is. -/
def EventPlain (past : List Event) : Event → Prop
| .run r =>
    ∀ enriched, r.prepared tools = some enriched →
      r.raises = none ∧
      enriched.length ≤ loadLimit ∧
      ∀ k, FetchedLately tools (past ++ [.run r]) r.now k →
        ∀ i, latestOf k (fetched tools (past ++ [.run r])) =
            some i →
          ∀ date, i.lastSeen = some date →
            ¬ date < tools.cutoff r.now
| .restart =>
    ∀ k ∈ triples (fetched tools past),
      k ∈ triples (latestRun tools past)

/- Each of the events, after those before it. -/
def Throughout
    (P : List Event → Event → Prop)
    (events : List Event) : Prop :=
  ∀ past e rest, events = past ++ e :: rest → P past e

end

---- What The Table Holds

section

variable {tools : StoreTools}

theorem updated_eq
    {r row : IocRecord}
    (hTriple : r.triple = row.triple) :
    r.updated row = row := by
  unfold IocRecord.triple at hTriple
  rw [Prod.mk.injEq, Prod.mk.injEq] at hTriple
  unfold IocRecord.updated
  rw [hTriple.1, hTriple.2.1, hTriple.2.2]

/- A row that is written stands in for those of its triple. -/
theorem mem_upsertRecord_iff
    (table : List IocRecord) (row r : IocRecord) :
    r ∈ upsertRecord table row ↔
      r = row ∨ (r ∈ table ∧ r.triple ≠ row.triple) := by
  unfold upsertRecord
  split
  · rename_i hAny
    rw [List.any_eq_true] at hAny
    rcases hAny with ⟨old, hOld, hSame⟩
    rw [decide_eq_true_eq] at hSame
    rw [List.mem_map]
    constructor
    · rintro ⟨a, hA, rfl⟩
      by_cases hTriple : a.triple = row.triple
      · rw [if_pos hTriple]
        exact .inl (updated_eq hTriple)
      · rw [if_neg hTriple]
        exact .inr ⟨hA, hTriple⟩
    · rintro (rfl | ⟨hR, hOther⟩)
      · refine ⟨old, hOld, ?_⟩
        rw [if_pos hSame]
        exact updated_eq hSame
      · exact ⟨r, hR, if_neg hOther⟩
  · rename_i hNone
    rw [List.any_eq_true] at hNone
    rw [List.mem_append, List.mem_singleton]
    constructor
    · rintro (hR | rfl)
      · refine .inr ⟨hR, fun hSame => hNone ⟨r, hR, ?_⟩⟩
        exact decide_eq_true hSame
      · exact .inl rfl
    · rintro (rfl | ⟨hR, _⟩)
      · exact .inr rfl
      · exact .inl hR

/- The unique index stays one. -/
theorem nodup_upsertRecord
    {table : List IocRecord}
    (row : IocRecord)
    (hNodup : (table.map IocRecord.triple).Nodup) :
    ((upsertRecord table row).map IocRecord.triple).Nodup := by
  unfold upsertRecord
  split
  · have hSame :
        (table.map fun r =>
            if r.triple = row.triple then r.updated row
            else r).map IocRecord.triple =
          table.map IocRecord.triple := by
      rw [List.map_map]
      refine List.map_congr_left fun r _ => ?_
      rw [Function.comp_apply]
      split
      · rfl
      · rfl
    rw [hSame]
    exact hNodup
  · rename_i hNone
    rw [List.map_append, List.nodup_append]
    refine ⟨hNodup, List.nodup_singleton _, ?_⟩
    intro k hK l hL hIs
    rw [List.map_cons, List.map_nil, List.mem_singleton] at hL
    rcases List.mem_map.mp hK with ⟨r, hR, rfl⟩
    apply hNone
    rw [List.any_eq_true]
    exact ⟨r, hR, decide_eq_true (hIs.trans hL)⟩

theorem latestOf_append
    (k : Str × Str × Str) (l m : List EnrichedIoc) :
    latestOf k (l ++ m) = (latestOf k m).or (latestOf k l) := by
  unfold latestOf
  rw [List.reverse_append, List.find?_append]

theorem mem_of_latestOf
    {k : Str × Str × Str} {iocs : List EnrichedIoc}
    {i : EnrichedIoc}
    (hLatest : latestOf k iocs = some i) :
    i ∈ iocs ∧ i.triple = k := by
  have hIs := List.find?_some hLatest
  have hMem := List.mem_of_find?_eq_some hLatest
  exact ⟨List.mem_reverse.mp hMem, of_decide_eq_true hIs⟩

theorem exists_latestOf
    {k : Str × Str × Str} {iocs : List EnrichedIoc}
    (hMem : k ∈ triples iocs) :
    ∃ i, latestOf k iocs = some i := by
  rcases List.mem_map.mp hMem with ⟨i, hI, hIs⟩
  refine Option.isSome_iff_exists.mp ?_
  unfold latestOf
  rw [List.find?_isSome]
  exact ⟨i, List.mem_reverse.mpr hI, decide_eq_true hIs⟩

/- After a write the table holds, of each triple, the last
indicator that was written, or what it held. -/
theorem mem_upsertIocs_iff
    (table : List IocRecord) (iocs : List EnrichedIoc)
    (r : IocRecord) :
    r ∈ upsertIocs tools table iocs ↔
      (∃ i, latestOf r.triple iocs = some i ∧
        r = recordOf tools i) ∨
      (latestOf r.triple iocs = none ∧ r ∈ table) := by
  induction iocs using List.reverseRecOn with
  | nil => simp [upsertIocs, latestOf]
  | append_singleton iocs i ih =>
      have hLast :
          upsertIocs tools table (iocs ++ [i]) =
            upsertRecord (upsertIocs tools table iocs)
              (recordOf tools i) := by
        unfold upsertIocs
        rw [List.map_append, List.foldl_append]
        rfl
      rw [hLast, mem_upsertRecord_iff, ih, latestOf_append]
      by_cases hTriple : i.triple = r.triple
      · have hThis : latestOf r.triple [i] = some i := by
          simp [latestOf, hTriple]
        have hSame : r.triple = (recordOf tools i).triple :=
          hTriple.symm
        rw [hThis]
        simp [hSame]
      · have hThis : latestOf r.triple [i] = none := by
          simp [latestOf, hTriple]
        have hOther : r.triple ≠ (recordOf tools i).triple :=
          fun hSame => hTriple hSame.symm
        have hNe : r ≠ recordOf tools i :=
          fun hIs => hOther (congrArg IocRecord.triple hIs)
        rw [hThis, Option.none_or]
        simp [hNe, hOther]

theorem nodup_upsertIocs
    {table : List IocRecord}
    (iocs : List EnrichedIoc)
    (hNodup : (table.map IocRecord.triple).Nodup) :
    ((upsertIocs tools table iocs).map
      IocRecord.triple).Nodup := by
  unfold upsertIocs
  induction iocs generalizing table with
  | nil => exact hNodup
  | cons i rest ih =>
      exact ih (nodup_upsertRecord (recordOf tools i) hNodup)

/- A table that is not too long is restored whole. -/
theorem mem_load_iff
    {limit : Nat} {table : List IocRecord}
    (hFew : table.length ≤ limit)
    (hJson :
      ∀ r ∈ table, ∃ text i,
        r.dataJson = some text ∧
        tools.validateJson text = some i ∧
        i.triple = r.triple)
    (k : Str × Str × Str) :
    k ∈ triples (loadIocsFromDb tools limit table) ↔
      k ∈ table.map IocRecord.triple := by
  have hSome : table.filter (fun r => r.dataJson.isSome) = table := by
    rw [List.filter_eq_self]
    intro r hR
    rcases hJson r hR with ⟨text, _, hText, _⟩
    rw [hText]
    rfl
  have hAll :
      (table.mergeSort newerFirst).take limit =
        table.mergeSort newerFirst :=
    List.take_of_length_le
      (by rw [List.length_mergeSort]; exact hFew)
  unfold triples loadIocsFromDb
  rw [hSome, hAll, List.mem_map, List.mem_map]
  constructor
  · rintro ⟨i, hI, rfl⟩
    rcases List.mem_filterMap.mp hI with ⟨r, hR, hValid⟩
    rw [List.mem_mergeSort] at hR
    rcases hJson r hR with ⟨text, j, hText, hIs, hTriple⟩
    rw [hText, Option.bind_some, hIs, Option.some.injEq]
      at hValid
    exact ⟨r, hR, by rw [← hTriple, hValid]⟩
  · rintro ⟨r, hR, rfl⟩
    rcases hJson r hR with ⟨text, j, hText, hIs, hTriple⟩
    refine ⟨j, List.mem_filterMap.mpr ⟨r, ?_, ?_⟩, hTriple⟩
    · exact List.mem_mergeSort.mpr hR
    · rw [hText, Option.bind_some, hIs]

end

---- Runs And Restarts

section

variable {tools : StoreTools}
variable {past : List Event}
variable {s : Service}
variable {r : PipelineRun}

theorem completedRuns_append
    (past : List Event) (e : Event) :
    completedRuns tools (past ++ [e]) =
      completedRuns tools past ++
        (e.completed tools).toList := by
  unfold completedRuns
  rw [List.filterMap_append]
  cases hE : e.completed tools with
  | none => simp [hE]
  | some c => simp [hE]

theorem fetched_append
    (past : List Event) (e : Event) :
    fetched tools (past ++ [e]) =
      fetched tools past ++
        (e.completed tools).toList.flatMap Prod.snd := by
  unfold fetched
  rw [completedRuns_append, List.flatMap_append]

theorem throughout_nil
    {P : List Event → Event → Prop} :
    Throughout P [] := by
  intro past e rest hIs
  cases past <;> cases hIs

theorem throughout_concat_iff
    {P : List Event → Event → Prop} {e : Event} :
    Throughout P (past ++ [e]) ↔ Throughout P past ∧ P past e := by
  constructor
  · intro hAll
    refine ⟨?_, hAll past e [] rfl⟩
    intro front d rest hIs
    exact hAll front d (rest ++ [e]) (by rw [hIs]; simp)
  · rintro ⟨hPast, hLast⟩ front d rest hIs
    induction rest using List.reverseRecOn with
    | nil =>
        rcases List.append_inj' hIs rfl with ⟨rfl, hEnd⟩
        cases hEnd
        exact hLast
    | append_singleton rest x _ =>
        rw [← List.cons_append, ← List.append_assoc] at hIs
        rcases List.append_inj' hIs rfl with ⟨hFront, _⟩
        exact hPast front d rest hFront

/- What stands after events that are handled: the list serves
the triples of the last run, the table has each of these
once, and each row of it is the last that was fetched of its
triple. -/
structure StoreInv
    (tools : StoreTools)
    (past : List Event)
    (s : Service) : Prop where
  served :
    ∀ k, k ∈ triples s.store ↔
      k ∈ triples (latestRun tools past)
  rows :
    ∀ row ∈ s.table, ∃ i,
      latestOf row.triple (fetched tools past) = some i ∧
      row = recordOf tools i
  stored :
    ∀ k ∈ triples (latestRun tools past),
      k ∈ s.table.map IocRecord.triple
  nodup : (s.table.map IocRecord.triple).Nodup
  few : (latestRun tools past).length ≤ loadLimit

/- The invariant is about the runs that did not raise. -/
theorem StoreInv.of_none
    {e : Event}
    (hInv : StoreInv tools past s)
    (hNone : e.completed tools = none) :
    StoreInv tools (past ++ [e]) s := by
  have hRuns :
      completedRuns tools (past ++ [e]) =
        completedRuns tools past := by
    rw [completedRuns_append, hNone]
    exact List.append_nil _
  have hFetched : fetched tools (past ++ [e]) = fetched tools past := by
    unfold fetched
    rw [hRuns]
  have hLatest :
      latestRun tools (past ++ [e]) = latestRun tools past := by
    unfold latestRun
    rw [hRuns]
  constructor
  · rw [hLatest]
    exact hInv.served
  · rw [hFetched]
    exact hInv.rows
  · rw [hLatest]
    exact hInv.stored
  · exact hInv.nodup
  · rw [hLatest]
    exact hInv.few

section Completed

variable {enriched : List EnrichedIoc}

theorem completed_run
    (hPrepared : r.prepared tools = some enriched)
    (hRaises : r.raises = none) :
    (Event.run r).completed tools = some (r.now, enriched) := by
  simp [Event.completed, hPrepared, hRaises]

theorem fetched_run
    (past : List Event)
    (hPrepared : r.prepared tools = some enriched)
    (hRaises : r.raises = none) :
    fetched tools (past ++ [.run r]) =
      fetched tools past ++ enriched := by
  rw [fetched_append, completed_run hPrepared hRaises]
  simp

theorem latestRun_run
    (past : List Event)
    (hPrepared : r.prepared tools = some enriched)
    (hRaises : r.raises = none) :
    latestRun tools (past ++ [.run r]) = enriched := by
  unfold latestRun
  rw [completedRuns_append, completed_run hPrepared hRaises,
    Option.toList_some, List.getLast?_concat]

theorem runPipeline_completed
    (s : Service) (hPrepared : r.prepared tools = some enriched)
    (hRaises : r.raises = none) :
    runPipeline tools s r =
      ⟨enriched, cleanupOldIocs (tools.cutoff r.now)
        (upsertIocs tools s.table enriched)⟩ := by
  unfold runPipeline
  rw [hPrepared]
  simp [hRaises]

/- A run that is written leaves the last that was fetched of
each triple. -/
theorem StoreInv.written
    (hInv : StoreInv tools past s)
    (hPrepared : r.prepared tools = some enriched)
    (hRaises : r.raises = none) :
    ∀ row ∈ upsertIocs tools s.table enriched, ∃ i,
      latestOf row.triple (fetched tools (past ++ [.run r])) =
        some i ∧
      row = recordOf tools i := by
  intro row hRow
  rw [fetched_run past hPrepared hRaises, latestOf_append]
  rcases (mem_upsertIocs_iff _ _ _).mp hRow with
    ⟨i, hLatest, hIs⟩ | ⟨hNone, hOld⟩
  · exact ⟨i, by rw [hLatest]; rfl, hIs⟩
  · rcases hInv.rows row hOld with ⟨i, hLatest, hIs⟩
    exact ⟨i, by rw [hNone, Option.none_or, hLatest], hIs⟩

theorem fetchedLately_self
    (past : List Event)
    (hPrepared : r.prepared tools = some enriched)
    (hRaises : r.raises = none) {k : Str × Str × Str}
    (hMem : k ∈ triples enriched) :
    FetchedLately tools (past ++ [.run r]) r.now k := by
  refine ⟨(r.now, enriched), ?_, ?_, hMem⟩
  · rw [completedRuns_append, completed_run hPrepared hRaises]
    simp
  · unfold thirtyDays
    omega

/- A row that was fetched lately is not deleted. -/
theorem StoreInv.kept
    (hInv : StoreInv tools past s)
    (hPlain : EventPlain tools past (.run r))
    (hPrepared : r.prepared tools = some enriched) {row : IocRecord}
    (hRow : row ∈ upsertIocs tools s.table enriched)
    (hLately :
      FetchedLately tools (past ++ [.run r]) r.now
        row.triple) :
    row.olderThan (tools.cutoff r.now) = false := by
  rcases hPlain enriched hPrepared with ⟨hRaises, _, hDates⟩
  rcases hInv.written hPrepared hRaises row hRow with
    ⟨i, hLatest, hIs⟩
  have hDate := hDates row.triple hLately i hLatest
  have hCreated : row.createdAt = i.lastSeen := by
    rw [hIs]
    rfl
  unfold IocRecord.olderThan
  rw [hCreated]
  cases hSeen : i.lastSeen with
  | none => rfl
  | some date => exact decide_eq_false (hDate date hSeen)

/- The invariant after a run that does not raise. -/
theorem StoreInv.run
    (hInv : StoreInv tools past s)
    (hPlain : EventPlain tools past (.run r))
    (hPrepared : r.prepared tools = some enriched) :
    StoreInv tools (past ++ [.run r])
      (runPipeline tools s r) := by
  rcases hPlain enriched hPrepared with ⟨hRaises, hFew, _⟩
  have hNodup :
      ((upsertIocs tools s.table enriched).map
        IocRecord.triple).Nodup :=
    nodup_upsertIocs enriched hInv.nodup
  rw [runPipeline_completed s hPrepared hRaises]
  constructor
  · intro k
    rw [latestRun_run past hPrepared hRaises]
  · intro row hRow
    exact hInv.written hPrepared hRaises row
      (List.mem_of_mem_filter hRow)
  · intro k hK
    rw [latestRun_run past hPrepared hRaises] at hK
    rcases exists_latestOf hK with ⟨i, hLatest⟩
    have hTriple : (recordOf tools i).triple = k :=
      (mem_of_latestOf hLatest).2
    have hRow :
        recordOf tools i ∈
          upsertIocs tools s.table enriched := by
      rw [mem_upsertIocs_iff, hTriple]
      exact .inl ⟨i, hLatest, rfl⟩
    have hLately :=
      fetchedLately_self past hPrepared hRaises hK
    have hKept := hInv.kept hPlain hPrepared hRow
      (by rw [hTriple]; exact hLately)
    refine List.mem_map.mpr ⟨recordOf tools i, ?_, hTriple⟩
    refine List.mem_filter.mpr ⟨hRow, ?_⟩
    rw [hKept]
    rfl
  · exact hNodup.sublist (List.filter_sublist.map _)
  · rw [latestRun_run past hPrepared hRaises]
    exact hFew

end Completed

/- What is dumped of an indicator is valid, and has its
triple. -/
def DumpsTriples
    (tools : StoreTools)
    (iocs : List EnrichedIoc) : Prop :=
  ∀ i ∈ iocs, ∃ j,
    tools.validateJson (tools.dumpJson i) = some j ∧
    j.triple = i.triple

theorem store_restart
    (tools : StoreTools) (s : Service) :
    restart tools s =
      { s with
        store := loadIocsFromDb tools loadLimit s.table } := by
  unfold restart
  split
  · rename_i hNil
    rw [hNil]
  · rfl

/- A restart serves the same triples if the last run fetched
all that there is. -/
theorem StoreInv.restart
    (hInv : StoreInv tools past s)
    (hJson : DumpsTriples tools (fetched tools past))
    (hPlain : EventPlain tools past .restart)
    (k : Str × Str × Str) :
    k ∈ triples (restart tools s).store ↔
      k ∈ triples s.store := by
  have hLatest :
      ∀ k ∈ s.table.map IocRecord.triple,
        k ∈ triples (latestRun tools past) := by
    intro k hK
    rcases List.mem_map.mp hK with ⟨row, hRow, rfl⟩
    rcases hInv.rows row hRow with ⟨i, hI, _⟩
    rcases mem_of_latestOf hI with ⟨hMem, hTriple⟩
    exact hPlain _ (List.mem_map.mpr ⟨i, hMem, hTriple⟩)
  have hFew : s.table.length ≤ loadLimit := by
    have hLength :=
      (hInv.nodup.subperm hLatest).length_le
    unfold triples at hLength
    rw [List.length_map, List.length_map] at hLength
    exact hLength.trans hInv.few
  have hRows :
      ∀ row ∈ s.table, ∃ text i,
        row.dataJson = some text ∧
        tools.validateJson text = some i ∧
        i.triple = row.triple := by
    intro row hRow
    rcases hInv.rows row hRow with ⟨i, hI, hIs⟩
    rcases mem_of_latestOf hI with ⟨hMem, hTriple⟩
    rcases hJson i hMem with ⟨j, hValid, hSame⟩
    refine ⟨tools.dumpJson i, j, ?_, hValid, ?_⟩
    · rw [hIs]
      rfl
    · exact hSame.trans hTriple
  rw [store_restart, mem_load_iff hFew hRows, hInv.served]
  exact ⟨hLatest k, hInv.stored k⟩

theorem StoreInv.restarted
    (hInv : StoreInv tools past s)
    (hJson : DumpsTriples tools (fetched tools past))
    (hPlain : EventPlain tools past .restart) :
    StoreInv tools (past ++ [.restart])
      (Threat.restart tools s) := by
  have hTable : (Threat.restart tools s).table = s.table := by
    rw [store_restart]
  refine StoreInv.of_none ?_ rfl
  constructor
  · intro k
    rw [hInv.restart hJson hPlain k]
    exact hInv.served k
  · rw [hTable]
    exact hInv.rows
  · rw [hTable]
    exact hInv.stored
  · rw [hTable]
    exact hInv.nodup
  · exact hInv.few

/- A run that raises comes to nothing. -/
theorem raised_iff
    (hPlain : EventPlain tools past (.run r)) :
    r.raised tools ↔ r.prepared tools = none := by
  constructor
  · rintro (hNone | hRaises)
    · exact hNone
    · cases hPrepared : r.prepared tools with
      | none => rfl
      | some enriched =>
          exact absurd (hPlain enriched hPrepared).1 hRaises
  · exact .inl

theorem runPipeline_none
    (s : Service) (hNone : r.prepared tools = none) :
    runPipeline tools s r = s := by
  unfold runPipeline
  rw [hNone]

theorem execute_append
    (past : List Event) (e : Event) :
    execute tools (past ++ [e]) =
      stepEvent tools (execute tools past) e := by
  unfold execute
  rw [List.foldl_append]
  rfl

/- The invariant after one event. -/
theorem StoreInv.step
    {e : Event}
    (hInv : StoreInv tools past s)
    (hJson : DumpsTriples tools (fetched tools past))
    (hPlain : EventPlain tools past e) :
    StoreInv tools (past ++ [e]) (stepEvent tools s e) := by
  cases e with
  | run r =>
      cases hPrepared : r.prepared tools with
      | none =>
          have hNone : (Event.run r).completed tools = none := by
            simp [Event.completed, hPrepared]
          have hSame : stepEvent tools s (.run r) = s :=
            runPipeline_none s hPrepared
          rw [hSame]
          exact hInv.of_none hNone
      | some enriched => exact hInv.run hPlain hPrepared
  | restart => exact hInv.restarted hJson hPlain

/- An event that is handled is consistent. -/
theorem StoreInv.consistent
    {e : Event}
    (hInv : StoreInv tools past (execute tools past))
    (hJson : DumpsTriples tools (fetched tools past))
    (hPlain : EventPlain tools past e) :
    EventConsistent tools past e := by
  cases e with
  | run r =>
      constructor
      · intro hRaised
        exact runPipeline_none _ ((raised_iff hPlain).mp hRaised)
      · intro row hRow hLately
        unfold deletedBy at hRow
        split at hRow
        · cases hRow
        · rename_i enriched hPrepared
          split at hRow
          · cases hRow
          · rcases List.mem_filter.mp hRow with ⟨hMem, hOld⟩
            rw [hInv.kept hPlain hPrepared hMem hLately] at hOld
            cases hOld
  | restart => exact hInv.restart hJson hPlain

theorem StoreInv.start : StoreInv tools [] ⟨[], []⟩ where
  served := fun _ => Iff.rfl
  rows := by simp
  stored := by
    intro k hK
    cases hK
  nodup := List.nodup_nil
  few := Nat.zero_le _

theorem fetched_subset
    (past rest : List Event) :
    fetched tools past ⊆ fetched tools (past ++ rest) := by
  unfold fetched completedRuns
  rw [List.filterMap_append, List.flatMap_append]
  exact List.subset_append_left _ _

theorem StoreInv.execute
    {events : List Event}
    (hJson : DumpsTriples tools (fetched tools events))
    (hPlain : Throughout (EventPlain tools) events) :
    StoreInv tools events (Threat.execute tools events) := by
  induction events using List.reverseRecOn with
  | nil => exact .start
  | append_singleton past e ih =>
      have hBefore : DumpsTriples tools (fetched tools past) :=
        fun i hI => hJson i (fetched_subset past [e] hI)
      rcases throughout_concat_iff.mp hPlain with
        ⟨hFront, hLast⟩
      rw [execute_append]
      exact (ih hBefore hFront).step hBefore hLast

/- The store is consistent with its table in every sequence of
runs and restarts of the kinds that are handled. -/
theorem store_consistent
    {events : List Event}
    (hJson : DumpsTriples tools (fetched tools events))
    (hPlain : Throughout (EventPlain tools) events) :
    Throughout (EventConsistent tools) events := by
  intro past e rest hIs
  have hBefore : DumpsTriples tools (fetched tools past) := by
    intro i hI
    apply hJson
    rw [hIs]
    exact fetched_subset past (e :: rest) hI
  have hPast : StoreInv tools past (execute tools past) := by
    refine StoreInv.execute hBefore fun front d more hFront => ?_
    exact hPlain front d (more ++ e :: rest)
      (by rw [hIs, hFront]; simp)
  exact hPast.consistent hBefore (hPlain past e rest hIs)

end

---- Two Feeds

/- An address of a feed, which gives no date. -/
def feodoIoc (value : String) : EnrichedIoc where
  iocType := lit "ip"
  value := lit value
  source := lit "abuse.ch Feodo"
  threatType := some (lit "malicious-activity")
  tags := [lit "abusech", lit "feodo"]
  lastSeen := none
  description := none
  confidence := 85
  vtMaliciousCount := none
  enrichmentStatus := lit "skipped"

def feodoText (value : String) : Str :=
  lit "\x7b\"ioc_type\":\"ip\",\"value\":\"" ++ lit value ++
    lit "\",\"source\":\"abuse.ch Feodo\"\x7d"

/- The texts of two addresses; the moments are in microseconds
from the start of year 1. -/
def feodoTools : StoreTools where
  dumpJson := fun i =>
    if i = feodoIoc "203.0.113.7" then feodoText "203.0.113.7"
    else feodoText "203.0.113.8"
  validateJson := fun text =>
    if text = feodoText "203.0.113.7" then
      some (feodoIoc "203.0.113.7")
    else if text = feodoText "203.0.113.8" then
      some (feodoIoc "203.0.113.8")
    else none
  isoformat := fun t =>
    isoSecond (t / 1000000).toNat
  maxPerSource := 2000
  maxTotal := 10000

def feodoRun
    (value : String)
    (raises : Option Stage) : PipelineRun where
  now := 63902304000000000
  sources := [[], [(feodoIoc value).toIoc], [], [], []]
  normalizeIocs := id
  applyTrustScoring := some
  boostConfidence := id
  enrichIocs := fun iocs =>
    some (iocs.map fun i =>
      { i with
        vtMaliciousCount := none
        enrichmentStatus := lit "skipped" })
  raises := raises

/- A run, one that raises before it publishes, and a
restart. -/
def calmEvents : List Event :=
  [.run (feodoRun "203.0.113.7" none),
    .run (feodoRun "203.0.113.8" (some .preparing)),
    .restart]

theorem calm_consistent :
    Throughout (EventConsistent feodoTools) calmEvents := by
  have hFetched :
      fetched feodoTools calmEvents =
        [feodoIoc "203.0.113.7"] := rfl
  refine store_consistent ?_ ?_
  · rw [hFetched]
    intro i hI
    rw [List.mem_singleton.mp hI]
    exact ⟨feodoIoc "203.0.113.7", by decide, rfl⟩
  · have hFirst :
        EventPlain feodoTools []
          (.run (feodoRun "203.0.113.7" none)) := by
      intro enriched hPrepared
      have hIs : enriched = [feodoIoc "203.0.113.7"] :=
        (Option.some.inj hPrepared).symm
      refine ⟨rfl, by rw [hIs]; decide, ?_⟩
      intro k _ i hLatest date hDate
      have hMem :
          i ∈ [feodoIoc "203.0.113.7"] :=
        (mem_of_latestOf hLatest).1
      rw [List.mem_singleton.mp hMem] at hDate
      cases hDate
    refine (@throughout_concat_iff [_, _] _ _).mpr ⟨?_, ?_⟩
    · refine (@throughout_concat_iff [_] _ _).mpr ⟨?_, ?_⟩
      · exact (@throughout_concat_iff [] _ _).mpr
          ⟨throughout_nil, hFirst⟩
      · intro enriched hPrepared
        cases hPrepared
    · intro k hK
      exact hK

/- A write that raises leaves its list published, and what an
earlier run fetched is served again after a restart. -/
theorem failed_write_is_served :
    ¬ Throughout (EventConsistent feodoTools)
        [.run (feodoRun "203.0.113.7" (some .upserting))] ∧
    ¬ Throughout (EventConsistent feodoTools)
        [.run (feodoRun "203.0.113.7" none),
          .run (feodoRun "203.0.113.8" none), .restart] := by
  constructor
  · intro hAll
    have hSame := (hAll [] _ [] rfl).1 (.inr (by decide))
    revert hSame
    decide
  · intro hAll
    have hServed :=
      hAll [.run (feodoRun "203.0.113.7" none),
        .run (feodoRun "203.0.113.8" none)] .restart [] rfl
        (feodoIoc "203.0.113.7").triple
    have hTable :
        (execute feodoTools
            [.run (feodoRun "203.0.113.7" none),
              .run (feodoRun "203.0.113.8" none)]).table =
          [recordOf feodoTools (feodoIoc "203.0.113.7"),
            recordOf feodoTools (feodoIoc "203.0.113.8")] :=
      rfl
    have hRows :
        ∀ r ∈ [recordOf feodoTools (feodoIoc "203.0.113.7"),
            recordOf feodoTools (feodoIoc "203.0.113.8")],
          ∃ text i,
            r.dataJson = some text ∧
            feodoTools.validateJson text = some i ∧
            i.triple = r.triple := by
      intro r hR
      simp only [List.mem_cons, List.not_mem_nil, or_false]
        at hR
      rcases hR with rfl | rfl
      · exact ⟨_, feodoIoc "203.0.113.7", rfl, by decide, rfl⟩
      · exact ⟨_, feodoIoc "203.0.113.8", rfl, by decide, rfl⟩
    rw [store_restart, hTable, mem_load_iff (by decide) hRows]
      at hServed
    revert hServed
    decide

end ThreatOrbit.Threat
