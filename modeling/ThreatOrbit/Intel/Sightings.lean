import ThreatOrbit.Intel.Matching

/-
  What passes over the events record.

  A pass records one sighting per channel of an event that
  carries an active indicator. The sightings count events
  where no event carries a value on two channels.
-/

---- What A Sighting Changes

namespace ThreatOrbit.Intel

open Lib

/- The columns that sightings do not write. -/
def Ioc.asserted (r : Ioc) : Ioc :=
  { r with sightings := 0, lastSeen := none, confidence := 0 }

/- The sightings of an active row leave what is asserted. -/
theorem Ioc.sightedAt_asserted
    (now : Str) (confidence : Int) {id : Str} {r : Ioc}
    (hActive : r.id = id → r.status = .active) :
    (r.sightedAt now confidence id).asserted = r.asserted := by
  unfold sightedAt
  split
  · rename_i hHere
    simp [sighted, asserted, hActive hHere]
  · rfl

/- What recording sightings changes: the count of one
indicator, and no event, no alert, and nothing asserted of
an indicator. -/
structure Sighted
    (s t : IntelStore)
    (iocId : Str)
    (n : Nat) : Prop where
  events : t.events = s.events
  alerts : t.alerts = s.alerts
  asserted :
    t.iocs.rows.map Ioc.asserted = s.iocs.rows.map Ioc.asserted
  counted :
    ∀ id, t.observations id =
      s.observations id + if id = iocId then n else 0

/- A row that has the same asserted columns in another
table. -/
theorem exists_asserted
    {rows rows' : List Ioc}
    (hSame : rows'.map Ioc.asserted = rows.map Ioc.asserted)
    {r : Ioc}
    (hRow : r ∈ rows) :
    ∃ r' ∈ rows', r'.asserted = r.asserted := by
  have hMem := List.mem_map_of_mem (f := Ioc.asserted) hRow
  rw [← hSame] at hMem
  rcases List.mem_map.mp hMem with ⟨r', hr', hIs⟩
  exact ⟨r', hr', hIs⟩

theorem recordSighting_sighted
    {s : IntelStore} {r : Ioc}
    (now context : Str) (hRow : r ∈ s.iocs.rows)
    (hActive : r.status = .active) :
    Sighted s (recordSighting s now r.id siemEvent context)
      r.id 1 := by
  have hNamed := s.iocs.named r hRow
  have hFound : s.iocs.rows.find? (fun x => x.id = r.id) = some r := by
    cases hFind :
        s.iocs.rows.find? (fun x => x.id = r.id) with
    | none =>
        rw [List.find?_eq_none] at hFind
        exact absurd (decide_eq_true rfl) (hFind r hRow)
    | some x =>
        have hId : x.id = r.id := by
          simpa using List.find?_some hFind
        rw [List.inj_on_of_nodup_map s.iocs.nodup
          (List.mem_of_find?_eq_some hFind) hRow hId]
  unfold recordSighting
  rw [if_neg hNamed, hFound]
  constructor
  · rfl
  · rfl
  · simp only [IocTable.sight, List.map_map]
    apply List.map_congr_left
    intro x hx
    refine Ioc.sightedAt_asserted _ _ ?_
    intro hId
    rw [List.inj_on_of_nodup_map s.iocs.nodup hx hRow hId]
    exact hActive
  · intro id
    simp only [IntelStore.observations, List.countP_append,
      List.countP_singleton]
    congr 1
    by_cases hId : id = r.id
    · simp [hId]
    · simp [hId, Ne.symm hId]

theorem recordEvents_sighted
    (now value : Str) {s : IntelStore} {r : Ioc}
    (hRow : ∃ x ∈ s.iocs.rows, x.asserted = r.asserted)
    (hActive : r.status = .active) (events : List EventRow) :
    Sighted s (recordEvents now r value events s) r.id
      events.length := by
  induction events generalizing s with
  | nil =>
      refine ⟨rfl, rfl, rfl, ?_⟩
      intro id
      simp [recordEvents]
  | cons e rest ih =>
      rcases hRow with ⟨x, hX, hSame⟩
      have hId := congrArg Ioc.id hSame
      have hStatus := congrArg Ioc.status hSame
      simp only [Ioc.asserted, hActive] at hId hStatus
      have hFirst := recordSighting_sighted now
        (lit "event " ++ e.id ++ lit " matched " ++ value)
        hX hStatus
      rw [hId] at hFirst
      have hKept : ∃ y ∈ (recordSighting s now r.id siemEvent
          (lit "event " ++ e.id ++ lit " matched " ++
            value)).iocs.rows, y.asserted = r.asserted := by
        rcases exists_asserted hFirst.asserted hX with
          ⟨y, hY, hIs⟩
        exact ⟨y, hY, hIs.trans hSame⟩
      have hRest := ih hKept
      refine ⟨hRest.events.trans hFirst.events,
        hRest.alerts.trans hFirst.alerts,
        hRest.asserted.trans hFirst.asserted, ?_⟩
      intro id
      have hLater := hRest.counted id
      have hHere := hFirst.counted id
      unfold recordEvents at hLater ⊢
      rw [List.foldl_cons, hLater, hHere, List.length_cons]
      split
      · omega
      · rfl

---- What A Pass Changes

section

variable [Unicode]

/- The alerts of a value are as many as before, or it has
its first one. -/
def StandsOnce (s t : IntelStore) (value : Str) : Prop :=
  t.standing value = s.standing value ∨
    (s.standing value = 0 ∧ t.standing value = 1)

omit [Unicode] in
theorem StandsOnce.trans
    {s t u : IntelStore} {value : Str}
    (hFirst : StandsOnce s t value)
    (hSecond : StandsOnce t u value) :
    StandsOnce s u value := by
  unfold StandsOnce at *
  omega

/- What matching candidates changes, with the number of
sightings of each indicator. -/
structure Matched
    (s t : IntelStore)
    (n : Str → Nat) : Prop where
  events : t.events = s.events
  asserted :
    t.iocs.rows.map Ioc.asserted = s.iocs.rows.map Ioc.asserted
  counted :
    ∀ id, t.observations id = s.observations id + n id
  standing : ∀ value, StandsOnce s t value

/- The sightings of one candidate, by indicator. -/
def candidateCount
    (found : Str → Option Ioc)
    (c : Str × List EventRow)
    (id : Str) : Nat :=
  if (found c.1).map Ioc.id = some id then c.2.length else 0

omit [Unicode] in
theorem Sighted.matched
    {s t : IntelStore} {found : Str → Option Ioc}
    {c : Str × List EventRow} {r : Ioc}
    (hFound : found c.1 = some r)
    (hSighted : Sighted s t r.id c.2.length) :
    Matched s t (candidateCount found c) := by
  refine ⟨hSighted.events, hSighted.asserted, ?_, ?_⟩
  · intro id
    rw [hSighted.counted id]
    unfold candidateCount
    rw [hFound]
    simp only [Option.map_some, Option.some.injEq, eq_comm]
  · intro value
    left
    unfold IntelStore.standing
    rw [hSighted.alerts]

omit [Unicode] in
/- The standing alert that is raised where there is none. -/
theorem Matched.raise
    {s t : IntelStore} {n : Str → Nat} {alert : AlertRow}
    {value : Str}
    (hMatched : Matched s t n)
    (hNone : t.alerts.any (AlertRow.standsFor value) = false)
    (hValue : alert.tiValue = some value) :
    Matched s { t with alerts := t.alerts ++ [alert] } n := by
  refine ⟨hMatched.events, hMatched.asserted,
    hMatched.counted, ?_⟩
  intro v
  refine (hMatched.standing v).trans ?_
  unfold StandsOnce IntelStore.standing
  rw [List.countP_append, List.countP_singleton]
  by_cases hSame : v = value
  · have hZero :
        t.alerts.countP (AlertRow.standsFor v) = 0 := by
      rw [List.countP_eq_zero, hSame]
      intro a ha
      rw [List.any_eq_false] at hNone
      exact hNone a ha
    rw [hZero]
    split
    · exact .inr ⟨rfl, rfl⟩
    · exact .inl rfl
  · left
    have hNot : alert.standsFor v = false := by
      have hOther : ¬ value = v := fun h => hSame h.symm
      simp [AlertRow.standsFor, hValue, hOther]
    rw [hNot]
    rfl

theorem matchCandidate_matched
    (now : Str) {iocs : List Ioc} {found : Str → Option Ioc}
    (hFinds : Finds iocs found) (st : PassState)
    (hSame :
      st.store.iocs.rows.map Ioc.asserted =
        iocs.map Ioc.asserted)
    (c : Str × List EventRow) :
    Matched st.store (matchCandidate now found st c).store
      (candidateCount found c) := by
  unfold matchCandidate
  cases hFound : found c.1 with
  | none =>
      refine ⟨rfl, rfl, ?_, fun _ => .inl rfl⟩
      intro id
      simp [candidateCount, hFound]
  | some r =>
      rcases hFinds c.1 r hFound with ⟨hRow, hActive, hValue⟩
      have hMatched := (recordEvents_sighted now c.1
        (exists_asserted hSame hRow) hActive c.2).matched
        hFound
      dsimp only
      split
      · exact hMatched
      · split
        · exact hMatched
        · split
          · exact hMatched
          · rename_i hNone
            refine hMatched.raise (Bool.eq_false_iff.mpr hNone)
              ?_
            rw [← hValue]
            rfl

/- The sightings of a pass are those of its candidates. -/
theorem matchCandidates_matched
    (now : Str) {iocs : List Ioc} {found : Str → Option Ioc}
    (hFinds : Finds iocs found) (st : PassState)
    (hSame :
      st.store.iocs.rows.map Ioc.asserted =
        iocs.map Ioc.asserted)
    (cs : List (Str × List EventRow)) :
    Matched st.store
      (cs.foldl (matchCandidate now found) st).store
      (fun id =>
        (cs.map fun c => candidateCount found c id).sum) := by
  induction cs generalizing st with
  | nil => exact ⟨rfl, rfl, fun _ => rfl, fun _ => .inl rfl⟩
  | cons c rest ih =>
      have hFirst :=
        matchCandidate_matched now hFinds st hSame c
      have hRest := ih (matchCandidate now found st c)
        (hFirst.asserted.trans hSame)
      rw [List.foldl_cons]
      refine ⟨hRest.events.trans hFirst.events,
        hRest.asserted.trans hFirst.asserted, ?_, ?_⟩
      · intro id
        rw [hRest.counted id, hFirst.counted id, List.map_cons,
          List.sum_cons, Nat.add_assoc]
      · intro value
        exact (hFirst.standing value).trans
          (hRest.standing value)

/- The sightings a pass records for an active indicator whose
value no other active one has: one for every channel of an
event of the batch that carries the value. -/
theorem candidates_count
    {iocs : List Ioc} {r : Ioc}
    (hIds : (iocs.map Ioc.id).Nodup)
    (hValues :
      ((iocs.filter fun r => r.status = .active).map
        Ioc.value).Nodup)
    (hRow : r ∈ iocs)
    (hActive : r.status = .active)
    (batch : List EventRow) :
    ((candidates batch).map fun c =>
        candidateCount
          (hits iocs ((candidates batch).map Prod.fst)) c
          r.id).sum =
      (batch.map fun e => e.channels.count r.value).sum := by
  have hKey :
      ∀ c ∈ candidates batch,
        candidateCount
          (hits iocs ((candidates batch).map Prod.fst)) c
          r.id =
        if c.1 = r.value then c.2.length else 0 := by
    intro c hC
    have hIn : c.1 ∈ (candidates batch).map Prod.fst :=
      List.mem_map_of_mem hC
    unfold candidateCount
    by_cases hValue : c.1 = r.value
    · rw [hValue] at hIn ⊢
      rw [hits_of_active hValues hRow hActive hIn]
      simp
    · rw [if_neg hValue, if_neg]
      intro hIs
      rcases Option.map_eq_some_iff.mp hIs with
        ⟨r', hFound, hId⟩
      rcases (hits_spec iocs _).1 c.1 r' hFound with
        ⟨hRow', _, hValue'⟩
      rw [List.inj_on_of_nodup_map hIds hRow' hRow hId]
        at hValue'
      exact hValue hValue'.symm
  rw [List.map_congr_left hKey]
  unfold candidates
  rw [sum_at_key (collect_keys_nodup _) r.value,
    lookup_collect, List.length_map,
    ← List.countP_eq_length_filter, List.countP_flatMap]
  congr 1
  apply List.map_congr_left
  intro e _
  rw [Function.comp_apply, List.countP_map, List.count]
  apply List.countP_congr
  intro v _
  simp

end

---- One Channel Per Event

section

variable [Unicode]

omit [Unicode] in
theorem filled_eq_some
    {column : Option Str} {value : Str}
    (hFilled : value ≠ []) :
    filled column = some value ↔ column = some value := by
  cases column with
  | none => simp [filled]
  | some text =>
      cases text with
      | nil => simp [filled, Ne.symm hFilled]
      | cons c rest => simp [filled]

omit [Unicode] in
/- The columns that are not empty, counted by value. -/
theorem count_filled
    {value : Str}
    (hFilled : value ≠ []) (columns : List (Option Str)) :
    (columns.filterMap filled).count value =
      columns.count (some value) := by
  induction columns with
  | nil => rfl
  | cons column rest ih =>
      rw [List.filterMap_cons]
      cases hColumn : filled column with
      | none =>
          have hOther : column ≠ some value := by
            intro hIs
            rw [(filled_eq_some hFilled).mpr hIs] at hColumn
            cases hColumn
          rw [List.count_cons_of_ne hOther]
          exact ih
      | some text =>
          by_cases hIs : text = value
          · rw [hIs] at hColumn ⊢
            rw [(filled_eq_some hFilled).mp hColumn]
            dsimp only
            rw [List.count_cons_self, List.count_cons_self, ih]
          · have hOther : column ≠ some value := by
              intro hSame
              rw [(filled_eq_some hFilled).mpr hSame]
                at hColumn
              cases hColumn
              exact hIs rfl
            dsimp only
            rw [List.count_cons_of_ne hIs,
              List.count_cons_of_ne hOther, ih]

/- Trimming the host keeps the channels of a value. -/
theorem channels_count
    {e : EventRow} {value : Str}
    (hOne : OneChannel e value) :
    e.channels.count value =
      [e.srcIp, e.destIp, e.destHost.map Unicode.lower,
        e.url].count (some value) := by
  have hHost :
      (some (Unicode.lower (strip (e.destHost.getD []))) =
        some value) ↔
      e.destHost.map Unicode.lower = some value := by
    cases hDest : e.destHost with
    | none =>
        have hEmpty : Unicode.lower (strip []) = [] :=
          Unicode.lower_ascii [] (by simp)
        simp [hEmpty, Ne.symm hOne.filled]
    | some host =>
        simp [hOne.trimmed host hDest]
  unfold EventRow.channels
  dsimp only
  rw [count_filled hOne.filled]
  simp only [List.count_cons, beq_iff_eq, hHost]

/- An event counts for a value once, where it observes it. -/
theorem channels_count_observes
    {e : EventRow} {value : Str}
    (hOne : OneChannel e value) :
    e.channels.count value =
      if e.observes value then 1 else 0 := by
  rw [channels_count hOne]
  have hOnce := hOne.once
  have hMem :
      e.observes value = true ↔
        some value ∈ [e.srcIp, e.destIp,
          e.destHost.map Unicode.lower, e.url] := by
    simp only [EventRow.observes, decide_eq_true_eq,
      List.mem_cons, List.not_mem_nil, or_false,
      @eq_comm _ (some value)]
  by_cases hObserves : e.observes value = true
  · have hPos := List.count_pos_iff.mpr (hMem.mp hObserves)
    rw [if_pos hObserves]
    omega
  · rw [if_neg hObserves, List.count_eq_zero]
    exact fun h => hObserves (hMem.mpr h)

end

---- Marks

/- What examining events marks: each event once, none that
was examined before, and no others. -/
structure Marked
    (s t : EventTable)
    (done : List EventRow) : Prop where
  nodup : (done.map EventRow.id).Nodup
  before :
    ∀ e ∈ done, ∀ r ∈ s.rows, r.id = e.id →
      r.tiChecked = false
  after :
    ∀ e ∈ done, ∃ r ∈ t.rows,
      r.id = e.id ∧ r.tiChecked = true
  kept :
    ∀ r ∈ s.rows, ∃ r' ∈ t.rows, r'.id = r.id ∧
      (r.tiChecked = true → r'.tiChecked = true)
  checked :
    ∀ r ∈ t.rows, r.tiChecked = true →
      r.id ∈ done.map EventRow.id ∨
        ∃ r' ∈ s.rows, r'.id = r.id ∧ r'.tiChecked = true

theorem Marked.trans
    {s t u : EventTable} {first second : List EventRow}
    (hFirst : Marked s t first) (hSecond : Marked t u second) :
    Marked s u (first ++ second) := by
  constructor
  · rw [List.map_append, List.nodup_append]
    refine ⟨hFirst.nodup, hSecond.nodup, ?_⟩
    intro i hi j hj hSame
    rcases List.mem_map.mp hi with ⟨e, he, rfl⟩
    rcases List.mem_map.mp hj with ⟨e', he', rfl⟩
    rcases hFirst.after e he with ⟨r, hr, hId, hChecked⟩
    have hOpen := hSecond.before e' he' r hr (hId.trans hSame)
    rw [hChecked] at hOpen
    cases hOpen
  · intro e he r hr hId
    rcases List.mem_append.mp he with hOld | hNew
    · exact hFirst.before e hOld r hr hId
    · rcases hFirst.kept r hr with ⟨r', hr', hId', hStays⟩
      have hOpen := hSecond.before e hNew r' hr'
        (hId'.trans hId)
      by_contra hChecked
      rw [hStays (by simpa using hChecked)] at hOpen
      cases hOpen
  · intro e he
    rcases List.mem_append.mp he with hOld | hNew
    · rcases hFirst.after e hOld with ⟨r, hr, hId, hChecked⟩
      rcases hSecond.kept r hr with ⟨r', hr', hId', hStays⟩
      exact ⟨r', hr', hId'.trans hId, hStays hChecked⟩
    · exact hSecond.after e hNew
  · intro r hr
    rcases hFirst.kept r hr with ⟨r', hr', hId, hStays⟩
    rcases hSecond.kept r' hr' with ⟨r'', hr'', hId', hStays'⟩
    exact ⟨r'', hr'', hId'.trans hId,
      fun h => hStays' (hStays h)⟩
  · intro r hr hChecked
    rw [List.map_append, List.mem_append]
    rcases hSecond.checked r hr hChecked with
      hNew | ⟨r', hr', hId, hChecked'⟩
    · exact .inl (.inr hNew)
    · rcases hFirst.checked r' hr' hChecked' with
        hOld | ⟨r'', hr'', hId', hChecked''⟩
      · rw [hId] at hOld
        exact .inl (.inl hOld)
      · exact .inr ⟨r'', hr'', hId'.trans hId, hChecked''⟩

/- A batch holds distinct rows that no pass has examined. -/
theorem EventTable.Selects.mem
    {t : EventTable} {limit : Int} {batch : List EventRow}
    (hBatch : t.Selects limit batch) :
    (batch.map EventRow.id).Nodup ∧
    ∀ e ∈ batch, e ∈ t.rows ∧ e.tiChecked = false := by
  rcases hBatch with ⟨sorted, hPerm, _, rfl⟩
  have hSub : (takeLimit limit sorted).Sublist sorted := by
    unfold takeLimit
    split
    · exact List.Sublist.refl _
    · exact List.take_sublist _ _
  constructor
  · refine (hSub.map EventRow.id).nodup ?_
    rw [(hPerm.map EventRow.id).nodup_iff]
    exact (List.filter_sublist.map EventRow.id).nodup t.nodup
  · intro e he
    have hMem := hPerm.subset (hSub.subset he)
    rw [List.mem_filter] at hMem
    exact ⟨hMem.1, by simpa using hMem.2⟩

/- The number of rows that no pass has examined. -/
def EventTable.backlog (t : EventTable) : Nat :=
  t.rows.countP fun r => !r.tiChecked

/- A batch is as long as its limit and the backlog allow. -/
theorem EventTable.Selects.length
    {t : EventTable} {limit : Int} {batch : List EventRow}
    (hBatch : t.Selects limit batch) :
    batch.length =
      if limit < 0 then t.backlog
      else min limit.toNat t.backlog := by
  rcases hBatch with ⟨sorted, hPerm, _, rfl⟩
  have hLength : sorted.length = t.backlog := by
    rw [hPerm.length_eq, EventTable.backlog,
      List.countP_eq_length_filter]
  unfold takeLimit
  split
  · exact hLength
  · rw [List.length_take, hLength]

/- The rows after the updates of all chunks. -/
theorem checkChunks_rows
    (t : EventTable) (ids : List Str) :
    ((chunks tiChunk ids).foldl EventTable.check t).rows =
      t.rows.map (EventRow.checkIn ids) := by
  have hFold :
      ∀ (parts : List (List Str)) (t : EventTable),
        (parts.foldl EventTable.check t).rows =
          t.rows.map (EventRow.checkIn parts.flatten) := by
    intro parts
    induction parts with
    | nil =>
        intro t
        have hSame :
            EventRow.checkIn ([] : List (List Str)).flatten =
              id := by
          funext r
          simp [EventRow.checkIn]
        rw [hSame, List.map_id]
        rfl
    | cons part rest ih =>
        intro t
        rw [List.foldl_cons, ih]
        simp only [EventTable.check, List.map_map]
        apply List.map_congr_left
        intro r _
        simp only [Function.comp_apply, EventRow.checkIn,
          List.contains_iff_mem, List.flatten_cons,
          List.mem_append]
        by_cases hHere : r.id ∈ part
        · by_cases hLater : r.id ∈ rest.flatten
          · simp [hHere, hLater]
          · simp [hHere, hLater]
        · by_cases hLater : r.id ∈ rest.flatten
          · simp [hHere, hLater]
          · simp [hHere, hLater]
  rw [hFold]
  apply List.map_congr_left
  intro r _
  have hMem : r.id ∈ (chunks tiChunk ids).flatten ↔ r.id ∈ ids := by
    rw [List.mem_flatten]
    exact mem_chunks (by decide) ids r.id
  simp only [EventRow.checkIn, List.contains_iff_mem, hMem]

theorem check_marked
    {s t : EventTable} {limit : Int} {batch : List EventRow}
    (hBatch : s.Selects limit batch)
    (hRows :
      t.rows =
        s.rows.map
          (EventRow.checkIn (batch.map EventRow.id))) :
    Marked s t batch := by
  rcases hBatch.mem with ⟨hNodup, hOpen⟩
  constructor
  · exact hNodup
  · intro e he r hr hId
    rcases hOpen e he with ⟨hMem, hUnchecked⟩
    rw [List.inj_on_of_nodup_map s.nodup hr hMem hId]
    exact hUnchecked
  · intro e he
    refine ⟨e.checkIn (batch.map EventRow.id), ?_,
      e.checkIn_id _, ?_⟩
    · rw [hRows]
      exact List.mem_map_of_mem (hOpen e he).1
    · simp [EventRow.checkIn, List.mem_map_of_mem he]
  · intro r hr
    refine ⟨r.checkIn (batch.map EventRow.id), ?_,
      r.checkIn_id _, ?_⟩
    · rw [hRows]
      exact List.mem_map_of_mem hr
    · intro hChecked
      unfold EventRow.checkIn
      split
      · rfl
      · exact hChecked
  · intro r hr hChecked
    rw [hRows] at hr
    rcases List.mem_map.mp hr with ⟨r', hr', rfl⟩
    rw [r'.checkIn_id]
    by_cases hIn : r'.id ∈ batch.map EventRow.id
    · exact .inl hIn
    · rw [← List.contains_iff_mem] at hIn
      unfold EventRow.checkIn at hChecked
      rw [if_neg hIn] at hChecked
      exact .inr ⟨r', hr', rfl, hChecked⟩

---- Whole Runs

section

variable [Unicode]

/- What a pass does to the tables. -/
theorem matchThreatIntel_matched
    {s : IntelStore}
    (now : Str) {limit : Int} {batch : List EventRow}
    (hBatch : s.events.Selects limit batch) :
    Marked s.events (matchThreatIntel s now batch).1.events
      batch ∧
    (matchThreatIntel s now batch).1.iocs.rows.map
        Ioc.asserted = s.iocs.rows.map Ioc.asserted ∧
    (∀ id,
      (matchThreatIntel s now batch).1.observations id =
        s.observations id +
          ((candidates batch).map fun c =>
            candidateCount
              (hits s.iocs.rows
                ((candidates batch).map Prod.fst)) c
              id).sum) ∧
    ∀ value,
      StandsOnce s (matchThreatIntel s now batch).1 value := by
  unfold matchThreatIntel
  by_cases hEmpty : batch = []
  · rw [if_pos hEmpty]
    refine ⟨check_marked hBatch ?_, rfl, ?_, fun _ => .inl rfl⟩
    · have hSame :
          EventRow.checkIn (batch.map EventRow.id) = id := by
        funext r
        simp [EventRow.checkIn, hEmpty]
      rw [hSame, List.map_id]
    · intro id
      rw [hEmpty]
      rfl
  · rw [if_neg hEmpty]
    have hMatched := matchCandidates_matched now
      (hits_spec s.iocs.rows
        ((candidates batch).map Prod.fst)).1
      ⟨s, 0, []⟩ rfl (candidates batch)
    refine ⟨check_marked hBatch ?_, hMatched.asserted,
      hMatched.counted, hMatched.standing⟩
    rw [checkChunks_rows, hMatched.events]

/- A pass examines a batch that its query selects. -/
theorem IntelStep.selects
    {s t : IntelStore} {now : Str} {limit : Int}
    {batch : List EventRow}
    (hStep : IntelStep s (.pass now limit batch) t) :
    s.events.Selects limit batch := by
  cases hStep with
  | pass _ _ _ hBatch => exact hBatch

/- What a step counts for an active indicator. -/
theorem IntelStep.counted
    {s t : IntelStore} {label : IntelLabel}
    (hStep : IntelStep s label t) (hOnce : CountsOnce ⟨s, label, t⟩)
    {r : Ioc}
    (hRow : r ∈ s.iocs.rows) (hActive : r.status = .active) :
    t.observations r.id =
      s.observations r.id +
        label.examined.countP (EventRow.observes r.value) := by
  cases hStep with
  | ingest rows hNew hIds => rfl
  | pass now limit batch hBatch =>
      rw [(matchThreatIntel_matched now hBatch).2.2.1 r.id,
        candidates_count s.iocs.nodup hOnce.1 hRow hActive]
      have hEach :
          ∀ e ∈ batch, e.channels.count r.value =
            if e.observes r.value then 1 else 0 :=
        fun e he => channels_count_observes
          (hOnce.2 e he r hRow hActive)
      rw [List.map_congr_left hEach]
      congr 1
      exact sum_map_indicator _ _

/- What a step leaves of the indicators, the marks and the
standing alerts. -/
theorem IntelStep.kept
    {s t : IntelStore} {label : IntelLabel}
    (hStep : IntelStep s label t) :
    Marked s.events t.events label.examined ∧
    t.iocs.rows.map Ioc.asserted =
      s.iocs.rows.map Ioc.asserted ∧
    ∀ value, StandsOnce s t value := by
  cases hStep with
  | ingest rows hNew hIds =>
      refine ⟨?_, rfl, fun _ => .inl rfl⟩
      constructor
      · exact List.nodup_nil
      · intro e he
        cases he
      · intro e he
        cases he
      · intro r hr
        exact ⟨r, List.mem_append_left _ hr, rfl, id⟩
      · intro r hr hChecked
        rcases List.mem_append.mp hr with hOld | hLater
        · exact .inr ⟨r, hOld, rfl, hChecked⟩
        · rw [hNew r hLater] at hChecked
          cases hChecked
  | pass now limit batch hBatch =>
      rcases matchThreatIntel_matched now hBatch with
        ⟨hMarked, hAsserted, _, hStands⟩
      exact ⟨hMarked, hAsserted, hStands⟩

/- A run marks the events it examined. -/
theorem run_kept
    {s t : IntelStore}
    {trace : List (Transition IntelStore IntelLabel)}
    (hRun : Run IntelStep s trace t) :
    Marked s.events t.events (examined trace) ∧
    ∀ value, StandsOnce s t value := by
  induction hRun with
  | nil s =>
      refine ⟨?_, fun _ => .inl rfl⟩
      constructor
      · exact List.nodup_nil
      · intro e he
        cases he
      · intro e he
        cases he
      · intro r hr
        exact ⟨r, hr, rfl, id⟩
      · intro r hr hChecked
        exact .inr ⟨r, hr, rfl, hChecked⟩
  | cons hStep _ ih =>
      rcases hStep.kept with ⟨hMarked, _, hStands⟩
      exact ⟨hMarked.trans ih.1,
        fun value => (hStands value).trans (ih.2 value)⟩

/- A run counts each event it examined once. -/
theorem run_counted
    {s t : IntelStore}
    {trace : List (Transition IntelStore IntelLabel)}
    (hRun : Run IntelStep s trace t)
    (hOnce : ∀ e ∈ trace, CountsOnce e) {r : Ioc}
    (hRow : ∃ x ∈ s.iocs.rows, x.asserted = r.asserted)
    (hActive : r.status = .active) :
    t.observations r.id =
      s.observations r.id +
        (examined trace).countP (EventRow.observes r.value) := by
  induction hRun with
  | nil s => rfl
  | cons hStep _ ih =>
      rw [List.forall_mem_cons] at hOnce
      rcases hRow with ⟨x, hX, hSame⟩
      have hId := congrArg Ioc.id hSame
      have hStatus := congrArg Ioc.status hSame
      have hValue := congrArg Ioc.value hSame
      simp only [Ioc.asserted, hActive] at hId hStatus hValue
      have hHere := hStep.counted hOnce.1 hX hStatus
      rw [hId, hValue] at hHere
      rcases exists_asserted hStep.kept.2.1 hX with
        ⟨y, hY, hIs⟩
      rw [ih hOnce.2 ⟨y, hY, hIs.trans hSame⟩, hHere]
      simp only [examined, List.flatMap_cons,
        List.countP_append, Nat.add_assoc]

end

---- Each Observation Counts Once

/- In every run of ingests and passes: no event is examined
twice, the events marked are those that a pass of the run
examined or that were marked before, a pass examines what
its limit allows, and a value gets a standing alert only
where it has none. Where every event examined carries an
indicator's value on one channel at most, each active
indicator gets one sighting per event that observes it. -/
theorem observed_once
    [Unicode]
    {s t : IntelStore}
    {trace : List (Transition IntelStore IntelLabel)}
    (hRun : Run IntelStep s trace t)
    (hOnce : ∀ e ∈ trace, CountsOnce e) :
    ((examined trace).map EventRow.id).Nodup ∧
    (∀ r ∈ t.events.rows, r.tiChecked = true ↔
      r.id ∈ (examined trace).map EventRow.id ∨
        ∃ r' ∈ s.events.rows,
          r'.id = r.id ∧ r'.tiChecked = true) ∧
    (∀ e ∈ trace, ∀ now limit batch,
      e.label = .pass now limit batch →
      batch.length =
        if limit < 0 then e.pre.events.backlog
        else min limit.toNat e.pre.events.backlog) ∧
    (∀ r ∈ s.iocs.rows, r.status = .active →
      t.observations r.id =
        s.observations r.id +
          (examined trace).countP
            (EventRow.observes r.value)) ∧
    (∀ value,
      t.standing value = s.standing value ∨
        (s.standing value = 0 ∧ t.standing value = 1)) := by
  rcases run_kept hRun with ⟨hMarked, hStands⟩
  refine ⟨hMarked.nodup, ?_, ?_, ?_, hStands⟩
  · intro r hr
    refine ⟨hMarked.checked r hr, ?_⟩
    -- a row of the id is marked, and ids are a key
    have hSame :
        (∃ r' ∈ t.events.rows,
          r'.id = r.id ∧ r'.tiChecked = true) →
        r.tiChecked = true := by
      rintro ⟨r', hr', hId, hChecked⟩
      rw [List.inj_on_of_nodup_map t.events.nodup hr hr'
        hId.symm]
      exact hChecked
    rintro (hExamined | ⟨r', hr', hId, hChecked⟩)
    · rcases List.mem_map.mp hExamined with ⟨e, he, hIs⟩
      rcases hMarked.after e he with ⟨r', hr', hId, hChecked⟩
      exact hSame ⟨r', hr', hId.trans hIs, hChecked⟩
    · rcases hMarked.kept r' hr' with ⟨r'', hr'', hId', hStays⟩
      exact hSame
        ⟨r'', hr'', hId'.trans hId, hStays hChecked⟩
  · intro e he now limit batch hLabel
    have hStep := (hRun.forall_step (I := fun _ => True)
      (fun _ _ _ _ _ => trivial) trivial e he).2
    rw [hLabel] at hStep
    exact hStep.selects.length
  · intro r hr hActive
    exact run_counted hRun hOnce ⟨r, hr, rfl⟩ hActive

/- An indicator for an address, and a connection from the
address. -/
def badAddress : Ioc where
  id := lit "ioc-1"
  type := lit "ip"
  value := lit "203.0.113.9"
  threatType := some (lit "c2")
  confidence := 60
  severity := some (lit "high")
  source := some (lit "feed")
  actor := none
  lastSeen := none
  status := .active
  sightings := 1
  intelScore := some 80

def connection (dest : String) : EventRow where
  id := lit "ev-1"
  ts := lit "2026-01-01T00:00:00+00:00"
  srcIp := some (lit "203.0.113.9")
  destIp := some (lit dest)
  destHost := none
  url := none
  orgId := none
  tiChecked := false

/- A store with one indicator and one event. -/
def oneEvent (dest : String) : IntelStore where
  events := ⟨[connection dest], List.nodup_singleton _⟩
  iocs :=
    ⟨[badAddress], List.nodup_singleton _, by
      intro r hr
      rw [List.mem_singleton.mp hr]
      decide⟩
  sightings := []
  alerts := []

theorem oneEvent_step
    [Unicode]
    (dest : String) :
    IntelStep (oneEvent dest)
      (.pass (lit "now") 500 [connection dest])
      (matchThreatIntel (oneEvent dest) (lit "now")
        [connection dest]).1 := by
  refine .pass (oneEvent dest) (lit "now") 500
    [connection dest] ⟨[connection dest], ?_, ?_, rfl⟩
  · exact List.Perm.refl _
  · exact List.pairwise_singleton _ _

local instance matchingUnicode : Unicode := asciiTables

/- An event with the value on one channel is one sighting. -/
theorem one_channel_one_sighting :
    (matchThreatIntel (oneEvent "10.0.0.1") (lit "now")
      [connection "10.0.0.1"]).1.observations
        (lit "ioc-1") = 1 := by
  have hChannel :
      OneChannel (connection "10.0.0.1") badAddress.value := by
    refine ⟨by decide, ?_, by decide⟩
    intro host hHost
    cases hHost
  have hOnce :
      CountsOnce ⟨oneEvent "10.0.0.1",
        .pass (lit "now") 500 [connection "10.0.0.1"],
        (matchThreatIntel (oneEvent "10.0.0.1") (lit "now")
          [connection "10.0.0.1"]).1⟩ := by
    refine ⟨by decide, ?_⟩
    intro ev hEv r hr _
    rw [List.mem_singleton.mp hEv, List.mem_singleton.mp hr]
    exact hChannel
  have hCounts := (observed_once
    (.cons (oneEvent_step "10.0.0.1") (.nil _))
    (fun e he => by
      rw [List.mem_singleton.mp he]
      exact hOnce)).2.2.2.1 badAddress
        (List.mem_singleton_self _) rfl
  exact hCounts

/- An event from the address to itself is two sightings. -/
theorem two_channels_two_sightings :
    ∃ trace t,
      Run IntelStep (oneEvent "203.0.113.9") trace t ∧
      (examined trace).countP
        (EventRow.observes (lit "203.0.113.9")) = 1 ∧
      t.observations (lit "ioc-1") = 2 := by
  refine ⟨_, _, .cons (oneEvent_step "203.0.113.9") (.nil _),
    ?_, ?_⟩
  · decide
  · decide

end ThreatOrbit.Intel
