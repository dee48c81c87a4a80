import ThreatOrbit.Hunting.Scheduled
import ThreatOrbit.Lib.Grouping

/-
  What a search counts.

  A search reads the newest rows of its window, up to a
  limit, before it filters, joins and groups them. Its hits
  are those of the whole window if the rows it does not read
  neither count nor let another row count.
-/

---- The Rows That Count

namespace ThreatOrbit.Hunting

open Lib Detection

section

variable [Unicode] [RegexEngine]

/- Whether a row meets every condition of a search, and has
every text of it. -/
def ParsedQuery.meets (p : ParsedQuery) (row : Stored) : Bool :=
  p.allConditions.all fun c =>
    match matchCondition row.event c with
    | .ok hit => hit
    | .error _ => false

/- Whether the value of a row also occurs in a row of the
window that a sub-search matches. A sub-search that asks for
nothing matches nothing. -/
def joinsWith
    (field query : Str)
    (window : List Stored)
    (row : Stored) : Bool :=
  let sub := parseQuery query
  match row.text field with
  | none => false
  | some key =>
      window.any fun other =>
        !sub.allConditions.isEmpty && sub.meets other &&
          other.text field == some key

/- Whether a row of a window counts. -/
def ParsedQuery.counts
    (p : ParsedQuery)
    (window : List Stored)
    (row : Stored) : Bool :=
  p.meets row &&
    match p.join with
    | none => true
    | some (field, query) => joinsWith field query window row

/- All conditions of a definition under `and`. -/
theorem matchConditions_all
    {e : Event} {conds : List Condition} {results : List Bool}
    (hResults : matchConditions e conds = .ok results) :
    results.all id =
      conds.all fun c =>
        match matchCondition e c with
        | .ok hit => hit
        | .error _ => false := by
  induction conds generalizing results with
  | nil =>
      cases hResults
      rfl
  | cons c rest ih =>
      unfold matchConditions at hResults
      cases hCond : matchCondition e c with
      | error err =>
          rw [hCond] at hResults
          cases hResults
      | ok hit =>
          rw [hCond] at hResults
          cases hRest : matchConditions e rest with
          | error err =>
              rw [hRest] at hResults
              cases hResults
          | ok more =>
              rw [hRest] at hResults
              cases hResults
              rw [List.all_cons, List.all_cons, hCond, ih hRest]
              rfl

/- A parsed query hits the rows that meet it. -/
theorem hits_eq_meets
    (q : Str) (row : Stored) :
    (parseQuery q).hits row = (parseQuery q).meets row := by
  unfold ParsedQuery.hits ParsedQuery.meets
  cases hEmpty : (parseQuery q).allConditions.isEmpty with
  | true =>
      rw [List.isEmpty_iff] at hEmpty
      rw [hEmpty]
      rfl
  | false =>
      have hBroken :
          (parseQuery q).allConditions.any Condition.broken =
            false :=
        definition_not_broken q
      rcases matchConditions_of_not_broken hBroken row.event with
        ⟨results, hResults⟩
      have hAnd : (parseQuery q).definition.logicWord =
          lit "and" := by
        exact (Unicode.lower_ascii (lit "and")
          (by decide)).trans (by decide)
      rw [Bool.false_or, ← matchConditions_all hResults]
      unfold Definition.hits matchesEvent
      have hSome : (parseQuery q).definition.conditions.isEmpty =
          false := hEmpty
      simp only [hSome, Bool.false_eq_true, if_false, bind,
        Except.bind]
      have hConds :
          matchConditions row.event
              (parseQuery q).definition.conditions =
            .ok results := hResults
      rw [hConds]
      simp only [hAnd, if_true]

/- What a search keeps of rows are those that count. -/
theorem matchedRows_eq_filter
    (q : Str) (rows : List Stored) :
    matchedRows (parseQuery q) rows =
      rows.filter ((parseQuery q).counts rows) := by
  unfold matchedRows ParsedQuery.counts
  cases (parseQuery q).join with
  | none =>
      apply List.filter_congr
      intro row _
      rw [hits_eq_meets]
      simp
  | some join =>
      rcases join with ⟨field, query⟩
      simp only
      unfold joinedRows joinsWith
      rw [List.filter_filter]
      apply List.filter_congr
      intro row _
      rw [hits_eq_meets, Bool.and_comm]
      congr 1
      cases hText : row.text field with
      | none => rfl
      | some key =>
          simp only
          rw [Bool.eq_iff_iff, List.contains_iff_mem,
            List.mem_filterMap, List.any_eq_true]
          cases hEmpty :
              (parseQuery query).allConditions.isEmpty with
          | true => simp
          | false =>
              simp [List.mem_filter, hits_eq_meets,
                and_assoc]

end

---- The Rows That Are Not Read

section

/- The rows of a window that a search does not read. -/
def unread
    (newest : NewestFirst)
    (since : Str)
    (table : List Stored) : List Stored :=
  (newest.order (windowRows since table)).drop 5000

/- Rows are read or not. -/
theorem scanned_append_unread
    (newest : NewestFirst) (since : Str) (table : List Stored) :
    (scanned newest since table ++
      unread newest since table).Perm
        (windowRows since table) := by
  unfold scanned unread
  rw [List.take_append_drop]
  exact newest.perm _

variable [Unicode] [RegexEngine]

/- A row that counts among some rows counts among more. -/
theorem counts_mono
    {p : ParsedQuery} {rows more : List Stored}
    (hSub : ∀ row ∈ rows, row ∈ more) {row : Stored}
    (hCounts : p.counts rows row = true) :
    p.counts more row = true := by
  unfold ParsedQuery.counts at hCounts ⊢
  rw [Bool.and_eq_true] at hCounts ⊢
  refine ⟨hCounts.1, ?_⟩
  cases hJoin : p.join with
  | none => rfl
  | some join =>
      rcases join with ⟨field, query⟩
      have hRow := hCounts.2
      rw [hJoin] at hRow
      unfold joinsWith at hRow ⊢
      simp only at hRow ⊢
      cases hText : row.text field with
      | none =>
          rw [hText] at hRow
          cases hRow
      | some key =>
          rw [hText] at hRow
          simp only at hRow ⊢
          rw [List.any_eq_true] at hRow ⊢
          rcases hRow with ⟨other, hOther, hIs⟩
          exact ⟨other, hSub other hOther, hIs⟩

/- What is not read loses nothing: no row of it counts, and no
row that is read counts by a row of it alone. -/
def LosesNothing
    (p : ParsedQuery)
    (newest : NewestFirst)
    (since : Str)
    (table : List Stored) : Prop :=
  (∀ row ∈ unread newest since table,
      p.counts (windowRows since table) row = false) ∧
    ∀ row ∈ scanned newest since table,
      p.counts (windowRows since table) row = true →
        p.counts (scanned newest since table) row = true

/- The rows that are read count as many as the window exactly
if nothing is lost. -/
theorem count_scanned_iff
    (p : ParsedQuery) (newest : NewestFirst) (since : Str)
    (table : List Stored) :
    (scanned newest since table).countP
          (p.counts (scanned newest since table)) =
        (windowRows since table).countP
          (p.counts (windowRows since table)) ↔
      LosesNothing p newest since table := by
  have hSplit :
      (windowRows since table).countP
          (p.counts (windowRows since table)) =
        (scanned newest since table).countP
            (p.counts (windowRows since table)) +
          (unread newest since table).countP
            (p.counts (windowRows since table)) := by
    rw [← List.countP_append]
    exact ((scanned_append_unread newest since
      table).countP_eq _).symm
  have hImp : ∀ row ∈ scanned newest since table,
      p.counts (scanned newest since table) row = true →
        p.counts (windowRows since table) row = true :=
    fun row _ => counts_mono fun _ hRow => mem_scanned hRow
  have hLe := List.countP_mono_left hImp
  have hSame := countP_eq_iff_of_imp hImp
  have hNone :
      (unread newest since table).countP
            (p.counts (windowRows since table)) = 0 ↔
        ∀ row ∈ unread newest since table,
          p.counts (windowRows since table) row = false := by
    rw [List.countP_eq_zero]
    simp
  unfold LosesNothing
  rw [← hNone, ← hSame, hSplit]
  omega

end

---- Groups

section

variable [Unicode]

/- The value of a field as a search shows it. -/
def shownValue (field : Str) (row : Stored) : Str :=
  (row.text field).getD (lit "-")

/- The groups are a tally, the most frequent first. -/
theorem groupCounts_perm
    (field : Str) (rows : List Stored) :
    (groupCounts field rows).Perm
      (tally (rows.map (shownValue field))) := by
  unfold groupCounts tally
  rw [List.foldl_map]
  exact List.mergeSort_perm _ _

/- Each group has the number of the rows with its value. -/
theorem mem_groupCounts_iff
    {field : Str} {rows : List Stored} {value : Str} {n : Nat} :
    (value, n) ∈ groupCounts field rows ↔
      (∃ row ∈ rows, shownValue field row = value) ∧
        n = rows.countP fun row =>
          shownValue field row == value := by
  rw [(groupCounts_perm field rows).mem_iff, mem_tally_iff,
    List.mem_map, List.count, List.countP_map]
  rfl

theorem groupCounts_nodup
    (field : Str) (rows : List Stored) :
    ((groupCounts field rows).map Prod.fst).Nodup := by
  rw [((groupCounts_perm field rows).map Prod.fst).nodup_iff]
  exact tally_keys_nodup _

end

---- True Counts

section

variable [Unicode] [RegexEngine]

/- The rows of a window that count, with a value of a field. -/
def countAt
    (p : ParsedQuery)
    (window : List Stored)
    (field value : Str) : Nat :=
  window.countP fun row =>
    p.counts window row && shownValue field row == value

/- The hits of a result are the rows of the window that count.
Each group has the number of those with its value, and no
value is left out unless fifty groups are shown. -/
structure TrueCounts
    (p : ParsedQuery)
    (window : List Stored)
    (result : SearchResult) : Prop where
  hits : result.hits = window.countP (p.counts window)
  groups :
    ∀ field, p.stats = some field →
      ∃ groups, result.stats = some (field, groups) ∧
        (∀ value n, (value, n) ∈ groups →
          n = countAt p window field value) ∧
        (groups.map Prod.fst).Nodup ∧
        (groups.length < 50 →
          ∀ row ∈ window, p.counts window row = true →
            ∃ n, (shownValue field row, n) ∈ groups)

/- A search returns what it keeps of the rows it reads. -/
theorem eventSearch_returns
    (newest : NewestFirst) (table : List Stored) (clock : Moment)
    (query timeRange : Str) (limit : Nat) (sinceIso : Option Str) :
    let p := parseQuery query
    let rows := scanned newest (windowStart timeRange clock) table
    let matched := rows.filter (p.counts rows)
    ∃ result,
      eventSearch newest table clock query timeRange limit
          sinceIso = .ok result ∧
        result.hits = matched.length ∧
        ∀ field, p.stats = some field →
          result.stats =
            some (field, (groupCounts field matched).take 50) := by
  dsimp only
  unfold eventSearch
  simp only [searchMatches_ok, matchedRows_eq_filter, bind,
    Except.bind]
  cases hStats : (parseQuery query).stats with
  | some field =>
      refine ⟨_, rfl, rfl, ?_⟩
      intro other hOther
      rw [Option.some.inj hOther]
  | none =>
      refine ⟨_, rfl, rfl, ?_⟩
      intro other hOther
      cases hOther

/- Where nothing is lost, the rows that are read and count are
those of the window that do. -/
theorem kept_perm
    {p : ParsedQuery} {newest : NewestFirst} {since : Str}
    {table : List Stored}
    (hLoses : LosesNothing p newest since table) :
    ((scanned newest since table).filter
        (p.counts (scanned newest since table))).Perm
      ((windowRows since table).filter
        (p.counts (windowRows since table))) := by
  have hRead :
      (scanned newest since table).filter
          (p.counts (scanned newest since table)) =
        (scanned newest since table).filter
          (p.counts (windowRows since table)) := by
    apply List.filter_congr
    intro row hRow
    rw [Bool.eq_iff_iff]
    exact ⟨counts_mono fun _ hOther => mem_scanned hOther,
      hLoses.2 row hRow⟩
  have hUnread :
      (unread newest since table).filter
          (p.counts (windowRows since table)) = [] := by
    rw [List.filter_eq_nil_iff]
    intro row hRow
    rw [hLoses.1 row hRow]
    exact Bool.false_ne_true
  have hPerm := (scanned_append_unread newest since
    table).filter (p.counts (windowRows since table))
  rw [List.filter_append, hUnread, List.append_nil] at hPerm
  rw [hRead]
  exact hPerm

/- Groups of the rows that count are exact. -/
theorem groups_exact
    {p : ParsedQuery} {window matched : List Stored}
    (hMatched :
      matched.Perm (window.filter (p.counts window)))
    (field : Str) :
    (∀ value n,
        (value, n) ∈ (groupCounts field matched).take 50 →
          n = countAt p window field value) ∧
      (((groupCounts field matched).take 50).map
        Prod.fst).Nodup ∧
      (((groupCounts field matched).take 50).length < 50 →
        ∀ row ∈ window, p.counts window row = true →
          ∃ n, (shownValue field row, n) ∈
            (groupCounts field matched).take 50) := by
  refine ⟨?_, ?_, ?_⟩
  · intro value n hMem
    have hGroup := mem_groupCounts_iff.mp
      (List.mem_of_mem_take hMem)
    rw [hGroup.2, hMatched.countP_eq, List.countP_filter]
    apply List.countP_congr
    intro row _
    rw [Bool.and_comm]
  · rw [List.map_take]
    exact (groupCounts_nodup field matched).sublist
      (List.take_sublist _ _)
  · intro hFew row hRow hCounts
    have hAll : (groupCounts field matched).take 50 =
        groupCounts field matched := by
      rw [List.length_take] at hFew
      exact List.take_of_length_le (by omega)
    refine ⟨matched.countP fun other =>
      shownValue field other == shownValue field row, ?_⟩
    rw [hAll]
    refine mem_groupCounts_iff.mpr ⟨⟨row, ?_, rfl⟩, rfl⟩
    exact hMatched.mem_iff.mpr
      (List.mem_filter.mpr ⟨hRow, hCounts⟩)

/- The counts of a search are true exactly if no row of the
window that it does not read counts, and none that it reads
counts only by one that it does not. -/
theorem search_counts_iff
    (newest : NewestFirst)
    (table : List Stored)
    (clock : Moment)
    (query timeRange : Str)
    (limit : Nat)
    (sinceIso : Option Str) :
    (∃ result,
        eventSearch newest table clock query timeRange limit
            sinceIso = .ok result ∧
          TrueCounts (parseQuery query)
            (windowRows (windowStart timeRange clock) table)
            result) ↔
      LosesNothing (parseQuery query) newest
        (windowStart timeRange clock) table := by
  rcases eventSearch_returns newest table clock query timeRange
    limit sinceIso with ⟨result, hResult, hHits, hStats⟩
  rw [← List.countP_eq_length_filter] at hHits
  constructor
  · rintro ⟨other, hOther, hTrue⟩
    rw [hResult] at hOther
    cases hOther
    exact (count_scanned_iff _ _ _ _).mp
      (hHits.symm.trans hTrue.hits)
  · intro hLoses
    refine ⟨result, hResult, ?_, ?_⟩
    · rw [hHits]
      exact (count_scanned_iff _ _ _ _).mpr hLoses
    · intro field hField
      exact ⟨_, hStats field hField,
        groups_exact (kept_perm hLoses) field⟩

end

---- One Event Too Many

local instance countingUnicode : Unicode := asciiTables

local instance countingPatterns : RegexEngine := noPatterns

/- Events of one midnight, each with its own id. -/
def midnightEvents (n : Nat) : List Stored :=
  (List.range n).map fun i => ⟨natStr i, ⟨midnight.iso, []⟩⟩

theorem midnightEvents_window (n : Nat) :
    windowRows (windowStart (lit "24h") twoOClock)
        (midnightEvents n) =
      midnightEvents n := by
  have hSince : windowStart (lit "24h") twoOClock ≤
      midnight.iso := by
    decide +kernel
  unfold windowRows
  rw [List.filter_eq_self]
  intro row hRow
  rcases List.mem_map.mp hRow with ⟨i, _, rfl⟩
  exact decide_eq_true hSince

/- A search for every event counts every event. -/
theorem counts_nil
    (window : List Stored) (row : Stored) :
    (parseQuery []).counts window row = true := by
  rcases parseQuery_nil with ⟨hNone, hJoin, _⟩
  unfold ParsedQuery.counts ParsedQuery.meets
  rw [hNone, hJoin]
  rfl

/- Of 5001 events of a day, a search for every event counts
5000. -/
theorem search_counts_too_few :
    ¬ ∃ result,
        eventSearch newestRows (midnightEvents 5001) twoOClock
            [] (lit "24h") 200 none = .ok result ∧
          TrueCounts (parseQuery [])
            (windowRows (windowStart (lit "24h") twoOClock)
              (midnightEvents 5001)) result := by
  rintro ⟨result, hResult, hTrue⟩
  rcases eventSearch_returns newestRows (midnightEvents 5001)
    twoOClock [] (lit "24h") 200 none with
    ⟨other, hOther, hHits, _⟩
  rw [hResult] at hOther
  cases hOther
  have hAll := hTrue.hits
  rw [List.countP_eq_length.mpr fun row _ => counts_nil _ row,
    midnightEvents_window, midnightEvents, List.length_map,
    List.length_range] at hAll
  have hRead : result.hits ≤ 5000 := by
    rw [hHits]
    apply (List.length_filter_le _ _).trans
    unfold scanned
    rw [List.length_take]
    exact Nat.min_le_left _ _
  omega

end ThreatOrbit.Hunting
