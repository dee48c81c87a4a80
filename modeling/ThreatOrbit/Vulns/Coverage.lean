import ThreatOrbit.Vulns.Catalogue

/-
  What the synced catalogue reports.

  The import keeps the first range of a product in a record,
  and the table the range of the last record of a CVE. A
  scan with the synced catalogue is complete where that
  range has every version the other ranges have.
-/

---- What A Match Says

namespace ThreatOrbit.Vulns

open Lib

/- The match gives a version bound. -/
def CpeMatch.Bounded (m : CpeMatch) : Prop :=
  m.versionStartIncluding ≠ none ∨
    m.versionStartExcluding ≠ none ∨
    m.versionEndIncluding ≠ none ∨
    m.versionEndExcluding ≠ none

/- The version is in the range the match states: within its
bounds, each inclusive or exclusive as stated, or, if it
has none, equal to its exact version. -/
def CpeMatch.Covers (m : CpeMatch) (version : Str) : Prop :=
  (m.Bounded ∧
    (∀ lo, m.versionStartIncluding = some lo →
      verCmp version lo = some .gt ∨
        verCmp version lo = some .eq) ∧
    (∀ lo, m.versionStartExcluding = some lo →
      verCmp version lo = some .gt) ∧
    (∀ hi, m.versionEndIncluding = some hi →
      verCmp version hi = some .lt ∨
        verCmp version hi = some .eq) ∧
    (∀ hi, m.versionEndExcluding = some hi →
      verCmp version hi = some .lt)) ∨
  (¬ m.Bounded ∧
    ∃ exact, m.pinned = some exact ∧
      verCmp version exact = some .eq)

/- A bound that is not empty is taken as it is given. -/
theorem orElse_of_filled
    {first second : Option Str}
    (hFirst : first ≠ some []) :
    orElse first second = first.or second := by
  cases first with
  | none => rfl
  | some text =>
      cases text with
      | nil => exact absurd rfl hFirst
      | cons c rest => rfl

theorem orStr_eq_nil
    {bound : Option Str}
    (hFilled : bound ≠ some []) :
    orStr bound [] = [] ↔ bound = none := by
  cases bound with
  | none => simp [orStr]
  | some text =>
      cases text with
      | nil => exact absurd rfl hFilled
      | cons c rest => simp [orStr]

/- The lower bound of a match, as the scan checks it. -/
theorem reaches_iff
    (m : CpeMatch) (stop : Option Str) (stopIncl : Bool)
    (version : Str) :
    Bounds.reaches
        ⟨orElse m.versionStartIncluding
            m.versionStartExcluding,
          m.versionStartExcluding.isNone, stop, stopIncl⟩
        version = some true ↔
      (∀ lo, m.versionStartIncluding = some lo →
        verCmp version lo = some .gt ∨
          verCmp version lo = some .eq) ∧
      (∀ lo, m.versionStartExcluding = some lo →
        verCmp version lo = some .gt) := by
  have hFilled : m.versionStartIncluding ≠ some [] :=
    m.filled _ (by simp)
  rw [orElse_of_filled hFilled]
  unfold Bounds.reaches
  rcases m.oneStart with hNone | hNone
  · rw [hNone]
    cases hStart : m.versionStartExcluding with
    | none => simp
    | some lo =>
        cases hCmp : verCmp version lo with
        | none => simp [hCmp]
        | some c => cases c <;> simp [hCmp]
  · rw [hNone]
    cases hStart : m.versionStartIncluding with
    | none => simp
    | some lo =>
        cases hCmp : verCmp version lo with
        | none => simp [hCmp]
        | some c => cases c <;> simp [hCmp]

/- The upper bound of a match, as the scan checks it. -/
theorem stays_iff
    (m : CpeMatch) (start : Option Str) (startIncl : Bool)
    (version : Str) :
    Bounds.stays
        ⟨start, startIncl,
          orElse m.versionEndIncluding m.versionEndExcluding,
          m.versionEndIncluding.isSome⟩
        version = some true ↔
      (∀ hi, m.versionEndIncluding = some hi →
        verCmp version hi = some .lt ∨
          verCmp version hi = some .eq) ∧
      (∀ hi, m.versionEndExcluding = some hi →
        verCmp version hi = some .lt) := by
  have hFilled : m.versionEndIncluding ≠ some [] :=
    m.filled _ (by simp)
  rw [orElse_of_filled hFilled]
  unfold Bounds.stays
  rcases m.oneEnd with hNone | hNone
  · rw [hNone]
    cases hStop : m.versionEndExcluding with
    | none => simp
    | some hi =>
        cases hCmp : verCmp version hi with
        | none => simp [hCmp]
        | some c => cases c <;> simp [hCmp]
  · rw [hNone]
    cases hStop : m.versionEndIncluding with
    | none => simp
    | some hi =>
        cases hCmp : verCmp version hi with
        | none => simp [hCmp]
        | some c => cases c <;> simp [hCmp]

theorem covers_eq_true
    (b : Bounds) (version : Str) :
    b.covers version = some true ↔
      ¬ (b.start = none ∧ b.stop = none) ∧
        b.reaches version = some true ∧
        b.stays version = some true := by
  unfold Bounds.covers
  by_cases hNone : b.start = none ∧ b.stop = none
  · simp [hNone]
  · rw [if_neg hNone]
    cases hReaches : b.reaches version with
    | none => simp
    | some reached =>
        cases reached with
        | false => simp
        | true => simp [hNone]

/- A match without a bound is unbounded for the import. -/
theorem not_bounded_iff (m : CpeMatch) :
    ¬ m.Bounded ↔
      orStr (orElse m.versionStartIncluding
          m.versionStartExcluding) [] = [] ∧
        orStr (orElse m.versionEndIncluding
          m.versionEndExcluding) [] = [] := by
  have hSi : m.versionStartIncluding ≠ some [] :=
    m.filled _ (by simp)
  have hSe : m.versionStartExcluding ≠ some [] :=
    m.filled _ (by simp)
  have hEi : m.versionEndIncluding ≠ some [] :=
    m.filled _ (by simp)
  have hEe : m.versionEndExcluding ≠ some [] :=
    m.filled _ (by simp)
  have hOr :
      ∀ {first second : Option Str}, first ≠ some [] →
        second ≠ some [] →
        (orStr (orElse first second) [] = [] ↔
          first = none ∧ second = none) := by
    intro first second hFirst hSecond
    cases first with
    | none => simp [orElse, orStr_eq_nil hSecond]
    | some text =>
        cases text with
        | nil => exact absurd rfl hFirst
        | cons c rest => simp [orElse, orStr]
  rw [hOr hSi hSe, hOr hEi hEe]
  unfold CpeMatch.Bounded
  push Not
  tauto

/- The bounds that are imported for a match cover what the
match covers. -/
theorem bounds_covers_iff
    (m : CpeMatch) (version : Str) :
    (∃ b, m.bounds = some b ∧
      b.covers version = some true) ↔ m.Covers version := by
  unfold CpeMatch.bounds CpeMatch.Covers
  dsimp only
  by_cases hBounded : m.Bounded
  · have hNot := mt (not_bounded_iff m).mpr (not_not.mpr hBounded)
    rw [if_neg hNot]
    have hSome :
        ¬ (orElse m.versionStartIncluding
            m.versionStartExcluding = none ∧
          orElse m.versionEndIncluding
            m.versionEndExcluding = none) := by
      rintro ⟨hStart, hStop⟩
      rw [hStart, hStop] at hNot
      exact hNot ⟨rfl, rfl⟩
    simp only [Option.some.injEq, exists_eq_left',
      covers_eq_true, reaches_iff, stays_iff, hSome,
      not_false_eq_true, true_and, hBounded, not_true_eq_false,
      false_and, or_false]
    tauto
  · rw [if_pos ((not_bounded_iff m).mp hBounded)]
    simp only [hBounded, false_and, not_false_eq_true,
      true_and, false_or, Option.map_eq_some_iff]
    have hExact :
        ∀ exact,
          Bounds.covers ⟨some exact, true, some exact, true⟩
              version = some true ↔
            verCmp version exact = some .eq := by
      intro exact
      rw [covers_eq_true]
      unfold Bounds.reaches Bounds.stays
      cases hCmp : verCmp version exact with
      | none => simp [hCmp]
      | some c => cases c <;> simp [hCmp]
    constructor
    · rintro ⟨b, ⟨exact, hPinned, rfl⟩, hCovers⟩
      exact ⟨exact, hPinned, (hExact exact).mp hCovers⟩
    · rintro ⟨exact, hPinned, hEq⟩
      exact ⟨_, ⟨exact, hPinned, rfl⟩, (hExact exact).mpr hEq⟩

---- Rows Of The Import

section

variable [Unicode]

/- The first vulnerable match of a record for a product. -/
def CveRecord.firstMatch
    (r : CveRecord)
    (product : Str) : Option CpeMatch :=
  r.cpeMatches.find? fun m =>
    m.vulnerable && m.product == some product

/- The range that record gives for a product. -/
def CveRecord.range
    (r : CveRecord)
    (product : Str) : Option Bounds :=
  (r.firstMatch product).bind CpeMatch.bounds

/- The range kept for a product of a CVE: that of the last
record of the CVE whose first vulnerable match for the
product gives one. -/
def keptRange
    (records : List CveRecord)
    (cve product : Str) : Option Bounds :=
  (records.filterMap fun r =>
    if r.id = cve then r.range product else none).getLast?

/- The ranges of the rows of a product. -/
def rangesOf
    (product : Str)
    (rows : List CatalogueRow) : List Bounds :=
  (rows.filter fun row => row.product = product).map
    CatalogueRow.bounds

/- The matches add, for each product that was not seen, the
range of the first one that is for it. -/
theorem addMatches_ranges
    (upper : Str → Str) (r : CveRecord) (product : Str)
    (ms : List CpeMatch) (st : RecordState) :
    rangesOf product (ms.foldl (r.addMatch upper) st).rows =
      rangesOf product st.rows ++
        if st.seen.contains product then []
        else
          ((ms.find? fun m =>
            m.vulnerable && m.product == some product).bind
              CpeMatch.bounds).toList := by
  induction ms generalizing st with
  | nil =>
      simp only [List.foldl_nil, List.find?_nil,
        Option.bind_none, Option.toList_none]
      split
      · rw [List.append_nil]
      · rw [List.append_nil]
  | cons m rest ih =>
      rw [List.foldl_cons, ih]
      unfold CveRecord.addMatch
      cases hVulnerable : m.vulnerable with
      | false => simp [hVulnerable]
      | true =>
          cases hProduct : m.product with
          | none => simp [hProduct]
          | some name =>
              simp only [Bool.not_true, Bool.false_eq_true,
                if_false]
              by_cases hSame : name = product
              · have hFind :
                    (m :: rest).find? (fun m =>
                      m.vulnerable &&
                        m.product == some product) = some m :=
                  List.find?_cons_of_pos
                    (by simp [hVulnerable, hProduct, hSame])
                rw [hFind, hSame, Option.bind_some]
                by_cases hSeen : st.seen.contains product = true
                · -- a product that was seen stays as it was
                  rw [if_pos hSeen, if_pos hSeen, if_pos hSeen]
                · rw [if_neg hSeen, if_neg hSeen]
                  cases hBounds : m.bounds with
                  | none => simp
                  | some bounds => simp [rangesOf]
              · have hOther : ¬ product = name :=
                  fun h => hSame h.symm
                have hFind :
                    (m :: rest).find? (fun m =>
                      m.vulnerable &&
                        m.product == some product) =
                    rest.find? (fun m =>
                      m.vulnerable &&
                        m.product == some product) :=
                  List.find?_cons_of_neg
                    (by simp [hProduct, hSame])
                rw [hFind]
                by_cases hSeen : st.seen.contains name = true
                · rw [if_pos hSeen]
                · rw [if_neg hSeen]
                  cases hBounds : m.bounds with
                  | none => simp [hOther]
                  | some bounds =>
                      simp [hSame, hOther, rangesOf]

/- A record has a row for a product where its first match
gives a range. -/
theorem rows_ranges
    (upper : Str → Str) (r : CveRecord) (product : Str) :
    rangesOf product (r.rows upper) =
      (r.range product).toList := by
  unfold CveRecord.rows
  rw [if_neg r.named, addMatches_ranges]
  rfl

/- The rows of a record are of its CVE. -/
theorem rows_cve
    (upper : Str → Str) (r : CveRecord) :
    ∀ row ∈ r.rows upper, row.cve = r.id := by
  have hFold :
      ∀ (ms : List CpeMatch) (st : RecordState),
        (∀ row ∈ st.rows, row.cve = r.id) →
        ∀ row ∈ (ms.foldl (r.addMatch upper) st).rows,
          row.cve = r.id := by
    intro ms
    induction ms with
    | nil => exact fun _ h => h
    | cons m rest ih =>
        intro st hRows
        refine ih _ ?_
        unfold CveRecord.addMatch
        split
        · exact hRows
        · split
          · exact hRows
          · split
            · exact hRows
            · dsimp only
              split
              · exact hRows
              · intro row hRow
                rcases List.mem_append.mp hRow with hOld | hNew
                · exact hRows row hOld
                · rw [List.mem_singleton.mp hNew]
  unfold CveRecord.rows
  split
  · intro row hRow
    cases hRow
  · exact hFold _ _ (fun row hRow => by cases hRow)

/- The ranges of the rows of a CVE and product, in the order
of the import. -/
def keyRanges
    (cve product : Str)
    (rows : List CatalogueRow) : List Bounds :=
  (rows.filter fun row =>
    row.cve = cve ∧ row.product = product).map
      CatalogueRow.bounds

theorem nvdToCatalogue_ranges
    (upper : Str → Str) (records : List CveRecord)
    (cve product : Str) :
    keyRanges cve product (nvdToCatalogue upper records) =
      records.filterMap fun r =>
        if r.id = cve then r.range product else none := by
  induction records with
  | nil => rfl
  | cons r rest ih =>
      have hHead :
          keyRanges cve product (r.rows upper) =
            (if r.id = cve then r.range product
              else none).toList := by
        unfold keyRanges
        by_cases hId : r.id = cve
        · rw [if_pos hId, ← rows_ranges upper]
          unfold rangesOf
          congr 1
          apply List.filter_congr
          intro row hRow
          simp [rows_cve upper r row hRow, hId]
        · rw [if_neg hId]
          have hNone :
              (r.rows upper).filter (fun row =>
                row.cve = cve ∧ row.product = product) = [] := by
            rw [List.filter_eq_nil_iff]
            intro row hRow
            simp [rows_cve upper r row hRow, hId]
          rw [hNone]
          rfl
      have hSplit :
          keyRanges cve product
              (nvdToCatalogue upper (r :: rest)) =
            keyRanges cve product (r.rows upper) ++
              keyRanges cve product
                (nvdToCatalogue upper rest) := by
        simp [keyRanges, nvdToCatalogue]
      rw [hSplit, hHead, ih, List.filterMap_cons]
      cases (if r.id = cve then r.range product else none) with
      | none => rfl
      | some b => rfl

end

---- Rows Of The Table

/- The stored ranges of a CVE and product. -/
def storedRanges
    (cve product : Str)
    (table : List DbRow) : List Bounds :=
  keyRanges cve product (table.map DbRow.toCatalogueRow)

/- An upsert replaces the one range of its key and leaves
the others. -/
theorem upsertRow_ranges
    (source now : Str) (table : List DbRow) (r : CatalogueRow)
    (cve product : Str)
    (hOne : (storedRanges cve product table).length ≤ 1) :
    storedRanges cve product (upsertRow source now table r) =
      if r.cve = cve ∧ r.product = product then [r.bounds]
      else storedRanges cve product table := by
  unfold upsertRow
  by_cases hThere :
      table.any (fun s => r.sameKey s.toCatalogueRow) = true
  · rw [if_pos hThere]
    by_cases hKey : r.cve = cve ∧ r.product = product
    · rw [if_pos hKey]
      rcases hKey with ⟨rfl, rfl⟩
      -- every row of the key becomes the new one
      have hRows :
          ∀ l : List DbRow,
            storedRanges r.cve r.product
              (l.map fun s =>
                if r.sameKey s.toCatalogueRow then
                  { s with
                    toCatalogueRow := r, updatedAt := now }
                else s) =
            (storedRanges r.cve r.product l).map
              (fun _ => r.bounds) := by
        intro l
        induction l with
        | nil => rfl
        | cons s rest ih =>
            unfold storedRanges keyRanges at ih ⊢
            by_cases hSame : s.cve = r.cve ∧ s.product = r.product
            · simpa [CatalogueRow.sameKey, hSame] using ih
            · simpa [CatalogueRow.sameKey, hSame] using ih
      rw [hRows]
      rcases List.any_eq_true.mp hThere with ⟨s, hs, hSame⟩
      have hMem : s.bounds ∈ storedRanges r.cve r.product table := by
        unfold storedRanges keyRanges
        rw [List.mem_map]
        refine ⟨s.toCatalogueRow, ?_, rfl⟩
        rw [List.mem_filter]
        exact ⟨List.mem_map_of_mem hs, hSame⟩
      cases hStored : storedRanges r.cve r.product table with
      | nil =>
          rw [hStored] at hMem
          cases hMem
      | cons b rest =>
          rw [hStored, List.length_cons] at hOne
          have hNil : rest = [] :=
            List.length_eq_zero_iff.mp (by omega)
          rw [hNil]
          rfl
    · rw [if_neg hKey]
      -- the rows of another key stay
      unfold storedRanges keyRanges
      clear hThere hOne
      induction table with
      | nil => rfl
      | cons s rest ih =>
          by_cases hSame : r.sameKey s.toCatalogueRow = true
          · have hIs : s.cve = r.cve ∧ s.product = r.product :=
              of_decide_eq_true hSame
            have hOther : ¬ (s.cve = cve ∧ s.product = product) := by
              rw [hIs.1, hIs.2]
              exact hKey
            simp only [List.map_cons, if_pos hSame]
            rw [List.filter_cons_of_neg (by simpa using hKey),
              List.filter_cons_of_neg (by simpa using hOther)]
            exact ih
          · simp only [List.map_cons, if_neg hSame]
            by_cases hHere : s.cve = cve ∧ s.product = product
            · rw [List.filter_cons_of_pos (by simpa using hHere),
                List.filter_cons_of_pos (by simpa using hHere),
                List.map_cons, List.map_cons, ih]
            · rw [List.filter_cons_of_neg (by simpa using hHere),
                List.filter_cons_of_neg (by simpa using hHere)]
              exact ih
  · rw [if_neg hThere]
    unfold storedRanges keyRanges
    rw [List.map_append, List.filter_append, List.map_append]
    by_cases hKey : r.cve = cve ∧ r.product = product
    · rw [if_pos hKey]
      have hNone :
          (table.map DbRow.toCatalogueRow).filter (fun row =>
            row.cve = cve ∧ row.product = product) = [] := by
        rw [List.filter_eq_nil_iff]
        intro row hRow hIs
        rcases List.mem_map.mp hRow with ⟨s, hs, rfl⟩
        refine hThere (List.any_eq_true.mpr ⟨s, hs, ?_⟩)
        have hBoth := of_decide_eq_true hIs
        rw [← hKey.1, ← hKey.2] at hBoth
        exact decide_eq_true hBoth
      rw [hNone]
      simp [hKey]
    · rw [if_neg hKey]
      simp [hKey]

/- The table holds the last range of a CVE and product. -/
theorem upsertCatalogue_ranges
    (source now : Str) (rows : List CatalogueRow)
    (cve product : Str) :
    storedRanges cve product
        (upsertCatalogue source now [] rows) =
      (keyRanges cve product rows).getLast?.toList := by
  have hFold :
      ∀ (rows : List CatalogueRow) (table : List DbRow),
        (storedRanges cve product table).length ≤ 1 →
        storedRanges cve product
            (rows.foldl (upsertRow source now) table) =
          match (keyRanges cve product rows).getLast? with
          | some b => [b]
          | none => storedRanges cve product table := by
    intro rows
    induction rows with
    | nil => exact fun _ _ => rfl
    | cons r rest ih =>
        intro table hOne
        have hStep := upsertRow_ranges source now table r cve
          product hOne
        by_cases hKey : r.cve = cve ∧ r.product = product
        · rw [if_pos hKey] at hStep
          rw [List.foldl_cons,
            ih _ (by rw [hStep]; exact le_refl 1), hStep]
          have hCons :
              keyRanges cve product (r :: rest) =
                r.bounds :: keyRanges cve product rest := by
            simp [keyRanges, hKey]
          rw [hCons, List.getLast?_cons]
          cases (keyRanges cve product rest).getLast? with
          | none => rfl
          | some b => rfl
        · rw [if_neg hKey] at hStep
          rw [List.foldl_cons,
            ih _ (by rw [hStep]; exact hOne), hStep]
          have hCons :
              keyRanges cve product (r :: rest) =
                keyRanges cve product rest := by
            simp [keyRanges, hKey]
          rw [hCons]
  unfold upsertCatalogue
  rw [hFold rows [] (Nat.zero_le 1)]
  cases (keyRanges cve product rows).getLast? with
  | none => rfl
  | some b => rfl

---- What A Scan Reports

section

/- A scan of entries raises where a comparison does. -/
theorem scanEntries_isSome
    (product version : Str) (entries : List Entry) :
    (scanEntries product version entries).isSome = true ↔
      ∀ e ∈ entries, e.bounds.covers version ≠ none := by
  induction entries with
  | nil => simp [scanEntries]
  | cons e rest ih =>
      rw [List.forall_mem_cons, scanEntries]
      cases hCovers : e.bounds.covers version with
      | none => simp
      | some hit => simpa using ih

/- It reports the entries that cover the version. -/
theorem mem_scanEntries
    {product version : Str} {entries : List Entry}
    {found : List Finding}
    (hScan : scanEntries product version entries = some found)
    (f : Finding) :
    f ∈ found ↔
      ∃ e ∈ entries, e.bounds.covers version = some true ∧
        f = e.finding product version := by
  induction entries generalizing found with
  | nil =>
      cases hScan
      simp
  | cons e rest ih =>
      rw [scanEntries] at hScan
      cases hCovers : e.bounds.covers version with
      | none =>
          rw [hCovers] at hScan
          cases hScan
      | some hit =>
          rw [hCovers] at hScan
          rcases Option.map_eq_some_iff.mp hScan with
            ⟨later, hRest, rfl⟩
          cases hit with
          | true => simp [ih hRest, hCovers]
          | false => simp [ih hRest, hCovers]

variable [Unicode]

/- A software of the inventory, by its scanned name. -/
def Installed
    (software : List Software)
    (product version : Str) : Prop :=
  ∃ item ∈ software,
    item.name = product ∧ item.installed = version ∧
      product ≠ [] ∧ version ≠ []

/- The entries of a product. -/
def entriesOf
    (cat : List (Str × List Entry))
    (product : Str) : List Entry :=
  (lookup product cat).getD []

theorem scanItems_isSome
    (cat : List (Str × List Entry)) (software : List Software) :
    (scanItems cat software).isSome = true ↔
      ∀ product version, Installed software product version →
        ∀ e ∈ entriesOf cat product,
          e.bounds.covers version ≠ none := by
  induction software with
  | nil => simp [scanItems, Installed]
  | cons item rest ih =>
      have hSplit :
          (∀ product version,
            Installed (item :: rest) product version →
            ∀ e ∈ entriesOf cat product,
              e.bounds.covers version ≠ none) ↔
          (item.name ≠ [] → item.installed ≠ [] →
            ∀ e ∈ entriesOf cat item.name,
              e.bounds.covers item.installed ≠ none) ∧
          (∀ product version,
            Installed rest product version →
            ∀ e ∈ entriesOf cat product,
              e.bounds.covers version ≠ none) := by
        constructor
        · intro hAll
          refine ⟨fun hName hVersion => hAll _ _
            ⟨item, List.mem_cons_self, rfl, rfl, hName,
              hVersion⟩, ?_⟩
          rintro product version ⟨other, hMem, hIs⟩
          exact hAll product version
            ⟨other, List.mem_cons_of_mem _ hMem, hIs⟩
        · rintro ⟨hItem, hRest⟩ product version
            ⟨other, hMem, hName, hVersion, hBoth⟩
          rcases List.mem_cons.mp hMem with rfl | hLater
          · rw [← hName, ← hVersion] at hBoth ⊢
            exact hItem hBoth.1 hBoth.2
          · exact hRest product version
              ⟨other, hLater, hName, hVersion, hBoth⟩
      rw [hSplit, scanItems]
      by_cases hSkip : item.name = [] ∨ item.installed = []
      · rw [if_pos hSkip, ih]
        constructor
        · intro hRest
          refine ⟨fun hName hVersion => ?_, hRest⟩
          rcases hSkip with hNil | hNil
          · exact absurd hNil hName
          · exact absurd hNil hVersion
        · exact fun h => h.2
      · rw [if_neg hSkip, ← ih]
        rw [not_or] at hSkip
        have hHere := scanEntries_isSome item.name
          item.installed (entriesOf cat item.name)
        unfold entriesOf at hHere ⊢
        rw [← hHere]
        cases scanEntries item.name item.installed
            ((lookup item.name cat).getD []) with
        | none => simp [hSkip]
        | some found => simp [hSkip]

theorem mem_scanItems
    {cat : List (Str × List Entry)} {software : List Software}
    {found : List Finding}
    (hScan : scanItems cat software = some found) (f : Finding) :
    f ∈ found ↔
      ∃ product version, Installed software product version ∧
        ∃ e ∈ entriesOf cat product,
          e.bounds.covers version = some true ∧
            f = e.finding product version := by
  induction software generalizing found with
  | nil =>
      cases hScan
      simp [Installed]
  | cons item rest ih =>
      have hSplit :
          ∀ product version,
            Installed (item :: rest) product version ↔
              (item.name = product ∧
                item.installed = version ∧
                product ≠ [] ∧ version ≠ []) ∨
              Installed rest product version := by
        intro product version
        simp [Installed]
      rw [scanItems] at hScan
      by_cases hSkip : item.name = [] ∨ item.installed = []
      · rw [if_pos hSkip] at hScan
        rw [ih hScan]
        constructor
        · rintro ⟨product, version, hRest, hEntry⟩
          exact ⟨product, version,
            (hSplit product version).mpr (.inr hRest), hEntry⟩
        · rintro ⟨product, version, hEither, hEntry⟩
          rcases (hSplit product version).mp hEither with
            ⟨hName, hVersion, hBoth⟩ | hRest
          · rcases hSkip with hNil | hNil
            · exact absurd (hName.symm.trans hNil) hBoth.1
            · exact absurd (hVersion.symm.trans hNil) hBoth.2
          · exact ⟨product, version, hRest, hEntry⟩
      · rw [if_neg hSkip] at hScan
        rw [not_or] at hSkip
        cases hHere : scanEntries item.name item.installed
            ((lookup item.name cat).getD []) with
        | none =>
            rw [hHere] at hScan
            cases hScan
        | some first =>
            rw [hHere] at hScan
            rcases Option.map_eq_some_iff.mp hScan with
              ⟨later, hLater, rfl⟩
            rw [List.mem_append, mem_scanEntries hHere f,
              ih hLater]
            constructor
            · rintro (hEntry | ⟨product, version, hRest, hEntry⟩)
              · exact ⟨item.name, item.installed,
                  (hSplit _ _).mpr
                    (.inl ⟨rfl, rfl, hSkip.1, hSkip.2⟩), hEntry⟩
              · exact ⟨product, version,
                  (hSplit _ _).mpr (.inr hRest), hEntry⟩
            · rintro ⟨product, version, hEither, hEntry⟩
              rcases (hSplit product version).mp hEither with
                ⟨rfl, rfl, _⟩ | hRest
              · exact .inl hEntry
              · exact .inr ⟨product, version, hRest, hEntry⟩

omit [Unicode] in
/- The entries of a product, merged from both catalogues. -/
theorem entriesOf_merge
    (product : Str) {extra : List (Str × List Entry)}
    (hNodup : (extra.map Prod.fst).Nodup)
    (cat : List (Str × List Entry)) :
    entriesOf (mergeCatalogue cat extra) product =
      entriesOf cat product ++ entriesOf extra product := by
  unfold mergeCatalogue
  induction extra generalizing cat with
  | nil => simp [entriesOf, lookup]
  | cons p rest ih =>
      rw [List.map_cons, List.nodup_cons] at hNodup
      rw [List.foldl_cons, ih hNodup.2]
      unfold entriesOf
      rw [lookup_setEntry, lookup]
      by_cases hKey : p.1 = product
      · have hNone : lookup product rest = none := by
          cases hLookup : lookup product rest with
          | none => rfl
          | some found =>
              have hMem := List.mem_map_of_mem (f := Prod.fst)
                (mem_of_lookup hLookup)
              rw [hKey] at hNodup
              exact absurd hMem hNodup.1
        rw [if_pos hKey, if_pos hKey, hNone, hKey]
        simp
      · rw [if_neg hKey, if_neg hKey]

omit [Unicode] in
theorem load_keys_nodup (table : List DbRow) :
    ((loadDbCatalogue table).map Prod.fst).Nodup :=
  collect_keys_nodup _

omit [Unicode] in
/- The entries that the table has for a product. -/
theorem entriesOf_load
    (table : List DbRow) (product : Str) :
    entriesOf (loadDbCatalogue table) product =
      (table.filter fun r => r.product = product).map
        DbRow.entry := by
  unfold entriesOf loadDbCatalogue
  rw [lookup_collect, List.filter_map, List.map_map]
  rfl

end

---- Complete Imports

section

variable [Unicode]

/- Some vulnerable application match of the CVE for the
product covers the version. -/
def Affects
    (records : List CveRecord)
    (cve product version : Str) : Prop :=
  ∃ r ∈ records, r.id = cve ∧
    ∃ m ∈ r.cpeMatches, m.vulnerable = true ∧
      m.product = some product ∧ m.Covers version

/- The scan with the catalogue that the records are synced
to, in an empty table. -/
def scanSynced
    (upper : Str → Str)
    (source now : Str)
    (records : List CveRecord)
    (software : List Software) : Option (List Finding) :=
  scanSoftware [] software
    (loadDbCatalogue
      (upsertCatalogue source now []
        (nvdToCatalogue upper records)))

/- The scan reports what affects the inventory, and nothing
else. -/
def Complete
    (records : List CveRecord)
    (software : List Software)
    (scan : Option (List Finding)) : Prop :=
  ∃ found, scan = some found ∧
    ∀ cve product version,
      (∃ f ∈ found, f.cve = cve ∧ f.product = product ∧
        f.version = version) ↔
      Installed software product version ∧
        Affects records cve product version

/- The range kept for a product can be compared with every
version of it that is installed, and has those that any
match of the CVE covers. -/
def RangesKept
    (records : List CveRecord)
    (software : List Software) : Prop :=
  ∀ product version, Installed software product version →
    ∀ cve,
      (∀ b, keptRange records cve product = some b →
        b.covers version ≠ none) ∧
      (Affects records cve product version →
        ∃ b, keptRange records cve product = some b ∧
          b.covers version = some true)

/- The entries a synced catalogue has for a product are the
kept ranges. -/
theorem mem_entries_synced
    (upper : Str → Str) (source now : Str)
    (records : List CveRecord) (cve product : Str) (b : Bounds) :
    (∃ e ∈ entriesOf
        (mergeCatalogue []
          (loadDbCatalogue
            (upsertCatalogue source now []
              (nvdToCatalogue upper records)))) product,
      e.cve = cve ∧ e.bounds = b) ↔
    keptRange records cve product = some b := by
  rw [entriesOf_merge product (load_keys_nodup _),
    entriesOf_load]
  have hStored := upsertCatalogue_ranges source now
    (nvdToCatalogue upper records) cve product
  rw [nvdToCatalogue_ranges] at hStored
  have hMem :
      b ∈ storedRanges cve product
        (upsertCatalogue source now []
          (nvdToCatalogue upper records)) ↔
      keptRange records cve product = some b := by
    rw [hStored, Option.mem_toList]
    rfl
  rw [← hMem]
  unfold storedRanges keyRanges
  simp only [entriesOf, lookup, Option.getD_none,
    List.nil_append, List.mem_map, List.mem_filter,
    decide_eq_true_eq]
  constructor
  · rintro ⟨e, ⟨r, ⟨hr, hProduct⟩, rfl⟩, hCve, hBounds⟩
    exact ⟨r.toCatalogueRow, ⟨⟨r, hr, rfl⟩, hCve, hProduct⟩,
      hBounds⟩
  · rintro ⟨row, ⟨⟨r, hr, rfl⟩, hCve, hProduct⟩, hBounds⟩
    exact ⟨r.entry, ⟨r, ⟨hr, hProduct⟩, rfl⟩, hCve, hBounds⟩

/- A range that is kept is that of a match of the CVE. -/
theorem affects_of_kept
    {records : List CveRecord} {cve product version : Str}
    {b : Bounds}
    (hKept : keptRange records cve product = some b)
    (hCovers : b.covers version = some true) :
    Affects records cve product version := by
  have hMem := List.mem_of_getLast? hKept
  rcases List.mem_filterMap.mp hMem with ⟨r, hr, hRange⟩
  split at hRange
  · rename_i hId
    rcases Option.bind_eq_some_iff.mp hRange with
      ⟨m, hFirst, hBounds⟩
    have hIs := List.find?_some hFirst
    rw [Bool.and_eq_true, beq_iff_eq] at hIs
    exact ⟨r, hr, hId, m, List.mem_of_find?_eq_some hFirst,
      hIs.1, hIs.2,
      (bounds_covers_iff m version).mp ⟨b, hBounds, hCovers⟩⟩
  · cases hRange

/- A scan with the synced catalogue reports exactly what
affects the inventory where the kept ranges have every
installed version that any match covers, and only there. -/
theorem import_complete_iff
    (upper : Str → Str)
    (source now : Str)
    (records : List CveRecord)
    (software : List Software) :
    Complete records software
        (scanSynced upper source now records software) ↔
      RangesKept records software := by
  have hEntries :=
    mem_entries_synced upper source now records
  have hRaises := scanItems_isSome
    (mergeCatalogue []
      (loadDbCatalogue
        (upsertCatalogue source now []
          (nvdToCatalogue upper records)))) software
  constructor
  · rintro ⟨found, hScan, hReports⟩ product version hInstalled
      cve
    have hScan' : scanItems _ software = some found := hScan
    have hSome := hRaises.mp (by rw [hScan']; rfl)
    constructor
    · intro b hKept
      rcases (hEntries cve product b).mpr hKept with
        ⟨e, he, _, hBounds⟩
      rw [← hBounds]
      exact hSome product version hInstalled e he
    · intro hAffects
      rcases (hReports cve product version).mpr
        ⟨hInstalled, hAffects⟩ with
        ⟨f, hf, hCve, hProduct, hVersion⟩
      rcases (mem_scanItems hScan' f).mp hf with
        ⟨p, v, _, e, he, hCovers, rfl⟩
      cases hProduct
      cases hVersion
      exact ⟨e.bounds,
        (hEntries cve p e.bounds).mp ⟨e, he, hCve, rfl⟩,
        hCovers⟩
  · intro hKept
    have hSome :
        (scanItems
          (mergeCatalogue []
            (loadDbCatalogue
              (upsertCatalogue source now []
                (nvdToCatalogue upper records))))
          software).isSome = true := by
      rw [hRaises]
      intro product version hInstalled e he
      exact (hKept product version hInstalled e.cve).1 _
        ((hEntries e.cve product e.bounds).mp
          ⟨e, he, rfl, rfl⟩)
    rcases Option.isSome_iff_exists.mp hSome with
      ⟨found, hScan⟩
    refine ⟨found, hScan, ?_⟩
    intro cve product version
    constructor
    · rintro ⟨f, hf, hCve, hProduct, hVersion⟩
      rcases (mem_scanItems hScan f).mp hf with
        ⟨p, v, hInstalled, e, he, hCovers, rfl⟩
      cases hProduct
      cases hVersion
      exact ⟨hInstalled, affects_of_kept
        ((hEntries cve p e.bounds).mp ⟨e, he, hCve, rfl⟩)
        hCovers⟩
    · rintro ⟨hInstalled, hAffects⟩
      rcases (hKept product version hInstalled cve).2 hAffects
        with ⟨b, hRange, hCovers⟩
      rcases (hEntries cve product b).mpr hRange with
        ⟨e, he, hCve, hBounds⟩
      rw [← hBounds] at hCovers
      exact ⟨e.finding product version,
        (mem_scanItems hScan _).mpr
          ⟨product, version, hInstalled, e, he, hCovers, rfl⟩,
        hCve, rfl, rfl⟩

end

---- A Range That Is Dropped

local instance coverageUnicode : Unicode := asciiTables

/- A match of the widget application, from a version to a
version. -/
def widgetMatch
    (lo hi : String)
    (hFilled : lit lo ≠ [] ∧ lit hi ≠ []) : CpeMatch where
  vulnerable := true
  criteria := lit "cpe:2.3:a:acme:widget:*:*:*:*:*:*:*:*"
  versionStartIncluding := some (lit lo)
  versionStartExcluding := none
  versionEndIncluding := some (lit hi)
  versionEndExcluding := none
  oneStart := .inr rfl
  oneEnd := .inr rfl
  filled := by simp [hFilled]

/- A CVE with two disjoint ranges of one product. -/
def twoRanges : CveRecord where
  id := lit "CVE-2026-0001"
  cvssMetricV31 := []
  cvssMetricV30 := []
  cvssMetricV2 := []
  descriptions := []
  configurations :=
    [⟨[⟨[widgetMatch "1.0" "1.5" (by decide),
      widgetMatch "2.0" "2.5" (by decide)]⟩]⟩]
  named := by decide

/- A widget in the second range. -/
def secondWidget : Software :=
  ⟨some (lit "Widget"), some (lit "2.1")⟩

/- The second range is dropped: nothing is reported. -/
theorem second_range_missed :
    ¬ Complete [twoRanges] [secondWidget]
      (scanSynced id (lit "nvd") (lit "now") [twoRanges]
        [secondWidget]) := by
  have hScan :
      scanSynced id (lit "nvd") (lit "now") [twoRanges]
        [secondWidget] = some [] := by
    decide
  rintro ⟨found, hFound, hReports⟩
  rw [hScan] at hFound
  cases hFound
  have hInstalled :
      Installed [secondWidget] (lit "widget") (lit "2.1") :=
    ⟨secondWidget, List.mem_singleton_self _, by decide,
      by decide, by decide, by decide⟩
  have hAffects :
      Affects [twoRanges] (lit "CVE-2026-0001") (lit "widget")
        (lit "2.1") := by
    refine ⟨twoRanges, List.mem_singleton_self _, rfl,
      widgetMatch "2.0" "2.5" (by decide),
      List.mem_cons_of_mem _ (List.mem_singleton_self _), rfl,
      by decide, .inl ⟨.inl (by simp [widgetMatch]),
        ?_, ?_, ?_, ?_⟩⟩
    · intro lo hLo
      cases hLo
      decide
    · intro lo hLo
      cases hLo
    · intro hi hHi
      cases hHi
      decide +kernel
    · intro hi hHi
      cases hHi
  rcases (hReports _ _ _).mpr ⟨hInstalled, hAffects⟩ with
    ⟨f, hf, _⟩
  cases hf

end ThreatOrbit.Vulns
