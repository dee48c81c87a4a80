import ThreatOrbit.Connectors.Import

/-
  What an import keeps of what its list says.

  A sub-batch records who asserts a value, and fills a blank
  family, from the first indicator of the value that it
  holds.
-/

---- Who Asserted What

namespace ThreatOrbit.Connectors

open Lib

section

/- A source is on record for a value. -/
def Asserted (l : List Assertion) (value name : Str) : Prop :=
  ∃ a ∈ l, a.value = value ∧ a.source = name

theorem asserted_upsert
    {l : List Assertion} {a : Assertion} {value name : Str} :
    Asserted (upsertAssertion l a) value name ↔
      Asserted l value name ∨
        (a.value = value ∧ a.source = name) := by
  unfold upsertAssertion
  simp only
  split
  · rename_i hThere
    have hMap : Asserted (l.map fun b =>
        if b.value == a.value && b.source == a.source then
          { b with lastSeen := a.lastSeen }
        else b) value name ↔ Asserted l value name := by
      unfold Asserted
      simp only [List.mem_map, exists_exists_and_eq_and]
      apply exists_congr
      intro b
      split
      · rfl
      · rfl
    rw [hMap]
    constructor
    · exact .inl
    · rintro (hOld | ⟨rfl, rfl⟩)
      · exact hOld
      · rw [List.any_eq_true] at hThere
        rcases hThere with ⟨b, hB, hSame⟩
        rw [Bool.and_eq_true, beq_iff_eq, beq_iff_eq] at hSame
        exact ⟨b, hB, hSame⟩
  · simp only [Asserted, List.mem_append, List.mem_singleton,
      or_and_right, exists_or, exists_eq_left]

theorem asserted_foldl
    {rows l : List Assertion} {value name : Str} :
    Asserted (rows.foldl upsertAssertion l) value name ↔
      Asserted l value name ∨ Asserted rows value name := by
  induction rows generalizing l with
  | nil => simp [Asserted]
  | cons a rest ih =>
      rw [List.foldl_cons, ih, asserted_upsert]
      simp only [Asserted, List.mem_cons, or_and_right,
        exists_or, exists_eq_left, or_assoc]

/- The name that a source is recorded under. -/
def Candidate.named
    (c : Candidate)
    (value name : Str) : Prop :=
  c.value = value ∧ c.source.take 200 = name ∧ name ≠ []

theorem asserted_candidates
    {now : Str} {candidates : List Candidate} {value name : Str} :
    Asserted (candidates.filterMap (assertionOf now)) value
        name ↔
      ∃ c ∈ candidates, c.named value name := by
  unfold Asserted Candidate.named
  simp only [List.mem_filterMap]
  constructor
  · rintro ⟨a, ⟨c, hC, hRow⟩, hValue, hName⟩
    unfold assertionOf at hRow
    split at hRow
    · cases hRow
    · rename_i hNamed
      cases hRow
      exact ⟨c, hC, hValue, hName, hName ▸ hNamed⟩
  · rintro ⟨c, hC, hValue, hName, hNamed⟩
    refine ⟨_, ⟨c, hC, dif_neg (hName ▸ hNamed)⟩, hValue, hName⟩

variable [Unicode]
variable {t : ImportTools}
variable {now source : Str}

/- The first indicator of a value that can be imported. -/
def firstOf
    (t : ImportTools)
    (now source : Str)
    (inds : List Indicator)
    (value : Str) : Option Candidate :=
  (inds.filterMap (readIndicator t now source)).find?
    fun c => c.value == value

theorem firstOf_value
    {inds : List Indicator} {value : Str} {c : Candidate}
    (hFirst : firstOf t now source inds value = some c) :
    c.value = value := by
  have hSame := List.find?_some hFirst
  simpa using hSame

/- The candidates of a sub-batch are the first of their
values. -/
theorem mem_candidates
    {inds : List Indicator} {seen : List Str} {c : Candidate} :
    c ∈ (sortBatch t now source seen inds).candidates ↔
      c.value ∉ seen ∧
        firstOf t now source inds c.value = some c := by
  unfold firstOf
  induction inds generalizing seen with
  | nil => simp [sortBatch]
  | cons ind rest ih =>
      rw [sortBatch]
      cases hRead : readIndicator t now source ind with
      | none => rw [List.filterMap_cons_none hRead]; exact ih
      | some d =>
          rw [List.filterMap_cons_some hRead]
          simp only [List.contains_iff_mem]
          by_cases hSame : d.value = c.value
          · rw [List.find?_cons_of_pos (by simpa using hSame)]
            by_cases hSeen : d.value ∈ seen
            · rw [if_pos hSeen, ih]
              constructor
              · rintro ⟨hNot, _⟩
                exact absurd (hSame ▸ hSeen) hNot
              · rintro ⟨hNot, _⟩
                exact absurd (hSame ▸ hSeen) hNot
            · rw [if_neg hSeen, List.mem_cons, ih]
              constructor
              · rintro (rfl | ⟨hNot, _⟩)
                · exact ⟨hSeen, rfl⟩
                · exact absurd (by simp [hSame]) hNot
              · rintro ⟨_, hIs⟩
                cases hIs
                exact .inl rfl
          · rw [List.find?_cons_of_neg (by simpa using hSame)]
            by_cases hSeen : d.value ∈ seen
            · rw [if_pos hSeen, ih]
            · rw [if_neg hSeen, List.mem_cons, ih]
              constructor
              · rintro (rfl | ⟨hNot, hIs⟩)
                · exact absurd rfl hSame
                · rw [List.mem_cons, not_or] at hNot
                  exact ⟨hNot.2, hIs⟩
              · rintro ⟨hNot, hIs⟩
                refine .inr ⟨?_, hIs⟩
                rw [List.mem_cons, not_or]
                exact ⟨fun h => hSame h.symm, hNot⟩

/- The first of a value in a list is that of the first part
that has the value. -/
theorem firstOf_append
    (first second : List Indicator) (value : Str) :
    firstOf t now source (first ++ second) value =
      (firstOf t now source first value).or
        (firstOf t now source second value) := by
  unfold firstOf
  rw [List.filterMap_append, List.find?_append]

/- What is on record after a sub-batch. -/
theorem asserted_importBatch
    {budget : Nat} {store : IocStore} {inds : List Indicator}
    {value name : Str} :
    Asserted (importBatch t now source budget store
        inds).1.assertions value name ↔
      Asserted store.assertions value name ∨
        ∃ c, firstOf t now source inds value = some c ∧
          c.named value name := by
  have hFirsts :
      (∃ c ∈ (sortBatch t now source [] inds).candidates,
          c.named value name) ↔
        ∃ c, firstOf t now source inds value = some c ∧
          c.named value name := by
    constructor
    · rintro ⟨c, hC, hNamed⟩
      have hFirst := (mem_candidates.mp hC).2
      rw [hNamed.1] at hFirst
      exact ⟨c, hFirst, hNamed⟩
    · rintro ⟨c, hFirst, hNamed⟩
      refine ⟨c, mem_candidates.mpr ⟨List.not_mem_nil, ?_⟩,
        hNamed⟩
      rw [hNamed.1]
      exact hFirst
  rw [← hFirsts, ← @asserted_candidates now]
  by_cases hNone :
      (sortBatch t now source [] inds).candidates = []
  · have hImport :
        (importBatch t now source budget store inds).1 =
          store := by
      unfold importBatch
      simp only [hNone, List.isEmpty_nil, if_true]
    rw [hImport, hNone]
    simp [Asserted]
  · rw [importBatch_eq hNone]
    exact asserted_foldl

/- What is on record after the sub-batches. -/
theorem asserted_importChunks
    {parts : List (List Indicator)} {budget : Nat}
    {store : IocStore} {value name : Str} :
    Asserted (importChunks t now source budget store
        parts).1.assertions value name ↔
      Asserted store.assertions value name ∨
        ∃ part ∈ parts, ∃ c,
          firstOf t now source part value = some c ∧
            c.named value name := by
  induction parts generalizing budget store with
  | nil => simp [importChunks]
  | cons part rest ih =>
      rw [importChunks]
      simp only [ih, asserted_importBatch, List.mem_cons,
        or_and_right, exists_or, exists_eq_left, or_assoc]

end

---- Which Family A Row Is Given

section

/- A blank row is given a family, if one is named. -/
def IocRow.fill (r : IocRow) (family : Str) : IocRow :=
  if r.blank && family != [] then
    { r with malwareFamily := some family }
  else r

@[simp] theorem fill_nil
    (r : IocRow) :
    r.fill [] = r := by
  simp [IocRow.fill]

@[simp] theorem fill_value
    (r : IocRow)
    (family : Str) :
    (r.fill family).value = r.value := by
  unfold IocRow.fill
  split
  · rfl
  · rfl

theorem fill_of_blank
    {r : IocRow} {family : Str}
    (hBlank : r.blank = true) (hFamily : family ≠ []) :
    r.fill family = { r with malwareFamily := some family } := by
  simp [IocRow.fill, hBlank, hFamily]

theorem fill_of_attributed
    {r : IocRow} {family : Str}
    (hBlank : r.blank = false) :
    r.fill family = r := by
  simp [IocRow.fill, hBlank]

/- The first that is not empty, or the empty text. -/
def firstNamed (names : List Str) : Str :=
  (names.find? (· != [])).getD []

theorem firstNamed_cons
    (name : Str) (rest : List Str) :
    firstNamed (name :: rest) =
      if name = [] then firstNamed rest else name := by
  unfold firstNamed
  by_cases hNone : name = []
  · simp [hNone]
  · rw [List.find?_cons_of_pos (by simpa using hNone)]
    simp [hNone]

theorem firstNamed_eq_nil
    {names : List Str}
    (hNone : ∀ name ∈ names, name = []) :
    firstNamed names = [] := by
  induction names with
  | nil => rfl
  | cons name rest ih =>
      rw [List.forall_mem_cons] at hNone
      rw [firstNamed_cons, if_pos hNone.1]
      exact ih hNone.2

theorem nil_of_firstNamed
    {names : List Str}
    (hNone : firstNamed names = []) :
    ∀ name ∈ names, name = [] := by
  induction names with
  | nil => simp
  | cons name rest ih =>
      rw [firstNamed_cons] at hNone
      rw [List.forall_mem_cons]
      by_cases hName : name = []
      · rw [if_pos hName] at hNone
        exact ⟨hName, ih hNone⟩
      · rw [if_neg hName] at hNone
        exact absurd hNone hName

/- The updates of one sub-batch, each with its values. -/
def fills
    (families : List (Str × List Str)) :
    List (Str × List Str) :=
  families.flatMap fun e =>
    (chunks existsChunk e.2).map fun part => (e.1, part)

theorem attributeRow_eq
    (families : List (Str × List Str)) (r : IocRow) :
    attributeRow families r =
      (fills families).foldl
        (fun r e => fillFamily e.1 e.2 r) r := by
  unfold attributeRow fills
  rw [List.foldl_flatMap]
  congr 1
  funext r e
  rw [List.foldl_map]

/- An attributed row stays as it is. -/
theorem foldl_fillFamily_attributed
    {updates : List (Str × List Str)} {r : IocRow}
    (hBlank : r.blank = false) :
    updates.foldl (fun r e => fillFamily e.1 e.2 r) r = r := by
  induction updates with
  | nil => rfl
  | cons e rest ih =>
      have hSame : fillFamily e.1 e.2 r = r := by
        simp [fillFamily, hBlank]
      rw [List.foldl_cons, hSame, ih]

/- A blank row is given the family of the updates that name
its value. -/
theorem foldl_fillFamily
    {updates : List (Str × List Str)} {r : IocRow} {family : Str}
    (hBlank : r.blank = true)
    (hFamily : ∀ e ∈ updates, r.value ∈ e.2 →
      e.1 = family ∧ family ≠ [])
    (hNamed :
      family ≠ [] → ∃ e ∈ updates, r.value ∈ e.2) :
    updates.foldl (fun r e => fillFamily e.1 e.2 r) r =
      r.fill family := by
  induction updates with
  | nil =>
      have hNone : family = [] := by
        by_contra hSome
        rcases hNamed hSome with ⟨e, hE, _⟩
        cases hE
      rw [hNone, fill_nil]
      rfl
  | cons e rest ih =>
      rw [List.forall_mem_cons] at hFamily
      rw [List.foldl_cons]
      by_cases hHere : r.value ∈ e.2
      · rcases hFamily.1 hHere with ⟨hIs, hSome⟩
        have hFilled : fillFamily e.1 e.2 r =
            { r with malwareFamily := some family } := by
          simp [fillFamily, hBlank, hHere, hIs]
        rw [hFilled, fill_of_blank hBlank hSome]
        exact foldl_fillFamily_attributed
          (by simpa [IocRow.blank] using hSome)
      · have hSame : fillFamily e.1 e.2 r = r := by
          simp [fillFamily, hHere]
        rw [hSame]
        apply ih hFamily.2
        intro hSome
        rcases hNamed hSome with ⟨f, hF, hThere⟩
        rcases List.mem_cons.mp hF with hHead | hTail
        · rw [hHead] at hThere
          exact absurd hThere hHere
        · exact ⟨f, hTail, hThere⟩

variable [Unicode]
variable {t : ImportTools}
variable {now source : Str}

/- The updates that name a value come from the candidates
with that value. -/
theorem mem_fills
    {unattributed : List Str} {candidates : List Candidate}
    {family value : Str} :
    (∃ e ∈ fills (byFamily unattributed candidates),
        e.1 = family ∧ value ∈ e.2) ↔
      ∃ c ∈ candidates, familyOf c.malwareFamily = family ∧
        family ≠ [] ∧ c.value = value ∧
          value ∈ unattributed := by
  have hParts :
      (∃ e ∈ fills (byFamily unattributed candidates),
          e.1 = family ∧ value ∈ e.2) ↔
        ∃ e ∈ byFamily unattributed candidates,
          e.1 = family ∧ value ∈ e.2 := by
    unfold fills
    constructor
    · rintro ⟨f, hF, hFamily, hValue⟩
      rcases List.mem_flatMap.mp hF with ⟨e, hE, hPart⟩
      rcases List.mem_map.mp hPart with ⟨part, hIn, rfl⟩
      exact ⟨e, hE, hFamily,
        (mem_chunks (by decide) e.2 value).mp
          ⟨part, hIn, hValue⟩⟩
    · rintro ⟨e, hE, hFamily, hValue⟩
      rcases (mem_chunks (by decide : 0 < existsChunk) e.2
        value).mpr hValue with ⟨part, hIn, hPart⟩
      exact ⟨(e.1, part),
        List.mem_flatMap.mpr ⟨e, hE, List.mem_map_of_mem hIn⟩,
        hFamily, hPart⟩
  rw [hParts, byFamily, mem_collect_iff]
  simp only [List.mem_map, List.mem_filter, Prod.mk.injEq,
    Bool.and_eq_true, bne_iff_ne, List.contains_iff_mem]
  constructor
  · rintro ⟨c, ⟨hC, hNamed, hBlank⟩, hFamily, hValue⟩
    exact ⟨c, hC, hFamily, hFamily ▸ hNamed, hValue,
      hValue ▸ hBlank⟩
  · rintro ⟨c, hC, hFamily, hNamed, hValue, hBlank⟩
    exact ⟨c, ⟨hC, hFamily ▸ hNamed, hValue ▸ hBlank⟩,
      hFamily, hValue⟩

/- The family that the first indicator of a value names. -/
def headFamily
    (t : ImportTools)
    (now source : Str)
    (inds : List Indicator)
    (value : Str) : Str :=
  match firstOf t now source inds value with
  | none => []
  | some c => familyOf c.malwareFamily

/- What a sub-batch does to a row of the store. -/
theorem importBatch_row
    {budget : Nat} {store : IocStore} {inds : List Indicator}
    {i : Nat} {r : IocRow}
    (hRow : store.iocs[i]? = some r) :
    (importBatch t now source budget store inds).1.iocs[i]? =
      some (r.fill (headFamily t now source inds r.value)) := by
  by_cases hNone :
      (sortBatch t now source [] inds).candidates = []
  · have hImport :
        (importBatch t now source budget store inds).1 =
          store := by
      unfold importBatch
      simp only [hNone, List.isEmpty_nil, if_true]
    have hHead : headFamily t now source inds r.value = [] := by
      unfold headFamily
      cases hFirst : firstOf t now source inds r.value with
      | none => rfl
      | some c =>
          have hMem : c ∈
              (sortBatch t now source [] inds).candidates := by
            rw [mem_candidates, firstOf_value hFirst]
            exact ⟨List.not_mem_nil, hFirst⟩
          rw [hNone] at hMem
          cases hMem
    rw [hImport, hHead, fill_nil]
    exact hRow
  · rw [importBatch_eq hNone]
    simp only [attributeFamilies, foldl_attribute]
    rw [List.getElem?_append_left (by
      rw [List.length_map]
      exact (List.getElem?_eq_some_iff.mp hRow).1),
      List.getElem?_map, hRow, Option.map_some,
      attributeRow_eq]
    congr 1
    cases hBlank : r.blank with
    | false =>
        rw [foldl_fillFamily_attributed hBlank,
          fill_of_attributed hBlank]
    | true =>
        apply foldl_fillFamily hBlank
        · intro e hE hValue
          rcases mem_fills.mp ⟨e, hE, rfl, hValue⟩ with
            ⟨c, hC, hFamily, hNamed, hSame, _⟩
          have hFirst := (mem_candidates.mp hC).2
          rw [hSame] at hFirst
          simp only [headFamily, hFirst]
          rw [hFamily]
          exact ⟨rfl, hNamed⟩
        · intro hNamed
          unfold headFamily at hNamed
          cases hFirst : firstOf t now source inds r.value with
          | none =>
              rw [hFirst] at hNamed
              exact absurd rfl hNamed
          | some c =>
              rw [hFirst] at hNamed
              have hMem : c ∈
                  (sortBatch t now source []
                    inds).candidates := by
                rw [mem_candidates, firstOf_value hFirst]
                exact ⟨List.not_mem_nil, hFirst⟩
              have hValue := firstOf_value hFirst
              have hFound : r.value ∈
                  ((probe
                    ((sortBatch t now source []
                      inds).candidates.map Candidate.value)
                    store.iocs).filter IocRow.blank).map
                      IocRow.value := by
                refine List.mem_map.mpr ⟨r, ?_, rfl⟩
                rw [List.mem_filter, mem_probe]
                exact ⟨⟨List.mem_of_getElem? hRow,
                  hValue ▸ List.mem_map_of_mem hMem⟩, hBlank⟩
              rcases mem_fills.mpr
                ⟨c, hMem, rfl, hNamed, hValue, hFound⟩ with
                ⟨e, hE, _, hThere⟩
              exact ⟨e, hE, hThere⟩

/- What the sub-batches do to a row of the store: it is given
the first family that the first of its value names. -/
theorem importChunks_row
    {parts : List (List Indicator)} {budget : Nat}
    {store : IocStore} {i : Nat} {r : IocRow}
    (hRow : store.iocs[i]? = some r) :
    (importChunks t now source budget store
        parts).1.iocs[i]? =
      some (r.fill (firstNamed (parts.map fun part =>
        headFamily t now source part r.value))) := by
  induction parts generalizing budget store r with
  | nil =>
      rw [importChunks, List.map_nil]
      simpa [firstNamed] using hRow
  | cons part rest ih =>
      rw [importChunks, List.map_cons, firstNamed_cons]
      simp only
      rw [ih (importBatch_row hRow), fill_value]
      by_cases hNone :
          headFamily t now source part r.value = []
      · rw [hNone, fill_nil, if_pos rfl]
      · rw [if_neg hNone]
        cases hBlank : r.blank with
        | false => simp only [fill_of_attributed hBlank]
        | true =>
            rw [fill_of_attributed]
            rw [fill_of_blank hBlank hNone]
            simpa [IocRow.blank] using hNone

end

---- Corroboration

section

variable [Unicode]

/- The first family that a list names for a value, or the
empty text. -/
def firstFamily
    (t : ImportTools)
    (inds : List Indicator)
    (value : Str) : Str :=
  firstNamed
    ((inds.filter fun ind => ind.normalised t == value).map
      Indicator.family)

/- Nothing that a list says is lost: every source is on record
for its value, and every row that was blank has the first
family that the list names for it. -/
structure Corroborated
    (t : ImportTools)
    (now source : Str)
    (store : IocStore)
    (inds : List Indicator)
    (after : IocStore) : Prop where
  sources : ∀ ind ∈ inds, ∀ c,
    readIndicator t now source ind = some c →
      Asserted after.assertions c.value c.source
  families : ∀ (i : Nat) (r : IocRow),
    store.iocs[i]? = some r → r.blank = true →
      firstFamily t inds r.value ≠ [] →
      (after.iocs[i]?).map IocRow.malwareFamily =
        some (some (firstFamily t inds r.value))

/- Two imports leave the same on record, and the same rows of
those the store had. -/
def SameRecord (store a b : IocStore) : Prop :=
  (∀ value name,
    Asserted a.assertions value name ↔
      Asserted b.assertions value name) ∧
    ∀ i < store.iocs.length, a.iocs[i]? = b.iocs[i]?

/- The condition on a list: what an indicator says of its
source is on record already or said by the first indicator
of its value, whose source has a name of 200 characters at
most; and the first indicator of the value of a blank row
names the first family that the list names for it. -/
structure FirstSpeaks
    (t : ImportTools)
    (now source : Str)
    (store : IocStore)
    (inds : List Indicator) : Prop where
  sources : ∀ ind ∈ inds, ∀ c,
    readIndicator t now source ind = some c →
      Asserted store.assertions c.value c.source ∨
        ∃ first, firstOf t now source inds c.value =
            some first ∧
          first.named c.value c.source
  families : ∀ r ∈ store.iocs, r.blank = true →
    firstFamily t inds r.value ≠ [] →
      headFamily t now source inds r.value =
        firstFamily t inds r.value

variable {t : ImportTools}
variable {now source : Str}

theorem firstOf_mem
    {inds : List Indicator} {value : Str} {c : Candidate}
    (hFirst : firstOf t now source inds value = some c) :
    ∃ ind ∈ inds, readIndicator t now source ind = some c := by
  have hMem := List.mem_of_find?_eq_some hFirst
  rwa [List.mem_filterMap] at hMem

/- The first of a value in the list is the first in one of
the parts. -/
theorem firstOf_flatten
    {parts : List (List Indicator)} {value : Str} {c : Candidate}
    (hFirst :
      firstOf t now source parts.flatten value = some c) :
    ∃ part ∈ parts, firstOf t now source part value = some c := by
  induction parts with
  | nil => cases hFirst
  | cons part rest ih =>
      rw [List.flatten_cons, firstOf_append,
        Option.or_eq_some_iff] at hFirst
      rcases hFirst with hHere | ⟨_, hLater⟩
      · exact ⟨part, List.mem_cons_self, hHere⟩
      · rcases ih hLater with ⟨other, hOther, hIs⟩
        exact ⟨other, List.mem_cons_of_mem _ hOther, hIs⟩

/- A family that the first indicator of the list names is the
first that the sub-batches name. -/
theorem firstNamed_parts
    {parts : List (List Indicator)} {value : Str}
    (hNamed : headFamily t now source parts.flatten value ≠ []) :
    firstNamed (parts.map fun part =>
        headFamily t now source part value) =
      headFamily t now source parts.flatten value := by
  induction parts with
  | nil => exact absurd rfl hNamed
  | cons part rest ih =>
      rw [List.map_cons, firstNamed_cons]
      cases hHere : firstOf t now source part value with
      | some c =>
          have hWhole : headFamily t now source
              (part :: rest).flatten value =
              headFamily t now source part value := by
            unfold headFamily
            rw [List.flatten_cons, firstOf_append, hHere]
            rfl
          rw [hWhole] at hNamed ⊢
          rw [if_neg hNamed]
      | none =>
          have hWhole : headFamily t now source
              (part :: rest).flatten value =
              headFamily t now source rest.flatten value := by
            unfold headFamily
            rw [List.flatten_cons, firstOf_append, hHere]
            rfl
          have hNone : headFamily t now source part value = [] := by
            simp only [headFamily, hHere]
          rw [hWhole] at hNamed ⊢
          rw [if_pos hNone]
          exact ih hNamed

/- Where the list names no family, no sub-batch does. -/
theorem headFamily_of_unnamed
    {inds part : List Indicator} {value : Str}
    (hPart : ∀ ind ∈ part, ind ∈ inds)
    (hNone : firstFamily t inds value = []) :
    headFamily t now source part value = [] := by
  unfold headFamily
  cases hFirst : firstOf t now source part value with
  | none => rfl
  | some c =>
      rcases firstOf_mem hFirst with ⟨ind, hInd, hRead⟩
      rcases readIndicator_some hRead with
        ⟨hValue, _, _, hFamily, _⟩
      have hSame : ind.normalised t = value := by
        rw [← hValue]
        exact firstOf_value hFirst
      simp only
      rw [hFamily]
      refine nil_of_firstNamed hNone _ ?_
      refine List.mem_map.mpr ⟨ind, ?_, rfl⟩
      rw [List.mem_filter]
      exact ⟨hPart ind hInd, by simpa using hSame⟩

/- The whole list is one sub-batch of its length. -/
omit [Unicode] in
theorem chunks_whole
    {inds : List Indicator}
    (hSome : inds ≠ []) :
    chunks (inds.length + 1) inds = [inds] := by
  rw [chunks_of_ne_nil (by omega) hSome,
    List.take_of_length_le (by omega),
    List.drop_eq_nil_of_le (by omega), chunks_nil (by omega)]

/- What the sub-batches leave on record under the condition
does not depend on them. -/
theorem asserted_iff_first
    {store : IocStore} {parts : List (List Indicator)}
    (hSpeaks :
      FirstSpeaks t now source store parts.flatten)
    (budget : Nat)
    (value name : Str) :
    Asserted (importChunks t now source budget store
        parts).1.assertions value name ↔
      Asserted store.assertions value name ∨
        ∃ first, firstOf t now source parts.flatten value =
            some first ∧ first.named value name := by
  rw [asserted_importChunks]
  constructor
  · rintro (hOld | ⟨part, hPart, c, hFirst, hNamed⟩)
    · exact .inl hOld
    · rcases firstOf_mem hFirst with ⟨ind, hInd, hRead⟩
      have hValue := firstOf_value hFirst
      have hSaid := hSpeaks.sources ind
        (List.mem_flatten.mpr ⟨part, hPart, hInd⟩) c hRead
      rw [hValue] at hSaid
      have hShort : c.source.length ≤ 200 := by
        rcases hSaid with ⟨a, _, _, hIs⟩ | ⟨first, _, _, hIs, _⟩
        · rw [← hIs]
          exact a.short
        · rw [← hIs]
          exact List.length_take_le _ _
      have hName : c.source = name := by
        rw [← hNamed.2.1, List.take_of_length_le hShort]
      rwa [hName] at hSaid
  · rintro (hOld | ⟨first, hFirst, hNamed⟩)
    · exact .inl hOld
    · rcases firstOf_flatten hFirst with ⟨part, hPart, hIs⟩
      exact .inr ⟨part, hPart, first, hIs, hNamed⟩

/- Nor does what they do to a row of the store. -/
theorem row_of_first
    {store : IocStore} {parts : List (List Indicator)} {i : Nat}
    {r : IocRow}
    (hSpeaks :
      FirstSpeaks t now source store parts.flatten)
    (budget : Nat)
    (hRow : store.iocs[i]? = some r) :
    (importChunks t now source budget store
        parts).1.iocs[i]? =
      some (r.fill (firstFamily t parts.flatten r.value)) := by
  rw [importChunks_row hRow]
  cases hBlank : r.blank with
  | false => simp only [fill_of_attributed hBlank]
  | true =>
      congr 2
      by_cases hNone :
          firstFamily t parts.flatten r.value = []
      · rw [hNone]
        apply firstNamed_eq_nil
        intro name hName
        rcases List.mem_map.mp hName with ⟨part, hPart, rfl⟩
        refine headFamily_of_unnamed ?_ hNone
        intro ind hInd
        exact List.mem_flatten.mpr ⟨part, hPart, hInd⟩
      · have hHead := hSpeaks.families r
          (List.mem_of_getElem? hRow) hBlank hNone
        rw [← hHead] at hNone ⊢
        exact firstNamed_parts hNone

/- Corroboration is kept at every size of the sub-batches, and
does not depend on it, exactly when the first indicator of
each value says all that the list says of it. -/
theorem corroborated_iff
    (store : IocStore)
    (inds : List Indicator) :
    ((∀ batch, 0 < batch →
        Corroborated t now source store inds
          (importIndicators t now source batch store inds).1) ∧
      ∀ m n, 0 < m → 0 < n →
        SameRecord store
          (importIndicators t now source m store inds).1
          (importIndicators t now source n store inds).1) ↔
      FirstSpeaks t now source store inds := by
  constructor
  · rintro ⟨hAll, _⟩
    by_cases hEmpty : inds = []
    · subst hEmpty
      refine ⟨by simp, ?_⟩
      intro r _ _ hNamed
      exact absurd rfl hNamed
    have hWhole := hAll (inds.length + 1) (by omega)
    rw [importIndicators, chunks_whole hEmpty] at hWhole
    constructor
    · intro ind hInd c hRead
      have hSaid := hWhole.sources ind hInd c hRead
      rw [asserted_importChunks] at hSaid
      simpa using hSaid
    · intro r hR hBlank hNamed
      rcases List.mem_iff_getElem?.mp hR with ⟨i, hRow⟩
      have hFilled := hWhole.families i r hRow hBlank hNamed
      rw [importChunks_row hRow, List.map_singleton,
        firstNamed_cons, Option.map_some] at hFilled
      by_cases hNone : headFamily t now source inds r.value = []
      · rw [if_pos hNone] at hFilled
        have hBare : r.malwareFamily =
            some (firstFamily t inds r.value) := by
          simpa [firstNamed] using hFilled
        simp [IocRow.blank, hBare] at hBlank
        exact absurd hBlank hNamed
      · rw [if_neg hNone, fill_of_blank hBlank hNone] at hFilled
        simpa using hFilled
  · intro hSpeaks
    have hParts (n : Nat) (hn : 0 < n) :
        FirstSpeaks t now source store
          (chunks n inds).flatten := by
      rwa [flatten_chunks hn]
    refine ⟨?_, ?_⟩
    · intro batch hBatch
      constructor
      · intro ind hInd c hRead
        have hIff := asserted_iff_first (hParts batch hBatch)
          maxIntelAlertsPerRun c.value c.source
        rw [flatten_chunks hBatch] at hIff
        exact hIff.mpr (hSpeaks.sources ind hInd c hRead)
      · intro i r hRow hBlank hNamed
        have hFinal := row_of_first (hParts batch hBatch)
          maxIntelAlertsPerRun hRow
        rw [flatten_chunks hBatch,
          fill_of_blank hBlank hNamed] at hFinal
        rw [importIndicators, hFinal]
        rfl
    · intro m n hM hN
      constructor
      · intro value name
        have hFirst := asserted_iff_first (hParts m hM)
          maxIntelAlertsPerRun value name
        have hSecond := asserted_iff_first (hParts n hN)
          maxIntelAlertsPerRun value name
        rw [flatten_chunks hM] at hFirst
        rw [flatten_chunks hN] at hSecond
        exact hFirst.trans hSecond.symm
      · intro i hI
        have hRow : store.iocs[i]? = some store.iocs[i] :=
          List.getElem?_eq_getElem hI
        have hFirst := row_of_first (hParts m hM)
          maxIntelAlertsPerRun hRow
        have hSecond := row_of_first (hParts n hN)
          maxIntelAlertsPerRun hRow
        rw [flatten_chunks hM] at hFirst
        rw [flatten_chunks hN] at hSecond
        exact hFirst.trans hSecond.symm

end

---- Two Feeds In One Sync

local instance corroborationUnicode : Unicode := asciiTables

/- The second feed is not on record after one sub-batch. -/
theorem second_feed_lost :
    ¬ Corroborated plainTools importTime engineName emptyStore
      twoFeeds
      (importIndicators plainTools importTime engineName 10000
        emptyStore twoFeeds).1 := by
  intro hAll
  have hOnly :
      (importIndicators plainTools importTime engineName 10000
        emptyStore twoFeeds).1.assertions.map
          Assertion.source = [lit "osint:URLhaus"] := by
    decide
  rcases hAll.sources
    (listedBy (lit "osint:Maltrail") (lit "emotet"))
    (by simp [twoFeeds]) _ rfl with ⟨a, hA, _, hSource⟩
  have hMem := List.mem_map_of_mem (f := Assertion.source) hA
  rw [hOnly, hSource] at hMem
  exact absurd hMem (by decide)

end ThreatOrbit.Connectors
