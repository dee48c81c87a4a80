import ThreatOrbit.Connectors.Sync
import ThreatOrbit.Lib.CsvParts

/-
  The body of a feed that was cut off early: what a parser
  makes of it, and of the body as a whole.

  A cut at the end of a line may lie inside a quoted field. The
  row that is open there is then read as if it ended.
-/

---- Entries In Parts

namespace ThreatOrbit.Connectors

open Lib

/- Whether a loop stops within some readings. -/
def Capped
    (cap : Nat)
    (out : List Entry)
    (readings : List Reading) : Prop :=
  (∃ e, .read e ∈ readings) ∧
    cap ≤ (out ++ readings.filterMap Reading.entry).length

theorem filterMap_read
    (out : List Entry) (entry : Option Entry)
    (rest : List Reading) :
    out ++ (Reading.read entry :: rest).filterMap Reading.entry =
      (out ++ entry.toList) ++ rest.filterMap Reading.entry := by
  cases entry <;> simp [Reading.entry, List.filterMap_cons]

theorem entries_of_unread
    {readings : List Reading}
    (hNone : ¬ ∃ e, Reading.read e ∈ readings) :
    readings.filterMap Reading.entry = [] := by
  refine List.filterMap_eq_nil_iff.mpr fun r hR => ?_
  cases r with
  | read e => exact absurd ⟨e, hR⟩ hNone
  | raised => rfl
  | skipped => rfl

theorem gather_extends
    {cap : Nat} {out found : List Entry} {readings : List Reading}
    (hFound : gather cap out readings = some found) :
    out <+: found := by
  induction readings generalizing out with
  | nil =>
      cases hFound
      exact List.prefix_rfl
  | cons reading rest ih =>
      cases reading with
      | raised => cases hFound
      | skipped => exact ih hFound
      | read entry =>
          simp only [gather] at hFound
          split at hFound
          · cases hFound
            exact List.prefix_append _ _
          · exact (List.prefix_append _ _).trans (ih hFound)

/- What follows a loop that stops is not read. -/
theorem gather_capped
    {cap : Nat} {out : List Entry} {first : List Reading}
    (hCapped : Capped cap out first) (second : List Reading) :
    gather cap out (first ++ second) = gather cap out first := by
  induction first generalizing out with
  | nil => exact absurd hCapped.1 (by simp)
  | cons reading rest ih =>
      obtain ⟨⟨e, hE⟩, hCap⟩ := hCapped
      cases reading with
      | raised => rfl
      | skipped =>
          exact ih ⟨⟨e, by simpa using hE⟩,
            by simpa [Reading.entry, List.filterMap_cons] using hCap⟩
      | read entry =>
          rw [filterMap_read] at hCap
          simp only [List.cons_append, gather]
          split
          · rfl
          · rename_i hRoom
            refine ih ⟨?_, hCap⟩
            -- There is room, so an entry is still to come.
            by_contra hNone
            refine hRoom (hCap.trans (le_of_eq ?_))
            rw [entries_of_unread hNone, List.append_nil]

/- A loop that does not stop goes on with what it has. -/
theorem gather_uncapped
    {cap : Nat} {out : List Entry} {first : List Reading}
    (hNone : Reading.raised ∉ first)
    (hCapped : ¬ Capped cap out first) (second : List Reading) :
    gather cap out (first ++ second) =
      gather cap (out ++ first.filterMap Reading.entry) second := by
  induction first generalizing out with
  | nil => simp
  | cons reading rest ih =>
      rw [List.mem_cons, not_or] at hNone
      cases reading with
      | raised => exact absurd rfl hNone.1
      | skipped =>
          refine ih hNone.2 fun h => hCapped ?_
          exact ⟨h.1.imp fun e hE => List.mem_cons_of_mem _ hE,
            by simpa [Reading.entry, List.filterMap_cons] using h.2⟩
      | read entry =>
          have hRoom : ¬ cap ≤ (out ++
              (Reading.read entry :: rest).filterMap
                Reading.entry).length :=
            fun h => hCapped ⟨⟨entry, List.mem_cons_self⟩, h⟩
          rw [filterMap_read] at hRoom ⊢
          have hGoes : ¬ cap ≤ (out ++ entry.toList).length := by
            rw [List.length_append] at hRoom
            omega
          simp only [List.cons_append, gather, if_neg hGoes]
          exact ih hNone.2 fun h => hRoom h.2

/- A loop adds an entry first just where one that may have a
single entry ends with it. -/
theorem gather_first_iff
    {cap : Nat} {out full : List Entry} {readings : List Reading}
    (hRoom : out.length < cap ∨ cap = 0 ∧ out = [])
    (hFull : gather cap out readings = some full) (e : Entry) :
    out ++ [e] <+: full ↔
      gather (min 1 cap) [] readings = some [e] := by
  have hShort : ¬ out ++ [e] <+: out := fun h => by
    have := h.length_le
    simp at this
  induction readings with
  | nil =>
      cases hFull
      exact iff_of_false hShort (by simp [gather])
  | cons reading rest ih =>
      cases reading with
      | raised => cases hFull
      | skipped => exact ih hFull
      | read entry =>
          cases entry with
          | none =>
              simp only [gather, Option.toList_none,
                List.append_nil] at hFull ⊢
              rcases hRoom with hRoom | ⟨rfl, rfl⟩
              · rw [if_neg (by omega)] at hFull
                rw [if_neg (by simp; omega)]
                exact ih hFull
              · cases hFull
                exact iff_of_false hShort (by simp)
          | some x =>
              have hX : out ++ (some x).toList <+: full := by
                simp only [gather] at hFull
                split at hFull
                · cases hFull
                  exact List.prefix_rfl
                · exact gather_extends hFull
              have hOne : gather (min 1 cap) []
                  (.read (some x) :: rest) = some [x] :=
                if_pos (Nat.min_le_left 1 cap)
              rw [hOne, Option.some.injEq, List.singleton_inj]
              constructor
              · intro hE
                have hEq := List.IsPrefix.eq_of_length
                  (List.prefix_of_prefix_length_le hE hX (by simp))
                  (by simp)
                simpa using hEq.symm
              · rintro rfl
                exact hX

---- The Cut

/- A body that was cut off early ends with a line. -/
theorem readBody_cut
    {d : BulkDeployment} {chunks : List Bytes} {body : Bytes}
    (hBody : readBody d chunks = some body) :
    ∃ after, chunks.flatten = body ++ after ∧
      (after = [] ∨ body = [] ∨
        ∃ before, body = before ++ [newline]) := by
  have hChunks : ∀ total kept stopped,
      readChunks d total chunks = some (kept, stopped) →
        ∃ after, chunks.flatten = kept.flatten ++ after ∧
          (stopped = false → after = []) := by
    clear hBody
    induction chunks with
    | nil =>
        intro total kept stopped hRead
        cases hRead
        exact ⟨[], rfl, fun _ => rfl⟩
    | cons chunk rest ih =>
        intro total kept stopped hRead
        simp only [readChunks] at hRead
        split at hRead
        · cases hRead
          exact ⟨rest.flatten, by simp, fun h => by cases h⟩
        · split at hRead
          · cases hRead
          · obtain ⟨r, hR, hEq⟩ := Option.map_eq_some_iff.mp hRead
            cases hEq
            obtain ⟨after, hFlat, hNil⟩ := ih _ _ _ hR
            exact ⟨after, by simp [hFlat], hNil⟩
  obtain ⟨⟨kept, stopped⟩, hRead, hEq⟩ :=
    Option.map_eq_some_iff.mp hBody
  obtain ⟨after, hFlat, hNil⟩ := hChunks 0 kept stopped hRead
  cases stopped with
  | false =>
      obtain rfl := hNil rfl
      exact ⟨[], by simpa [← hEq] using hFlat, Or.inl rfl⟩
  | true =>
      simp only [if_true] at hEq
      have hSplit := List.takeWhile_append_dropWhile
        (p := (· != newline)) (l := kept.flatten.reverse)
      have hKept : kept.flatten = body ++
          (kept.flatten.reverse.takeWhile (· != newline)).reverse := by
        rw [← hEq, ← List.reverse_append, hSplit,
          List.reverse_reverse]
      refine ⟨_, by rw [hFlat, hKept, List.append_assoc], Or.inr ?_⟩
      cases hDrop : kept.flatten.reverse.dropWhile (· != newline) with
      | nil => exact Or.inl (by rw [← hEq, hDrop]; rfl)
      | cons c l =>
          have hC := List.head?_dropWhile_not (· != newline)
            kept.flatten.reverse
          rw [hDrop] at hC
          have hLast : c = newline := by simpa using hC
          exact Or.inr ⟨l.reverse, by
            rw [← hEq, hDrop, List.reverse_cons, hLast]⟩

theorem room_of_not_capped
    {cap : Nat} {readings : List Reading}
    (hCapped : ¬ Capped cap [] readings) :
    (readings.filterMap Reading.entry).length < cap ∨
      cap = 0 ∧ readings.filterMap Reading.entry = [] := by
  by_cases hRead : ∃ e, Reading.read e ∈ readings
  · exact Or.inl (not_le.mp fun h => hCapped ⟨hRead, h⟩)
  · rw [entries_of_unread hRead]
    exact cap.eq_zero_or_pos.symm.imp id fun h => ⟨h, rfl⟩

def BulkParser.readRow :
    BulkParser → Option (List Str) → Reading
| .threatfox => readThreatfox
| .urlhaus => readUrlhaus
| _ => fun _ => .skipped

theorem readRow_ne_raised
    (p : BulkParser)
    (row : List Str) : p.readRow (some row) ≠ .raised := by
  cases p <;> simp only [BulkParser.readRow, readThreatfox,
    readUrlhaus] <;> grind

/- A parser reads lines, or the cut is not inside a quoted field,
or the row that is open there comes too late, gives no entry,
or gives the entry that the body has next. -/
def Harmless
    (p : BulkParser)
    (cap : Nat)
    (text rest : Str) : Prop :=
  p.byLine = true ∨
    ∀ rows r,
      csvAfter .start (stringLines text) = some (rows, r) →
      r.state = .inQuoted → ∀ e,
      p.readRow (some (r.save .startRecord).fields) =
          .read (some e) →
        Capped cap [] (rows.map fun row => p.readRow (some row)) ∨
        gather (min 1 cap) []
          ((csvRows r (stringLines rest)).map p.readRow) = some [e]

/- A text that goes on after a line keeps its entries. -/
theorem prefix_of_first
    {cap : Nat} {cut full : List Entry}
    {first second : List Reading}
    (hNone : Reading.raised ∉ first)
    (hCut : gather cap [] first = some cut)
    (hFull : gather cap [] (first ++ second) = some full) :
    cut <+: full := by
  by_cases hCapped : Capped cap [] first
  · rw [gather_capped hCapped, hCut] at hFull
    cases hFull
    exact List.prefix_rfl
  · have hFirst := gather_uncapped hNone hCapped []
    rw [List.append_nil, hCut, gather, Option.some.injEq] at hFirst
    rw [gather_uncapped hNone hCapped, ← hFirst] at hFull
    exact gather_extends hFull

theorem prefix_of_lines
    {p : BulkParser} {cap : Nat} {text rest : Str}
    {cut full : List Entry}
    (hLine : p.byLine = true)
    (hLines : splitLines (text ++ rest) =
      splitLines text ++ splitLines rest)
    (hCut : p.parse cap text = some cut)
    (hFull : p.parse cap (text ++ rest) = some full) :
    cut <+: full := by
  have hSplit :
      p.readings (text ++ rest) = p.readings text ++ p.readings rest ∧
        Reading.raised ∉ p.readings text := by
    cases p with
    | iplist =>
        simp [BulkParser.readings, hLines, readIplist_ne_raised]
    | hosts =>
        simp [BulkParser.readings, hLines, readHosts_ne_raised]
    | netset =>
        simp [BulkParser.readings, hLines, readNetset_ne_raised]
    | threatfox => cases hLine
    | urlhaus => cases hLine
  rw [BulkParser.parse, hSplit.1] at hFull
  exact prefix_of_first hSplit.2 hCut hFull

theorem rows_prefix_iff
    {p : BulkParser} {cap : Nat} {text rest : Str}
    {cut full : List Entry}
    (hLine : p.byLine = false)
    (hLines : stringLines (text ++ rest) =
      stringLines text ++ stringLines rest)
    (hCut : p.parse cap text = some cut)
    (hFull : p.parse cap (text ++ rest) = some full) :
    cut <+: full ↔ Harmless p cap text rest := by
  have hReadings : ∀ t,
      p.readings t = (csvReader t).map p.readRow := by
    intro t
    cases p <;> first | rfl | cases hLine
  rw [BulkParser.parse, hReadings, csvReader] at hCut hFull
  rw [hLines] at hFull
  cases hAfter : csvAfter .start (stringLines text) with
  | none =>
      rw [csvRows_append_raised hAfter, hCut] at hFull
      cases hFull
      refine iff_of_true List.prefix_rfl (Or.inr fun rows r h => ?_)
      rw [hAfter] at h
      cases h
  | some x =>
      obtain ⟨rows, r⟩ := x
      have hFirst := csvRows_append hAfter []
      rw [List.append_nil] at hFirst
      rw [hFirst, List.map_append, List.map_map] at hCut
      rw [csvRows_append hAfter, List.map_append, List.map_map]
        at hFull
      have hNone : Reading.raised ∉ rows.map (p.readRow ∘ some) := by
        intro hIn
        obtain ⟨row, _, hRow⟩ := List.mem_map.mp hIn
        exact readRow_ne_raised p row hRow
      -- Only an entry of the row that is open makes a difference.
      have hVacuous :
          (r.state = .inQuoted → ∀ e,
            p.readRow (some (r.save .startRecord).fields) ≠
              .read (some e)) → Harmless p cap text rest := by
        intro hNot
        refine Or.inr fun rows' r' h hState e hE => ?_
        rw [hAfter] at h
        cases h
        exact absurd hE (hNot hState e)
      by_cases hCapped : Capped cap [] (rows.map (p.readRow ∘ some))
      · rw [gather_capped hCapped] at hCut hFull
        rw [hCut] at hFull
        cases hFull
        refine iff_of_true List.prefix_rfl
          (Or.inr fun rows' r' h _ _ _ => Or.inl ?_)
        rw [hAfter] at h
        cases h
        exact hCapped
      · rw [gather_uncapped hNone hCapped, List.nil_append]
          at hCut hFull
        have hRoom := room_of_not_capped hCapped
        generalize (rows.map (p.readRow ∘ some)).filterMap
          Reading.entry = found at hCut hFull hRoom
        have hKept : cut = found → cut <+: full := fun h =>
          h ▸ gather_extends hFull
        by_cases hState : r.state = .inQuoted
        · have hOpen :
              csvRows r [] = [some (r.save .startRecord).fields] := by
            simp [csvRows, hState]
          rw [hOpen, List.map_singleton] at hCut
          cases hRow : p.readRow
              (some (r.save .startRecord).fields) with
          | raised => exact absurd hRow (readRow_ne_raised p _)
          | skipped =>
              rw [hRow] at hCut
              cases hCut
              exact iff_of_true (hKept rfl)
                (hVacuous fun _ e hE => by
                  rw [hRow] at hE
                  cases hE)
          | read entry =>
              cases entry with
              | none =>
                  rw [hRow] at hCut
                  have hSame : cut = found := by
                    simpa [gather] using hCut.symm
                  exact iff_of_true (hKept hSame)
                    (hVacuous fun _ e hE => by
                      rw [hRow] at hE
                      cases hE)
              | some e =>
                  rw [hRow] at hCut
                  have hSame : cut = found ++ [e] := by
                    simpa [gather] using hCut.symm
                  rw [hSame, gather_first_iff hRoom hFull e]
                  constructor
                  · intro hNext
                    refine Or.inr fun rows' r' h _ e' hE => ?_
                    rw [hAfter] at h
                    cases h
                    rw [hRow] at hE
                    cases hE
                    exact Or.inr hNext
                  · rintro (hByLine | hNext)
                    · rw [hLine] at hByLine
                      cases hByLine
                    · exact (hNext rows r hAfter hState e
                        hRow).resolve_left hCapped
        · have hStart : r = .start := by
            rcases csvAfter_state hAfter with h | h | h
            · exact h
            · exact h
            · exact absurd h hState
          have hEmpty : csvRows r [] = [] := by
            rw [hStart]
            rfl
          rw [hEmpty] at hCut
          cases hCut
          exact iff_of_true (hKept rfl)
            (hVacuous fun h => absurd h hState)

/- The entries of a body that was cut off are the first ones of
the whole body just where the cut is harmless. -/
theorem truncated_prefix_iff
    {d : BulkDeployment}
    {p : BulkParser}
    {chunks : List Bytes}
    {body : Bytes}
    {cut full : List Entry}
    (hBody : readBody d chunks = some body)
    (hCut : p.parse d.maxPerFeed (decodeReplace body) = some cut)
    (hFull : p.parse d.maxPerFeed (decodeReplace chunks.flatten) =
      some full) :
    cut <+: full ↔
      Harmless p d.maxPerFeed (decodeReplace body)
        (decodeReplace (chunks.flatten.drop body.length)) := by
  obtain ⟨after, hFlat, hEnd⟩ := readBody_cut hBody
  have hDrop : chunks.flatten.drop body.length = after := by
    rw [hFlat, List.drop_left]
  rw [hDrop]
  have hText : decodeReplace chunks.flatten =
        decodeReplace body ++ decodeReplace after ∧
      (decodeReplace after = [] ∨ decodeReplace body = [] ∨
        ∃ s, decodeReplace body = s ++ [10]) := by
    rw [hFlat]
    rcases hEnd with rfl | rfl | ⟨before, rfl⟩
    · exact ⟨by rw [List.append_nil]; exact
        (List.append_nil _).symm, Or.inl rfl⟩
    · exact ⟨rfl, Or.inr (Or.inl rfl)⟩
    · have hLine := decodeReplace_feed before []
      have hMore := decodeReplace_feed before after
      refine ⟨?_, Or.inr (Or.inr ⟨_, hLine⟩)⟩
      rw [hLine, List.append_assoc, List.append_assoc]
      exact hMore
  rw [hText.1] at hFull
  generalize decodeReplace body = text at hCut hFull hText ⊢
  generalize decodeReplace after = rest at hCut hFull hText ⊢
  cases hLine : p.byLine with
  | true =>
      refine iff_of_true (prefix_of_lines hLine ?_ hCut hFull)
        (Or.inl hLine)
      rcases hText.2 with rfl | rfl | ⟨s, rfl⟩
      · simp [splitLines]
      · rfl
      · rw [List.append_assoc]
        exact splitLines_append s rest
  | false =>
      refine rows_prefix_iff hLine ?_ hCut hFull
      rcases hText.2 with rfl | rfl | ⟨s, rfl⟩
      · simp [stringLines]
      · rfl
      · rw [List.append_assoc]
        exact stringLines_append s rest

/- A list that is cut off after its first line. -/
theorem short_list_cut :
    [((lit "a", []) : Entry)] <+: [(lit "a", []), (lit "b", [])] := by
  have hBody : readBody (deskSync 2) (linesSent ["a", "b"]) =
      some (asciiBytes (lit "a\n")) := by
    decide
  have hCut : BulkParser.iplist.parse (deskSync 2).maxPerFeed
      (decodeReplace (asciiBytes (lit "a\n"))) =
        some [(lit "a", [])] := by
    decide
  have hFull : BulkParser.iplist.parse (deskSync 2).maxPerFeed
      (decodeReplace (linesSent ["a", "b"]).flatten) =
        some [(lit "a", []), (lit "b", [])] := by
    decide
  exact (truncated_prefix_iff hBody hCut hFull).mpr (Or.inl rfl)

/- A cut inside a quoted field leaves a part of a URL. -/
theorem quoted_field_cut :
    ∃ d p chunks body cut full,
      readBody d chunks = some body ∧
      BulkParser.parse p d.maxPerFeed (decodeReplace body) =
        some cut ∧
      p.parse d.maxPerFeed (decodeReplace chunks.flatten) =
        some full ∧
      ¬ cut <+: full :=
  ⟨deskSync 2, .urlhaus, linesSent ["1,2,\"http:a", "b\""],
    asciiBytes (lit "1,2,\"http:a\n"), [(lit "http:a", [])],
    [(lit "http:a\nb", [])], by decide, by decide, by decide,
    by decide⟩

end ThreatOrbit.Connectors
