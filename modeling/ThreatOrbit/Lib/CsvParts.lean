import ThreatOrbit.Lib.Csv

/-
  Comma separated values in two parts: the rows of a text that
  goes on, by the rows that its first lines complete and the
  reader after them.
-/

namespace Lib

/- The rows that lines complete, and the reader after them;
`none` where it raises. -/
def csvAfter :
    CsvReader → List Str → Option (List (List Str) × CsvReader)
| r, [] => some ([], r)
| r, line :: rest =>
    match r.readLine line with
    | none => none
    | some r' =>
        if r'.state = .startRecord then
          (csvAfter .start rest).map fun x =>
            (r'.fields :: x.1, x.2)
        else csvAfter r' rest

theorem csvRows_append_raised
    {r : CsvReader} {a : List Str}
    (h : csvAfter r a = none) (b : List Str) :
    csvRows r (a ++ b) = csvRows r a := by
  fun_induction csvAfter r a with
  | case1 r => cases h
  | case2 r line rest hRead => simp [csvRows, hRead]
  | case3 r line rest r' hRead hEnd ih =>
      simp [csvRows, hRead, hEnd, ih (Option.map_eq_none_iff.mp h)]
  | case4 r line rest r' hRead hEnd ih =>
      simp [csvRows, hRead, hEnd, ih h]

theorem csvRows_append
    {r r' : CsvReader} {a : List Str} {rows : List (List Str)}
    (h : csvAfter r a = some (rows, r')) (b : List Str) :
    csvRows r (a ++ b) = rows.map some ++ csvRows r' b := by
  fun_induction csvAfter r a generalizing rows with
  | case1 r =>
      cases h
      rfl
  | case2 r line rest hRead => cases h
  | case3 r line rest next hRead hEnd ih =>
      obtain ⟨x, hX, hEq⟩ := Option.map_eq_some_iff.mp h
      cases hEq
      simp [csvRows, hRead, hEnd, ih hX]
  | case4 r line rest next hRead hEnd ih =>
      simp [csvRows, hRead, hEnd, ih h]

/- A line ends between two rows or inside a quoted field. -/
theorem readLine_state
    {r r' : CsvReader} {line : Str}
    (h : r.readLine line = some r') :
    r'.state = .startRecord ∨ r'.state = .inQuoted := by
  rw [CsvReader.readLine, List.foldlM_append] at h
  obtain ⟨m, _, hEnd⟩ := Option.bind_eq_some_iff.mp h
  cases hState : m.state <;>
    simp [CsvReader.read, CsvReader.save, hState] at hEnd <;>
    simp [← hEnd, hState]

theorem csvAfter_state
    {r r' : CsvReader} {lines : List Str} {rows : List (List Str)}
    (h : csvAfter r lines = some (rows, r')) :
    r' = r ∨ r' = .start ∨ r'.state = .inQuoted := by
  fun_induction csvAfter r lines generalizing rows with
  | case1 r =>
      cases h
      exact Or.inl rfl
  | case2 r line rest hRead => cases h
  | case3 r line rest next hRead hEnd ih =>
      obtain ⟨x, hX, hEq⟩ := Option.map_eq_some_iff.mp h
      cases hEq
      rcases ih hX with hSame | hLater
      · exact Or.inr (Or.inl hSame)
      · exact Or.inr hLater
  | case4 r line rest next hRead hEnd ih =>
      rcases ih h with rfl | hLater
      · exact Or.inr (Or.inr
          ((readLine_state hRead).resolve_left hEnd))
      · exact Or.inr hLater

theorem consLine_ne_nil
    (c : Nat)
    (lines : List Str) : consLine c lines ≠ [] := by
  cases lines <;> simp [consLine]

/- A line feed ends a line whatever follows. -/
theorem stringLines_append
    (s t : Str) :
    stringLines (s ++ 10 :: t) =
      stringLines (s ++ [10]) ++ stringLines t := by
  induction s with
  | nil => rfl
  | cons c s ih =>
      simp only [List.cons_append, stringLines]
      split
      · rw [ih, List.cons_append]
      · rw [ih, consLine_append]
        cases s with
        | nil => simp [stringLines]
        | cons d s =>
            simp only [List.cons_append, stringLines]
            split
            · exact List.cons_ne_nil _ _
            · exact consLine_ne_nil _ _

end Lib
