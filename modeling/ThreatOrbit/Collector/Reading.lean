import ThreatOrbit.Lib.Lines

/-
  What the collector reads of a file.

  The pieces of an open file are taken one by one, up to a
  number of lines; an incomplete last line is left for a
  later read.
-/

---- Reading

namespace ThreatOrbit.Collector

open Lib

/- `raw.decode("utf-8", "replace").rstrip("\n").rstrip("\r")`. -/
def lineText (raw : Bytes) : Str :=
  ((decodeReplace raw).rdropWhile (· == 10)).rdropWhile (· == 13)

/- What a piece of a file gives: an incomplete or an empty
line gives nothing. -/
def pieceText (raw : Bytes) : List Str :=
  if WholeLine raw ∧ lineText raw ≠ [] then [lineText raw]
  else []

/- The loop over the pieces, for as many lines as there is
room for; and the bytes it took. -/
def takeLines : Nat → List Bytes → List Str × Nat
| _, [] => ([], 0)
| room, raw :: rest =>
    if WholeLine raw then
      let got := pieceText raw
      if room ≤ got.length then (got, raw.length)
      else
        let more := takeLines (room - got.length) rest
        (got ++ more.1, raw.length + more.2)
    else ([], 0)

/- `read_new_lines` of an open file after its seek: the lines
and how far it got. -/
def readNewLines
    (maxLines : Nat)
    (content : Bytes)
    (start : Nat) : List Str × Nat :=
  let got := takeLines maxLines (rawLines (content.drop start))
  (got.1, start + got.2)

/- The complete lines of a file that are not empty. -/
def completeLines (content : Bytes) : List Str :=
  (rawLines content).flatMap pieceText

/- An offset at the start of a line. -/
def LineEnd (content : Bytes) (n : Nat) : Prop :=
  n ≤ content.length ∧ (n = 0 ∨ WholeLine (content.take n))

theorem completeLines_append
    {a : Bytes}
    (hLast : a = [] ∨ WholeLine a) (b : Bytes) :
    completeLines (a ++ b) =
      completeLines a ++ completeLines b := by
  unfold completeLines
  rcases hLast with hNil | hWhole
  · rw [hNil]
    rfl
  · rw [rawLines_append hWhole, List.flatMap_append]

theorem LineEnd.take
    {content : Bytes} {n : Nat}
    (hEnd : LineEnd content n) :
    content.take n = [] ∨ WholeLine (content.take n) := by
  rcases hEnd.2 with hZero | hWhole
  · rw [hZero]
    exact Or.inl rfl
  · exact Or.inr hWhole

theorem LineEnd.lines
    {content : Bytes} {n : Nat}
    (hEnd : LineEnd content n) :
    completeLines content =
      completeLines (content.take n) ++
        completeLines (content.drop n) := by
  rw [← completeLines_append hEnd.take, List.take_append_drop]

theorem LineEnd.append
    {content : Bytes} {n : Nat}
    (hEnd : LineEnd content n) (more : Bytes) :
    LineEnd (content ++ more) n := by
  constructor
  · rw [List.length_append]
    exact Nat.le_add_right_of_le hEnd.1
  · rw [List.take_append_of_le_length hEnd.1]
    exact hEnd.2

theorem wholeLine_flatten
    {raws : List Bytes}
    (hWhole : ∀ raw ∈ raws, WholeLine raw) (hSome : raws ≠ []) :
    WholeLine raws.flatten := by
  rcases List.eq_nil_or_concat raws with hNil | ⟨front, raw, hRaws⟩
  · exact absurd hNil hSome
  · have hLast : WholeLine raw := by
      apply hWhole
      rw [hRaws]
      simp
    unfold WholeLine at hLast ⊢
    rw [hRaws, List.concat_eq_append, List.flatten_append,
      List.flatten_singleton, List.getLast?_append, hLast]
    rfl

/- Only the last piece of a file may be incomplete. -/
theorem rawLines_dropLast
    (data : Bytes) :
    ∀ raw ∈ (rawLines data).dropLast, WholeLine raw := by
  fun_induction rawLines data with
  | case1 => simp
  | case2 rest ih =>
      intro raw hRaw
      cases hLines : rawLines rest with
      | nil =>
          rw [hLines] at hRaw
          cases hRaw
      | cons line more =>
          rw [hLines, List.dropLast_cons_cons] at hRaw
          rw [hLines] at ih
          rcases List.mem_cons.mp hRaw with hFirst | hLater
          · rw [hFirst]
            rfl
          · exact ih raw hLater
  | case3 b rest hB hNil ih => simp
  | case4 b rest hB line more hLines ih =>
      intro raw hRaw
      rw [hLines] at ih
      cases more with
      | nil => cases hRaw
      | cons next more =>
          rw [List.dropLast_cons_cons] at hRaw ih
          rw [List.forall_mem_cons] at ih
          rcases List.mem_cons.mp hRaw with hFirst | hLater
          · rw [hFirst]
            have hLine := ih.1
            unfold WholeLine at hLine ⊢
            cases line with
            | nil => cases hLine
            | cons c line =>
                rw [List.getLast?_cons_cons]
                exact hLine
          · exact ih.2 raw hLater

/- The loop takes whole lines, and leaves none when it has
room. -/
theorem takeLines_spec
    (room : Nat) {raws : List Bytes}
    (hPieces : ∀ raw ∈ raws.dropLast, WholeLine raw) :
    ∃ m,
      (∀ raw ∈ raws.take m, WholeLine raw) ∧
      (takeLines room raws).1 =
        (raws.take m).flatMap pieceText ∧
      (takeLines room raws).2 = (raws.take m).flatten.length ∧
      ((takeLines room raws).1.length < room →
        (raws.drop m).flatMap pieceText = []) := by
  fun_induction takeLines room raws with
  | case1 room => exact ⟨0, by simp⟩
  | case2 room raw rest hWhole got hFull =>
      refine ⟨1, ?_, ?_, ?_, ?_⟩
      · intro raw' hRaw
        rw [List.mem_singleton.mp hRaw]
        exact hWhole
      · simp [got]
      · simp
      · intro hRoom
        exact absurd hRoom (not_lt_of_ge hFull)
  | case3 room raw rest hWhole got hRoom more ih =>
      have hRest : ∀ raw' ∈ rest.dropLast, WholeLine raw' := by
        intro raw' hRaw
        apply hPieces
        cases rest with
        | nil => cases hRaw
        | cons next rest =>
            rw [List.dropLast_cons_cons]
            exact List.mem_cons_of_mem _ hRaw
      rcases ih hRest with ⟨m, hTaken, hLines, hBytes, hLeft⟩
      refine ⟨m + 1, ?_, ?_, ?_, ?_⟩
      · rw [List.take_succ_cons, List.forall_mem_cons]
        exact ⟨hWhole, hTaken⟩
      · rw [List.take_succ_cons, List.flatMap_cons, ← hLines]
      · rw [List.take_succ_cons, List.flatten_cons,
          List.length_append, ← hBytes]
      · intro hLess
        rw [List.drop_succ_cons]
        apply hLeft
        rw [List.length_append] at hLess
        show more.1.length < room - got.length
        omega
  | case4 room raw rest hPart =>
      refine ⟨0, by simp, rfl, rfl, ?_⟩
      intro _
      -- an incomplete piece is the last
      have hLast : rest = [] := by
        cases rest with
        | nil => rfl
        | cons next rest =>
            exact absurd (hPieces raw (by simp)) hPart
      simp [hLast, pieceText, hPart]

/- The pieces after some whole ones are those of the rest. -/
theorem rawLines_drop
    {data : Bytes} {m : Nat}
    (hWhole : ∀ raw ∈ (rawLines data).take m, WholeLine raw) :
    rawLines ((rawLines data).take m).flatten =
        (rawLines data).take m ∧
      rawLines ((rawLines data).drop m).flatten =
        (rawLines data).drop m := by
  have hFront :
      rawLines ((rawLines data).take m).flatten =
        (rawLines data).take m := by
    apply rawLines_whole _ hWhole
    intro raw hRaw
    exact rawLines_piece (List.mem_of_mem_take hRaw)
  refine ⟨hFront, ?_⟩
  by_cases hNil : (rawLines data).take m = []
  · have hAll : (rawLines data).drop m = rawLines data := by
      have hSplit := List.take_append_drop m (rawLines data)
      rw [hNil, List.nil_append] at hSplit
      exact hSplit
    rw [hAll, rawLines_flatten]
  · have hBoth :=
      rawLines_append (wholeLine_flatten hWhole hNil)
        ((rawLines data).drop m).flatten
    rw [← List.flatten_append, List.take_append_drop,
      rawLines_flatten, hFront] at hBoth
    have hSplit := List.take_append_drop m (rawLines data)
    exact (List.append_cancel_left (hSplit.trans hBoth)).symm

/- A read takes the lines between two line ends, and leaves
none when it comes back with room. -/
theorem readNewLines_spec
    (maxLines : Nat) {content : Bytes} {start : Nat}
    (hStart : LineEnd content start) :
    LineEnd content (readNewLines maxLines content start).2 ∧
      completeLines
          (content.take
            (readNewLines maxLines content start).2) =
        completeLines (content.take start) ++
          (readNewLines maxLines content start).1 ∧
      ((readNewLines maxLines content start).1.length < maxLines →
        completeLines
          (content.drop
            (readNewLines maxLines content start).2) = []) := by
  rcases takeLines_spec maxLines
    (rawLines_dropLast (content.drop start)) with
    ⟨m, hWhole, hLines, hBytes, hLeft⟩
  rcases rawLines_drop hWhole with ⟨hFront, hBack⟩
  have hSplit :
      content.drop start =
        ((rawLines (content.drop start)).take m).flatten ++
          ((rawLines (content.drop start)).drop m).flatten := by
    rw [← List.flatten_append, List.take_append_drop,
      rawLines_flatten]
  have hTake :
      content.take (readNewLines maxLines content start).2 =
        content.take start ++
          ((rawLines (content.drop start)).take m).flatten := by
    unfold readNewLines
    simp only
    rw [hBytes, List.take_add]
    exact congrArg _
      ((congrArg (List.take _) hSplit).trans List.take_left)
  have hDrop :
      content.drop (readNewLines maxLines content start).2 =
        ((rawLines (content.drop start)).drop m).flatten := by
    unfold readNewLines
    simp only
    rw [hBytes, ← List.drop_drop]
    exact (congrArg (List.drop _) hSplit).trans List.drop_left
  refine ⟨⟨?_, ?_⟩, ?_, ?_⟩
  · have hLength := congrArg List.length hSplit
    have hFrom := hStart.1
    unfold readNewLines
    simp only [List.length_drop, List.length_append] at hLength ⊢
    omega
  · rw [hTake]
    by_cases hNil :
        (rawLines (content.drop start)).take m = []
    · rw [hNil, List.flatten_nil, List.append_nil]
      rcases hStart.2 with hZero | hEnd
      · left
        unfold readNewLines
        simp only
        rw [hBytes, hNil, hZero]
        rfl
      · exact Or.inr hEnd
    · right
      have hEnd := wholeLine_flatten hWhole hNil
      unfold WholeLine at hEnd ⊢
      rw [List.getLast?_append, hEnd]
      rfl
  · rw [hTake, completeLines_append hStart.take]
    congr 1
    unfold completeLines
    rw [hFront, ← hLines]
    rfl
  · intro hRoom
    rw [hDrop]
    unfold completeLines
    rw [hBack]
    exact hLeft hRoom

end ThreatOrbit.Collector
