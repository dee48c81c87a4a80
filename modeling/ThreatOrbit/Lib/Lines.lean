import ThreatOrbit.Lib.Utf8

/-
  Lines of a text, as `str.splitlines` cuts it, and of a
  file that is read as text.

  Key definitions:
    * `splitLines`, `nonBlankLines`
    * `readText`
    * `LineCut`
    * `rawLines`, `linesOf`
-/

---- Splitting

namespace Lib

/- The characters that end a line. -/
def isLineBreak (c : Nat) : Bool :=
  (10 ≤ c && c ≤ 13) || (28 ≤ c && c ≤ 30) || c == 0x85 ||
    c == 0x2028 || c == 0x2029

/- A character before the first of some lines. -/
def consLine (c : Nat) : List Str → List Str
| [] => [[c]]
| line :: rest => (c :: line) :: rest

/- `str.splitlines`: a carriage return takes the line feed
after it. -/
@[grind =]
def splitLines : Str → List Str
| [] => []
| 13 :: 10 :: rest => [] :: splitLines rest
| c :: rest =>
    if isLineBreak c then [] :: splitLines rest
    else consLine c (splitLines rest)

/- `[ln for ln in s.splitlines() if ln.strip()]`. -/
def nonBlankLines (s : Str) : List Str :=
  (splitLines s).filter fun line => strip line != []

---- Lines In Parts

theorem consLine_append
    (c : Nat) {first : List Str} (hFirst : first ≠ [])
    (second : List Str) :
    consLine c (first ++ second) =
      consLine c first ++ second := by
  cases first with
  | nil => exact absurd rfl hFirst
  | cons line rest => rfl

theorem splitLines_ne_nil
    {s : Str}
    (hS : s ≠ []) :
    splitLines s ≠ [] := by
  fun_induction splitLines s with
  | case1 => exact absurd rfl hS
  | case2 rest ih => exact List.cons_ne_nil _ _
  | case3 c rest hBreak hNot ih => exact List.cons_ne_nil _ _
  | case4 c rest hBreak hNot ih =>
      unfold consLine
      split
      · exact List.cons_ne_nil _ _
      · exact List.cons_ne_nil _ _

theorem splitLines_cons
    {c : Nat} {rest : Str}
    (hPair : c = 13 → rest.head? ≠ some 10) :
    splitLines (c :: rest) =
      if isLineBreak c then [] :: splitLines rest
      else consLine c (splitLines rest) := by
  rw [splitLines]
  intro rest' hC hRest
  apply hPair hC
  rw [hRest]
  rfl

theorem pair_of_not
    {c : Nat} {rest : Str}
    (hNot : ∀ rest', c = 13 → rest = 10 :: rest' → False)
    (hC : c = 13) :
    rest.head? ≠ some 10 := by
  intro hHead
  cases rest with
  | nil => cases hHead
  | cons d rest =>
      rw [List.head?_cons, Option.some.injEq] at hHead
      exact hNot rest hC (by rw [hHead])

/- A line feed after a text ends its last line. -/
theorem splitLines_append
    (s t : Str) :
    splitLines (s ++ 10 :: t) =
      splitLines (s ++ [10]) ++ splitLines t := by
  have hFeed : isLineBreak 10 = true := by
    decide
  fun_induction splitLines s with
  | case1 =>
      rw [List.nil_append,
        splitLines_cons (fun h => absurd h (by decide)), hFeed]
      rfl
  | case2 rest ih =>
      simp only [List.cons_append, splitLines, ih]
  | case3 c rest hNot hBreak ih =>
      by_cases hEnd : c = 13 ∧ rest = []
      · rw [hEnd.1, hEnd.2]
        rfl
      · have hPair : ∀ u : Str,
            c = 13 → (rest ++ 10 :: u).head? ≠ some 10 := by
          intro u hC
          have hHead := pair_of_not hNot hC
          cases rest with
          | nil => exact absurd ⟨hC, rfl⟩ hEnd
          | cons d rest => exact hHead
        rw [List.cons_append, List.cons_append,
          splitLines_cons (hPair t), splitLines_cons (hPair []),
          if_pos hBreak, if_pos hBreak, ih, List.cons_append]
  | case4 c rest hNot hBreak ih =>
      have hC : c = 13 → False := by
        intro hC
        rw [hC] at hBreak
        exact hBreak rfl
      have hLast : splitLines (rest ++ [10]) ≠ [] :=
        splitLines_ne_nil (by simp)
      rw [List.cons_append, List.cons_append,
        splitLines_cons (fun h => absurd h hC),
        splitLines_cons (fun h => absurd h hC),
        if_neg hBreak, if_neg hBreak, ih,
        consLine_append c hLast]

/- It adds a line to a text without one, and a blank line
at most otherwise. -/
theorem splitLines_feed
    (s : Str) :
    splitLines (s ++ [10]) = splitLines s ∨
      splitLines (s ++ [10]) = splitLines s ++ [[]] := by
  fun_induction splitLines s with
  | case1 => exact Or.inr rfl
  | case2 rest ih =>
      simp only [List.cons_append, splitLines]
      rcases ih with hSame | hBlank
      · exact Or.inl (by rw [hSame])
      · rw [hBlank]
        exact Or.inr rfl
  | case3 c rest hNot hBreak ih =>
      by_cases hEnd : c = 13 ∧ rest = []
      · rw [hEnd.1, hEnd.2]
        exact Or.inl rfl
      · have hPair :
            c = 13 → (rest ++ [10]).head? ≠ some 10 := by
          intro hC
          have hHead := pair_of_not hNot hC
          cases rest with
          | nil => exact absurd ⟨hC, rfl⟩ hEnd
          | cons d rest => exact hHead
        rw [List.cons_append, splitLines_cons hPair,
          if_pos hBreak]
        rcases ih with hSame | hBlank
        · exact Or.inl (by rw [hSame])
        · rw [hBlank]
          exact Or.inr rfl
  | case4 c rest hNot hBreak ih =>
      have hC : c = 13 → False := by
        intro hC
        rw [hC] at hBreak
        exact hBreak rfl
      rw [List.cons_append,
        splitLines_cons (fun h => absurd h hC), if_neg hBreak]
      rcases ih with hSame | hBlank
      · exact Or.inl (by rw [hSame])
      · cases rest with
        | nil => exact Or.inl (by rw [hBlank]; rfl)
        | cons d rest =>
            have hLast : splitLines (d :: rest) ≠ [] :=
              splitLines_ne_nil (List.cons_ne_nil _ _)
            exact Or.inr
              (by rw [hBlank, consLine_append c hLast])

theorem nonBlankLines_feed
    (s : Str) :
    nonBlankLines (s ++ [10]) = nonBlankLines s := by
  unfold nonBlankLines
  rcases splitLines_feed s with hSame | hBlank
  · rw [hSame]
  · rw [hBlank, List.filter_append]
    exact List.append_nil _

theorem nonBlankLines_append
    (s t : Str) :
    nonBlankLines (s ++ 10 :: t) =
      nonBlankLines s ++ nonBlankLines t := by
  rw [← nonBlankLines_feed s]
  unfold nonBlankLines
  rw [splitLines_append, List.filter_append]

---- Text Files

/- Universal newlines: a carriage return, alone or before a
line feed, is read as a line feed. -/
@[grind =]
def universalNewlines : Str → Str
| [] => []
| 13 :: 10 :: rest => 10 :: universalNewlines rest
| c :: rest =>
    (if c = 13 then 10 else c) :: universalNewlines rest

/- The bytes as a file that is opened as text, with
`errors="replace"`, reads them. -/
def readText (data : Bytes) : Str :=
  universalNewlines (decodeReplace data)

/- A cut that splits no line: it is after a line feed, or
before the end of a line. -/
def LineCut (before after : Bytes) : Prop :=
  before = [] ∨ before.getLast? = some newline ∨
    after.head? = some newline ∨ after.head? = some (byte '\r')

theorem universalNewlines_cons
    {c : Nat} {rest : Str}
    (hPair : c = 13 → rest.head? ≠ some 10) :
    universalNewlines (c :: rest) =
      (if c = 13 then 10 else c) :: universalNewlines rest := by
  rw [universalNewlines]
  intro rest' hC hRest
  apply hPair hC
  rw [hRest]
  rfl

theorem universalNewlines_return
    (t : Str) :
    ∃ u, universalNewlines (13 :: t) = 10 :: u := by
  rcases hT : t.head? with _ | d
  · exact ⟨_, universalNewlines_cons (by rw [hT]; simp)⟩
  · by_cases hFeed : d = 10
    · rw [List.head?_eq_some_iff] at hT
      rcases hT with ⟨rest, hRest⟩
      rw [hRest, hFeed]
      exact ⟨_, rfl⟩
    · exact ⟨_, universalNewlines_cons (by
        rw [hT]
        simp [hFeed])⟩

/- Two parts are read apart, where they do not part a
carriage return from its line feed. -/
theorem universalNewlines_append
    {s t : Str}
    (hPair : s.getLast? = some 13 → t.head? ≠ some 10) :
    universalNewlines (s ++ t) =
      universalNewlines s ++ universalNewlines t := by
  fun_induction universalNewlines s with
  | case1 => rfl
  | case2 rest ih =>
      rw [List.cons_append, List.cons_append,
        universalNewlines, ih, List.cons_append]
      intro hLast
      cases rest with
      | nil => cases hLast
      | cons d rest => exact hPair (by simpa using hLast)
  | case3 c rest hNot ih =>
      have hNext : c = 13 → (rest ++ t).head? ≠ some 10 := by
        intro hC
        cases rest with
        | nil => exact hPair (by rw [hC]; rfl)
        | cons d rest =>
            have hHead : (d :: rest).head? ≠ some 10 :=
              pair_of_not hNot hC
            exact hHead
      rw [List.cons_append, universalNewlines_cons hNext, ih,
        List.cons_append]
      intro hLast
      cases rest with
      | nil => cases hLast
      | cons d rest => exact hPair (by simpa using hLast)

/- A line feed parts the lines of a text before they are
read. -/
theorem nonBlankLines_universal
    (s t : Str) :
    nonBlankLines (universalNewlines (s ++ 10 :: t)) =
      nonBlankLines (universalNewlines s) ++
        nonBlankLines (universalNewlines t) := by
  have hFeed :
      universalNewlines (10 :: t) = 10 :: universalNewlines t :=
    universalNewlines_cons (fun h => absurd h (by decide))
  by_cases hLast : s.getLast? = some 13
  · rcases List.getLast?_eq_some_iff.mp hLast with ⟨u, hU⟩
    have hReturn : universalNewlines [13] = [10] :=
      rfl
    have hBoth :
        universalNewlines (13 :: 10 :: t) =
          10 :: universalNewlines t :=
      rfl
    rw [hU, List.append_assoc, List.singleton_append,
      universalNewlines_append (by simp), hBoth,
      nonBlankLines_append, universalNewlines_append (by simp),
      hReturn, nonBlankLines_feed]
  · rw [universalNewlines_append (fun h => absurd h hLast),
      hFeed, nonBlankLines_append]

theorem decodeReplace_feed
    (a b : Bytes) :
    decodeReplace (a ++ newline :: b) =
      decodeReplace a ++ 10 :: decodeReplace b :=
  decodeReplace_append (by decide) a b

theorem decodeReplace_return
    (a b : Bytes) :
    decodeReplace (a ++ byte '\r' :: b) =
      decodeReplace a ++ 13 :: decodeReplace b :=
  decodeReplace_append (by decide) a b

theorem nonBlankLines_readText_append
    {before after : Bytes}
    (hCut : LineCut before after) :
    nonBlankLines (readText (before ++ after)) =
      nonBlankLines (readText before) ++
        nonBlankLines (readText after) := by
  unfold readText
  rcases hCut with hNil | hLast | hHead | hHead
  · rw [hNil]
    rfl
  · rcases List.getLast?_eq_some_iff.mp hLast with ⟨front, hFront⟩
    have hEnd :=
      nonBlankLines_universal (decodeReplace front) []
    rw [hFront, List.append_assoc, List.singleton_append,
      decodeReplace_feed, decodeReplace_feed,
      nonBlankLines_universal]
    congr 1
    exact (hEnd.trans (List.append_nil _)).symm
  · rcases List.head?_eq_some_iff.mp hHead with ⟨rest, hRest⟩
    have hFeed :
        decodeReplace (newline :: rest) =
          10 :: decodeReplace rest :=
      decodeReplace_feed [] rest
    have hStart :=
      nonBlankLines_universal [] (decodeReplace rest)
    rw [hRest, decodeReplace_feed, hFeed,
      nonBlankLines_universal]
    exact congrArg _ hStart.symm
  · rcases List.head?_eq_some_iff.mp hHead with ⟨rest, hRest⟩
    have hReturn :
        decodeReplace (byte '\r' :: rest) =
          13 :: decodeReplace rest :=
      decodeReplace_return [] rest
    rcases universalNewlines_return (decodeReplace rest) with
      ⟨u, hU⟩
    have hStart := nonBlankLines_append [] u
    rw [hRest, decodeReplace_return, hReturn,
      universalNewlines_append (by simp), hU,
      nonBlankLines_append]
    exact congrArg _ hStart.symm

---- Lines Of Several Files

/- The lines of a file, among those of others. -/
def linesOf (path : Str) (lines : List (Str × Str)) : List Str :=
  (lines.filter fun l => l.1 == path).map Prod.snd

theorem linesOf_append
    (path : Str) (first second : List (Str × Str)) :
    linesOf path (first ++ second) =
      linesOf path first ++ linesOf path second := by
  unfold linesOf
  rw [List.filter_append, List.map_append]

theorem linesOf_tagged
    (path path' : Str) (lines : List Str) :
    linesOf path (lines.map fun line => (path', line)) =
      if path' = path then lines else [] := by
  unfold linesOf
  by_cases hSame : path' = path
  · simp [List.filter_map, Function.comp_def, hSame]
  · simp [List.filter_map, Function.comp_def, hSame]

---- Binary Files

/- The pieces that `for raw in fh` gives of a binary file:
each but the last ends with a line feed. -/
@[grind =]
def rawLines : Bytes → List Bytes
| [] => []
| b :: rest =>
    if b = newline then [b] :: rawLines rest
    else
      match rawLines rest with
      | [] => [[b]]
      | line :: more => (b :: line) :: more

/- A piece that is a whole line. -/
def WholeLine (raw : Bytes) : Prop :=
  raw.getLast? = some newline

instance (raw : Bytes) : Decidable (WholeLine raw) :=
  inferInstanceAs (Decidable (raw.getLast? = some newline))

theorem rawLines_flatten
    (data : Bytes) :
    (rawLines data).flatten = data := by
  fun_induction rawLines data with
  | case1 => rfl
  | case2 rest ih =>
      rw [List.flatten_cons, ih]
      rfl
  | case3 b rest hB hNil ih =>
      rw [hNil] at ih
      rw [← ih]
      rfl
  | case4 b rest hB line more hLines ih =>
      rw [hLines] at ih
      rw [← ih]
      rfl

theorem rawLines_feed
    (rest : Bytes) :
    rawLines (newline :: rest) = [newline] :: rawLines rest :=
  rfl

theorem rawLines_more
    {b : UInt8}
    (hB : b ≠ newline) {rest line : Bytes} {more : List Bytes}
    (hLines : rawLines rest = line :: more) :
    rawLines (b :: rest) = (b :: line) :: more := by
  rw [rawLines, if_neg hB, hLines]

theorem rawLines_ne_nil
    {data : Bytes}
    (hData : data ≠ []) :
    rawLines data ≠ [] := by
  intro hNil
  have hFlat := rawLines_flatten data
  rw [hNil] at hFlat
  exact hData hFlat.symm

theorem wholeLine_tail
    {b c : UInt8} {rest : Bytes}
    (hLast : WholeLine (b :: c :: rest)) :
    WholeLine (c :: rest) := by
  unfold WholeLine at hLast ⊢
  rw [List.getLast?_cons_cons] at hLast
  exact hLast

/- After a whole line the pieces start anew. -/
theorem rawLines_append
    {a : Bytes}
    (hLast : WholeLine a) (b : Bytes) :
    rawLines (a ++ b) = rawLines a ++ rawLines b := by
  induction a with
  | nil => cases hLast
  | cons x a ih =>
      cases a with
      | nil =>
          have hFeed : x = newline := Option.some.inj hLast
          rw [hFeed]
          rfl
      | cons y a =>
          have hTail := ih (wholeLine_tail hLast)
          by_cases hFeed : x = newline
          · rw [hFeed, List.cons_append, rawLines_feed,
              rawLines_feed, hTail, List.cons_append]
          · rcases List.exists_cons_of_ne_nil
              (rawLines_ne_nil (List.cons_ne_nil y a)) with
              ⟨line, more, hLines⟩
            have hBoth :
                rawLines (y :: a ++ b) =
                  line :: (more ++ rawLines b) := by
              rw [hTail, hLines]
              rfl
            rw [List.cons_append, rawLines_more hFeed hBoth,
              rawLines_more hFeed hLines, List.cons_append]

/- A piece that is a whole line is one piece of its own. -/
theorem rawLines_piece
    {data raw : Bytes}
    (hRaw : raw ∈ rawLines data) :
    rawLines raw = [raw] := by
  fun_induction rawLines data generalizing raw with
  | case1 => cases hRaw
  | case2 rest ih =>
      rcases List.mem_cons.mp hRaw with hFirst | hLater
      · rw [hFirst]
        rfl
      · exact ih hLater
  | case3 b rest hB hNil ih =>
      rw [List.mem_singleton.mp hRaw, rawLines, if_neg hB]
      rfl
  | case4 b rest hB line more hLines ih =>
      rcases List.mem_cons.mp hRaw with hFirst | hLater
      · rw [hFirst]
        exact rawLines_more hB
          (ih (hLines ▸ List.mem_cons_self))
      · exact ih (hLines ▸ List.mem_cons_of_mem _ hLater)

theorem rawLines_whole
    {raws : List Bytes}
    (hPieces : ∀ raw ∈ raws, rawLines raw = [raw])
    (hWhole : ∀ raw ∈ raws, WholeLine raw) :
    rawLines raws.flatten = raws := by
  induction raws with
  | nil => rfl
  | cons raw raws ih =>
      rw [List.forall_mem_cons] at hPieces hWhole
      rw [List.flatten_cons, rawLines_append hWhole.1,
        hPieces.1, ih hPieces.2 hWhole.2,
        List.singleton_append]

end Lib
