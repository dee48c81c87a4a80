import ThreatOrbit.Lib.Captures
import ThreatOrbit.Lib.Ip
import ThreatOrbit.Lib.Scanning

/-
  The LEEF envelope: a header between pipes, whose sixth
  string may name a delimiter, then an extension of
  `key=value` pairs with the delimiter between them.
-/

---- Decoding

namespace ThreatOrbit.Ingest

open Lib
open Lib.Regex

/- The hexadecimal digits of a numeral without its
underscores, each of which stands before a digit. -/
def hexDigitsOf : Str → Option Str
| [] => some []
| c :: rest =>
    if c = cp '_' then
      if (rest.head?.bind hexDigitVal).isSome then
        hexDigitsOf rest
      else none
    else if (hexDigitVal c).isSome then
      (hexDigitsOf rest).map (c :: ·)
    else none

/- `int(text, 16)` of a text that begins with `0x`, or `none`
where it raises `ValueError`. -/
def intBase16 (s : Str) : Option Nat :=
  match hexDigitsOf (asciiNumeral (s.drop 2)) with
  | none => none
  | some [] => none
  | some digits => hexNat digits

def tab : Nat := 9

def leefDelim
    [Unicode]
    (spec : Str) : Except PyError Str :=
  let spec := strip spec
  if (lit "0x").isPrefixOf (Unicode.lower spec) then
    match intBase16 spec with
    | none => .ok [tab]
    | some n =>
        -- `chr` raises `ValueError` beyond Unicode, and
        -- `OverflowError` beyond a C integer
        if n < 0x110000 then .ok [n]
        else if n < 2 ^ 31 then .ok [tab]
        else .error .overflowError
  else if spec = lit "\\t" ∨ spec = lit "tab" ∨ spec = [] then
    .ok [tab]
  else .ok spec

/- The parts of a text between the occurrences of a text,
after the given number of characters is dropped. -/
def splitFrom (sep : Str) : Nat → Str → List Str
| _, [] => [[]]
| n + 1, _ :: rest => splitFrom sep n rest
| 0, c :: rest =>
    if sep.isPrefixOf (c :: rest) then
      [] :: splitFrom sep (sep.length - 1) rest
    else
      match splitFrom sep 0 rest with
      | part :: parts => (c :: part) :: parts
      | [] => [[c]]

/- `\t|\s{2,}`. -/
def gap : Regex :=
  .alt (cls (· == tab)) (.seq (cls isSpace) (plus (cls isSpace)))

/- The pairs of an extension that are still to be cut at
their first `=`. -/
def leefChunks (delim ext : Str) : List Str :=
  if contains delim ext then splitFrom delim 0 ext
  else gap.split ext

/- A key and a value, where there is a `=`. -/
def leefPair (chunk : Str) : Option (Str × Str) :=
  if chunk.contains (cp '=') then
    some (strip (chunk.takeWhile (· != cp '=')),
      strip ((chunk.dropWhile (· != cp '=')).drop 1))
  else none

/- The event id and the pairs, as they are before they are
mapped onto the event. -/
structure LeefFields where
  eventId : Str
  pairs : List (Str × Str)
deriving DecidableEq, Repr

/- `_parse_leef`, up to the event. -/
def parseLeef
    [Unicode]
    (line : Str) : Except PyError (Option LeefFields) :=
  if !(lit "LEEF:").isPrefixOf line then .ok none
  else
    let parts := splitOn (cp '|') line
    if parts.length < 6 then .ok none
    else do
      let ver := strip ((parts.getD 0 []).drop 5)
      let (delim, ext) ←
        if (lit "2").isPrefixOf ver ∧ 7 ≤ parts.length then do
          let delim ← leefDelim (parts.getD 5 [])
          pure (delim, joinWith (lit "|") (parts.drop 6))
        else
          pure ([tab], joinWith (lit "|") (parts.drop 5))
      pure (some {
        eventId := parts.getD 4 []
        pairs := dictOf
          ((leefChunks delim ext).filterMap leefPair) })

---- Records

/- A LEEF 2.0 record, with a delimiter of one character. -/
structure LeefRecord where
  vendor : Str
  product : Str
  productVersion : Str
  eventId : Str
  delim : Nat
  pairs : List (Str × Str)
  header_plain :
    ∀ s ∈ [vendor, product, productVersion, eventId],
      cp '|' ∉ s
  delim_plain :
    delim ∉ [cp '|', cp '=', cp '\\', cp ' ']
  nonempty : pairs ≠ []
  distinct : (pairs.map Prod.fst).Nodup
  trimmed :
    ∀ p ∈ pairs, strip p.1 = p.1 ∧ strip p.2 = p.2
  key_plain :
    ∀ p ∈ pairs,
      cp '=' ∉ p.1 ∧ cp '|' ∉ p.1 ∧ delim ∉ p.1
  value_plain :
    ∀ p ∈ pairs, cp '|' ∉ p.2 ∧ delim ∉ p.2

def pairText (p : Str × Str) : Str :=
  p.1 ++ cp '=' :: p.2

def LeefRecord.ext (r : LeefRecord) : Str :=
  joinWith [r.delim] (r.pairs.map pairText)

def LeefRecord.encode (r : LeefRecord) : Str :=
  joinWith (lit "|")
    [lit "LEEF:2.0", r.vendor, r.product, r.productVersion,
      r.eventId, [r.delim], r.ext]

/- Lower case makes no hexadecimal prefix of a character
beyond ASCII. -/
class LowerLetters [Unicode] : Prop where
  not_hex :
    ∀ c, 128 ≤ c →
      (lit "0x").isPrefixOf (Unicode.lower [c]) = false

/- The delimiter that is used: white space is stripped off
the header, and an empty string means a tab. -/
def LeefRecord.used (r : LeefRecord) : Nat :=
  if isSpace r.delim then tab else r.delim

theorem LeefRecord.leefDelim_eq
    [Unicode] [LowerLetters]
    (r : LeefRecord) :
    leefDelim [r.delim] = .ok [r.used] := by
  have hShort (y : Nat) :
      (lit "0x").isPrefixOf [y] = false :=
    Bool.and_false (cp '0' == y)
  unfold leefDelim LeefRecord.used
  cases hSpace : isSpace r.delim with
  | true =>
      have hStrip : strip [r.delim] = [] := by
        simp [strip, stripBy, hSpace]
      have hLower : Unicode.lower [] = [] :=
        Unicode.lower_ascii [] (by simp)
      rw [hStrip]
      dsimp only
      rw [hLower]
      rfl
  | false =>
      have hStrip : strip [r.delim] = [r.delim] := by
        simp [strip, stripBy, hSpace]
      have hHex :
          (lit "0x").isPrefixOf (Unicode.lower [r.delim]) =
            false := by
        by_cases hAscii : r.delim < 128
        · rw [Unicode.lower_ascii [r.delim] (by simpa)]
          exact hShort _
        · exact LowerLetters.not_hex r.delim (by omega)
      rw [hStrip]
      dsimp only
      rw [hHex, if_neg (by simp), if_neg (by simp [lit])]
      rfl

theorem splitFrom_singleton
    (d : Nat) (s : Str) :
    splitFrom [d] 0 s = splitOn d s := by
  induction s with
  | nil => rfl
  | cons c rest ih =>
      rw [splitFrom, splitOn, ih, List.length_singleton,
        Nat.sub_self, ih]
      by_cases hHere : c = d
      · rw [if_pos hHere, if_pos (by simp [hHere])]
      · have hNot : ¬[d].isPrefixOf (c :: rest) = true := by
          simpa using fun h => hHere h.symm
        cases splitOn d rest with
        | nil => rw [if_neg hHere, if_neg hNot]
        | cons part parts => rw [if_neg hHere, if_neg hNot]

theorem contains_singleton
    (d : Nat) (s : Str) :
    contains [d] s = decide (d ∈ s) := by
  unfold contains
  rw [decide_eq_decide]
  exact List.singleton_infix_iff d s

/- No pipe is in the parts of a record. -/
theorem LeefRecord.parts_plain
    (r : LeefRecord) :
    ∀ part ∈ [lit "LEEF:2.0", r.vendor, r.product,
        r.productVersion, r.eventId, [r.delim], r.ext],
      cp '|' ∉ part := by
  have hDelim : cp '|' ∉ [r.delim] := by
    intro hMem
    apply r.delim_plain
    rw [← List.mem_singleton.mp hMem]
    exact List.mem_cons_self
  have hExt : cp '|' ∉ r.ext := by
    intro hMem
    rcases mem_joinWith hMem with hSep | ⟨word, hWord, hIn⟩
    · exact hDelim hSep
    · rcases List.mem_map.mp hWord with ⟨p, hP, rfl⟩
      rcases List.mem_append.mp hIn with hKey | hRest
      · exact (r.key_plain p hP).2.1 hKey
      · rcases List.mem_cons.mp hRest with hSign | hValue
        · exact absurd hSign (by decide)
        · exact (r.value_plain p hP).1 hValue
  have hHeader := r.header_plain
  simp only [List.forall_mem_cons] at hHeader ⊢
  rcases hHeader with
    ⟨hVendor, hProduct, hVersion, hEvent, _⟩
  exact ⟨by decide, hVendor, hProduct, hVersion, hEvent,
    hDelim, hExt, by simp⟩

/- What the decoder makes of a record. -/
theorem LeefRecord.parseLeef_encode
    [Unicode] [LowerLetters]
    (r : LeefRecord) :
    parseLeef r.encode =
      .ok (some {
        eventId := r.eventId
        pairs := dictOf
          ((leefChunks [r.used] r.ext).filterMap
            leefPair) }) := by
  have hSplit : splitOn (cp '|') r.encode =
      [lit "LEEF:2.0", r.vendor, r.product,
        r.productVersion, r.eventId, [r.delim], r.ext] :=
    splitOn_joinWith (by simp) r.parts_plain
  have hStart : (lit "LEEF:").isPrefixOf r.encode = true := by
    rw [List.isPrefixOf_iff_prefix]
    exact ⟨_, rfl⟩
  have hVersion :
      (lit "2").isPrefixOf
          (strip ((lit "LEEF:2.0").drop 5)) = true := by
    decide
  unfold parseLeef
  rw [hStart, hSplit]
  simp only [Bool.not_true, Bool.false_eq_true, if_false,
    List.length_cons, List.length_nil, List.getD_cons_zero,
    hVersion, List.getD_cons_succ, List.drop_succ_cons,
    List.drop_zero, joinWith, r.leefDelim_eq]
  rfl

theorem LeefRecord.leefChunks_eq (r : LeefRecord) :
    leefChunks [r.used] r.ext =
      if r.used ∈ r.ext then splitOn r.used r.ext
      else gap.split r.ext := by
  unfold leefChunks
  rw [contains_singleton, splitFrom_singleton]
  simp only [decide_eq_true_eq]

theorem leefPair_pairText
    {p : Str × Str}
    (hTrimmed : strip p.1 = p.1 ∧ strip p.2 = p.2)
    (hKey : cp '=' ∉ p.1) :
    leefPair (pairText p) = some p := by
  have hBefore : ∀ x ∈ p.1, (x != cp '=') = true := by
    intro x hX
    rw [bne_iff_ne]
    rintro rfl
    exact hKey hX
  unfold leefPair pairText
  rw [if_pos (by simp),
    List.takeWhile_append_of_pos hBefore,
    List.dropWhile_append_of_pos hBefore,
    List.takeWhile_cons_of_neg (by simp),
    List.dropWhile_cons_of_neg (by simp),
    List.append_nil, List.drop_succ_cons, List.drop_zero,
    hTrimmed.1, hTrimmed.2]

/- A chunk that is a pair holds its key and its value. -/
theorem of_leefPair
    {chunk : Str} {p : Str × Str}
    (hPair : leefPair chunk = some p) :
    ∃ k v, chunk = k ++ cp '=' :: v ∧
      p = (strip k, strip v) := by
  unfold leefPair at hPair
  split at hPair
  · rename_i hSign
    rw [Option.some.injEq] at hPair
    rw [List.contains_iff_mem] at hSign
    refine ⟨_, _, ?_, hPair.symm⟩
    have hDrop :
        chunk.dropWhile (· != cp '=') =
          cp '=' ::
            (chunk.dropWhile (· != cp '=')).drop 1 := by
      cases hRest : chunk.dropWhile (· != cp '=') with
      | nil =>
          rw [List.dropWhile_eq_nil_iff] at hRest
          have hNot := hRest _ hSign
          simp at hNot
      | cons x rest =>
          have hHead := List.head_dropWhile_not
            (· != cp '=') (l := chunk) (by simp [hRest])
          simp only [hRest, List.head_cons] at hHead
          simpa using hHead
    rw [← hDrop, List.takeWhile_append_dropWhile]
  · cases hPair

---- Gaps

/- A text without a tab and without two white spaces one
after another. -/
def Gapless (s : Str) : Prop :=
  tab ∉ s ∧
    ∀ u x y v, s = u ++ x :: y :: v → isSpace x = true →
      isSpace y = false

theorem Gapless.infix
    {s t : Str}
    (hGapless : Gapless t) (hPart : s <:+: t) :
    Gapless s := by
  rcases hPart with ⟨front, back, rfl⟩
  constructor
  · intro hTab
    exact hGapless.1 (by simp [hTab])
  · rintro u x y v rfl hX
    exact hGapless.2 (front ++ u) x y (v ++ back)
      (by simp) hX

/- A pair is without gaps where its key and its value are. -/
theorem gapless_pairText
    {p : Str × Str}
    (hKey : Gapless p.1) (hValue : Gapless p.2) :
    Gapless (pairText p) := by
  have hSign : isSpace (cp '=') = false := by decide
  constructor
  · intro hTab
    rcases List.mem_append.mp hTab with hIn | hIn
    · exact hKey.1 hIn
    · rcases List.mem_cons.mp hIn with hIs | hIn
      · exact absurd hIs (by decide)
      · exact hValue.1 hIn
  · intro u x y v hSplit hX
    rcases List.append_eq_append_iff.mp hSplit with
      ⟨c, rfl, hRest⟩ | ⟨c, hFront, hRest⟩
    · cases c with
      | nil =>
          rw [List.nil_append, List.cons.injEq] at hRest
          rw [← hRest.1, hSign] at hX
          cases hX
      | cons z c =>
          rw [List.cons_append, List.cons.injEq] at hRest
          exact hValue.2 c x y v hRest.2 hX
    · cases c with
      | nil =>
          rw [List.nil_append, List.cons.injEq] at hRest
          rw [hRest.1, hSign] at hX
          cases hX
      | cons z c =>
          rw [List.cons_append, List.cons.injEq] at hRest
          rcases hRest with ⟨rfl, hRest⟩
          cases c with
          | nil =>
              rw [List.nil_append, List.cons.injEq] at hRest
              rw [hRest.1]
              exact hSign
          | cons z c =>
              rw [List.cons_append, List.cons.injEq] at hRest
              rcases hRest with ⟨rfl, _⟩
              exact hKey.2 u x y c hFront hX

theorem self_mem_star
    (a : Regex) (c : Cursor) :
    c ∈ (star true a).run c := by
  rw [run]
  cases c.after.length with
  | zero => exact List.mem_singleton_self c
  | succ n => simp [iterate]

/- Where a gap begins the pattern matches. -/
theorem run_gap_ne_nil
    {before after : Str}
    (hGap :
      (∃ t, after = tab :: t) ∨
        ∃ x y t, after = x :: y :: t ∧ isSpace x = true ∧
          isSpace y = true) :
    gap.run ⟨before, after, []⟩ ≠ [] := by
  unfold gap
  rw [run]
  rcases hGap with ⟨t, rfl⟩ | ⟨x, y, t, rfl, hX, hY⟩
  · simp [run]
  · intro hNil
    have hNone := (List.append_eq_nil_iff.mp hNil).2
    rw [List.eq_nil_iff_forall_not_mem] at hNone
    apply hNone ⟨y :: x :: before, t, []⟩
    rw [run, List.mem_flatMap]
    refine ⟨⟨x :: before, y :: t, []⟩, by simp [run, hX], ?_⟩
    rw [plus, run, List.mem_flatMap]
    exact ⟨⟨y :: x :: before, t, []⟩, by simp [run, hY],
      self_mem_star _ _⟩

/- What the pattern takes is a tab, or white space of two
characters at least. -/
theorem of_mem_run_gap
    {c d : Cursor}
    (hMem : d ∈ gap.run c) :
    ∃ w, c.after = w ++ d.after ∧
      (w = [tab] ∨
        2 ≤ w.length ∧ ∀ x ∈ w, isSpace x = true) := by
  have hOne
      {p : Nat → Bool}
      {c d : Cursor}
      (hStep : d ∈ (cls p).run c) :
      ∃ x, c.after = x :: d.after ∧ p x = true := by
    rw [run] at hStep
    split at hStep
    · rename_i x rest hAfter
      split at hStep
      · rename_i hX
        rw [List.mem_singleton.mp hStep]
        exact ⟨x, hAfter, hX⟩
      · cases hStep
    · cases hStep
  rcases List.mem_append.mp hMem with hTab | hSpaces
  · rcases hOne hTab with ⟨x, hAfter, hX⟩
    rw [beq_iff_eq] at hX
    exact ⟨[tab], by rw [hAfter, hX]; rfl, .inl rfl⟩
  · rw [run, List.mem_flatMap] at hSpaces
    rcases hSpaces with ⟨e, hE, hRest⟩
    rw [plus, run, List.mem_flatMap] at hRest
    rcases hRest with ⟨f, hF, hStar⟩
    rcases hOne hE with ⟨x, hAfter, hX⟩
    rcases hOne hF with ⟨y, hNext, hY⟩
    have hMoves : Moves (Spans isSpace)
        (star true (cls isSpace)) :=
      moves_star spans_refl spans_trans true spans_cls
    rcases hMoves f d hStar with ⟨w, hW, hAll⟩
    refine ⟨x :: y :: w, ?_, .inr ⟨by simp, ?_⟩⟩
    · rw [hAfter, hNext, hW]
      rfl
    · simp only [List.forall_mem_cons]
      exact ⟨hX, hY, hAll⟩

theorem gap_takes :
    ∀ c, ∀ d ∈ gap.run c, d.after.length < c.after.length := by
  intro c d hD
  rcases of_mem_run_gap hD with ⟨w, hW, hWord⟩
  have hPos : 0 < w.length := by
    rcases hWord with rfl | ⟨hTwo, _⟩
    · exact Nat.one_pos
    · omega
  rw [hW, List.length_append]
  omega

/- The pieces between the gaps have none. -/
theorem gapless_of_cuts
    {before s : Str} {pieces : List Str}
    (hCuts : Cuts gap before s pieces) :
    ∀ c ∈ pieces, Gapless c := by
  have hPiece
      {before c : Str}
      (tail : Str)
      (hNone :
        ∀ u v, c = u ++ v → v ≠ [] →
          gap.run ⟨u.reverse ++ before, v ++ tail, []⟩ =
            []) :
      Gapless c := by
    constructor
    · intro hTab
      rcases List.append_of_mem hTab with ⟨u, v, rfl⟩
      exact run_gap_ne_nil (.inl ⟨v ++ tail, rfl⟩)
        (hNone u (tab :: v) rfl (by simp))
    · intro u x y v hSplit hX
      cases hY : isSpace y with
      | false => rfl
      | true =>
          exact absurd
            (hNone u (x :: y :: v) hSplit (by simp))
            (run_gap_ne_nil (.inr
              ⟨x, y, v ++ tail, rfl, hX, hY⟩))
  induction hCuts with
  | @last before s hNone =>
      intro c hC
      rw [List.mem_singleton.mp hC]
      have hInside (u v : Str) (hSplit : s = u ++ v)
          (_ : v ≠ []) :
          gap.run ⟨u.reverse ++ before, v ++ [], []⟩ = [] := by
        rw [List.append_nil]
        exact hNone u v hSplit
      exact hPiece [] hInside
  | more hNone hHere hRest ih =>
      intro c hC
      rcases List.mem_cons.mp hC with rfl | hLater
      · exact hPiece _ hNone
      · exact ih c hLater

/- A text without gaps is one piece. -/
theorem split_gapless
    {s : Str}
    (hGapless : Gapless s) :
    gap.split s = [s] := by
  apply split_none
  intro i _
  rw [List.eq_nil_iff_forall_not_mem]
  intro d hD
  rcases of_mem_run_gap hD with ⟨w, hW, hWord⟩
  have hText : s = s.take i ++ (w ++ d.after) := by
    rw [← hW]
    exact (List.take_append_drop i s).symm
  rcases hWord with rfl | ⟨hTwo, hAll⟩
  · exact hGapless.1 (by rw [hText]; simp)
  · rcases w with _ | ⟨x, _ | ⟨y, w⟩⟩
    · simp at hTwo
    · simp at hTwo
    · simp only [List.forall_mem_cons] at hAll
      have hNot := hGapless.2 (s.take i) x y (w ++ d.after)
        hText hAll.1
      rw [hAll.2.1] at hNot
      cases hNot

---- Counting

section

variable {d : Nat}

/- The characters of joined parts that are no separators. -/
theorem countP_joinWith
    {parts : List Str}
    (hPlain : ∀ part ∈ parts, d ∉ part) :
    (joinWith [d] parts).countP (· != d) =
      (parts.map (List.countP (· != d))).sum := by
  induction parts with
  | nil => rfl
  | cons part rest ih =>
      rw [List.forall_mem_cons] at hPlain
      cases rest with
      | nil => simp [joinWith]
      | cons next rest =>
          rw [joinWith, List.countP_append, List.countP_append,
            ih hPlain.2]
          · simp
          · simp

/- No two separators stand together between parts that are
not empty. -/
theorem not_two_of_joinWith
    {parts : List Str}
    (hPlain : ∀ part ∈ parts, part ≠ [] ∧ d ∉ part) (u v : Str) :
    joinWith [d] parts ≠ u ++ d :: d :: v := by
  induction parts generalizing u with
  | nil => simp [joinWith]
  | cons part rest ih =>
      rw [List.forall_mem_cons] at hPlain
      rcases hPlain with ⟨⟨_, hPart⟩, hPlain⟩
      cases rest with
      | nil =>
          intro hSplit
          apply hPart
          rw [show part = u ++ d :: d :: v from hSplit]
          simp
      | cons next rest =>
          have hHead (t : Str) :
              joinWith [d] (next :: rest) ≠ d :: t := by
            rcases hPlain next List.mem_cons_self with
              ⟨hSome, hNext⟩
            cases next with
            | nil => exact absurd rfl hSome
            | cons y next =>
                have hY : y ≠ d := by
                  rintro rfl
                  exact hNext List.mem_cons_self
                cases rest with
                | nil => simp [joinWith, hY]
                | cons more rest => simp [joinWith, hY]
          intro hSplit
          rw [joinWith, List.append_assoc,
            List.singleton_append] at hSplit
          · rcases List.append_eq_append_iff.mp hSplit with
              ⟨c, rfl, hRest⟩ | ⟨c, rfl, hRest⟩
            · cases c with
              | nil =>
                  rw [List.nil_append, List.cons.injEq]
                    at hRest
                  exact hHead _ hRest.2
              | cons z c =>
                  rw [List.cons_append, List.cons.injEq]
                    at hRest
                  exact ih hPlain c hRest.2
            · cases c with
              | nil =>
                  rw [List.nil_append, List.cons.injEq]
                    at hRest
                  exact hHead _ hRest.2.symm
              | cons z c =>
                  rw [List.cons_append, List.cons.injEq]
                    at hRest
                  apply hPart
                  rw [hRest.1]
                  simp
          · simp

/- The characters of the parts of a text, and one for each
separator. -/
theorem countP_splitOn
    {c : Nat} {p : Nat → Bool}
    (hSign : p c = true) (s : Str) :
    ((splitOn c s).map (List.countP p)).sum +
        (splitOn c s).length =
      s.countP p + 1 := by
  induction s with
  | nil => rfl
  | cons x rest ih =>
      rw [splitOn]
      split
      · rename_i hX
        rw [hX, List.map_cons, List.sum_cons,
          List.length_cons, List.countP_cons_of_pos hSign,
          List.countP_nil]
        omega
      · cases hRest : splitOn c rest with
        | nil => exact absurd hRest (splitOn_ne_nil c rest)
        | cons part parts =>
            rw [hRest, List.map_cons, List.sum_cons,
              List.length_cons] at ih
            dsimp only
            rw [List.map_cons, List.sum_cons,
              List.length_cons, List.countP_cons,
              List.countP_cons]
            omega

theorem strip_isInfix (s : Str) :
    strip s <:+: s := by
  unfold strip stripBy
  have hFront : s.dropWhile isSpace <:+ s :=
    List.dropWhile_suffix isSpace
  have hBack :
      ((s.dropWhile isSpace).reverse.dropWhile
          isSpace).reverse <+: s.dropWhile isSpace := by
    rw [← List.reverse_suffix, List.reverse_reverse]
    exact List.dropWhile_suffix isSpace
  exact hBack.isInfix.trans hFront.isInfix

/- A chunk has the characters of its pair. -/
theorem countP_of_leefPair
    {chunk : Str} {q : Str × Str}
    (p : Nat → Bool) (hPair : leefPair chunk = some q) :
    (pairText q).countP p ≤ chunk.countP p := by
  rcases of_leefPair hPair with ⟨k, v, rfl, rfl⟩
  unfold pairText
  apply List.Sublist.countP_le
  exact (strip_isInfix k).sublist.append
    ((strip_isInfix v).sublist.cons_cons _)

/- The pairs found among chunks, and their characters. -/
theorem countP_of_recovered
    {pairs : List (Str × Str)} {chunks : List Str}
    (p : Nat → Bool) (hDistinct : pairs.Nodup)
    (hFound : ∀ q ∈ pairs, q ∈ chunks.filterMap leefPair) :
    pairs.length ≤ chunks.length ∧
      (pairs.map fun q => (pairText q).countP p).sum ≤
        (chunks.map (List.countP p)).sum := by
  have hSub : pairs.Subperm (chunks.filterMap leefPair) :=
    List.subperm_of_subset hDistinct hFound
  constructor
  · exact hSub.length_le.trans (List.length_filterMap_le _ _)
  · have hChunks (chunks : List Str) :
        ((chunks.filterMap leefPair).map
            fun q => (pairText q).countP p).sum ≤
          (chunks.map (List.countP p)).sum := by
      induction chunks with
      | nil => exact le_refl _
      | cons chunk rest ih =>
          rw [List.map_cons, List.sum_cons]
          cases hPair : leefPair chunk with
          | none =>
              rw [List.filterMap_cons_none hPair]
              omega
          | some q =>
              have hLe := countP_of_leefPair p hPair
              rw [List.filterMap_cons_some hPair,
                List.map_cons, List.sum_cons]
              omega
    rcases hSub with ⟨l, hPerm, hSublist⟩
    calc (pairs.map fun q => (pairText q).countP p).sum
        = (l.map fun q => (pairText q).countP p).sum :=
          (hPerm.symm.map _).sum_eq
      _ ≤ ((chunks.filterMap leefPair).map
            fun q => (pairText q).countP p).sum :=
          (hSublist.map _).sum_le_sum (by simp)
      _ ≤ (chunks.map (List.countP p)).sum := hChunks chunks

end

---- Recovery

/- The decoder recovers the pairs of a record. -/
def LeefRecord.Recovered
    [Unicode]
    (r : LeefRecord) : Prop :=
  ∃ f, parseLeef r.encode = .ok (some f) ∧
    f.pairs.Perm r.pairs

/- One pair has no gap in its key and its value, and a
delimiter between pairs is the tab or no white space. -/
structure LeefRecord.Separable (r : LeefRecord) : Prop where
  single :
    r.pairs.length = 1 →
      ∀ p ∈ r.pairs, Gapless p.1 ∧ Gapless p.2
  several :
    1 < r.pairs.length →
      r.delim = tab ∨ isSpace r.delim = false

variable (r : LeefRecord)

theorem LeefRecord.pair_plain :
    ∀ part ∈ r.pairs.map pairText,
      part ≠ [] ∧ r.delim ∉ part := by
  intro part hPart
  rcases List.mem_map.mp hPart with ⟨p, hP, rfl⟩
  refine ⟨by simp [pairText], ?_⟩
  intro hMem
  rcases List.mem_append.mp hMem with hKey | hRest
  · exact (r.key_plain p hP).2.2 hKey
  · rcases List.mem_cons.mp hRest with hSign | hValue
    · apply r.delim_plain
      rw [hSign]
      simp
    · exact (r.value_plain p hP).2 hValue

/- The pairs of the chunks of a record that are its own. -/
theorem LeefRecord.filterMap_pairText :
    (r.pairs.map pairText).filterMap leefPair = r.pairs := by
  have hEach : ∀ p ∈ r.pairs,
      leefPair (pairText p) = some p := by
    intro p hP
    exact leefPair_pairText (r.trimmed p hP)
      (r.key_plain p hP).1
  rw [List.filterMap_map]
  exact (List.filterMap_congr hEach).trans
    (List.filterMap_some)

theorem LeefRecord.recovered_of_chunks
    [Unicode] [LowerLetters]
    (hChunks :
      leefChunks [r.used] r.ext = r.pairs.map pairText) :
    r.Recovered := by
  refine ⟨_, r.parseLeef_encode, ?_⟩
  dsimp only
  rw [hChunks, r.filterMap_pairText,
    dictOf_of_nodup r.distinct]

/- One pair, or two at least. -/
theorem LeefRecord.pairs_cases :
    (∃ p, r.pairs = [p]) ∨
      ∃ p q rest, r.pairs = p :: q :: rest := by
  cases hPairs : r.pairs with
  | nil => exact absurd hPairs r.nonempty
  | cons p rest =>
      cases rest with
      | nil => exact .inl ⟨p, rfl⟩
      | cons q rest => exact .inr ⟨p, q, rest, rfl⟩

theorem LeefRecord.used_eq_or :
    r.used = r.delim ∨ r.used = tab := by
  unfold LeefRecord.used
  split
  · exact .inr rfl
  · exact .inl rfl

theorem LeefRecord.recovered_of_separable
    [Unicode] [LowerLetters]
    (hSeparable : r.Separable) :
    r.Recovered := by
  apply r.recovered_of_chunks
  rw [r.leefChunks_eq]
  rcases r.pairs_cases with ⟨p, hPairs⟩ | ⟨p, q, rest, hPairs⟩
  · -- one pair: nothing separates its text
    have hExt : r.ext = pairText p := by
      unfold LeefRecord.ext
      rw [hPairs]
      rfl
    rcases hSeparable.single (by rw [hPairs]; rfl) p
      (by rw [hPairs]; exact List.mem_cons_self) with
      ⟨hKey, hValue⟩
    have hGapless := gapless_pairText hKey hValue
    have hUsed : r.used ∉ r.ext := by
      rw [hExt]
      rcases r.used_eq_or with hIs | hIs
      · rw [hIs]
        exact (r.pair_plain _
          (by rw [hPairs]; exact List.mem_cons_self)).2
      · rw [hIs]
        exact hGapless.1
    rw [if_neg hUsed, hExt, split_gapless hGapless, hPairs]
    rfl
  · -- two pairs: the delimiter is there and is used
    have hUsed : r.used = r.delim := by
      unfold LeefRecord.used
      rcases hSeparable.several (by rw [hPairs]; simp) with
        hTab | hPlain
      · rw [hTab]
        rfl
      · rw [if_neg (by simp [hPlain])]
    have hIn : r.delim ∈ r.ext := by
      unfold LeefRecord.ext
      rw [hPairs]
      simp [joinWith]
    rw [hUsed, if_pos hIn]
    apply splitOn_joinWith
    · simp [r.nonempty]
    · exact fun part hPart => (r.pair_plain part hPart).2

/- A pair that is recovered is one of a chunk. -/
theorem LeefRecord.found_of_recovered
    [Unicode] [LowerLetters]
    (hRecovered : r.Recovered) :
    ∀ p ∈ r.pairs,
      p ∈ (leefChunks [r.used] r.ext).filterMap leefPair := by
  rcases hRecovered with ⟨f, hParse, hPerm⟩
  rw [r.parseLeef_encode, Except.ok.injEq,
    Option.some.injEq] at hParse
  rw [← hParse] at hPerm
  intro p hP
  exact mem_of_mem_dictOf (hPerm.mem_iff.mpr hP)

/- A pair alone is recovered from a chunk without gaps. -/
theorem LeefRecord.gapless_of_recovered
    [Unicode] [LowerLetters] {p : Str × Str}
    (hPairs : r.pairs = [p]) (hRecovered : r.Recovered) :
    Gapless p.1 ∧ Gapless p.2 := by
  have hIn : p ∈ r.pairs := by
    rw [hPairs]
    exact List.mem_cons_self
  have hExt : r.ext = pairText p := by
    unfold LeefRecord.ext
    rw [hPairs]
    rfl
  have hFound := r.found_of_recovered hRecovered p hIn
  rcases List.mem_filterMap.mp hFound with
    ⟨chunk, hChunk, hPair⟩
  rcases of_leefPair hPair with ⟨k, v, rfl, hIs⟩
  rw [r.leefChunks_eq] at hChunk
  split at hChunk
  · -- a tab that is split at is in the pair, but in no chunk
    rename_i hUsed
    exfalso
    have hTab : r.used = tab := by
      rcases r.used_eq_or with hDelim | hTab
      · rw [hDelim, hExt] at hUsed
        have hPlain := (r.pair_plain (pairText p)
          (List.mem_map_of_mem hIn)).2
        exact absurd hUsed hPlain
      · exact hTab
    have hNone := not_mem_of_splitOn hChunk
    rw [hExt, hTab] at hUsed
    rw [hTab] at hNone
    apply hNone
    rw [hIs] at hUsed
    rcases List.mem_append.mp hUsed with hKey | hRest
    · exact List.mem_append_left _ (strip_subset k hKey)
    · rcases List.mem_cons.mp hRest with hSign | hValue
      · exact absurd hSign (by decide)
      · exact List.mem_append_right _
          (List.mem_cons_of_mem _ (strip_subset v hValue))
  · have hGapless :=
      gapless_of_cuts (split_cuts gap_takes r.ext) _ hChunk
    rw [hIs]
    constructor
    · exact hGapless.infix ((strip_isInfix k).trans
        (List.prefix_append k _).isInfix)
    · exact hGapless.infix ((strip_isInfix v).trans
        ((List.suffix_cons _ v).trans
          (List.suffix_append k _)).isInfix)

/- Several pairs are not recovered when the white space
between them is not what is split at. -/
theorem LeefRecord.several_of_recovered
    [Unicode] [LowerLetters]
    (hMore : 1 < r.pairs.length) (hRecovered : r.Recovered) :
    r.delim = tab ∨ isSpace r.delim = false := by
  by_contra hNot
  rw [not_or, Bool.not_eq_false] at hNot
  rcases hNot with ⟨hTab, hSpace⟩
  have hUsed : r.used = tab := by
    unfold LeefRecord.used
    rw [if_pos hSpace]
  have hMark : (fun x => x != r.delim) tab = true := by
    rw [bne_iff_ne]
    exact fun h => hTab h.symm
  -- every separator has a character that is no delimiter
  have hCount :
      ((leefChunks [r.used] r.ext).map
          (List.countP (· != r.delim))).sum +
        (leefChunks [r.used] r.ext).length ≤
      r.ext.countP (· != r.delim) + 1 := by
    rw [r.leefChunks_eq, hUsed]
    split
    · exact le_of_eq (countP_splitOn
        (p := fun x => x != r.delim) hMark r.ext)
    · apply (split_cuts gap_takes r.ext).countP_le
      rintro c u v w hSplit hAfter ⟨e, hE, rfl⟩
      rcases of_mem_run_gap hE with ⟨w', hW, hWord⟩
      rw [hAfter] at hW
      cases List.append_cancel_right hW
      rcases hWord with rfl | ⟨hTwo, _⟩
      · simp [hMark]
      · rw [List.countP_pos_iff]
        by_contra hAll
        push Not at hAll
        rcases w with _ | ⟨x, _ | ⟨y, w⟩⟩
        · simp at hTwo
        · simp at hTwo
        · simp only [List.forall_mem_cons, bne_iff_ne, ne_eq,
            not_not] at hAll
          rw [hAll.1, hAll.2.1] at hSplit
          exact not_two_of_joinWith r.pair_plain u
            (w ++ e.after) hSplit
  have hExt :
      r.ext.countP (· != r.delim) =
        (r.pairs.map fun q =>
          (pairText q).countP (· != r.delim)).sum := by
    unfold LeefRecord.ext
    rw [countP_joinWith
      (fun part hPart => (r.pair_plain part hPart).2),
      List.map_map]
    rfl
  have hFound := countP_of_recovered (· != r.delim)
    (List.Nodup.of_map _ r.distinct)
    (r.found_of_recovered hRecovered)
  omega

/- The pairs of a record are recovered exactly where its one
pair has no tab and no run of white space, or where it has
several and its delimiter is the tab or no white space. -/
theorem LeefRecord.recovered_iff
    [Unicode]
    [LowerLetters] :
    r.Recovered ↔ r.Separable := by
  constructor
  · intro hRecovered
    constructor
    · intro hOne p hP
      rcases r.pairs_cases with
        ⟨q, hPairs⟩ | ⟨q, s, rest, hPairs⟩
      · rw [hPairs] at hP
        rw [List.mem_singleton.mp hP]
        exact r.gapless_of_recovered hPairs hRecovered
      · rw [hPairs] at hOne
        simp at hOne
    · exact fun hMore => r.several_of_recovered hMore hRecovered
  · exact r.recovered_of_separable

local instance leefUnicode : Unicode := asciiTables

local instance leefLetters : LowerLetters where
  not_hex c hC := by
    have hLower : asciiLowerStr [c] = [asciiLower c] := rfl
    show (lit "0x").isPrefixOf (asciiLowerStr [c]) = false
    rw [hLower]
    exact Bool.and_false (cp '0' == asciiLower c)

/- A login, reported with carets between its pairs. -/
def caretLogin : LeefRecord where
  vendor := lit "Acme"
  product := lit "Gate"
  productVersion := lit "1"
  eventId := lit "login"
  delim := cp '^'
  pairs :=
    [(lit "usrName", lit "amy"), (lit "msg", lit "no  key")]
  header_plain := by decide
  delim_plain := by decide
  nonempty := by simp
  distinct := by decide
  trimmed := by decide
  key_plain := by decide
  value_plain := by decide

theorem caret_login_recovered : caretLogin.Recovered := by
  apply caretLogin.recovered_iff.mpr
  constructor
  · intro hOne
    exact absurd hOne (by decide)
  · intro _
    exact .inr (by decide)

/- The same message alone. -/
def loneMessage : LeefRecord where
  vendor := lit "Acme"
  product := lit "Gate"
  productVersion := lit "1"
  eventId := lit "login"
  delim := cp '^'
  pairs := [(lit "msg", lit "no  key")]
  header_plain := by decide
  delim_plain := by decide
  nonempty := by simp
  distinct := by decide
  trimmed := by decide
  key_plain := by decide
  value_plain := by decide

/- It is cut at the two spaces. -/
theorem lone_message_cut :
    parseLeef loneMessage.encode =
        .ok (some ⟨lit "login", [(lit "msg", lit "no")]⟩) ∧
      ¬ loneMessage.Recovered := by
  have hParse : parseLeef loneMessage.encode =
      .ok (some ⟨lit "login", [(lit "msg", lit "no")]⟩) := by
    decide
  refine ⟨hParse, ?_⟩
  rintro ⟨f, hOther, hPerm⟩
  rw [hParse, Except.ok.injEq, Option.some.injEq] at hOther
  rw [← hOther] at hPerm
  exact absurd (List.singleton_perm_singleton.mp hPerm)
    (by decide)

end ThreatOrbit.Ingest
