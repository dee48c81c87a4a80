import ThreatOrbit.Lib.Regex

/-
  The CEF envelope: seven header strings between pipes, then
  an extension of `key=value` pairs.

  A backslash escapes the next character. The decoder drops
  the backslashes of the whole body when it splits the
  header off, and unescapes the values of the extension once
  more after it has cut them apart.
-/

---- Decoding

namespace ThreatOrbit.Ingest

open Lib

/- `[A-Za-z0-9_.]`. -/
def isKeyChar (c : Nat) : Bool :=
  isAsciiLetter c || isDigit c || c == cp '_' || c == cp '.'

/- `[A-Za-z][A-Za-z0-9_.]*`. -/
def cefKey : Regex :=
  .seq (.cls isAsciiLetter) (.star true (.cls isKeyChar))

/- `\s+[A-Za-z][A-Za-z0-9_.]*=`. -/
def nextKey : Regex :=
  .cat [.plus (.cls isSpace), cefKey, .chr '=']

/- `_CEF_KV`. -/
def cefKv : Regex :=
  .cat [.group 1 cefKey, .chr '=',
    .group 2 (.star false (.cls (· != 10))),
    .ahead (.alt nextKey .atEnd)]

/- The loop of `_cef_split`. -/
@[grind =]
def cefSplitFrom (out : List Str) (cur : Str) : Str → List Str
| [] => out ++ [cur]
| [c] =>
    if c = cp '|' ∧ out.length < 7 then
      out ++ [cur] ++ [[]]
    else
      out ++ [cur ++ [c]]
| c :: x :: rest =>
    if c = cp '\\' then
      cefSplitFrom out (cur ++ [x]) rest
    else if c = cp '|' ∧ out.length < 7 then
      cefSplitFrom (out ++ [cur]) [] (x :: rest)
    else
      cefSplitFrom out (cur ++ [c]) (x :: rest)

def cefSplit (body : Str) : List Str :=
  cefSplitFrom [] [] body

def cefValue (s : Str) : Str :=
  replaceAll (lit "\\\\") (lit "\\")
    (replaceAll (lit "\\=") (lit "=") s)

/- The key and the value of a match. -/
def cefEntry (m : Regex.Match) : Str × Str :=
  ((m.group 1).getD [], (m.group 2).getD [])

def cefExt (ext : Str) : List (Str × Str) :=
  dictOf ((cefKv.findIter ext).map fun m =>
    ((cefEntry m).1, cefValue (cefEntry m).2))

/- The header strings and the extension of a body. -/
def decodeCef (body : Str) : List Str × List (Str × Str) :=
  let parts := cefSplit body
  (parts.take 7, cefExt ((parts[7]?).getD []))

---- Encoding

structure CefMessage [Unicode] where
  headers : List Str
  fields : List (Str × Str)
  seven : headers.length = 7
  distinct : (fields.map Prod.fst).Nodup
  alphanumeric :
    ∀ p ∈ fields, p.1 ≠ [] ∧
      ∀ c ∈ p.1, Unicode.isAlnum c = true
  singleLine : ∀ p ∈ fields, 10 ∉ p.2
  trimmed : ∀ p ∈ fields, strip p.2 = p.2

/- Backslashes and one more character are escaped. -/
def escapeCef (special : Nat) (s : Str) : Str :=
  s.flatMap fun c =>
    if c = cp '\\' ∨ c = special then [cp '\\', c] else [c]

/- A pair of the extension, its value as it is. -/
def plainPair (p : Str × Str) : Str :=
  p.1 ++ cp '=' :: p.2

/- A pair of the extension, its value escaped. -/
def escapedPair (p : Str × Str) : Str :=
  plainPair (p.1, escapeCef (cp '=') p.2)

/- The body that carries a message. -/
def CefMessage.encode [Unicode] (m : CefMessage) : Str :=
  joinWith [cp '|']
    (m.headers.map (escapeCef (cp '|')) ++
      [joinWith [cp ' '] (m.fields.map escapedPair)])

/- A key the decoder recognizes. -/
def IsCefKey (key : Str) : Prop :=
  ∃ c rest, key = c :: rest ∧ isAsciiLetter c = true ∧
    ∀ x ∈ rest, isKeyChar x = true

/- Within a value, a space and then a key with its equals
sign. -/
def NamesField (value : Str) : Prop :=
  ∃ a spaces key b,
    value = a ++ (spaces ++ (key ++ cp '=' :: b)) ∧
    spaces ≠ [] ∧
    (∀ c ∈ spaces, isSpace c = true) ∧
    IsCefKey key

/- A pair that survives: its key is recognized, and its value
names no field and has nothing left to unescape. -/
structure PlainField (p : Str × Str) : Prop where
  key : IsCefKey p.1
  whole : ¬ NamesField p.2
  equals : ¬ lit "\\=" <:+: p.2
  backslashes : ¬ lit "\\\\" <:+: p.2

---- Splitting Off The Header

section

theorem cefSplitFrom_escape
    (out : List Str) (cur : Str) (x : Nat) (rest : Str) :
    cefSplitFrom out cur (cp '\\' :: x :: rest) =
      cefSplitFrom out (cur ++ [x]) rest := by
  rw [cefSplitFrom, if_pos rfl]

theorem cefSplitFrom_pipe
    {out : List Str}
    (cur : Str) (rest : Str) (hHeader : out.length < 7) :
    cefSplitFrom out cur (cp '|' :: rest) =
      cefSplitFrom (out ++ [cur]) [] rest := by
  cases rest with
  | nil => simp [cefSplitFrom, hHeader]
  | cons x rest =>
      rw [cefSplitFrom, if_neg (by decide),
        if_pos ⟨rfl, hHeader⟩]

theorem cefSplitFrom_char
    {out : List Str}
    (cur : Str) {c : Nat} (rest : Str) (hBackslash : c ≠ cp '\\')
    (hPipe : c = cp '|' → 7 ≤ out.length) :
    cefSplitFrom out cur (c :: rest) =
      cefSplitFrom out (cur ++ [c]) rest := by
  have hLiteral : ¬ (c = cp '|' ∧ out.length < 7) := by
    rintro ⟨hSame, hHeader⟩
    have hSeven := hPipe hSame
    omega
  cases rest with
  | nil => simp [cefSplitFrom, hLiteral]
  | cons x rest =>
      rw [cefSplitFrom, if_neg hBackslash, if_neg hLiteral]

/- Escaped characters are taken as they were. -/
theorem cefSplitFrom_escaped
    {special : Nat} {out : List Str}
    (cur s rest : Str)
    (hSpecial : special = cp '|' ∨ 7 ≤ out.length) :
    cefSplitFrom out cur (escapeCef special s ++ rest) =
      cefSplitFrom out (cur ++ s) rest := by
  unfold escapeCef
  induction s generalizing cur with
  | nil => rw [List.flatMap_nil, List.append_nil]; rfl
  | cons c s ih =>
      rw [List.flatMap_cons, List.append_assoc]
      split
      · have hRest := ih (cur ++ [c])
        rw [List.append_assoc] at hRest
        exact (cefSplitFrom_escape out cur c _).trans hRest
      · rename_i hPlain
        rw [not_or] at hPlain
        have hPipe : c = cp '|' → 7 ≤ out.length := by
          intro hSame
          rcases hSpecial with hSpecial | hSeven
          · exact absurd (hSame.trans hSpecial.symm) hPlain.2
          · exact hSeven
        have hRest := ih (cur ++ [c])
        rw [List.append_assoc] at hRest
        exact (cefSplitFrom_char cur _ hPlain.1 hPipe).trans
          hRest

/- Past the header only backslashes matter. -/
theorem cefSplitFrom_plain
    {out : List Str}
    (cur s rest : Str) (hSeven : 7 ≤ out.length)
    (hPlain : ∀ c ∈ s, c ≠ cp '\\') :
    cefSplitFrom out cur (s ++ rest) =
      cefSplitFrom out (cur ++ s) rest := by
  induction s generalizing cur with
  | nil => rw [List.append_nil]; rfl
  | cons c s ih =>
      have hRest := ih (cur ++ [c])
        (fun x hX => hPlain x (List.mem_cons_of_mem c hX))
      rw [List.append_assoc] at hRest
      exact (cefSplitFrom_char cur _
        (hPlain c List.mem_cons_self) (fun _ => hSeven)).trans
          hRest

/- The header strings come out as they went in. -/
theorem cefSplitFrom_headers
    (out headers : List Str) (ext : Str)
    (hSeven : out.length + headers.length = 7) :
    cefSplitFrom out []
        (joinWith [cp '|']
          (headers.map (escapeCef (cp '|')) ++ [ext])) =
      cefSplitFrom (out ++ headers) [] ext := by
  induction headers generalizing out with
  | nil => rw [List.append_nil]; rfl
  | cons h headers ih =>
      rw [List.length_cons] at hSeven
      have hJoin :
          joinWith [cp '|']
              ((h :: headers).map (escapeCef (cp '|')) ++
                [ext]) =
            escapeCef (cp '|') h ++ (cp '|' ::
              joinWith [cp '|']
                (headers.map (escapeCef (cp '|')) ++ [ext])) := by
        cases headers with
        | nil => simp [joinWith]
        | cons g headers => simp [joinWith]
      rw [hJoin, cefSplitFrom_escaped [] h _ (Or.inl rfl),
        cefSplitFrom_pipe _ _ (by omega),
        ih (out ++ [[] ++ h]) (by simp; omega)]
      simp

/- The extension comes out with its values unescaped. -/
theorem cefSplitFrom_pairs
    {out : List Str}
    (cur : Str) (fields : List (Str × Str))
    (hSeven : 7 ≤ out.length)
    (hPlain : ∀ p ∈ fields, ∀ c ∈ p.1, c ≠ cp '\\') :
    cefSplitFrom out cur
        (joinWith [cp ' '] (fields.map escapedPair)) =
      out ++ [cur ++
        joinWith [cp ' '] (fields.map plainPair)] := by
  have hPair : ∀ (cur : Str) (p : Str × Str) (rest : Str),
      p ∈ fields →
        cefSplitFrom out cur (escapedPair p ++ rest) =
          cefSplitFrom out (cur ++ plainPair p) rest := by
    intro cur p rest hMem
    have hEquals : cp '=' ≠ cp '\\' := by decide
    unfold escapedPair plainPair
    rw [List.append_assoc,
      cefSplitFrom_plain cur p.1 _ hSeven (hPlain p hMem),
      List.cons_append,
      cefSplitFrom_char _ _ hEquals (fun _ => hSeven),
      cefSplitFrom_escaped _ p.2 _ (Or.inr hSeven)]
    simp
  induction fields generalizing cur with
  | nil => simp [joinWith, cefSplitFrom]
  | cons p fields ih =>
      have hSpace : cp ' ' ≠ cp '\\' := by decide
      cases fields with
      | nil =>
          have hOne := hPair cur p [] List.mem_cons_self
          rw [List.append_nil] at hOne
          simp [joinWith, hOne, cefSplitFrom]
      | cons q fields =>
          have hRest := ih
            (cur ++ plainPair p ++ [cp ' '])
            (fun r hR => hPlain r (List.mem_cons_of_mem p hR))
            (fun cur r rest hR =>
              hPair cur r rest (List.mem_cons_of_mem p hR))
          simp only [List.map_cons, joinWith,
            List.append_assoc] at hRest ⊢
          rw [hPair cur p _ List.mem_cons_self,
            List.singleton_append,
            cefSplitFrom_char _ _ hSpace (fun _ => hSeven),
            List.append_assoc, hRest]

variable [Unicode]

/- No alphanumeric character is a backslash. -/
theorem ne_backslash_of_alnum
    {c : Nat}
    (hAlnum : Unicode.isAlnum c = true) :
    c ≠ cp '\\' := by
  intro hSame
  rw [hSame, Unicode.isAlnum_ascii _ (by decide)] at hAlnum
  revert hAlnum
  decide

/- What splitting an encoded message yields. -/
theorem decodeCef_encode (m : CefMessage) :
    decodeCef m.encode =
      (m.headers,
        cefExt (joinWith [cp ' '] (m.fields.map plainPair))) := by
  have hKeys : ∀ p ∈ m.fields, ∀ c ∈ p.1, c ≠ cp '\\' := by
    intro p hMem c hC
    exact ne_backslash_of_alnum
      ((m.alphanumeric p hMem).2 c hC)
  have hSplit :
      cefSplit m.encode =
        m.headers ++
          [joinWith [cp ' '] (m.fields.map plainPair)] := by
    unfold cefSplit CefMessage.encode
    rw [cefSplitFrom_headers [] m.headers _
        (by simp [m.seven]),
      List.nil_append,
      cefSplitFrom_pairs [] m.fields (by simp [m.seven]) hKeys,
      List.nil_append]
  unfold decodeCef
  rw [hSplit]
  simp [m.seven]

end

---- What The Pattern Matches

/- A key, its equals sign, and what follows. -/
def keyThen : Str → Option (Str × Str)
| [] => none
| c :: rest =>
    if isAsciiLetter c then
      match rest.dropWhile isKeyChar with
      | e :: after =>
          if e = cp '=' then
            some (c :: rest.takeWhile isKeyChar, after)
          else none
      | [] => none
    else none

/- Where a value may end. -/
def boundary (s : Str) : Bool :=
  (s.head?.map isSpace).getD false &&
      (keyThen (s.dropWhile isSpace)).isSome ||
    (s == [] || s == [10])

/- The pair at the start of a text, and what follows. -/
def fieldAt (s : Str) : Option (Str × Str × Str) :=
  match keyThen s with
  | none => none
  | some (key, after) =>
      (cutAt (· != 10) boundary after).map fun cut =>
        (key, cut.1, cut.2)

/- The first pair of a text. -/
@[grind =]
def fieldFrom : Str → Option (Str × Str × Str)
| [] => none
| x :: rest =>
    match fieldAt (x :: rest) with
    | some field => some field
    | none => fieldFrom rest

/- The pairs of a text. -/
@[grind =]
def fieldsFrom : Nat → Str → List (Str × Str)
| 0, _ => []
| n + 1, s =>
    match fieldFrom s with
    | some (key, value, rest) =>
        (key, value) :: fieldsFrom n rest
    | none => []

theorem keyThen_eq_some_iff
    {s key after : Str} :
    keyThen s = some (key, after) ↔
      IsCefKey key ∧ s = key ++ cp '=' :: after := by
  constructor
  · intro hThen
    cases s with
    | nil => cases hThen
    | cons c rest =>
        rw [keyThen] at hThen
        split at hThen
        · rename_i hLetter
          split at hThen
          · rename_i e more hRest
            split at hThen
            · rename_i hEquals
              rw [Option.some.injEq, Prod.mk.injEq] at hThen
              rw [← hThen.1, ← hThen.2, ← hEquals, ← hRest,
                List.cons_append,
                List.takeWhile_append_dropWhile]
              refine ⟨⟨c, _, rfl, hLetter, ?_⟩, rfl⟩
              intro x hX
              exact List.mem_takeWhile_imp hX
            · cases hThen
          · cases hThen
        · cases hThen
  · rintro ⟨⟨c, rest, rfl, hLetter, hRest⟩, rfl⟩
    have hEquals : isKeyChar (cp '=') = false := by decide
    rw [List.cons_append, keyThen, if_pos hLetter,
      List.dropWhile_append_of_pos hRest,
      List.takeWhile_append_of_pos hRest]
    simp [hEquals]

/- A key is matched whole, when an equals sign must follow. -/
theorem flatMap_cefKey
    {β : Type}
    (f : Cursor → List β) (c : Cursor)
    (hEquals :
      ∀ before after, after.head? ≠ some (cp '=') →
        f ⟨before, after, c.groups⟩ = []) :
    (cefKey.run c).flatMap f =
      match keyThen c.after with
      | some (key, after) =>
          f ⟨key.reverse ++ c.before, cp '=' :: after,
            c.groups⟩
      | none => [] := by
  rcases c with ⟨before, after, groups⟩
  cases after with
  | nil => simp [cefKey, Regex.run, keyThen]
  | cons x rest =>
      cases hLetter : isAsciiLetter x with
      | false => simp [cefKey, Regex.run, keyThen, hLetter]
      | true =>
          have hStop : ∀ before y more,
              isKeyChar y = true →
                f ⟨before, y :: more, groups⟩ = [] := by
            intro b y more hKey
            apply hEquals
            intro hHead
            rw [List.head?_cons, Option.some.injEq] at hHead
            rw [hHead] at hKey
            revert hKey
            decide
          have hGreedy := Regex.flatMap_star_greedy isKeyChar f
            ⟨x :: before, rest, groups⟩ hStop
          simp only [cefKey, Regex.run, hLetter, if_true,
            List.flatMap_cons, List.flatMap_nil,
            List.append_nil, keyThen]
          simp only [Regex.run] at hGreedy
          rw [hGreedy]
          simp only [Cursor.skip]
          cases hRest : rest.dropWhile isKeyChar with
          | nil => exact hEquals _ _ (by simp)
          | cons e more =>
              by_cases hSame : e = cp '='
              · simp [hSame]
              · rw [hEquals _ _ (by simpa using hSame)]
                simp [hSame]

theorem not_letter_of_space
    {c : Nat}
    (hSpace : isSpace c = true) :
    isAsciiLetter c = false := by
  simp [isSpace, isAsciiLetter, cp] at hSpace ⊢
  omega

/- Space, a key and an equals sign follow. -/
theorem run_nextKey
    (c : Cursor) :
    nextKey.run c ≠ [] ↔
      (c.after.head?.map isSpace).getD false = true ∧
        (keyThen (c.after.dropWhile isSpace)).isSome := by
  rcases c with ⟨before, after, groups⟩
  cases after with
  | nil => simp [nextKey, Regex.cat, Regex.plus, Regex.run]
  | cons x rest =>
      cases hSpace : isSpace x with
      | false =>
          simp [nextKey, Regex.cat, Regex.plus, Regex.run,
            hSpace]
      | true =>
          have hStop : ∀ before y more,
              isSpace y = true →
                (Regex.seq cefKey
                  (Regex.seq (.chr '=') .empty)).run
                    ⟨before, y :: more, groups⟩ = [] := by
            intro b y more hY
            simp [Regex.run, cefKey, not_letter_of_space hY]
          have hGreedy := Regex.flatMap_star_greedy isSpace
            (Regex.seq cefKey
              (Regex.seq (.chr '=') .empty)).run
            ⟨x :: before, rest, groups⟩ hStop
          have hKey := flatMap_cefKey
            (Regex.seq (.chr '=') .empty).run
            (Cursor.skip isSpace ⟨x :: before, rest, groups⟩)
            (by
              intro b after hHead
              cases after with
              | nil => simp [Regex.run, Regex.chr]
              | cons y more =>
                  simp only [List.head?_cons, ne_eq,
                    Option.some.injEq] at hHead
                  simp [Regex.run, Regex.chr, hHead])
          have hRun :
              nextKey.run ⟨before, x :: rest, groups⟩ =
                ((Regex.star true (.cls isSpace)).run
                  ⟨x :: before, rest, groups⟩).flatMap
                    (Regex.seq cefKey
                      (Regex.seq (.chr '=') .empty)).run := by
            simp [nextKey, Regex.cat, Regex.plus, Regex.run,
              hSpace]
          rw [hRun, hGreedy, Regex.run, hKey]
          simp only [Cursor.skip, List.head?_cons,
            Option.map_some, Option.getD_some, hSpace,
            List.dropWhile_cons, if_true, true_and]
          cases keyThen (rest.dropWhile isSpace) with
          | none => simp
          | some found => simp [Regex.run, Regex.chr]

/- The look-ahead of the pattern. -/
theorem run_boundary
    (c : Cursor) :
    (Regex.ahead (.alt nextKey .atEnd)).run c =
      if boundary c.after then [c] else [] := by
  have hNext := run_nextKey c
  have hEnd : Regex.atEnd.run c ≠ [] ↔
      (c.after == [] || c.after == [10]) = true := by
    simp [Regex.atEnd, Regex.run, or_iff_not_imp_left]
  have hAlt : (Regex.alt nextKey .atEnd).run c ≠ [] ↔
      boundary c.after = true := by
    rw [Regex.run, ne_eq, List.append_eq_nil_iff, not_and_or,
      ← ne_eq, ← ne_eq, hNext, hEnd]
    simp only [boundary, Bool.or_eq_true, Bool.and_eq_true]
  rw [Regex.run]
  cases hBoundary : boundary c.after with
  | true => rw [if_neg (hAlt.mpr hBoundary), if_pos rfl]
  | false =>
      have hNone : (Regex.alt nextKey .atEnd).run c = [] := by
        by_contra hSome
        rw [← ne_eq, hAlt, hBoundary] at hSome
        cases hSome
      rw [if_pos hNone, if_neg (by simp)]

/- The value after a key, and the look-ahead. -/
theorem head_run_value
    (before s : Str) (groups : List (Nat × Str)) :
    ((Regex.cat [.chr '=',
        .group 2 (.star false (.cls (· != 10))),
        .ahead (.alt nextKey .atEnd)]).run
          ⟨before, cp '=' :: s, groups⟩).head? =
      (cutAt (· != 10) boundary s).map fun cut =>
        ⟨cut.1.reverse ++ cp '=' :: before, cut.2,
          (2, cut.1) :: groups⟩ := by
  let opened : Cursor := ⟨cp '=' :: before, s, groups⟩
  let mark : Cursor → Cursor := fun d =>
    { d with groups := (2, opened.upto d) :: d.groups }
  let ahead := Regex.ahead (.alt nextKey .atEnd)
  have hRun :
      (Regex.cat [.chr '=',
        .group 2 (.star false (.cls (· != 10))),
        ahead]).run ⟨before, cp '=' :: s, groups⟩ =
        ((Regex.star false (.cls (· != 10))).run opened).flatMap
          fun d => ahead.run (mark d) := by
    simp only [Regex.cat, Regex.run, Regex.chr, beq_self_eq_true,
      if_true, List.flatMap_cons, List.flatMap_nil,
      List.append_nil, List.flatMap_map, mark, opened]
    congr 1
    funext d
    simp
  have hMatch : ∀ before after,
      (ahead.run (mark ⟨before, after, opened.groups⟩)).head? =
        if boundary after then
          some (mark ⟨before, after, opened.groups⟩)
        else none := by
    intro b after
    rw [run_boundary]
    cases boundary after with
    | true => simp [mark]
    | false => simp
  rw [hRun, Regex.head_flatMap_star_lazy _ boundary _ mark
    opened hMatch]
  cases hCut : cutAt (· != 10) boundary opened.after with
  | none => rfl
  | some cut =>
      have hUpto := Cursor.upto_append opened
        ⟨cut.1.reverse ++ opened.before, cut.2, opened.groups⟩
        cut.1 (append_of_cutAt hCut)
      simp only [Option.map_some, mark, hUpto]
      rfl

theorem matchAt_cefKv
    (before s : Str) :
    cefKv.matchAt ⟨before, s, []⟩ =
      (fieldAt s).map fun field =>
        ⟨⟨before, s, []⟩,
          ⟨field.2.1.reverse ++ cp '=' ::
              (field.1.reverse ++ before),
            field.2.2, [(2, field.2.1), (1, field.1)]⟩⟩ := by
  let start : Cursor := ⟨before, s, []⟩
  let mark : Cursor → Cursor := fun d =>
    { d with groups := (1, start.upto d) :: d.groups }
  let value := Regex.cat [.chr '=',
    .group 2 (.star false (.cls (· != 10))),
    .ahead (.alt nextKey .atEnd)]
  have hRun :
      cefKv.run start =
        (cefKey.run start).flatMap fun d =>
          value.run (mark d) := by
    simp only [cefKv, Regex.cat, Regex.run, List.flatMap_map,
      value, mark]
  have hKey := flatMap_cefKey
    (fun d => value.run (mark d)) start (by
      intro b after hHead
      cases after with
      | nil =>
          simp [value, mark, Regex.cat, Regex.run, Regex.chr]
      | cons y more =>
          simp only [List.head?_cons, ne_eq,
            Option.some.injEq] at hHead
          simp [value, mark, Regex.cat, Regex.run, Regex.chr,
            hHead])
  unfold Regex.matchAt
  rw [hRun, hKey]
  unfold fieldAt
  cases hThen : keyThen s with
  | none => simp
  | some found =>
      rcases found with ⟨key, after⟩
      have hUpto := Cursor.upto_append start
        ⟨key.reverse ++ before, cp '=' :: after, []⟩ key
        (keyThen_eq_some_iff.mp hThen).2
      simp only [start, mark] at hUpto ⊢
      rw [hUpto, head_run_value]
      simp [Option.map_map, Function.comp_def]

---- The Pairs Of A Text

theorem fieldAt_eq_some_iff
    {s key value rest : Str} :
    fieldAt s = some (key, value, rest) ↔
      ∃ after, keyThen s = some (key, after) ∧
        cutAt (· != 10) boundary after = some (value, rest) := by
  unfold fieldAt
  cases hThen : keyThen s with
  | none => simp
  | some found =>
      rcases found with ⟨key', after⟩
      simp only [Option.map_eq_some_iff, Prod.mk.injEq,
        Option.some.injEq, Prod.exists]
      constructor
      · rintro ⟨value', rest', hCut, rfl, rfl, rfl⟩
        exact ⟨after, ⟨rfl, rfl⟩, hCut⟩
      · rintro ⟨after', ⟨rfl, rfl⟩, hCut⟩
        exact ⟨value, rest, hCut, rfl, rfl, rfl⟩

/- A pair is a key, an equals sign and a value. -/
theorem length_of_fieldAt
    {s key value rest : Str}
    (hField : fieldAt s = some (key, value, rest)) :
    s.length =
      key.length + 1 + value.length + rest.length := by
  rcases fieldAt_eq_some_iff.mp hField with
    ⟨after, hThen, hCut⟩
  rw [(keyThen_eq_some_iff.mp hThen).2, append_of_cutAt hCut]
  simp only [List.length_append, List.length_cons]
  omega

/- A pair of a text is at one of its ends. -/
theorem exists_suffix_of_fieldFrom
    {s : Str} {field : Str × Str × Str}
    (hField : fieldFrom s = some field) :
    ∃ t, t <:+ s ∧ fieldAt t = some field := by
  induction s with
  | nil => cases hField
  | cons x rest ih =>
      rw [fieldFrom] at hField
      cases hHere : fieldAt (x :: rest) with
      | some found =>
          rw [hHere] at hField
          refine ⟨x :: rest, List.suffix_refl _, ?_⟩
          exact hHere.trans hField
      | none =>
          rw [hHere] at hField
          rcases ih hField with ⟨t, hSuffix, hAt⟩
          exact ⟨t, hSuffix.trans (List.suffix_cons x rest), hAt⟩

theorem searchFrom_cefKv
    (before s : Str) :
    (cefKv.searchFrom before s).map
        (fun m => (cefEntry m, m.stop.after)) =
      (fieldFrom s).map
        (fun field => ((field.1, field.2.1), field.2.2)) ∧
      ∀ m, cefKv.searchFrom before s = some m →
        m.stop.after.length < m.start.after.length := by
  induction s generalizing before with
  | nil =>
      rw [Regex.searchFrom, matchAt_cefKv]
      simp [fieldAt, keyThen, fieldFrom]
  | cons x rest ih =>
      rw [Regex.searchFrom, matchAt_cefKv, fieldFrom]
      cases hHere : fieldAt (x :: rest) with
      | none =>
          simp only [Option.map_none]
          exact ih (x :: before)
      | some field =>
          rcases field with ⟨key, value, after⟩
          have hLength := length_of_fieldAt hHere
          constructor
          · simp [cefEntry, Regex.Match.group]
          · intro m hM
            simp only [Option.map_some, Option.some.injEq] at hM
            rw [← hM]
            simp only
            omega

/- The pairs the pattern finds. -/
theorem matchesFrom_cefKv
    (n : Nat) (before s : Str) :
    (cefKv.matchesFrom n before s).map cefEntry =
      fieldsFrom n s := by
  induction n generalizing before s with
  | zero => rfl
  | succ n ih =>
      rw [Regex.matchesFrom, fieldsFrom]
      have hSearch := searchFrom_cefKv before s
      cases hFound : cefKv.searchFrom before s with
      | none =>
          rw [hFound] at hSearch
          cases hField : fieldFrom s with
          | none => rfl
          | some field => simp [hField] at hSearch
      | some m =>
          rw [hFound] at hSearch
          cases hField : fieldFrom s with
          | none => simp [hField] at hSearch
          | some field =>
              rcases field with ⟨key, value, rest⟩
              simp only [hField, Option.map_some,
                Option.some.injEq, Prod.mk.injEq] at hSearch
              rcases hSearch with ⟨⟨hEntry, hRest⟩, hShorter⟩
              simp only
              rw [if_pos (hShorter m rfl), List.map_cons,
                hEntry, ih, hRest]

/- The entries of an extension. -/
theorem cefExt_eq
    (ext : Str) :
    cefExt ext =
      dictOf ((fieldsFrom ext.length ext).map fun p =>
        (p.1, cefValue p.2)) := by
  unfold cefExt Regex.findIter
  rw [← matchesFrom_cefKv ext.length [] ext, List.map_map]
  rfl

---- Pairs That Survive

/- Space, a key and an equals sign end a value. -/
theorem boundary_append
    {spaces key rest : Str}
    (hSome : spaces ≠ []) (hSpaces : ∀ c ∈ spaces, isSpace c = true)
    (hKey : IsCefKey key) :
    boundary (spaces ++ (key ++ cp '=' :: rest)) = true := by
  have hThen : keyThen (key ++ cp '=' :: rest) =
      some (key, rest) :=
    keyThen_eq_some_iff.mpr ⟨hKey, rfl⟩
  have hDrop :
      (key ++ cp '=' :: rest).dropWhile isSpace =
        key ++ cp '=' :: rest := by
    rcases hKey with ⟨c, tail, rfl, hLetter, _⟩
    have hSpace : isSpace c = false := by
      by_contra hSpace
      rw [Bool.not_eq_false] at hSpace
      rw [not_letter_of_space hSpace] at hLetter
      cases hLetter
    simp [hSpace]
  unfold boundary
  rw [List.dropWhile_append_of_pos hSpaces, hDrop, hThen]
  cases spaces with
  | nil => exact absurd rfl hSome
  | cons c spaces => simp [hSpaces c List.mem_cons_self]

/- A value followed by nothing, or by a space. -/
def Separated (tail : Str) : Prop :=
  tail = [] ∨ ∃ more, tail = cp ' ' :: more

/- What precedes the first space of a text. -/
theorem prefix_of_append
    {word after text tail : Str}
    (hSpace : ∀ c ∈ word, c ≠ cp ' ') (hTail : Separated tail)
    (hSame : word ++ after = text ++ tail) :
    ∃ more, text = word ++ more := by
  induction word generalizing text with
  | nil => exact ⟨text, rfl⟩
  | cons c word ih =>
      cases text with
      | nil =>
          rcases hTail with hNil | ⟨more, hCons⟩
          · rw [hNil] at hSame
            cases hSame
          · rw [hCons, List.nil_append, List.cons_append,
              List.cons.injEq] at hSame
            exact absurd hSame.1
              (hSpace c List.mem_cons_self)
      | cons d text =>
          rw [List.cons_append, List.cons_append,
            List.cons.injEq] at hSame
          rcases ih
            (fun x hX => hSpace x (List.mem_cons_of_mem c hX))
            hSame.2 with ⟨more, hMore⟩
          refine ⟨more, ?_⟩
          rw [hSame.1, hMore]
          rfl

/- A trimmed text does not end in spaces. -/
theorem not_all_space_of_trimmed
    {s a b : Str}
    (hTrim : strip s = s) (hSplit : s = a ++ b) (hMore : b ≠ []) :
    ∃ c ∈ b, isSpace c = false := by
  have hSome : s ≠ [] := by
    rw [hSplit]
    exact List.append_ne_nil_of_right_ne_nil a hMore
  have hLast := getLast_of_stripBy hTrim hSome
  refine ⟨s.getLast hSome, ?_, hLast⟩
  have hSame : s.getLast hSome = b.getLast hMore := by
    subst hSplit
    exact List.getLast_append_of_ne_nil hSome hMore
  rw [hSame]
  exact List.getLast_mem hMore

/- No character of a key is a space. -/
theorem ne_space_of_key
    {key : Str}
    (hKey : IsCefKey key) :
    ∀ c ∈ key ++ [cp '='], c ≠ cp ' ' := by
  rcases hKey with ⟨first, rest, rfl, hLetter, hRest⟩
  intro c hC hSpace
  rw [hSpace, List.mem_append, List.mem_cons] at hC
  rcases hC with (hFirst | hLater) | hEquals
  · rw [← hFirst] at hLetter
    revert hLetter
    decide
  · have hKeyChar := hRest _ hLater
    revert hKeyChar
    decide
  · revert hEquals
    decide

/- No value ends early. -/
theorem boundary_inside
    {value tail u w : Str}
    (hWhole : ¬ NamesField value) (hTrim : strip value = value)
    (hLine : 10 ∉ value) (hTail : Separated tail)
    (hSplit : value = u ++ w) (hMore : w ≠ []) :
    boundary (w ++ tail) = false := by
  by_contra hBoundary
  rw [Bool.not_eq_false, boundary, Bool.or_eq_true,
    Bool.and_eq_true] at hBoundary
  rcases hBoundary with ⟨hHead, hThen⟩ | hEnd
  · rcases not_all_space_of_trimmed hTrim hSplit hMore with
      ⟨c, hC, hSolid⟩
    have hRest : w.dropWhile isSpace ≠ [] := by
      intro hNil
      rw [List.dropWhile_eq_nil_iff] at hNil
      have hSpace := hNil c hC
      rw [hSolid] at hSpace
      cases hSpace
    have hDrop : (w ++ tail).dropWhile isSpace =
        w.dropWhile isSpace ++ tail := by
      rw [List.dropWhile_append, if_neg (by simpa using hRest)]
    rw [hDrop, Option.isSome_iff_exists] at hThen
    rcases hThen with ⟨⟨key, after⟩, hThen⟩
    rcases keyThen_eq_some_iff.mp hThen with ⟨hKey, hSame⟩
    have hWord : (key ++ [cp '=']) ++ after =
        w.dropWhile isSpace ++ tail := by
      rw [hSame]
      simp
    rcases prefix_of_append (ne_space_of_key hKey) hTail
      hWord with ⟨more, hInside⟩
    apply hWhole
    refine ⟨u, w.takeWhile isSpace, key, more, ?_, ?_, ?_, hKey⟩
    · have hJoin : key ++ cp '=' :: more =
          w.dropWhile isSpace := by
        rw [hInside]
        simp
      rw [hJoin, List.takeWhile_append_dropWhile, hSplit]
    · cases w with
      | nil => exact absurd rfl hMore
      | cons x w =>
          have hFirst : isSpace x = true := by simpa using hHead
          simp [hFirst]
    · intro x hX
      exact List.mem_takeWhile_imp hX
  · rw [Bool.or_eq_true, beq_iff_eq, beq_iff_eq] at hEnd
    rcases hEnd with hNil | hNewline
    · exact hMore (List.append_eq_nil_iff.mp hNil).1
    · cases w with
      | nil => exact hMore rfl
      | cons x w =>
          rw [List.cons_append, List.cons.injEq] at hNewline
          apply hLine
          rw [hSplit, hNewline.1]
          simp

/- The pair at the start of an extension. -/
theorem fieldAt_plainPair
    {p : Str × Str} {tail : Str}
    (hPlain : PlainField p) (hTrim : strip p.2 = p.2)
    (hLine : 10 ∉ p.2) (hTail : Separated tail)
    (hEnd : boundary tail = true) :
    fieldAt (plainPair p ++ tail) = some (p.1, p.2, tail) := by
  apply fieldAt_eq_some_iff.mpr
  refine ⟨p.2 ++ tail, ?_, ?_⟩
  · apply keyThen_eq_some_iff.mpr
    refine ⟨hPlain.key, ?_⟩
    simp [plainPair]
  · apply cutAt_append
    · intro x hX
      rw [bne_iff_ne]
      intro hNewline
      exact hLine (hNewline ▸ hX)
    · intro u w hSplit hMore
      exact boundary_inside hPlain.whole hTrim hLine hTail
        hSplit hMore
    · exact hEnd

/- A pair is found where it starts. -/
theorem fieldFrom_of_fieldAt
    {s : Str} {field : Str × Str × Str}
    (hField : fieldAt s = some field) :
    fieldFrom s = some field := by
  cases s with
  | nil => cases hField
  | cons x rest => rw [fieldFrom, hField]

/- The space between pairs is passed over. -/
theorem fieldsFrom_space
    (n : Nat) (s : Str) :
    fieldsFrom n (cp ' ' :: s) = fieldsFrom n s := by
  cases n with
  | zero => rfl
  | succ n =>
      have hSpace : fieldAt (cp ' ' :: s) = none := by
        unfold fieldAt
        rw [keyThen, if_neg (by decide)]
      rw [fieldsFrom, fieldFrom, hSpace, fieldsFrom]

/- The pairs of an extension are those it was made of. -/
theorem fieldsFrom_plain
    (fields : List (Str × Str))
    (hPlain : ∀ p ∈ fields, PlainField p)
    (hTrim : ∀ p ∈ fields, strip p.2 = p.2)
    (hLine : ∀ p ∈ fields, 10 ∉ p.2) (n : Nat)
    (hFuel : fields.length ≤ n) :
    fieldsFrom n (joinWith [cp ' '] (fields.map plainPair)) =
      fields := by
  induction fields generalizing n with
  | nil =>
      cases n with
      | zero => rfl
      | succ n => rfl
  | cons p fields ih =>
      rw [List.forall_mem_cons] at hPlain hTrim hLine
      rw [List.length_cons] at hFuel
      cases n with
      | zero => omega
      | succ n =>
          have hRest := ih hPlain.2 hTrim.2 hLine.2 n (by omega)
          cases fields with
          | nil =>
              have hField := fieldAt_plainPair hPlain.1 hTrim.1
                hLine.1 (Or.inl rfl) (by decide)
              rw [List.append_nil] at hField
              simp only [List.map_cons, List.map_nil, joinWith]
              rw [fieldsFrom, fieldFrom_of_fieldAt hField]
              simp only [List.cons.injEq, true_and]
              cases n with
              | zero => rfl
              | succ n => rfl
          | cons q fields =>
              let rest := joinWith [cp ' ']
                ((q :: fields).map plainPair)
              have hJoin :
                  joinWith [cp ' ']
                      ((p :: q :: fields).map plainPair) =
                    plainPair p ++ (cp ' ' :: rest) := by
                simp [joinWith, rest]
              have hStart : ∃ more,
                  rest = q.1 ++ cp '=' :: more := by
                cases fields with
                | nil => exact ⟨q.2, rfl⟩
                | cons r fields =>
                    refine ⟨q.2 ++ cp ' ' :: joinWith [cp ' ']
                      ((r :: fields).map plainPair), ?_⟩
                    simp [rest, joinWith, plainPair]
              have hEnd : boundary (cp ' ' :: rest) = true := by
                rcases hStart with ⟨more, hMore⟩
                rw [hMore]
                exact boundary_append (List.cons_ne_nil _ [])
                  (by simp [isSpace]; decide)
                  (hPlain.2 q List.mem_cons_self).key
              have hField := fieldAt_plainPair hPlain.1 hTrim.1
                hLine.1 (Or.inr ⟨rest, rfl⟩) hEnd
              rw [hJoin, fieldsFrom, fieldFrom_of_fieldAt hField]
              simp only [List.cons.injEq, true_and]
              rw [fieldsFrom_space, hRest]

---- Counting Characters

/- The characters of a pair, its equals sign and the space
after it. -/
def pairWeight (p : Str × Str) : Nat :=
  p.1.length + p.2.length + 2

/- The characters of a list of pairs. -/
def weight (pairs : List (Str × Str)) : Nat :=
  (pairs.map pairWeight).sum

theorem weight_cons
    (p : Str × Str) (pairs : List (Str × Str)) :
    weight (p :: pairs) = pairWeight p + weight pairs := rfl

/- An extension has the weight of its pairs, without the last
space. -/
theorem length_join
    (fields : List (Str × Str)) (hSome : fields ≠ []) :
    (joinWith [cp ' '] (fields.map plainPair)).length + 1 =
      weight fields := by
  induction fields with
  | nil => exact absurd rfl hSome
  | cons p fields ih =>
      cases fields with
      | nil => simp [joinWith, plainPair, weight, pairWeight]; omega
      | cons q fields =>
          have hRest := ih (List.cons_ne_nil _ _)
          rw [weight_cons, ← hRest]
          simp only [List.map_cons, joinWith,
            List.length_append, plainPair, List.length_cons,
            pairWeight, List.length_nil]
          omega

/- Nothing starts where a value ends. -/
theorem fieldAt_of_boundary
    {s : Str}
    (hBoundary : boundary s = true) :
    fieldAt s = none := by
  have hThen : keyThen s = none := by
    cases s with
    | nil => rfl
    | cons c rest =>
        have hLetter : isAsciiLetter c = false := by
          simp only [boundary, List.head?_cons,
            Option.map_some, Option.getD_some,
            Bool.or_eq_true, Bool.and_eq_true,
            beq_iff_eq] at hBoundary
          rcases hBoundary with ⟨hSpace, _⟩ | hNil | hNewline
          · exact not_letter_of_space hSpace
          · cases hNil
          · rw [List.cons.injEq] at hNewline
            rw [hNewline.1]
            decide
        rw [keyThen, if_neg (by simp [hLetter])]
  unfold fieldAt
  rw [hThen]

/- No more characters are found than there are; one less
where no pair starts. -/
theorem weight_fieldsFrom_le
    (n : Nat) (s : Str) :
    weight (fieldsFrom n s) ≤ s.length + 1 ∧
      (fieldAt s = none →
        weight (fieldsFrom n s) ≤ s.length) := by
  induction n generalizing s with
  | zero =>
      rw [fieldsFrom]
      exact ⟨Nat.zero_le _, fun _ => Nat.zero_le _⟩
  | succ n ih =>
      rw [fieldsFrom]
      cases hField : fieldFrom s with
      | none => exact ⟨Nat.zero_le _, fun _ => Nat.zero_le _⟩
      | some field =>
          rcases field with ⟨key, value, rest⟩
          rcases exists_suffix_of_fieldFrom hField with
            ⟨t, hSuffix, hAt⟩
          have hLength := length_of_fieldAt hAt
          have hNoPair : fieldAt rest = none := by
            rcases fieldAt_eq_some_iff.mp hAt with
              ⟨after, _, hCut⟩
            exact fieldAt_of_boundary (fine_of_cutAt hCut)
          have hRest := (ih rest).2 hNoPair
          have hShort := hSuffix.length_le
          simp only [weight_cons, pairWeight]
          constructor
          · omega
          · intro hNone
            have hLess : t.length ≠ s.length := by
              intro hSame
              rw [hSuffix.eq_of_length hSame, hNone] at hAt
              cases hAt
            omega

/- What is found is a pair as the pattern has it. -/
theorem form_of_mem_fieldsFrom
    {n : Nat} {s : Str} {p : Str × Str}
    (hMem : p ∈ fieldsFrom n s) :
    IsCefKey p.1 ∧ ¬ NamesField p.2 := by
  induction n generalizing s with
  | zero => cases hMem
  | succ n ih =>
      rw [fieldsFrom] at hMem
      cases hField : fieldFrom s with
      | none =>
          rw [hField] at hMem
          cases hMem
      | some field =>
          rcases field with ⟨key, value, rest⟩
          rw [hField] at hMem
          rcases List.mem_cons.mp hMem with hHere | hLater
          · rcases exists_suffix_of_fieldFrom hField with
              ⟨t, _, hAt⟩
            rcases fieldAt_eq_some_iff.mp hAt with
              ⟨after, hThen, hCut⟩
            rw [hHere]
            refine ⟨(keyThen_eq_some_iff.mp hThen).1, ?_⟩
            rintro ⟨a, spaces, inner, b, hValue, hSome,
              hSpaces, hKey⟩
            have hEarly := not_fine_before_cut hCut hValue
              (List.append_ne_nil_of_left_ne_nil hSome _)
            have hSame :
                spaces ++ (inner ++ cp '=' :: b) ++ rest =
                  spaces ++ (inner ++ cp '=' :: (b ++ rest)) := by
              simp
            rw [hSame, boundary_append hSome hSpaces hKey]
              at hEarly
            cases hEarly
          · exact ih hLater

theorem weight_setEntry_le
    (e : Str × Str) (d : List (Str × Str)) :
    weight (setEntry e.1 e.2 d) ≤ weight d + pairWeight e := by
  induction d with
  | nil =>
      rw [setEntry, weight_cons, Nat.add_comm]
  | cons first rest ih =>
      rw [setEntry]
      split
      · rename_i hKey
        simp only [weight_cons, pairWeight, hKey]
        omega
      · rw [weight_cons, weight_cons]
        have hSame : pairWeight (first.1, first.2) = pairWeight first :=
          rfl
        omega

/- A mapping has no more characters than its entries. -/
theorem weight_dictOf_le
    (entries : List (Str × Str)) :
    weight (dictOf entries) ≤ weight entries := by
  have hFold : ∀ (d : List (Str × Str)),
      weight (entries.foldl
        (fun d e => setEntry e.1 e.2 d) d) ≤
          weight d + weight entries := by
    induction entries with
    | nil => exact fun d => Nat.le_refl _
    | cons first rest ih =>
        intro d
        have hSet := weight_setEntry_le first d
        have hRest := ih (setEntry first.1 first.2 d)
        rw [List.foldl_cons, weight_cons]
        omega
  have hAll := hFold []
  have hEmpty : weight [] = 0 := rfl
  rw [hEmpty, Nat.zero_add] at hAll
  exact hAll

/- Unescaping does not lengthen a value. -/
theorem length_cefValue_le
    (s : Str) :
    (cefValue s).length ≤ s.length :=
  (length_replaceAll_le (by decide) _).trans
    (length_replaceAll_le (by decide) s)

/- A value that keeps its length had nothing to unescape. -/
theorem plain_of_length_cefValue
    {s : Str}
    (hSame : (cefValue s).length = s.length) :
    ¬ lit "\\=" <:+: s ∧ ¬ lit "\\\\" <:+: s := by
  let inner := replaceAll (lit "\\=") (lit "=") s
  have hInner : inner.length ≤ s.length :=
    length_replaceAll_le (by decide) s
  have hOuter : (cefValue s).length ≤ inner.length :=
    length_replaceAll_le (by decide) inner
  have hInnerSame : inner.length = s.length := by omega
  have hOuterSame :
      (replaceAll (lit "\\\\") (lit "\\") inner).length =
        inner.length := by
    rw [hInnerSame]
    exact hSame
  have hEquals : ¬ lit "\\=" <:+: s :=
    not_contains_of_length_replaceAll (by decide) hInnerSame
  refine ⟨hEquals, ?_⟩
  have hStays : inner = s := replaceAll_of_not_contains hEquals
  have hBackslashes : ¬ lit "\\\\" <:+: inner :=
    not_contains_of_length_replaceAll (by decide) hOuterSame
  rwa [hStays] at hBackslashes

/- A value with nothing to unescape stays. -/
theorem cefValue_of_plain
    {s : Str}
    (hEquals : ¬ lit "\\=" <:+: s)
    (hBackslashes : ¬ lit "\\\\" <:+: s) :
    cefValue s = s := by
  unfold cefValue
  rw [replaceAll_of_not_contains hEquals,
    replaceAll_of_not_contains hBackslashes]

/- Sums that agree, of terms that do not exceed each other. -/
theorem eq_of_sum_le
    {α : Type} {f g : α → Nat} {l : List α}
    (hLe : ∀ x ∈ l, f x ≤ g x)
    (hSum : (l.map g).sum ≤ (l.map f).sum) :
    ∀ x ∈ l, f x = g x := by
  induction l with
  | nil =>
      intro x hX
      cases hX
  | cons y l ih =>
      rw [List.forall_mem_cons] at hLe ⊢
      rw [List.map_cons, List.map_cons, List.sum_cons,
        List.sum_cons] at hSum
      have hRest : (l.map f).sum ≤ (l.map g).sum :=
        List.sum_le_sum hLe.2
      exact ⟨by omega, ih hLe.2 (by omega)⟩

---- When A Message Survives

/- Pairs that survive are decoded as they are. -/
theorem cefExt_plain
    {fields : List (Str × Str)}
    (hPlain : ∀ p ∈ fields, PlainField p)
    (hTrim : ∀ p ∈ fields, strip p.2 = p.2)
    (hLine : ∀ p ∈ fields, 10 ∉ p.2)
    (hDistinct : (fields.map Prod.fst).Nodup) :
    cefExt (joinWith [cp ' '] (fields.map plainPair)) =
      fields := by
  have hFuel : fields.length ≤
      (joinWith [cp ' '] (fields.map plainPair)).length := by
    cases fields with
    | nil => exact Nat.zero_le _
    | cons p fields =>
        have hJoin := length_join (p :: fields) (by simp)
        have hWeight : ∀ l : List (Str × Str),
            2 * l.length ≤ weight l := by
          intro l
          induction l with
          | nil => exact Nat.le_refl _
          | cons q l ih =>
              rw [List.length_cons, weight_cons, pairWeight]
              omega
        have hTwice := hWeight (p :: fields)
        rw [List.length_cons] at hTwice ⊢
        omega
  have hStay : fields.map (fun p => (p.1, cefValue p.2)) =
      fields := by
    conv_rhs => rw [← List.map_id fields]
    apply List.map_congr_left
    intro p hMem
    rw [cefValue_of_plain (hPlain p hMem).equals
      (hPlain p hMem).backslashes]
    rfl
  rw [cefExt_eq, fieldsFrom_plain fields hPlain hTrim hLine _
    hFuel, hStay, dictOf_of_nodup hDistinct]

/- Pairs that are decoded as they are survive. -/
theorem plain_of_cefExt
    {fields : List (Str × Str)}
    (hPerm :
      (cefExt (joinWith [cp ' '] (fields.map plainPair))).Perm
        fields) :
    ∀ p ∈ fields, PlainField p := by
  let text := joinWith [cp ' '] (fields.map plainPair)
  let found := fieldsFrom text.length text
  let decoded := fun p : Str × Str => (p.1, cefValue p.2)
  intro p hMem
  have hText : text.length + 1 = weight fields :=
    length_join fields (List.ne_nil_of_mem hMem)
  rw [cefExt_eq] at hPerm
  have hKept : weight (dictOf (found.map decoded)) =
      weight fields :=
    (hPerm.map pairWeight).sum_eq
  have hDict := weight_dictOf_le (found.map decoded)
  have hFound : weight found ≤ text.length + 1 :=
    (weight_fieldsFrom_le text.length text).1
  -- Nothing is lost on the way, so no value gets shorter.
  have hSame : ∀ t ∈ found,
      pairWeight (decoded t) = pairWeight t := by
    apply eq_of_sum_le
    · intro t _
      have hValue := length_cefValue_le t.2
      simp only [decoded, pairWeight]
      omega
    · unfold weight at hDict hFound hKept hText
      rw [List.map_map] at hDict
      simp only [Function.comp_def] at hDict
      omega
  rcases List.mem_map.mp
    (mem_of_mem_dictOf (hPerm.mem_iff.mpr hMem)) with
      ⟨t, hT, hP⟩
  have hLength : (cefValue t.2).length = t.2.length := by
    have hWeight := hSame t hT
    simp only [decoded, pairWeight] at hWeight
    omega
  have hValue := plain_of_length_cefValue hLength
  have hForm := form_of_mem_fieldsFrom hT
  have hP' : p = t := by
    rw [← hP, cefValue_of_plain hValue.1 hValue.2]
  rw [hP']
  exact ⟨hForm.1, hForm.2, hValue.1, hValue.2⟩

/- A message is decoded to what was encoded exactly if every
pair survives. -/
theorem decodes_iff
    [Unicode]
    (m : CefMessage) :
    ((decodeCef m.encode).1 = m.headers ∧
        (decodeCef m.encode).2.Perm m.fields) ↔
      ∀ p ∈ m.fields, PlainField p := by
  rw [decodeCef_encode]
  constructor
  · rintro ⟨_, hPerm⟩
    exact plain_of_cefExt hPerm
  · intro hPlain
    refine ⟨rfl, ?_⟩
    rw [cefExt_plain hPlain m.trimmed m.singleLine m.distinct]

local instance cefUnicode : Unicode := asciiTables

/- A login whose message names an address. -/
def loginMessage : CefMessage where
  headers := [lit "0", lit "Acme", lit "Gate", lit "1",
    lit "100", lit "Login", lit "5"]
  fields := [(lit "msg", lit "failed src=6.6.6.6")]
  seven := rfl
  distinct := by simp
  alphanumeric := by decide
  singleLine := by decide
  trimmed := by decide

/- The text within the message becomes the source. -/
theorem login_message_names_source :
    (decodeCef loginMessage.encode).2 =
        [(lit "msg", lit "failed"),
          (lit "src", lit "6.6.6.6")] ∧
      ¬ ((decodeCef loginMessage.encode).1 =
            loginMessage.headers ∧
          (decodeCef loginMessage.encode).2.Perm
            loginMessage.fields) := by
  have hDecoded :
      (decodeCef loginMessage.encode).2 =
        [(lit "msg", lit "failed"),
          (lit "src", lit "6.6.6.6")] := by
    decide
  refine ⟨hDecoded, ?_⟩
  rintro ⟨_, hPerm⟩
  rw [hDecoded] at hPerm
  have hLength := hPerm.length_eq
  revert hLength
  decide

end ThreatOrbit.Ingest
