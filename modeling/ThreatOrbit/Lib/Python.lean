import ThreatOrbit.Lib.Number

/-
  The values of the modelled language: what `json.loads`
  and a database row yield, with their text, their truth and
  the number they convert to.

  The tables of the character database that are not small
  enough to write down are the fields of `Unicode`; on ASCII
  they are known.

  Key definitions:
    * `Unicode`
    * `PyVal`, `pyStr`, `pyRepr`, `truthy`
    * `splitOn`, `joinWith`, `contains`, `replaceAll`
    * `lookup`, `setEntry`, `dictOf`
-/

---- Character Tables

namespace Lib

/- The small letters of a text of ASCII characters. -/
def asciiLowerStr (s : Str) : Str :=
  s.map asciiLower

/- `str.title` of a text of ASCII characters, after a letter
or not. -/
@[grind =]
def asciiTitleFrom (afterLetter : Bool) : Str → Str
| [] => []
| c :: rest =>
    let small := asciiLower c
    let shown :=
      if isAsciiLetter c && !afterLetter then small - 32
      else small
    shown :: asciiTitleFrom (isAsciiLetter c) rest

/- `str.lower`, `str.title`, `str.isalnum` and
`str.isprintable`. A space ends a word: the small letters
on its two sides do not depend on each other. -/
class Unicode where
  lower : Str → Str
  title : Str → Str
  isAlnum : Nat → Bool
  isPrintable : Nat → Bool
  lower_ascii :
    ∀ s : Str, (∀ c ∈ s, c < 128) →
      lower s = asciiLowerStr s
  lower_space :
    ∀ s t : Str,
      lower (s ++ cp ' ' :: t) = lower s ++ cp ' ' :: lower t
  not_mem_lower_space :
    ∀ s : Str, cp ' ' ∉ s → cp ' ' ∉ lower s
  isAlnum_ascii :
    ∀ c, c < 128 →
      isAlnum c = (isDigit c || isAsciiLetter c)
  isPrintable_ascii :
    ∀ c, c < 128 →
      isPrintable c = decide (32 ≤ c ∧ c < 127)

/- Tables that know no character beyond ASCII. -/
@[reducible] def asciiTables : Unicode where
  lower := asciiLowerStr
  title := asciiTitleFrom false
  isAlnum c := isDigit c || isAsciiLetter c
  isPrintable c := 32 ≤ c && c < 127
  lower_ascii _ _ := rfl
  lower_space s t := by simp [asciiLowerStr, asciiLower, cp]
  not_mem_lower_space s hNone := by
    simp only [asciiLowerStr, List.mem_map, not_exists]
    rintro c ⟨hMem, hSpace⟩
    unfold asciiLower at hSpace
    split at hSpace
    · simp [cp] at *
      omega
    · exact hNone (hSpace ▸ hMem)
  isAlnum_ascii _ _ := rfl
  isPrintable_ascii c _ := by simp [Bool.decide_and]

---- Texts

/- `needle in text`. -/
def contains (needle text : Str) : Bool :=
  decide (needle <:+: text)

/- The parts of a text between the occurrences of `c`. -/
@[grind =]
def splitOn (c : Nat) : Str → List Str
| [] => [[]]
| x :: rest =>
    if x = c then
      [] :: splitOn c rest
    else
      match splitOn c rest with
      | part :: parts => (x :: part) :: parts
      | [] => [[x]]

/- `sep.join(parts)`. -/
@[grind =]
def joinWith (sep : Str) : List Str → Str
| [] => []
| [part] => part
| part :: parts => part ++ sep ++ joinWith sep parts

/- A hexadecimal digit. -/
def hexDigit (n : Nat) : Nat :=
  if n < 10 then cp '0' + n else cp 'a' + (n - 10)

/- A number in hexadecimal, to a width. -/
def hexStr (width n : Nat) : Str :=
  ((List.range width).map
    (fun i => hexDigit (n / 16 ^ i % 16))).reverse

---- Splitting And Joining

theorem splitOn_of_not_mem
    {c : Nat} {s : Str}
    (hNone : c ∉ s) :
    splitOn c s = [s] := by
  induction s with
  | nil => rfl
  | cons x s ih =>
      rw [List.mem_cons, not_or] at hNone
      rw [splitOn, if_neg (fun h => hNone.1 h.symm),
        ih hNone.2]

/- The first part ends at the separator. -/
theorem splitOn_append
    {c : Nat} {s : Str}
    (hNone : c ∉ s) (t : Str) :
    splitOn c (s ++ c :: t) = s :: splitOn c t := by
  induction s with
  | nil =>
      rw [List.nil_append, splitOn, if_pos rfl]
  | cons x s ih =>
      rw [List.mem_cons, not_or] at hNone
      rw [List.cons_append, splitOn,
        if_neg (fun h => hNone.1 h.symm), ih hNone.2]

theorem mem_joinWith
    {c : Nat} {sep : Str} {words : List Str}
    (hMem : c ∈ joinWith sep words) :
    c ∈ sep ∨ ∃ word ∈ words, c ∈ word := by
  induction words with
  | nil => cases hMem
  | cons word words ih =>
      cases words with
      | nil => exact Or.inr ⟨word, List.mem_cons_self, hMem⟩
      | cons next words =>
          have hJoin :
              joinWith sep (word :: next :: words) =
                word ++ sep ++ joinWith sep (next :: words) :=
            rfl
          rw [hJoin, List.mem_append, List.mem_append] at hMem
          rcases hMem with (hWord | hSep) | hLater
          · exact Or.inr ⟨word, List.mem_cons_self, hWord⟩
          · exact Or.inl hSep
          · rcases ih hLater with hSep | ⟨w, hW, hC⟩
            · exact Or.inl hSep
            · exact Or.inr ⟨w, List.mem_cons_of_mem _ hW, hC⟩

/- A word in a joined text, with what is around it. -/
theorem joinWith_around
    (sep : Str) (before after : List Str) (word : Str) :
    ∃ front back,
      joinWith sep (before ++ word :: after) =
        front ++ word ++ back ∧
      (∀ c ∈ front, c ∈ sep ∨ ∃ w ∈ before, c ∈ w) ∧
      ∀ c ∈ back, c ∈ sep ∨ ∃ w ∈ after, c ∈ w := by
  induction before with
  | nil =>
      cases after with
      | nil =>
          exact ⟨[], [], (List.append_nil word).symm,
            List.forall_mem_nil _, List.forall_mem_nil _⟩
      | cons next later =>
          refine ⟨[], sep ++ joinWith sep (next :: later), ?_,
            List.forall_mem_nil _, ?_⟩
          · exact List.append_assoc word sep _
          · intro c hC
            rcases List.mem_append.mp hC with hSep | hLater
            · exact Or.inl hSep
            · exact mem_joinWith hLater
  | cons first before ih =>
      rcases ih with ⟨front, back, hJoin, hFront, hBack⟩
      have hCons :
          joinWith sep (first :: (before ++ word :: after)) =
            first ++ sep ++
              joinWith sep (before ++ word :: after) := by
        cases before <;> rfl
      refine ⟨first ++ sep ++ front, back, ?_, ?_, hBack⟩
      · rw [List.cons_append, hCons, hJoin]
        simp only [List.append_assoc]
      · intro c hC
        rw [List.mem_append, List.mem_append] at hC
        rcases hC with (hFirst | hSep) | hIn
        · exact Or.inr ⟨first, List.mem_cons_self, hFirst⟩
        · exact Or.inl hSep
        · rcases hFront c hIn with hSep | ⟨w, hW, hC⟩
          · exact Or.inl hSep
          · exact Or.inr ⟨w, List.mem_cons_of_mem _ hW, hC⟩

theorem splitOn_joinWith
    {c : Nat} {parts : List Str}
    (hSome : parts ≠ []) (hNone : ∀ part ∈ parts, c ∉ part) :
    splitOn c (joinWith [c] parts) = parts := by
  induction parts with
  | nil => exact absurd rfl hSome
  | cons part rest ih =>
      rw [List.forall_mem_cons] at hNone
      cases rest with
      | nil => exact splitOn_of_not_mem hNone.1
      | cons next rest =>
          have hTail := ih (List.cons_ne_nil _ _) hNone.2
          rw [joinWith, List.append_assoc,
            List.singleton_append, splitOn_append hNone.1, hTail]
          simp

theorem splitOn_ne_nil
    (c : Nat) (s : Str) :
    splitOn c s ≠ [] := by
  cases s with
  | nil => exact List.cons_ne_nil _ _
  | cons x s =>
      rw [splitOn]
      split
      · exact List.cons_ne_nil _ _
      · split
        · exact List.cons_ne_nil _ _
        · exact List.cons_ne_nil _ _

theorem not_mem_of_splitOn
    {c : Nat} {s part : Str}
    (hPart : part ∈ splitOn c s) :
    c ∉ part := by
  induction s generalizing part with
  | nil =>
      rw [List.mem_singleton.mp hPart]
      exact List.not_mem_nil
  | cons x s ih =>
      rw [splitOn] at hPart
      split at hPart
      · rcases List.mem_cons.mp hPart with hFirst | hLater
        · rw [hFirst]
          exact List.not_mem_nil
        · exact ih hLater
      · rename_i hOther
        split at hPart
        · rename_i first rest hRest
          rw [hRest, List.forall_mem_cons] at ih
          rcases List.mem_cons.mp hPart with hFirst | hLater
          · rw [hFirst, List.mem_cons, not_or]
            exact ⟨fun h => hOther h.symm, ih.1⟩
          · exact ih.2 _ hLater
        · rename_i hNil
          exact absurd hNil (splitOn_ne_nil c s)

theorem strip_subset
    (s : Str) :
    strip s ⊆ s := by
  intro c hC
  unfold strip stripBy at hC
  rw [List.mem_reverse] at hC
  have hDrop := (List.dropWhile_suffix _).subset hC
  rw [List.mem_reverse] at hDrop
  exact (List.dropWhile_suffix _).subset hDrop

/- White space around a text is stripped. -/
theorem strip_around
    {front back : Str}
    (s : Str) (hFront : ∀ c ∈ front, isSpace c = true)
    (hBack : ∀ c ∈ back, isSpace c = true) :
    strip (front ++ s ++ back) = strip s := by
  have hReverse : ∀ c ∈ back.reverse, isSpace c = true := by
    intro c hC
    exact hBack c (List.mem_reverse.mp hC)
  have hDrop :
      (front ++ s ++ back).dropWhile isSpace =
        (s ++ back).dropWhile isSpace := by
    rw [List.append_assoc, List.dropWhile_append_of_pos hFront]
  unfold strip stripBy
  rw [hDrop, List.dropWhile_append]
  cases hRest : s.dropWhile isSpace with
  | nil =>
      have hNone : back.dropWhile isSpace = [] :=
        List.dropWhile_eq_nil_iff.mpr hBack
      rw [hNone]
      rfl
  | cons c rest =>
      rw [List.isEmpty_cons, if_neg Bool.false_ne_true,
        List.reverse_append,
        List.dropWhile_append_of_pos hReverse]

/- What is left after a `dropWhile` starts with none of the
class. -/
theorem head_of_dropWhile
    {p : Nat → Bool} {s rest : Str} {c : Nat}
    (hDrop : s.dropWhile p = c :: rest) :
    p c = false := by
  induction s with
  | nil => cases hDrop
  | cons x s ih =>
      rw [List.dropWhile_cons] at hDrop
      split at hDrop
      · exact ih hDrop
      · rename_i hX
        rw [List.cons.injEq] at hDrop
        rw [← hDrop.1]
        exact Bool.eq_false_iff.mpr hX

theorem strip_strip
    (s : Str) :
    strip (strip s) = strip s := by
  have hFront : (strip s).dropWhile isSpace = strip s := by
    cases hStrip : strip s with
    | nil => rfl
    | cons c rest =>
        have hPrefix : strip s <+: s.dropWhile isSpace :=
          List.rdropWhile_prefix isSpace _
        rw [hStrip] at hPrefix
        rcases hPrefix with ⟨more, hMore⟩
        have hC := head_of_dropWhile hMore.symm
        rw [List.dropWhile_cons, hC]
        rfl
  have hBack : (strip s).rdropWhile isSpace = strip s :=
    List.rdropWhile_idempotent isSpace (s.dropWhile isSpace)
  calc strip (strip s)
      = ((strip s).dropWhile isSpace).rdropWhile isSpace := rfl
    _ = (strip s).rdropWhile isSpace := by rw [hFront]
    _ = strip s := hBack

---- Replacing

/- The text with each occurrence of `old` replaced, after the
given number of characters is dropped. -/
@[grind =]
def replaceFrom (old new : Str) : Nat → Str → Str
| _, [] => []
| n + 1, _ :: rest => replaceFrom old new n rest
| 0, c :: rest =>
    if old.isPrefixOf (c :: rest) then
      new ++ replaceFrom old new (old.length - 1) rest
    else
      c :: replaceFrom old new 0 rest

/- `text.replace(old, new)`, of an `old` that is not empty. -/
def replaceAll (old new s : Str) : Str :=
  replaceFrom old new 0 s

theorem length_replaceFrom_le
    {old new : Str}
    (hShort : new.length ≤ old.length) (n : Nat) (s : Str)
    (hDrop : n ≤ s.length) :
    (replaceFrom old new n s).length + n ≤ s.length := by
  induction s generalizing n with
  | nil =>
      have hZero : n = 0 := by simpa using hDrop
      simp [replaceFrom, hZero]
  | cons c rest ih =>
      rw [List.length_cons] at hDrop
      rw [List.length_cons]
      cases n with
      | succ n =>
          have hRest := ih n (by omega)
          rw [replaceFrom]
          omega
      | zero =>
          rw [replaceFrom]
          split
          · rename_i hPrefix
            have hLength := (List.isPrefixOf_iff_prefix.mp
              hPrefix).length_le
            rw [List.length_cons] at hLength
            have hRest := ih (old.length - 1) (by omega)
            rw [List.length_append]
            omega
          · have hRest := ih 0 (by omega)
            rw [List.length_cons]
            omega

/- Replacing by no more characters does not lengthen. -/
theorem length_replaceAll_le
    {old new : Str}
    (hShort : new.length ≤ old.length) (s : Str) :
    (replaceAll old new s).length ≤ s.length :=
  length_replaceFrom_le hShort 0 s (Nat.zero_le _)

/- Replacing by fewer characters keeps the length only of a
text that has nothing to replace. -/
theorem not_contains_of_length_replaceAll
    {old new s : Str}
    (hShort : new.length < old.length)
    (hSame : (replaceAll old new s).length = s.length) :
    ¬ old <:+: s := by
  unfold replaceAll at hSame
  induction s with
  | nil =>
      intro hOccurs
      rw [List.infix_nil] at hOccurs
      simp [hOccurs] at hShort
  | cons c rest ih =>
      rw [replaceFrom] at hSame
      split at hSame
      · rename_i hPrefix
        have hLength := (List.isPrefixOf_iff_prefix.mp
          hPrefix).length_le
        have hRest := length_replaceFrom_le hShort.le
          (old.length - 1) rest (by
            rw [List.length_cons] at hLength
            omega)
        rw [List.length_append, List.length_cons] at hSame
        omega
      · rename_i hPrefix
        rw [List.length_cons, List.length_cons,
          Nat.add_right_cancel_iff] at hSame
        intro hOccurs
        rcases List.infix_cons_iff.mp hOccurs with
          hHere | hLater
        · exact hPrefix (List.isPrefixOf_iff_prefix.mpr hHere)
        · exact ih hSame hLater

/- A text without the old one stays. -/
theorem replaceAll_of_not_contains
    {old new s : Str}
    (hAbsent : ¬ old <:+: s) :
    replaceAll old new s = s := by
  unfold replaceAll
  induction s with
  | nil => rfl
  | cons c rest ih =>
      have hHere : ¬ old.isPrefixOf (c :: rest) = true := by
        intro hPrefix
        exact hAbsent
          (List.isPrefixOf_iff_prefix.mp hPrefix).isInfix
      have hLater : ¬ old <:+: rest := by
        intro hOccurs
        exact hAbsent
          (List.infix_cons_iff.mpr (Or.inr hOccurs))
      rw [replaceFrom, if_neg hHere, ih hLater]

/- A character is replaced place by place. -/
theorem replaceAll_singleton
    (old : Nat) (new s : Str) :
    replaceAll [old] new s =
      s.flatMap (fun c => if c = old then new else [c]) := by
  unfold replaceAll
  induction s with
  | nil => rfl
  | cons c rest ih =>
      rw [replaceFrom, List.flatMap_cons, ← ih]
      by_cases hC : c = old
      · simp [hC, List.isPrefixOf]
      · simp [hC, List.isPrefixOf, Ne.symm hC]

---- Values

inductive PyVal where
| none
| bool (b : Bool)
| int (n : Int)
| float (x : Float)
| str (s : Str)
| list (items : List PyVal)
| dict (items : List (Str × PyVal))

variable [Unicode]

/- A character of a quoted text. -/
def reprChar (quote c : Nat) : Str :=
  if c = quote || c = cp '\\' then [cp '\\', c]
  else if c = 10 then lit "\\n"
  else if c = 13 then lit "\\r"
  else if c = 9 then lit "\\t"
  else if Unicode.isPrintable c then [c]
  else if c < 256 then lit "\\x" ++ hexStr 2 c
  else if c < 65536 then lit "\\u" ++ hexStr 4 c
  else lit "\\U" ++ hexStr 8 c

/- `repr` of a text. -/
def reprStr (s : Str) : Str :=
  let quote :=
    if s.contains (cp '\'') && !s.contains (cp '"') then cp '"'
    else cp '\''
  quote :: s.flatMap (reprChar quote) ++ [quote]

mutual

/- `repr(value)`. -/
def pyRepr : PyVal → Str
| .none => lit "None"
| .bool true => lit "True"
| .bool false => lit "False"
| .int n => intStr n
| .float x => floatRepr x
| .str s => reprStr s
| .list items =>
    cp '[' :: joinWith (lit ", ") (pyReprItems items) ++ [cp ']']
| .dict items =>
    lit "\x7b" ++ joinWith (lit ", ") (pyReprEntries items) ++
      lit "\x7d"

/- The items of a list, written out. -/
def pyReprItems : List PyVal → List Str
| [] => []
| v :: rest => pyRepr v :: pyReprItems rest

/- The entries of a mapping, written out. -/
def pyReprEntries : List (Str × PyVal) → List Str
| [] => []
| (k, v) :: rest =>
    (reprStr k ++ lit ": " ++ pyRepr v) :: pyReprEntries rest

end

/- `str(value)`. -/
def pyStr : PyVal → Str
| .str s => s
| v => pyRepr v

/- `bool(value)`. -/
def truthy : PyVal → Bool
| .none => false
| .bool b => b
| .int n => n != 0
| .float x => x != Float.ofBits 0
| .str s => s != []
| .list items => !items.isEmpty
| .dict items => !items.isEmpty

end Lib

---- Mappings

namespace Lib

section

variable {α : Type}

/- `mapping.get(key)` of a mapping as an association list. -/
@[grind =]
def lookup (key : Str) : List (Str × α) → Option α
| [] => none
| (k, v) :: rest => if k = key then some v else lookup key rest

/- `mapping[key] = value`. -/
@[grind =]
def setEntry
    (key : Str)
    (value : α) :
    List (Str × α) → List (Str × α)
| [] => [(key, value)]
| (k, v) :: rest =>
    if k = key then (k, value) :: rest
    else (k, v) :: setEntry key value rest

/- The mapping of entries that are set one after another. -/
def dictOf (entries : List (Str × α)) : List (Str × α) :=
  entries.foldl (fun d e => setEntry e.1 e.2 d) []

/- A value that is found is a value of the mapping. -/
theorem mem_of_lookup
    {key : Str} {entries : List (Str × α)} {value : α}
    (hFound : lookup key entries = some value) :
    (key, value) ∈ entries := by
  induction entries with
  | nil => cases hFound
  | cons entry rest ih =>
      rw [lookup] at hFound
      split at hFound
      · rename_i hSame
        cases hFound
        rw [← hSame]
        exact List.mem_cons_self
      · exact List.mem_cons_of_mem _ (ih hFound)

theorem lookup_setEntry
    (key key' : Str) (value : α) (d : List (Str × α)) :
    lookup key (setEntry key' value d) =
      if key' = key then some value else lookup key d := by
  induction d with
  | nil => rfl
  | cons e d ih =>
      rcases e with ⟨k, v⟩
      by_cases hFirst : k = key'
      · simp only [setEntry, if_pos hFirst, lookup]
        by_cases hKey : key' = key
        · rw [if_pos (hFirst.trans hKey), if_pos hKey]
        · rw [if_neg hKey]
          simp only [hFirst, if_neg hKey]
      · simp only [setEntry, lookup, if_neg hFirst, ih]
        by_cases hKey : key' = key
        · have hOther : k ≠ key :=
            fun h => hFirst (h.trans hKey.symm)
          rw [if_pos hKey, if_pos hKey, if_neg hOther]
        · rw [if_neg hKey, if_neg hKey]

theorem mem_of_mem_setEntry
    {key : Str} {value : α} {d : List (Str × α)} {e : Str × α}
    (hMem : e ∈ setEntry key value d) :
    e = (key, value) ∨ e ∈ d := by
  induction d with
  | nil =>
      rw [setEntry, List.mem_singleton] at hMem
      exact Or.inl hMem
  | cons first rest ih =>
      rw [setEntry] at hMem
      split at hMem
      · rename_i hKey
        rcases List.mem_cons.mp hMem with hHere | hLater
        · left
          rw [hHere, hKey]
        · exact Or.inr (List.mem_cons_of_mem _ hLater)
      · rcases List.mem_cons.mp hMem with hHere | hLater
        · right
          rw [hHere]
          exact List.mem_cons_self
        · rcases ih hLater with hNew | hOld
          · exact Or.inl hNew
          · exact Or.inr (List.mem_cons_of_mem _ hOld)

/- A mapping has no entry that was not set. -/
theorem mem_of_mem_dictOf
    {entries : List (Str × α)} {e : Str × α}
    (hMem : e ∈ dictOf entries) :
    e ∈ entries := by
  have hFold : ∀ (d : List (Str × α)),
      e ∈ entries.foldl (fun d e => setEntry e.1 e.2 d) d →
        e ∈ d ∨ e ∈ entries := by
    clear hMem
    induction entries with
    | nil =>
        intro d hMem
        exact Or.inl hMem
    | cons first rest ih =>
        intro d hMem
        rcases ih _ hMem with hSet | hLater
        · rcases mem_of_mem_setEntry hSet with hNew | hOld
          · right
            rw [hNew]
            exact List.mem_cons_self
          · exact Or.inl hOld
        · exact Or.inr (List.mem_cons_of_mem _ hLater)
  rcases hFold [] hMem with hNone | hSome
  · cases hNone
  · exact hSome

theorem mem_setEntry
    (key : Str) (value : α) (d : List (Str × α)) :
    (key, value) ∈ setEntry key value d := by
  induction d with
  | nil => exact List.mem_cons_self
  | cons first rest ih =>
      rw [setEntry]
      split
      · rename_i hKey
        rw [hKey]
        exact List.mem_cons_self
      · exact List.mem_cons_of_mem _ ih

/- Setting a key leaves the entries of the others. -/
theorem mem_setEntry_of_ne
    {key : Str}
    (value : α) {d : List (Str × α)} {e : Str × α} (hMem : e ∈ d)
    (hOther : e.1 ≠ key) :
    e ∈ setEntry key value d := by
  induction d with
  | nil => cases hMem
  | cons first rest ih =>
      rw [setEntry]
      split
      · rename_i hKey
        rcases List.mem_cons.mp hMem with hHere | hLater
        · rw [hHere] at hOther
          exact absurd hKey hOther
        · exact List.mem_cons_of_mem _ hLater
      · rcases List.mem_cons.mp hMem with hHere | hLater
        · rw [hHere]
          exact List.mem_cons_self
        · exact List.mem_cons_of_mem _ (ih hLater)

/- Where no key is set to two values, a mapping has the
entries that were set. -/
theorem mem_dictOf_iff
    {entries : List (Str × α)}
    (hSame :
      ∀ e ∈ entries, ∀ f ∈ entries, e.1 = f.1 → e = f)
    (e : Str × α) :
    e ∈ dictOf entries ↔ e ∈ entries := by
  constructor
  · exact mem_of_mem_dictOf
  · intro hMem
    have hFold : ∀ (d : List (Str × α)),
        (e ∈ d ∨ e ∈ entries) →
          (∀ f ∈ entries, e.1 = f.1 → e = f) →
            e ∈ entries.foldl
              (fun d e => setEntry e.1 e.2 d) d := by
      clear hSame hMem
      induction entries with
      | nil =>
          rintro d (hHere | hNone) _
          · exact hHere
          · cases hNone
      | cons first rest ih =>
          intro d hEither hAgree
          rw [List.forall_mem_cons] at hAgree
          rw [List.foldl_cons]
          refine ih _ ?_ hAgree.2
          by_cases hKey : e.1 = first.1
          · left
            rw [hAgree.1 hKey]
            exact mem_setEntry first.1 first.2 d
          · rcases hEither with hHere | hEntry
            · exact Or.inl (mem_setEntry_of_ne _ hHere hKey)
            · rcases List.mem_cons.mp hEntry with
                hFirst | hRest
              · rw [hFirst] at hKey
                exact absurd rfl hKey
              · exact Or.inr hRest
    exact hFold [] (Or.inr hMem) (hSame e hMem)

theorem setEntry_of_not_mem
    {key : Str}
    (value : α) {d : List (Str × α)} (hNew : key ∉ d.map Prod.fst) :
    setEntry key value d = d ++ [(key, value)] := by
  induction d with
  | nil => rfl
  | cons first rest ih =>
      rw [List.map_cons, List.mem_cons, not_or] at hNew
      rw [setEntry, if_neg (fun hSame => hNew.1 hSame.symm),
        ih hNew.2]
      rfl

/- Entries with distinct keys are the mapping they set. -/
theorem dictOf_of_nodup
    {entries : List (Str × α)}
    (hDistinct : (entries.map Prod.fst).Nodup) :
    dictOf entries = entries := by
  have hFold : ∀ (d : List (Str × α)),
      ((d ++ entries).map Prod.fst).Nodup →
        entries.foldl (fun d e => setEntry e.1 e.2 d) d =
          d ++ entries := by
    clear hDistinct
    induction entries with
    | nil =>
        intro d _
        rw [List.foldl_nil, List.append_nil]
    | cons first rest ih =>
        intro d hNodup
        have hNew : first.1 ∉ d.map Prod.fst := by
          rw [List.map_append, List.map_cons,
            List.nodup_append] at hNodup
          intro hMem
          exact hNodup.2.2 _ hMem _ List.mem_cons_self rfl
        rw [List.foldl_cons, setEntry_of_not_mem _ hNew,
          ih _ (by simpa using hNodup), List.append_assoc]
        rfl
  exact hFold [] hDistinct

end

---- Exceptions And Dates

/- The built-in exceptions a computation may raise. -/
inductive PyError where
| valueError
| typeError
| keyError
| overflowError
| databaseError
deriving DecidableEq, Repr

/- `datetime.fromisoformat` of a text that carries an offset,
as microseconds since the epoch; `none` where it raises
`ValueError`. -/
class IsoDates where
  fromIso : Str → Option Int

---- Database Values

/- A value of a database column. -/
inductive SqlVal where
| null
| integer (n : Int64)
| real (x : Float)
| text (s : Str)
deriving DecidableEq

/- The value a row yields for a column. -/
def SqlVal.value : SqlVal → PyVal
| .null => .none
| .integer n => .int n.toInt
| .real x => .float x
| .text s => .str s

/- `uuid4`, which gives no id twice. -/
structure Uuids where
  next : List Str → Str
  fresh : ∀ used, next used ∉ used

/- An id longer than those that are taken. -/
def longerIds : Uuids where
  next used := used.flatten ++ [0]
  fresh used hUsed := by
    have hLength := (List.sublist_flatten_of_mem hUsed).length_le
    simp at hLength

end Lib
