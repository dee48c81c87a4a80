import ThreatOrbit.Lib.Python

/-
  Words of a shell: how they are quoted, and how a text of
  words is split.

  Key definitions:
    * `shellQuote`, `shellSplit`
-/

---- Quoting

namespace Lib

/- A character that needs no quotes. -/
def isPlain (c : Nat) : Bool :=
  isDigit c || isAsciiLetter c || (lit "_@%+=:,./-").contains c

/- `shlex.quote`. -/
def shellQuote (s : Str) : Str :=
  if s = [] then lit "''"
  else if s.all isPlain then s
  else lit "'" ++ replaceAll (lit "'") (lit "'\"'\"'") s ++ lit "'"

---- Splitting

/- Where the reader of words is: between two words, in a
word, between quotes, or past a backslash, with the quote
that it stands between. -/
inductive ShellState where
| blank
| word
| quoted (quote : Nat)
| escaped (quote : Option Nat)
deriving DecidableEq, Repr

def isShellSpace (c : Nat) : Bool :=
  (lit " \t\r\n").contains c

def isQuote (c : Nat) : Bool :=
  c == cp '\'' || c == cp '"'

/- The reader, with the characters of the word so far. -/
@[grind =]
def shellRead : ShellState → Str → Str → Option (List Str)
| .blank, _, [] => some []
| .blank, _, c :: rest =>
    if isShellSpace c then shellRead .blank [] rest
    else if c = cp '\\' then shellRead (.escaped none) [] rest
    else if isQuote c then shellRead (.quoted c) [] rest
    else shellRead .word [c] rest
| .word, token, [] => some [token]
| .word, token, c :: rest =>
    if isShellSpace c then
      (shellRead .blank [] rest).map (token :: ·)
    else if isQuote c then shellRead (.quoted c) token rest
    else if c = cp '\\' then
      shellRead (.escaped none) token rest
    else shellRead .word (token ++ [c]) rest
| .quoted _, _, [] => none
| .quoted quote, token, c :: rest =>
    if c = quote then shellRead .word token rest
    else if c = cp '\\' && quote = cp '"' then
      shellRead (.escaped (some quote)) token rest
    else shellRead (.quoted quote) (token ++ [c]) rest
| .escaped _, _, [] => none
| .escaped none, token, c :: rest =>
    shellRead .word (token ++ [c]) rest
| .escaped (some quote), token, c :: rest =>
    let kept :=
      if c ≠ cp '\\' ∧ c ≠ quote then token ++ [cp '\\']
      else token
    shellRead (.quoted quote) (kept ++ [c]) rest

/- `shlex.split`, `none` where it raises. -/
def shellSplit (s : Str) : Option (List Str) :=
  shellRead .blank [] s

/- The word so far, if it has characters. -/
def wordOf (token : Str) : List Str :=
  if token = [] then [] else [token]

/- The words between white space, with the characters of the
first so far. -/
@[grind =]
def spaceRead : Str → Str → List Str
| token, [] => wordOf token
| token, c :: rest =>
    if isSpace c then wordOf token ++ spaceRead [] rest
    else spaceRead (token ++ [c]) rest

/- `text.split()`. -/
def spaceSplit (s : Str) : List Str :=
  spaceRead [] s

---- Quoted Words Are Read Back

theorem lt_of_isPlain
    {c : Nat}
    (hPlain : isPlain c = true) :
    c < 128 := by
  have hNine : cp '9' = 57 := rfl
  have hZ : cp 'z' = 122 := rfl
  have hBigZ : cp 'Z' = 90 := rfl
  have hOthers : ∀ c ∈ lit "_@%+=:,./-", c < 128 := by
    decide
  simp only [isPlain, isDigit, isAsciiLetter, Bool.or_eq_true,
    Bool.and_eq_true, decide_eq_true_eq] at hPlain
  rcases hPlain with (hDigit | hLetter) | hOther
  · omega
  · omega
  · exact hOthers c (List.contains_iff_mem.mp hOther)

/- A plain character is no part of the syntax. -/
theorem syntax_of_isPlain
    {c : Nat}
    (hPlain : isPlain c = true) :
    isShellSpace c = false ∧ isQuote c = false ∧
      c ≠ cp '\\' := by
  have hAll :
      ∀ c < 128, isPlain c = true →
        isShellSpace c = false ∧ isQuote c = false ∧
          c ≠ cp '\\' := by
    decide
  exact hAll c (lt_of_isPlain hPlain) hPlain

theorem shellRead_plain
    {s : Str}
    (hPlain : s.all isPlain = true) (token rest : Str) :
    shellRead .word token (s ++ rest) =
      shellRead .word (token ++ s) rest := by
  induction s generalizing token with
  | nil => simp
  | cons c s ih =>
      simp only [List.all_cons, Bool.and_eq_true] at hPlain
      rcases syntax_of_isPlain hPlain.1 with
        ⟨hSpace, hQuote, hSlash⟩
      rw [List.cons_append, shellRead, hSpace, hQuote]
      simp only [Bool.false_eq_true, if_false, if_neg hSlash]
      rw [ih hPlain.2, List.append_assoc]
      rfl

/- Between single quotes only a single quote is special, and
it stands between double ones. -/
theorem shellRead_quoted
    (s token rest : Str) :
    shellRead (.quoted (cp '\'')) token
        (replaceAll (lit "'") (lit "'\"'\"'") s ++
          (lit "'" ++ rest)) =
      shellRead .word (token ++ s) rest := by
  have hReplace : replaceAll (lit "'") (lit "'\"'\"'") s = _ :=
    replaceAll_singleton (cp '\'') (lit "'\"'\"'") s
  rw [hReplace]
  clear hReplace
  induction s generalizing token with
  | nil =>
      rw [List.append_nil]
      rfl
  | cons c s ih =>
      rw [List.flatMap_cons, List.append_assoc]
      by_cases hC : c = cp '\''
      · subst hC
        rw [if_pos rfl]
        have hRead := ih (token ++ [cp '\''])
        rw [List.append_assoc] at hRead
        exact hRead
      · have hNotDouble : cp '\'' ≠ cp '"' := by decide
        rw [if_neg hC, List.singleton_append, shellRead,
          if_neg hC]
        simp only [hNotDouble, decide_false, Bool.and_false,
          Bool.false_eq_true, if_false]
        rw [ih, List.append_assoc]
        rfl

/- A quoted word is read as the word. -/
theorem shellRead_shellQuote
    (s rest : Str) :
    shellRead .blank [] (shellQuote s ++ rest) =
      shellRead .word s rest := by
  unfold shellQuote
  split
  · rename_i hNil
    rw [hNil]
    rfl
  · rename_i hSome
    split
    · rename_i hPlain
      cases s with
      | nil => exact absurd rfl hSome
      | cons c s =>
          simp only [List.all_cons, Bool.and_eq_true] at hPlain
          rcases syntax_of_isPlain hPlain.1 with
            ⟨hSpace, hQuote, hSlash⟩
          rw [List.cons_append, shellRead, hSpace, hQuote]
          simp only [Bool.false_eq_true, if_false,
            if_neg hSlash]
          rw [shellRead_plain hPlain.2]
          rfl
    · rw [List.append_assoc, List.append_assoc]
      exact shellRead_quoted s [] rest

/- Words are read back from their quotations. -/
theorem shellSplit_joinWith
    (words : List Str) :
    shellSplit (joinWith (lit " ") (words.map shellQuote)) =
      some words := by
  unfold shellSplit
  induction words with
  | nil => rfl
  | cons word words ih =>
      cases words with
      | nil =>
          have hRead := shellRead_shellQuote word []
          rw [List.append_nil] at hRead
          exact hRead
      | cons next words =>
          rw [List.map_cons, List.map_cons, joinWith,
            List.append_assoc, shellRead_shellQuote]
          · rw [List.map_cons] at ih
            have hSpace :
                shellRead .word word (lit " " ++
                    joinWith (lit " ") (shellQuote next ::
                      words.map shellQuote)) =
                  (shellRead .blank []
                    (joinWith (lit " ") (shellQuote next ::
                      words.map shellQuote))).map
                        (word :: ·) :=
              rfl
            rw [hSpace, ih]
            rfl
          · simp

---- The Characters Of Words

/- What the reader does at a character: it goes on with the
characters it has and at most this one and a backslash, or
it ends the word. -/
theorem shellRead_step
    (state : ShellState) (token : Str) (c : Nat) (rest : Str) :
    (∃ next kept,
        shellRead state token (c :: rest) =
          shellRead next kept rest ∧
        ∀ x ∈ kept, x ∈ token ∨ x = c ∨ x = cp '\\') ∨
      shellRead state token (c :: rest) =
        (shellRead .blank [] rest).map (token :: ·) := by
  have hNone (x : Nat) (hX : x ∈ ([] : Str)) :
      x ∈ token ∨ x = c ∨ x = cp '\\' := by
    cases hX
  have hSame (x : Nat) (hX : x ∈ token) :
      x ∈ token ∨ x = c ∨ x = cp '\\' :=
    Or.inl hX
  have hMore (x : Nat) (hX : x ∈ token ++ [c]) :
      x ∈ token ∨ x = c ∨ x = cp '\\' := by
    rcases List.mem_append.mp hX with hOld | hNew
    · exact Or.inl hOld
    · exact Or.inr (Or.inl (List.mem_singleton.mp hNew))
  cases state with
  | blank =>
      left
      rw [shellRead]
      split
      · exact ⟨_, _, rfl, hNone⟩
      · split
        · exact ⟨_, _, rfl, hNone⟩
        · split
          · exact ⟨_, _, rfl, hNone⟩
          · refine ⟨_, _, rfl, ?_⟩
            intro x hX
            exact Or.inr (Or.inl (List.mem_singleton.mp hX))
  | word =>
      rw [shellRead]
      split
      · exact Or.inr rfl
      · left
        split
        · exact ⟨_, _, rfl, hSame⟩
        · split
          · exact ⟨_, _, rfl, hSame⟩
          · exact ⟨_, _, rfl, hMore⟩
  | quoted quote =>
      left
      rw [shellRead]
      split
      · exact ⟨_, _, rfl, hSame⟩
      · split
        · exact ⟨_, _, rfl, hSame⟩
        · exact ⟨_, _, rfl, hMore⟩
  | escaped quote =>
      left
      cases quote with
      | none => exact ⟨_, _, rfl, hMore⟩
      | some quote =>
          refine ⟨_, _, rfl, ?_⟩
          intro x hX
          rcases List.mem_append.mp hX with hOld | hNew
          · split at hOld
            · rcases List.mem_append.mp hOld with hOld | hSlash
              · exact Or.inl hOld
              · exact Or.inr
                  (Or.inr (List.mem_singleton.mp hSlash))
            · exact Or.inl hOld
          · exact Or.inr (Or.inl (List.mem_singleton.mp hNew))

/- The words of a text are made of its characters, and of
backslashes. -/
theorem shellRead_forall
    {p : Nat → Prop}
    (hSlash : p (cp '\\'))
    {state : ShellState} {token s : Str} {words : List Str}
    (hToken : ∀ c ∈ token, p c) (hText : ∀ c ∈ s, p c)
    (hRead : shellRead state token s = some words) :
    ∀ word ∈ words, ∀ c ∈ word, p c := by
  induction s generalizing state token words with
  | nil =>
      cases state with
      | blank =>
          cases hRead
          simp
      | word =>
          cases hRead
          simpa using hToken
      | quoted quote => cases hRead
      | escaped quote => cases hRead
  | cons c rest ih =>
      rw [List.forall_mem_cons] at hText
      rcases shellRead_step state token c rest with
        ⟨next, kept, hStep, hKept⟩ | hStep
      · rw [hStep] at hRead
        refine ih ?_ hText.2 hRead
        intro x hX
        rcases hKept x hX with hOld | rfl | rfl
        · exact hToken x hOld
        · exact hText.1
        · exact hSlash
      · rw [hStep, Option.map_eq_some_iff] at hRead
        rcases hRead with ⟨others, hOthers, rfl⟩
        rw [List.forall_mem_cons]
        exact ⟨hToken, ih (by simp) hText.2 hOthers⟩

theorem shellSplit_forall
    {p : Nat → Prop}
    (hSlash : p (cp '\\')) {s : Str} {words : List Str}
    (hText : ∀ c ∈ s, p c) (hSplit : shellSplit s = some words) :
    ∀ word ∈ words, ∀ c ∈ word, p c :=
  shellRead_forall hSlash (by simp) hText hSplit

theorem spaceRead_forall
    {p : Nat → Prop} {token s : Str}
    (hToken : ∀ c ∈ token, p c) (hText : ∀ c ∈ s, p c) :
    ∀ word ∈ spaceRead token s, ∀ c ∈ word, p c := by
  have hWord {token : Str} (hToken : ∀ c ∈ token, p c) :
      ∀ word ∈ wordOf token, ∀ c ∈ word, p c := by
    unfold wordOf
    split
    · simp
    · simpa using hToken
  induction s generalizing token with
  | nil => exact hWord hToken
  | cons c rest ih =>
      rw [List.forall_mem_cons] at hText
      rw [spaceRead]
      split
      · rw [List.forall_mem_append]
        exact ⟨hWord hToken, ih (by simp) hText.2⟩
      · refine ih ?_ hText.2
        rw [List.forall_mem_append]
        exact ⟨hToken, by simpa using hText.1⟩

theorem spaceSplit_forall
    {p : Nat → Prop} {s : Str}
    (hText : ∀ c ∈ s, p c) :
    ∀ word ∈ spaceSplit s, ∀ c ∈ word, p c :=
  spaceRead_forall (by simp) hText

---- The Ends Of Quoted Words

/- A text that no white space begins or ends. -/
def Tight (s : Str) : Prop :=
  s ≠ [] ∧ (∀ c ∈ s.head?, isSpace c = false) ∧
    ∀ c ∈ s.getLast?, isSpace c = false

theorem strip_of_tight
    {s : Str}
    (hTight : Tight s) :
    strip s = s := by
  rcases hTight with ⟨hSome, hHead, hLast⟩
  have hFront : s.dropWhile isSpace = s := by
    cases s with
    | nil => rfl
    | cons c rest =>
        rw [List.dropWhile_cons, hHead c rfl]
        rfl
  have hBack : s.reverse.dropWhile isSpace = s.reverse := by
    have hHeadBack : ∀ c ∈ s.reverse.head?, isSpace c = false := by
      rw [List.head?_reverse]
      exact hLast
    cases hReverse : s.reverse with
    | nil => rfl
    | cons c rest =>
        rw [hReverse] at hHeadBack
        rw [List.dropWhile_cons, hHeadBack c rfl]
        rfl
  unfold strip stripBy
  rw [hFront, hBack, List.reverse_reverse]

theorem Tight.append
    {s t : Str}
    (hS : Tight s) (hT : Tight t) (mid : Str) :
    Tight (s ++ mid ++ t) := by
  refine ⟨?_, ?_, ?_⟩
  · simp [hS.1]
  · rw [List.append_assoc, List.head?_append_of_ne_nil _ hS.1]
    exact hS.2.1
  · rw [List.getLast?_append_of_ne_nil _ hT.1]
    exact hT.2.2

theorem tight_shellQuote (s : Str) :
    Tight (shellQuote s) := by
  unfold shellQuote
  split
  · exact ⟨by decide, by decide, by decide⟩
  · rename_i hSome
    split
    · rename_i hPlain
      have hEach : ∀ c ∈ s, isSpace c = false := by
        intro c hC
        have hIs := List.all_eq_true.mp hPlain c hC
        have hAll :
            ∀ c < 128, isPlain c = true → isSpace c = false := by
          decide +kernel
        exact hAll c (lt_of_isPlain hIs) hIs
      exact ⟨hSome,
        fun c hC => hEach c (List.mem_of_mem_head? hC),
        fun c hC => hEach c (List.mem_of_mem_getLast? hC)⟩
    · have hQuote : Tight (lit "'") :=
        ⟨by decide, by decide, by decide⟩
      exact hQuote.append hQuote _

theorem tight_joinWith
    {words : List Str}
    (hSome : words ≠ []) (hWords : ∀ word ∈ words, Tight word) :
    Tight (joinWith (lit " ") words) := by
  induction words with
  | nil => exact absurd rfl hSome
  | cons word words ih =>
      rw [List.forall_mem_cons] at hWords
      cases words with
      | nil => exact hWords.1
      | cons next words =>
          exact hWords.1.append
            (ih (List.cons_ne_nil _ _) hWords.2) _

theorem mem_shellQuote
    {c : Nat} {s : Str}
    (hMem : c ∈ shellQuote s) :
    c ∈ s ∨ isQuote c = true := by
  have hQuotes : ∀ c ∈ lit "'\"'\"'", isQuote c = true := by
    decide
  unfold shellQuote at hMem
  split at hMem
  · exact Or.inr (hQuotes c (by
      revert hMem c
      decide))
  · split at hMem
    · exact Or.inl hMem
    · have hReplace :
          replaceAll (lit "'") (lit "'\"'\"'") s = _ :=
        replaceAll_singleton (cp '\'') (lit "'\"'\"'") s
      rw [hReplace, List.mem_append, List.mem_append,
        List.mem_flatMap] at hMem
      rcases hMem with (hFirst | ⟨d, hD, hIn⟩) | hLast
      · exact Or.inr (hQuotes c (List.mem_append_left _ hFirst))
      · split at hIn
        · exact Or.inr (hQuotes c hIn)
        · rw [List.mem_singleton.mp hIn]
          exact Or.inl hD
      · exact Or.inr (hQuotes c (List.mem_append_left _ hLast))

end Lib
