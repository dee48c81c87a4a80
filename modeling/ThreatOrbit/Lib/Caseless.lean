import ThreatOrbit.Lib.Regex

/-
  Words of a pattern without regard to case, greedy
  repetitions of a class, and a pattern that matches as
  another does wherever it matches.

  Key definitions:
    * `Regex.sameLetter`, `Regex.textI`, `Regex.wordI`
    * `Regex.oneOf`
    * `Regex.clash`, `Regex.PartOf`
-/

---- Case

namespace Lib

namespace Regex

/- The characters that stand for an ASCII character under
`re.I`: its two cases, and for `i`, `k` and `s` the
letters beyond ASCII that fold to them. -/
def sameLetter (x c : Nat) : Bool :=
  let small := asciiLower x
  asciiLower c == small ||
    (small == cp 'i' && (c == 0x130 || c == 0x131)) ||
    (small == cp 'k' && c == 0x212a) ||
    (small == cp 's' && c == 0x17f)

/- `[a-z]` under `re.I`. -/
def letterI (c : Nat) : Bool :=
  isAsciiLetter c || c == 0x130 || c == 0x131 ||
    c == 0x17f || c == 0x212a

/- The characters of a text, in either case. -/
def textI : Str → Regex
| [] => .empty
| x :: rest => .seq (.cls (sameLetter x)) (textI rest)

/- The characters of a literal, in either case. -/
def wordI (s : String) : Regex :=
  textI (lit s)

/- One of the patterns, in their order. -/
def oneOf : List Regex → Regex
| [] => .cls fun _ => false
| [a] => a
| a :: rest => .alt a (oneOf rest)

theorem run_oneOf
    (patterns : List Regex) (c : Cursor) :
    (oneOf patterns).run c =
      patterns.flatMap fun a => a.run c := by
  induction patterns with
  | nil =>
      rcases c with ⟨before, after, groups⟩
      cases after <;> rfl
  | cons a rest ih =>
      cases rest with
      | nil => simp [oneOf]
      | cons b rest =>
          have hOneOf :
              oneOf (a :: b :: rest) =
                .alt a (oneOf (b :: rest)) :=
            rfl
          rw [hOneOf, run, ih]
          rfl

theorem sameLetter_self (c : Nat) :
    sameLetter c c = true := by
  simp [sameLetter]

/- Two ASCII characters without case that stand for each
other are one. -/
theorem sameLetter_low
    {a b : Nat}
    (hA : asciiLower a = a) (hB : asciiLower b = b) (hLow : b < 128)
    (hSame : sameLetter a b = true) :
    b = a := by
  simp only [sameLetter, hA, hB, Bool.or_eq_true,
    Bool.and_eq_true, beq_iff_eq] at hSame
  omega

/- A word matches itself, in one way. -/
theorem run_textI_self
    (s before after : Str) (groups : List (Nat × Str)) :
    (textI s).run ⟨before, s ++ after, groups⟩ =
      [⟨s.reverse ++ before, after, groups⟩] := by
  induction s generalizing before with
  | nil => rfl
  | cons c rest ih =>
      rw [textI, run, List.cons_append, run]
      simp only [sameLetter_self, if_true, List.flatMap_cons,
        List.flatMap_nil, List.append_nil, ih]
      simp

theorem run_wordI_self
    (s : String) (before after : Str) (groups : List (Nat × Str)) :
    (wordI s).run ⟨before, lit s ++ after, groups⟩ =
      [⟨(lit s).reverse ++ before, after, groups⟩] :=
  run_textI_self (lit s) before after groups

/- A word goes on from a text that does not begin with it
only where the text begins with a part of it. -/
theorem run_textI_of_distinct
    {s t : Str} {x : Nat}
    (hPairs :
      ∀ a ∈ s, ∀ b ∈ t, sameLetter a b = true → b = a)
    (hStop : ∀ a ∈ s, sameLetter a x = false)
    (before after : Str)
    (groups : List (Nat × Str)) :
    (textI s).run ⟨before, t ++ x :: after, groups⟩ =
      if s <+: t then
        [⟨s.reverse ++ before,
          t.drop s.length ++ x :: after, groups⟩]
      else [] := by
  induction s generalizing before t with
  | nil => simp [textI, run]
  | cons a s ih =>
      rw [List.forall_mem_cons] at hPairs hStop
      cases t with
      | nil => simp [textI, run, hStop.1]
      | cons b t =>
          rw [textI, run, List.cons_append, run]
          dsimp only
          by_cases hSame : sameLetter a b = true
          · have hB := hPairs.1 b List.mem_cons_self hSame
            subst hB
            have hRest :
                ∀ a ∈ s, ∀ b ∈ t, sameLetter a b = true →
                  b = a :=
              fun a hA b hB =>
                hPairs.2 a hA b (List.mem_cons_of_mem _ hB)
            rw [if_pos hSame, List.flatMap_cons,
              List.flatMap_nil, List.append_nil,
              ih hRest hStop.2]
            simp [List.prefix_cons_iff]
          · have hOther : ¬ (a :: s) <+: b :: t := by
              intro hPrefix
              rw [List.cons_prefix_cons] at hPrefix
              rw [hPrefix.1] at hSame
              exact hSame (sameLetter_self b)
            rw [if_neg hSame, if_neg hOther]
            rfl

/- A word does not match where its first character does
not. -/
theorem run_word_nil
    {w : String} {c : Char} {rest : List Char}
    (hWord : w.toList = c :: rest) {x : Nat} (hOther : x ≠ cp c)
    (before after : Str) (groups : List (Nat × Str)) :
    (word w).run ⟨before, x :: after, groups⟩ = [] := by
  unfold word
  rw [hWord, List.foldr_cons]
  apply run_seq_nil
  simp [chr, run, hOther]

---- Greedy Repetition

/- A greedy repetition of a class takes all of it first. -/
theorem run_star_greedy_cons
    (p : Nat → Bool) (c : Cursor) :
    ∃ more, (Regex.star true (.cls p)).run c =
      c.skip p :: more := by
  rcases c with ⟨before, after, groups⟩
  induction after generalizing before with
  | nil =>
      rw [run_star_cls_nil]
      exact ⟨[], rfl⟩
  | cons x rest ih =>
      rw [run_star_cls_cons]
      cases hClass : p x with
      | false => simp [Cursor.skip, hClass]
      | true =>
          rcases ih (x :: before) with ⟨more, hMore⟩
          refine ⟨more ++ [⟨before, x :: rest, groups⟩], ?_⟩
          simp [hMore, Cursor.skip, hClass]

/- The first of the ways a pattern goes on from a list of
cursors is from the first of them, where it does. -/
theorem head?_flatMap_of_first
    {f : Cursor → List Cursor} {c d : Cursor} {more : List Cursor}
    (hFirst : (f c).head? = some d) :
    ((c :: more).flatMap f).head? = some d := by
  rw [List.flatMap_cons, List.head?_append, hFirst]
  rfl

---- A Pattern That Is Part Of Another

/- Wherever the one matches, it matches as the other does. -/
def PartOf (q r : Regex) : Prop :=
  ∀ c, q.run c = [] ∨ q.run c = r.run c

/- A word matches where the text begins with it. -/
theorem run_word_cases
    (w : String) (c : Cursor) :
    (word w).run c = [] ∨ ∃ rest, c.after = lit w ++ rest := by
  unfold word lit
  induction w.toList generalizing c with
  | nil => exact Or.inr ⟨c.after, rfl⟩
  | cons x rest ih =>
      rcases c with ⟨before, after, groups⟩
      rw [List.foldr_cons, run]
      cases after with
      | nil => exact Or.inl rfl
      | cons y after =>
          by_cases hSame : y = cp x
          · subst hSame
            have hFirst :
                (chr x).run ⟨before, cp x :: after, groups⟩ =
                  [⟨cp x :: before, after, groups⟩] := by
              simp [chr, run]
            rw [hFirst, List.flatMap_cons, List.flatMap_nil,
              List.append_nil]
            rcases ih ⟨cp x :: before, after, groups⟩ with
              hNone | ⟨tail, hTail⟩
            · exact Or.inl hNone
            · refine Or.inr ⟨tail, ?_⟩
              dsimp only at hTail
              rw [hTail]
              rfl
          · left
            simp [chr, run, hSame]

theorem run_word_self
    (s : String) (before after : Str) (groups : List (Nat × Str)) :
    (word s).run ⟨before, lit s ++ after, groups⟩ =
      [⟨(lit s).reverse ++ before, after, groups⟩] := by
  unfold word lit
  induction s.toList generalizing before with
  | nil => rfl
  | cons x rest ih =>
      have hFirst :
          (chr x).run
              ⟨before, cp x :: (rest.map Char.toNat ++ after),
                groups⟩ =
            [⟨cp x :: before, rest.map Char.toNat ++ after,
              groups⟩] := by
        simp [chr, run]
      rw [List.foldr_cons, run, List.map_cons, List.cons_append,
        hFirst, List.flatMap_cons, List.flatMap_nil,
        List.append_nil, ih]
      simp

/- Two texts differ, even without their case, before either
ends. -/
def clash : Str → Str → Bool
| a :: s, b :: t => !sameLetter a b || clash s t
| _, _ => false

theorem run_textI_clash
    {s t : Str}
    (hClash : clash s t = true) (before after : Str)
    (groups : List (Nat × Str)) :
    (textI s).run ⟨before, t ++ after, groups⟩ = [] := by
  induction s generalizing t before with
  | nil => cases hClash
  | cons a s ih =>
      cases t with
      | nil => cases hClash
      | cons b t =>
          rw [textI, run, List.cons_append, run]
          dsimp only
          cases hSame : sameLetter a b with
          | false => simp
          | true =>
              rw [clash, hSame, Bool.not_true,
                Bool.false_or] at hClash
              simp [ih hClash]

theorem run_wordI_clash
    {s t : String}
    (hClash : clash (lit s) (lit t) = true) (before after : Str)
    (groups : List (Nat × Str)) :
    (wordI s).run ⟨before, lit t ++ after, groups⟩ = [] :=
  run_textI_clash hClash before after groups

theorem append_ne_of_clash
    {s t : Str}
    (hClash : clash s t = true) (x y : Str) :
    t ++ x ≠ s ++ y := by
  induction s generalizing t with
  | nil => cases hClash
  | cons a s ih =>
      cases t with
      | nil => cases hClash
      | cons b t =>
          intro hSame
          rw [List.cons_append, List.cons_append,
            List.cons.injEq] at hSame
          rw [clash, hSame.1, sameLetter_self, Bool.not_true,
            Bool.false_or] at hClash
          exact ih hClash hSame.2

theorem run_word_clash
    {s t : String}
    (hClash : clash (lit s) (lit t) = true) (before after : Str)
    (groups : List (Nat × Str)) :
    (word s).run ⟨before, lit t ++ after, groups⟩ = [] := by
  rcases run_word_cases s ⟨before, lit t ++ after, groups⟩ with
    hNone | ⟨rest, hRest⟩
  · exact hNone
  · exact absurd hRest (append_ne_of_clash hClash after rest)

/- Where the other pattern finds nothing, neither does a part
of it. -/
theorem PartOf.searchFrom_none
    {q r : Regex}
    (hPart : q.PartOf r) {before s : Str}
    (hNone : r.searchFrom before s = none) :
    q.searchFrom before s = none := by
  have hHere (c : Cursor) (hC : r.matchAt c = none) :
      q.matchAt c = none := by
    unfold matchAt at hC ⊢
    rcases hPart c with hNil | hSame
    · rw [hNil]
      rfl
    · rw [hSame]
      exact hC
  induction s generalizing before with
  | nil =>
      unfold searchFrom at hNone ⊢
      exact hHere _ hNone
  | cons x rest ih =>
      unfold searchFrom at hNone ⊢
      cases hMatch : r.matchAt ⟨before, x :: rest, []⟩ with
      | some m =>
          rw [hMatch] at hNone
          cases hNone
      | none =>
          rw [hMatch] at hNone
          rw [hHere _ hMatch]
          exact ih hNone

/- A part that matches where the other pattern is found is
found there. -/
theorem PartOf.searchFrom_some
    {q r : Regex}
    (hPart : q.PartOf r) {before s : Str} {m : Match}
    (hFound : r.searchFrom before s = some m)
    (hHere : q.run m.start ≠ []) :
    q.searchFrom before s = some m := by
  have hMatchAt (c : Cursor) (hC : r.matchAt c = some m) :
      q.matchAt c = some m := by
    have hStart : m.start = c := by
      unfold matchAt at hC
      rcases Option.map_eq_some_iff.mp hC with ⟨stop, _, hIs⟩
      rw [← hIs]
    unfold matchAt at hC ⊢
    rcases hPart c with hNil | hSame
    · rw [hStart] at hHere
      exact absurd hNil hHere
    · rw [hSame]
      exact hC
  have hNoMatch (c : Cursor) (hC : r.matchAt c = none) :
      q.matchAt c = none := by
    unfold matchAt at hC ⊢
    rcases hPart c with hNil | hSame
    · rw [hNil]
      rfl
    · rw [hSame]
      exact hC
  induction s generalizing before with
  | nil =>
      unfold searchFrom at hFound ⊢
      exact hMatchAt _ hFound
  | cons x rest ih =>
      unfold searchFrom at hFound ⊢
      cases hMatch : r.matchAt ⟨before, x :: rest, []⟩ with
      | some n =>
          rw [hMatch] at hFound
          dsimp only at hFound
          rw [Option.some.injEq] at hFound
          subst hFound
          rw [hMatchAt _ hMatch]
      | none =>
          rw [hMatch] at hFound
          rw [hNoMatch _ hMatch]
          exact ih hFound

/- What a search finds is the first way to match where it
starts. -/
theorem run_of_searchFrom
    {r : Regex} {before s : Str} {m : Match}
    (hFound : r.searchFrom before s = some m) :
    (r.run m.start).head? = some m.stop := by
  have hMatchAt (c : Cursor) (hC : r.matchAt c = some m) :
      (r.run m.start).head? = some m.stop := by
    unfold matchAt at hC
    rcases Option.map_eq_some_iff.mp hC with ⟨stop, hHead, hIs⟩
    rw [← hIs]
    exact hHead
  induction s generalizing before with
  | nil =>
      unfold searchFrom at hFound
      exact hMatchAt _ hFound
  | cons x rest ih =>
      unfold searchFrom at hFound
      cases hMatch : r.matchAt ⟨before, x :: rest, []⟩ with
      | some n =>
          rw [hMatch] at hFound
          dsimp only at hFound
          rw [Option.some.injEq] at hFound
          subst hFound
          exact hMatchAt _ hMatch
      | none =>
          rw [hMatch] at hFound
          exact ih hFound

/- It is a part also with something after it. -/
theorem PartOf.seq
    {q r : Regex}
    (hPart : q.PartOf r) (s : Regex) :
    (Regex.seq q s).PartOf (Regex.seq r s) := by
  intro c
  rw [run, run]
  rcases hPart c with hNil | hSame
  · left
    rw [hNil]
    rfl
  · right
    rw [hSame]

theorem PartOf.group
    {q r : Regex}
    (hPart : q.PartOf r) (i : Nat) :
    (Regex.group i q).PartOf (Regex.group i r) := by
  intro c
  rw [run, run]
  rcases hPart c with hNil | hSame
  · left
    rw [hNil]
    rfl
  · right
    rw [hSame]

end Regex

end Lib
