import ThreatOrbit.Lib.Python

/-
  Regular expressions with backtracking, as `re` runs them.

  A fixed pattern is a `Regex`; `Regex.run` lists the ways it
  matches at a cursor, in the order in which a backtracking
  matcher tries them, so that the first is the match `re`
  reports. Patterns that are data are known to the program
  only as texts, and what `re` does with them is a
  `RegexEngine`.

  Key definitions:
    * `Regex`, `Cursor`, `Regex.run`
    * `Regex.search`, `Regex.split`
    * `reEscape`, `RegexEngine`
-/

---- Patterns

namespace Lib

inductive Regex where
| empty
| cls (p : Nat → Bool)
| seq (a b : Regex)
| alt (a b : Regex)
| star (greedy : Bool) (a : Regex)
| group (i : Nat) (a : Regex)
| ahead (a : Regex)
| assert (p : Str → Str → Bool)

namespace Regex

/- One character. -/
def chr (c : Char) : Regex :=
  .cls (· == cp c)

/- The characters of a text, in order. -/
def word (s : String) : Regex :=
  s.toList.foldr (fun c r => .seq (chr c) r) .empty

/- `(a)+`. -/
def plus (a : Regex) : Regex :=
  .seq a (.star true a)

/- `(a)?`. -/
def opt (a : Regex) : Regex :=
  .alt a .empty

/- The patterns one after another. -/
def cat : List Regex → Regex
| [] => .empty
| a :: rest => .seq a (cat rest)

/- `\w` in a pattern of texts. -/
def isWord [Unicode] (c : Nat) : Bool :=
  Unicode.isAlnum c || c == cp '_'

/- `\d`. -/
def isDecimal (c : Nat) : Bool :=
  (decimal c).isSome

/- `$`: at the end, or before a newline at the end. -/
def atEnd : Regex :=
  .assert fun _ after => after == [] || after == [10]

/- `\b`: between a word character and none. -/
def wordBoundary [Unicode] : Regex :=
  .assert fun before after =>
    (before.head?.map isWord).getD false !=
      (after.head?.map isWord).getD false

end Regex

end Lib

---- Matching

namespace Lib

/- A place in a text: what is before it, last character
first, what is after it, and the groups matched so far,
latest first. -/
structure Cursor where
  before : Str
  after : Str
  groups : List (Nat × Str)
deriving DecidableEq, Repr

/- The start of a text. -/
def Cursor.start (s : Str) : Cursor :=
  ⟨[], s, []⟩

/- The text between two cursors. -/
def Cursor.upto (c d : Cursor) : Str :=
  c.after.take (c.after.length - d.after.length)

/- A repetition, in the order of preference. -/
@[grind =]
def iterate
    (greedy : Bool)
    (step : Cursor → List Cursor) :
    Nat → Cursor → List Cursor
| 0, c => [c]
| n + 1, c =>
    let more := (step c).flatMap fun d =>
      if d.after.length < c.after.length then
        iterate greedy step n d
      else []
    if greedy then more ++ [c] else c :: more

namespace Regex

/- The ways a pattern matches at a cursor. -/
@[grind =]
def run : Regex → Cursor → List Cursor
| .empty, c => [c]
| .cls p, c =>
    match c.after with
    | x :: rest =>
        if p x then [⟨x :: c.before, rest, c.groups⟩] else []
    | [] => []
| .seq a b, c => (a.run c).flatMap b.run
| .alt a b, c => a.run c ++ b.run c
| .star greedy a, c =>
    iterate greedy a.run c.after.length c
| .group i a, c =>
    (a.run c).map fun d =>
      { d with groups := (i, c.upto d) :: d.groups }
| .ahead a, c => if a.run c = [] then [] else [c]
| .assert p, c => if p c.before c.after then [c] else []

/- A match: where it starts and where it ends. -/
structure Match where
  start : Cursor
  stop : Cursor
deriving DecidableEq, Repr

/- The text of a match. -/
def Match.text (m : Match) : Str :=
  m.start.upto m.stop

/- The text of a group, if it took part in the match. -/
def Match.group (m : Match) (i : Nat) : Option Str :=
  (m.stop.groups.find? (fun g => g.1 == i)).map Prod.snd

/- `match` at a cursor. -/
def matchAt (r : Regex) (c : Cursor) : Option Match :=
  (r.run c).head?.map (⟨c, ·⟩)

/- The leftmost match from a cursor on. -/
@[grind =]
def searchFrom
    (r : Regex)
    (before : Str) :
    Str → Option Match
| [] => r.matchAt ⟨before, [], []⟩
| x :: rest =>
    match r.matchAt ⟨before, x :: rest, []⟩ with
    | some m => some m
    | none => r.searchFrom (x :: before) rest

/- `pattern.search(text)`. -/
def search (r : Regex) (s : Str) : Option Match :=
  r.searchFrom [] s

/- Whether `pattern.search(text)` finds a match. -/
def found (r : Regex) (s : Str) : Bool :=
  (r.search s).isSome

/- `pattern.fullmatch(text)`. -/
def fullMatch (r : Regex) (s : Str) : Option Match :=
  ((r.run (.start s)).find? (fun c => c.after == [])).map
    (⟨.start s, ·⟩)

/- The matches of a text from left to right, none of them
empty: after a match the search resumes at its end. -/
@[grind =]
def matchesFrom
    (r : Regex) :
    Nat → Str → Str → List Match
| 0, _, _ => []
| n + 1, before, after =>
    match r.searchFrom before after with
    | some m =>
        if m.stop.after.length < m.start.after.length then
          m :: r.matchesFrom n m.stop.before m.stop.after
        else []
    | none => []

/- `pattern.finditer(text)` of a pattern that matches no
empty text. -/
def findIter (r : Regex) (s : Str) : List Match :=
  r.matchesFrom s.length [] s

/- The texts between the matches. -/
def between (s : Str) : List Match → List Str
| [] => [s]
| m :: rest =>
    s.take (s.length - m.start.after.length) ::
      between m.stop.after rest

/- `pattern.split(text)` of a pattern without groups that
matches no empty text. -/
def split (r : Regex) (s : Str) : List Str :=
  between s (r.findIter s)

end Regex

end Lib

---- No Match

namespace Lib

namespace Regex

/- The place after some characters of a text. -/
def placeAt (s : Str) (i : Nat) : Cursor :=
  ⟨(s.take i).reverse, s.drop i, []⟩

theorem searchFrom_none
    {r : Regex} {s before : Str}
    (hNone :
      ∀ i ≤ s.length,
        r.run ⟨(s.take i).reverse ++ before, s.drop i, []⟩ =
          []) :
    r.searchFrom before s = none := by
  induction s generalizing before with
  | nil =>
      have hHere := hNone 0 (le_refl _)
      unfold searchFrom matchAt
      rw [List.take_nil, List.drop_nil] at hHere
      rw [show r.run ⟨before, [], []⟩ = [] from hHere]
      rfl
  | cons x rest ih =>
      have hHere := hNone 0 (Nat.zero_le _)
      unfold searchFrom matchAt
      rw [show r.run ⟨before, x :: rest, []⟩ = [] from hHere]
      apply ih
      intro i hI
      have hNext := hNone (i + 1) (Nat.succ_le_succ hI)
      rw [List.take_succ_cons, List.drop_succ_cons,
        List.reverse_cons, List.append_assoc] at hNext
      exact hNext

theorem search_none
    {r : Regex} {s : Str}
    (hNone : ∀ i ≤ s.length, r.run (placeAt s i) = []) :
    r.search s = none := by
  apply searchFrom_none
  intro i hI
  rw [List.append_nil]
  exact hNone i hI

theorem split_none
    {r : Regex} {s : Str}
    (hNone : ∀ i ≤ s.length, r.run (placeAt s i) = []) :
    r.split s = [s] := by
  have hSearch : r.searchFrom [] s = none :=
    search_none hNone
  have hIter : r.findIter s = [] := by
    unfold findIter
    cases s with
    | nil => rfl
    | cons x rest =>
        rw [List.length_cons, matchesFrom, hSearch]
  unfold split
  rw [hIter]
  rfl

theorem run_seq_nil
    {a b : Regex} {c : Cursor}
    (hNone : a.run c = []) :
    (seq a b).run c = [] := by
  rw [run, hNone]
  rfl

end Regex

end Lib

---- Leftmost Match

namespace Lib

/- The text between two cursors of one text. -/
theorem Cursor.upto_append
    (c d : Cursor) (a : Str) (hAfter : c.after = a ++ d.after) :
    c.upto d = a := by
  unfold Cursor.upto
  rw [hAfter]
  simp

namespace Regex

/- A match that begins where the search does. -/
theorem searchFrom_here
    {r : Regex} {before s : Str} {stop : Cursor}
    (hHere : (r.run ⟨before, s, []⟩).head? = some stop) :
    r.searchFrom before s = some ⟨⟨before, s, []⟩, stop⟩ := by
  have hMatch :
      r.matchAt ⟨before, s, []⟩ =
        some ⟨⟨before, s, []⟩, stop⟩ := by
    unfold matchAt
    rw [hHere]
    rfl
  cases s with
  | nil => exact hMatch
  | cons x rest =>
      unfold searchFrom
      rw [hMatch]

/- A search goes past a place without a match. -/
theorem searchFrom_later
    {r : Regex} {before s : Str} {x : Nat}
    (hNone : r.run ⟨before, x :: s, []⟩ = []) :
    r.searchFrom before (x :: s) =
      r.searchFrom (x :: before) s := by
  conv_lhs => unfold searchFrom
  unfold matchAt
  rw [hNone]
  rfl

end Regex

end Lib

---- Repetition Of A Class

namespace Lib

/- The cursor past the characters of a class. -/
def Cursor.skip (p : Nat → Bool) (c : Cursor) : Cursor :=
  ⟨(c.after.takeWhile p).reverse ++ c.before,
    c.after.dropWhile p, c.groups⟩

/- A text cut at the first place that is fine, reached by
characters of a class only. -/
def cutAt
    (p : Nat → Bool)
    (fine : Str → Bool) :
    Str → Option (Str × Str)
| [] => if fine [] then some ([], []) else none
| x :: rest =>
    if fine (x :: rest) then
      some ([], x :: rest)
    else if p x then
      (cutAt p fine rest).map fun cut => (x :: cut.1, cut.2)
    else
      none

theorem append_of_cutAt
    {p : Nat → Bool} {fine : Str → Bool} {s a b : Str}
    (hCut : cutAt p fine s = some (a, b)) :
    s = a ++ b := by
  induction s generalizing a with
  | nil =>
      simp only [cutAt, Option.ite_none_right_eq_some,
        Option.some.injEq, Prod.mk.injEq] at hCut
      rw [← hCut.2.1, ← hCut.2.2]
      rfl
  | cons x rest ih =>
      unfold cutAt at hCut
      split at hCut
      · rw [Option.some.injEq, Prod.mk.injEq] at hCut
        rw [← hCut.1, ← hCut.2]
        rfl
      · split at hCut
        · rw [Option.map_eq_some_iff] at hCut
          rcases hCut with ⟨⟨a', b'⟩, hRest, hEq⟩
          rw [Prod.mk.injEq] at hEq
          rcases hEq with ⟨rfl, rfl⟩
          rw [ih hRest]
          rfl
        · cases hCut

/- The cut is at a fine place. -/
theorem fine_of_cutAt
    {p : Nat → Bool} {fine : Str → Bool} {s a b : Str}
    (hCut : cutAt p fine s = some (a, b)) :
    fine b = true := by
  induction s generalizing a with
  | nil =>
      simp only [cutAt, Option.ite_none_right_eq_some,
        Option.some.injEq, Prod.mk.injEq] at hCut
      rw [← hCut.2.2]
      exact hCut.1
  | cons x rest ih =>
      unfold cutAt at hCut
      split at hCut
      · rename_i hFine
        rw [Option.some.injEq, Prod.mk.injEq] at hCut
        rw [← hCut.2]
        exact hFine
      · split at hCut
        · rw [Option.map_eq_some_iff] at hCut
          rcases hCut with ⟨⟨a', b'⟩, hRest, hEq⟩
          rw [Prod.mk.injEq] at hEq
          rcases hEq with ⟨rfl, rfl⟩
          exact ih hRest
        · cases hCut

/- The cut is the first fine place. -/
theorem not_fine_before_cut
    {p : Nat → Bool} {fine : Str → Bool} {s a b u w : Str}
    (hCut : cutAt p fine s = some (a, b)) (hInside : a = u ++ w)
    (hMore : w ≠ []) :
    fine (w ++ b) = false := by
  induction s generalizing a u with
  | nil =>
      simp only [cutAt, Option.ite_none_right_eq_some,
        Option.some.injEq, Prod.mk.injEq] at hCut
      rw [← hCut.2.1] at hInside
      exact absurd (List.append_eq_nil_iff.mp hInside.symm).2
        hMore
  | cons x rest ih =>
      unfold cutAt at hCut
      split at hCut
      · rw [Option.some.injEq, Prod.mk.injEq] at hCut
        rw [← hCut.1] at hInside
        exact absurd (List.append_eq_nil_iff.mp hInside.symm).2
          hMore
      · rename_i hFine
        split at hCut
        · rw [Option.map_eq_some_iff] at hCut
          rcases hCut with ⟨⟨a', b'⟩, hRest, hEq⟩
          rw [Prod.mk.injEq] at hEq
          rcases hEq with ⟨rfl, rfl⟩
          cases u with
          | nil =>
              rw [List.nil_append] at hInside
              rw [← hInside, List.cons_append,
                ← append_of_cutAt hRest]
              simpa using hFine
          | cons y u =>
              rw [List.cons_append, List.cons.injEq] at hInside
              exact ih hRest hInside.2
        · cases hCut

/- A cut at a known place. -/
theorem cutAt_append
    {p : Nat → Bool} {fine : Str → Bool} {a b : Str}
    (hClass : ∀ x ∈ a, p x = true)
    (hEarly :
      ∀ u w, a = u ++ w → w ≠ [] → fine (w ++ b) = false)
    (hFine : fine b = true) :
    cutAt p fine (a ++ b) = some (a, b) := by
  induction a with
  | nil =>
      cases b with
      | nil => simp [cutAt, hFine]
      | cons x rest => simp [cutAt, hFine]
  | cons x a ih =>
      have hFirst := hEarly [] (x :: a) rfl (by simp)
      rw [List.cons_append] at hFirst
      have hRest := ih
        (fun y hY => hClass y (List.mem_cons_of_mem x hY))
        (fun u w hSplit hMore =>
          hEarly (x :: u) w (by rw [hSplit]; rfl) hMore)
      rw [List.cons_append]
      unfold cutAt
      rw [if_neg (by simp [hFirst]),
        if_pos (hClass x (by simp)), hRest]
      rfl

namespace Regex

theorem run_star_cls_nil
    (greedy : Bool) (p : Nat → Bool) (before : Str)
    (groups : List (Nat × Str)) :
    (Regex.star greedy (.cls p)).run ⟨before, [], groups⟩ =
      [⟨before, [], groups⟩] := by
  simp [run, iterate]

theorem run_star_cls_cons
    (greedy : Bool) (p : Nat → Bool) (before : Str) (x : Nat)
    (rest : Str) (groups : List (Nat × Str)) :
    (Regex.star greedy (.cls p)).run
        ⟨before, x :: rest, groups⟩ =
      let more :=
        if p x then
          (Regex.star greedy (.cls p)).run
            ⟨x :: before, rest, groups⟩
        else []
      if greedy then
        more ++ [⟨before, x :: rest, groups⟩]
      else
        ⟨before, x :: rest, groups⟩ :: more := by
  simp only [run, iterate, List.length_cons]
  cases hClass : p x with
  | false => simp
  | true => simp

/- A greedy repetition of a class takes all of it, when what
follows cannot begin with the class. -/
theorem flatMap_star_greedy
    {β : Type}
    (p : Nat → Bool) (f : Cursor → List β) (c : Cursor)
    (hStop :
      ∀ before x rest,
        p x = true → f ⟨before, x :: rest, c.groups⟩ = []) :
    ((Regex.star true (.cls p)).run c).flatMap f =
      f (c.skip p) := by
  rcases c with ⟨before, after, groups⟩
  induction after generalizing before with
  | nil => simp [run_star_cls_nil, Cursor.skip]
  | cons x rest ih =>
      rw [run_star_cls_cons]
      cases hClass : p x with
      | false => simp [Cursor.skip, hClass]
      | true =>
          have hRest := ih (x :: before) hStop
          simp only [if_true, List.flatMap_append,
            List.flatMap_cons, List.flatMap_nil,
            List.append_nil, hRest, hStop before x rest hClass]
          simp [Cursor.skip, hClass]

/- A lazy repetition of a class stops at the first place where
what follows matches. -/
theorem head_flatMap_star_lazy
    {β : Type}
    (p : Nat → Bool) (fine : Str → Bool) (f : Cursor → List β)
    (g : Cursor → β) (c : Cursor)
    (hMatch :
      ∀ before after,
        (f ⟨before, after, c.groups⟩).head? =
          if fine after then
            some (g ⟨before, after, c.groups⟩)
          else none) :
    (((Regex.star false (.cls p)).run c).flatMap f).head? =
      (cutAt p fine c.after).map fun cut =>
        g ⟨cut.1.reverse ++ c.before, cut.2, c.groups⟩ := by
  rcases c with ⟨before, after, groups⟩
  induction after generalizing before with
  | nil =>
      simp only [run_star_cls_nil, List.flatMap_cons,
        List.flatMap_nil, List.append_nil, cutAt, hMatch]
      split <;> rfl
  | cons x rest ih =>
      rw [run_star_cls_cons]
      simp only [Bool.false_eq_true, if_false,
        List.flatMap_cons, List.head?_append, hMatch, cutAt]
      cases hFine : fine (x :: rest) with
      | true => simp
      | false =>
          cases hClass : p x with
          | false => simp
          | true =>
              have hRest := ih (x :: before) hMatch
              simp only [if_true, hRest]
              simp [Option.map_map, Function.comp_def]

end Regex

end Lib

---- Patterns That Are Data

namespace Lib

/- The characters `re.escape` puts a backslash before. -/
def isSpecial (c : Nat) : Bool :=
  (lit "()[]\x7b\x7d?*+-|^$\\.&~# \t\n\r").contains c ||
    c == 11 || c == 12

/- `re.escape(text)`. -/
def reEscape (s : Str) : Str :=
  s.flatMap fun c => if isSpecial c then [cp '\\', c] else [c]

/- What `re` does with a pattern given as a text. Only the
meaning of an escaped literal between anchors is relied
on. -/
class RegexEngine where
  compiles : Str → Bool
  search : Str → Str → Bool

end Lib
