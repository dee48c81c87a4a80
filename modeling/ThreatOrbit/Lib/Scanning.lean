import ThreatOrbit.Lib.Substitute

/-
  How a pattern reads a text from left to right: what it
  takes at a place as a relation between texts, the places
  the search arrives at, where the characters of a text with
  replaced matches come from, and what splitting a text
  leaves.

  Key definitions:
    * `Regex.within`
    * `Regex.Takes`, `Arrives`
    * `Regex.origins`, `Regex.subOrigins`
    * `Regex.Cuts`
-/

---- Repetition A Number Of Times

namespace Lib

namespace Regex

/- `a{lo,hi}`. -/
def within (a : Regex) : Nat → Nat → Regex
| _, 0 => .empty
| 0, hi + 1 => opt (.seq a (within a 0 hi))
| lo + 1, hi + 1 => .seq a (within a lo hi)

/- `a{n}`. -/
def times (n : Nat) (a : Regex) : Regex :=
  within a n n

end Regex

end Lib

---- Sorted Lists

namespace Lib

/- The first of a list that is sorted by a measure. -/
theorem head?_of_sorted
    {α : Type*} {f : α → Nat} {l : List α} {a : α}
    (hSorted : l.Pairwise fun x y => f x < f y) (hMem : a ∈ l)
    (hLeast : ∀ b ∈ l, f a ≤ f b) :
    l.head? = some a := by
  cases l with
  | nil => cases hMem
  | cons b rest =>
      rcases List.mem_cons.mp hMem with rfl | hLater
      · rfl
      · have hLess := (List.pairwise_cons.mp hSorted).1 a hLater
        have hLe := hLeast b List.mem_cons_self
        omega

theorem least_of_head?
    {α : Type*} {f : α → Nat} {l : List α} {a : α}
    (hSorted : l.Pairwise fun x y => f x < f y)
    (hHead : l.head? = some a) :
    ∀ b ∈ l, f a ≤ f b := by
  cases l with
  | nil => cases hHead
  | cons b rest =>
      cases hHead
      intro c hC
      rcases List.mem_cons.mp hC with rfl | hLater
      · exact le_refl _
      · exact Nat.le_of_lt
          ((List.pairwise_cons.mp hSorted).1 c hLater)

---- What A Pattern Takes

/- A relation between what is before a place, a word there and
what is after the word says what a pattern takes: its first
match at a place is such a word, and where there is such a
word it is the match. -/
structure Regex.Takes
    (r : Regex)
    (T : Str → Str → Str → Prop) : Prop where
  sound :
    ∀ before after stop,
      (r.run ⟨before, after, []⟩).head? = some stop →
        ∃ w, w ≠ [] ∧ after = w ++ stop.after ∧
          stop.before = w.reverse ++ before ∧
          T before w stop.after
  complete :
    ∀ before w rest, T before w rest →
      ∃ stop,
        (r.run ⟨before, w ++ rest, []⟩).head? = some stop ∧
          stop.after = rest

/- The places of a text that a search from left to right
arrives at, going on after each word it takes. -/
inductive Arrives
    (T : Str → Str → Str → Prop)
    (s : Str) :
    Str → Str → Prop where
| start : Arrives T s [] s
| skip
    {before rest : Str}
    {x : Nat}
    (hHere : Arrives T s before (x :: rest))
    (hNone :
      ∀ w after, x :: rest = w ++ after → ¬ T before w after) :
    Arrives T s (x :: before) rest
| take
    {before w rest : Str}
    (hHere : Arrives T s before (w ++ rest))
    (hTake : T before w rest) :
    Arrives T s (w.reverse ++ before) rest

variable {r : Regex}
variable {T : Str → Str → Str → Prop}
variable {s before after w rest : Str}

theorem Arrives.text
    (hHere : Arrives T s before after) :
    before.reverse ++ after = s := by
  induction hHere with
  | start => rfl
  | skip _ _ ih =>
      rw [List.reverse_cons, List.append_assoc]
      exact ih
  | take _ _ ih =>
      rw [List.reverse_append, List.reverse_reverse,
        List.append_assoc]
      exact ih

/- A place with a word is arrived at, or lies in a word that
is taken before. -/
theorem exists_cover
    (hNonempty : ∀ b v a, T b v a → v ≠ [])
    (hWord : T before w rest) :
    ∃ b v a,
      Arrives T (before.reverse ++ (w ++ rest)) b (v ++ a) ∧
        T b v a ∧ b.length ≤ before.length ∧
        before.length < b.length + v.length := by
  -- the search goes on while it is before the place
  have hFrom (n : Nat) :
      ∀ b a, Arrives T (before.reverse ++ (w ++ rest)) b a →
        before.length = b.length + n →
        ∃ b v a,
          Arrives T (before.reverse ++ (w ++ rest)) b
              (v ++ a) ∧
            T b v a ∧ b.length ≤ before.length ∧
            before.length < b.length + v.length := by
    induction n using Nat.strong_induction_on with
    | _ n ih =>
        intro b a hHere hPlace
        by_cases hTaken : ∃ v a', a = v ++ a' ∧ T b v a'
        · rcases hTaken with ⟨v, a', rfl, hT⟩
          by_cases hInside :
              before.length < b.length + v.length
          · exact ⟨b, v, a', hHere, hT, by omega, hInside⟩
          · have hPos := List.length_pos_of_ne_nil
              (hNonempty b v a' hT)
            apply ih (n - v.length) (by omega) _ _
              (.take hHere hT)
            rw [List.length_append, List.length_reverse]
            omega
        · have hNone :
              ∀ v a', a = v ++ a' → ¬ T b v a' :=
            fun v a' hSplit hT => hTaken ⟨v, a', hSplit, hT⟩
          have hText := hHere.text
          cases a with
          | nil =>
              -- at the end of the text the word is still to come
              have hLengths := congrArg List.length hText
              have hPos := List.length_pos_of_ne_nil
                (hNonempty before w rest hWord)
              simp only [List.length_append,
                List.length_reverse, List.length_nil]
                at hLengths
              omega
          | cons x a =>
              cases n with
              | zero =>
                  have hSame := List.append_inj hText
                    (by simp [hPlace])
                  rw [List.reverse_inj.mp hSame.1] at hNone
                  exact absurd hWord (hNone w rest hSame.2)
              | succ n =>
                  exact ih n (by omega) _ _
                    (.skip hHere hNone)
                    (by rw [List.length_cons]; omega)
  exact hFrom before.length [] _ .start (by simp)

namespace Regex

/- What is left to find where the search arrives. -/
theorem findIter_of_arrives
    (hTakes : r.Takes T) (hHere : Arrives T s before after) :
    ∃ done n, after.length ≤ n ∧
      r.findIter s = done ++ r.matchesFrom n before after := by
  induction hHere with
  | start => exact ⟨[], s.length, le_refl _, rfl⟩
  | @skip before rest x hHere hNone ih =>
      rcases ih with ⟨done, n, hLength, hFound⟩
      rw [List.length_cons] at hLength
      refine ⟨done, n, by omega, ?_⟩
      rw [hFound]
      congr 1
      have hLater :
          r.searchFrom before (x :: rest) =
            r.searchFrom (x :: before) rest := by
        apply searchFrom_later
        rw [← List.head?_eq_none_iff]
        cases hHead :
            (r.run ⟨before, x :: rest, []⟩).head? with
        | none => rfl
        | some stop =>
            rcases hTakes.sound _ _ _ hHead with
              ⟨w, _, hSplit, _, hT⟩
            exact absurd hT (hNone w _ hSplit)
      cases n with
      | zero => omega
      | succ n => rw [matchesFrom, matchesFrom, hLater]
  | @take before w rest hHere hTake ih =>
      rcases ih with ⟨done, n, hLength, hFound⟩
      rcases hTakes.complete _ _ _ hTake with
        ⟨stop, hHead, rfl⟩
      rcases hTakes.sound _ _ _ hHead with
        ⟨v, hMore, hSplit, hBefore, _⟩
      cases List.append_cancel_right hSplit
      have hPos := List.length_pos_of_ne_nil hMore
      rw [List.length_append] at hLength
      cases n with
      | zero => omega
      | succ n =>
          refine ⟨done ++ [⟨⟨before, w ++ stop.after, []⟩,
            stop⟩], n, by omega, ?_⟩
          rw [hFound, matchesFrom, searchFrom_here hHead,
            List.append_assoc]
          dsimp only
          rw [if_pos (by rw [List.length_append]; omega),
            hBefore]
          rfl

/- A word that is taken where the search arrives is found. -/
theorem mem_findIter_of_arrives
    (hTakes : r.Takes T) (hHere : Arrives T s before (w ++ rest))
    (hTake : T before w rest) :
    ∃ m ∈ r.findIter s,
      m.start = ⟨before, w ++ rest, []⟩ ∧
        m.stop.after = rest := by
  rcases findIter_of_arrives hTakes hHere with
    ⟨done, n, hLength, hFound⟩
  rcases hTakes.complete _ _ _ hTake with ⟨stop, hHead, rfl⟩
  rcases hTakes.sound _ _ _ hHead with ⟨v, hMore, hSplit, _⟩
  cases List.append_cancel_right hSplit
  have hPos := List.length_pos_of_ne_nil hMore
  rw [List.length_append] at hLength
  cases n with
  | zero => omega
  | succ n =>
      refine ⟨⟨⟨before, w ++ stop.after, []⟩, stop⟩, ?_, rfl,
        rfl⟩
      rw [hFound, matchesFrom, searchFrom_here hHead]
      dsimp only
      rw [if_pos (by rw [List.length_append]; omega)]
      simp

/- The search arrives at the match it finds. -/
theorem arrives_of_searchFrom
    (hTakes : r.Takes T) {m : Match}
    (hHere : Arrives T s before after)
    (hFound : r.searchFrom before after = some m) :
    ∃ b v,
      Arrives T s b (v ++ m.stop.after) ∧
        T b v m.stop.after ∧
        m.start = ⟨b, v ++ m.stop.after, []⟩ ∧
        m.stop.before = v.reverse ++ b := by
  have hMatch
      {b a : Str}
      (hAt : Arrives T s b a)
      (hNow : r.matchAt ⟨b, a, []⟩ = some m) :
      ∃ b v,
        Arrives T s b (v ++ m.stop.after) ∧
          T b v m.stop.after ∧
          m.start = ⟨b, v ++ m.stop.after, []⟩ ∧
          m.stop.before = v.reverse ++ b := by
    rcases Option.map_eq_some_iff.mp hNow with
      ⟨stop, hHead, rfl⟩
    rcases hTakes.sound _ _ _ hHead with
      ⟨v, _, rfl, hBefore, hT⟩
    exact ⟨b, v, hAt, hT, rfl, hBefore⟩
  induction after generalizing before with
  | nil => exact hMatch hHere hFound
  | cons x rest ih =>
      rw [searchFrom] at hFound
      split at hFound
      · rename_i found hNow
        cases hFound
        exact hMatch hHere hNow
      · rename_i hNot
        refine ih (.skip hHere ?_) hFound
        intro v a hSplit hT
        rcases hTakes.complete _ _ _ hT with ⟨stop, hHead, _⟩
        rw [← hSplit] at hHead
        unfold matchAt at hNot
        rw [hHead] at hNot
        cases hNot

theorem arrives_of_mem_matchesFrom
    (hTakes : r.Takes T) {m : Match} (n : Nat)
    (hHere : Arrives T s before after)
    (hMem : m ∈ r.matchesFrom n before after) :
    ∃ b v,
      Arrives T s b (v ++ m.stop.after) ∧
        T b v m.stop.after ∧
        m.start = ⟨b, v ++ m.stop.after, []⟩ := by
  induction n generalizing before after with
  | zero => cases hMem
  | succ n ih =>
      rw [matchesFrom] at hMem
      cases hSearch : r.searchFrom before after with
      | none =>
          rw [hSearch] at hMem
          cases hMem
      | some m' =>
          rw [hSearch] at hMem
          dsimp only at hMem
          rcases arrives_of_searchFrom hTakes hHere hSearch
            with ⟨b, v, hAt, hT, hStart, hStop⟩
          split at hMem
          · rcases List.mem_cons.mp hMem with rfl | hLater
            · exact ⟨b, v, hAt, hT, hStart⟩
            · apply ih _ hLater
              rw [hStop]
              exact .take hAt hT
          · cases hMem

/- A match that is found is a word taken where the search
arrives. -/
theorem arrives_of_mem_findIter
    (hTakes : r.Takes T) {m : Match} (hMem : m ∈ r.findIter s) :
    ∃ b v,
      Arrives T s b (v ++ m.stop.after) ∧
        T b v m.stop.after ∧
        m.start = ⟨b, v ++ m.stop.after, []⟩ :=
  arrives_of_mem_matchesFrom hTakes s.length .start hMem

end Regex

end Lib

---- Where Characters Come From

namespace Lib

/- A text that is copied from a place of another on: each
character with its place there. -/
def copied (k : Nat) (s : Str) : List (Nat × Option Nat) :=
  (s.zipIdx k).map fun x => (x.1, some x.2)

/- A text that is not copied. -/
def putIn (s : Str) : List (Nat × Option Nat) :=
  s.map fun x => (x, none)

theorem copied_text
    (k : Nat) (s : Str) :
    (copied k s).map Prod.fst = s := by
  unfold copied
  rw [List.map_map]
  exact List.zipIdx_map_fst k s

theorem putIn_text (s : Str) :
    (putIn s).map Prod.fst = s := by
  unfold putIn
  rw [List.map_map]
  exact List.map_id s

theorem mem_copied
    {k i : Nat} {s : Str} :
    (∃ c, (c, some i) ∈ copied k s) ↔
      k ≤ i ∧ i < k + s.length := by
  unfold copied
  simp only [List.mem_map, Prod.mk.injEq, Option.some.injEq,
    Prod.exists, List.mk_mem_zipIdx_iff_le_and_getElem?_sub]
  constructor
  · rintro ⟨c, a, j, ⟨hLow, hGet⟩, rfl, rfl⟩
    have hHigh := (List.getElem?_eq_some_iff.mp hGet).1
    omega
  · rintro ⟨hLow, hHigh⟩
    have hIn : i - k < s.length := by omega
    exact ⟨s[i - k], s[i - k], i,
      ⟨hLow, List.getElem?_eq_getElem hIn⟩, rfl, rfl⟩

theorem not_mem_putIn
    {i c : Nat} {s : Str} :
    (c, some i) ∉ putIn s := by
  unfold putIn
  simp

namespace Regex

/- The characters of a text whose matches are replaced, where
a match that gives nothing stays as it is; the text begins
at a place of another. -/
def origins
    (f : Match → Option Str) :
    Nat → Str → List Match → List (Nat × Option Nat)
| k, s, [] => copied k s
| k, s, m :: rest =>
    let before := s.length - m.start.after.length
    copied k (s.take before) ++
      (match f m with
      | some t => putIn t
      | none => copied (k + before) m.text) ++
      origins f (k + (s.length - m.stop.after.length))
        m.stop.after rest

/- The characters of `pattern.sub(f, text)`, each with the
place of the text that it is copied from. -/
def subOrigins
    (r : Regex)
    (f : Match → Option Str)
    (s : Str) : List (Nat × Option Nat) :=
  origins f 0 s (r.findIter s)

theorem origins_text
    (f : Match → Option Str) (k : Nat) (s : Str) (ms : List Match) :
    (origins f k s ms).map Prod.fst =
      replaced (fun m => (f m).getD m.text) s ms := by
  induction ms generalizing k s with
  | nil => exact copied_text k s
  | cons m rest ih =>
      simp only [origins, replaced, List.map_append,
        copied_text, ih]
      cases f m with
      | none => simp only [copied_text, Option.getD_none]
      | some t => simp only [putIn_text, Option.getD_some]

theorem subOrigins_text
    (r : Regex) (f : Match → Option Str) (s : Str) :
    (r.subOrigins f s).map Prod.fst =
      r.sub (fun m => (f m).getD m.text) s :=
  origins_text f 0 s _

/- Matches of a text, one after another. -/
def InOrder : Str → List Match → Prop
| _, [] => True
| s, m :: rest =>
    m.start.after <:+ s ∧ m.stop.after <:+ m.start.after ∧
      InOrder m.stop.after rest

theorem inOrder_matchesFrom
    (r : Regex) (n : Nat) (before s : Str) :
    InOrder s (r.matchesFrom n before s) := by
  induction n generalizing before s with
  | zero => trivial
  | succ n ih =>
      rw [matchesFrom]
      cases hSearch : r.searchFrom before s with
      | none => trivial
      | some m =>
          rcases searchFrom_onward hSearch with
            ⟨hStart, _, hStop⟩
          dsimp only
          split
          · exact ⟨hStart, hStop.after_suffix, ih _ _⟩
          · trivial

theorem start_le_of_inOrder
    {s : Str} {ms : List Match}
    (hOrder : InOrder s ms) :
    ∀ m ∈ ms, m.start.after.length ≤ s.length ∧
      m.stop.after.length ≤ m.start.after.length := by
  induction ms generalizing s with
  | nil => simp
  | cons m rest ih =>
      rcases hOrder with ⟨hStart, hStop, hRest⟩
      intro m' hM'
      rcases List.mem_cons.mp hM' with rfl | hLater
      · exact ⟨hStart.length_le, hStop.length_le⟩
      · have hThen := ih hRest m' hLater
        have hFirst := hStart.length_le
        have hSecond := hStop.length_le
        exact ⟨by omega, hThen.2⟩

/- A character comes through unless a match that is replaced
holds it. -/
theorem mem_origins
    {f : Match → Option Str} {k i : Nat} {s : Str} {ms : List Match}
    (hOrder : InOrder s ms) :
    (∃ c, (c, some i) ∈ origins f k s ms) ↔
      (k ≤ i ∧ i < k + s.length) ∧
        ∀ m ∈ ms, (f m).isSome →
          k + (s.length - m.start.after.length) ≤ i →
          k + (s.length - m.stop.after.length) ≤ i := by
  induction ms generalizing k s with
  | nil => simp [origins, mem_copied]
  | cons m rest ih =>
      rcases hOrder with ⟨hStart, hStop, hRest⟩
      have hStartLe := hStart.length_le
      have hStopLe := hStop.length_le
      have hLater := start_le_of_inOrder hRest
      have hHead :
          (∃ c, (c, some i) ∈
            copied k (s.take (s.length -
              m.start.after.length))) ↔
            k ≤ i ∧
              i < k + (s.length - m.start.after.length) := by
        rw [mem_copied, List.length_take]
        omega
      have hText :
          m.text.length =
            m.start.after.length - m.stop.after.length := by
        unfold Match.text Cursor.upto
        rw [List.length_take]
        omega
      have hHere :
          (∃ c, (c, some i) ∈
            (match f m with
            | some t => putIn t
            | none => copied
                (k + (s.length - m.start.after.length))
                m.text)) ↔
            (f m).isSome = false ∧
              k + (s.length - m.start.after.length) ≤ i ∧
              i < k + (s.length - m.stop.after.length) := by
        cases f m with
        | none =>
            simp only [mem_copied, hText, Option.isSome_none,
              true_and]
            omega
        | some t => simp [not_mem_putIn]
      simp only [origins, List.mem_append, exists_or, hHead,
        hHere, ih hRest, List.forall_mem_cons]
      constructor
      · rintro ((hFirst | ⟨hKept, hLow, hHigh⟩) |
          ⟨⟨hLow, hHigh⟩, hAll⟩)
        · refine ⟨by omega, by omega, ?_⟩
          intro m' hM' _ hFrom
          have := hLater m' hM'
          omega
        · refine ⟨by omega, by simp [hKept], ?_⟩
          intro m' hM' _ hFrom
          have := hLater m' hM'
          omega
        · refine ⟨by omega, by omega, ?_⟩
          intro m' hM' hPut hFrom
          have := hLater m' hM'
          have := hAll m' hM' hPut (by omega)
          omega
      · rintro ⟨⟨hLow, hHigh⟩, hFirst, hAll⟩
        by_cases hBefore :
            i < k + (s.length - m.start.after.length)
        · exact .inl (.inl ⟨hLow, hBefore⟩)
        · by_cases hInside :
              i < k + (s.length - m.stop.after.length)
          · refine .inl (.inr ⟨?_, by omega, hInside⟩)
            cases hPut : (f m).isSome with
            | false => rfl
            | true =>
                have := hFirst hPut (by omega)
                omega
          · refine .inr ⟨by omega, ?_⟩
            intro m' hM' hPut hFrom
            have := hLater m' hM'
            have := hAll m' hM' hPut (by omega)
            omega

/- Where the characters of a text come through. -/
theorem mem_subOrigins
    {r : Regex} {s : Str} {f : Match → Option Str} {i : Nat} :
    (∃ c, (c, some i) ∈ r.subOrigins f s) ↔
      i < s.length ∧
        ∀ m ∈ r.findIter s, (f m).isSome →
          s.length - m.start.after.length ≤ i →
          s.length - m.stop.after.length ≤ i := by
  have hOrder : InOrder s (r.findIter s) :=
    inOrder_matchesFrom r s.length [] s
  unfold subOrigins
  rw [mem_origins hOrder]
  simp

end Regex

end Lib

---- Splitting

namespace Lib

namespace Regex

/- A text cut at the matches of a pattern: no match begins in
a piece, and after each piece but the last one comes a
match. -/
inductive Cuts (r : Regex) : Str → Str → List Str → Prop where
| last
    {before s : Str}
    (hNone :
      ∀ u v, s = u ++ v →
        r.run ⟨u.reverse ++ before, v, []⟩ = []) :
    Cuts r before s [s]
| more
    {before c w : Str}
    {stop : Cursor}
    {pieces : List Str}
    (hNone :
      ∀ u v, c = u ++ v → v ≠ [] →
        r.run ⟨u.reverse ++ before, v ++ (w ++ stop.after),
          []⟩ = [])
    (hHere :
      stop ∈
        r.run ⟨c.reverse ++ before, w ++ stop.after, []⟩)
    (hRest : Cuts r stop.before stop.after pieces) :
    Cuts r before (c ++ (w ++ stop.after)) (c :: pieces)

theorem run_of_searchFrom_none
    {r : Regex} {before s : Str}
    (hNone : r.searchFrom before s = none) (u v : Str)
    (hSplit : s = u ++ v) :
    r.run ⟨u.reverse ++ before, v, []⟩ = [] := by
  have hHere
      {b a : Str}
      (hNot : r.matchAt ⟨b, a, []⟩ = none) :
      r.run ⟨b, a, []⟩ = [] := by
    unfold matchAt at hNot
    rw [Option.map_eq_none_iff, List.head?_eq_none_iff] at hNot
    exact hNot
  induction u generalizing before s with
  | nil =>
      rw [List.nil_append] at hSplit
      rw [← hSplit]
      apply hHere
      cases s with
      | nil => exact hNone
      | cons x rest =>
          rw [searchFrom] at hNone
          split at hNone
          · cases hNone
          · assumption
  | cons x u ih =>
      subst hSplit
      rw [List.cons_append, searchFrom] at hNone
      split at hNone
      · cases hNone
      · rw [List.reverse_cons, List.append_assoc]
        exact ih hNone rfl

/- What is before the match that a search finds. -/
theorem searchFrom_some
    {r : Regex} {before s : Str} {m : Match}
    (hFound : r.searchFrom before s = some m) :
    ∃ c,
      s = c ++ m.start.after ∧
      m.start = ⟨c.reverse ++ before, m.start.after, []⟩ ∧
      m.stop ∈ r.run m.start ∧
      ∀ u v, c = u ++ v → v ≠ [] →
        r.run ⟨u.reverse ++ before, v ++ m.start.after,
          []⟩ = [] := by
  have hHere
      {b a : Str}
      (hNow : r.matchAt ⟨b, a, []⟩ = some m) :
      m.start = ⟨b, a, []⟩ ∧ m.stop ∈ r.run m.start := by
    rcases Option.map_eq_some_iff.mp hNow with
      ⟨stop, hStop, rfl⟩
    exact ⟨rfl, List.mem_of_head? hStop⟩
  have hNothing (u v : Str) (hSplit : [] = u ++ v) : v = [] :=
    (List.append_eq_nil_iff.mp hSplit.symm).2
  induction s generalizing before with
  | nil =>
      rcases hHere hFound with ⟨hStart, hStop⟩
      refine ⟨[], by rw [hStart]; rfl, by rw [hStart]; rfl,
        hStop, ?_⟩
      intro u v hSplit hMore
      exact absurd (hNothing u v hSplit) hMore
  | cons x rest ih =>
      rw [searchFrom] at hFound
      split at hFound
      · rename_i found hNow
        cases hFound
        rcases hHere hNow with ⟨hStart, hStop⟩
        refine ⟨[], by rw [hStart]; rfl, by rw [hStart]; rfl,
          hStop, ?_⟩
        intro u v hSplit hMore
        exact absurd (hNothing u v hSplit) hMore
      · rename_i hNot
        rcases ih hFound with ⟨c, hSplit, hStart, hStop, hNone⟩
        refine ⟨x :: c, ?_, ?_, hStop, ?_⟩
        · rw [List.cons_append, ← hSplit]
        · rw [List.reverse_cons, List.append_assoc]
          exact hStart
        · intro u v hWord hMore
          cases u with
          | nil =>
              subst hWord
              rw [List.cons_append, ← hSplit]
              unfold matchAt at hNot
              rw [Option.map_eq_none_iff,
                List.head?_eq_none_iff] at hNot
              exact hNot
          | cons y u =>
              rw [List.cons_append, List.cons.injEq] at hWord
              rcases hWord with ⟨rfl, hWord⟩
              rw [List.reverse_cons, List.append_assoc]
              exact hNone u v hWord hMore

/- Splitting a text cuts it at the matches. -/
theorem split_cuts
    {r : Regex}
    (hTakes :
      ∀ c, ∀ d ∈ r.run c, d.after.length < c.after.length)
    (s : Str) :
    Cuts r [] s (r.split s) := by
  have hFrom (n : Nat) :
      ∀ before s : Str, s.length ≤ n →
        Cuts r before s
          (between s (r.matchesFrom n before s)) := by
    induction n with
    | zero =>
        intro before s hLength
        cases List.length_eq_zero_iff.mp
          (Nat.le_zero.mp hLength)
        apply Cuts.last
        intro u v hSplit
        rcases List.append_eq_nil_iff.mp hSplit.symm with
          ⟨rfl, rfl⟩
        rw [List.eq_nil_iff_forall_not_mem]
        intro d hD
        exact absurd (hTakes _ d hD) (Nat.not_lt_zero _)
    | succ n ih =>
        intro before s hLength
        rw [matchesFrom]
        cases hSearch : r.searchFrom before s with
        | none =>
            exact .last (run_of_searchFrom_none hSearch)
        | some m =>
            rcases searchFrom_some hSearch with
              ⟨c, hSplit, hStart, hStop, hNone⟩
            have hLess := hTakes _ _ hStop
            rcases (run_onward r _ _ hStop).after_suffix with
              ⟨w, hWord⟩
            dsimp only
            rw [if_pos hLess, between]
            have hCut :
                s.take (s.length - m.start.after.length) =
                  c := by
              rw [hSplit]
              simp
            rw [hCut, hSplit, ← hWord]
            rw [← hWord] at hStart hNone
            rw [hStart] at hStop
            apply Cuts.more hNone hStop
            apply ih
            rw [hSplit, List.length_append] at hLength
            omega
  exact hFrom s.length [] s (le_refl _)

/- The marked characters of the pieces, and one at least of
each match between two of them. -/
theorem Cuts.countP_le
    {r : Regex} {before s : Str} {pieces : List Str}
    {p : Nat → Bool}
    (hCuts : Cuts r before s pieces)
    (hMatch :
      ∀ c u v w, s = u ++ (w ++ v) →
        c.after = w ++ v → (∃ d ∈ r.run c, d.after = v) →
          0 < w.countP p) :
    (pieces.map (List.countP p)).sum + pieces.length ≤
      s.countP p + 1 := by
  induction hCuts with
  | last => simp
  | @more before c w stop pieces hNone hHere hRest ih =>
      have hThis := hMatch _ c stop.after w rfl rfl
        ⟨stop, hHere, rfl⟩
      have hLater := ih (by
        intro c' u v w' hSplit hAfter hRun
        refine hMatch c' (c ++ (w ++ u)) v w' ?_ hAfter hRun
        rw [hSplit]
        simp)
      simp only [List.map_cons, List.sum_cons,
        List.length_cons, List.countP_append]
      omega

end Regex

end Lib
