import Mathlib.Data.List.DropRight
import Mathlib.Data.List.Infix
import Mathlib.Tactic.ByContra

/-
  This file defines clustering by the longest listed suffix: of
  a list, the longest suffix that a table lists, or else its
  last element; and the key of the list, that suffix with one
  element more. The key of a key is the key, and lists that
  agree on the element before a listed suffix are the only ones
  to share a key there.

  Key definitions:
    * `Lib.longestListed`
    * `Lib.clusterKey`
    * `Lib.TailListed`
-/

namespace Lib

variable {α : Type*}

---- The Longest Listed Suffix

/- The longest suffix that the table lists, or else the last
element. -/
def longestListed
    (listed : List α → Prop)
    [DecidablePred listed] : List α → List α
| [] => []
| [a] => [a]
| a :: b :: rest =>
    if listed (a :: b :: rest) then
      a :: b :: rest
    else
      longestListed listed (b :: rest)

/- The longest listed suffix with one element before it. -/
def clusterKey
    (listed : List α → Prop)
    [DecidablePred listed]
    (l : List α) : List α :=
  l.rtake ((longestListed listed l).length + 1)

/- What is listed stays listed without its first element, while
two elements are left. -/
def TailListed (listed : List α → Prop) : Prop :=
  ∀ a b c rest,
    listed (a :: b :: c :: rest) → listed (b :: c :: rest)

variable
  (listed : List α → Prop)
  [DecidablePred listed]

theorem longestListed_suffix
    (l : List α) :
    longestListed listed l <:+ l := by
  induction l with
  | nil => exact List.suffix_refl _
  | cons a rest ih =>
      cases rest with
      | nil => exact List.suffix_refl _
      | cons b rest =>
          rw [longestListed]
          split
          · exact List.suffix_refl _
          · exact ih.trans (List.suffix_cons _ _)

theorem longestListed_ne_nil
    {l : List α}
    (hSome : l ≠ []) :
    longestListed listed l ≠ [] := by
  induction l with
  | nil => exact absurd rfl hSome
  | cons a rest ih =>
      cases rest with
      | nil => exact List.cons_ne_nil _ _
      | cons b rest =>
          rw [longestListed]
          split
          · exact List.cons_ne_nil _ _
          · exact ih (List.cons_ne_nil _ _)

variable {listed}

/- The suffix is a listed one, unless it is one element. -/
theorem longestListed_listed
    {l : List α}
    (hMany : 1 < (longestListed listed l).length) :
    listed (longestListed listed l) := by
  induction l with
  | nil => exact absurd hMany (Nat.not_lt_zero _)
  | cons a rest ih =>
      cases rest with
      | nil => exact absurd hMany (Nat.lt_irrefl _)
      | cons b rest =>
          rw [longestListed] at hMany ⊢
          split at hMany
          · rename_i hListed
            rwa [if_pos hListed]
          · rename_i hNot
            rw [if_neg hNot]
            exact ih hMany

/- No listed suffix is longer. -/
theorem length_le_longestListed
    {l s : List α}
    (hSuffix : s <:+ l) (hListed : listed s) :
    s.length ≤ (longestListed listed l).length := by
  induction l with
  | nil => exact hSuffix.length_le
  | cons a rest ih =>
      cases rest with
      | nil => exact hSuffix.length_le
      | cons b rest =>
          rw [longestListed]
          split
          · exact hSuffix.length_le
          · rename_i hNot
            rcases List.suffix_cons_iff.mp hSuffix with
              hWhole | hRest
            · rw [hWhole] at hListed
              exact absurd hListed hNot
            · exact ih hRest

/- A suffix in between has the same longest listed suffix. -/
theorem longestListed_of_between
    {l t : List α}
    (hShort : longestListed listed l <:+ t) (hLong : t <:+ l) :
    longestListed listed t = longestListed listed l := by
  induction l with
  | nil => rw [List.suffix_nil.mp hLong]
  | cons a rest ih =>
      cases rest with
      | nil =>
          rw [← hShort.eq_of_length_le hLong.length_le]
          rfl
      | cons b rest =>
          rcases List.suffix_cons_iff.mp hLong with
            hWhole | hRest
          · rw [hWhole]
          · rw [longestListed] at hShort ⊢
            split at hShort
            · exact absurd
                (hShort.length_le.trans hRest.length_le)
                (Nat.not_succ_le_self _)
            · rename_i hNot
              rw [if_neg hNot]
              exact ih hShort hRest

/- Elements before a list that is longer than its longest listed
suffix leave the suffix as it is. -/
theorem longestListed_append
    (hTail : TailListed listed) {l : List α}
    (hLonger :
      (longestListed listed l).length < l.length)
    (more : List α) :
    longestListed listed (more ++ l) =
      longestListed listed l := by
  obtain ⟨b, c, rest, rfl⟩ :
      ∃ b c rest, l = b :: c :: rest := by
    cases l with
    | nil => exact absurd hLonger (Nat.not_lt_zero _)
    | cons b l =>
        cases l with
        | nil => exact absurd hLonger (Nat.lt_irrefl _)
        | cons c rest => exact ⟨b, c, rest, rfl⟩
  -- a listed list in front would make the list itself listed
  have hNone :
      ∀ front : List α,
        ¬ listed (front ++ b :: c :: rest) := by
    intro front hListed
    induction front with
    | nil =>
        rw [List.nil_append] at hListed
        rw [longestListed, if_pos hListed] at hLonger
        exact Nat.lt_irrefl _ hLonger
    | cons a front ih =>
        cases front with
        | nil => exact ih (hTail _ _ _ _ hListed)
        | cons d front =>
            cases front with
            | nil => exact ih (hTail _ _ _ _ hListed)
            | cons e front => exact ih (hTail _ _ _ _ hListed)
  induction more with
  | nil => rfl
  | cons a more ih =>
      obtain ⟨d, later, hLater⟩ :
          ∃ d later,
            more ++ b :: c :: rest = d :: later := by
        cases more with
        | nil => exact ⟨b, c :: rest, rfl⟩
        | cons d more => exact ⟨d, _, rfl⟩
      have hNot := hNone (a :: more)
      rw [List.cons_append, hLater] at hNot ⊢
      rw [longestListed, if_neg hNot, ← hLater]
      exact ih

---- The Key

theorem rtake_suffix
    (n : Nat) (l : List α) :
    l.rtake n <:+ l :=
  List.drop_suffix _ _

theorem length_rtake
    (n : Nat) (l : List α) :
    (l.rtake n).length = min n l.length := by
  rw [List.rtake, List.length_drop]
  omega

/- A suffix is the elements taken from the end. -/
theorem rtake_of_suffix
    {s l : List α}
    (hSuffix : s <:+ l) :
    l.rtake s.length = s :=
  (List.suffix_iff_eq_drop.mp hSuffix).symm

theorem rtake_of_length_le
    {n : Nat} {l : List α}
    (hShort : l.length ≤ n) :
    l.rtake n = l := by
  rw [List.rtake, Nat.sub_eq_zero_of_le hShort]
  rfl

theorem rtake_append_right
    {n : Nat} {l : List α}
    (hLong : n ≤ l.length) (more : List α) :
    (more ++ l).rtake n = l.rtake n := by
  rw [List.rtake, List.rtake, List.length_append,
    Nat.add_sub_assoc hLong, List.drop_append]
  simp

variable (listed) in
theorem clusterKey_suffix
    (l : List α) :
    clusterKey listed l <:+ l :=
  rtake_suffix _ l

variable (listed) in
theorem length_clusterKey
    (l : List α) :
    (clusterKey listed l).length =
      min ((longestListed listed l).length + 1) l.length :=
  length_rtake _ l

variable (listed) in
theorem longestListed_suffix_clusterKey
    (l : List α) :
    longestListed listed l <:+ clusterKey listed l := by
  refine List.suffix_of_suffix_length_le
    (longestListed_suffix listed l) (clusterKey_suffix listed l) ?_
  have hShort := (longestListed_suffix listed l)
    |>.length_le
  rw [length_clusterKey]
  omega

/- The key of a key is the key. -/
theorem clusterKey_clusterKey
    (l : List α) :
    clusterKey listed (clusterKey listed l) =
      clusterKey listed l := by
  have hSame :=
    longestListed_of_between
      (longestListed_suffix_clusterKey listed l)
      (clusterKey_suffix listed l)
  rw [clusterKey, hSame]
  apply rtake_of_length_le
  rw [length_clusterKey]
  exact Nat.min_le_left _ _

/- Elements before a list that is longer than its longest listed
suffix leave the key as it is. -/
theorem clusterKey_append
    (hTail : TailListed listed) {l : List α}
    (hLonger :
      (longestListed listed l).length < l.length)
    (more : List α) :
    clusterKey listed (more ++ l) = clusterKey listed l := by
  rw [clusterKey, longestListed_append hTail hLonger]
  exact rtake_append_right hLonger more

/- The element before a listed suffix is in the key. -/
theorem suffix_clusterKey
    {l s : List α} {a : α}
    (hSuffix : a :: s <:+ l) (hListed : listed s) :
    a :: s <:+ clusterKey listed l := by
  refine List.suffix_of_suffix_length_le hSuffix
    (clusterKey_suffix listed l) ?_
  have hLong :=
    length_le_longestListed
      ((List.suffix_cons a s).trans hSuffix) hListed
  have hAll := hSuffix.length_le
  rw [length_clusterKey, List.length_cons]
  rw [List.length_cons] at hAll
  omega

/- Two lists with one key have the same element before a listed
suffix of theirs. -/
theorem clusterKey_inj
    {l m s : List α} {a b : α}
    (hListed : listed s) (hL : a :: s <:+ l) (hM : b :: s <:+ m)
    (hSame : clusterKey listed l = clusterKey listed m) :
    a = b := by
  have hA := suffix_clusterKey hL hListed
  have hB := suffix_clusterKey hM hListed
  rw [hSame] at hA
  have hEq :=
    (List.suffix_of_suffix_length_le hA hB
      (Nat.le_refl _)).eq_of_length rfl
  exact (List.cons.inj hEq).1

end Lib
