import Mathlib

/-
  Windows over a list in the order of its times: the loop with
  two ends that fills a window, and the neighbours that are
  close.
-/

---- Filling

namespace Lib

section

variable {α : Type*} (time : α → Int) (limit : Int) (n : Nat)

/- The first window with enough elements, and the elements after
it: an element comes in, and those too long before it go. -/
@[grind =]
def fill : List α → List α → Option (List α × List α)
| _, [] => none
| window, a :: rest =>
    let kept := (window ++ [a]).dropWhile fun old =>
      decide (limit < time a - time old)
    if n ≤ kept.length then some (kept, rest)
    else fill kept rest

/- The elements of a list go by in the order of their times. -/
def InOrder (l : List α) : Prop :=
  l.Pairwise fun a b => time a ≤ time b

variable {time} {limit} {n}

/- In order, the elements that are too old are the first. -/
theorem dropWhile_inOrder
    {l : List α}
    (hOrder : InOrder time l) (now : Int) :
    (l.dropWhile fun old => decide (limit < now - time old)) =
      l.filter fun old => decide (now - limit ≤ time old) := by
  induction l with
  | nil => rfl
  | cons a rest ih =>
      rw [InOrder, List.pairwise_cons] at hOrder
      rw [List.dropWhile_cons, List.filter_cons]
      by_cases hOld : limit < now - time a
      · have hOut : ¬ now - limit ≤ time a := by omega
        rw [if_pos (decide_eq_true hOld),
          if_neg (by simpa using hOut)]
        exact ih hOrder.2
      · have hIn : now - limit ≤ time a := by omega
        rw [if_neg (by simpa using hOld),
          if_pos (decide_eq_true hIn)]
        have hAll : ∀ b ∈ rest,
            decide (now - limit ≤ time b) = true := by
          intro b hB
          have hLater := hOrder.1 b hB
          exact decide_eq_true (by omega)
        rw [List.filter_eq_self.mpr hAll]

/- The window holds what is not too old of the elements that
went by. -/
theorem fill_isSome_iff_of
    {done rest window : List α} {since : Int}
    (hOrder : InOrder time (done ++ rest))
    (hWindow : window =
      done.filter fun x => decide (since ≤ time x))
    (hSince : ∀ a ∈ rest, ∀ x ∈ done,
      time a - limit ≤ time x → since ≤ time x) :
    (fill time limit n window rest).isSome = true ↔
      ∃ before a after, rest = before ++ a :: after ∧
        n ≤ ((done ++ before ++ [a]).filter fun x =>
          decide (time a - limit ≤ time x)).length := by
  induction rest generalizing done window since with
  | nil =>
      constructor
      · intro hSome
        cases hSome
      · rintro ⟨before, a, after, hSplit, _⟩
        cases before with
        | nil => cases hSplit
        | cons b before => cases hSplit
  | cons a rest ih =>
      have hHere : InOrder time (done ++ [a]) := by
        refine List.Pairwise.sublist ?_ hOrder
        exact (List.Sublist.refl done).append
          (List.singleton_sublist.mpr List.mem_cons_self)
      have hKept :
          ((window ++ [a]).dropWhile fun old =>
            decide (limit < time a - time old)) =
          (done ++ [a]).filter fun x =>
            decide (time a - limit ≤ time x) := by
        have hSub : (window ++ [a]).Sublist (done ++ [a]) := by
          rw [hWindow]
          exact List.filter_sublist.append_right [a]
        rw [dropWhile_inOrder (List.Pairwise.sublist hSub hHere),
          hWindow, List.filter_append, List.filter_append,
          List.filter_filter]
        congr 1
        apply List.filter_congr
        intro x hX
        have hOlder := hSince a List.mem_cons_self x hX
        rw [Bool.eq_iff_iff, Bool.and_eq_true, decide_eq_true_iff,
          decide_eq_true_iff]
        exact and_iff_left_of_imp hOlder
      rw [fill]
      rw [hKept]
      by_cases hFull : n ≤ ((done ++ [a]).filter fun x =>
          decide (time a - limit ≤ time x)).length
      · rw [if_pos hFull]
        refine iff_of_true rfl ⟨[], a, rest, rfl, ?_⟩
        rw [List.append_nil]
        exact hFull
      · rw [if_neg hFull]
        have hNext : InOrder time ((done ++ [a]) ++ rest) := by
          rw [List.append_assoc]
          exact hOrder
        have hLater : ∀ b ∈ rest, ∀ x ∈ done ++ [a],
            time b - limit ≤ time x → time a - limit ≤ time x := by
          intro b hB x _ hX
          rw [InOrder, List.pairwise_append,
            List.pairwise_cons] at hOrder
          have hAfter := hOrder.2.1.1 b hB
          omega
        rw [ih hNext rfl hLater]
        constructor
        · rintro ⟨before, b, after, hSplit, hCount⟩
          refine ⟨a :: before, b, after, by rw [hSplit]; rfl, ?_⟩
          rw [show done ++ (a :: before) = done ++ [a] ++ before
            by simp]
          exact hCount
        · rintro ⟨before, b, after, hSplit, hCount⟩
          cases before with
          | nil =>
              injection hSplit with hHead hTail
              subst hHead
              rw [List.append_nil] at hCount
              exact absurd hCount hFull
          | cons c before =>
              injection hSplit with hHead hTail
              subst hHead
              refine ⟨before, b, after, hTail, ?_⟩
              rw [show done ++ [a] ++ before = done ++ (a :: before)
                by simp]
              exact hCount

/- The last of the elements with a property. -/
theorem exists_last
    {p : α → Bool} {l : List α}
    (hSome : 0 < l.countP p) :
    ∃ before a after, l = before ++ a :: after ∧ p a = true ∧
      after.countP p = 0 := by
  induction l with
  | nil => cases hSome
  | cons b rest ih =>
      by_cases hRest : 0 < rest.countP p
      · rcases ih hRest with ⟨before, a, after, rfl, hA, hAfter⟩
        exact ⟨b :: before, a, after, rfl, hA, hAfter⟩
      · have hNone : rest.countP p = 0 := by omega
        rw [List.countP_cons, hNone] at hSome
        refine ⟨[], b, rest, rfl, ?_, hNone⟩
        by_contra hB
        rw [if_neg hB] at hSome
        omega

/- A window fills exactly if some interval as long as the limit
has enough elements. -/
theorem fill_isSome_iff
    {l : List α}
    (hOrder : InOrder time l) (hPos : 0 < n) :
    (fill time limit n [] l).isSome = true ↔
      ∃ t : Int, n ≤ l.countP fun x =>
        decide (t ≤ time x) && decide (time x ≤ t + limit) := by
  rw [@fill_isSome_iff_of α time limit n [] l [] 0 hOrder rfl
    (fun _ _ x hX => absurd hX List.not_mem_nil)]
  constructor
  · rintro ⟨before, a, after, hSplit, hCount⟩
    refine ⟨time a - limit, ?_⟩
    rw [List.nil_append, ← List.countP_eq_length_filter] at hCount
    have hPart : (before ++ [a]).Sublist l := by
      rw [hSplit]
      exact (List.Sublist.refl before).append
        (List.singleton_sublist.mpr List.mem_cons_self)
    refine hCount.trans ((List.countP_mono_left ?_).trans
      hPart.countP_le)
    intro x hX hRecent
    have hBefore : time x ≤ time a := by
      have hParts := List.Pairwise.sublist hPart hOrder
      rw [List.pairwise_append] at hParts
      rcases List.mem_append.mp hX with hEarlier | hLast
      · exact hParts.2.2 x hEarlier a List.mem_cons_self
      · rw [List.mem_singleton.mp hLast]
    rw [Bool.and_eq_true]
    exact ⟨hRecent, decide_eq_true (by omega)⟩
  · rintro ⟨t, hCount⟩
    rcases exists_last (hPos.trans_le hCount) with
      ⟨before, a, after, hSplit, hA, hAfter⟩
    rw [Bool.and_eq_true, decide_eq_true_iff,
      decide_eq_true_iff] at hA
    refine ⟨before, a, after, hSplit, ?_⟩
    rw [List.nil_append, ← List.countP_eq_length_filter]
    rw [hSplit, List.append_cons, List.countP_append, hAfter,
      Nat.add_zero] at hCount
    refine hCount.trans (List.countP_mono_left ?_)
    intro x _ hX
    rw [Bool.and_eq_true, decide_eq_true_iff,
      decide_eq_true_iff] at hX
    exact decide_eq_true (by omega)

end

---- Neighbours

variable {α κ : Type*} {time : α → Int} {label : α → κ}
  {limit : Int}

/- If two elements with different labels are close then so are
two neighbours: between the two the label changes. -/
theorem close_neighbours_iff
    {l : List α}
    (hOrder : InOrder time l) :
    (∃ p ∈ l.zip l.tail, time p.2 - time p.1 ≤ limit ∧
        label p.1 ≠ label p.2) ↔
      ∃ a ∈ l, ∃ b ∈ l, time a ≤ time b ∧
        time b - time a ≤ limit ∧ label a ≠ label b := by
  induction l with
  | nil => simp
  | cons a rest ih =>
      cases rest with
      | nil =>
          constructor
          · rintro ⟨p, hP, _⟩
            cases hP
          · rintro ⟨x, hX, y, hY, _, _, hOther⟩
            rw [List.mem_singleton.mp hX,
              List.mem_singleton.mp hY] at hOther
            exact absurd rfl hOther
      | cons b rest =>
          rw [InOrder, List.pairwise_cons] at hOrder
          have hRest := hOrder.2
          rw [List.pairwise_cons] at hRest
          have hNext := hOrder.1 b List.mem_cons_self
          constructor
          · rintro ⟨p, hP, hClose, hOther⟩
            rw [List.tail_cons, List.zip_cons_cons] at hP
            rcases List.mem_cons.mp hP with hFirst | hLater
            · rw [hFirst] at hClose hOther
              exact ⟨a, List.mem_cons_self, b,
                List.mem_cons_of_mem _ List.mem_cons_self, hNext,
                hClose, hOther⟩
            · rcases (ih hOrder.2).mp ⟨p, hLater, hClose, hOther⟩
                with ⟨x, hX, y, hY, hFound⟩
              exact ⟨x, List.mem_cons_of_mem _ hX, y,
                List.mem_cons_of_mem _ hY, hFound⟩
          · -- the label changes at once, or between the second
            -- element and the other one
            have hFrom : ∀ y ∈ b :: rest, time y - time a ≤ limit →
                label a ≠ label y →
                ∃ p ∈ (a :: b :: rest).zip (b :: rest),
                  time p.2 - time p.1 ≤ limit ∧
                    label p.1 ≠ label p.2 := by
              intro y hY hClose hOther
              have hBetween : time b ≤ time y := by
                rcases List.mem_cons.mp hY with hSame | hLater
                · rw [hSame]
                · exact hRest.1 y hLater
              by_cases hSame : label a = label b
              · rw [hSame] at hOther
                rcases (ih hOrder.2).mpr ⟨b, List.mem_cons_self, y,
                    hY, hBetween, by omega, hOther⟩ with
                  ⟨p, hP, hFound⟩
                exact ⟨p, List.mem_cons_of_mem _ hP, hFound⟩
              · exact ⟨(a, b), List.mem_cons_self,
                  (by omega : time b - time a ≤ limit), hSame⟩
            rintro ⟨x, hX, y, hY, hLe, hClose, hOther⟩
            rcases List.mem_cons.mp hX with hXa | hXr
            · rcases List.mem_cons.mp hY with hYa | hYr
              · rw [hXa, hYa] at hOther
                exact absurd rfl hOther
              · rw [hXa] at hClose hOther
                exact hFrom y hYr hClose hOther
            · rcases List.mem_cons.mp hY with hYa | hYr
              · have hAfter := hOrder.1 x hXr
                rw [hYa] at hLe hOther hClose
                exact hFrom x hXr (by omega) (Ne.symm hOther)
              · rcases (ih hOrder.2).mpr
                    ⟨x, hXr, y, hYr, hLe, hClose, hOther⟩ with
                  ⟨p, hP, hFound⟩
                exact ⟨p, List.mem_cons_of_mem _ hP, hFound⟩

end Lib
