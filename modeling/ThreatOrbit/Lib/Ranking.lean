import Mathlib

/-
  Lists in order: what a filter leaves of a sorted list, and
  the first of the elements with the greatest measure, which
  `ORDER BY … DESC LIMIT 1` returns.
-/

---- Sorted Lists

namespace Lib

/- A filter of a list with an element inserted, where the
list is sorted. -/
theorem filter_orderedInsert
    {α : Type*} {r : α → α → Prop} [DecidableRel r] [IsTrans α r]
    (p : α → Bool) (a : α) {l : List α} (hSorted : l.Pairwise r) :
    (l.orderedInsert r a).filter p =
      if p a then (l.filter p).orderedInsert r a
      else l.filter p := by
  induction l with
  | nil =>
      cases hA : p a with
      | true => simp [hA]
      | false => simp [hA]
  | cons b rest ih =>
      rcases List.pairwise_cons.mp hSorted with ⟨hFirst, hRest⟩
      rw [List.orderedInsert_cons]
      split
      · rename_i hLe
        have hAll : ∀ c ∈ (b :: rest).filter p, r a c := by
          intro c hC
          rcases List.mem_cons.mp (List.mem_of_mem_filter hC) with
            rfl | hMem
          · exact hLe
          · exact IsTrans.trans _ _ _ hLe (hFirst c hMem)
        rw [List.filter_cons]
        split
        · generalize (b :: rest).filter p = kept at hAll
          cases kept with
          | nil => rfl
          | cons c more =>
              rw [List.orderedInsert_cons_of_le r more
                (hAll c List.mem_cons_self)]
        · rfl
      · rename_i hNot
        rw [List.filter_cons, ih hRest, List.filter_cons]
        cases hB : p b with
        | true =>
            simp only [if_true]
            split
            · rw [List.orderedInsert_of_not_le r _ hNot]
            · rfl
        | false => simp

/- A stable sort of what a filter keeps. -/
theorem filter_insertionSort
    {α : Type*} {r : α → α → Prop} [DecidableRel r] [IsTrans α r]
    [Std.Total r]
    (p : α → Bool) (l : List α) :
    (l.insertionSort r).filter p =
      (l.filter p).insertionSort r := by
  induction l with
  | nil => rfl
  | cons a rest ih =>
      rw [List.insertionSort_cons, filter_orderedInsert p a
        (List.pairwise_insertionSort r rest), ih,
        List.filter_cons]
      split
      · rw [List.insertionSort_cons]
      · rfl

---- The First Of The Greatest

/- The first of the elements with the greatest measure. -/
def top
    {α : Type*}
    (measure : α → Nat) : List α → Option α
| [] => none
| a :: rest =>
    match top measure rest with
    | none => some a
    | some b => if measure a < measure b then some b else some a

variable {α : Type*} {measure : α → Nat}

theorem mem_of_top
    {l : List α} {a : α}
    (hTop : top measure l = some a) :
    a ∈ l := by
  induction l generalizing a with
  | nil => cases hTop
  | cons b rest ih =>
      rw [top] at hTop
      cases hRest : top measure rest with
      | none =>
          rw [hRest] at hTop
          cases hTop
          exact List.mem_cons_self
      | some c =>
          rw [hRest] at hTop
          simp only at hTop
          split at hTop
          · cases hTop
            exact List.mem_cons_of_mem _ (ih hRest)
          · cases hTop
            exact List.mem_cons_self

theorem top_eq_none_iff
    {l : List α} :
    top measure l = none ↔ l = [] := by
  cases l with
  | nil => simp [top]
  | cons a rest =>
      rw [top]
      split
      · simp
      · split
        · simp
        · simp

end Lib
