import Mathlib

/-
  `ORDER BY key DESC LIMIT 1`: one of the rows with the
  greatest key. Which one is up to the database.

  Key definitions:
    * `Picker`
    * `Picker.first`, `Picker.preferring`
-/

---- Pickers

namespace Lib

section

variable {α κ : Type*} [LinearOrder κ]

/- A choice of a row with the greatest key, in each table. -/
structure Picker (key : α → κ) where
  pick : List α → Option α
  some_of_mem :
    ∀ rows a, a ∈ rows → ∃ first, pick rows = some first
  mem : ∀ rows first, pick rows = some first → first ∈ rows
  greatest :
    ∀ rows first, pick rows = some first →
      ∀ a ∈ rows, key a ≤ key first

end

---- The First Of The Greatest

section

variable {α κ : Type*} [LinearOrder κ] {key : α → κ}

/- Of the rows with the greatest key, the first one. -/
def firstBy (key : α → κ) : List α → Option α
| [] => none
| a :: rest =>
    match firstBy key rest with
    | none => some a
    | some later => if key a < key later then some later else some a

theorem firstBy_cases
    {a first : α} {rest : List α}
    (hFirst : firstBy key (a :: rest) = some first) :
    (firstBy key rest = none ∧ first = a) ∨
      ∃ later, firstBy key rest = some later ∧
        ((key a < key later ∧ first = later) ∨
          (key later ≤ key a ∧ first = a)) := by
  rw [firstBy] at hFirst
  cases hRest : firstBy key rest with
  | none =>
      rw [hRest] at hFirst
      exact Or.inl ⟨rfl, (Option.some.inj hFirst).symm⟩
  | some later =>
      rw [hRest] at hFirst
      refine Or.inr ⟨later, rfl, ?_⟩
      by_cases hLess : key a < key later
      · simp only [if_pos hLess, Option.some.injEq] at hFirst
        exact Or.inl ⟨hLess, hFirst.symm⟩
      · simp only [if_neg hLess, Option.some.injEq] at hFirst
        exact Or.inr ⟨not_lt.mp hLess, hFirst.symm⟩

theorem firstBy_none
    {rows : List α}
    (hNone : firstBy key rows = none) :
    rows = [] := by
  cases rows with
  | nil => rfl
  | cons a rest =>
      rw [firstBy] at hNone
      cases hRest : firstBy key rest with
      | none => simp [hRest] at hNone
      | some later =>
          simp only [hRest] at hNone
          split at hNone
          · cases hNone
          · cases hNone

theorem firstBy_some_of_mem
    {rows : List α} {a : α}
    (hMem : a ∈ rows) :
    ∃ first, firstBy key rows = some first := by
  cases hFirst : firstBy key rows with
  | none =>
      rw [firstBy_none hFirst] at hMem
      cases hMem
  | some first => exact ⟨first, rfl⟩

theorem firstBy_mem
    {rows : List α} {first : α}
    (hFirst : firstBy key rows = some first) :
    first ∈ rows := by
  induction rows generalizing first with
  | nil => cases hFirst
  | cons a rest ih =>
      rcases firstBy_cases hFirst with
        ⟨_, rfl⟩ | ⟨later, hRest, ⟨_, rfl⟩ | ⟨_, rfl⟩⟩
      · exact List.mem_cons_self
      · exact List.mem_cons_of_mem _ (ih hRest)
      · exact List.mem_cons_self

theorem firstBy_greatest
    {rows : List α} {first : α}
    (hFirst : firstBy key rows = some first) :
    ∀ a ∈ rows, key a ≤ key first := by
  induction rows generalizing first with
  | nil => cases hFirst
  | cons a rest ih =>
      rw [List.forall_mem_cons]
      rcases firstBy_cases hFirst with
        ⟨hNone, rfl⟩ |
          ⟨later, hRest, ⟨hLess, rfl⟩ | ⟨hLe, rfl⟩⟩
      · rw [firstBy_none hNone]
        exact ⟨le_refl _, List.forall_mem_nil _⟩
      · exact ⟨le_of_lt hLess, ih hRest⟩
      · exact ⟨le_refl _, fun s hs =>
          le_trans (ih hRest s hs) hLe⟩

/- An index over the key that lists equal keys as the table
does. -/
def Picker.first (key : α → κ) : Picker key where
  pick := firstBy key
  some_of_mem _ _ hMem := firstBy_some_of_mem hMem
  mem _ _ hFirst := firstBy_mem hFirst
  greatest _ _ hFirst := firstBy_greatest hFirst

/- The last row of a table is picked where all others have a
smaller key. -/
theorem firstBy_append_singleton
    {rows : List α} {a first : α}
    (hFirst : firstBy key (rows ++ [a]) = some first) :
    first ∈ rows ∨ first = a ∧ ∀ b ∈ rows, key b < key a := by
  induction rows generalizing first with
  | nil =>
      have hIs : some a = some first := hFirst
      exact Or.inr
        ⟨(Option.some.inj hIs).symm, List.forall_mem_nil _⟩
  | cons b rest ih =>
      rw [List.cons_append] at hFirst
      rcases firstBy_cases hFirst with
        ⟨_, rfl⟩ | ⟨later, hRest, ⟨hLess, rfl⟩ | ⟨_, rfl⟩⟩
      · exact Or.inl List.mem_cons_self
      · rcases ih hRest with hIn | ⟨rfl, hAll⟩
        · exact Or.inl (List.mem_cons_of_mem _ hIn)
        · exact Or.inr
            ⟨rfl, List.forall_mem_cons.mpr ⟨hLess, hAll⟩⟩
      · exact Or.inl List.mem_cons_self

end

---- A Preferred One

variable {α κ : Type*} [LinearOrder κ] {key : α → κ}

/- Of the rows with the greatest key, one with a property if
there is one. -/
def preferred
    (key : α → κ)
    (p : α → Bool)
    (rows : List α) : Option α :=
  match firstBy key rows with
  | none => none
  | some first =>
      match rows.find? fun a => p a && key first ≤ key a with
      | none => some first
      | some other => some other

theorem preferred_cases
    {p : α → Bool} {rows : List α} {picked : α}
    (hPicked : preferred key p rows = some picked) :
    ∃ first, firstBy key rows = some first ∧
      picked ∈ rows ∧ key first ≤ key picked := by
  unfold preferred at hPicked
  cases hFirst : firstBy key rows with
  | none =>
      rw [hFirst] at hPicked
      cases hPicked
  | some first =>
      rw [hFirst] at hPicked
      dsimp only at hPicked
      refine ⟨first, rfl, ?_⟩
      split at hPicked
      · cases hPicked
        exact ⟨firstBy_mem hFirst, le_refl _⟩
      · rename_i other hFind
        cases hPicked
        have hBoth := List.find?_some hFind
        rw [Bool.and_eq_true] at hBoth
        exact ⟨List.mem_of_find?_eq_some hFind,
          of_decide_eq_true hBoth.2⟩

/- A database that prefers such rows. -/
def Picker.preferring
    (key : α → κ)
    (p : α → Bool) : Picker key where
  pick := preferred key p
  some_of_mem rows a hMem := by
    have hSome : ∃ first, firstBy key rows = some first :=
      firstBy_some_of_mem hMem
    rcases hSome with ⟨first, hFirst⟩
    unfold preferred
    rw [hFirst]
    dsimp only
    split
    · exact ⟨first, rfl⟩
    · exact ⟨_, rfl⟩
  mem rows picked hPicked := by
    rcases preferred_cases hPicked with ⟨_, _, hMem, _⟩
    exact hMem
  greatest rows picked hPicked := by
    rcases preferred_cases hPicked with ⟨first, hFirst, _, hLe⟩
    intro a hMem
    exact le_trans (firstBy_greatest hFirst a hMem) hLe

/- One of the rows with the greatest key has the property:
such a row is picked. -/
theorem preferring_of_mem
    {p : α → Bool} {rows : List α} {a : α}
    (hMem : a ∈ rows) (hA : p a = true)
    (hGreatest : ∀ b ∈ rows, key b ≤ key a) :
    ∃ picked,
      (Picker.preferring key p).pick rows = some picked ∧
        p picked = true := by
  have hSome : ∃ first, firstBy key rows = some first :=
    firstBy_some_of_mem hMem
  rcases hSome with ⟨first, hFirst⟩
  change ∃ picked, preferred key p rows = some picked ∧ _
  unfold preferred
  rw [hFirst]
  dsimp only
  cases hFind : rows.find? fun a => p a && key first ≤ key a with
  | none =>
      have hNot := List.find?_eq_none.mp hFind a hMem
      rw [hA, Bool.true_and] at hNot
      exact absurd
        (decide_eq_true
          (hGreatest first (firstBy_mem hFirst))) hNot
  | some other =>
      have hBoth := List.find?_some hFind
      rw [Bool.and_eq_true] at hBoth
      exact ⟨other, rfl, hBoth.1⟩

end Lib
