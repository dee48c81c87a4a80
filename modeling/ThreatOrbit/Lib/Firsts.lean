import Mathlib

/-
  The first elements of a list with keys that are not known:
  what is left of it when a loop passes over the keys that
  it has seen.
-/

---- Firsts

namespace Lib

variable {α κ : Type*} [BEq κ] [LawfulBEq κ]

/- The elements whose keys are neither known nor those of
elements before them. -/
@[grind =]
def firstsBy
    {α κ : Type*}
    [BEq κ]
    (key : α → κ) : List κ → List α → List α
| _, [] => []
| known, a :: rest =>
    if known.contains (key a) then firstsBy key known rest
    else a :: firstsBy key (key a :: known) rest

variable {key : α → κ}

theorem mem_of_mem_firstsBy
    {known : List κ} {l : List α} {a : α}
    (hA : a ∈ firstsBy key known l) :
    a ∈ l ∧ key a ∉ known := by
  induction l generalizing known with
  | nil => cases hA
  | cons b rest ih =>
      rw [firstsBy] at hA
      split at hA
      · rcases ih hA with ⟨hMem, hNew⟩
        exact ⟨List.mem_cons_of_mem _ hMem, hNew⟩
      · rename_i hFresh
        rw [List.contains_iff_mem] at hFresh
        rcases List.mem_cons.mp hA with hHead | hTail
        · rw [hHead]
          exact ⟨List.mem_cons_self, hFresh⟩
        · rcases ih hTail with ⟨hMem, hNew⟩
          rw [List.mem_cons, not_or] at hNew
          exact ⟨List.mem_cons_of_mem _ hMem, hNew.2⟩

/- Every key is known or is that of a first. -/
theorem firstsBy_covers
    {l : List α} {a : α}
    (known : List κ) (hA : a ∈ l) :
    key a ∈ known ∨
      ∃ b ∈ firstsBy key known l, key b = key a := by
  induction l generalizing known with
  | nil => cases hA
  | cons b rest ih =>
      rw [firstsBy]
      split
      · rename_i hOld
        rw [List.contains_iff_mem] at hOld
        rcases List.mem_cons.mp hA with hHead | hTail
        · exact .inl (hHead ▸ hOld)
        · exact ih known hTail
      · rcases List.mem_cons.mp hA with hHead | hTail
        · exact .inr ⟨b, List.mem_cons_self, by rw [hHead]⟩
        · rcases ih (key b :: known) hTail with
            hKnown | ⟨c, hC, hSame⟩
          · rcases List.mem_cons.mp hKnown with hSame | hOld
            · exact .inr ⟨b, List.mem_cons_self, hSame.symm⟩
            · exact .inl hOld
          · exact .inr ⟨c, List.mem_cons_of_mem _ hC, hSame⟩

omit [LawfulBEq κ] in
theorem firstsBy_sublist
    (known : List κ) (l : List α) :
    (firstsBy key known l).Sublist l := by
  induction l generalizing known with
  | nil => exact List.Sublist.slnil
  | cons b rest ih =>
      rw [firstsBy]
      split
      · exact (ih known).cons b
      · exact (ih (key b :: known)).cons_cons b

/- Which of the keys of the list are known is all that
counts. -/
theorem firstsBy_congr
    {known other : List κ} {l : List α}
    (hSame : ∀ a ∈ l, key a ∈ known ↔ key a ∈ other) :
    firstsBy key known l = firstsBy key other l := by
  induction l generalizing known other with
  | nil => rfl
  | cons b rest ih =>
      rw [List.forall_mem_cons] at hSame
      have hContains :
          known.contains (key b) = other.contains (key b) := by
        rw [Bool.eq_iff_iff, List.contains_iff_mem,
          List.contains_iff_mem]
        exact hSame.1
      have hMore : ∀ a ∈ rest,
          key a ∈ key b :: known ↔ key a ∈ key b :: other := by
        intro a hA
        rw [List.mem_cons, List.mem_cons, hSame.2 a hA]
      rw [firstsBy, firstsBy, hContains, ih hSame.2, ih hMore]

/- The firsts of all, without those whose keys are known. -/
theorem firstsBy_nil_filter
    (known : List κ) (l : List α) :
    (firstsBy key [] l).filter
        (fun a => !known.contains (key a)) =
      firstsBy key known l := by
  have hFilter : ∀ (seen : List κ),
      (firstsBy key seen l).filter
          (fun a => !known.contains (key a)) =
        firstsBy key (seen ++ known) l := by
    induction l with
    | nil =>
        intro seen
        rfl
    | cons b rest ih =>
        intro seen
        rw [firstsBy, firstsBy]
        by_cases hSeen : key b ∈ seen
        · rw [if_pos (by simpa using hSeen),
            if_pos (by simp [hSeen]), ih]
        · rw [if_neg (by simpa using hSeen), List.filter_cons]
          by_cases hKnown : key b ∈ known
          · rw [if_neg (by simp [hKnown]),
              if_pos (by simp [hKnown]), ih]
            apply firstsBy_congr
            intro a _
            rw [List.cons_append, List.mem_cons]
            constructor
            · rintro (hSame | hMem)
              · rw [hSame]
                exact List.mem_append_right _ hKnown
              · exact hMem
            · exact .inr
          · rw [if_pos (by simp [hKnown]),
              if_neg (by simp [hSeen, hKnown]), ih,
              List.cons_append]
  simpa using hFilter []

/- Two lists of known keys leave firsts with the same keys
exactly when they have the same keys of the list. -/
theorem firstsBy_agree_iff
    {known other : List κ} {l : List α} :
    (firstsBy key known l).map key =
        (firstsBy key other l).map key ↔
      ∀ a ∈ l, key a ∈ known ↔ key a ∈ other := by
  have hPart : ∀ {known other : List κ},
      (firstsBy key known l).map key =
          (firstsBy key other l).map key →
        ∀ a ∈ l, key a ∈ known → key a ∈ other := by
    intro known other hSame a hA hKnown
    rcases firstsBy_covers other hA with hOther | ⟨b, hB, hKey⟩
    · exact hOther
    · have hMem : key b ∈ (firstsBy key known l).map key := by
        rw [hSame]
        exact List.mem_map_of_mem hB
      rcases List.mem_map.mp hMem with ⟨c, hC, hIs⟩
      have hNew := (mem_of_mem_firstsBy hC).2
      rw [hIs, hKey] at hNew
      exact absurd hKnown hNew
  constructor
  · intro hSame a hA
    exact ⟨hPart hSame a hA, hPart hSame.symm a hA⟩
  · intro hSame
    rw [firstsBy_congr hSame]

omit [LawfulBEq κ] in
/- The firsts of a list under themselves are the list without
its duplicates. -/
theorem firstsBy_id
    (known l : List κ) :
    firstsBy id known l =
      (l.filter fun a => !known.contains a).eraseDups := by
  induction l generalizing known with
  | nil => rfl
  | cons a rest ih =>
      rw [firstsBy, List.filter_cons]
      cases hKnown : known.contains a with
      | true =>
          simp only [id, hKnown, if_true, Bool.not_true,
            Bool.false_eq_true, if_false]
          exact ih known
      | false =>
          simp only [id, hKnown, Bool.false_eq_true, if_false,
            Bool.not_false, if_true]
          rw [List.eraseDups_cons, ih, List.filter_filter]
          congr 2
          apply List.filter_congr
          intro b _
          rw [List.contains_cons, Bool.not_or]

end Lib
