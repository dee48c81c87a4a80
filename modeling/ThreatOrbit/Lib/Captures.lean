import ThreatOrbit.Lib.Caseless

/-
  What a pattern does to the cursor, and what the groups of a
  match hold.

  Key definitions:
    * `Moves`
    * `Spans`, `Holds`
-/

---- Moves

namespace Lib

namespace Regex

/- Every way to match goes along a relation. -/
def Moves
    (R : Cursor → Cursor → Prop)
    (r : Regex) : Prop :=
  ∀ c, ∀ d ∈ r.run c, R c d

section Rules

variable {R : Cursor → Cursor → Prop}
variable {a b : Regex}

theorem moves_empty
    (hRefl : ∀ c, R c c) :
    Moves R .empty := by
  intro c d hD
  rw [run, List.mem_singleton] at hD
  rw [hD]
  exact hRefl c

theorem moves_seq
    (hTrans : ∀ c d e, R c d → R d e → R c e) (hA : Moves R a)
    (hB : Moves R b) :
    Moves R (.seq a b) := by
  intro c e hE
  rw [run, List.mem_flatMap] at hE
  rcases hE with ⟨d, hD, hE⟩
  exact hTrans c d e (hA c d hD) (hB d e hE)

theorem moves_alt
    (hA : Moves R a) (hB : Moves R b) :
    Moves R (.alt a b) := by
  intro c d hD
  rw [run, List.mem_append] at hD
  rcases hD with hFirst | hSecond
  · exact hA c d hFirst
  · exact hB c d hSecond

/- A repetition goes along a relation that its body does. -/
theorem moves_star
    (hRefl : ∀ c, R c c) (hTrans : ∀ c d e, R c d → R d e → R c e)
    (greedy : Bool) (hA : Moves R a) :
    Moves R (.star greedy a) := by
  have hIterate (n : Nat) :
      ∀ c, ∀ e ∈ iterate greedy a.run n c, R c e := by
    induction n with
    | zero =>
        intro c e hE
        rw [iterate, List.mem_singleton] at hE
        rw [hE]
        exact hRefl c
    | succ n ih =>
        intro c e hE
        rw [iterate] at hE
        have hCases : e = c ∨ ∃ d ∈ a.run c,
            e ∈ iterate greedy a.run n d := by
          split at hE
          · rcases List.mem_append.mp hE with hMore | hHere
            · rcases List.mem_flatMap.mp hMore with ⟨d, hD, hE⟩
              split at hE
              · exact .inr ⟨d, hD, hE⟩
              · cases hE
            · exact .inl (List.mem_singleton.mp hHere)
          · rcases List.mem_cons.mp hE with hHere | hMore
            · exact .inl hHere
            · rcases List.mem_flatMap.mp hMore with ⟨d, hD, hE⟩
              split at hE
              · exact .inr ⟨d, hD, hE⟩
              · cases hE
        rcases hCases with rfl | ⟨d, hD, hE⟩
        · exact hRefl e
        · exact hTrans c d e (hA c d hD) (ih d e hE)
  intro c e hE
  rw [run] at hE
  exact hIterate _ c e hE

/- A test of a place takes nothing. -/
theorem moves_assert
    (hRefl : ∀ c, R c c) (p : Str → Str → Bool) :
    Moves R (.assert p) := by
  intro c d hD
  rw [run] at hD
  split at hD
  · rw [List.mem_singleton.mp hD]
    exact hRefl c
  · cases hD

theorem moves_opt
    (hRefl : ∀ c, R c c) (hA : Moves R a) :
    Moves R (opt a) :=
  moves_alt hA (moves_empty hRefl)

theorem moves_plus
    (hRefl : ∀ c, R c c) (hTrans : ∀ c d e, R c d → R d e → R c e)
    (hA : Moves R a) :
    Moves R (plus a) :=
  moves_seq hTrans hA (moves_star hRefl hTrans true hA)

/- One pattern after another. -/
theorem moves_cat
    (hRefl : ∀ c, R c c) (hTrans : ∀ c d e, R c d → R d e → R c e)
    {l : List Regex}
    (hAll : ∀ r ∈ l, Moves R r) :
    Moves R (cat l) := by
  induction l with
  | nil => exact moves_empty hRefl
  | cons r rest ih =>
      rw [List.forall_mem_cons] at hAll
      exact moves_seq hTrans hAll.1 (ih hAll.2)

end Rules

end Regex

end Lib

---- Groups

namespace Lib

namespace Regex

/- What a pattern takes is of a class. -/
def Spans (p : Nat → Bool) : Cursor → Cursor → Prop :=
  fun c d => ∃ w, c.after = w ++ d.after ∧ ∀ x ∈ w, p x = true

/- The groups of a number that were good still are. -/
def Holds (i : Nat) (Q : Str → Prop) :
    Cursor → Cursor → Prop :=
  fun c d =>
    (∀ v, (i, v) ∈ c.groups → Q v) →
      ∀ v, (i, v) ∈ d.groups → Q v

variable {p : Nat → Bool}
variable {i : Nat}
variable {Q : Str → Prop}

theorem spans_refl (c : Cursor) :
    Spans p c c :=
  ⟨[], rfl, by simp⟩

theorem spans_trans
    (c d e : Cursor) (hFirst : Spans p c d)
    (hSecond : Spans p d e) :
    Spans p c e := by
  rcases hFirst with ⟨v, hV, hAll⟩
  rcases hSecond with ⟨w, hW, hMore⟩
  refine ⟨v ++ w, ?_, ?_⟩
  · rw [hV, hW, List.append_assoc]
  · exact List.forall_mem_append.mpr ⟨hAll, hMore⟩

theorem spans_cls :
    Moves (Spans p) (.cls p) := by
  intro c d hD
  rw [run] at hD
  split at hD
  · rename_i x rest hAfter
    split at hD
    · rename_i hX
      rw [List.mem_singleton.mp hD]
      exact ⟨[x], by rw [hAfter]; rfl, by simpa using hX⟩
    · cases hD
  · cases hD

theorem holds_refl (c : Cursor) :
    Holds i Q c c :=
  fun hAll => hAll

theorem holds_trans
    (c d e : Cursor) (hFirst : Holds i Q c d)
    (hSecond : Holds i Q d e) :
    Holds i Q c e :=
  fun hAll => hSecond (hFirst hAll)

theorem holds_cls
    (q : Nat → Bool) :
    Moves (Holds i Q) (.cls q) := by
  intro c d hD
  rw [run] at hD
  split at hD
  · split at hD
    · rw [List.mem_singleton.mp hD]
      exact fun hAll => hAll
    · cases hD
  · cases hD

/- A word sets no group. -/
theorem holds_wordI
    (s : String) :
    Moves (Holds i Q) (wordI s) := by
  unfold wordI
  induction lit s with
  | nil => exact moves_empty holds_refl
  | cons x rest ih =>
      exact moves_seq holds_trans (holds_cls _) ih

theorem holds_word
    (s : String) :
    Moves (Holds i Q) (word s) := by
  unfold word
  induction s.toList with
  | nil => exact moves_empty holds_refl
  | cons x rest ih =>
      exact moves_seq holds_trans (holds_cls _) ih

/- A group holds what its pattern takes. -/
theorem holds_group
    {a : Regex}
    (j : Nat) (hA : Moves (Holds i Q) a)
    (hTakes : j = i → ∀ c, ∀ d ∈ a.run c, Q (c.upto d)) :
    Moves (Holds i Q) (.group j a) := by
  intro c d hD
  rw [run, List.mem_map] at hD
  rcases hD with ⟨e, hE, rfl⟩
  intro hAll v hV
  rcases List.mem_cons.mp hV with hHere | hOld
  · rw [Prod.mk.injEq] at hHere
    rw [hHere.2]
    exact hTakes hHere.1.symm c e hE
  · exact hA c e hE hAll v hOld

theorem upto_of_spans
    {a : Regex}
    (hA : Moves (Spans p) a) :
    ∀ c, ∀ d ∈ a.run c, ∀ x ∈ c.upto d, p x = true := by
  intro c d hD
  rcases hA c d hD with ⟨w, hW, hAll⟩
  rw [Cursor.upto_append c d w hW]
  exact hAll

/- A group of a match that starts without groups is good. -/
theorem holds_of_run
    {r : Regex} {m : Match} {v : Str}
    (hR : Moves (Holds i Q) r) (hStart : m.start.groups = [])
    (hStop : m.stop ∈ r.run m.start) (hGroup : m.group i = some v) :
    Q v := by
  rcases Option.map_eq_some_iff.mp hGroup with ⟨g, hG, rfl⟩
  have hKey := List.find?_some hG
  rw [beq_iff_eq] at hKey
  apply hR m.start m.stop hStop
  · intro v hV
    rw [hStart] at hV
    cases hV
  · have hMem := List.mem_of_find?_eq_some hG
    rw [← hKey]
    exact hMem

theorem groups_of_searchFrom
    {r : Regex} {before s : Str} {m : Match}
    (hFound : r.searchFrom before s = some m) :
    m.start.groups = [] := by
  have hMatchAt (before s : Str)
      (hHere : r.matchAt ⟨before, s, []⟩ = some m) :
      m.start.groups = [] := by
    unfold matchAt at hHere
    rcases Option.map_eq_some_iff.mp hHere with ⟨_, _, rfl⟩
    rfl
  induction s generalizing before with
  | nil => exact hMatchAt before [] hFound
  | cons x rest ih =>
      rw [searchFrom] at hFound
      split at hFound
      · rename_i found hHere
        cases hFound
        exact hMatchAt before (x :: rest) hHere
      · exact ih hFound

/- A group of a match that is found is good. -/
theorem holds_of_search
    {r : Regex} {s v : Str} {m : Match}
    (hR : Moves (Holds i Q) r) (hFound : r.search s = some m)
    (hGroup : m.group i = some v) :
    Q v :=
  holds_of_run hR (groups_of_searchFrom hFound)
    (List.mem_of_head? (run_of_searchFrom hFound)) hGroup

/- A group of a match at the start is good. -/
theorem holds_of_matchAt
    {r : Regex} {s v : Str} {m : Match}
    (hR : Moves (Holds i Q) r)
    (hFound : r.matchAt (.start s) = some m)
    (hGroup : m.group i = some v) :
    Q v := by
  unfold matchAt at hFound
  rcases Option.map_eq_some_iff.mp hFound with
    ⟨stop, hStop, rfl⟩
  exact holds_of_run hR rfl (List.mem_of_head? hStop) hGroup

end Regex

end Lib
