import ThreatOrbit.Lib.Regex

/-
  What `re.sub` puts in the place of the matches of a
  pattern.

  Key definitions:
    * `Regex.sub`
    * `Cursor.Onward`
-/

---- Substitution

namespace Lib

namespace Regex

/- A text with what is put in the place of its matches. -/
def replaced (f : Match → Str) (s : Str) : List Match → Str
| [] => s
| m :: rest =>
    s.take (s.length - m.start.after.length) ++ f m ++
      replaced f m.stop.after rest

/- `pattern.sub(f, text)` of a pattern that matches no empty
text. -/
def sub (r : Regex) (f : Match → Str) (s : Str) : Str :=
  replaced f s (r.findIter s)

end Regex

end Lib

---- Matching Goes Onward

namespace Lib

/- A cursor further on in a text, with groups that are parts
of it. -/
structure Cursor.Onward (c d : Cursor) : Prop where
  after_suffix : d.after <:+ c.after
  groups_mem :
    ∀ g ∈ d.groups, g ∈ c.groups ∨ g.2 <:+: c.after

theorem Cursor.Onward.refl (c : Cursor) : c.Onward c :=
  ⟨List.suffix_rfl, fun _ hG => Or.inl hG⟩

theorem Cursor.Onward.trans
    {c d e : Cursor}
    (hFirst : c.Onward d) (hThen : d.Onward e) :
    c.Onward e := by
  refine ⟨hThen.after_suffix.trans hFirst.after_suffix, ?_⟩
  intro g hG
  rcases hThen.groups_mem g hG with hOld | hNew
  · exact hFirst.groups_mem g hOld
  · exact Or.inr
      (hNew.trans hFirst.after_suffix.isInfix)

theorem iterate_onward
    {greedy : Bool} {step : Cursor → List Cursor}
    (hStep : ∀ c, ∀ d ∈ step c, c.Onward d) (n : Nat) (c : Cursor) :
    ∀ d ∈ iterate greedy step n c, c.Onward d := by
  induction n generalizing c with
  | zero =>
      intro d hD
      rw [List.mem_singleton.mp hD]
      exact .refl c
  | succ n ih =>
      intro d hD
      have hEither :
          d ∈ (step c).flatMap (fun e =>
              if e.after.length < c.after.length then
                iterate greedy step n e
              else []) ∨ d = c := by
        rw [iterate] at hD
        cases greedy with
        | true => simpa using hD
        | false => simpa [or_comm] using hD
      rcases hEither with hMore | rfl
      · rcases List.mem_flatMap.mp hMore with ⟨e, hE, hD⟩
        split at hD
        · exact (hStep c e hE).trans (ih e d hD)
        · cases hD
      · exact .refl d

namespace Regex

theorem run_onward
    (r : Regex) (c : Cursor) :
    ∀ d ∈ r.run c, c.Onward d := by
  induction r generalizing c with
  | empty =>
      intro d hD
      rw [List.mem_singleton.mp hD]
      exact .refl c
  | cls p =>
      rcases c with ⟨before, after, groups⟩
      intro d hD
      cases after with
      | nil => cases hD
      | cons x rest =>
          rw [run] at hD
          dsimp only at hD
          split at hD
          · rw [List.mem_singleton.mp hD]
            exact ⟨List.suffix_cons x rest,
              fun _ hG => Or.inl hG⟩
          · cases hD
  | seq a b ihA ihB =>
      intro d hD
      rcases List.mem_flatMap.mp hD with ⟨e, hE, hD⟩
      exact (ihA c e hE).trans (ihB e d hD)
  | alt a b ihA ihB =>
      intro d hD
      rcases List.mem_append.mp hD with hA | hB
      · exact ihA c d hA
      · exact ihB c d hB
  | star greedy a ih =>
      exact iterate_onward ih _ c
  | group i a ih =>
      intro d hD
      rcases List.mem_map.mp hD with ⟨e, hE, rfl⟩
      have hOnward := ih c e hE
      refine ⟨hOnward.after_suffix, ?_⟩
      intro g hG
      rcases List.mem_cons.mp hG with rfl | hOld
      · exact Or.inr (List.take_prefix _ _).isInfix
      · exact hOnward.groups_mem g hOld
  | ahead a ih =>
      intro d hD
      rw [run] at hD
      split at hD
      · cases hD
      · rw [List.mem_singleton.mp hD]
        exact .refl c
  | assert p =>
      intro d hD
      rw [run] at hD
      split at hD
      · rw [List.mem_singleton.mp hD]
        exact .refl c
      · cases hD

/- The characters that a repetition of a class takes. -/
theorem upto_star_cls
    {p : Nat → Bool}
    (c : Cursor) :
    ∀ d ∈ (Regex.star true (.cls p)).run c,
      ∀ x ∈ c.upto d, p x = true := by
  rcases c with ⟨before, after, groups⟩
  induction after generalizing before with
  | nil =>
      intro d hD x hX
      simp [Cursor.upto] at hX
  | cons y rest ih =>
      intro d hD x hX
      rw [run_star_cls_cons] at hD
      simp only [if_true] at hD
      rcases List.mem_append.mp hD with hMore | hHere
      · split at hMore
        · rename_i hClass
          have hSuffix :=
            (run_onward _ _ d hMore).after_suffix
          have hLength := hSuffix.length_le
          have hUpto :
              Cursor.upto ⟨before, y :: rest, groups⟩ d =
                y :: Cursor.upto ⟨y :: before, rest, groups⟩
                  d := by
            unfold Cursor.upto
            dsimp only at hLength ⊢
            rw [List.length_cons, Nat.succ_sub hLength,
              List.take_succ_cons]
          rw [hUpto] at hX
          rcases List.mem_cons.mp hX with rfl | hLater
          · exact hClass
          · exact ih _ d hMore x hLater
        · cases hMore
      · rw [List.mem_singleton.mp hHere] at hX
        simp [Cursor.upto] at hX

/- A match lies in the text that is searched. -/
theorem searchFrom_onward
    {r : Regex} {before s : Str} {m : Match}
    (hSearch : r.searchFrom before s = some m) :
    m.start.after <:+ s ∧ m.start.groups = [] ∧
      m.start.Onward m.stop := by
  have hMatch
      {before s : Str}
      (hHere : r.matchAt ⟨before, s, []⟩ = some m) :
      m.start = ⟨before, s, []⟩ ∧ m.start.Onward m.stop := by
    unfold matchAt at hHere
    rw [Option.map_eq_some_iff] at hHere
    rcases hHere with ⟨stop, hStop, rfl⟩
    exact ⟨rfl,
      run_onward r _ stop (List.mem_of_head? hStop)⟩
  induction s generalizing before with
  | nil =>
      rcases hMatch hSearch with ⟨hStart, hOnward⟩
      exact ⟨by rw [hStart], by rw [hStart], hOnward⟩
  | cons x rest ih =>
      unfold searchFrom at hSearch
      split at hSearch
      · rename_i found hFound
        rw [hSearch] at hFound
        rcases hMatch hFound with ⟨hStart, hOnward⟩
        exact ⟨by rw [hStart], by rw [hStart], hOnward⟩
      · rcases ih hSearch with ⟨hSuffix, hGroups, hOnward⟩
        exact ⟨hSuffix.trans (List.suffix_cons x rest),
          hGroups, hOnward⟩

/- The text up to a suffix, and the suffix. -/
theorem take_append_suffix
    {s t : Str}
    (hSuffix : t <:+ s) :
    s.take (s.length - t.length) ++ t = s := by
  rcases hSuffix with ⟨front, rfl⟩
  simp

theorem replaced_text
    {r : Regex} {f : Match → Str}
    (n : Nat) (before s : Str)
    (hSame : ∀ m ∈ r.matchesFrom n before s, f m = m.text) :
    replaced f s (r.matchesFrom n before s) = s := by
  induction n generalizing before s with
  | zero => rfl
  | succ n ih =>
      rw [matchesFrom] at hSame ⊢
      cases hSearch : r.searchFrom before s with
      | none => rfl
      | some m =>
          rw [hSearch] at hSame
          rcases searchFrom_onward hSearch with
            ⟨hStart, _, hStop⟩
          dsimp only at hSame ⊢
          split
          · rename_i hLess
            rw [if_pos hLess, List.forall_mem_cons] at hSame
            have hText : m.text ++ m.stop.after = m.start.after :=
              take_append_suffix hStop.after_suffix
            rw [replaced, hSame.1, ih _ _ hSame.2,
              List.append_assoc, hText,
              take_append_suffix hStart]
          · rfl

/- Matches that are put back leave the text. -/
theorem sub_text
    {r : Regex} {f : Match → Str} {s : Str}
    (hSame : ∀ m ∈ r.findIter s, f m = m.text) :
    r.sub f s = s :=
  replaced_text s.length [] s hSame

end Regex

end Lib
