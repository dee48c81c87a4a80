import ThreatOrbit.Lib.Python

/-
  Values collected under their keys.

  Key definitions:
    * `collect`
    * `tally`
    * `chunks`
-/

---- Collected Values

namespace Lib

section

variable {α β : Type}

/- `mapping.setdefault(key, []).append(value)`. -/
def collectInto
    (d : List (Str × List β))
    (p : Str × β) : List (Str × List β) :=
  setEntry p.1 ((lookup p.1 d).getD [] ++ [p.2]) d

/- The values under each key, in the order they came. -/
def collect (pairs : List (Str × β)) : List (Str × List β) :=
  pairs.foldl collectInto []

theorem keys_setEntry
    (key : Str) (value : α) (d : List (Str × α)) :
    (setEntry key value d).map Prod.fst =
      if key ∈ d.map Prod.fst then d.map Prod.fst
      else d.map Prod.fst ++ [key] := by
  induction d with
  | nil => rfl
  | cons first rest ih =>
      rw [setEntry]
      by_cases hFirst : first.1 = key
      · rw [if_pos hFirst, List.map_cons, List.map_cons,
          if_pos (by rw [hFirst]; exact List.mem_cons_self)]
      · have hOther : ¬ key = first.1 := fun h => hFirst h.symm
        rw [if_neg hFirst, List.map_cons, List.map_cons, ih]
        simp only [List.mem_cons, hOther, false_or]
        split
        · rfl
        · rfl

/- Each key is in the mapping once. -/
theorem keys_setEntry_nodup
    (key : Str) (value : α) {d : List (Str × α)}
    (hNodup : (d.map Prod.fst).Nodup) :
    ((setEntry key value d).map Prod.fst).Nodup := by
  rw [keys_setEntry]
  split
  · exact hNodup
  · rename_i hNew
    rw [List.nodup_append]
    refine ⟨hNodup, List.nodup_singleton _, ?_⟩
    intro a ha b hb hSame
    rw [List.mem_singleton] at hb
    rw [hSame, hb] at ha
    exact hNew ha

theorem collect_keys_nodup
    (pairs : List (Str × β)) :
    ((collect pairs).map Prod.fst).Nodup := by
  have hFold :
      ∀ d : List (Str × List β), (d.map Prod.fst).Nodup →
        ((pairs.foldl collectInto d).map Prod.fst).Nodup := by
    induction pairs with
    | nil => exact fun d hd => hd
    | cons p rest ih =>
        intro d hd
        exact ih _ (keys_setEntry_nodup _ _ hd)
  exact hFold [] List.nodup_nil

/- The values under a key are those that came with it. -/
theorem lookup_collect
    (pairs : List (Str × β)) (key : Str) :
    (lookup key (collect pairs)).getD [] =
      (pairs.filter (fun p => p.1 = key)).map Prod.snd := by
  have hFold :
      ∀ d : List (Str × List β),
        (lookup key (pairs.foldl collectInto d)).getD [] =
          (lookup key d).getD [] ++
            (pairs.filter (fun p => p.1 = key)).map
              Prod.snd := by
    induction pairs with
    | nil => simp
    | cons p rest ih =>
        intro d
        rw [List.foldl_cons, ih, collectInto, lookup_setEntry]
        by_cases hKey : p.1 = key
        · simp [hKey]
        · simp [hKey]
  exact hFold []

/- A value of mappings one after another is a value of one of
them. -/
theorem lookup_flatMap
    {α β : Type} {key : Str} {value : β} {parts : List α}
    {f : α → List (Str × β)}
    (hFound : lookup key (parts.flatMap f) = some value) :
    ∃ part ∈ parts, lookup key (f part) = some value := by
  have hAppend : ∀ first second : List (Str × β),
      lookup key (first ++ second) =
        (lookup key first).or (lookup key second) := by
    intro first second
    induction first with
    | nil => rfl
    | cons entry rest ih =>
        rw [List.cons_append, lookup, lookup]
        split
        · rfl
        · exact ih
  induction parts with
  | nil => cases hFound
  | cons part rest ih =>
      rw [List.flatMap_cons, hAppend, Option.or_eq_some_iff]
        at hFound
      rcases hFound with hHere | ⟨_, hLater⟩
      · exact ⟨part, List.mem_cons_self, hHere⟩
      · rcases ih hLater with ⟨other, hOther, hIs⟩
        exact ⟨other, List.mem_cons_of_mem _ hOther, hIs⟩

/- A key that is in a mapping once is found. -/
theorem lookup_of_mem
    {d : List (Str × α)} {e : Str × α}
    (hNodup : (d.map Prod.fst).Nodup) (hE : e ∈ d) :
    lookup e.1 d = some e.2 := by
  induction d with
  | nil => cases hE
  | cons first rest ih =>
      rw [List.map_cons, List.nodup_cons] at hNodup
      rw [lookup]
      rcases List.mem_cons.mp hE with hHead | hTail
      · rw [hHead, if_pos rfl]
      · have hOther : first.1 ≠ e.1 := by
          intro hSame
          exact hNodup.1
            (hSame ▸ List.mem_map_of_mem hTail)
        rw [if_neg hOther]
        exact ih hNodup.2 hTail

/- What is under a key came with it. -/
theorem mem_collect_iff
    {pairs : List (Str × β)} {key : Str} {value : β} :
    (∃ e ∈ collect pairs, e.1 = key ∧ value ∈ e.2) ↔
      (key, value) ∈ pairs := by
  have hIn : value ∈ (lookup key (collect pairs)).getD [] ↔
      (key, value) ∈ pairs := by
    rw [lookup_collect]
    simp
  rw [← hIn]
  constructor
  · rintro ⟨e, hE, rfl, hValue⟩
    rw [lookup_of_mem (collect_keys_nodup pairs) hE]
    exact hValue
  · intro hValue
    cases hFound : lookup key (collect pairs) with
    | none => simp [hFound] at hValue
    | some values =>
        rw [hFound] at hValue
        exact ⟨(key, values), mem_of_lookup hFound, rfl,
          hValue⟩

/- What is counted at one key of a mapping. -/
theorem sum_at_key
    {d : List (Str × List β)}
    (hNodup : (d.map Prod.fst).Nodup) (key : Str) :
    (d.map fun e =>
        if e.1 = key then e.2.length else 0).sum =
      ((lookup key d).getD []).length := by
  induction d with
  | nil => rfl
  | cons first rest ih =>
      rw [List.map_cons, List.nodup_cons] at hNodup
      rw [List.map_cons, List.sum_cons, lookup]
      by_cases hFirst : first.1 = key
      · have hRest :
            (rest.map fun e =>
              if e.1 = key then e.2.length else 0).sum = 0 := by
          rw [List.sum_eq_zero_iff]
          intro n hn
          rcases List.mem_map.mp hn with ⟨e, he, hIs⟩
          have hOther : e.1 ≠ key := by
            intro hSame
            refine hNodup.1 ?_
            rw [hFirst, ← hSame]
            exact List.mem_map_of_mem he
          rw [if_neg hOther] at hIs
          exact hIs.symm
        rw [if_pos hFirst, if_pos hFirst, hRest]
        rfl
      · rw [if_neg hFirst, if_neg hFirst, ih hNodup.2,
          Nat.zero_add]

/- A sum of indicators counts. -/
theorem sum_map_indicator
    (p : α → Bool) (l : List α) :
    (l.map fun x => if p x then 1 else 0).sum = l.countP p := by
  induction l with
  | nil => rfl
  | cons x rest ih =>
      rw [List.map_cons, List.sum_cons, List.countP_cons, ih,
        Nat.add_comm]

end

---- Tallies

/- `counts[key] = counts.get(key, 0) + 1`. -/
def countInto
    (d : List (Str × Nat))
    (key : Str) : List (Str × Nat) :=
  setEntry key ((lookup key d).getD 0 + 1) d

/- How often each key comes, the keys in the order they first
came. -/
def tally (keys : List Str) : List (Str × Nat) :=
  keys.foldl countInto []

theorem tally_keys_nodup (keys : List Str) :
    ((tally keys).map Prod.fst).Nodup := by
  have hFold :
      ∀ d : List (Str × Nat), (d.map Prod.fst).Nodup →
        ((keys.foldl countInto d).map Prod.fst).Nodup := by
    induction keys with
    | nil => exact fun d hd => hd
    | cons key rest ih =>
        intro d hd
        exact ih _ (keys_setEntry_nodup _ _ hd)
  exact hFold [] List.nodup_nil

theorem lookup_tally
    (keys : List Str) (key : Str) :
    lookup key (tally keys) =
      if key ∈ keys then some (keys.count key) else none := by
  have hFold :
      ∀ d : List (Str × Nat),
        lookup key (keys.foldl countInto d) =
          if key ∈ keys then
            some ((lookup key d).getD 0 + keys.count key)
          else lookup key d := by
    induction keys with
    | nil => simp
    | cons first rest ih =>
        intro d
        rw [List.foldl_cons, ih, countInto, lookup_setEntry]
        by_cases hFirst : first = key
        · subst hFirst
          by_cases hRest : first ∈ rest
          · simp [hRest]
            omega
          · simp [hRest, List.count_eq_zero_of_not_mem hRest]
        · have hOther : ¬ key = first := fun h => hFirst h.symm
          simp [hFirst, hOther]
  have hEmpty := hFold []
  simpa [tally, lookup] using hEmpty

/- A tally has each key that came, with how often it did. -/
theorem mem_tally_iff
    {keys : List Str} {key : Str} {n : Nat} :
    (key, n) ∈ tally keys ↔
      key ∈ keys ∧ n = keys.count key := by
  have hLookup := lookup_tally keys key
  constructor
  · intro hMem
    have hFound := lookup_of_mem (tally_keys_nodup keys) hMem
    rw [hLookup] at hFound
    split at hFound
    · rename_i hIn
      exact ⟨hIn, (Option.some.inj hFound).symm⟩
    · cases hFound
  · rintro ⟨hIn, rfl⟩
    rw [if_pos hIn] at hLookup
    exact mem_of_lookup hLookup

---- Chunks

variable {α : Type}

/- `values[i:i + n]` for the multiples `i` of `n`. -/
def chunks (n : Nat) (values : List α) : List (List α) :=
  (List.range ((values.length + n - 1) / n)).map
    fun i => (values.drop (i * n)).take n

/- The chunks hold the values and nothing else. -/
theorem mem_chunks
    {n : Nat}
    (hPos : 0 < n) (values : List α) (x : α) :
    (∃ c ∈ chunks n values, x ∈ c) ↔ x ∈ values := by
  constructor
  · rintro ⟨c, hC, hX⟩
    rcases List.mem_map.mp hC with ⟨i, _, rfl⟩
    exact List.mem_of_mem_drop (List.mem_of_mem_take hX)
  · intro hX
    rcases List.mem_iff_getElem.mp hX with ⟨k, hk, hIs⟩
    refine ⟨_, List.mem_map_of_mem
      (List.mem_range.mpr (?_ : k / n < _)), ?_⟩
    · rw [Nat.div_lt_iff_lt_mul hPos]
      have hCeil := Nat.lt_div_mul_add
        (a := values.length + n - 1) hPos
      omega
    · rw [List.mem_iff_getElem]
      have hSplit : k / n * n + k % n = k := by
        rw [Nat.mul_comm]
        exact Nat.div_add_mod k n
      have hMod := Nat.mod_lt k hPos
      refine ⟨k % n, ?_, ?_⟩
      · rw [List.length_take, List.length_drop]
        omega
      · rw [List.getElem_take, List.getElem_drop]
        simp only [hSplit]
        exact hIs

theorem chunks_nil
    {n : Nat}
    (hPos : 0 < n) :
    chunks n ([] : List α) = [] := by
  simp [chunks, hPos]

/- The first chunk, and the chunks of the rest. -/
theorem chunks_of_ne_nil
    {n : Nat}
    (hPos : 0 < n) {values : List α} (hSome : values ≠ []) :
    chunks n values =
      values.take n :: chunks n (values.drop n) := by
  have hLength := List.length_pos_iff.mpr hSome
  have hCount :
      (values.length + n - 1) / n =
        ((values.length - n) + n - 1) / n + 1 := by
    by_cases hMore : n ≤ values.length
    · rw [← Nat.add_div_right _ hPos]
      congr 1
      omega
    · have hFirst : values.length - n = 0 := by omega
      rw [hFirst, Nat.div_eq_of_lt (by omega : 0 + n - 1 < n)]
      rw [show values.length + n - 1 = values.length - 1 + n by
        omega, Nat.add_div_right _ hPos,
        Nat.div_eq_of_lt (by omega)]
  unfold chunks
  rw [hCount, List.range_succ_eq_map, List.map_cons,
    List.map_map, List.length_drop]
  congr 1
  · simp
  · apply List.map_congr_left
    intro i _
    simp only [Function.comp_apply, List.drop_drop,
      Nat.succ_eq_add_one]
    congr 2
    ring

/- What holds of no chunk and goes over from the chunks of
the rest to one chunk more holds of the chunks. -/
theorem chunks_induction
    {n : Nat}
    (hPos : 0 < n) {P : List α → List (List α) → Prop}
    (hNil : P [] [])
    (hCons : ∀ first rest more, first ≠ [] →
      P rest more → P (first ++ rest) (first :: more))
    (values : List α) :
    P values (chunks n values) := by
  induction hLength : values.length using Nat.strong_induction_on
    generalizing values with
  | _ size ih =>
      by_cases hNone : values = []
      · rw [hNone, chunks_nil hPos]
        exact hNil
      · have hSize := List.length_pos_iff.mpr hNone
        rw [chunks_of_ne_nil hPos hNone]
        have hRest := ih (values.drop n).length
          (by rw [List.length_drop]; omega) (values.drop n) rfl
        have hFirst : values.take n ≠ [] := by
          rw [Ne, List.take_eq_nil_iff, not_or]
          exact ⟨by omega, hNone⟩
        have hWhole := hCons (values.take n) (values.drop n)
          (chunks n (values.drop n)) hFirst hRest
        rwa [List.take_append_drop] at hWhole

/- The chunks one after another are the values. -/
theorem flatten_chunks
    {n : Nat}
    (hPos : 0 < n) (values : List α) :
    (chunks n values).flatten = values := by
  refine chunks_induction hPos
    (P := fun values parts => parts.flatten = values)
    rfl ?_ values
  intro first rest more _ hMore
  rw [List.flatten_cons, hMore]

end Lib
