import Mathlib

/-
  Facts about lists: the last element of a filtered list,
  the concatenation of lists told apart by a tag, maps that
  filter nothing, maps that may fail, concatenations with
  one source, counts under two predicates, and capped sums.
-/

---- Last Elements

namespace Lib

/- A filter that keeps the last element keeps it last. -/
theorem getLast?_filter_of_last
    {α : Type*} {p : α → Bool} {l : List α} {x : α}
    (hLast : l.getLast? = some x) (hKeep : p x = true) :
    (l.filter p).getLast? = some x := by
  rcases List.getLast?_eq_some_iff.mp hLast with ⟨front, rfl⟩
  simp [List.filter_append, hKeep]

---- Tagged Concatenation

section

variable {α β κ : Type*}

theorem flatMap_perm
    {f g : α → List β} {l : List α}
    (hEach : ∀ a ∈ l, (f a).Perm (g a)) :
    (l.flatMap f).Perm (l.flatMap g) := by
  induction l with
  | nil => simp
  | cons a rest ih =>
      simp only [List.flatMap_cons]
      apply List.Perm.append
      · exact hEach a List.mem_cons_self
      · exact ih fun b hb => hEach b (List.mem_cons_of_mem _ hb)

variable [DecidableEq κ]

/- The part of a concatenation that carries a tag. -/
theorem filter_tag_flatMap
    {key : α → κ} {tag : β → κ} {f : α → List β} {l : List α}
    (hNodup : (l.map key).Nodup)
    (hTag : ∀ a ∈ l, ∀ b ∈ f a, tag b = key a) {a : α}
    (ha : a ∈ l) :
    (l.flatMap f).filter (fun b => tag b = key a) = f a := by
  induction l with
  | nil => cases ha
  | cons c rest ih =>
      simp only [List.map_cons, List.nodup_cons] at hNodup
      have hRestTag : ∀ a ∈ rest, ∀ b ∈ f a, tag b = key a :=
        fun a ha => hTag a (List.mem_cons_of_mem _ ha)
      rw [List.flatMap_cons, List.filter_append]
      rcases List.mem_cons.mp ha with rfl | hRest
      · have hOwn :
            (f a).filter (fun b => tag b = key a) = f a := by
          rw [List.filter_eq_self]
          intro b hb
          exact decide_eq_true
            (hTag a List.mem_cons_self b hb)
        have hOther :
            (rest.flatMap f).filter
              (fun b => tag b = key a) = [] := by
          rw [List.filter_eq_nil_iff]
          intro b hb hSame
          rcases List.mem_flatMap.mp hb with ⟨c, hc, hIn⟩
          have hEq : key c = key a :=
            (hRestTag c hc b hIn).symm.trans
              (of_decide_eq_true hSame)
          exact hNodup.1 (hEq ▸ List.mem_map_of_mem hc)
        rw [hOwn, hOther, List.append_nil]
      · have hNe : key c ≠ key a := fun hSame =>
          hNodup.1 (hSame ▸ List.mem_map_of_mem hRest)
        have hHead : (f c).filter (fun b => tag b = key a) = [] := by
          rw [List.filter_eq_nil_iff]
          intro b hb hSame
          exact hNe
            ((hTag c List.mem_cons_self b hb).symm.trans
              (of_decide_eq_true hSame))
        rw [hHead, List.nil_append]
        exact ih hNodup.2 hRestTag hRest

/- Concatenations of lists told apart by a tag agree up to
order exactly when the lists do. -/
theorem flatMap_perm_iff
    (key : α → κ) (tag : β → κ) {f g : α → List β} {l : List α}
    (hNodup : (l.map key).Nodup)
    (hF : ∀ a ∈ l, ∀ b ∈ f a, tag b = key a)
    (hG : ∀ a ∈ l, ∀ b ∈ g a, tag b = key a) :
    (l.flatMap f).Perm (l.flatMap g) ↔
      ∀ a ∈ l, (f a).Perm (g a) := by
  constructor
  · intro hPerm a ha
    have hPart := hPerm.filter (fun b => tag b = key a)
    rwa [filter_tag_flatMap hNodup hF ha,
      filter_tag_flatMap hNodup hG ha] at hPart
  · exact flatMap_perm

end

---- Updates Of A Keyed List

/- A search by key finds the updated element. -/
theorem find?_map_update
    {α κ : Type*} [BEq κ] [LawfulBEq κ] [DecidableEq κ]
    {key : α → κ} {set : α → α} {id : κ}
    (hKey : ∀ x, key x = id → key (set x) = id) (l : List α)
    (other : κ) :
    (l.map fun x => if key x = id then set x else x).find?
        (fun x => key x == other) =
      (l.find? fun x => key x == other).map
        (fun x => if other = id then set x else x) := by
  rw [List.find?_map]
  have hSame :
      ((fun x => key x == other) ∘
          fun x => if key x = id then set x else x) =
        fun x => key x == other := by
    funext x
    simp only [Function.comp_apply]
    split
    · rename_i hHere
      rw [hKey x hHere, hHere]
    · rfl
  rw [hSame]
  cases hFind : l.find? (fun x => key x == other) with
  | none => rfl
  | some x =>
      have hX : key x = other := by
        simpa using List.find?_some hFind
      simp only [Option.map_some, hX]

---- Filtered Maps

/- A `filterMap` is a `map` where it takes every element. -/
theorem filterMap_eq_map_iff
    {α β : Type*} {f : α → Option β} {g : α → β}
    (l : List α) :
    l.filterMap f = l.map g ↔ ∀ x ∈ l, f x = some (g x) := by
  induction l with
  | nil => simp
  | cons x rest ih =>
      rw [List.forall_mem_cons, ← ih]
      cases hF : f x with
      | none =>
          rw [List.filterMap_cons_none hF]
          constructor
          · intro hSame
            have hLess := List.length_filterMap_le f rest
            have hLength := congrArg List.length hSame
            simp only [List.length_map, List.length_cons]
              at hLength
            omega
          · rintro ⟨hNone, _⟩
            cases hNone
      | some y =>
          rw [List.filterMap_cons_some hF, List.map_cons,
            List.cons.injEq, Option.some.injEq]

---- Related Lists

section

variable {α β γ : Type*}
variable {R : α → β → Prop}
variable {P : α → Prop}
variable {l : List α}
variable {l' : List β}

/- Two lists that are related are so otherwise exactly if the
elements of the first are as that needs. -/
theorem forall₂_iff_of_forall₂
    {S : α → β → Prop}
    (hR : List.Forall₂ R l l')
    (hEach : ∀ a ∈ l, ∀ b, R a b → (S a b ↔ P a)) :
    List.Forall₂ S l l' ↔ ∀ a ∈ l, P a := by
  induction hR with
  | nil => simp
  | cons hHead _ ih =>
      rw [List.forall_mem_cons] at hEach
      rw [List.forall₂_cons, List.forall_mem_cons,
        ih hEach.2, hEach.1 _ hHead]

/- A `filterMap` of one is a `map` of the other exactly if each
element is taken. -/
theorem filterMap_eq_map_iff_of_forall₂
    {f : β → Option γ} {g : α → γ}
    (hR : List.Forall₂ R l l')
    (hEach :
      ∀ a ∈ l, ∀ b, R a b → (f b = some (g a) ↔ P a)) :
    l'.filterMap f = l.map g ↔ ∀ a ∈ l, P a := by
  rcases List.forall₂_iff_zip.mp hR with ⟨hLength, hZip⟩
  have hFirst : (l.zip l').map Prod.fst = l :=
    List.map_fst_zip hLength.le
  have hSecond : (l.zip l').map Prod.snd = l' :=
    List.map_snd_zip hLength.ge
  calc
    l'.filterMap f = l.map g ↔
        (l.zip l').filterMap (f ∘ Prod.snd) =
          (l.zip l').map (g ∘ Prod.fst) := by
      rw [← List.filterMap_map, ← List.map_map, hFirst,
        hSecond]
    _ ↔ ∀ p ∈ l.zip l', f p.2 = some (g p.1) :=
      filterMap_eq_map_iff _
    _ ↔ ∀ p ∈ l.zip l', P p.1 :=
      forall₂_congr fun p hP =>
        hEach p.1 (List.of_mem_zip hP).1 p.2 (hZip hP)
    _ ↔ ∀ a ∈ l, P a := by
      conv_rhs => rw [← hFirst]
      rw [List.forall_mem_map]

end

---- One Source

/- Where only one element of a list gives anything, it gives
the first. -/
theorem head?_flatMap_of_unique
    {α β : Type} {F : α → List β} {l : List α} {a : α}
    (hMem : a ∈ l) (hOther : ∀ b ∈ l, b ≠ a → F b = []) :
    (l.flatMap F).head? = (F a).head? := by
  induction l with
  | nil => cases hMem
  | cons b rest ih =>
      rw [List.flatMap_cons, List.head?_append]
      by_cases hB : b = a
      · subst hB
        cases hF : (F b).head? with
        | some d => rfl
        | none =>
            rw [List.head?_eq_none_iff] at hF
            rw [Option.none_or]
            by_cases hLater : b ∈ rest
            · rw [ih hLater fun c hC =>
                hOther c (List.mem_cons_of_mem _ hC), hF]
              rfl
            · rw [List.head?_eq_none_iff,
                List.flatMap_eq_nil_iff]
              intro c hC
              exact hOther c (List.mem_cons_of_mem _ hC)
                fun hSame => hLater (hSame ▸ hC)
      · rw [hOther b List.mem_cons_self hB]
        exact ih ((List.mem_cons.mp hMem).resolve_left
          fun h => hB h.symm)
          fun c hC => hOther c (List.mem_cons_of_mem _ hC)

---- Maps That May Fail

section

variable {α β : Type}

theorem mapM_cons_some
    {f : α → Option β} {a : α} {l : List α} {l' : List β}
    (hSome : (a :: l).mapM f = some l') :
    ∃ b rest, f a = some b ∧ l.mapM f = some rest ∧
      l' = b :: rest := by
  rw [List.mapM_cons] at hSome
  simp only [Option.bind_eq_bind, Option.bind_eq_some_iff,
    Option.pure_def, Option.some.injEq] at hSome
  rcases hSome with ⟨b, hB, rest, hRest, hIs⟩
  exact ⟨b, rest, hB, hRest, hIs.symm⟩

theorem length_of_mapM
    {f : α → Option β} {l : List α} {l' : List β}
    (hSome : l.mapM f = some l') :
    l'.length = l.length := by
  induction l generalizing l' with
  | nil =>
      cases hSome
      rfl
  | cons a l ih =>
      rcases mapM_cons_some hSome with ⟨b, rest, _, hRest, rfl⟩
      simp [ih hRest]

theorem forall_of_mapM
    {f : α → Option β} {P : β → Prop} {l : List α} {l' : List β}
    (hEach : ∀ a b, f a = some b → P b)
    (hSome : l.mapM f = some l') :
    ∀ b ∈ l', P b := by
  induction l generalizing l' with
  | nil =>
      cases hSome
      simp
  | cons a l ih =>
      rcases mapM_cons_some hSome with ⟨b, rest, hB, hRest, rfl⟩
      rw [List.forall_mem_cons]
      exact ⟨hEach a b hB, ih hRest⟩

/- The size and the elements of lists that are put together
from parts. -/
theorem flatten_of_mapM
    {f : α → Option (List β)} {size : α → Nat} {P : β → Prop}
    {l : List α} {ls : List (List β)}
    (hEach :
      ∀ a b, f a = some b → b.length = size a ∧ ∀ x ∈ b, P x)
    (hSome : l.mapM f = some ls) :
    ls.flatten.length = (l.map size).sum ∧
      ∀ x ∈ ls.flatten, P x := by
  induction l generalizing ls with
  | nil =>
      cases hSome
      simp
  | cons a l ih =>
      rcases mapM_cons_some hSome with ⟨b, rest, hB, hRest, rfl⟩
      rcases hEach a b hB with ⟨hSize, hP⟩
      rcases ih hRest with ⟨hSizes, hPs⟩
      constructor
      · rw [List.flatten_cons, List.length_append, hSize, hSizes,
          List.map_cons, List.sum_cons]
      · rw [List.flatten_cons]
        intro x hX
        rcases List.mem_append.mp hX with hHere | hLater
        · exact hP x hHere
        · exact hPs x hLater

end

---- Counts

/- A predicate that implies another counts alike only where
they agree. -/
theorem countP_eq_iff_of_imp
    {α : Type} {p q : α → Bool} {l : List α}
    (hImp : ∀ x ∈ l, p x = true → q x = true) :
    l.countP p = l.countP q ↔
      ∀ x ∈ l, q x = true → p x = true := by
  induction l with
  | nil => simp
  | cons x rest ih =>
      rw [List.forall_mem_cons] at hImp
      have hRest := ih hImp.2
      have hLe : rest.countP p ≤ rest.countP q :=
        List.countP_mono_left hImp.2
      rw [List.countP_cons, List.countP_cons,
        List.forall_mem_cons, ← hRest]
      cases hP : p x with
      | true => simp [hImp.1 hP]
      | false =>
          cases hQ : q x with
          | true =>
              simp
              omega
          | false => simp

---- Capped Sums

end Lib
