import Mathlib.Data.Finset.Card
import Mathlib.Data.Finset.Union
import Mathlib.Logic.Function.Iterate

/-
  This file defines breadth-first search over a graph that is
  given by the neighbours of each node: the search that notes
  for each node the one it was found from, the way back along
  these notes, and the widening of a set of nodes by rounds.

  Key definitions:
    * `Lib.Steps`
    * `Lib.Search.run`
    * `Lib.Search.Traced`, `Lib.Search.Levelled`
    * `Lib.traceBack`
    * `Lib.widen`
-/

namespace Lib

variable {V : Type*}

/- What is reached from a node in exactly so many steps. -/
inductive Steps (r : V → V → Prop) (a : V) : Nat → V → Prop
| here : Steps r a 0 a
| step {n b c} : Steps r a n b → r b c → Steps r a (n + 1) c

---- The Search

/- The nodes found, each with the node it was found from, and
the queue of those to be expanded. -/
structure Search (V : Type*) where
  prev : List (V × V)
  queue : List V

namespace Search

def found (s : Search V) : List V :=
  s.prev.map Prod.fst

variable [DecidableEq V]

/- Note one neighbour of the node `cur`. -/
def visit (cur : V) (s : Search V) (nb : V) : Search V :=
  if nb ∈ s.found then s
  else ⟨s.prev ++ [(nb, cur)], s.queue ++ [nb]⟩

def expand
    (nbs : List V)
    (cur : V)
    (s : Search V) : Search V :=
  nbs.foldl (visit cur) s

/- Expand the queue until it is empty or gives the goal. -/
def run
    (nbs : V → List V)
    (goal : V) : Nat → Search V → Search V
| 0, s => s
| n + 1, s =>
    match s.queue with
    | [] => s
    | cur :: rest =>
        if cur = goal then ⟨s.prev, rest⟩
        else run nbs goal n (expand (nbs cur) cur ⟨s.prev, rest⟩)

/- Expanding a node notes its neighbours not found before. -/
theorem expand_spec
    (nbs : List V) (cur : V) (s : Search V) :
    ∃ new : List V,
      expand nbs cur s =
          ⟨s.prev ++ new.map (·, cur), s.queue ++ new⟩ ∧
        new.Nodup ∧
        (∀ v ∈ new, v ∉ s.found ∧ v ∈ nbs) ∧
        (∀ v ∈ nbs, v ∈ s.found ∨ v ∈ new) := by
  induction nbs generalizing s with
  | nil => exact ⟨[], by simp [expand]⟩
  | cons nb nbs ih =>
      by_cases hFound : nb ∈ s.found
      · obtain ⟨new, hEq, hNodup, hNew, hAll⟩ := ih s
        refine ⟨new, ?_, hNodup, ?_, ?_⟩
        · simpa [expand, visit, hFound] using hEq
        · intro v hV
          exact ⟨(hNew v hV).1, List.mem_cons_of_mem _ (hNew v hV).2⟩
        · intro v hV
          rcases List.mem_cons.mp hV with rfl | hV
          · exact Or.inl hFound
          · exact hAll v hV
      · obtain ⟨new, hEq, hNodup, hNew, hAll⟩ :=
          ih ⟨s.prev ++ [(nb, cur)], s.queue ++ [nb]⟩
        have hKeys : ∀ v,
            v ∈ (⟨s.prev ++ [(nb, cur)], s.queue ++ [nb]⟩ :
              Search V).found ↔ v ∈ s.found ∨ v = nb := by
          simp [found]
        refine ⟨nb :: new, ?_, ?_, ?_, ?_⟩
        · simpa [expand, visit, hFound] using hEq
        · refine List.nodup_cons.mpr ⟨fun hIn => ?_, hNodup⟩
          exact (hNew nb hIn).1 ((hKeys nb).mpr (Or.inr rfl))
        · intro v hV
          rcases List.mem_cons.mp hV with rfl | hV
          · exact ⟨hFound, List.mem_cons_self⟩
          · obtain ⟨hOld, hNbs⟩ := hNew v hV
            exact ⟨fun h => hOld ((hKeys v).mpr (Or.inl h)),
              List.mem_cons_of_mem _ hNbs⟩
        · intro v hV
          rcases List.mem_cons.mp hV with rfl | hV
          · exact Or.inr List.mem_cons_self
          · rcases hAll v hV with h | h
            · rcases (hKeys v).mp h with h | rfl
              · exact Or.inl h
              · exact Or.inr List.mem_cons_self
            · exact Or.inr (List.mem_cons_of_mem _ h)

/- The notes lead back to the source, one level at a time; the
source alone is noted with the mark that ends the way back. -/
structure Traced
    (nbs : V → List V)
    (src stop : V)
    (level : V → Nat)
    (s : Search V) : Prop where
  nodup : s.found.Nodup
  source : src ∈ s.found
  base : level src = 0
  back : ∀ e ∈ s.prev,
    e = (src, stop) ∨
      (e.2 ∈ s.found ∧ e.1 ∈ nbs e.2 ∧
        level e.1 = level e.2 + 1)
  short : ∀ v ∈ s.found, level v < s.prev.length

/- The queue holds found nodes of at most two adjacent levels,
and the neighbours of all others are found. -/
structure Levelled
    (nbs : V → List V)
    (src stop : V)
    (level : V → Nat)
    (s : Search V) : Prop
    extends Traced nbs src stop level s where
  queued : ∀ v ∈ s.queue, v ∈ s.found
  sorted : s.queue.Pairwise (level · ≤ level ·)
  near : ∀ a ∈ s.queue, ∀ b ∈ s.found, level b ≤ level a + 1
  closed : ∀ v ∈ s.found, v ∉ s.queue → ∀ w ∈ nbs v,
    w ∈ s.found ∧ level w ≤ level v + 1

variable {nbs : V → List V} {src stop goal : V} {level : V → Nat}

omit [DecidableEq V] in
theorem levelled_start :
    Levelled nbs src stop (fun _ => 0)
      ⟨[(src, stop)], [src]⟩ where
  nodup := by simp [found]
  source := by simp [found]
  base := rfl
  back := by simp
  short := by simp
  queued := by simp [found]
  sorted := by simp
  near := by simp [found]
  closed := by simp [found]

/- Expanding the head of the queue keeps the levels. -/
theorem Levelled.expand
    {prev : List (V × V)} {cur : V} {rest : List V}
    (h : Levelled nbs src stop level ⟨prev, cur :: rest⟩) :
    ∃ level' new,
      expand (nbs cur) cur ⟨prev, rest⟩ =
          ⟨prev ++ new.map (·, cur), rest ++ new⟩ ∧
        (∀ v ∈ new, v ∈ nbs cur) ∧
        Levelled nbs src stop level'
          ⟨prev ++ new.map (·, cur), rest ++ new⟩ := by
  obtain ⟨new, hEq, hNodup, hNew, hAll⟩ :=
    expand_spec (nbs cur) cur ⟨prev, rest⟩
  let level' : V → Nat := fun v =>
    if v ∈ new then level cur + 1 else level v
  have hKeys : ∀ v,
      v ∈ (⟨prev ++ new.map (·, cur), rest ++ new⟩ :
        Search V).found ↔ v ∈ prev.map Prod.fst ∨ v ∈ new := by
    simp [found]
  have hOld : ∀ v ∈ prev.map Prod.fst, level' v = level v := by
    intro v hV
    exact if_neg fun hIn => (hNew v hIn).1 hV
  have hFresh : ∀ v ∈ new, level' v = level cur + 1 :=
    fun v hV => if_pos hV
  have hCur : cur ∈ prev.map Prod.fst :=
    h.queued cur List.mem_cons_self
  have hRest : ∀ v ∈ rest, v ∈ prev.map Prod.fst :=
    fun v hV => h.queued v (List.mem_cons_of_mem _ hV)
  have hLow : ∀ v ∈ rest, level cur ≤ level v :=
    (List.pairwise_cons.mp h.sorted).1
  have hHigh : ∀ v ∈ prev.map Prod.fst,
      level v ≤ level cur + 1 :=
    h.near cur List.mem_cons_self
  refine ⟨level', new, hEq, fun v hV => (hNew v hV).2, ?_⟩
  refine ⟨⟨?_, ?_, ?_, ?_, ?_⟩, ?_, ?_, ?_, ?_⟩
  · have hMap : (prev ++ new.map (·, cur)).map Prod.fst =
        prev.map Prod.fst ++ new := by
      simp [Function.comp_def]
    rw [found, hMap]
    refine List.nodup_append.mpr ⟨h.nodup, hNodup, ?_⟩
    rintro a hA _ hB rfl
    exact (hNew a hB).1 hA
  · exact (hKeys src).mpr (Or.inl h.source)
  · rw [hOld src h.source, h.base]
  · intro e hE
    rcases List.mem_append.mp hE with hE | hE
    · have hKey : e.1 ∈ prev.map Prod.fst :=
        List.mem_map_of_mem hE
      rcases h.back e hE with hSrc | ⟨hIn, hNb, hLevel⟩
      · exact Or.inl hSrc
      · exact Or.inr ⟨(hKeys _).mpr (Or.inl hIn), hNb, by
          rw [hOld _ hKey, hOld _ hIn, hLevel]⟩
    · obtain ⟨v, hV, rfl⟩ := List.mem_map.mp hE
      exact Or.inr ⟨(hKeys _).mpr (Or.inl hCur), (hNew v hV).2,
        by rw [hFresh v hV, hOld cur hCur]⟩
  · intro v hV
    have hLength : (prev ++ new.map (·, cur)).length =
        prev.length + new.length := by simp
    rw [hLength]
    rcases (hKeys v).mp hV with hV | hV
    · have := h.short v hV
      rw [hOld v hV]
      exact Nat.lt_add_right _ this
    · have hPos := List.length_pos_of_mem hV
      have := h.short cur hCur
      rw [hFresh v hV]
      simp only at this
      omega
  · intro v hV
    rcases List.mem_append.mp hV with hV | hV
    · exact (hKeys v).mpr (Or.inl (hRest v hV))
    · exact (hKeys v).mpr (Or.inr hV)
  · refine List.pairwise_append.mpr ⟨?_, ?_, ?_⟩
    · refine (List.pairwise_cons.mp h.sorted).2.imp_of_mem ?_
      intro a b hA hB hLe
      rwa [hOld a (hRest a hA), hOld b (hRest b hB)]
    · refine List.pairwise_iff_forall_sublist.mpr ?_
      intro a b hSub
      have hA : a ∈ new := hSub.subset (by simp)
      have hB : b ∈ new := hSub.subset (by simp)
      rw [hFresh a hA, hFresh b hB]
    · intro a hA b hB
      rw [hOld a (hRest a hA), hFresh b hB]
      exact hHigh a (hRest a hA)
  · intro a hA b hB
    rcases List.mem_append.mp hA with hA | hA <;>
      rcases (hKeys b).mp hB with hB | hB
    · rw [hOld a (hRest a hA), hOld b hB]
      exact h.near a (List.mem_cons_of_mem _ hA) b hB
    · rw [hOld a (hRest a hA), hFresh b hB]
      exact Nat.succ_le_succ (hLow a hA)
    · rw [hFresh a hA, hOld b hB]
      exact (hHigh b hB).trans (Nat.le_succ _)
    · rw [hFresh a hA, hFresh b hB]
      exact Nat.le_succ _
  · intro v hV hNot w hW
    have hNotRest : v ∉ rest :=
      fun hIn => hNot (List.mem_append_left _ hIn)
    have hNotNew : v ∉ new :=
      fun hIn => hNot (List.mem_append_right _ hIn)
    have hV := ((hKeys v).mp hV).resolve_right hNotNew
    rw [hOld v hV]
    by_cases hEqCur : v = cur
    · subst hEqCur
      by_cases hIn : w ∈ new
      · exact ⟨(hKeys w).mpr (Or.inr hIn), (hFresh w hIn).le⟩
      · have hFound := (hAll w hW).resolve_right hIn
        refine ⟨(hKeys w).mpr (Or.inl hFound), ?_⟩
        rw [hOld w hFound]
        exact hHigh w hFound
    · obtain ⟨hFound, hLe⟩ := h.closed v hV
        (fun hIn => (List.mem_cons.mp hIn).elim hEqCur hNotRest) w hW
      exact ⟨(hKeys w).mpr (Or.inl hFound), by
        rw [hOld w hFound]; exact hLe⟩

/- What is reached in so many steps is found at that level or
below, or the queue still holds a node of a lower level. -/
omit [DecidableEq V] in
theorem Levelled.of_steps
    {s : Search V}
    (h : Levelled nbs src stop level s) {n : Nat} {v : V}
    (hSteps : Steps (fun a b => b ∈ nbs a) src n v) :
    (v ∈ s.found ∧ level v ≤ n) ∨
      ∃ q ∈ s.queue, level q < n := by
  induction hSteps with
  | here => exact Or.inl ⟨h.source, h.base.le⟩
  | @step n b c _ hNb ih =>
      rcases ih with ⟨hFound, hLe⟩ | ⟨q, hQ, hLt⟩
      · by_cases hQueue : b ∈ s.queue
        · exact Or.inr ⟨b, hQueue, Nat.lt_succ_of_le hLe⟩
        · obtain ⟨hIn, hNext⟩ := h.closed b hFound hQueue c hNb
          exact Or.inl ⟨hIn, hNext.trans (Nat.succ_le_succ hLe)⟩
      · exact Or.inr ⟨q, hQ, hLt.trans (Nat.lt_succ_self n)⟩

/- The search ends with notes that lead back to the source, and
has found the goal at its least level if it is reached.  The
fuel is one more than the nodes that are left to expand. -/
theorem run_spec
    (U : Finset V) (hClosed : ∀ v ∈ U, ∀ w ∈ nbs v, w ∈ U)
    (fuel : Nat) (s : Search V) (h : Levelled nbs src stop level s)
    (hIn : ∀ v ∈ s.found, v ∈ U)
    (hFuel : U.card + s.queue.length < fuel + s.prev.length) :
    ∃ level',
      Traced nbs src stop level' (run nbs goal fuel s) ∧
        (∀ v ∈ (run nbs goal fuel s).found, v ∈ U) ∧
        ∀ n, Steps (fun a b => b ∈ nbs a) src n goal →
          goal ∈ (run nbs goal fuel s).found ∧
            level' goal ≤ n := by
  induction fuel generalizing level s with
  | zero =>
      have hCard : s.prev.length ≤ U.card := by
        have hLe := Finset.card_le_card
          (fun v hV => hIn v (List.mem_toFinset.mp hV) :
            s.found.toFinset ⊆ U)
        rwa [List.toFinset_card_of_nodup h.nodup, found,
          List.length_map] at hLe
      omega
  | succ fuel ih =>
      obtain ⟨prev, queue⟩ := s
      cases queue with
      | nil =>
          refine ⟨level, h.toTraced, hIn, fun n hSteps => ?_⟩
          rcases h.of_steps hSteps with hFound | ⟨q, hQ, _⟩
          · exact hFound
          · exact absurd hQ List.not_mem_nil
      | cons cur rest =>
          simp only [run]
          split
          · rename_i hGoal
            subst hGoal
            refine ⟨level, ⟨h.nodup, h.source, h.base, h.back,
              h.short⟩, hIn, fun n hSteps => ?_⟩
            have hFound := h.queued cur List.mem_cons_self
            rcases h.of_steps hSteps with hLevel | ⟨q, hQ, hLt⟩
            · exact hLevel
            · refine ⟨hFound, ?_⟩
              rcases List.mem_cons.mp hQ with rfl | hQ
              · exact hLt.le
              · exact ((List.pairwise_cons.mp h.sorted).1 q
                  hQ).trans hLt.le
          · obtain ⟨level', new, hEq, hNew, hNext⟩ := h.expand
            rw [hEq]
            refine ih _ hNext ?_ ?_
            · intro v hV
              have hCur := hIn cur (h.queued cur List.mem_cons_self)
              have hV : v ∈ prev.map Prod.fst ∨ v ∈ new := by
                simpa [found] using hV
              exact hV.elim (hIn v) fun h => hClosed cur hCur v (hNew v h)
            · simp only [List.length_append, List.length_map,
                List.length_cons] at hFuel ⊢
              omega

end Search

---- The Way Back

/- The notes followed from a node until they give the mark. -/
def traceBack [DecidableEq V]
    (prev : List (V × V))
    (stop : V) : Nat → V → List V
| 0, _ => []
| n + 1, cur =>
    if cur = stop then []
    else cur :: traceBack prev stop n
      ((prev.lookup cur).getD stop)

/- The way back, reversed, is a way of the node's level. -/
theorem traceBack_spec [DecidableEq V]
    {nbs : V → List V} {src stop : V} {level : V → Nat}
    {s : Search V}
    (h : s.Traced nbs src stop level) (hStop : stop ∉ s.found)
    (fuel : Nat) (v : V) (hV : v ∈ s.found)
    (hFuel : level v < fuel) :
    ∃ before,
      (traceBack s.prev stop fuel v).reverse = before ++ [v] ∧
        (before ++ [v]).head? = some src ∧
        (before ++ [v]).IsChain (fun a b => b ∈ nbs a) ∧
        before.length = level v ∧
        ∀ x ∈ before ++ [v], x ∈ s.found := by
  induction fuel generalizing v with
  | zero => exact absurd hFuel (Nat.not_lt_zero _)
  | succ fuel ih =>
      have hNe : v ≠ stop := fun hEq => hStop (hEq ▸ hV)
      obtain ⟨p, hLookup⟩ : ∃ p, s.prev.lookup v = some p := by
        cases hGet : s.prev.lookup v with
        | some p => exact ⟨p, rfl⟩
        | none =>
            obtain ⟨e, hE, rfl⟩ := List.mem_map.mp hV
            exact absurd (List.lookup_eq_none_iff.mp hGet e hE)
              (by simp)
      have hEntry : (v, p) ∈ s.prev := by
        obtain ⟨l₁, l₂, hEq, _⟩ :=
          List.lookup_eq_some_iff.mp hLookup
        rw [hEq]
        exact List.mem_append_right _ List.mem_cons_self
      simp only [traceBack, if_neg hNe, hLookup, Option.getD_some,
        List.reverse_cons]
      rcases h.back _ hEntry with hSrc | ⟨hIn, hNb, hLevel⟩
      · obtain ⟨rfl, rfl⟩ := Prod.mk.inj hSrc
        have hNil : traceBack s.prev p fuel p = [] := by
          cases fuel <;> simp [traceBack]
        refine ⟨[], by simp [hNil], rfl, by simp, h.base.symm, ?_⟩
        simpa using hV
      · simp only at hIn hNb hLevel
        obtain ⟨before, hEq, hHead, hChain, hLength, hAll⟩ :=
          ih p hIn (by omega)
        refine ⟨before ++ [p], by rw [hEq], ?_, ?_, ?_, ?_⟩
        · rw [List.head?_append, hHead, Option.some_or]
        · refine List.isChain_append.mpr ⟨hChain, by simp, ?_⟩
          intro a hA b hB
          rw [List.getLast?_concat, Option.mem_some_iff] at hA
          rw [List.head?_cons, Option.mem_some_iff] at hB
          rwa [← hA, ← hB]
        · rw [List.length_append, hLength, List.length_singleton,
            hLevel]
        · intro x hX
          rcases List.mem_append.mp hX with hX | hX
          · exact hAll x hX
          · rwa [List.mem_singleton.mp hX]

---- Rounds

variable [DecidableEq V]

/- What is kept so far, and what the last round added to it. -/
def widenOnce
    (nbs : V → Finset V)
    (kept : Finset V × Finset V) : Finset V × Finset V :=
  let next := kept.2.biUnion nbs
  (kept.1 ∪ next, next)

def widen
    (nbs : V → Finset V)
    (rounds : Nat)
    (a : V) : Finset V :=
  ((widenOnce nbs)^[rounds] ({a}, {a})).1

/- So many rounds keep what that many steps reach. -/
theorem mem_widen_iff
    (nbs : V → Finset V) (rounds : Nat) (a v : V) :
    v ∈ widen nbs rounds a ↔
      ∃ n ≤ rounds, Steps (fun a b => b ∈ nbs a) a n v := by
  have hRounds : ∀ k,
      (∀ v, v ∈ ((widenOnce nbs)^[k] ({a}, {a})).2 ↔
        Steps (fun a b => b ∈ nbs a) a k v) ∧
      (∀ v, v ∈ ((widenOnce nbs)^[k] ({a}, {a})).1 ↔
        ∃ n ≤ k, Steps (fun a b => b ∈ nbs a) a n v) := by
    intro k
    induction k with
    | zero =>
        refine ⟨fun v => ?_, fun v => ?_⟩
        · rw [Function.iterate_zero, id, Finset.mem_singleton]
          constructor
          · rintro rfl
            exact Steps.here
          · rintro ⟨⟩
            rfl
        · rw [Function.iterate_zero, id, Finset.mem_singleton]
          constructor
          · rintro rfl
            exact ⟨0, Nat.le_refl 0, Steps.here⟩
          · rintro ⟨n, hLe, hSteps⟩
            obtain rfl := Nat.le_zero.mp hLe
            cases hSteps
            rfl
    | succ k ih =>
        obtain ⟨hLast, hKept⟩ := ih
        have hNext : ∀ v,
            v ∈ ((widenOnce nbs)^[k + 1] ({a}, {a})).2 ↔
              Steps (fun a b => b ∈ nbs a) a (k + 1) v := by
          intro v
          rw [Function.iterate_succ_apply', widenOnce,
            Finset.mem_biUnion]
          constructor
          · rintro ⟨b, hB, hV⟩
            exact ((hLast b).mp hB).step hV
          · intro hSteps
            cases hSteps with
            | step hB hV => exact ⟨_, (hLast _).mpr hB, hV⟩
        refine ⟨hNext, fun v => ?_⟩
        have hUnion :
            v ∈ ((widenOnce nbs)^[k + 1] ({a}, {a})).1 ↔
              v ∈ ((widenOnce nbs)^[k] ({a}, {a})).1 ∨
              v ∈ ((widenOnce nbs)^[k + 1] ({a}, {a})).2 := by
          rw [Function.iterate_succ_apply']
          exact Finset.mem_union
        rw [hUnion, hKept, hNext]
        constructor
        · rintro (⟨n, hLe, hSteps⟩ | hSteps)
          · exact ⟨n, hLe.trans (Nat.le_succ k), hSteps⟩
          · exact ⟨k + 1, Nat.le_refl _, hSteps⟩
        · rintro ⟨n, hLe, hSteps⟩
          rcases Nat.le_succ_iff.mp hLe with hLe | rfl
          · exact Or.inl ⟨n, hLe, hSteps⟩
          · exact Or.inr hSteps
  exact (hRounds rounds).2 v

end Lib
