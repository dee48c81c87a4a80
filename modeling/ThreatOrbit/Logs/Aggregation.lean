import ThreatOrbit.Logs.Detectors

/-
  What the log service reports of the raw findings, in whatever
  order the detectors give them.

  Of the findings with one key the first with the highest score
  is kept. A finding that takes the place of another forgets
  how often that was seen, and the detectors of a source are
  counted over what is kept.
-/

---- Aggregation

namespace ThreatOrbit.Logs

open Lib

section

variable (findings : List AnomalyFinding)

/- A finding with the highest score of its key. -/
def Top (f : AnomalyFinding) : Prop :=
  f ∈ findings ∧
    ∀ g ∈ findings, g.key = f.key → g.severityScore ≤ f.severityScore

/- A score with the boost for a number of detectors. -/
def boosted (score : Int) (detectors : Nat) : Int :=
  if boostOf detectors = 0 then score
  else min 100 (score + boostOf detectors)

/- The number of detectors that found something at the source of
a finding; none if it has no source. -/
def corroborating (f : AnomalyFinding) : Nat :=
  match someText f.sourceIp with
  | none => 0
  | some ip => detectorsOf findings ip

/- A report has one finding for each key, with the highest score
of the key, boosted by the detectors of its source, and with the
greatest count; it is sorted by score. -/
structure Aggregates (report : List AnomalyFinding) : Prop where
  keys : ∀ key, key ∈ report.map AnomalyFinding.key ↔
    key ∈ findings.map AnomalyFinding.key
  once : (report.map AnomalyFinding.key).Nodup
  score : ∀ g ∈ report, ∃ f, Top findings f ∧ f.key = g.key ∧
    g.severityScore =
      boosted f.severityScore (corroborating findings f)
  count : ∀ g ∈ report,
    (∃ f ∈ findings, f.key = g.key ∧ f.count = g.count) ∧
      ∀ f ∈ findings, f.key = g.key → f.count ≤ g.count
  sorted : report.Pairwise fun f g =>
    g.severityScore ≤ f.severityScore

/- One finding with the highest score for each key. -/
structure Choice (chosen : List AnomalyFinding) : Prop where
  top : ∀ f ∈ chosen, Top findings f
  once : (chosen.map AnomalyFinding.key).Nodup
  keys : ∀ f ∈ findings, f.key ∈ chosen.map AnomalyFinding.key

/- What has to hold of the raw findings: a finding with the
highest score of its key has the greatest count; whichever
findings with the highest scores are chosen, their detectors
boost the scores as all detectors do; and the severities agree
where no boost replaces them. -/
structure Settled : Prop where
  counts : ∀ f ∈ findings, ∃ g, Top findings g ∧ g.key = f.key ∧
    f.count ≤ g.count
  scores : ∀ chosen, Choice findings chosen → ∀ f ∈ chosen,
    boosted f.severityScore (corroborating chosen f) =
      boosted f.severityScore (corroborating findings f)
  plain : ∀ chosen, Choice findings chosen →
    ∀ other, Choice findings other → ∀ f ∈ chosen, ∀ g ∈ other,
      f.key = g.key → boostOf (corroborating chosen f) = 0 →
      boostOf (corroborating other g) = 0 →
        f.severity = g.severity
  capped : ∀ chosen, Choice findings chosen →
    ∀ other, Choice findings other → ∀ f ∈ chosen, ∀ g ∈ other,
      f.key = g.key → boostOf (corroborating chosen f) = 0 →
      boostOf (corroborating other g) ≠ 0 →
        f.severity = .critical

end

---- What Is Kept

/- A finding without what merging changes. -/
def AnomalyFinding.bare (f : AnomalyFinding) : AnomalyFinding :=
  { f with
    evidence := []
    count := 0 }

/- The finding that stays of two with one key. -/
def better (existing f : AnomalyFinding) : AnomalyFinding :=
  if existing.severityScore < f.severityScore then f else existing

/- A step of a loop that merges the findings of one key. -/
def mergeInto
    (merge : AnomalyFinding → AnomalyFinding → AnomalyFinding)
    (seen : List AnomalyFinding)
    (f : AnomalyFinding) : List AnomalyFinding :=
  if seen.any fun g => decide (g.key = f.key) then
    seen.map fun g => if g.key = f.key then merge g f else g
  else seen ++ [f]

/- The raw findings that stay. -/
def kept (findings : List AnomalyFinding) : List AnomalyFinding :=
  findings.foldl (mergeInto better) []

theorem deduplicate_eq (findings : List AnomalyFinding) :
    deduplicate findings =
      findings.foldl (mergeInto mergeFinding) [] :=
  rfl

theorem bare_merge (f g : AnomalyFinding) :
    (mergeFinding f g).bare = better f.bare g.bare ∧
      (better f g).bare = better f.bare g.bare := by
  by_cases hLess : f.severityScore < g.severityScore
  · simp [mergeFinding, better, AnomalyFinding.bare, hLess]
  · simp [mergeFinding, better, AnomalyFinding.bare, hLess]

/- A loop that merges as the better finding does, seen without
what merging changes. -/
theorem bare_mergeInto
    {merge : AnomalyFinding → AnomalyFinding → AnomalyFinding}
    (hMerge : ∀ f g, (merge f g).bare = better f.bare g.bare)
    (findings seen : List AnomalyFinding) :
    (findings.foldl (mergeInto merge) seen).map
        AnomalyFinding.bare =
      (findings.map AnomalyFinding.bare).foldl (mergeInto better)
        (seen.map AnomalyFinding.bare) := by
  induction findings generalizing seen with
  | nil => rfl
  | cons f rest ih =>
      rw [List.foldl_cons, ih, List.map_cons, List.foldl_cons]
      congr 1
      have hAny :
          ((seen.map AnomalyFinding.bare).any fun g =>
            decide (g.key = f.bare.key)) =
          seen.any fun g => decide (g.key = f.key) := by
        rw [List.any_map]
        rfl
      unfold mergeInto
      rw [hAny]
      split
      · rw [List.map_map, List.map_map]
        apply List.map_congr_left
        intro g _
        show (if g.key = f.key then merge g f else g).bare =
          if g.key = f.key then better g.bare f.bare else g.bare
        split
        · exact hMerge g f
        · rfl
      · rw [List.map_append]
        rfl

/- Deduplication keeps the better findings. -/
theorem deduplicate_bare (findings : List AnomalyFinding) :
    (deduplicate findings).map AnomalyFinding.bare =
      (kept findings).map AnomalyFinding.bare := by
  rw [deduplicate_eq, kept,
    bare_mergeInto fun f g => (bare_merge f g).1,
    bare_mergeInto fun f g => (bare_merge f g).2]

theorem kept_append
    (findings : List AnomalyFinding) (f : AnomalyFinding) :
    kept (findings ++ [f]) = mergeInto better (kept findings) f := by
  rw [kept, List.foldl_append]
  rfl

theorem any_key_iff
    {seen : List AnomalyFinding} {f : AnomalyFinding} :
    (seen.any fun g => decide (g.key = f.key)) = true ↔
      f.key ∈ seen.map AnomalyFinding.key := by
  rw [List.any_eq_true, List.mem_map]
  simp only [decide_eq_true_iff]

theorem keys_mergeInto
    {merge : AnomalyFinding → AnomalyFinding → AnomalyFinding}
    (hMerge : ∀ f g, f.key = g.key → (merge f g).key = f.key)
    (seen : List AnomalyFinding) (f : AnomalyFinding) :
    (mergeInto merge seen f).map AnomalyFinding.key =
      if f.key ∈ seen.map AnomalyFinding.key then
        seen.map AnomalyFinding.key
      else seen.map AnomalyFinding.key ++ [f.key] := by
  unfold mergeInto
  by_cases hSeen : f.key ∈ seen.map AnomalyFinding.key
  · rw [if_pos (any_key_iff.mpr hSeen), if_pos hSeen, List.map_map]
    apply List.map_congr_left
    intro g _
    rw [Function.comp_apply]
    split
    · rename_i hSame
      exact hMerge g f hSame
    · rfl
  · rw [if_neg (fun hAny => hSeen (any_key_iff.mp hAny)),
      if_neg hSeen, List.map_append]
    rfl

theorem better_key
    (f g : AnomalyFinding) (hSame : f.key = g.key) :
    (better f g).key = f.key := by
  unfold better
  split
  · exact hSame.symm
  · rfl

/- What is in the list after a step. -/
theorem mem_mergeInto
    {merge : AnomalyFinding → AnomalyFinding → AnomalyFinding}
    {seen : List AnomalyFinding} {f h : AnomalyFinding}
    (hH : h ∈ mergeInto merge seen f) :
    (h ∈ seen ∧ h.key ≠ f.key) ∨
      (∃ g ∈ seen, g.key = f.key ∧ h = merge g f) ∨
      (h = f ∧ f.key ∉ seen.map AnomalyFinding.key) := by
  unfold mergeInto at hH
  split at hH
  · rcases List.mem_map.mp hH with ⟨g, hG, hIs⟩
    split at hIs
    · rename_i hSame
      exact .inr (.inl ⟨g, hG, hSame, hIs.symm⟩)
    · rename_i hOther
      rw [← hIs]
      exact .inl ⟨hG, hOther⟩
  · rename_i hNew
    rw [any_key_iff] at hNew
    rcases List.mem_append.mp hH with hOld | hLast
    · refine .inl ⟨hOld, fun hSame => hNew ?_⟩
      rw [← hSame]
      exact List.mem_map_of_mem hOld
    · exact .inr (.inr ⟨List.mem_singleton.mp hLast, hNew⟩)

/- The findings that stay have the highest score of their key,
and there is one for each key. -/
theorem kept_choice (findings : List AnomalyFinding) :
    Choice findings (kept findings) := by
  induction findings using List.reverseRecOn with
  | nil =>
      exact ⟨fun f hF => absurd hF List.not_mem_nil,
        List.nodup_nil, fun f hF => absurd hF List.not_mem_nil⟩
  | append_singleton findings f ih =>
      have hKeys := keys_mergeInto better_key (kept findings) f
      refine ⟨?_, ?_, ?_⟩
      · intro h hH
        rw [kept_append] at hH
        rcases mem_mergeInto hH with
          ⟨hOld, hOther⟩ | ⟨g, hG, hSame, rfl⟩ | ⟨rfl, hNew⟩
        · have hTop := ih.top h hOld
          refine ⟨List.mem_append_left _ hTop.1, ?_⟩
          intro g hG hKey
          rcases List.mem_append.mp hG with hBefore | hLast
          · exact hTop.2 g hBefore hKey
          · rw [List.mem_singleton.mp hLast] at hKey
            exact absurd hKey.symm hOther
        · have hTop := ih.top g hG
          unfold better
          split
          · rename_i hLess
            refine ⟨List.mem_append_right _ List.mem_cons_self, ?_⟩
            intro x hX hKey
            rcases List.mem_append.mp hX with hBefore | hLast
            · exact (hTop.2 x hBefore (hKey.trans hSame.symm)).trans
                hLess.le
            · rw [List.mem_singleton.mp hLast]
          · rename_i hLess
            refine ⟨List.mem_append_left _ hTop.1, ?_⟩
            intro x hX hKey
            rcases List.mem_append.mp hX with hBefore | hLast
            · exact hTop.2 x hBefore hKey
            · rw [List.mem_singleton.mp hLast]
              omega
        · refine ⟨List.mem_append_right _ List.mem_cons_self, ?_⟩
          intro x hX hKey
          rcases List.mem_append.mp hX with hBefore | hLast
          · rw [← hKey] at hNew
            exact absurd (ih.keys x hBefore) hNew
          · rw [List.mem_singleton.mp hLast]
      · rw [kept_append, hKeys]
        split
        · exact ih.once
        · rename_i hNew
          exact ih.once.append (List.nodup_singleton _) (by
            simpa using hNew)
      · intro x hX
        rw [kept_append, hKeys]
        rcases List.mem_append.mp hX with hBefore | hLast
        · have hOld := ih.keys x hBefore
          split
          · exact hOld
          · exact List.mem_append_left _ hOld
        · rw [List.mem_singleton.mp hLast]
          split
          · rename_i hOld
            exact hOld
          · exact List.mem_append_right _ List.mem_cons_self

---- Orders of the Findings

section

variable {findings : List AnomalyFinding}

theorem Top.perm
    {other : List AnomalyFinding} {f : AnomalyFinding}
    (hPerm : other.Perm findings) (hTop : Top other f) :
    Top findings f :=
  ⟨hPerm.mem_iff.mp hTop.1,
    fun g hG => hTop.2 g (hPerm.mem_iff.mpr hG)⟩

theorem Choice.perm
    {other chosen : List AnomalyFinding}
    (hPerm : other.Perm findings) (hChoice : Choice other chosen) :
    Choice findings chosen :=
  ⟨fun f hF => (hChoice.top f hF).perm hPerm, hChoice.once,
    fun f hF => hChoice.keys f (hPerm.mem_iff.mpr hF)⟩

/- Two findings with the highest score of one key. -/
theorem Top.score_eq
    {f g : AnomalyFinding}
    (hF : Top findings f) (hG : Top findings g)
    (hSame : f.key = g.key) :
    f.severityScore = g.severityScore :=
  le_antisymm (hG.2 f hF.1 hSame) (hF.2 g hG.1 hSame.symm)

/- Findings of different keys all stay. -/
theorem kept_of_nodup
    {chosen : List AnomalyFinding}
    (hOnce : (chosen.map AnomalyFinding.key).Nodup) :
    kept chosen = chosen := by
  induction chosen using List.reverseRecOn with
  | nil => rfl
  | append_singleton chosen f ih =>
      rw [List.map_append, List.nodup_append] at hOnce
      have hNew : f.key ∉ chosen.map AnomalyFinding.key :=
        fun hOld => hOnce.2.2 _ hOld _ List.mem_cons_self rfl
      rw [kept_append, ih hOnce.1, mergeInto,
        if_neg (fun hAny => hNew (any_key_iff.mp hAny))]

/- Findings that are no better take no one's place. -/
theorem foldl_better
    {chosen rest : List AnomalyFinding}
    (hKeys : ∀ f ∈ rest, f.key ∈ chosen.map AnomalyFinding.key)
    (hWorse : ∀ f ∈ rest, ∀ g ∈ chosen, g.key = f.key →
      f.severityScore ≤ g.severityScore) :
    rest.foldl (mergeInto better) chosen = chosen := by
  induction rest with
  | nil => rfl
  | cons f rest ih =>
      rw [List.forall_mem_cons] at hKeys hWorse
      have hStep : mergeInto better chosen f = chosen := by
        rw [mergeInto, if_pos (any_key_iff.mpr hKeys.1)]
        have hEach : ∀ g ∈ chosen,
            (if g.key = f.key then better g f else g) = id g := by
          intro g hG
          split
          · rename_i hSame
            rw [better, if_neg (hWorse.1 g hG hSame).not_gt]
            rfl
          · rfl
        rw [List.map_congr_left hEach, List.map_id]
      rw [List.foldl_cons, hStep]
      exact ih hKeys.2 hWorse.2

/- Each choice is what stays in some order. -/
theorem kept_of_choice
    {chosen : List AnomalyFinding}
    (hChoice : Choice findings chosen) :
    ∃ other, other.Perm findings ∧ kept other = chosen := by
  have hNodup : chosen.Nodup := hChoice.once.of_map _
  have hSubset : chosen ⊆ findings :=
    fun f hF => (hChoice.top f hF).1
  rcases hNodup.subperm hSubset with ⟨part, hPart, hSub⟩
  rcases hSub.exists_perm_append with ⟨rest, hRest⟩
  have hPerm : (chosen ++ rest).Perm findings :=
    (hPart.symm.append_right rest).trans hRest.symm
  refine ⟨chosen ++ rest, hPerm, ?_⟩
  have hIn : ∀ f ∈ rest, f ∈ findings :=
    fun f hF => hPerm.subset (List.mem_append_right _ hF)
  have hFold : kept (chosen ++ rest) =
      rest.foldl (mergeInto better) (kept chosen) :=
    List.foldl_append
  rw [hFold, kept_of_nodup hChoice.once]
  apply foldl_better
  · exact fun f hF => hChoice.keys f (hIn f hF)
  · intro f hF g hG hSame
    exact (hChoice.top g hG).2 f (hIn f hF) hSame.symm

theorem merge_key
    (f g : AnomalyFinding) (hSame : f.key = g.key) :
    (mergeFinding f g).key = f.key := by
  unfold mergeFinding
  split
  · exact hSame.symm
  · rfl

theorem merge_count (f g : AnomalyFinding) :
    (mergeFinding f g).count =
      if f.severityScore < g.severityScore then g.count
      else max f.count g.count := by
  unfold mergeFinding
  split
  · rfl
  · rfl

theorem deduplicate_append
    (findings : List AnomalyFinding) (f : AnomalyFinding) :
    deduplicate (findings ++ [f]) =
      mergeInto mergeFinding (deduplicate findings) f := by
  rw [deduplicate_eq, List.foldl_append]
  rfl

/- What a finding that is reported looked like when it was
raised. -/
theorem exists_kept
    {g : AnomalyFinding}
    (hG : g ∈ deduplicate findings) :
    ∃ f ∈ kept findings, f.bare = g.bare := by
  have hBare := List.mem_map_of_mem
    (f := AnomalyFinding.bare) hG
  rw [deduplicate_bare] at hBare
  exact List.mem_map.mp hBare

theorem exists_deduplicated
    {f : AnomalyFinding}
    (hF : f ∈ kept findings) :
    ∃ g ∈ deduplicate findings, g.bare = f.bare := by
  have hBare := List.mem_map_of_mem
    (f := AnomalyFinding.bare) hF
  rw [← deduplicate_bare] at hBare
  exact List.mem_map.mp hBare

theorem key_of_bare
    {f g : AnomalyFinding}
    (hBare : f.bare = g.bare) :
    f.key = g.key := by
  have hKey := congrArg AnomalyFinding.key hBare
  exact hKey

theorem score_of_bare
    {f g : AnomalyFinding}
    (hBare : f.bare = g.bare) :
    f.severityScore = g.severityScore := by
  have hScore := congrArg AnomalyFinding.severityScore hBare
  exact hScore

/- The count that is kept is that of some finding of the key, and
no less than that of any with the highest score. -/
theorem count_deduplicate
    {g : AnomalyFinding}
    (hG : g ∈ deduplicate findings) :
    (∃ f ∈ findings, f.key = g.key ∧ f.count = g.count) ∧
      ∀ f, Top findings f → f.key = g.key → f.count ≤ g.count := by
  induction findings using List.reverseRecOn generalizing g with
  | nil => exact absurd hG List.not_mem_nil
  | append_singleton findings x ih =>
      rw [deduplicate_append] at hG
      have hBefore {f : AnomalyFinding}
          (hTop : Top (findings ++ [x]) f) (hIn : f ∈ findings) :
          Top findings f :=
        ⟨hIn, fun y hY => hTop.2 y (List.mem_append_left _ hY)⟩
      rcases mem_mergeInto hG with
        ⟨hOld, hOther⟩ | ⟨y, hY, hSame, rfl⟩ | ⟨rfl, hNew⟩
      · rcases ih hOld with ⟨⟨f, hF, hIs⟩, hLe⟩
        refine ⟨⟨f, List.mem_append_left _ hF, hIs⟩, ?_⟩
        intro t hTop hKey
        rcases List.mem_append.mp hTop.1 with hIn | hLast
        · exact hLe t (hBefore hTop hIn) hKey
        · rw [List.mem_singleton.mp hLast] at hKey
          exact absurd hKey.symm hOther
      · rcases ih hY with ⟨⟨f, hF, hKeyF, hCount⟩, hLe⟩
        have hKey := merge_key y x hSame
        rw [merge_count, hKey]
        rcases exists_kept hY with ⟨k, hK, hBare⟩
        have hTopK := (kept_choice findings).top k hK
        have hKeyK := key_of_bare hBare
        have hScoreK := score_of_bare hBare
        split
        · rename_i hLess
          refine ⟨⟨x, List.mem_append_right _ List.mem_cons_self,
            hSame.symm, rfl⟩, ?_⟩
          intro t hTop hKeyT
          rcases List.mem_append.mp hTop.1 with hIn | hLast
          · have hMore := hTop.2 x
              (List.mem_append_right _ List.mem_cons_self)
              (hSame.symm.trans hKeyT.symm)
            have hLeT := hTopK.2 t hIn (hKeyT.trans hKeyK.symm)
            omega
          · rw [List.mem_singleton.mp hLast]
        · refine ⟨?_, ?_⟩
          · rcases max_choice y.count x.count with hMax | hMax
            · rw [hMax]
              exact ⟨f, List.mem_append_left _ hF, hKeyF, hCount⟩
            · rw [hMax]
              exact ⟨x, List.mem_append_right _ List.mem_cons_self,
                hSame.symm, rfl⟩
          · intro t hTop hKeyT
            rcases List.mem_append.mp hTop.1 with hIn | hLast
            · exact (hLe t (hBefore hTop hIn) hKeyT).trans
                (le_max_left _ _)
            · rw [List.mem_singleton.mp hLast]
              exact le_max_right _ _
      · refine ⟨⟨g, List.mem_append_right _ List.mem_cons_self, rfl,
          rfl⟩, ?_⟩
        intro t hTop hKeyT
        rcases List.mem_append.mp hTop.1 with hIn | hLast
        · have hCovered := (kept_choice findings).keys t hIn
          rw [hKeyT] at hCovered
          rcases List.mem_map.mp hCovered with ⟨k, hK, hKey⟩
          rcases exists_deduplicated hK with ⟨d, hD, hBare⟩
          refine absurd (List.mem_map.mpr ⟨d, hD, ?_⟩) hNew
          exact (key_of_bare hBare).trans hKey
        · rw [List.mem_singleton.mp hLast]

end

---- The Highest Scores Last

section

variable {findings : List AnomalyFinding}

/- If the findings with the highest scores come last, what went
before is forgotten. -/
theorem count_highest_last
    {lower top : List AnomalyFinding}
    (hLower : ∀ f ∈ lower, f ∈ findings ∧ ¬ Top findings f)
    (hTop : ∀ f ∈ top, Top findings f) :
    ∀ g ∈ deduplicate (lower ++ top),
      (∃ f ∈ top, f.key = g.key ∧ f.count = g.count ∧
        f.severityScore = g.severityScore) ∨
      ∀ f, Top findings f → f.key = g.key →
        g.severityScore < f.severityScore := by
  induction top using List.reverseRecOn with
  | nil =>
      intro g hG
      rw [List.append_nil] at hG
      rcases exists_kept hG with ⟨k, hK, hBare⟩
      have hIn := hLower k ((kept_choice lower).top k hK).1
      refine .inr fun f hF hKey => ?_
      have hSame : k.key = f.key :=
        (key_of_bare hBare).trans hKey.symm
      rw [← score_of_bare hBare]
      refine lt_of_le_of_ne (hF.2 k hIn.1 hSame) fun hEqual => ?_
      refine hIn.2 ⟨hIn.1, fun y hY hKeyY => ?_⟩
      rw [hEqual]
      exact hF.2 y hY (hKeyY.trans hSame)
  | append_singleton top x ih =>
      have hTopX := hTop x
        (List.mem_append_right _ List.mem_cons_self)
      have hBefore := ih fun f hF =>
        hTop f (List.mem_append_left _ hF)
      intro g hG
      rw [← List.append_assoc, deduplicate_append] at hG
      rcases mem_mergeInto hG with
        ⟨hOld, hOther⟩ | ⟨y, hY, hSame, rfl⟩ | ⟨rfl, hNew⟩
      · rcases hBefore g hOld with ⟨f, hF, hIs⟩ | hLow
        · exact .inl ⟨f, List.mem_append_left _ hF, hIs⟩
        · exact .inr hLow
      · left
        rw [merge_key y x hSame, merge_count]
        have hLast : x ∈ top ++ [x] :=
          List.mem_append_right _ List.mem_cons_self
        rcases hBefore y hY with ⟨f, hF, hKey, hCount, hScore⟩ | hLow
        · have hEqual := (hTop f
            (List.mem_append_left _ hF)).score_eq hTopX
              (hKey.trans hSame)
          have hNot : ¬ y.severityScore < x.severityScore := by
            omega
          rw [if_neg hNot, mergeFinding, if_neg hNot]
          rcases max_choice y.count x.count with hMax | hMax
          · rw [hMax]
            exact ⟨f, List.mem_append_left _ hF, hKey, hCount,
              hScore⟩
          · rw [hMax]
            refine ⟨x, hLast, hSame.symm, rfl, ?_⟩
            exact hEqual.symm.trans hScore
        · have hLess := hLow x hTopX hSame.symm
          rw [if_pos hLess, mergeFinding, if_pos hLess]
          exact ⟨x, hLast, hSame.symm, rfl, rfl⟩
      · exact .inl ⟨g, List.mem_append_right _ List.mem_cons_self,
          rfl, rfl, rfl⟩

/- Some order gives each key the count of a finding with its
highest score. -/
theorem exists_highest_last (findings : List AnomalyFinding) :
    ∃ other, other.Perm findings ∧ ∀ g ∈ deduplicate other,
      ∃ f, Top findings f ∧ f.key = g.key ∧ f.count = g.count := by
  classical
  refine ⟨findings.filter (fun f => !decide (Top findings f)) ++
    findings.filter fun f => decide (Top findings f), ?_, ?_⟩
  · exact List.perm_append_comm.trans
      (List.filter_append_perm _ findings)
  · intro g hG
    have hLower : ∀ f ∈ findings.filter
          fun f => !decide (Top findings f),
        f ∈ findings ∧ ¬ Top findings f := by
      intro f hF
      rw [List.mem_filter, Bool.not_eq_true',
        decide_eq_false_iff_not] at hF
      exact hF
    have hHigh : ∀ f ∈ findings.filter
          fun f => decide (Top findings f), Top findings f := by
      intro f hF
      rw [List.mem_filter, decide_eq_true_iff] at hF
      exact hF.2
    rcases count_highest_last hLower hHigh g hG with
      ⟨f, hF, hKey, hCount, _⟩ | hLow
    · exact ⟨f, hHigh f hF, hKey, hCount⟩
    · -- what is kept has the highest score of its key
      rcases exists_kept hG with ⟨k, hK, hBare⟩
      have hTopK := ((kept_choice _).top k hK).perm
        (List.perm_append_comm.trans
          (List.filter_append_perm _ findings))
      have hLess := hLow k hTopK (key_of_bare hBare)
      rw [← score_of_bare hBare] at hLess
      exact absurd hLess (lt_irrefl _)

end

---- Reported Findings

/- A finding as it is reported where some number of detectors
corroborate it. -/
def reportedAs (detectors : Nat) (f : AnomalyFinding) :
    AnomalyFinding :=
  if boostOf detectors = 0 then f
  else
    { f with
      severityScore := min 100 (f.severityScore + boostOf detectors)
      severity :=
        reportSeverity
          (min 100 (f.severityScore + boostOf detectors))
      description :=
        f.description ++ lit " [Corroborated by " ++
          natStr detectors ++ lit " detectors, score boosted]" }

theorem correlate_eq (findings : List AnomalyFinding) :
    correlate findings = findings.map fun f =>
      reportedAs (corroborating findings f) f := by
  unfold correlate
  apply List.map_congr_left
  intro f _
  unfold corroborating
  cases hSource : someText f.sourceIp with
  | none => rfl
  | some ip => rfl

theorem reportedAs_key (n : Nat) (f : AnomalyFinding) :
    (reportedAs n f).key = f.key := by
  unfold reportedAs
  split
  · rfl
  · rfl

theorem reportedAs_count (n : Nat) (f : AnomalyFinding) :
    (reportedAs n f).count = f.count := by
  unfold reportedAs
  split
  · rfl
  · rfl

theorem reportedAs_score (n : Nat) (f : AnomalyFinding) :
    (reportedAs n f).severityScore = boosted f.severityScore n := by
  unfold reportedAs boosted
  split
  · rfl
  · rfl

theorem reportedAs_severity (n : Nat) (f : AnomalyFinding) :
    (reportedAs n f).severity =
      if boostOf n = 0 then f.severity
      else reportSeverity (boosted f.severityScore n) := by
  unfold reportedAs boosted
  split
  · rfl
  · rfl

/- The detectors of a source do not depend on what merging
changes. -/
theorem detectorsOf_bare
    (findings : List AnomalyFinding) (ip : Str) :
    detectorsOf (findings.map AnomalyFinding.bare) ip =
      detectorsOf findings ip := by
  unfold detectorsOf
  rw [List.filter_map, List.map_map]
  rfl

theorem corroborating_bare
    {first second : List AnomalyFinding} {f g : AnomalyFinding}
    (hLists : first.map AnomalyFinding.bare =
      second.map AnomalyFinding.bare)
    (hBare : f.bare = g.bare) :
    corroborating first f = corroborating second g := by
  have hSource : f.sourceIp = g.sourceIp := by
    have hSame := congrArg AnomalyFinding.sourceIp hBare
    exact hSame
  unfold corroborating
  rw [hSource]
  cases someText g.sourceIp with
  | none => rfl
  | some ip =>
      show detectorsOf first ip = detectorsOf second ip
      rw [← detectorsOf_bare first, hLists, detectorsOf_bare]

/- What is reported is what is kept, boosted by the detectors of
what is kept. -/
theorem mem_processFindings
    {findings : List AnomalyFinding} {h : AnomalyFinding}
    (hH : h ∈ processFindings findings) :
    ∃ f ∈ kept findings, ∃ g ∈ deduplicate findings,
      f.bare = g.bare ∧
        h = reportedAs (corroborating (kept findings) f) g := by
  rw [processFindings, List.mem_mergeSort, correlate_eq] at hH
  rcases List.mem_map.mp hH with ⟨g, hG, rfl⟩
  rcases exists_kept hG with ⟨f, hF, hBare⟩
  refine ⟨f, hF, g, hG, hBare, ?_⟩
  rw [corroborating_bare (deduplicate_bare findings) hBare.symm]

theorem exists_reported
    {findings : List AnomalyFinding} {f : AnomalyFinding}
    (hF : f ∈ kept findings) :
    ∃ g ∈ deduplicate findings, f.bare = g.bare ∧
      reportedAs (corroborating (kept findings) f) g ∈
        processFindings findings := by
  rcases exists_deduplicated hF with ⟨g, hG, hBare⟩
  refine ⟨g, hG, hBare.symm, ?_⟩
  rw [processFindings, List.mem_mergeSort, correlate_eq,
    ← corroborating_bare (deduplicate_bare findings) hBare]
  exact List.mem_map_of_mem hG

/- The keys of a report are those of what is kept. -/
theorem keys_processFindings (findings : List AnomalyFinding) :
    ((processFindings findings).map AnomalyFinding.key).Perm
      ((kept findings).map AnomalyFinding.key) := by
  have hCorrelate :
      (correlate (deduplicate findings)).map AnomalyFinding.key =
        (kept findings).map AnomalyFinding.key := by
    have hBare := congrArg (List.map AnomalyFinding.key)
      (deduplicate_bare findings)
    rw [List.map_map, List.map_map] at hBare
    rw [correlate_eq, List.map_map]
    refine Eq.trans (List.map_congr_left fun g _ => ?_) hBare
    exact reportedAs_key _ g
  rw [← hCorrelate]
  exact (List.mergeSort_perm _ _).map _

---- Every Order

section

variable {findings : List AnomalyFinding}

/- Findings of one key have one source, if any. -/
theorem corroborating_congr
    {f g : AnomalyFinding}
    (hSame : f.key = g.key) :
    corroborating findings f = corroborating findings g := by
  have hSource : f.sourceIp.getD [] = g.sourceIp.getD [] :=
    congrArg (fun key => key.2.1) hSame
  have hText : someText f.sourceIp = someText g.sourceIp := by
    revert hSource
    rcases f.sourceIp with _ | _ | ⟨c, s⟩
      <;> rcases g.sourceIp with _ | _ | ⟨d, t⟩
      <;> simp [someText]
  rw [corroborating, corroborating, hText]

theorem boostOf_nonneg (n : Nat) : 0 ≤ boostOf n := by
  unfold boostOf
  split
  · decide
  · split
    · decide
    · split
      · decide
      · decide

/- A boost that leaves a score as it is ends at the cap. -/
theorem capped_of_boosted
    {score : Int} {n : Nat}
    (hBoost : boostOf n ≠ 0) (hSame : boosted score n = score) :
    score = 100 := by
  have hNonneg := boostOf_nonneg n
  rw [boosted, if_neg hBoost] at hSame
  omega

/- The score and the severity of each key that is chosen are
reported. -/
theorem report_of_choice
    {chosen : List AnomalyFinding}
    (hChoice : Choice findings chosen) :
    ∃ other, other.Perm findings ∧ ∀ f ∈ chosen,
      ∃ h ∈ processFindings other, h.key = f.key ∧
        h.severityScore =
          boosted f.severityScore (corroborating chosen f) ∧
        h.severity =
          if boostOf (corroborating chosen f) = 0 then f.severity
          else reportSeverity (boosted f.severityScore
            (corroborating chosen f)) := by
  rcases kept_of_choice hChoice with ⟨other, hPerm, hKept⟩
  refine ⟨other, hPerm, fun f hF => ?_⟩
  rw [← hKept] at hF
  rcases exists_reported hF with ⟨g, _, hBare, hH⟩
  rw [hKept] at hH
  refine ⟨_, hH, ?_, ?_, ?_⟩
  · rw [reportedAs_key, key_of_bare hBare]
  · rw [reportedAs_score, score_of_bare hBare]
  · have hSeverity : f.severity = g.severity := by
      have hSame := congrArg AnomalyFinding.severity hBare
      exact hSame
    rw [reportedAs_severity, score_of_bare hBare, hSeverity]

/- Findings that are settled are aggregated in every order. -/
theorem aggregates_of_settled
    (hSettled : Settled findings) {other : List AnomalyFinding}
    (hPerm : other.Perm findings) :
    Aggregates findings (processFindings other) := by
  have hChoice := (kept_choice other).perm hPerm
  have hKeys := keys_processFindings other
  refine ⟨?_, ?_, ?_, ?_, ?_⟩
  · intro key
    rw [hKeys.mem_iff, List.mem_map, List.mem_map]
    constructor
    · rintro ⟨f, hF, hKey⟩
      exact ⟨f, (hChoice.top f hF).1, hKey⟩
    · rintro ⟨f, hF, hKey⟩
      rw [← hKey]
      exact List.mem_map.mp (hChoice.keys f hF)
  · exact hKeys.nodup_iff.mpr hChoice.once
  · intro h hH
    rcases mem_processFindings hH with ⟨f, hF, g, _, hBare, rfl⟩
    refine ⟨f, hChoice.top f hF, ?_, ?_⟩
    · rw [reportedAs_key, key_of_bare hBare]
    · rw [reportedAs_score, ← score_of_bare hBare]
      exact hSettled.scores _ hChoice f hF
  · intro h hH
    rcases mem_processFindings hH with ⟨f, _, g, hG, _, rfl⟩
    rw [reportedAs_key, reportedAs_count]
    rcases count_deduplicate hG with ⟨⟨x, hX, hIs⟩, hLe⟩
    refine ⟨⟨x, hPerm.subset hX, hIs⟩, fun y hY hKey => ?_⟩
    rcases hSettled.counts y hY with ⟨t, hTop, hSame, hCount⟩
    exact hCount.trans
      (hLe t (hTop.perm hPerm.symm) (hSame.trans hKey))
  · have hSorted : (processFindings other).Pairwise fun f g =>
        decide (g.severityScore ≤ f.severityScore) = true := by
      apply List.pairwise_mergeSort
      · intro a b c hAB hBC
        exact decide_eq_true
          ((of_decide_eq_true hBC).trans (of_decide_eq_true hAB))
      · intro a b
        rw [Bool.or_eq_true, decide_eq_true_iff,
          decide_eq_true_iff]
        exact le_total _ _
    exact hSorted.imp fun hLe => of_decide_eq_true hLe

/- The severity that a choice gives a key depends on the key
alone. -/
theorem severity_of_settled
    (hSettled : Settled findings)
    {chosen other : List AnomalyFinding}
    (hChosen : Choice findings chosen)
    (hOther : Choice findings other) {f g : AnomalyFinding}
    (hF : f ∈ chosen) (hG : g ∈ other) (hSame : f.key = g.key) :
    (if boostOf (corroborating chosen f) = 0 then f.severity
      else reportSeverity (boosted f.severityScore
        (corroborating chosen f))) =
    if boostOf (corroborating other g) = 0 then g.severity
      else reportSeverity (boosted g.severityScore
        (corroborating other g)) := by
  have hScore := (hChosen.top f hF).score_eq (hOther.top g hG) hSame
  have hBoth :
      boosted f.severityScore (corroborating chosen f) =
        boosted g.severityScore (corroborating other g) := by
    rw [hSettled.scores chosen hChosen f hF,
      hSettled.scores other hOther g hG, hScore,
      corroborating_congr hSame]
  -- where one of the two is not boosted the other is at the cap
  have hCap {a b : List AnomalyFinding} {x y : AnomalyFinding}
      (hXY : x.severityScore = y.severityScore)
      (hScores : boosted x.severityScore (corroborating a x) =
        boosted y.severityScore (corroborating b y))
      (hPlain : boostOf (corroborating a x) = 0)
      (hBoosted : boostOf (corroborating b y) ≠ 0) :
      reportSeverity (boosted y.severityScore
        (corroborating b y)) = .critical := by
    rw [boosted, if_pos hPlain, hXY] at hScores
    rw [← hScores, capped_of_boosted hBoosted hScores.symm]
    rfl
  by_cases hFirst : boostOf (corroborating chosen f) = 0
  · rw [if_pos hFirst]
    by_cases hSecond : boostOf (corroborating other g) = 0
    · rw [if_pos hSecond]
      exact hSettled.plain chosen hChosen other hOther f hF g hG
        hSame hFirst hSecond
    · rw [if_neg hSecond, hCap hScore hBoth hFirst hSecond]
      exact hSettled.capped chosen hChosen other hOther f hF g hG
        hSame hFirst hSecond
  · rw [if_neg hFirst]
    by_cases hSecond : boostOf (corroborating other g) = 0
    · rw [if_pos hSecond, hCap hScore.symm hBoth.symm hSecond hFirst]
      exact (hSettled.capped other hOther chosen hChosen g hG f hF
        hSame.symm hSecond hFirst).symm
    · rw [if_neg hSecond, hBoth]

/- Whatever the order of the findings, the report is the
aggregate, with one severity for each key, exactly if the
findings are settled. -/
theorem process_findings_aggregates_iff
    (findings : List AnomalyFinding) :
    (∀ other : List AnomalyFinding, other.Perm findings →
      Aggregates findings (processFindings other) ∧
        ∀ f ∈ processFindings other,
          ∀ g ∈ processFindings findings, f.key = g.key →
            f.severity = g.severity) ↔
      Settled findings := by
  constructor
  · intro hAll
    have hReported {chosen : List AnomalyFinding}
        (hChoice : Choice findings chosen) {f : AnomalyFinding}
        (hF : f ∈ chosen) :
        boosted f.severityScore (corroborating chosen f) =
            boosted f.severityScore (corroborating findings f) ∧
          ∀ h ∈ processFindings findings, f.key = h.key →
            (if boostOf (corroborating chosen f) = 0
              then f.severity
              else reportSeverity (boosted f.severityScore
                (corroborating chosen f))) = h.severity := by
      rcases report_of_choice hChoice with ⟨other, hPerm, hReport⟩
      rcases hReport f hF with ⟨h, hH, hKey, hScore, hSeverity⟩
      rcases (hAll other hPerm).1.score h hH with
        ⟨t, hTop, hSame, hIs⟩
      have hFT := hTop.score_eq (hChoice.top f hF)
        (hSame.trans hKey)
      refine ⟨?_, fun g hG hKeyG => ?_⟩
      · rw [← hScore, hIs, hFT,
          corroborating_congr (hSame.trans hKey)]
      · rw [← hSeverity]
        exact (hAll other hPerm).2 h hH g hG (hKey.trans hKeyG)
    have hSeverities {chosen other : List AnomalyFinding}
        (hChosen : Choice findings chosen)
        (hOther : Choice findings other) {f g : AnomalyFinding}
        (hF : f ∈ chosen) (hG : g ∈ other) (hSame : f.key = g.key) :
        (if boostOf (corroborating chosen f) = 0 then f.severity
          else reportSeverity (boosted f.severityScore
            (corroborating chosen f))) =
        if boostOf (corroborating other g) = 0 then g.severity
          else reportSeverity (boosted g.severityScore
            (corroborating other g)) := by
      have hIn := ((hAll findings (List.Perm.refl _)).1.keys
        f.key).mpr (List.mem_map_of_mem (hChosen.top f hF).1)
      rcases List.mem_map.mp hIn with ⟨h, hH, hKey⟩
      rw [(hReported hChosen hF).2 h hH hKey.symm,
        (hReported hOther hG).2 h hH (hSame.symm.trans hKey.symm)]
    refine ⟨?_, ?_, ?_, ?_⟩
    · intro f hF
      rcases exists_highest_last findings with
        ⟨other, hPerm, hCounts⟩
      have hReport := (hAll other hPerm).1
      rcases List.mem_map.mp ((hReport.keys f.key).mpr
        (List.mem_map_of_mem hF)) with ⟨h, hH, hKey⟩
      have hLe := (hReport.count h hH).2 f hF hKey.symm
      rcases mem_processFindings hH with ⟨_, _, g, hG, _, rfl⟩
      rw [reportedAs_count] at hLe
      rw [reportedAs_key] at hKey
      rcases hCounts g hG with ⟨t, hTop, hSame, hCount⟩
      exact ⟨t, hTop, hSame.trans hKey, hLe.trans hCount.symm.le⟩
    · exact fun chosen hChoice f hF => (hReported hChoice hF).1
    · intro chosen hChosen other hOther f hF g hG hSame hFirst
        hSecond
      have hBoth := hSeverities hChosen hOther hF hG hSame
      rw [if_pos hFirst, if_pos hSecond] at hBoth
      exact hBoth
    · intro chosen hChosen other hOther f hF g hG hSame hFirst
        hSecond
      have hBoth := hSeverities hChosen hOther hF hG hSame
      rw [if_pos hFirst, if_neg hSecond] at hBoth
      have hScore := (hChosen.top f hF).score_eq
        (hOther.top g hG) hSame
      have hBoosted : boosted g.severityScore
          (corroborating other g) = g.severityScore := by
        rw [(hReported hOther hG).1, ← corroborating_congr hSame,
          ← hScore, ← (hReported hChosen hF).1, boosted,
          if_pos hFirst]
      rw [hBoth, hBoosted, capped_of_boosted hSecond hBoosted]
      rfl
  · intro hSettled other hPerm
    refine ⟨aggregates_of_settled hSettled hPerm, ?_⟩
    intro h hH h' hH' hSame
    rcases mem_processFindings hH with ⟨f, hF, g, _, hBare, rfl⟩
    rcases mem_processFindings hH' with
      ⟨f', hF', g', _, hBare', rfl⟩
    rw [reportedAs_key, reportedAs_key, ← key_of_bare hBare,
      ← key_of_bare hBare'] at hSame
    have hSeverity {x y : AnomalyFinding}
        (hXY : x.bare = y.bare) : x.severity = y.severity := by
      have hEqual := congrArg AnomalyFinding.severity hXY
      exact hEqual
    rw [reportedAs_severity, reportedAs_severity,
      ← score_of_bare hBare, ← score_of_bare hBare',
      ← hSeverity hBare, ← hSeverity hBare']
    exact severity_of_settled hSettled
      ((kept_choice other).perm hPerm) (kept_choice findings) hF
      hF' hSame

end

---- A Count That Is Forgotten

def sourceFinding (score : Int) (count : Nat) : AnomalyFinding where
  detector := lit "Pattern Detector"
  findingType := lit "brute_force"
  description := []
  severityScore := score
  severity := .medium
  sourceIp := some (lit "203.0.113.9")
  username := none
  timestamp := none
  evidence := []
  mitreTags := []
  count := count
  extra := []

/- Seen nine times, and then once with a higher score. -/
def seenTwice : List AnomalyFinding :=
  [sourceFinding 50 9, sourceFinding 70 1]

theorem deduplicate_seenTwice :
    deduplicate seenTwice = [sourceFinding 70 1] := by
  rfl

theorem count_forgotten :
    ¬ ∀ other : List AnomalyFinding, other.Perm seenTwice →
      Aggregates seenTwice (processFindings other) ∧
        ∀ f ∈ processFindings other,
          ∀ g ∈ processFindings seenTwice, f.key = g.key →
            f.severity = g.severity := by
  intro hAll
  have hReport := (hAll seenTwice (List.Perm.refl _)).1
  have hKeys := (hReport.keys (sourceFinding 50 9).key).mpr
    (List.mem_map_of_mem List.mem_cons_self)
  rcases List.mem_map.mp hKeys with ⟨h, hH, hKey⟩
  have hNine : 9 ≤ h.count :=
    (hReport.count h hH).2 (sourceFinding 50 9)
      List.mem_cons_self hKey.symm
  rcases mem_processFindings hH with ⟨_, _, g, hG, _, rfl⟩
  rw [deduplicate_seenTwice, List.mem_singleton] at hG
  rw [reportedAs_count, hG] at hNine
  exact absurd hNine (by decide)

end ThreatOrbit.Logs
