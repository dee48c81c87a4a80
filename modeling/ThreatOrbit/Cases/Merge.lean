import ThreatOrbit.Cases.Board

/-
  What a sequence of merges keeps.

  A merge copies: the source keeps what it holds, and nothing
  tells that it was copied already. What was merged twice is
  held twice, and what a merged case receives later does not
  follow.
-/

---- Conservation

namespace ThreatOrbit.Cases

open Lib

section

variable {ν : Type} [DecidableEq ν]

/- The cases whose contents a case has received, after the
merges so far. -/
def held (merged : List (Str × Str)) : Str → Finset Str :=
  merged.foldl
    (fun f p => Function.update f p.1 (f p.1 ∪ f p.2))
    (fun id => {id})

/- The alerts a case counts. -/
def Board.count (b : Board ν) (id : Str) : Int :=
  ((b.cases id).map Case.alertCount).getD 0

/- What a case holds, another holds too. -/
structure Case.Within (c d : Case ν) : Prop where
  entities : c.entities ⊆ d.entities
  warRoom : c.warRoom ⊆ d.warRoom
  evidence : c.evidence ⊆ d.evidence

/- Two rows hold the same, and count the same alerts. -/
structure Case.Alike (c d : Case ν) : Prop where
  entities : c.entities = d.entities
  warRoom : c.warRoom = d.warRoom
  evidence : c.evidence = d.evidence
  alertCount : c.alertCount = d.alertCount

/- A case holds nothing twice. -/
structure Case.Once (c : Case ν) : Prop where
  entities : c.entities.Nodup
  warRoom : c.warRoom.Nodup
  evidence : c.evidence.Nodup

/- A board no merge has been done on. -/
structure Board.Fresh (b : Board ν) : Prop where
  unmerged : b.merged = []
  once : ∀ id c, b.cases id = some c → c.Once
  marked :
    ∀ id c, b.cases id = some c →
      ∀ w ∈ c.warRoom, w.mark < b.next

/- The board now, after merges of the cases of a first board:
a target holds what the cases merged into it held at any
earlier board, no case holds anything twice, and a case
counts the alerts of the cases it received, each once. -/
structure Conserved (start earlier b : Board ν) : Prop where
  kept :
    ∀ p ∈ b.merged, ∀ src tgt,
      earlier.cases p.2 = some src →
        b.cases p.1 = some tgt → src.Within tgt
  once : ∀ id c, b.cases id = some c → c.Once
  counted :
    ∀ id c, b.cases id = some c →
      c.alertCount = ∑ x ∈ held b.merged id, start.count x

/- A row without its times. -/
def Case.timeless (c : Case ν) : Case ν :=
  { c with
    updated := []
    warRoom := c.warRoom.map fun w => { w with ts := [] }
    links := c.links.map fun l => { l with ts := [] } }

/- The rows of two boards are the same but for times. -/
def SameButTimes (b b' : Board ν) : Prop :=
  ∀ id, (b.cases id).map Case.timeless =
    (b'.cases id).map Case.timeless

/- A merge that is not of two rows, or one whose target has
not been merged away and whose source is not in it already,
of two cases that hold nothing in common: no entry, no
evidence, no counted alerts. No entity of the source has
the value of another of the two cases, unless the target
has it itself. -/
def CleanMerge
    (start b : Board ν)
    (call : MergeCall) : Prop :=
  ∀ tgt src,
    b.cases call.caseId = some tgt →
      b.cases call.sourceId = some src →
        call.sourceId ≠ call.caseId →
          (∀ p ∈ b.merged, p.2 ≠ call.caseId) ∧
            (call.caseId, call.sourceId) ∉ b.merged ∧
            tgt.warRoom.Disjoint src.warRoom ∧
            tgt.evidence.Disjoint src.evidence ∧
            ∑ x ∈ held b.merged call.caseId ∩
                held b.merged call.sourceId,
              start.count x = 0 ∧
            ∀ e ∈ src.entities,
              e ∈ tgt.entities ∨
                ∀ x ∈ tgt.entities ++ src.entities,
                  x.value = e.value → x = e

end

---- One Merge

section

variable {ν : Type} [DecidableEq ν]

omit [DecidableEq ν] in
theorem Case.Within.refl (c : Case ν) : c.Within c :=
  ⟨fun _ h => h, fun _ h => h, fun _ h => h⟩

omit [DecidableEq ν] in
theorem Case.Within.trans
    {c d e : Case ν}
    (hFirst : c.Within d) (hSecond : d.Within e) :
    c.Within e :=
  ⟨fun _ h => hSecond.entities (hFirst.entities h),
    fun _ h => hSecond.warRoom (hFirst.warRoom h),
    fun _ h => hSecond.evidence (hFirst.evidence h)⟩

omit [DecidableEq ν] in
theorem Case.Alike.within
    {c d : Case ν}
    (hAlike : c.Alike d) :
    c.Within d :=
  ⟨hAlike.entities ▸ fun _ h => h,
    hAlike.warRoom ▸ fun _ h => h,
    hAlike.evidence ▸ fun _ h => h⟩

omit [DecidableEq ν] in
theorem Case.Alike.symm
    {c d : Case ν}
    (hAlike : c.Alike d) :
    d.Alike c :=
  ⟨hAlike.entities.symm, hAlike.warRoom.symm,
    hAlike.evidence.symm, hAlike.alertCount.symm⟩

/- A target keeps what it held. -/
theorem within_target
    (call : MergeCall) (mark : Nat) (tgt src : Case ν) :
    tgt.Within (call.target mark tgt src) where
  entities := subset_mergeEntities _ _
  warRoom := fun _ hw =>
    List.mem_append_left _ (List.mem_append_left _ hw)
  evidence := fun _ he => List.mem_append_left _ he

/- The source of a clean merge is held by its target. -/
theorem source_within_target
    {call : MergeCall} {tgt src : Case ν}
    (mark : Nat)
    (hEntities :
      ∀ e ∈ src.entities,
        e ∈ tgt.entities ∨
          ∀ x ∈ tgt.entities ++ src.entities,
            x.value = e.value → x = e) :
    (call.source src).Within (call.target mark tgt src) where
  entities := by
    intro e he
    rcases hEntities e he with hOld | hSame
    · exact subset_mergeEntities _ _ hOld
    · exact mem_mergeEntities he hSame
  warRoom := fun _ hw => List.mem_append_right _ hw
  evidence := fun _ he => List.mem_append_right _ he

/- A target holds nothing twice, if the two cases share
nothing. -/
theorem target_once
    {call : MergeCall} {tgt src : Case ν} {mark : Nat}
    (hTarget : tgt.Once) (hSource : src.Once)
    (hTargetMarks : ∀ w ∈ tgt.warRoom, w.mark < mark)
    (hSourceMarks : ∀ w ∈ src.warRoom, w.mark < mark)
    (hWar : tgt.warRoom.Disjoint src.warRoom)
    (hEvidence : tgt.evidence.Disjoint src.evidence) :
    (call.target mark tgt src).Once where
  entities := mergeEntities_nodup hTarget.entities _
  warRoom := by
    have hEntry : ∀ w : WarEntry, w.mark < mark →
        w ≠ call.entry mark src.title := by
      rintro w hLess rfl
      exact absurd hLess (lt_irrefl mark)
    show (tgt.warRoom ++ [_] ++ src.warRoom).Nodup
    rw [List.append_assoc, List.nodup_append]
    refine ⟨hTarget.warRoom, ?_, ?_⟩
    · apply List.nodup_cons.mpr
      refine ⟨fun hMem => ?_, hSource.warRoom⟩
      exact hEntry _ (hSourceMarks _ hMem) rfl
    · rintro w hw x hx rfl
      rcases List.mem_cons.mp hx with hIs | hIn
      · exact hEntry w (hTargetMarks w hw) hIs
      · exact hWar hw hIn
  evidence := List.Nodup.append hTarget.evidence
    hSource.evidence hEvidence

theorem held_append
    (merged : List (Str × Str)) (target source : Str) :
    held (merged ++ [(target, source)]) =
      Function.update (held merged) target
        (held merged target ∪ held merged source) := by
  simp [held]

end

---- Sequences Of Merges

section

variable {ν : Type} [DecidableEq ν]

/- What clean merges keep. -/
structure MergeInv (start b : Board ν) : Prop where
  conserved : Conserved start b b
  marked :
    ∀ id c, b.cases id = some c →
      ∀ w ∈ c.warRoom, w.mark < b.next

omit [DecidableEq ν] in
theorem Board.Fresh.inv
    {b : Board ν}
    (hFresh : b.Fresh) :
    MergeInv b b where
  conserved :=
    { kept := by
        intro p hp
        rw [hFresh.unmerged] at hp
        cases hp
      once := hFresh.once
      counted := by
        intro id c hCase
        rw [hFresh.unmerged]
        simp [held, Board.count, hCase] }
  marked := hFresh.marked

/- A row that is not the target holds what it held. -/
theorem written_alike
    {b : Board ν} {call : MergeCall} {tgt src : Case ν} {id : Str}
    {c : Case ν}
    (hSource : b.cases call.sourceId = some src)
    (hOther : id ≠ call.caseId)
    (hCase : (b.written call tgt src).cases id = some c) :
    ∃ old, b.cases id = some old ∧ c.Alike old := by
  by_cases hIs : id = call.sourceId
  · rw [hIs, written_source] at hCase
    cases hCase
    rw [hIs]
    exact ⟨src, hSource, rfl, rfl, rfl, rfl⟩
  · rw [written_other hOther hIs] at hCase
    exact ⟨c, hCase, rfl, rfl, rfl, rfl⟩

/- What every row holds, it still holds after a merge. -/
theorem written_within
    {b : Board ν} {call : MergeCall} {tgt src : Case ν}
    (hSelf : call.sourceId ≠ call.caseId)
    (hTarget : b.cases call.caseId = some tgt)
    (hSource : b.cases call.sourceId = some src)
    {id : Str} {c : Case ν}
    (hCase : b.cases id = some c) :
    ∃ d, (b.written call tgt src).cases id = some d ∧
      c.Within d := by
  by_cases hIs : id = call.caseId
  · rw [hIs] at hCase ⊢
    rw [hTarget] at hCase
    cases hCase
    exact ⟨_, written_target hSelf tgt src,
      within_target call b.next tgt src⟩
  · by_cases hThat : id = call.sourceId
    · rw [hThat] at hCase ⊢
      rw [hSource] at hCase
      cases hCase
      exact ⟨_, written_source b call tgt src,
        fun _ h => h, fun _ h => h, fun _ h => h⟩
    · exact ⟨c, by rw [written_other hIs hThat]; exact hCase,
        Case.Within.refl c⟩

/- A target holds what the cases merged into it hold. The
target of an earlier merge may grow, its source does not: it
has been merged away. -/
theorem written_kept
    {start b : Board ν} {call : MergeCall} {tgt src : Case ν}
    (hInv : MergeInv start b) (hSelf : call.sourceId ≠ call.caseId)
    (hTarget : b.cases call.caseId = some tgt)
    (hSource : b.cases call.sourceId = some src)
    (hStays : ∀ p ∈ b.merged, p.2 ≠ call.caseId)
    (hEntities :
      ∀ e ∈ src.entities,
        e ∈ tgt.entities ∨
          ∀ x ∈ tgt.entities ++ src.entities,
            x.value = e.value → x = e) :
    ∀ p ∈ (b.written call tgt src).merged, ∀ c d,
      (b.written call tgt src).cases p.2 = some c →
        (b.written call tgt src).cases p.1 = some d →
          c.Within d := by
  intro p hp c d hC hD
  rcases List.mem_append.mp hp with hOld | hNew
  · rcases written_alike hSource (hStays p hOld) hC with
      ⟨c', hC', hAlike⟩
    have hEarlier : ∃ d', b.cases p.1 = some d' ∧
        d'.Within d := by
      by_cases hThis : p.1 = call.caseId
      · rw [hThis, written_target hSelf] at hD
        cases hD
        rw [hThis]
        exact ⟨tgt, hTarget,
          within_target call b.next tgt src⟩
      · rcases written_alike hSource hThis hD with
          ⟨d', hD', hAlike'⟩
        exact ⟨d', hD', hAlike'.symm.within⟩
    rcases hEarlier with ⟨d', hD', hGrown⟩
    have hKept := hInv.conserved.kept p hOld c' d' hC' hD'
    exact (hAlike.within.trans hKept).trans hGrown
  · rw [List.mem_singleton.mp hNew] at hC hD
    rw [written_source] at hC
    rw [written_target hSelf] at hD
    cases hC
    cases hD
    exact source_within_target b.next hEntities

theorem written_once
    {start b : Board ν} {call : MergeCall} {tgt src : Case ν}
    (hInv : MergeInv start b) (hSelf : call.sourceId ≠ call.caseId)
    (hTarget : b.cases call.caseId = some tgt)
    (hSource : b.cases call.sourceId = some src)
    (hWar : tgt.warRoom.Disjoint src.warRoom)
    (hEvidence : tgt.evidence.Disjoint src.evidence) :
    ∀ id c, (b.written call tgt src).cases id = some c →
      c.Once := by
  intro id c hCase
  by_cases hThis : id = call.caseId
  · rw [hThis, written_target hSelf] at hCase
    cases hCase
    exact target_once (hInv.conserved.once _ _ hTarget)
      (hInv.conserved.once _ _ hSource)
      (hInv.marked _ _ hTarget) (hInv.marked _ _ hSource)
      hWar hEvidence
  · rcases written_alike hSource hThis hCase with
      ⟨old, hOld, hAlike⟩
    have hOnce := hInv.conserved.once _ _ hOld
    exact ⟨hAlike.entities ▸ hOnce.entities,
      hAlike.warRoom ▸ hOnce.warRoom,
      hAlike.evidence ▸ hOnce.evidence⟩

theorem written_counted
    {start b : Board ν} {call : MergeCall} {tgt src : Case ν}
    (hInv : MergeInv start b) (hSelf : call.sourceId ≠ call.caseId)
    (hTarget : b.cases call.caseId = some tgt)
    (hSource : b.cases call.sourceId = some src)
    (hCommon :
      ∑ x ∈ held b.merged call.caseId ∩
          held b.merged call.sourceId,
        start.count x = 0) :
    ∀ id c, (b.written call tgt src).cases id = some c →
      c.alertCount = ∑ x ∈
        held (b.written call tgt src).merged id,
          start.count x := by
  intro id c hCase
  show c.alertCount = ∑ x ∈ held (b.merged ++
    [(call.caseId, call.sourceId)]) id, start.count x
  rw [held_append]
  by_cases hThis : id = call.caseId
  · rw [hThis, written_target hSelf] at hCase
    cases hCase
    -- What both have received counts nothing.
    have hSum :
        ∑ x ∈ held b.merged call.caseId ∪
              held b.merged call.sourceId, start.count x +
            ∑ x ∈ held b.merged call.caseId ∩
              held b.merged call.sourceId, start.count x =
          ∑ x ∈ held b.merged call.caseId, start.count x +
            ∑ x ∈ held b.merged call.sourceId,
              start.count x :=
      Finset.sum_union_inter
    rw [hCommon, add_zero,
      ← hInv.conserved.counted _ _ hTarget,
      ← hInv.conserved.counted _ _ hSource] at hSum
    rw [hThis, Function.update_self, hSum]
    rfl
  · rw [Function.update_of_ne hThis]
    rcases written_alike hSource hThis hCase with
      ⟨old, hOld, hAlike⟩
    rw [hAlike.alertCount]
    exact hInv.conserved.counted _ _ hOld

theorem written_marked
    {start b : Board ν} {call : MergeCall} {tgt src : Case ν}
    (hInv : MergeInv start b) (hSelf : call.sourceId ≠ call.caseId)
    (hTarget : b.cases call.caseId = some tgt)
    (hSource : b.cases call.sourceId = some src) :
    ∀ id c, (b.written call tgt src).cases id = some c →
      ∀ w ∈ c.warRoom,
        w.mark < (b.written call tgt src).next := by
  intro id c hCase w hw
  show w.mark < b.next + 1
  apply Nat.lt_succ_of_le
  by_cases hThis : id = call.caseId
  · rw [hThis, written_target hSelf] at hCase
    cases hCase
    rcases List.mem_append.mp hw with hLeft | hRight
    · rcases List.mem_append.mp hLeft with hOld | hNew
      · exact (hInv.marked _ _ hTarget w hOld).le
      · rw [List.mem_singleton.mp hNew]
        exact le_refl _
    · exact (hInv.marked _ _ hSource w hRight).le
  · rcases written_alike hSource hThis hCase with
      ⟨old, hOld, hAlike⟩
    rw [hAlike.warRoom] at hw
    exact (hInv.marked _ _ hOld w hw).le

/- A clean merge keeps the invariant. -/
theorem merge_step_inv
    {start b : Board ν} {call : MergeCall}
    (hInv : MergeInv start b) (hClean : CleanMerge start b call) :
    MergeInv start (b.step call) := by
  rcases step_merge_cases b call with
    hSame | ⟨tgt, src, hSelf, hTarget, hSource, hStep⟩
  · rw [hSame]
    exact hInv
  rcases hClean tgt src hTarget hSource hSelf with
    ⟨hStays, _, hWar, hEvidence, hCommon, hEntities⟩
  rw [hStep]
  exact
    { conserved :=
        { kept := written_kept hInv hSelf hTarget hSource
            hStays hEntities
          once := written_once hInv hSelf hTarget hSource
            hWar hEvidence
          counted := written_counted hInv hSelf hTarget hSource
            hCommon }
      marked := written_marked hInv hSelf hTarget hSource }

/- Along a run, every row keeps what it held. -/
theorem run_within
    {b b' : Board ν} {trace : List (Transition (Board ν) MergeCall)}
    (hRun : Run MergeStep b trace b') {id : Str} {c : Case ν}
    (hCase : b.cases id = some c) :
    ∃ d, b'.cases id = some d ∧ c.Within d := by
  refine Run.invariant
    (I := fun x => ∃ d, x.cases id = some d ∧ c.Within d)
    ?_ hRun ⟨c, hCase, Case.Within.refl c⟩
  rintro x call x' ⟨d, hD, hWithin⟩ hStep
  rw [hStep]
  rcases step_merge_cases x call with
    hSame | ⟨tgt, src, hSelf, hTarget, hSource, hWritten⟩
  · rw [hSame]
    exact ⟨d, hD, hWithin⟩
  · rw [hWritten]
    rcases written_within hSelf hTarget hSource hD with
      ⟨e, hE, hMore⟩
    exact ⟨e, hE, hWithin.trans hMore⟩

/- From any cases that hold nothing twice, along any sequence
of merges each of which is clean, nothing is lost, doubled
or counted twice; and a repeated merge changes times only. -/
theorem merges_conserve
    {start earlier b : Board ν}
    {first second : List (Transition (Board ν) MergeCall)}
    (hStart : start.Fresh)
    (hFirst : Run MergeStep start first earlier)
    (hSecond : Run MergeStep earlier second b)
    (hClean :
      ∀ e ∈ first ++ second, CleanMerge start e.pre e.label) :
    Conserved start earlier b ∧
      ∀ e ∈ first ++ second,
        (e.label.caseId, e.label.sourceId) ∈ e.pre.merged →
          SameButTimes e.pre e.post := by
  have hWhole := hFirst.append hSecond
  constructor
  · have hInv : MergeInv start b := by
      refine Run.invariant (I := MergeInv start) ?_
        (hWhole.restrict hClean) hStart.inv
      rintro x call x' hInv ⟨hStep, hCleanStep⟩
      rw [hStep]
      exact merge_step_inv hInv hCleanStep
    refine ⟨fun p hp c d hC hD => ?_, hInv.conserved.once,
      hInv.conserved.counted⟩
    rcases run_within hSecond hC with ⟨c', hC', hWithin⟩
    exact hWithin.trans
      (hInv.conserved.kept p hp c' d hC' hD)
  · intro e he hAgain
    have hStep := (Run.forall_step (I := fun _ => True)
      (fun _ _ _ _ _ => trivial) hWhole trivial e he).2
    rw [hStep]
    rcases step_merge_cases e.pre e.label with
      hSame | ⟨tgt, src, hSelf, hTarget, hSource, _⟩
    · rw [hSame]
      exact fun _ => rfl
    · exact absurd hAgain
        (hClean e he tgt src hTarget hSource hSelf).2.1

end

---- A Concrete Merge

/- A case with an entity, a note, an evidence item and some
alerts. -/
def smallCase (n : Nat) : Case Str where
  title := lit "Login storm"
  status := lit "new"
  updated := lit "2026-01-01T00:00:00+00:00"
  alertCount := n
  entities := [⟨lit "ip", [cp '0' + n]⟩]
  warRoom :=
    [⟨n, lit "2026-01-01T00:00:00+00:00", lit "ana",
      lit "note", lit "Seen before"⟩]
  tasks := []
  evidence :=
    [⟨[cp '0' + n], lit "log", lit "auth.log", [], [], lit "ana",
      lit "2026-01-01T00:00:00+00:00", []⟩]
  links := []

/- Two cases, of one alert and of two. -/
def twoCases : Board Str where
  cases id :=
    if id = lit "CASE-1" then some (smallCase 1)
    else if id = lit "CASE-2" then some (smallCase 2)
    else none
  next := 3
  merged := []

/- The second into the first. -/
def intoFirst : MergeCall where
  caseId := lit "CASE-1"
  sourceId := lit "CASE-2"
  actor := lit "ana"
  now := lit "2026-01-01T00:01:00+00:00"

/- The board after one merge, and after the same again. -/
def mergedOnce : Board Str := twoCases.step intoFirst

def mergedTwice : Board Str := mergedOnce.step intoFirst

/- The rows of the two cases, and no other. -/
theorem twoCases_row
    {id : Str} {c : Case Str}
    (hCase : twoCases.cases id = some c) :
    ∃ n, n < 3 ∧ c = smallCase n := by
  simp only [twoCases] at hCase
  split at hCase
  · exact ⟨1, by decide, (Option.some.inj hCase).symm⟩
  · split at hCase
    · exact ⟨2, by decide, (Option.some.inj hCase).symm⟩
    · cases hCase

theorem twoCases_fresh : twoCases.Fresh where
  unmerged := rfl
  once := by
    intro id c hCase
    rcases twoCases_row hCase with ⟨n, _, rfl⟩
    exact ⟨List.nodup_singleton _, List.nodup_singleton _,
      List.nodup_singleton _⟩
  marked := by
    intro id c hCase w hw
    rcases twoCases_row hCase with ⟨n, hLess, rfl⟩
    rw [List.mem_singleton.mp hw]
    exact hLess

/- The same merge twice: the evidence is there twice, and the
alerts of the source count twice. -/
theorem merged_twice_doubles :
    Run MergeStep twoCases
        [⟨twoCases, intoFirst, mergedOnce⟩,
          ⟨mergedOnce, intoFirst, mergedTwice⟩] mergedTwice ∧
      twoCases.Fresh ∧
      ¬ Conserved twoCases twoCases mergedTwice := by
  refine ⟨.cons rfl (.cons rfl (.nil _)), twoCases_fresh, ?_⟩
  intro hConserved
  have hOnce := (hConserved.once (lit "CASE-1") _ rfl).evidence
  revert hOnce
  decide

/- One merge of two cases that share nothing. -/
theorem merged_once_conserves :
    Conserved twoCases twoCases mergedOnce ∧
      ∀ e ∈ [(⟨twoCases, intoFirst, mergedOnce⟩ :
          Transition (Board Str) MergeCall)],
        (e.label.caseId, e.label.sourceId) ∈ e.pre.merged →
          SameButTimes e.pre e.post := by
  have hNone : Run MergeStep twoCases [] twoCases := .nil _
  have hOne : Run MergeStep twoCases
      [⟨twoCases, intoFirst, mergedOnce⟩] mergedOnce :=
    .cons rfl (.nil _)
  refine merges_conserve twoCases_fresh hNone hOne ?_
  intro e he
  rw [List.mem_singleton.mp he]
  intro tgt src hTarget hSource _
  cases hTarget
  cases hSource
  refine ⟨by decide, by decide, ?_, ?_, by decide, by decide⟩
  · exact List.disjoint_singleton.mpr (by decide)
  · exact List.disjoint_singleton.mpr (by decide)

end ThreatOrbit.Cases
