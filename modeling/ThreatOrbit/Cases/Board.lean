import ThreatOrbit.Auth.Accounts
import ThreatOrbit.Lib.Run

/-
  The cases of an investigation, and merging one into another.

  The list-valued columns of a case are JSON texts; they are
  lists here. A merge combines entities, war room and
  evidence, sums the alert counts and closes the source.
-/

---- Cases

namespace ThreatOrbit.Cases

open Lib

/- An entity: the values of its two keys, of the type JSON
gives them. -/
structure Entity (ν : Type) where
  type : ν
  value : ν
deriving DecidableEq, Repr

/- An entry of the war room. The mark is no key of it: it
tells apart two entries that read the same. -/
structure WarEntry where
  mark : Nat
  ts : Str
  actor : Str
  type : Str
  content : Str
deriving DecidableEq, Repr

structure Custody where
  actor : Str
  action : Str
  ts : Str
deriving DecidableEq, Repr

structure Evidence where
  id : Str
  type : Str
  name : Str
  content : Str
  sha256 : Str
  addedBy : Str
  ts : Str
  custody : List Custody
deriving DecidableEq, Repr

structure Task where
  id : Str
  phase : Str
  name : Str
  status : Str
  assignee : Option Str
  notes : Str
deriving DecidableEq, Repr

structure Link where
  caseId : Str
  relation : Str
  ts : Str
deriving DecidableEq, Repr

/- A row of `cases`. -/
structure Case (ν : Type) where
  title : Str
  status : Str
  updated : Str
  alertCount : Int
  entities : List (Entity ν)
  warRoom : List WarEntry
  tasks : List Task
  evidence : List Evidence
  links : List Link
deriving DecidableEq, Repr

---- Merging

open Auth (HttpError)

section

variable {ν : Type} [DecidableEq ν]

/- An entity, unless its value has been seen. -/
def addEntity
    (ents : List (Entity ν))
    (e : Entity ν) : List (Entity ν) :=
  if ents.any (fun x => x.value == e.value) then ents
  else ents ++ [e]

/- The entities of the target, and the new ones of the
source. -/
def mergeEntities
    (target source : List (Entity ν)) : List (Entity ν) :=
  source.foldl addEntity target

/- A link, unless the case is linked already. -/
def addLink (links : List Link) (l : Link) : List Link :=
  if links.any (fun x => x.caseId == l.caseId) then links
  else links ++ [l]

/- What `merge_case` is asked, by whom and when. -/
structure MergeCall where
  caseId : Str
  sourceId : Str
  actor : Str
  now : Str
deriving DecidableEq, Repr

/- The entry that records a merge. -/
def MergeCall.entry
    (call : MergeCall)
    (mark : Nat)
    (title : Str) : WarEntry where
  mark := mark
  ts := call.now
  actor := call.actor
  type := lit "system"
  content :=
    lit "Merged case " ++ call.sourceId ++ lit " (" ++ title ++
      lit ") into this case."

/- The row of the target after a merge. -/
def MergeCall.target
    (call : MergeCall)
    (mark : Nat)
    (tgt src : Case ν) : Case ν :=
  { tgt with
    entities := mergeEntities tgt.entities src.entities
    warRoom :=
      tgt.warRoom ++ [call.entry mark src.title] ++ src.warRoom
    evidence := tgt.evidence ++ src.evidence
    links :=
      addLink tgt.links
        ⟨call.sourceId, lit "merged", call.now⟩
    alertCount := tgt.alertCount + src.alertCount
    updated := call.now }

/- The row of the source after a merge. -/
def MergeCall.source
    (call : MergeCall)
    (src : Case ν) : Case ν :=
  { src with
    status := lit "closed"
    links :=
      src.links ++ [⟨call.caseId, lit "merged-into", call.now⟩]
    updated := call.now }

/- The rows by their ids, and the next mark of an entry. What
has been merged so far, each target with its source, is no
column: it is there to speak of the merges done. -/
structure Board (ν : Type) where
  cases : Str → Option (Case ν)
  next : Nat
  merged : List (Str × Str)

/- The two rows written, in their order. -/
def Board.written
    (b : Board ν)
    (call : MergeCall)
    (tgt src : Case ν) : Board ν where
  cases :=
    Function.update
      (Function.update b.cases call.caseId
        (some (call.target b.next tgt src)))
      call.sourceId (some (call.source src))
  next := b.next + 1
  merged := b.merged ++ [(call.caseId, call.sourceId)]

def mergeCase
    (call : MergeCall)
    (b : Board ν) : Except HttpError (Board ν) :=
  if call.sourceId = call.caseId then
    .error ⟨400, lit "Cannot merge a case into itself"⟩
  else
    match b.cases call.caseId, b.cases call.sourceId with
    | some tgt, some src => .ok (b.written call tgt src)
    | _, _ => .error ⟨404, lit "Case not found"⟩

/- The board after a call; a refused one changes nothing. -/
def Board.step (b : Board ν) (call : MergeCall) : Board ν :=
  match mergeCase call b with
  | .ok b' => b'
  | .error _ => b

/- One call of a run. -/
def MergeStep
    (b : Board ν)
    (call : MergeCall)
    (b' : Board ν) : Prop :=
  b' = b.step call

end

---- What A Merge Keeps

variable {ν : Type} [DecidableEq ν]

theorem mem_addEntity_of_mem
    {ents : List (Entity ν)} {x : Entity ν}
    (hMem : x ∈ ents) (e : Entity ν) :
    x ∈ addEntity ents e := by
  unfold addEntity
  split
  · exact hMem
  · exact List.mem_append_left _ hMem

/- The entities of the target stay. -/
theorem subset_mergeEntities
    (target source : List (Entity ν)) :
    target ⊆ mergeEntities target source := by
  induction source generalizing target with
  | nil => exact fun x hx => hx
  | cons e rest ih =>
      intro x hx
      exact ih (addEntity target e) (mem_addEntity_of_mem hx e)

theorem addEntity_nodup
    {ents : List (Entity ν)}
    (hNodup : ents.Nodup) (e : Entity ν) :
    (addEntity ents e).Nodup := by
  unfold addEntity
  split
  · exact hNodup
  · next hNew =>
      rw [List.nodup_append]
      refine ⟨hNodup, List.nodup_singleton e, ?_⟩
      rintro x hx y hy rfl
      rw [List.mem_singleton.mp hy] at hx
      exact hNew (List.any_eq_true.mpr ⟨e, hx, beq_self_eq_true _⟩)

theorem mergeEntities_nodup
    {target : List (Entity ν)}
    (hNodup : target.Nodup) (source : List (Entity ν)) :
    (mergeEntities target source).Nodup := by
  induction source generalizing target with
  | nil => exact hNodup
  | cons e rest ih => exact ih (addEntity_nodup hNodup e)

/- An entity no other has the value of is there once it has
been added. -/
theorem mem_addEntity
    {ents : List (Entity ν)} {e : Entity ν}
    (hSame : ∀ x ∈ ents, x.value = e.value → x = e) :
    e ∈ addEntity ents e := by
  unfold addEntity
  split
  · next hSeen =>
      rcases List.any_eq_true.mp hSeen with ⟨x, hx, hValue⟩
      rw [← hSame x hx (beq_iff_eq.mp hValue)]
      exact hx
  · exact List.mem_append_right _ (List.mem_singleton_self e)

theorem mem_of_mem_addEntity
    {ents : List (Entity ν)} {e x : Entity ν}
    (hMem : x ∈ addEntity ents e) :
    x ∈ ents ∨ x = e := by
  unfold addEntity at hMem
  split at hMem
  · exact Or.inl hMem
  · rcases List.mem_append.mp hMem with hOld | hNew
    · exact Or.inl hOld
    · exact Or.inr (List.mem_singleton.mp hNew)

/- An entity of the source comes over when every entity with
its value is the same. -/
theorem mem_mergeEntities
    {target source : List (Entity ν)} {e : Entity ν}
    (hMem : e ∈ source)
    (hSame :
      ∀ x ∈ target ++ source, x.value = e.value → x = e) :
    e ∈ mergeEntities target source := by
  induction source generalizing target with
  | nil => cases hMem
  | cons y rest ih =>
      by_cases hHead : e = y
      · rw [hHead] at hSame ⊢
        apply subset_mergeEntities (addEntity target y) rest
        exact mem_addEntity fun x hx =>
          hSame x (List.mem_append_left _ hx)
      · have hRest : e ∈ rest :=
          (List.mem_cons.mp hMem).resolve_left hHead
        refine ih hRest fun x hx => hSame x ?_
        rcases List.mem_append.mp hx with hOld | hNew
        · rcases mem_of_mem_addEntity hOld with hIn | hIs
          · exact List.mem_append_left _ hIn
          · rw [hIs]
            exact List.mem_append_right _ List.mem_cons_self
        · exact List.mem_append_right _
            (List.mem_cons_of_mem _ hNew)

/- What a call does: nothing, or a merge of two rows. -/
theorem step_merge_cases (b : Board ν) (call : MergeCall) :
    b.step call = b ∨
      ∃ tgt src,
        call.sourceId ≠ call.caseId ∧
          b.cases call.caseId = some tgt ∧
          b.cases call.sourceId = some src ∧
          b.step call = b.written call tgt src := by
  unfold Board.step mergeCase
  by_cases hSelf : call.sourceId = call.caseId
  · rw [if_pos hSelf]
    exact Or.inl rfl
  · rw [if_neg hSelf]
    cases hTarget : b.cases call.caseId with
    | none => exact Or.inl rfl
    | some tgt =>
        cases hSource : b.cases call.sourceId with
        | none => exact Or.inl rfl
        | some src =>
            exact Or.inr ⟨tgt, src, hSelf, rfl, rfl, rfl⟩

theorem written_target
    {b : Board ν} {call : MergeCall}
    (hSelf : call.sourceId ≠ call.caseId) (tgt src : Case ν) :
    (b.written call tgt src).cases call.caseId =
      some (call.target b.next tgt src) := by
  simp [Board.written, Function.update_of_ne hSelf.symm]

theorem written_source
    (b : Board ν) (call : MergeCall) (tgt src : Case ν) :
    (b.written call tgt src).cases call.sourceId =
      some (call.source src) := by
  simp [Board.written]

theorem written_other
    {b : Board ν} {call : MergeCall} {id : Str}
    (hTarget : id ≠ call.caseId) (hSource : id ≠ call.sourceId)
    (tgt src : Case ν) :
    (b.written call tgt src).cases id = b.cases id := by
  simp [Board.written, Function.update_of_ne hTarget,
    Function.update_of_ne hSource]

end ThreatOrbit.Cases
