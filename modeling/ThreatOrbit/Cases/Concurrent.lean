import ThreatOrbit.Cases.Merge
import ThreatOrbit.Cases.Requests

/-
  Requests that write the columns of a case side by side.

  A column is read, changed in memory and written back whole,
  with no lock held from the read to the write. What another
  request wrote in between is gone; where nothing was, every
  write adds to what is there.
-/

---- What Requests Leave

namespace ThreatOrbit.Cases

open Lib

section

variable {ν : Type}

/- An effect sets a field of a task of a case. -/
def Effect.sets
    (caseId taskId : Str)
    (f : TaskField) : Effect → Option Str
| .task id tid ch =>
    if id = caseId ∧ tid = taskId then ch.get f else none
| _ => none

/- An effect is there. A change of a task is there in each of
its fields, except where one that landed later set it. -/
def Desk.Holds (d : Desk ν) : Effect → Prop
| .entry id w =>
    ∃ c, d.cases id = some c ∧ w ∈ c.warRoom
| .item id e =>
    ∃ c, d.cases id = some c ∧ e ∈ c.evidence
| .link id other =>
    ∃ c, d.cases id = some c ∧ ∃ l ∈ c.links, l.caseId = other
| .task id tid ch =>
    ∃ c t, d.cases id = some c ∧
      c.tasks.find? (·.id == tid) = some t ∧
      ∀ f v, ch.get f = some v →
        ∀ newer older,
          d.landed = newer ++ .task id tid ch :: older →
            (∀ eff ∈ newer, eff.sets id tid f = none) →
              t.get f = some v

/- Every JSON column the `UPDATE` sets is as it was read. -/
structure RowUpdate.Unbroken
    (u : RowUpdate ν)
    (c : Case ν) : Prop where
  entities : u.entities ≠ none → c.entities = u.read.entities
  warRoom : u.warRoom ≠ none → c.warRoom = u.read.warRoom
  tasks : u.tasks ≠ none → c.tasks = u.read.tasks
  evidence : u.evidence ≠ none → c.evidence = u.read.evidence
  links : u.links ≠ none → c.links = u.read.links

/- The condition on a step: a write finds the columns it sets
as its request read them. -/
def UnbrokenWrite
    (e : Transition (Desk ν) CaseLabel) : Prop :=
  ∀ k req goal u left,
    e.label = .write k →
      e.pre.calls k = some ⟨req, .writing goal (u :: left)⟩ →
        ∀ c, e.pre.cases u.caseId = some c → u.Unbroken c

/- What a request is to leave: its entry, item, links or
change of a task. -/
def CaseRequest.Aims
    (goal : List Effect) : CaseRequest → Prop
| .note caseId content type actor now =>
    ∃ mark, goal =
      [.entry caseId ⟨mark, now, actor, type, strip content⟩]
| .evidence caseId body itemId sha256 actor now =>
    goal = [.item caseId (body.item itemId sha256 actor now)]
| .task caseId taskId body _ => goal = [.task caseId taskId body]
| .link caseId other _ _ =>
    goal = [.link caseId other, .link other caseId]
| .merge call =>
    ∃ mark title, goal =
      [.entry call.caseId (call.entry mark title),
        .link call.caseId call.sourceId,
        .link call.sourceId call.caseId]
| .playbookNote caseId content ts _ =>
    ∃ mark, goal =
      [.entry caseId
        ⟨mark, ts, lit "playbook-engine", lit "system",
          orStr (some content) (lit "Playbook checkpoint.")⟩]

/- No request has come yet, and nothing has been written. -/
structure Desk.Quiet (d : Desk ν) : Prop where
  calls : ∀ k, d.calls k = none
  landed : d.landed = []

end

---- Tasks

/- A changed task shows the fields of the change, and keeps
the others. -/
theorem get_apply
    (ch : TaskChange) (t : Task) (f : TaskField) :
    (ch.apply t).get f = (ch.get f).orElse fun _ => t.get f := by
  cases f with
  | status => cases h : ch.status <;> simp [TaskChange.apply,
      Task.get, TaskChange.get, h]
  | assignee => rfl
  | notes => cases h : ch.notes <;> simp [TaskChange.apply,
      Task.get, TaskChange.get, h]

/- The tasks of a list after a change of one. -/
theorem find?_changeTask
    {taskId : Str} {ch : TaskChange} {tasks tasks' : List Task}
    (hChange : changeTask taskId ch tasks = some tasks')
    (tid : Str) :
    tasks'.find? (·.id == tid) =
      if tid = taskId then
        (tasks.find? (·.id == tid)).map ch.apply
      else tasks.find? (·.id == tid) := by
  induction tasks generalizing tasks' with
  | nil => cases hChange
  | cons t rest ih =>
      rw [changeTask] at hChange
      split at hChange
      · next hHere =>
          cases hChange
          by_cases hSame : tid = taskId
          · have hFound : (t.id == tid) = true := by
              rw [hHere, hSame]
              exact beq_self_eq_true _
            have hFound' : ((ch.apply t).id == tid) = true :=
              hFound
            simp only [hSame, List.find?_cons] at hFound hFound' ⊢
            simp only [hFound, hFound', if_true, Option.map_some]
          · have hNot : (t.id == tid) = false := by
              rw [hHere]
              simpa using Ne.symm hSame
            have hNot' : ((ch.apply t).id == tid) = false :=
              hNot
            simp only [hSame, if_false, List.find?_cons, hNot,
              hNot']
      · next hElse =>
          rcases Option.map_eq_some_iff.mp hChange with
            ⟨rest', hRest, rfl⟩
          cases hFound : t.id == tid with
          | true =>
              have hSame : tid ≠ taskId := by
                rintro rfl
                exact hElse (beq_iff_eq.mp hFound)
              simp only [hSame, if_false, List.find?_cons,
                hFound]
          | false =>
              simp only [List.find?_cons, hFound]
              exact ih hRest

theorem isSome_of_changeTask
    {taskId : Str} {ch : TaskChange} {tasks tasks' : List Task}
    (hChange : changeTask taskId ch tasks = some tasks') :
    ∃ t, tasks.find? (·.id == taskId) = some t := by
  induction tasks generalizing tasks' with
  | nil => cases hChange
  | cons t rest ih =>
      rw [changeTask] at hChange
      split at hChange
      · next hHere =>
          have hFound : (t.id == taskId) = true :=
            beq_iff_eq.mpr hHere
          exact ⟨t, by simp only [List.find?_cons, hFound]⟩
      · next hElse =>
          rcases Option.map_eq_some_iff.mp hChange with
            ⟨rest', hRest, _⟩
          rcases ih hRest with ⟨t', hFound⟩
          have hNot : (t.id == taskId) = false := by
            simpa using hElse
          exact ⟨t', by simpa only [List.find?_cons, hNot] using
            hFound⟩

/- The value that landed last in a field of a task. -/
def newest
    (landed : List Effect)
    (caseId taskId : Str)
    (f : TaskField) : Option Str :=
  landed.findSome? (Effect.sets caseId taskId f)

theorem newest_of_last
    {newer older : List Effect} {caseId taskId v : Str}
    {f : TaskField} {eff : Effect}
    (hNewer :
      ∀ x ∈ newer, Effect.sets caseId taskId f x = none)
    (hSets : eff.sets caseId taskId f = some v) :
    newest (newer ++ eff :: older) caseId taskId f = some v := by
  unfold newest
  rw [List.findSome?_append,
    List.findSome?_eq_none_iff.mpr hNewer]
  simp [hSets]

---- Writes That Add

section

variable {ν : Type}

/- What the rows show of an effect, tasks by their ids. -/
def Shown
    (cases : Str → Option (Case ν)) : Effect → Prop
| .entry id w => ∃ c, cases id = some c ∧ w ∈ c.warRoom
| .item id e => ∃ c, cases id = some c ∧ e ∈ c.evidence
| .link id other =>
    ∃ c, cases id = some c ∧ ∃ l ∈ c.links, l.caseId = other
| .task id tid _ =>
    ∃ c t, cases id = some c ∧
      c.tasks.find? (·.id == tid) = some t

/- An `UPDATE` adds to the columns it read: no entry, item or
link is dropped, the tasks are those read with the changes
it records, and it leaves what it says. -/
structure RowUpdate.Adds (u : RowUpdate ν) : Prop where
  warRoom : ∀ ws, u.warRoom = some ws → u.read.warRoom ⊆ ws
  evidence : ∀ es, u.evidence = some es → u.read.evidence ⊆ es
  links : ∀ ls, u.links = some ls → u.read.links ⊆ ls
  tasks :
    ∀ ts, u.tasks = some ts →
      ∃ tid ch, changeTask tid ch u.read.tasks = some ts ∧
        u.effects = [.task u.caseId tid ch]
  leaves :
    ∀ eff ∈ u.effects,
      match eff with
      | .entry id w =>
          id = u.caseId ∧ ∃ ws, u.warRoom = some ws ∧ w ∈ ws
      | .item id e =>
          id = u.caseId ∧ ∃ es, u.evidence = some es ∧ e ∈ es
      | .link id other =>
          id = u.caseId ∧ ∃ ls, u.links = some ls ∧
            ∃ l ∈ ls, l.caseId = other
      | .task id _ _ => id = u.caseId ∧ u.tasks ≠ none

/- The rows show every effect that landed, and each task the
newest value of its fields. -/
structure RowsInv
    (cases : Str → Option (Case ν))
    (landed : List Effect) : Prop where
  shown : ∀ eff ∈ landed, Shown cases eff
  newest :
    ∀ id c, cases id = some c →
      ∀ tid t, c.tasks.find? (·.id == tid) = some t →
        ∀ f v, newest landed id tid f = some v →
          t.get f = some v

/- The columns of a row after an unbroken write hold what the
row held. -/
theorem apply_keeps
    {u : RowUpdate ν} {c : Case ν}
    (hAdds : u.Adds) (hUnbroken : u.Unbroken c) :
    c.warRoom ⊆ (u.apply c).warRoom ∧
      c.evidence ⊆ (u.apply c).evidence ∧
      c.links ⊆ (u.apply c).links := by
  refine ⟨?_, ?_, ?_⟩
  · cases hSet : u.warRoom with
    | none => simp [RowUpdate.apply, hSet]
    | some ws =>
        rw [hUnbroken.warRoom (by simp [hSet])]
        simpa [RowUpdate.apply, hSet] using hAdds.warRoom ws hSet
  · cases hSet : u.evidence with
    | none => simp [RowUpdate.apply, hSet]
    | some es =>
        rw [hUnbroken.evidence (by simp [hSet])]
        simpa [RowUpdate.apply, hSet] using
          hAdds.evidence es hSet
  · cases hSet : u.links with
    | none => simp [RowUpdate.apply, hSet]
    | some ls =>
        rw [hUnbroken.links (by simp [hSet])]
        simpa [RowUpdate.apply, hSet] using hAdds.links ls hSet

/- The task of an id after an unbroken write: as it was, or
with the change the write leaves. -/
theorem apply_task
    {u : RowUpdate ν} {c : Case ν}
    (hAdds : u.Adds) (hUnbroken : u.Unbroken c) (tid : Str) :
    ((u.apply c).tasks.find? (·.id == tid) =
        c.tasks.find? (·.id == tid) ∧
      ∀ eff ∈ u.effects, ∀ f,
        eff.sets u.caseId tid f = none) ∨
      ∃ ch t, c.tasks.find? (·.id == tid) = some t ∧
        (u.apply c).tasks.find? (·.id == tid) =
          some (ch.apply t) ∧
        u.effects = [.task u.caseId tid ch] := by
  cases hSet : u.tasks with
  | none =>
      refine Or.inl ⟨by simp [RowUpdate.apply, hSet], ?_⟩
      intro eff hEff f
      have hLeaves := hAdds.leaves eff hEff
      cases eff with
      | entry id w => rfl
      | item id e => rfl
      | link id other => rfl
      | task id tid' ch => exact absurd hSet hLeaves.2
  | some ts =>
      rcases hAdds.tasks ts hSet with ⟨taskId, ch, hChange, hEff⟩
      rw [← hUnbroken.tasks (by simp [hSet])] at hChange
      have hTasks : (u.apply c).tasks = ts := by
        simp [RowUpdate.apply, hSet]
      rw [hTasks, find?_changeTask hChange]
      by_cases hSame : tid = taskId
      · rcases isSome_of_changeTask hChange with ⟨t, hFound⟩
        refine Or.inr ⟨ch, t, ?_, ?_, ?_⟩
        · rw [hSame]
          exact hFound
        · rw [if_pos hSame, hSame, hFound]
          rfl
        · rw [hSame]
          exact hEff
      · refine Or.inl ⟨if_neg hSame, ?_⟩
        intro eff hMem f
        rw [hEff, List.mem_singleton] at hMem
        rw [hMem, Effect.sets, if_neg]
        rintro ⟨_, hIs⟩
        exact hSame hIs.symm

/- A row after an unbroken write holds what it held. -/
theorem write_keeps
    {cases : Str → Option (Case ν)} {u : RowUpdate ν}
    (hAdds : u.Adds)
    (hUnbroken :
      ∀ c, cases u.caseId = some c → u.Unbroken c)
    {id : Str} {c : Case ν}
    (hRow : cases id = some c) :
    ∃ c', u.write cases id = some c' ∧
      c.warRoom ⊆ c'.warRoom ∧ c.evidence ⊆ c'.evidence ∧
      c.links ⊆ c'.links ∧
      ∀ tid t, c.tasks.find? (·.id == tid) = some t →
        ∃ t', c'.tasks.find? (·.id == tid) = some t' := by
  by_cases hHere : id = u.caseId
  · rw [hHere] at hRow ⊢
    have hFine := hUnbroken c hRow
    rcases apply_keeps hAdds hFine with
      ⟨hWar, hEvidence, hLinks⟩
    refine ⟨u.apply c, by simp [RowUpdate.write, hRow], hWar,
      hEvidence, hLinks, ?_⟩
    intro tid t hFound
    rcases apply_task hAdds hFine tid with
      ⟨hSame, _⟩ | ⟨ch, t', _, hNew, _⟩
    · exact ⟨t, by rw [hSame]; exact hFound⟩
    · exact ⟨ch.apply t', hNew⟩
  · refine ⟨c, ?_, fun _ h => h, fun _ h => h, fun _ h => h,
      fun _ t hFound => ⟨t, hFound⟩⟩
    rw [RowUpdate.write, Function.update_of_ne hHere]
    exact hRow

theorem shown_write
    {cases : Str → Option (Case ν)} {u : RowUpdate ν}
    (hAdds : u.Adds)
    (hUnbroken :
      ∀ c, cases u.caseId = some c → u.Unbroken c)
    {eff : Effect}
    (hShown : Shown cases eff) :
    Shown (u.write cases) eff := by
  cases eff with
  | entry id w =>
      rcases hShown with ⟨c, hRow, hw⟩
      rcases write_keeps hAdds hUnbroken hRow with
        ⟨c', hRow', hWar, _⟩
      exact ⟨c', hRow', hWar hw⟩
  | item id e =>
      rcases hShown with ⟨c, hRow, he⟩
      rcases write_keeps hAdds hUnbroken hRow with
        ⟨c', hRow', _, hEvidence, _⟩
      exact ⟨c', hRow', hEvidence he⟩
  | link id other =>
      rcases hShown with ⟨c, hRow, l, hl, hOther⟩
      rcases write_keeps hAdds hUnbroken hRow with
        ⟨c', hRow', _, _, hLinks, _⟩
      exact ⟨c', hRow', l, hLinks hl, hOther⟩
  | task id tid ch =>
      rcases hShown with ⟨c, t, hRow, hFound⟩
      rcases write_keeps hAdds hUnbroken hRow with
        ⟨c', hRow', _, _, _, hTasks⟩
      rcases hTasks tid t hFound with ⟨t', hFound'⟩
      exact ⟨c', t', hRow', hFound'⟩

/- A write shows what it leaves. -/
theorem shown_effects
    {cases : Str → Option (Case ν)} {u : RowUpdate ν} {c : Case ν}
    (hAdds : u.Adds) (hRow : cases u.caseId = some c)
    (hUnbroken : u.Unbroken c) {eff : Effect}
    (hEff : eff ∈ u.effects) :
    Shown (u.write cases) eff := by
  have hHere : u.write cases u.caseId = some (u.apply c) := by
    simp [RowUpdate.write, hRow]
  have hLeaves := hAdds.leaves eff hEff
  cases eff with
  | entry id w =>
      rcases hLeaves with ⟨rfl, ws, hSet, hw⟩
      exact ⟨_, hHere, by simpa [RowUpdate.apply, hSet] using hw⟩
  | item id e =>
      rcases hLeaves with ⟨rfl, es, hSet, he⟩
      exact ⟨_, hHere, by simpa [RowUpdate.apply, hSet] using he⟩
  | link id other =>
      rcases hLeaves with ⟨rfl, ls, hSet, l, hl, hOther⟩
      exact ⟨_, hHere, l,
        by simpa [RowUpdate.apply, hSet] using hl, hOther⟩
  | task id tid ch =>
      rcases hLeaves with ⟨rfl, hSet⟩
      rcases apply_task hAdds hUnbroken tid with
        ⟨_, hNone⟩ | ⟨ch', t, _, hNew, _⟩
      · cases hTasks : u.tasks with
        | none => exact absurd hTasks hSet
        | some ts =>
            rcases hAdds.tasks ts hTasks with
              ⟨taskId, ch', hChange, hOnly⟩
            rw [hOnly, List.mem_singleton] at hEff
            cases hEff
            rcases isSome_of_changeTask hChange with ⟨t, hFound⟩
            have hAfter := find?_changeTask hChange tid
            rw [if_pos rfl, hFound] at hAfter
            refine ⟨_, ch.apply t, hHere, ?_⟩
            simpa [RowUpdate.apply, hTasks] using hAfter
      · exact ⟨_, _, hHere, hNew⟩

/- An unbroken write of a row that is there keeps what the
rows show, and shows what it leaves. -/
theorem write_shows
    {cases : Str → Option (Case ν)} {landed : List Effect}
    {u : RowUpdate ν} {c : Case ν}
    (hInv : RowsInv cases landed) (hAdds : u.Adds)
    (hRow : cases u.caseId = some c) (hUnbroken : u.Unbroken c) :
    RowsInv (u.write cases) (u.effects ++ landed) where
  shown := by
    have hFine : ∀ x, cases u.caseId = some x →
        u.Unbroken x := by
      intro x hx
      rw [hRow] at hx
      cases hx
      exact hUnbroken
    intro eff hEff
    rcases List.mem_append.mp hEff with hNew | hOld
    · exact shown_effects hAdds hRow hUnbroken hNew
    · exact shown_write hAdds hFine (hInv.shown eff hOld)
  newest := by
    intro id c' hRow' tid t hFound f v hNewest
    unfold newest at hNewest
    rw [List.findSome?_append] at hNewest
    by_cases hHere : id = u.caseId
    · rw [hHere] at hNewest hRow'
      have hIs : c' = u.apply c := by
        simpa [RowUpdate.write, hRow, eq_comm] using hRow'
      rw [hIs] at hFound
      rcases apply_task hAdds hUnbroken tid with
        ⟨hSame, hNone⟩ | ⟨ch, t₀, hBefore, hAfter, hOnly⟩
      · rw [List.findSome?_eq_none_iff.mpr
          (fun eff hEff => hNone eff hEff f)] at hNewest
        rw [hSame] at hFound
        exact hInv.newest u.caseId c hRow tid t hFound f v
          hNewest
      · rw [hAfter] at hFound
        cases hFound
        rw [get_apply]
        simp only [hOnly, List.findSome?_cons,
          List.findSome?_nil, Effect.sets, and_self,
          if_true] at hNewest
        cases hGet : ch.get f with
        | some v' => simpa [hGet] using hNewest
        | none =>
            have hOld := hInv.newest u.caseId c hRow tid t₀
              hBefore f v (by simpa [hGet, newest] using hNewest)
            simpa using hOld
    · have hElse : cases id = some c' := by
        rw [RowUpdate.write, Function.update_of_ne hHere]
          at hRow'
        exact hRow'
      rw [List.findSome?_eq_none_iff.mpr] at hNewest
      · exact hInv.newest id c' hElse tid t hFound f v hNewest
      · intro eff hEff
        have hLeaves := hAdds.leaves eff hEff
        cases eff with
        | entry id' w => rfl
        | item id' e => rfl
        | link id' other => rfl
        | task id' tid' ch =>
            rw [Effect.sets, if_neg]
            rintro ⟨hIs, _⟩
            exact hHere (hIs.symm.trans hLeaves.1)

end

---- What A Request Plans

section

variable {ν : Type} [DecidableEq ν]

omit [DecidableEq ν] in
theorem addEntry_adds
    (caseId : Str) (c : Case ν) (w : WarEntry) (now : Str) :
    (addEntry caseId c w now).Adds where
  warRoom := by
    intro ws hSet
    cases hSet
    exact List.subset_append_left _ _
  evidence := by intro es hSet; cases hSet
  links := by intro ls hSet; cases hSet
  tasks := by intro ts hSet; cases hSet
  leaves := by
    intro eff hEff
    rw [List.mem_singleton.mp hEff]
    exact ⟨rfl, _, rfl,
      List.mem_append_right _ (List.mem_singleton_self w)⟩

omit [DecidableEq ν] in
theorem keepItem_adds
    (caseId : Str) (c : Case ν) (item : Evidence) (now : Str) :
    RowUpdate.Adds
      { caseId := caseId
        read := c
        evidence := some (c.evidence ++ [item])
        updated := some now
        effects := [.item caseId item] } where
  warRoom := by intro ws hSet; cases hSet
  evidence := by
    intro es hSet
    cases hSet
    exact List.subset_append_left _ _
  links := by intro ls hSet; cases hSet
  tasks := by intro ts hSet; cases hSet
  leaves := by
    intro eff hEff
    rw [List.mem_singleton.mp hEff]
    exact ⟨rfl, _, rfl,
      List.mem_append_right _ (List.mem_singleton_self item)⟩

omit [DecidableEq ν] in
theorem setTask_adds
    (caseId : Str) {c : Case ν} {taskId : Str} {body : TaskChange}
    {tasks : List Task}
    (now : Str)
    (hChange : changeTask taskId body c.tasks = some tasks) :
    RowUpdate.Adds
      { caseId := caseId
        read := c
        tasks := some tasks
        updated := some now
        effects := [.task caseId taskId body] } where
  warRoom := by intro ws hSet; cases hSet
  evidence := by intro es hSet; cases hSet
  links := by intro ls hSet; cases hSet
  tasks := by
    intro ts hSet
    cases hSet
    exact ⟨taskId, body, hChange, rfl⟩
  leaves := by
    intro eff hEff
    rw [List.mem_singleton.mp hEff]
    exact ⟨rfl, by simp⟩

/- A case is linked once a link to it has been added. -/
theorem linked_addLink (links : List Link) (l : Link) :
    ∃ x ∈ addLink links l, x.caseId = l.caseId := by
  unfold addLink
  split
  · next hThere =>
      rcases List.any_eq_true.mp hThere with ⟨x, hx, hSame⟩
      exact ⟨x, hx, beq_iff_eq.mp hSame⟩
  · exact ⟨l, List.mem_append_right _
      (List.mem_singleton_self l), rfl⟩

theorem subset_addLink (links : List Link) (l : Link) :
    links ⊆ addLink links l := by
  unfold addLink
  split
  · exact fun _ h => h
  · exact List.subset_append_left _ _

omit [DecidableEq ν] in
theorem linkTo_adds
    (caseId : Str) (c : Case ν) (l : Link) :
    (linkTo caseId c l).Adds where
  warRoom := by intro ws hSet; cases hSet
  evidence := by intro es hSet; cases hSet
  links := by
    intro ls hSet
    cases hSet
    exact subset_addLink _ _
  tasks := by intro ts hSet; cases hSet
  leaves := by
    intro eff hEff
    rw [List.mem_singleton.mp hEff]
    exact ⟨rfl, _, rfl, linked_addLink c.links l⟩

theorem intoTarget_adds
    (call : MergeCall) (mark : Nat) (tgt src : Case ν) :
    (call.intoTarget mark tgt src).Adds where
  warRoom := by
    intro ws hSet
    cases hSet
    exact fun w hw =>
      List.mem_append_left _ (List.mem_append_left _ hw)
  evidence := by
    intro es hSet
    cases hSet
    exact List.subset_append_left _ _
  links := by
    intro ls hSet
    cases hSet
    exact subset_addLink _ _
  tasks := by intro ts hSet; cases hSet
  leaves := by
    intro eff hEff
    rcases List.mem_cons.mp hEff with rfl | hLink
    · refine ⟨rfl, _, rfl, ?_⟩
      exact List.mem_append_left _ (List.mem_append_right _
        (List.mem_singleton_self _))
    · rw [List.mem_singleton.mp hLink]
      exact ⟨rfl, _, rfl, linked_addLink tgt.links _⟩

omit [DecidableEq ν] in
theorem closeSource_adds
    (call : MergeCall) (src : Case ν) :
    (call.closeSource src).Adds where
  warRoom := by intro ws hSet; cases hSet
  evidence := by intro es hSet; cases hSet
  links := by
    intro ls hSet
    cases hSet
    exact List.subset_append_left _ _
  tasks := by intro ts hSet; cases hSet
  leaves := by
    intro eff hEff
    rw [List.mem_singleton.mp hEff]
    exact ⟨rfl, _, rfl, _,
      List.mem_append_right _ (List.mem_singleton_self _), rfl⟩

/- The rows a request has found: the first, and the second of
those that read two. -/
def CaseRequest.Found
    (req : CaseRequest)
    (first second : Option (Case ν))
    (caseId : Str) : Prop :=
  (caseId = req.caseId ∧ first ≠ none) ∨
    (req.second = some caseId ∧ second ≠ none)

/- What a request writes adds to rows it has found. -/
theorem plan_adds
    {req : CaseRequest} {mark : Nat}
    {first second : Option (Case ν)} {updates : List (RowUpdate ν)}
    (hPlan : req.plan mark first second = .ok updates) :
    ∀ u ∈ updates,
      u.Adds ∧ req.Found first second u.caseId := by
  intro u hu
  cases req with
  | note caseId content type actor now =>
      cases first with
      | none => cases hPlan
      | some c =>
          cases hPlan
          rw [List.mem_singleton.mp hu]
          exact ⟨addEntry_adds _ _ _ _, Or.inl ⟨rfl, by simp⟩⟩
  | evidence caseId body itemId sha256 actor now =>
      cases first with
      | none => cases hPlan
      | some c =>
          cases hPlan
          rw [List.mem_singleton.mp hu]
          exact ⟨keepItem_adds _ _ _ _, Or.inl ⟨rfl, by simp⟩⟩
  | task caseId taskId body now =>
      cases first with
      | none => cases hPlan
      | some c =>
          rw [CaseRequest.plan] at hPlan
          cases hChange : changeTask taskId body c.tasks with
          | none => simp [hChange] at hPlan
          | some tasks =>
              simp only [hChange, Except.ok.injEq] at hPlan
              rw [← hPlan] at hu
              rw [List.mem_singleton.mp hu]
              exact ⟨setTask_adds caseId now hChange,
                Or.inl ⟨rfl, by simp⟩⟩
  | link caseId other relation now =>
      cases first with
      | none => cases hPlan
      | some a =>
          cases second with
          | none => cases hPlan
          | some b =>
              cases hPlan
              rcases List.mem_cons.mp hu with rfl | hSecond
              · exact ⟨linkTo_adds _ _ _,
                  Or.inl ⟨rfl, by simp⟩⟩
              · rw [List.mem_singleton.mp hSecond]
                exact ⟨linkTo_adds _ _ _,
                  Or.inr ⟨rfl, by simp⟩⟩
  | merge call =>
      cases first with
      | none => cases hPlan
      | some tgt =>
          cases second with
          | none => cases hPlan
          | some src =>
              cases hPlan
              rcases List.mem_cons.mp hu with rfl | hSecond
              · exact ⟨intoTarget_adds _ _ _ _,
                  Or.inl ⟨rfl, by simp⟩⟩
              · rw [List.mem_singleton.mp hSecond]
                exact ⟨closeSource_adds _ _,
                  Or.inr ⟨rfl, by simp⟩⟩
  | playbookNote caseId content ts now =>
      cases first with
      | none => cases hPlan
      | some c =>
          cases hPlan
          rw [List.mem_singleton.mp hu]
          exact ⟨addEntry_adds _ _ _ _, Or.inl ⟨rfl, by simp⟩⟩

/- What a request writes is what it is to leave. -/
theorem plan_aims
    {req : CaseRequest} {mark : Nat}
    {first second : Option (Case ν)} {updates : List (RowUpdate ν)}
    (hPlan : req.plan mark first second = .ok updates) :
    req.Aims (updates.flatMap RowUpdate.effects) := by
  cases req with
  | note caseId content type actor now =>
      cases first with
      | none => cases hPlan
      | some c =>
          cases hPlan
          exact ⟨mark, rfl⟩
  | evidence caseId body itemId sha256 actor now =>
      cases first with
      | none => cases hPlan
      | some c =>
          cases hPlan
          rfl
  | task caseId taskId body now =>
      cases first with
      | none => cases hPlan
      | some c =>
          rw [CaseRequest.plan] at hPlan
          cases hChange : changeTask taskId body c.tasks with
          | none => simp [hChange] at hPlan
          | some tasks =>
              simp only [hChange, Except.ok.injEq] at hPlan
              rw [← hPlan]
              rfl
  | link caseId other relation now =>
      cases first with
      | none => cases hPlan
      | some a =>
          cases second with
          | none => cases hPlan
          | some b =>
              cases hPlan
              rfl
  | merge call =>
      cases first with
      | none => cases hPlan
      | some tgt =>
          cases second with
          | none => cases hPlan
          | some src =>
              cases hPlan
              exact ⟨mark, src.title, rfl⟩
  | playbookNote caseId content ts now =>
      cases first with
      | none => cases hPlan
      | some c =>
          cases hPlan
          exact ⟨mark, rfl⟩

end

---- Runs Without A Lost Write

section

variable {ν : Type} [DecidableEq ν]

/- What holds of a request as far as it is. -/
def CaseCall.Fits
    (cases : Str → Option (Case ν))
    (landed : List Effect)
    (call : CaseCall ν) : Prop :=
  match call.phase with
  | .asked => True
  | .half first =>
      first ≠ none → cases call.request.caseId ≠ none
  | .writing goal left =>
      (∀ u ∈ left, u.Adds ∧ cases u.caseId ≠ none) ∧
        (∀ eff ∈ goal,
          eff ∈ landed ∨ ∃ u ∈ left, eff ∈ u.effects) ∧
        call.request.Aims goal
  | .failed _ => True
  | .succeeded goal =>
      (∀ eff ∈ goal, eff ∈ landed) ∧ call.request.Aims goal

structure DeskInv (d : Desk ν) : Prop where
  rows : RowsInv d.cases d.landed
  calls :
    ∀ k call, d.calls k = some call →
      call.Fits d.cases d.landed

omit [DecidableEq ν] in
/- A row that is there stays there. -/
theorem write_row
    {u : RowUpdate ν} {cases : Str → Option (Case ν)} {id : Str}
    (hRow : cases id ≠ none) :
    u.write cases id ≠ none := by
  by_cases hHere : id = u.caseId
  · rw [hHere] at hRow ⊢
    simpa [RowUpdate.write] using hRow
  · rw [RowUpdate.write, Function.update_of_ne hHere]
    exact hRow

omit [DecidableEq ν] in
theorem CaseCall.Fits.write
    {cases : Str → Option (Case ν)} {landed : List Effect}
    {call : CaseCall ν}
    (hFits : call.Fits cases landed) (u : RowUpdate ν) :
    call.Fits (u.write cases) (u.effects ++ landed) := by
  rcases call with ⟨request, phase⟩
  cases phase with
  | asked => trivial
  | half first => exact fun hFirst => write_row (hFits hFirst)
  | writing goal left =>
      refine ⟨fun x hx => ?_, fun eff hEff => ?_, hFits.2.2⟩
      · rcases hFits.1 x hx with ⟨hAdds, hRow⟩
        exact ⟨hAdds, write_row hRow⟩
      · rcases hFits.2.1 eff hEff with hLanded | hLeft
        · exact Or.inl (List.mem_append_right _ hLanded)
        · exact Or.inr hLeft
  | failed why => trivial
  | succeeded goal =>
      exact ⟨fun eff hEff =>
        List.mem_append_right _ (hFits.1 eff hEff), hFits.2⟩

/- A request that has read its rows plans writes to rows that
are there. -/
theorem planned_fits
    {cases : Str → Option (Case ν)} {req : CaseRequest}
    {first second : Option (Case ν)}
    (hFirst : first ≠ none → cases req.caseId ≠ none)
    (hSecond :
      ∀ other, req.second = some other →
        second ≠ none → cases other ≠ none)
    (mark : Nat)
    (landed : List Effect) :
    (⟨req, planned (req.plan mark first second)⟩ :
      CaseCall ν).Fits cases landed := by
  cases hPlan : req.plan mark first second with
  | error why => trivial
  | ok updates =>
      refine ⟨fun u hu => ?_, fun eff hEff => Or.inr ?_,
        plan_aims hPlan⟩
      · rcases plan_adds hPlan u hu with ⟨hAdds, hFound⟩
        refine ⟨hAdds, ?_⟩
        rcases hFound with ⟨hIs, hSome⟩ | ⟨hOther, hSome⟩
        · rw [hIs]
          exact hFirst hSome
        · exact hSecond _ hOther hSome
      · exact List.mem_flatMap.mp hEff

/- Every step keeps the invariant, a write when it finds what
its request read. -/
theorem case_step_inv
    {d d' : Desk ν} {label : CaseLabel}
    (hInv : DeskInv d) (hStep : CaseStep d label d')
    (hUnbroken : UnbrokenWrite ⟨d, label, d'⟩) :
    DeskInv d' := by
  cases hStep with
  | refused hIdle hCheck =>
      exact ⟨hInv.rows, forall_update hInv.calls
        fun a ha => by cases ha; trivial⟩
  | arrived hIdle hCheck =>
      exact ⟨hInv.rows, forall_update hInv.calls
        fun a ha => by cases ha; trivial⟩
  | @readOnly k req hCall hOne =>
      refine ⟨hInv.rows, forall_update hInv.calls
        fun a ha => ?_⟩
      cases ha
      refine planned_fits (fun h => h) ?_ d.next d.landed
      intro other hSome
      rw [hOne] at hSome
      cases hSome
  | readFirst hCall hTwo =>
      refine ⟨hInv.rows, forall_update hInv.calls
        fun a ha => ?_⟩
      cases ha
      exact fun h => h
  | @readSecond k req other first hCall hTwo =>
      refine ⟨hInv.rows, forall_update hInv.calls
        fun a ha => ?_⟩
      cases ha
      refine planned_fits (hInv.calls k _ hCall) ?_ d.next
        d.landed
      intro x hSome
      rw [hTwo] at hSome
      cases hSome
      exact fun h => h
  | @write k req goal u left hCall =>
      have hFits := hInv.calls k _ hCall
      rcases hFits.1 u List.mem_cons_self with ⟨hAdds, hRow⟩
      rcases Option.ne_none_iff_exists'.mp hRow with ⟨c, hC⟩
      have hFine :=
        hUnbroken k req goal u left rfl hCall c hC
      refine ⟨write_shows hInv.rows hAdds hC hFine,
        forall_update
          (fun i call hThat => (hInv.calls i call hThat).write u)
          fun a ha => ?_⟩
      cases ha
      refine ⟨fun x hx => ?_, fun eff hEff => ?_, hFits.2.2⟩
      · rcases hFits.1 x (List.mem_cons_of_mem _ hx) with
          ⟨hAdds', hRow'⟩
        exact ⟨hAdds', write_row hRow'⟩
      · rcases hFits.2.1 eff hEff with
          hLanded | ⟨x, hx, hLeft⟩
        · exact Or.inl (List.mem_append_right _ hLanded)
        · rcases List.mem_cons.mp hx with rfl | hRest
          · exact Or.inl (List.mem_append_left _ hLeft)
          · exact Or.inr ⟨x, hRest, hLeft⟩
  | @commit k req goal hCall =>
      refine ⟨hInv.rows, forall_update hInv.calls
        fun a ha => ?_⟩
      cases ha
      rcases hInv.calls k _ hCall with ⟨_, hGoal, hAims⟩
      refine ⟨fun eff hEff => ?_, hAims⟩
      rcases hGoal eff hEff with hLanded | ⟨x, hx, _⟩
      · exact hLanded
      · cases hx

omit [DecidableEq ν] in
theorem Desk.Quiet.inv
    {d : Desk ν}
    (hQuiet : d.Quiet) :
    DeskInv d where
  rows :=
    { shown := by
        intro eff hEff
        rw [hQuiet.landed] at hEff
        cases hEff
      newest := by
        intro id c _ tid t _ f v hNewest
        rw [hQuiet.landed] at hNewest
        cases hNewest }
  calls := by
    intro k call hCall
    rw [hQuiet.calls k] at hCall
    cases hCall

omit [DecidableEq ν] in
theorem holds_of_landed
    {d : Desk ν}
    (hRows : RowsInv d.cases d.landed) {eff : Effect}
    (hEff : eff ∈ d.landed) :
    d.Holds eff := by
  have hShown := hRows.shown eff hEff
  cases eff with
  | entry id w => exact hShown
  | item id e => exact hShown
  | link id other => exact hShown
  | task id tid ch =>
      rcases hShown with ⟨c, t, hRow, hFound⟩
      refine ⟨c, t, hRow, hFound, ?_⟩
      intro f v hGet newer older hLanded hNewer
      apply hRows.newest id c hRow tid t hFound f v
      rw [hLanded]
      apply newest_of_last hNewer
      rw [Effect.sets, if_pos ⟨rfl, rfl⟩]
      exact hGet

/- For any cases, any requests and any interleaving of their
reads and writes in which every write finds the columns it
sets as its request read them, what a request that
succeeded was to leave is there, all of it. -/
theorem nothing_lost
    {start d : Desk ν}
    {trace : List (Transition (Desk ν) CaseLabel)}
    (hQuiet : start.Quiet)
    (hRun : Run CaseStep start trace d)
    (hUnbroken : ∀ e ∈ trace, UnbrokenWrite e) :
    ∀ k req goal,
      d.calls k = some ⟨req, .succeeded goal⟩ →
        req.Aims goal ∧ ∀ eff ∈ goal, d.Holds eff := by
  have hInv : DeskInv d := by
    refine Run.invariant (I := DeskInv) ?_
      (hRun.restrict hUnbroken) hQuiet.inv
    rintro x label x' hInv ⟨hStep, hFine⟩
    exact case_step_inv hInv hStep hFine
  intro k req goal hCall
  rcases hInv.calls k _ hCall with ⟨hLanded, hAims⟩
  exact ⟨hAims, fun eff hEff =>
    holds_of_landed hInv.rows (hLanded eff hEff)⟩

end

---- Requests Taking Turns

section

variable {ν : Type} [DecidableEq ν]

/- The next read or write of a request. -/
def Desk.turn
    (d : Desk ν)
    (k : Nat) : Option (CaseLabel × Desk ν) :=
  match d.calls k with
  | some ⟨req, .asked⟩ =>
      match req.second with
      | none =>
          some (.read k,
            { d.set k
                ⟨req, planned (req.plan d.next
                  (d.cases req.caseId) none)⟩ with
              next := d.next + 1 })
      | some _ =>
          some (.read k,
            d.set k ⟨req, .half (d.cases req.caseId)⟩)
  | some ⟨req, .half first⟩ =>
      req.second.map fun other =>
        (.read k,
          { d.set k
              ⟨req, planned
                (req.plan d.next first (d.cases other))⟩ with
            next := d.next + 1 })
  | some ⟨req, .writing goal (u :: left)⟩ =>
      some (.write k,
        { d.set k ⟨req, .writing goal left⟩ with
          cases := u.write d.cases
          landed := u.effects ++ d.landed })
  | some ⟨req, .writing goal []⟩ =>
      some (.commit k, d.set k ⟨req, .succeeded goal⟩)
  | _ => none

theorem turn_step
    {d d' : Desk ν} {k : Nat} {label : CaseLabel}
    (hTurn : d.turn k = some (label, d')) :
    CaseStep d label d' := by
  unfold Desk.turn at hTurn
  split at hTurn
  · next req hCall =>
      split at hTurn
      · next hOne =>
          cases hTurn
          exact .readOnly hCall hOne
      · next other hTwo =>
          cases hTurn
          exact .readFirst hCall hTwo
  · next req first hCall =>
      rcases Option.map_eq_some_iff.mp hTurn with
        ⟨other, hTwo, hSame⟩
      cases hSame
      exact .readSecond hCall hTwo
  · next req goal u left hCall =>
      cases hTurn
      exact .write hCall
  · next req goal hCall =>
      cases hTurn
      exact .commit hCall
  · cases hTurn

/- The requests taking turns, in an order. -/
def Desk.turns (d : Desk ν) :
    List Nat → List (Transition (Desk ν) CaseLabel) × Desk ν
| [] => ([], d)
| k :: rest =>
    match d.turn k with
    | none => d.turns rest
    | some (label, d') =>
        (⟨d, label, d'⟩ :: (d'.turns rest).1, (d'.turns rest).2)

theorem turns_steps (d : Desk ν) (order : List Nat) :
    Run CaseStep d (d.turns order).1 (d.turns order).2 := by
  induction order generalizing d with
  | nil => exact .nil d
  | cons k rest ih =>
      rw [Desk.turns]
      cases hTurn : d.turn k with
      | none => exact ih d
      | some next =>
          rcases next with ⟨label, d'⟩
          exact .cons (turn_step hTurn) (ih d')

end

---- Concrete Notes

/- A note of an analyst on the first case. -/
def noteBy (actor : String) : CaseRequest :=
  .note (lit "CASE-1") (lit "Seen before") (lit "manual")
    (lit actor) (lit "2026-01-01T00:01:00+00:00")

/- The two cases, and no request. -/
def quietDesk : Desk Str where
  cases := twoCases.cases
  next := 3
  landed := []
  calls _ := none

theorem quietDesk_quiet : quietDesk.Quiet :=
  ⟨fun _ => rfl, rfl⟩

/- Two notes have been asked for. -/
def firstAsked : Desk Str :=
  quietDesk.set 0 ⟨noteBy "ana", .asked⟩

def bothAsked : Desk Str :=
  firstAsked.set 1 ⟨noteBy "ben", .asked⟩

theorem firstAsked_step :
    CaseStep quietDesk (.arrive 0) firstAsked :=
  .arrived rfl (by decide)

/- Two notes on one case, each read before either is written:
both requests succeed, and the first note is gone. -/
theorem note_lost :
    ∃ trace d,
      quietDesk.Quiet ∧ Run CaseStep quietDesk trace d ∧
        ¬ ∀ k req goal,
          d.calls k = some ⟨req, .succeeded goal⟩ →
            ∀ eff ∈ goal, d.Holds eff := by
  have hBoth : CaseStep firstAsked (.arrive 1) bothAsked :=
    .arrived rfl (by decide)
  refine ⟨_, _, quietDesk_quiet,
    .cons firstAsked_step (.cons hBoth
      (turns_steps bothAsked [0, 1, 0, 1, 0, 1])), ?_⟩
  intro hAll
  rcases hAll 0 _ _ rfl _ List.mem_cons_self with
    ⟨c, hRow, hMem⟩
  cases hRow
  revert hMem
  decide

/- One note, with no other request beside it. -/
theorem note_kept :
    (noteBy "ana").Aims
        [.entry (lit "CASE-1")
          ⟨3, lit "2026-01-01T00:01:00+00:00", lit "ana",
            lit "manual", lit "Seen before"⟩] ∧
      ∀ eff ∈ [Effect.entry (lit "CASE-1")
          ⟨3, lit "2026-01-01T00:01:00+00:00", lit "ana",
            lit "manual", lit "Seen before"⟩],
        (firstAsked.turns [0, 0, 0]).2.Holds eff := by
  have hRun := Run.cons firstAsked_step
    (turns_steps firstAsked [0, 0, 0])
  refine nothing_lost quietDesk_quiet hRun ?_ 0 (noteBy "ana")
    _ rfl
  intro e he k req goal u left hLabel hCall c hRow
  change e ∈ [_, _, _, _] at he
  simp only [List.mem_cons, List.not_mem_nil, or_false] at he
  rcases he with rfl | rfl | rfl | rfl
  · cases hLabel
  · cases hLabel
  · cases hLabel
    cases hCall
    cases hRow
    exact ⟨fun _ => rfl, fun _ => rfl, fun _ => rfl,
      fun _ => rfl, fun _ => rfl⟩
  · cases hLabel

end ThreatOrbit.Cases
