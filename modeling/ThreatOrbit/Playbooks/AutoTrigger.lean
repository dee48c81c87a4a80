import ThreatOrbit.Lib.Python
import ThreatOrbit.Playbooks.Approvals

/-
  Playbooks that alerts trigger: each tick of the engine runs those
  that a fresh alert matches and that were not run for it.
-/

---- Ticks

namespace ThreatOrbit.Playbooks

open Lib

/- `trigger_match`. -/
structure TriggerMatch where
  severities : List Str
  techniques : List Str
  rule : Str

/- A row of `playbooks` with its trigger; a match that is empty or
does not parse is `none`. -/
structure AutoPlaybook where
  row : PlaybookRow
  enabled : Bool
  triggerType : Str
  triggerMatch : Option TriggerMatch

structure AutoAlert where
  alert : Alert
  ts : Str
  status : Str

/- The tables that a tick reads, 15 minutes after `since`. -/
structure AutoTick where
  since : Str
  playbooks : List AutoPlaybook
  alerts : List AutoAlert
  nodup : (playbooks.map (·.row.id)).Nodup

def AutoTick.candidates (tick : AutoTick) :
    List (PlaybookRow × TriggerMatch) :=
  (tick.playbooks.filter fun p =>
    p.enabled && p.triggerType == lit "auto").filterMap fun p =>
      p.triggerMatch.map fun m => (p.row, m)

/- The open alerts of the window, the newest first. -/
def AutoTick.fresh (tick : AutoTick) : List Alert :=
  ((tick.alerts.filter fun a => decide (tick.since ≤ a.ts) &&
    !(a.status == lit "resolved" || a.status == lit "closed")).mergeSort
      fun a b => decide (b.ts ≤ a.ts)).map (·.alert)

/- `playbook_runs`, by the ids of its rows. -/
structure RunTable (W : Type) where
  store : Store W
  ids : List Str

variable {W : Type}

/- `SELECT 1 FROM playbook_runs WHERE playbook_id=? AND alert_id=?`. -/
def RunTable.hasRun (t : RunTable W) (key : Str × Str) : Bool :=
  t.ids.any fun id => (t.store.runs id).any fun r =>
    r.playbookId == key.1 && r.alertId == some key.2

/- What a tick has done so far. -/
structure AutoState (W : Type) where
  table : RunTable W
  started : List (Str × Str)
  dispatches : List Dispatch

section

variable [Unicode]

def alertMatches (m : TriggerMatch) (a : Alert) : Bool :=
  (m.severities.isEmpty || a.severity.any m.severities.contains) &&
  (m.techniques.isEmpty || m.techniques.any fun t =>
    t.isPrefixOf (a.mitreTechId.getD [])) &&
  (m.rule.isEmpty || contains (Unicode.lower m.rule)
    (Unicode.lower (a.ruleName.getD []))) &&
  !(m.severities.isEmpty && m.techniques.isEmpty && m.rule.isEmpty)

/- The pair that a candidate is run for. -/
def dueRun
    (t : RunTable W)
    (fresh : List Alert)
    (c : PlaybookRow × TriggerMatch) : Option (Str × Str) :=
  (fresh.find? fun a =>
    alertMatches c.2 a && !t.hasRun (c.1.id, a.id)).map fun a =>
      (c.1.id, a.id)

variable (P : Platform W) (ids : Uuids)

def autoRun
    (t : RunTable W)
    (pb : PlaybookRow)
    (alertId : Str) : PlaybookRun × RunTable W :=
  let id := ids.next t.ids
  let out := executePlaybook P t.store id pb
    (lit "automation-engine") (lit "auto") (some alertId) false
  (out.1, ⟨out.2, id :: t.ids⟩)

/- One pass of the loop over the candidates. -/
def serve
    (maxRuns : Nat)
    (fresh : List Alert)
    (s : AutoState W)
    (c : PlaybookRow × TriggerMatch) : AutoState W :=
  if maxRuns ≤ s.started.length then s
  else
    match dueRun s.table fresh c with
    | none => s
    | some key =>
        let out := autoRun P ids s.table c.1 key.2
        ⟨out.2, s.started ++ [key], s.dispatches ++ out.1.dispatches⟩

def autoTriggerPlaybooks
    (maxRuns : Nat)
    (t : RunTable W)
    (tick : AutoTick) : AutoState W :=
  tick.candidates.foldl (serve P ids maxRuns tick.fresh) ⟨t, [], []⟩

---- What Is Run

omit [Unicode] in
theorem hasRun_autoRun
    (t : RunTable W) (pb : PlaybookRow) (alertId : Str)
    (key : Str × Str) :
    (autoRun P ids t pb alertId).2.hasRun key = true ↔
      key = (pb.id, alertId) ∨ t.hasRun key = true := by
  obtain ⟨row, hPlaybook, hAlert, hRuns⟩ : ∃ row : RunRow,
      row.playbookId = pb.id ∧ row.alertId = some alertId ∧
        (autoRun P ids t pb alertId).2.store.runs =
          Function.update t.store.runs (ids.next t.ids) (some row) := by
    refine ⟨(autoRun P ids t pb alertId).1.row, rfl, rfl, ?_⟩
    exact notePlaybookRun_runs P _ _
  have hIds : (autoRun P ids t pb alertId).2.ids =
      ids.next t.ids :: t.ids := rfl
  have hOld : ∀ id ∈ t.ids,
      (Function.update t.store.runs (ids.next t.ids) (some row)) id =
        t.store.runs id := fun id hId =>
    Function.update_of_ne (fun h => ids.fresh _ (h ▸ hId)) _ _
  simp only [RunTable.hasRun, hIds, hRuns, List.any_cons,
    Function.update_self, Option.any_some, Bool.or_eq_true,
    Bool.and_eq_true, beq_iff_eq, hPlaybook, hAlert]
  refine or_congr ?_ ?_
  · rw [Option.some.injEq, Prod.ext_iff, eq_comm, @eq_comm _ alertId]
  · simp only [List.any_eq_true]
    exact exists_congr fun id => and_congr_right fun hId => by
      rw [hOld id hId]

/- What a tick has started had no run before, and has one now. -/
structure TickInv (t : RunTable W) (s : AutoState W) : Prop where
  has : ∀ key, s.table.hasRun key = true ↔
    t.hasRun key = true ∨ key ∈ s.started
  new : ∀ key ∈ s.started, t.hasRun key ≠ true
  nodup : s.started.Nodup

theorem dueRun_spec
    {t : RunTable W} {fresh : List Alert}
    {c : PlaybookRow × TriggerMatch} {key : Str × Str}
    (hDue : dueRun t fresh c = some key) :
    key.1 = c.1.id ∧ t.hasRun key ≠ true := by
  obtain ⟨a, hFound, rfl⟩ := Option.map_eq_some_iff.mp hDue
  have hIs := List.find?_some hFound
  simp only [Bool.and_eq_true, Bool.not_eq_true'] at hIs
  exact ⟨rfl, by simp [hIs.2]⟩

theorem TickInv.serve
    {t : RunTable W} {s : AutoState W}
    (hInv : TickInv t s) (maxRuns : Nat) (fresh : List Alert)
    (c : PlaybookRow × TriggerMatch) :
    TickInv t (serve P ids maxRuns fresh s c) := by
  unfold Playbooks.serve
  split
  · exact hInv
  · cases hDue : dueRun s.table fresh c with
    | none => exact hInv
    | some key =>
        obtain ⟨hKey, hNone⟩ := dueRun_spec hDue
        rw [Ne, hInv.has, not_or] at hNone
        have hPair : (c.1.id, key.2) = key := by rw [← hKey]
        refine ⟨fun k => ?_, fun k hK => ?_, ?_⟩
        · simp only [hasRun_autoRun, hPair, hInv.has, List.mem_append,
            List.mem_singleton]
          tauto
        · rcases List.mem_append.mp hK with hK | hK
          · exact hInv.new k hK
          · exact List.mem_singleton.mp hK ▸ hNone.1
        · exact hInv.nodup.append (List.nodup_singleton _)
            (by simpa using hNone.2)

theorem tickInv_autoTrigger
    (maxRuns : Nat) (t : RunTable W) (tick : AutoTick) :
    TickInv t (autoTriggerPlaybooks P ids maxRuns t tick) := by
  refine List.foldlRecOn _ _ ⟨by simp, by simp, List.nodup_nil⟩ ?_
  exact fun s hInv c _ => hInv.serve P ids maxRuns _ c

/- A run of one playbook leaves what is due for the others. -/
theorem dueRun_autoRun
    (t : RunTable W) (pb : PlaybookRow) (alertId : Str)
    (fresh : List Alert) {c : PlaybookRow × TriggerMatch}
    (hOther : c.1.id ≠ pb.id) :
    dueRun (autoRun P ids t pb alertId).2 fresh c =
      dueRun t fresh c := by
  have hSame : ∀ a : Alert,
      (autoRun P ids t pb alertId).2.hasRun (c.1.id, a.id) =
        t.hasRun (c.1.id, a.id) := by
    intro a
    rw [Bool.eq_iff_iff, hasRun_autoRun]
    simp [hOther]
  simp only [dueRun, hSame]

/- The loop starts what is due before it, up to the limit. -/
theorem foldl_serve_started
    (maxRuns : Nat) (fresh : List Alert)
    {cs : List (PlaybookRow × TriggerMatch)}
    (hIds : (cs.map (·.1.id)).Nodup) (s : AutoState W) :
    (cs.foldl (serve P ids maxRuns fresh) s).started =
      s.started ++ (cs.filterMap (dueRun s.table fresh)).take
        (maxRuns - s.started.length) := by
  induction cs generalizing s with
  | nil => simp
  | cons c cs ih =>
      rw [List.map_cons, List.nodup_cons] at hIds
      rw [List.foldl_cons, ih hIds.2]
      unfold Playbooks.serve
      split
      · rename_i hFull
        simp [Nat.sub_eq_zero_of_le hFull]
      · rename_i hRoom
        cases hDue : dueRun s.table fresh c with
        | none => simp [hDue]
        | some key =>
            have hRest : cs.filterMap (dueRun
                (autoRun P ids s.table c.1 key.2).2 fresh) =
                  cs.filterMap (dueRun s.table fresh) := by
              refine List.filterMap_congr fun c' hC' => ?_
              refine dueRun_autoRun P ids _ _ _ _ fun hSame => ?_
              exact hIds.1 (hSame ▸ List.mem_map_of_mem hC')
            obtain ⟨n, hN⟩ : ∃ n, maxRuns - s.started.length = n + 1 :=
              ⟨maxRuns - s.started.length - 1, by omega⟩
            have hLeft : maxRuns - (s.started ++ [key]).length = n := by
              rw [List.length_append, List.length_singleton]
              omega
            simp only [hRest, hLeft, hN, List.filterMap_cons, hDue,
              List.take_succ_cons, List.append_assoc,
              List.singleton_append]

omit [Unicode] in
theorem candidates_nodup (tick : AutoTick) :
    (tick.candidates.map (·.1.id)).Nodup := by
  have hNodup := tick.nodup
  rw [List.Nodup, List.pairwise_map] at hNodup ⊢
  refine (hNodup.filter _).filterMap _ ?_
  intro p q hNe c hC d hD
  obtain ⟨_, _, rfl⟩ := Option.map_eq_some_iff.mp hC
  obtain ⟨_, _, rfl⟩ := Option.map_eq_some_iff.mp hD
  exact hNe

---- Histories

inductive AutoEvent where
  | tick (tick : AutoTick)
  | other

/- Ticks, with the pairs that they have run so far, and whatever else
is done to the tables that keeps the runs there are. -/
inductive AutoStep (maxRuns : Nat) :
    RunTable W × List (Str × Str) → AutoEvent →
      RunTable W × List (Str × Str) → Prop
| tick (t : RunTable W) (log : List (Str × Str)) (tick : AutoTick) :
    AutoStep maxRuns (t, log) (.tick tick)
      ((autoTriggerPlaybooks P ids maxRuns t tick).table,
        log ++ (autoTriggerPlaybooks P ids maxRuns t tick).started)
| other {t t' : RunTable W} (log : List (Str × Str))
    (hKeep : ∀ key, t.hasRun key = true → t'.hasRun key = true) :
    AutoStep maxRuns (t, log) .other (t', log)

/- What the ticks have run had no run before them, and keeps it. -/
structure AutoInv
    (t : RunTable W) (s : RunTable W × List (Str × Str)) : Prop where
  nodup : s.2.Nodup
  ran : ∀ key ∈ s.2, t.hasRun key ≠ true ∧ s.1.hasRun key = true
  keeps : ∀ key, t.hasRun key = true → s.1.hasRun key = true

theorem AutoInv.step
    {maxRuns : Nat} {t : RunTable W}
    {s u : RunTable W × List (Str × Str)} {e : AutoEvent}
    (hInv : AutoInv t s) (hStep : AutoStep P ids maxRuns s e u) :
    AutoInv t u := by
  cases hStep with
  | tick v log tick =>
      have hTick := tickInv_autoTrigger P ids maxRuns v tick
      refine ⟨hInv.nodup.append hTick.nodup ?_, fun key hK => ?_, ?_⟩
      · exact fun key hK hNew => hTick.new key hNew (hInv.ran key hK).2
      · rcases List.mem_append.mp hK with hK | hK
        · exact ⟨(hInv.ran key hK).1,
            (hTick.has key).mpr (.inl (hInv.ran key hK).2)⟩
        · exact ⟨fun hT => hTick.new key hK (hInv.keeps key hT),
            (hTick.has key).mpr (.inr hK)⟩
      · exact fun key hT => (hTick.has key).mpr
          (.inl (hInv.keeps key hT))
  | other log hStays =>
      exact ⟨hInv.nodup,
        fun key hK => (hInv.ran key hK).imp_right (hStays key),
        fun key hT => hStays key (hInv.keeps key hT)⟩

/-
  Over any history no playbook is run twice for an alert, nor for one
  that it was run for before; and each tick runs the enabled playbooks
  that an alert is due for, each for the newest, up to the limit.
-/
theorem auto_runs_once
    (maxRuns : Nat)
    {t t' : RunTable W}
    {log : List (Str × Str)}
    {trace : List (Transition _ AutoEvent)}
    (hRun : Run (AutoStep P ids maxRuns) (t, []) trace (t', log)) :
    log.Nodup ∧
    (∀ key ∈ log, t.hasRun key = false ∧ t'.hasRun key = true) ∧
    ∀ e ∈ trace, ∀ tick, e.label = .tick tick →
      e.post.2 = e.pre.2 ++ (tick.candidates.filterMap
        (dueRun e.pre.1 tick.fresh)).take maxRuns := by
  have hKeep : ∀ s a u, AutoInv t s →
      AutoStep P ids maxRuns s a u → AutoInv t u :=
    fun _ _ _ hInv hStep => hInv.step P ids hStep
  have hStart : AutoInv t (t, []) :=
    ⟨List.nodup_nil, by simp, fun _ hT => hT⟩
  have hLast := hRun.invariant hKeep hStart
  refine ⟨hLast.nodup, fun key hK => ?_, fun e hE tick hLabel => ?_⟩
  · exact (hLast.ran key hK).imp_left Bool.eq_false_iff.mpr
  · obtain ⟨pre, label, post⟩ := e
    obtain rfl : label = .tick tick := hLabel
    cases (hRun.forall_step hKeep hStart _ hE).2 with
    | tick v log tick =>
        simp only [autoTriggerPlaybooks]
        rw [foldl_serve_started P ids maxRuns _ (candidates_nodup tick)]
        simp

end

/- `str.lower` and its like on ASCII. -/
local instance autoUnicode : Unicode := asciiTables

/- A playbook for critical alerts, and one such alert. -/
def alarmTick : AutoTick where
  since := lit "2026"
  playbooks := [⟨gatesPlaybook 1, true, lit "auto",
    some ⟨[lit "critical"], [], []⟩⟩]
  alerts := [⟨⟨lit "a1", none, some (lit "critical"), none, none, none,
    none, none, none, none, none⟩, lit "2026", lit "open"⟩]
  nodup := List.nodup_singleton _

def noRuns : RunTable Unit :=
  ⟨⟨(), fun _ => none, fun _ => none⟩, []⟩

theorem alarm_run_once :
    let s := autoTriggerPlaybooks idlePlatform longerIds 2 noRuns
      alarmTick
    s.started.Nodup ∧ ∀ key ∈ s.started,
      noRuns.hasRun key = false ∧ s.table.hasRun key = true :=
  have hOnce := auto_runs_once idlePlatform longerIds 2
    (.cons (.tick noRuns [] alarmTick) (.nil _))
  ⟨hOnce.1, hOnce.2.1⟩

end ThreatOrbit.Playbooks
