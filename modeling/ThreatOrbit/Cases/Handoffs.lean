import ThreatOrbit.Lib.Python
import ThreatOrbit.Lib.Run

/-
  The hand-offs of a case between the tiers of a SOC.

  A hand-off moves the case to a tier, and to an owner if it
  names one, and is recorded with the tier and the owner it
  came from. The events of a case, applied in their order,
  should lead from how it was opened to how it stands.
-/

---- Tiers

namespace ThreatOrbit.Cases

open Lib

/- `TRIAGE`, `INVESTIGATION` and `RESEARCH`. -/
def triage : Int := 1

def investigation : Int := 2

def research : Int := 3

/- `TIERS`. -/
def tiers : List Int :=
  [triage, investigation, research]

/- `tier or TRIAGE`. -/
def tierOr (tier : Int) : Int :=
  if tier = 0 then triage else tier

/- `sla_for`, over `TIER_SLA_HOURS`. -/
def slaFor (tier : Int) : Int :=
  if tierOr tier = triage then 4
  else if tierOr tier = investigation then 24
  else if tierOr tier = research then 72
  else 24

/- `tier_name`, over `TIER_NAMES`. -/
def tierName [Unicode] (tier : Int) : Str :=
  if tierOr tier = triage then
    lit "L1 · Triage"
  else if tierOr tier = investigation then
    lit "L2 · Investigation"
  else if tierOr tier = research then
    lit "L3 · Threat research"
  else
    lit "Tier " ++ pyStr (.int tier)

/- A tier that a case can be handed to is never 0. -/
theorem tierOr_of_mem
    {tier : Int}
    (hTier : tier ∈ tiers) :
    tier ≠ 0 ∧ tierOr tier = tier := by
  simp only [tiers, triage, investigation, research,
    List.mem_cons, List.not_mem_nil, or_false] at hTier
  have hNot : tier ≠ 0 := by omega
  exact ⟨hNot, if_neg hNot⟩

theorem tierOr_of_ne
    {tier : Int}
    (hTier : tier ≠ 0) :
    tierOr tier = tier :=
  if_neg hTier

theorem tierOr_ne_zero (tier : Int) : tierOr tier ≠ 0 := by
  unfold tierOr triage
  split
  · decide
  · assumption

---- Handing A Case Over

/- A row of `case_escalations`. -/
structure Handoff where
  id : Str
  caseId : Str
  fromTier : Int
  toTier : Int
  fromOwner : Option Str
  toOwner : Option Str
  note : Option Str
  actor : Str
  ts : Str
deriving DecidableEq, Repr

/- The columns of `cases` that a hand-off reads or writes. -/
structure CaseRow where
  tier : Int
  owner : Option Str
  slaHours : Int
  updated : Str
deriving DecidableEq, Repr

/- The cases by their ids, and the hand-offs in the order in
which they were recorded. -/
structure CaseStore where
  cases : Str → Option CaseRow
  escalations : List Handoff

/- What `escalate` is asked, with the id it draws and the
two times it reads. -/
structure EscalateCall where
  id : Str
  caseId : Str
  toTier : Int
  actor : Str
  toOwner : Option Str
  note : Option Str
  ts : Str
  now : Str
deriving DecidableEq, Repr

/- `to_owner or None`. -/
def named : Option Str → Option Str
| some [] => none
| owner => owner

/- `(note or "").strip()[:1000] or None`. -/
def EscalateCall.noteText
    [Unicode]
    (call : EscalateCall) : Option Str :=
  named (some ((strip (orStr call.note [])).take 1000))

/- The event that a call records. -/
def EscalateCall.handoff
    [Unicode]
    (call : EscalateCall)
    (row : CaseRow) : Handoff where
  id := call.id
  caseId := call.caseId
  fromTier := tierOr row.tier
  toTier := call.toTier
  fromOwner := row.owner
  toOwner := named call.toOwner
  note := call.noteText
  actor := call.actor
  ts := call.ts

/- The row that a call leaves. An owner that is given is
written, the empty one as well. -/
def EscalateCall.rowAfter
    (call : EscalateCall)
    (row : CaseRow) : CaseRow where
  tier := call.toTier
  owner := call.toOwner.or row.owner
  slaHours := slaFor call.toTier
  updated := call.now

/- The event and the row, written. -/
def CaseStore.handed
    [Unicode]
    (s : CaseStore)
    (call : EscalateCall)
    (row : CaseRow) : CaseStore where
  cases :=
    Function.update s.cases call.caseId
      (some (call.rowAfter row))
  escalations := s.escalations ++ [call.handoff row]

/- The case is at this tier with this owner already. -/
def EscalateCall.moot
    (call : EscalateCall)
    (row : CaseRow) : Bool :=
  tierOr row.tier == call.toTier &&
    (named call.toOwner).or row.owner == row.owner

/- What `escalate` returns. -/
structure Handed where
  event : Handoff
  fromTierName : Str
  toTierName : Str
deriving DecidableEq, Repr

/- `escalate`. An error is the text of the `ValueError`. -/
def escalate
    [Unicode]
    (call : EscalateCall)
    (s : CaseStore) : Except Str (CaseStore × Handed) :=
  if call.toTier ∉ tiers then
    .error (lit "tier must be one of (1, 2, 3)")
  else
    match s.cases call.caseId with
    | none => .error (lit "case not found")
    | some row =>
        if call.moot row then
          .error (lit "case is already at " ++
            tierName call.toTier ++ lit " with this owner")
        else
          .ok (s.handed call row,
            ⟨call.handoff row, tierName (tierOr row.tier),
              tierName call.toTier⟩)

/- The store after a call; one that fails changes nothing. -/
def CaseStore.step
    [Unicode]
    (s : CaseStore)
    (call : EscalateCall) : CaseStore :=
  match escalate call s with
  | .ok (t, _) => t
  | .error _ => s

/- One call of a run. -/
def EscalateStep
    [Unicode]
    (s : CaseStore)
    (call : EscalateCall)
    (t : CaseStore) : Prop :=
  t = s.step call

/- The events of a case, the oldest first. -/
def CaseStore.history
    (s : CaseStore)
    (caseId : Str) : List Handoff :=
  s.escalations.filter fun h => h.caseId == caseId

/- The call is about this case and will go through. -/
def CaseStore.Accepts
    (s : CaseStore)
    (caseId : Str)
    (call : EscalateCall) : Prop :=
  call.caseId = caseId ∧
    call.toTier ∈ tiers ∧
    ∃ row, s.cases caseId = some row ∧ call.moot row = false

/- The call will go through and takes the owner off a case
by an empty name. -/
def CaseStore.Clears
    (s : CaseStore)
    (caseId : Str)
    (call : EscalateCall) : Prop :=
  s.Accepts caseId call ∧
    call.toOwner = some [] ∧
    ∃ row, s.cases caseId = some row ∧ row.owner ≠ some []

---- What A Call Does

section

variable [Unicode]

/- What a case stands at: the tier and the owner. -/
structure Holding where
  tier : Int
  owner : Option Str
deriving DecidableEq, Repr

def CaseRow.holding (row : CaseRow) : Holding :=
  ⟨row.tier, row.owner⟩

/- The state an event was recorded in. -/
def Handoff.before (h : Handoff) : Holding :=
  ⟨h.fromTier, h.fromOwner⟩

/- An event sets the tier, and the owner unless it says that
the owner was not changed. -/
def Holding.after (p : Holding) (h : Handoff) : Holding :=
  ⟨h.toTier, h.toOwner.or p.owner⟩

/- A call that goes through writes the row and the event. -/
theorem escalate_of_accepts
    {s : CaseStore} {call : EscalateCall} {row : CaseRow}
    (hTier : call.toTier ∈ tiers)
    (hRow : s.cases call.caseId = some row)
    (hMoot : call.moot row = false) :
    s.step call = s.handed call row := by
  unfold CaseStore.step escalate
  rw [if_neg (not_not_intro hTier), hRow]
  simp [hMoot]

/- A call that does not go through changes nothing. -/
theorem escalate_of_not_accepts
    {s : CaseStore} {call : EscalateCall}
    (hNot : ¬ s.Accepts call.caseId call) :
    s.step call = s := by
  unfold CaseStore.step escalate
  by_cases hTier : call.toTier ∈ tiers
  · rw [if_neg (not_not_intro hTier)]
    cases hRow : s.cases call.caseId with
    | none => rfl
    | some row =>
        have hMoot : call.moot row = true := by
          by_contra hOpen
          exact hNot ⟨rfl, hTier, row, hRow, by simpa using hOpen⟩
        simp [hMoot]
  · rw [if_pos hTier]

/- What a call on any case does to this one. -/
theorem escalate_step_cases
    {s t : CaseStore} {call : EscalateCall} {caseId : Str}
    {row : CaseRow}
    (hStep : EscalateStep s call t)
    (hRow : s.cases caseId = some row) :
    (s.Accepts caseId call ∧
        t.cases caseId = some (call.rowAfter row) ∧
        t.history caseId =
          s.history caseId ++ [call.handoff row]) ∨
      (¬ s.Accepts caseId call ∧
        t.cases caseId = some row ∧
        t.history caseId = s.history caseId) := by
  unfold EscalateStep at hStep
  subst hStep
  by_cases hSame : call.caseId = caseId
  · subst hSame
    by_cases hAccepts : s.Accepts call.caseId call
    · left
      rcases hAccepts with ⟨_, hTier, row', hRow', hMoot⟩
      have hEq : row' = row := by
        rw [hRow] at hRow'
        exact (Option.some.inj hRow').symm
      subst hEq
      rw [escalate_of_accepts hTier hRow hMoot]
      refine ⟨⟨rfl, hTier, row', hRow, hMoot⟩, ?_, ?_⟩
      · exact Function.update_self ..
      · simp [CaseStore.history, CaseStore.handed,
          List.filter_append, EscalateCall.handoff]
    · right
      rw [escalate_of_not_accepts hAccepts]
      exact ⟨hAccepts, hRow, rfl⟩
  · right
    refine ⟨fun hAccepts => hSame hAccepts.1, ?_⟩
    by_cases hAccepts : s.Accepts call.caseId call
    · rcases hAccepts with ⟨_, hTier, other, hOther, hMoot⟩
      rw [escalate_of_accepts hTier hOther hMoot]
      refine ⟨?_, ?_⟩
      · simp only [CaseStore.handed]
        rw [Function.update_of_ne (Ne.symm hSame)]
        exact hRow
      · simp [CaseStore.history, CaseStore.handed,
          List.filter_append, EscalateCall.handoff, hSame]
    · rw [escalate_of_not_accepts hAccepts]
      exact ⟨hRow, rfl⟩

/- The tier after a call that goes through. -/
omit [Unicode] in
theorem tier_rowAfter
    {s : CaseStore} {call : EscalateCall} {caseId : Str}
    (row : CaseRow) (hAccepts : s.Accepts caseId call) :
    (call.rowAfter row).tier ≠ 0 :=
  (tierOr_of_mem hAccepts.2.1).1

/- The event leads to the row written, unless the call takes
the owner off the case by an empty name. -/
theorem after_handoff_iff
    (p : Holding) (call : EscalateCall) (row : CaseRow)
    (hOwner : p.owner = row.owner) :
    p.after (call.handoff row) = (call.rowAfter row).holding ↔
      ¬ (call.toOwner = some [] ∧ row.owner ≠ some []) := by
  simp only [Holding.after, EscalateCall.handoff,
    CaseRow.holding, EscalateCall.rowAfter, hOwner]
  rcases call.toOwner with _ | _ | ⟨c, name⟩
  · simp [named]
  · simp [named]
  · simp [named]

end

---- The Chain Of Custody

section

variable [Unicode]

/- The log replays from one row of a case to another. -/
abbrev Replays
    (row : CaseRow)
    (log : List Handoff)
    (now : CaseRow) : Prop :=
  Chained Holding.after Handoff.before row.holding log
    now.holding

/- What the calls of a run recorded of a case, and the row
they left. A log that leads there can start only where the
case stood, which is what carries the induction: a hand-off
that drifts is not made good by a later one. -/
structure Recorded
    (caseId : Str)
    (trace : List (Transition CaseStore EscalateCall))
    (row : CaseRow)
    (log : List Handoff)
    (now : CaseRow) : Prop where
  opened :
    row.tier ≠ 0 → ∀ p,
      Chained Holding.after Handoff.before p log now.holding →
        p = row.holding
  replays :
    Replays row log now ↔
      (∀ e ∈ trace, ¬ e.pre.Clears caseId e.label) ∧
        ((∃ e ∈ trace, e.pre.Accepts caseId e.label) →
          row.tier ≠ 0)
  sla :
    now.slaHours = slaFor now.tier ↔
      row.slaHours = slaFor row.tier ∨
        ∃ e ∈ trace, e.pre.Accepts caseId e.label

/- The state an event was recorded in, of a case that has a
tier. -/
theorem before_handoff_iff
    (call : EscalateCall) (row : CaseRow) :
    (call.handoff row).before = row.holding ↔
      row.tier ≠ 0 := by
  simp only [Handoff.before, EscalateCall.handoff,
    CaseRow.holding, Holding.mk.injEq, and_true]
  constructor
  · intro hEq hZero
    exact tierOr_ne_zero row.tier (hEq.trans hZero)
  · exact tierOr_of_ne

/- A call that goes through clears the owner exactly if it
gives an empty name for another one. -/
omit [Unicode] in
theorem clears_iff
    {s : CaseStore} {call : EscalateCall} {caseId : Str}
    {row : CaseRow}
    (hRow : s.cases caseId = some row)
    (hAccepts : s.Accepts caseId call) :
    s.Clears caseId call ↔
      call.toOwner = some [] ∧ row.owner ≠ some [] := by
  constructor
  · rintro ⟨_, hEmpty, row', hRow', hOwner⟩
    rw [hRow] at hRow'
    rw [Option.some.inj hRow']
    exact ⟨hEmpty, hOwner⟩
  · rintro ⟨hEmpty, hOwner⟩
    exact ⟨hAccepts, hEmpty, row, hRow, hOwner⟩

/- No call yet. -/
omit [Unicode] in
theorem recorded_nil
    (caseId : Str) (row : CaseRow) :
    Recorded caseId [] row [] row where
  opened _ _ hLog := hLog
  replays := by simp [Replays, chained_nil_iff]
  sla := by simp

/- A call that goes through, before others. -/
theorem recorded_accepted
    {s t : CaseStore} {call : EscalateCall} {caseId : Str}
    {rest : List (Transition CaseStore EscalateCall)}
    {row now : CaseRow} {log : List Handoff}
    (hRow : s.cases caseId = some row)
    (hAccepts : s.Accepts caseId call)
    (hRest :
      Recorded caseId rest (call.rowAfter row) log now) :
    Recorded caseId (⟨s, call, t⟩ :: rest) row
      (call.handoff row :: log) now where
  opened hTier p hLog := by
    rw [chained_cons_iff] at hLog
    rw [← hLog.1]
    exact (before_handoff_iff call row).mpr hTier
  replays := by
    have hNext := tier_rowAfter row hAccepts
    unfold Replays
    rw [chained_cons_iff, before_handoff_iff]
    simp only [List.forall_mem_cons, List.exists_mem_cons_iff,
      hAccepts, true_or, forall_const,
      clears_iff hRow hAccepts]
    have hReach := after_handoff_iff row.holding call row rfl
    constructor
    · rintro ⟨hTier, hLog⟩
      have hSame := hRest.opened hNext _ hLog
      rw [hSame] at hLog
      have hLater := (hRest.replays.mp hLog).1
      exact ⟨⟨hReach.mp hSame, hLater⟩, hTier⟩
    · rintro ⟨⟨hKeeps, hLater⟩, hTier⟩
      refine ⟨hTier, ?_⟩
      rw [hReach.mpr hKeeps]
      exact hRest.replays.mpr ⟨hLater, fun _ => hNext⟩
  sla := by
    rw [hRest.sla]
    simp [EscalateCall.rowAfter, hAccepts]

/- A call that leaves the case alone, before others. -/
omit [Unicode] in
theorem recorded_refused
    {s t : CaseStore} {call : EscalateCall} {caseId : Str}
    {rest : List (Transition CaseStore EscalateCall)}
    {row now : CaseRow} {log : List Handoff}
    (hRefused : ¬ s.Accepts caseId call)
    (hRest : Recorded caseId rest row log now) :
    Recorded caseId (⟨s, call, t⟩ :: rest) row log now where
  opened := hRest.opened
  replays := by
    have hKeeps : ¬ s.Clears caseId call :=
      fun hClears => hRefused hClears.1
    rw [hRest.replays]
    simp [hRefused, hKeeps]
  sla := by
    rw [hRest.sla]
    simp [hRefused]

/- What a run leaves of a case and of its history. -/
theorem recorded_of_run
    {s t : CaseStore}
    {trace : List (Transition CaseStore EscalateCall)}
    {caseId : Str} {row : CaseRow}
    (hRun : Run EscalateStep s trace t)
    (hRow : s.cases caseId = some row) :
    ∃ log now,
      t.cases caseId = some now ∧
        t.history caseId = s.history caseId ++ log ∧
        Recorded caseId trace row log now := by
  induction hRun generalizing row with
  | nil s =>
      exact ⟨[], row, hRow, (List.append_nil _).symm,
        recorded_nil caseId row⟩
  | @cons s u t call rest hStep hRest ih =>
      rcases escalate_step_cases hStep hRow with
        ⟨hAccepts, hNext, hHistory⟩ |
          ⟨hRefused, hNext, hHistory⟩
      · rcases ih hNext with ⟨log, now, hNow, hLog, hFacts⟩
        refine ⟨call.handoff row :: log, now, hNow, ?_,
          recorded_accepted hRow hAccepts hFacts⟩
        rw [hLog, hHistory, List.append_assoc]
        rfl
      · rcases ih hNext with ⟨log, now, hNow, hLog, hFacts⟩
        refine ⟨log, now, hNow, ?_,
          recorded_refused hRefused hFacts⟩
        rw [hLog, hHistory]

/- The history of a case leads from the row it was opened
with to its row now, whose SLA is the one of its tier. -/
def CaseStore.InCustody
    (t : CaseStore)
    (caseId : Str)
    (row : CaseRow) : Prop :=
  ∃ now,
    t.cases caseId = some now ∧
      Replays row (t.history caseId) now ∧
      now.slaHours = slaFor now.tier

/- The chain of custody of a case replays to its present, after
any calls on any cases, exactly if no call takes a name off
it by an empty one, the case was opened in a tier unless it
is never handed over, and with the SLA of that tier unless
it is. -/
theorem custody_replays_iff
    {s t : CaseStore}
    {trace : List (Transition CaseStore EscalateCall)}
    {caseId : Str}
    {row : CaseRow}
    (hRun : Run EscalateStep s trace t)
    (hRow : s.cases caseId = some row)
    (hNew : s.history caseId = []) :
    t.InCustody caseId row ↔
      (∀ e ∈ trace, ¬ e.pre.Clears caseId e.label) ∧
        ((∃ e ∈ trace, e.pre.Accepts caseId e.label) →
          row.tier ≠ 0) ∧
        (row.slaHours = slaFor row.tier ∨
          ∃ e ∈ trace, e.pre.Accepts caseId e.label) := by
  rcases recorded_of_run hRun hRow with
    ⟨log, now, hNow, hLog, hFacts⟩
  have hHistory : t.history caseId = log := by
    rw [hLog, hNew, List.nil_append]
  unfold CaseStore.InCustody
  simp only [hNow, hHistory, Option.some.injEq,
    exists_eq_left']
  rw [hFacts.replays, hFacts.sla, and_assoc]

end

---- Two Hand-Offs

local instance handoffUnicode : Unicode := asciiTables

/- A case in triage, with its owner and its SLA. -/
def triageCase : CaseRow where
  tier := triage
  owner := some (lit "l1@x.com")
  slaHours := 4
  updated := lit "2026-07-30T00:00:00+00:00"

/- A store with that case only. -/
def triageStore : CaseStore where
  cases := fun id =>
    if id = lit "esc-1" then some triageCase else none
  escalations := []

/- A hand-off of that case to investigation. -/
def toInvestigation
    (toOwner : Option Str) : EscalateCall where
  id := lit "h-1"
  caseId := lit "esc-1"
  toTier := investigation
  actor := lit "l1@x.com"
  toOwner := toOwner
  note := some (lit "the beacon interval is real")
  ts := lit "2026-07-30T01:00:00.000001+00:00"
  now := lit "2026-07-30T01:00:00+00:00"

/- A hand-off that names nobody keeps the owner, and its
event replays. -/
theorem unnamed_handoff_replays :
    (triageStore.step (toInvestigation none)).InCustody
      (lit "esc-1") triageCase := by
  refine (custody_replays_iff (.cons rfl (.nil _)) rfl rfl).mpr
    ⟨?_, fun _ => by decide, Or.inl (by decide)⟩
  intro e he hClears
  rw [List.mem_singleton.mp he] at hClears
  cases hClears.2.1

/- A hand-off to an empty name takes the owner off the case,
and its event says that the owner was not changed. -/
theorem emptied_owner_drifts :
    ¬ ∀ t,
        EscalateStep triageStore (toInvestigation (some [])) t →
          t.InCustody (lit "esc-1") triageCase := by
  intro hAll
  rcases hAll _ rfl with ⟨now, hNow, hReplays, _⟩
  have hRow : now =
      (toInvestigation (some [])).rowAfter triageCase := by
    exact (Option.some.inj hNow).symm
  rw [hRow] at hReplays
  have hEnd :
      triageCase.holding.after
          ((toInvestigation (some [])).handoff triageCase) =
        ((toInvestigation (some [])).rowAfter
          triageCase).holding :=
    hReplays.2
  exact absurd hEnd (by decide)

end ThreatOrbit.Cases
