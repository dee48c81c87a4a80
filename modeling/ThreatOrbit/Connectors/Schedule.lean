import ThreatOrbit.Lib.Python
import ThreatOrbit.Lib.Run

/-
  The scheduler of the connectors.

  A tick takes the time, reads the row of a connector, and
  begins a run of it where the row is due and not held by a
  run; whether a run still holds it is judged by the
  completion of the run before.
-/

---- The Test Of A Tick

namespace ThreatOrbit.Connectors

open Lib

inductive Status where
| idle
| running
| ok
| error
deriving DecidableEq, Repr

/- The columns of a connector that the scheduler reads. Times
are in microseconds; a time stamp that cannot be read is
`none`. -/
structure Connector where
  kind : Str
  enabled : Bool
  intervalSeconds : Int
  intervalMinutes : Int
  status : Status
  lastRun : Option Int
  nextAllowedAt : Option Int
deriving DecidableEq, Repr

/- `MIN_INTERVAL_SECONDS` and `STUCK_RUNNING_AFTER`, which
the environment may set. -/
structure Limits where
  minIntervalSeconds : Int
  stuckRunningAfter : Int
deriving DecidableEq, Repr

/- The limits where the environment sets none. -/
def Limits.default : Limits := ⟨1, 900⟩

def minIntervalFor (l : Limits) (kind : Str) : Int :=
  if kind = lit "threatorbit" ∨ kind = lit "nvd" then 30
  else if kind = lit "otx" then 60
  else l.minIntervalSeconds

def connectorIntervalSeconds
    (l : Limits)
    (c : Connector) : Int :=
  let secs :=
    if c.intervalSeconds ≤ 0 then
      (if c.intervalMinutes = 0 then 60
        else c.intervalMinutes) * 60
    else c.intervalSeconds
  max (minIntervalFor l c.kind) secs

/- `timedelta(seconds=n)`. -/
def seconds (n : Int) : Int :=
  n * 1000000

def Connector.due
    (l : Limits)
    (c : Connector)
    (now : Int) : Bool :=
  match c.lastRun with
  | none => true
  | some last =>
      decide (seconds (connectorIntervalSeconds l c) ≤ now - last)

/- Its run is taken to be dead. -/
def Connector.stuck
    (l : Limits)
    (c : Connector)
    (now : Int) : Bool :=
  if c.status = .running then
    match c.lastRun with
    | none => true
    | some last =>
        decide (seconds l.stuckRunningAfter ≤ now - last)
  else false

/- Whether a tick runs a connector that it reads. -/
def passes (l : Limits) (c : Connector) (now : Int) : Bool :=
  c.enabled &&
    (match c.nextAllowedAt with
    | none => true
    | some allowed => !decide (now < allowed)) &&
    c.due l now && (c.status != .running || c.stuck l now)

/- What keeps a tick from a connector: it is off, or told to
wait, or not due, or running since less than the limit after
the last completion. -/
def Held (l : Limits) (c : Connector) (now : Int) : Prop :=
  c.enabled = false ∨
    (∃ allowed, c.nextAllowedAt = some allowed ∧
      now < allowed) ∨
    (∃ last, c.lastRun = some last ∧
      now - last < seconds (connectorIntervalSeconds l c)) ∨
    (c.status = .running ∧
      ∃ last, c.lastRun = some last ∧
        now - last < seconds l.stuckRunningAfter)

theorem due_iff
    {l : Limits} {c : Connector} {now : Int} :
    c.due l now = true ↔
      ¬ ∃ last, c.lastRun = some last ∧
        now - last < seconds (connectorIntervalSeconds l c) := by
  unfold Connector.due
  cases c.lastRun with
  | none => simp
  | some last => simp

theorem stuck_iff
    {l : Limits} {c : Connector} {now : Int} :
    (c.status != .running || c.stuck l now) = true ↔
      ¬ (c.status = .running ∧
        ∃ last, c.lastRun = some last ∧
          now - last < seconds l.stuckRunningAfter) := by
  unfold Connector.stuck
  by_cases hRunning : c.status = .running
  · cases c.lastRun with
    | none => simp [hRunning]
    | some last => simp [hRunning]
  · simp [hRunning]

/- A tick runs a connector unless something keeps it. -/
theorem passes_iff
    {l : Limits} {c : Connector} {now : Int} :
    passes l c now = true ↔ ¬ Held l c now := by
  have hAllowed :
      (match c.nextAllowedAt with
        | none => true
        | some allowed => !decide (now < allowed)) = true ↔
        ¬ ∃ allowed, c.nextAllowedAt = some allowed ∧
          now < allowed := by
    cases c.nextAllowedAt with
    | none => simp
    | some allowed => simp
  unfold passes Held
  rw [Bool.and_eq_true, Bool.and_eq_true, Bool.and_eq_true,
    hAllowed, due_iff, stuck_iff, ← Bool.not_eq_false]
  simp only [not_or, and_assoc]

---- Ticks And Runs

/- A run of the connector, by a tick or by hand. -/
structure ConnectorRun where
  began : Int
  byTick : Bool
  finished : Bool
deriving DecidableEq, Repr

/- A tick that has not come to the connector's turn: with
the time it took, or with the row it read as well. -/
inductive Tick where
| timed (now : Int)
| holding (row : Connector) (now : Int)
deriving DecidableEq, Repr

/- A connector between its ticks and its runs: the clock, the
row, the runs in the order they began, and the ticks that
are under way. -/
structure Schedule where
  clock : Int
  row : Connector
  runs : List ConnectorRun
  ticks : Nat → Option Tick

inductive ScheduleLabel where
| wait (micros : Nat)
| tick (tick : Nat)
| read (tick : Nat)
| start (tick : Nat)
| pass (tick : Nat)
| manual
| backOff (retryAt : Int)
| complete (run : Nat)
| fail (run : Nat)
| crash (run : Nat)
deriving DecidableEq, Repr

/- `_now()`, to the second. -/
def stampOf (clock : Int) : Int :=
  clock - clock % 1000000

/- `run_connector` writes that it runs. -/
def Schedule.begin (s : Schedule) (byTick : Bool) : Schedule :=
  { s with
    row := { s.row with status := .running }
    runs := s.runs ++ [⟨s.clock, byTick, false⟩] }

/- A run has ended and left a row. -/
def Schedule.settle
    (s : Schedule)
    (run : Nat)
    (r : ConnectorRun)
    (row : Connector) : Schedule :=
  { s with
    row := row
    runs := s.runs.set run { r with finished := true } }

def Schedule.setTick
    (s : Schedule)
    (tick : Nat)
    (t : Option Tick) : Schedule :=
  { s with ticks := Function.update s.ticks tick t }

/- The steps of ticks, runs and the clock, in any order. A
run that is told to back off writes so before it fails; an
exception that leaves `run_connector` is written by the
tick alone. -/
inductive ScheduleStep (l : Limits) :
    Schedule → ScheduleLabel → Schedule → Prop
| wait (s : Schedule) (micros : Nat) :
    ScheduleStep l s (.wait micros)
      { s with clock := s.clock + micros }
| tick (s : Schedule) (tick : Nat)
    (hNew : s.ticks tick = none) :
    ScheduleStep l s (.tick tick)
      (s.setTick tick (some (.timed s.clock)))
| read (s : Schedule) (tick : Nat) (now : Int)
    (hTimed : s.ticks tick = some (.timed now)) :
    ScheduleStep l s (.read tick)
      (s.setTick tick (some (.holding s.row now)))
| start (s : Schedule) (tick : Nat)
    (row : Connector) (now : Int)
    (hRead : s.ticks tick = some (.holding row now))
    (hPasses : passes l row now = true) :
    ScheduleStep l s (.start tick)
      ((s.begin true).setTick tick none)
| pass (s : Schedule) (tick : Nat)
    (row : Connector) (now : Int)
    (hRead : s.ticks tick = some (.holding row now))
    (hPasses : passes l row now = false) :
    ScheduleStep l s (.pass tick) (s.setTick tick none)
| manual (s : Schedule) :
    ScheduleStep l s .manual (s.begin false)
| backOff (s : Schedule) (retryAt : Int) :
    ScheduleStep l s (.backOff retryAt)
      { s with
        row := { s.row with nextAllowedAt := some retryAt } }
| complete (s : Schedule) (run : Nat) (r : ConnectorRun)
    (hRun : s.runs[run]? = some r)
    (hOpen : r.finished = false) :
    ScheduleStep l s (.complete run)
      (s.settle run r
        { s.row with
          status := .ok
          lastRun := some (stampOf s.clock) })
| fail (s : Schedule) (run : Nat) (r : ConnectorRun)
    (hRun : s.runs[run]? = some r)
    (hOpen : r.finished = false) :
    ScheduleStep l s (.fail run)
      (s.settle run r
        { s.row with
          status := .error
          lastRun := some (stampOf s.clock) })
| crash (s : Schedule) (run : Nat) (r : ConnectorRun)
    (hRun : s.runs[run]? = some r)
    (hOpen : r.finished = false) :
    ScheduleStep l s (.crash run)
      (s.settle run r
        (if r.byTick then { s.row with status := .error }
          else s.row))

/- A run that has not finished and began less than the limit
ago. -/
def Schedule.Busy (l : Limits) (s : Schedule) : Prop :=
  ∃ r ∈ s.runs, r.finished = false ∧
    s.clock - r.began < seconds l.stuckRunningAfter

/- No tick can start the connector while it is busy. -/
def NoOverlap (l : Limits) (s : Schedule) : Prop :=
  ∀ tick t, ScheduleStep l s (.start tick) t → ¬ s.Busy l

/- No tick but this one has read a row that it will run. -/
def NoneAbout
    (l : Limits)
    (s : Schedule)
    (tick : Option Nat) : Prop :=
  ∀ other row now, some other ≠ tick →
    s.ticks other = some (.holding row now) →
    passes l row now = false

/- The condition on a step: a tick that reads the row of a
busy connector finds it held, and no run begins while a
tick is about to start one. -/
def Timely
    (l : Limits)
    (e : Transition Schedule ScheduleLabel) : Prop :=
  match e.label with
  | .read tick =>
      ∀ now, e.pre.ticks tick = some (.timed now) →
        e.pre.Busy l → Held l e.pre.row now
  | .start tick =>
      0 < l.stuckRunningAfter → NoneAbout l e.pre (some tick)
  | .manual =>
      0 < l.stuckRunningAfter → NoneAbout l e.pre none
  | _ => True

/- No run has been under way for as long as the limit. -/
def Brief (l : Limits) (s : Schedule) : Prop :=
  ∀ r ∈ s.runs, r.finished = false →
    s.clock - r.began < seconds l.stuckRunningAfter

/- Nothing is under way. -/
def Schedule.Resting (s : Schedule) : Prop :=
  (∀ tick, s.ticks tick = none) ∧
    ∀ r ∈ s.runs, r.finished = true

---- No Sync Overlaps Another

section

variable {l : Limits}
variable {s t : Schedule}

@[simp] theorem setTick_runs
    {tick : Nat}
    {k : Option Tick} :
    (s.setTick tick k).runs = s.runs :=
  rfl

@[simp] theorem setTick_clock
    {tick : Nat}
    {k : Option Tick} :
    (s.setTick tick k).clock = s.clock :=
  rfl

@[simp] theorem setTick_ticks
    {tick : Nat}
    {k : Option Tick} :
    (s.setTick tick k).ticks =
      Function.update s.ticks tick k :=
  rfl

/- What a tick is about to start is what it read. -/
theorem noOverlap_iff :
    NoOverlap l s ↔
      (s.Busy l → NoneAbout l s none) := by
  constructor
  · intro hSafe hBusy other row now _ hRead
    by_contra hPasses
    rw [Bool.not_eq_false] at hPasses
    exact hSafe other _
      (.start s other row now hRead hPasses) hBusy
  · intro hNone tick t hStep hBusy
    cases hStep with
    | start _ row now hRead hPasses =>
        have hFalse := hNone hBusy tick row now (by simp) hRead
        rw [hPasses] at hFalse
        cases hFalse

/- Finishing a run makes no connector busy. -/
theorem busy_of_settle
    {run : Nat} {r : ConnectorRun} {row : Connector}
    (hBusy : (s.settle run r row).Busy l) :
    s.Busy l := by
  rcases hBusy with ⟨q, hMem, hOpen, hRecent⟩
  rcases List.mem_or_eq_of_mem_set hMem with hOld | hNew
  · exact ⟨q, hOld, hOpen, hRecent⟩
  · subst hNew
    simp at hOpen

/- A run that has just begun makes it busy. -/
theorem begin_busy
    {byTick : Bool}
    (hLimit : 0 < l.stuckRunningAfter) :
    (s.begin byTick).Busy l := by
  refine ⟨⟨s.clock, byTick, false⟩, by simp [Schedule.begin],
    rfl, ?_⟩
  simp only [Schedule.begin, seconds]
  omega

/- Without a limit no connector is ever busy. -/
theorem limit_pos_of_begin_busy
    {byTick : Bool}
    (hOld : ¬ s.Busy l) (hBusy : (s.begin byTick).Busy l) :
    0 < l.stuckRunningAfter := by
  rcases hBusy with ⟨r, hMem, hOpen, hRecent⟩
  rcases List.mem_append.mp hMem with hIn | hNew
  · exact absurd ⟨r, hIn, hOpen, hRecent⟩ hOld
  · rw [List.mem_singleton] at hNew
    subst hNew
    simp only [Schedule.begin, seconds] at hRecent
    omega

/- What was read stays, and a tick that goes on is gone. -/
theorem NoneAbout.setTick
    {tick : Nat} {k : Option Tick}
    (hNone : NoneAbout l s (some tick))
    (hTick : ∀ row now, k = some (.holding row now) →
      passes l row now = false) :
    NoneAbout l (s.setTick tick k) none := by
  intro other row now _ hRead
  rw [setTick_ticks] at hRead
  by_cases hSame : other = tick
  · rw [hSame, Function.update_self] at hRead
    exact hTick row now hRead
  · rw [Function.update_of_ne hSame] at hRead
    exact hNone other row now (by simpa using hSame) hRead

theorem NoneAbout.weaken
    {tick : Option Nat}
    (hNone : NoneAbout l s none) :
    NoneAbout l s tick :=
  fun other row now _ hRead =>
    hNone other row now (by simp) hRead

/- A run that ends keeps what the ticks may do. -/
theorem NoOverlap.settle
    {run : Nat} {r : ConnectorRun} {row : Connector}
    (hSafe : NoOverlap l s) :
    NoOverlap l (s.settle run r row) := by
  rw [noOverlap_iff] at hSafe ⊢
  intro hBusy
  exact hSafe (busy_of_settle hBusy)

/- A step that meets the condition keeps every tick from a
busy connector. -/
theorem NoOverlap.step
    {a : ScheduleLabel}
    (hSafe : NoOverlap l s) (hStep : ScheduleStep l s a t)
    (hTimely : Timely l ⟨s, a, t⟩) :
    NoOverlap l t := by
  have hNone := noOverlap_iff.mp hSafe
  cases hStep with
  | wait micros =>
      rw [noOverlap_iff]
      rintro ⟨r, hMem, hOpen, hRecent⟩
      refine hNone ⟨r, hMem, hOpen, ?_⟩
      simp only at hRecent
      omega
  | tick tick hNew =>
      rw [noOverlap_iff]
      intro hBusy
      exact (hNone hBusy).weaken.setTick (by simp)
  | read tick now hTimed =>
      rw [noOverlap_iff]
      intro hBusy
      refine (hNone hBusy).weaken.setTick ?_
      intro row taken hHolding
      cases hHolding
      have hHeld := hTimely now hTimed hBusy
      rw [← Bool.not_eq_true, passes_iff, not_not]
      exact hHeld
  | start tick row now hRead hPasses =>
      rw [noOverlap_iff]
      intro hBusy
      have hIdle := hSafe tick _ (.start s tick row now hRead hPasses)
      have hLimit := limit_pos_of_begin_busy hIdle hBusy
      exact NoneAbout.setTick (hTimely hLimit) (by simp)
  | pass tick row now hRead hPasses =>
      rw [noOverlap_iff]
      intro hBusy
      exact (hNone hBusy).weaken.setTick (by simp)
  | manual =>
      rw [noOverlap_iff]
      intro hBusy
      by_cases hOld : s.Busy l
      · exact hNone hOld
      · exact hTimely (limit_pos_of_begin_busy hOld hBusy)
  | backOff retryAt => exact noOverlap_iff.mpr hNone
  | complete run r hRun hOpen => exact hSafe.settle
  | fail run r hRun hOpen => exact hSafe.settle
  | crash run r hRun hOpen => exact hSafe.settle

/- A step that does not meet it leaves a tick that may start
a busy connector. -/
theorem timely_of_noOverlap
    {a : ScheduleLabel}
    (hStep : ScheduleStep l s a t) (hSafe : NoOverlap l t) :
    Timely l ⟨s, a, t⟩ := by
  rw [noOverlap_iff] at hSafe
  cases hStep with
  | read tick now hTimed =>
      intro taken hTaken hBusy
      rw [show s.ticks tick = _ from hTaken] at hTimed
      cases hTimed
      have hFalse := hSafe hBusy tick s.row now (by simp)
        (by simp)
      rw [← Bool.not_eq_true, passes_iff, not_not] at hFalse
      exact hFalse
  | start tick row now hRead hPasses =>
      intro hLimit other row' now' hOther hHolding
      have hBusy : ((s.begin true).setTick tick none).Busy l :=
        begin_busy hLimit
      refine hSafe hBusy other row' now' (by simp) ?_
      rw [setTick_ticks,
        Function.update_of_ne (by simpa using hOther)]
      exact hHolding
  | manual =>
      intro hLimit
      exact hSafe (begin_busy hLimit)
  | wait | tick | pass | backOff | complete | fail | crash =>
      trivial

/- At rest no tick may start the connector. -/
theorem noOverlap_of_resting
    (hRest : s.Resting) :
    NoOverlap l s := by
  rw [noOverlap_iff]
  intro _ other row now _ hRead
  rw [hRest.1 other] at hRead
  cases hRead

/- Over every run of the scheduler, with any times and any
lengths of the syncs: no state it reaches lets a tick start
the connector while a run of it is under way that began
less than the limit ago, exactly when every step meets the
condition. -/
theorem no_overlap_iff
    {trace : List (Transition Schedule ScheduleLabel)}
    (hRest : s.Resting)
    (hRun : Run (ScheduleStep l) s trace t) :
    (∀ e ∈ trace, NoOverlap l e.post) ↔
      ∀ e ∈ trace, Timely l e :=
  Run.forall_post_iff
    (fun _ hSafe => hSafe)
    (fun _ _ _ hSafe hStep hTimely =>
      hSafe.step hStep hTimely)
    (fun _ _ _ _ hStep hPost =>
      timely_of_noOverlap hStep hPost)
    hRun (noOverlap_of_resting hRest)

end

---- The First Sync Of A Connector

/- A feed that was synchronised an hour ago, and one that
never was. -/
def oldFeed : Connector :=
  ⟨lit "threatorbit", true, 0, 60, .ok, some 0, none⟩

def newFeed : Connector :=
  ⟨lit "threatorbit", true, 0, 60, .idle, none, none⟩

def restWith (c : Connector) (clock : Int) : Schedule :=
  ⟨clock, c, [], fun _ => none⟩

theorem restWith_resting
    {c : Connector} {clock : Int} :
    (restWith c clock).Resting := by
  constructor
  · intro tick
    rfl
  · simp [restWith]

def dueAt : Int := 3600000000

/- One tick synchronises the old feed. -/
def oldRest : Schedule := restWith oldFeed dueAt

def oldTimed : Schedule :=
  oldRest.setTick 0 (some (.timed dueAt))

def oldHeld : Schedule :=
  oldTimed.setTick 0 (some (.holding oldFeed dueAt))

def oldBegun : Schedule :=
  (oldHeld.begin true).setTick 0 none

def oldTrace : List (Transition Schedule ScheduleLabel) :=
  [⟨oldRest, .tick 0, oldTimed⟩, ⟨oldTimed, .read 0, oldHeld⟩,
    ⟨oldHeld, .start 0, oldBegun⟩]

theorem oldRun :
    Run (ScheduleStep Limits.default)
      oldRest oldTrace oldBegun := by
  refine .cons (.tick _ 0 rfl) (.cons (.read _ 0 dueAt ?_)
    (.cons (.start _ 0 oldFeed dueAt ?_ (by decide))
      (.nil _)))
  · simp [oldTimed]
  · simp [oldHeld]

theorem old_timely :
    ∀ e ∈ oldTrace, Timely Limits.default e := by
  simp only [oldTrace, List.forall_mem_cons,
    List.not_mem_nil, false_implies, implies_true, and_true]
  refine ⟨trivial, ?_, ?_⟩
  · rintro now - ⟨r, hMem, -⟩
    simp [oldTimed, oldRest, restWith] at hMem
  · intro _ other row now hOther hHolding
    have hSome : other ≠ 0 := by simpa using hOther
    simp [oldHeld, oldTimed, oldRest, restWith, hSome]
      at hHolding

/- A tick may run a feed that rests and is due. -/
theorem oldFeed_no_overlap :
    NoOverlap Limits.default oldHeld :=
  (no_overlap_iff restWith_resting oldRun).mpr old_timely
    ⟨oldTimed, .read 0, oldHeld⟩ (by simp [oldTrace])

/- The first sync of the new feed is begun by hand, and a
minute later a tick comes by. -/
def newRest : Schedule := restWith newFeed 0

def newBegun : Schedule := newRest.begin false

def newLater : Schedule := { newBegun with clock := 60000000 }

def newTimed : Schedule :=
  newLater.setTick 0 (some (.timed 60000000))

def newHeld : Schedule :=
  newTimed.setTick 0 (some (.holding newLater.row 60000000))

def newTwice : Schedule :=
  (newHeld.begin true).setTick 0 none

def okAt (c : Connector) (clock : Int) : Connector :=
  { c with status := .ok, lastRun := some (stampOf clock) }

def newFirst : Schedule :=
  newTwice.settle 0 ⟨0, false, false⟩
    (okAt newTwice.row 60000000)

def newLast : Schedule :=
  newFirst.settle 1 ⟨60000000, true, false⟩
    (okAt newFirst.row 60000000)

def newTrace : List (Transition Schedule ScheduleLabel) :=
  [⟨newRest, .manual, newBegun⟩,
    ⟨newBegun, .wait 60000000, newLater⟩,
    ⟨newLater, .tick 0, newTimed⟩, ⟨newTimed, .read 0, newHeld⟩,
    ⟨newHeld, .start 0, newTwice⟩,
    ⟨newTwice, .complete 0, newFirst⟩,
    ⟨newFirst, .complete 1, newLast⟩]

theorem newRun :
    Run (ScheduleStep Limits.default)
      newRest newTrace newLast := by
  refine .cons (.manual _) (.cons (.wait _ 60000000)
    (.cons (.tick _ 0 rfl) (.cons (.read _ 0 60000000 ?_)
    (.cons (.start _ 0 newLater.row 60000000 ?_ (by decide))
    (.cons (.complete _ 0 ⟨0, false, false⟩ (by decide) rfl)
    (.cons
      (.complete _ 1 ⟨60000000, true, false⟩ (by decide) rfl)
      (.nil _)))))))
  · simp [newTimed]
  · simp [newHeld]

theorem newBrief :
    ∀ e ∈ newTrace, Brief Limits.default e.post := by
  simp only [newTrace, List.forall_mem_cons,
    List.not_mem_nil, false_implies, implies_true, and_true]
  unfold Brief
  decide

/- The row of a connector that runs for the first time shows
no completion, so a tick takes the run for dead. -/
theorem first_sync_overlaps :
    newRest.Resting ∧
      Run (ScheduleStep Limits.default)
        newRest newTrace newLast ∧
      (∀ e ∈ newTrace, Brief Limits.default e.post) ∧
      (∀ r ∈ newLast.runs, r.finished = true) ∧
      ∃ e ∈ newTrace, ∃ tick, e.label = .start tick ∧
        e.pre.Busy Limits.default := by
  refine ⟨restWith_resting, newRun, newBrief, by decide,
    ⟨newHeld, .start 0, newTwice⟩, by simp [newTrace], 0,
    rfl, ⟨0, false, false⟩, ?_, rfl, by decide⟩
  decide

end ThreatOrbit.Connectors
