import ThreatOrbit.Cases.Handoffs
import ThreatOrbit.Lib.Iso

/-
  The deadline of a case and its hand-offs.

  A hand-off writes the hours of the tier it goes to; the clock
  that the deadline is counted on starts at the creation of the
  case and is not started again.
-/

---- Deadlines

namespace ThreatOrbit.Cases

open Lib

/- A `datetime`: microseconds of its clock since the start of
year 1, and its offset in microseconds if it has one. -/
structure Stamp where
  clock : Int
  offset : Option Int
deriving DecidableEq, Repr

/- The moment of a clock, taken as UTC where it has no offset. -/
def Stamp.instant (m : Stamp) : Int :=
  m.clock - m.offset.getD 0

/- `datetime.fromisoformat`, which gives nothing where it raises,
`isoformat`, and how far a time is along the hours of an SLA, in
per cent, up to 999. -/
structure SlaLibs where
  fromisoformat : Str → Option Stamp
  isoformat : Stamp → Str
  elapsedPct : Int → Int → Int

structure SlaCase where
  created : Str
  slaHours : Int
  status : Str
  updated : Str
deriving DecidableEq, Repr

inductive SlaStatus where
| unknown
| within
| atRisk
| breached
| met
deriving DecidableEq, Repr

structure SlaView where
  deadline : Option Str
  status : SlaStatus
  elapsedPct : Int
deriving DecidableEq, Repr

/- A text with `Z` for UTC, read. -/
def readStamp (libs : SlaLibs) (text : Str) : Option Stamp :=
  (libs.fromisoformat
    (replaceAll (lit "Z") (lit "+00:00") text)).map fun m =>
      if m.offset = none then { m with offset := some 0 } else m

/- `case.get("sla_hours") or 24`. -/
def hoursOr (hours : Int) : Int :=
  if hours = 0 then 24 else hours

/- `created + timedelta(hours=hours)`; past the calendar it
raises. -/
def Stamp.plusHours (m : Stamp) (hours : Int) : Option Stamp :=
  let clock := m.clock + hours * 3600000000
  if 0 ≤ clock ∧ clock < (calendarDays : Int) * 86400000000 then
    some { m with clock := clock }
  else none

def SlaCase.closed (c : SlaCase) : Bool :=
  c.status = lit "resolved" || c.status = lit "closed"

/- `_sla` at a time; it raises where the deadline is past the
calendar. -/
def sla
    (libs : SlaLibs)
    (c : SlaCase)
    (now : Int) : Option SlaView :=
  match readStamp libs c.created with
  | none => some ⟨none, .unknown, 0⟩
  | some created =>
      match created.plusHours (hoursOr c.slaHours) with
      | none => none
      | some deadline =>
          let ref :=
            if c.closed && c.updated != [] then
              ((readStamp libs c.updated).map Stamp.instant).getD now
            else now
          let pct :=
            libs.elapsedPct (ref - created.instant)
              (hoursOr c.slaHours)
          let status :=
            if c.closed then
              if ref ≤ deadline.instant then .met else .breached
            else if deadline.instant < ref then .breached
            else if 75 ≤ pct then .atRisk
            else .within
          some
            ⟨some (libs.isoformat
              { deadline with
                clock :=
                  deadline.clock - deadline.clock % 1000000 }),
              status, max 0 pct⟩

---- Hand-Offs on a Clock

/- The last hand-off that changed the tier. -/
def lastChange (history : List Handoff) : Option Handoff :=
  (history.filter fun h => h.fromTier != h.toTier).getLast?

/- When the clock of a case is to start: at the last hand-off that
changed the tier, or else at its creation. -/
def startOf
    (libs : SlaLibs)
    (created : Stamp)
    (history : List Handoff) : Int :=
  (((lastChange history).bind fun h =>
    readStamp libs h.ts).getD created).instant

section

variable [Unicode] {libs : SlaLibs}

end

---- An Ageing Case

local instance deadlineUnicode : Unicode := asciiTables

end ThreatOrbit.Cases
