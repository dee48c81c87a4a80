import ThreatOrbit.Lib.Ip
import ThreatOrbit.Lib.Regex

/-
  The detection rule engine.

  A rule is a query over events: conditions joined by one
  logic, and optionally an aggregation that turns the
  matching events of a group, once there are enough of them
  inside the window, into one match.
-/

---- Fields

namespace ThreatOrbit

namespace Detection

open Lib

def fields : List Str :=
  [lit "event_type", lit "category", lit "src_ip",
    lit "dest_ip", lit "dest_port", lit "username",
    lit "hostname", lit "dest_host", lit "url",
    lit "process_name", lit "action", lit "country",
    lit "bytes_out", lit "severity_hint",
    lit "mitre_tech_id", lit "raw"]

/- Elastic Common Schema names of the native fields. -/
def ecsAliases : List (Str × Str) :=
  [(lit "source.ip", lit "src_ip"),
    (lit "source.address", lit "src_ip"),
    (lit "client.ip", lit "src_ip"),
    (lit "destination.ip", lit "dest_ip"),
    (lit "server.ip", lit "dest_ip"),
    (lit "destination.port", lit "dest_port"),
    (lit "user.name", lit "username"),
    (lit "user.id", lit "username"),
    (lit "host.name", lit "hostname"),
    (lit "host.hostname", lit "hostname"),
    (lit "observer.hostname", lit "hostname"),
    (lit "destination.domain", lit "dest_host"),
    (lit "dns.question.name", lit "dest_host"),
    (lit "url.domain", lit "dest_host"),
    (lit "server.domain", lit "dest_host"),
    (lit "tls.client.server_name", lit "dest_host"),
    (lit "url.full", lit "url"),
    (lit "url.original", lit "url"),
    (lit "process.name", lit "process_name"),
    (lit "process.executable", lit "process_name"),
    (lit "event.action", lit "action"),
    (lit "event.category", lit "category"),
    (lit "event.type", lit "event_type"),
    (lit "event.kind", lit "event_type"),
    (lit "network.bytes", lit "bytes_out"),
    (lit "source.bytes", lit "bytes_out"),
    (lit "destination.bytes", lit "bytes_out"),
    (lit "source.geo.country_name", lit "country"),
    (lit "threat.technique.id", lit "mitre_tech_id"),
    (lit "message", lit "raw"),
    (lit "event.original", lit "raw")]

/- An alias becomes its native field. -/
def canonicalField (field : Str) : Str :=
  (lookup field ecsAliases).getD field

/- A row of `events` as the rules read it: `ts`, which every
row has as a text, and the other columns by name. -/
structure Event where
  ts : Str
  columns : List (Str × SqlVal)
deriving DecidableEq

/- `event.get(field)`. -/
def Event.get (e : Event) (field : Str) : PyVal :=
  if field = lit "ts" then
    .str e.ts
  else
    ((lookup field e.columns).map SqlVal.value).getD .none

/- `event.get(canonical_field(field))`. -/
def Event.actual (e : Event) : Option Str → PyVal
| some field => e.get (canonicalField field)
| none => .none

/- `a or b` on values. -/
def orVal (a b : PyVal) : PyVal :=
  if truthy a then a else b

---- Conditions

/- The operators, and any other text in their place. -/
inductive Op where
| equals
| notEquals
| contains
| isIn
| gt
| lt
| gte
| lte
| regex
| cidr
| other (name : Str)
deriving DecidableEq, Repr

namespace Op

/- The operators that compare numbers. -/
def numeric : Op → Bool
| .gt | .lt | .gte | .lte => true
| _ => false

end Op

/- `{"field": …, "op": …, "value": …}`, keys missing or not. -/
structure Condition where
  field : Option Str
  op : Option Op
  value : PyVal

/- A threshold over a window, per group. -/
structure Aggregation where
  groupBy : Option Str
  threshold : PyVal
  windowMinutes : PyVal

structure Definition where
  conditions : List Condition
  logic : Option Str
  aggregation : Option Aggregation

/- `float(v)`, `none` on a value that is no number. -/
def coerceNum : PyVal → Except PyError (Option Float)
| .bool b => .ok (some (if b then 1.0 else 0.0))
| .int n =>
    (floatOfInt n).elim (.error .overflowError)
      (fun x => .ok (some x))
| .float x => .ok (some x)
| .str s => .ok (readFloat s)
| .none | .list _ | .dict _ => .ok none

theorem coerceNum_int (n : Int) :
    coerceNum (.int n) =
      (floatOfInt n).elim (.error .overflowError)
        (fun x => .ok (some x)) :=
  rfl

/- `_REGEX_MAX_PATTERN`. -/
def regexMaxPattern : Nat := 512

/- `_REGEX_INPUT_CAP`. -/
def regexInputCap : Nat := 8192

/- A character that is no parenthesis. -/
def notParen : Regex :=
  .cls fun c => c != cp '(' && c != cp ')'

/- `+` or `*`. -/
def quantifier : Regex :=
  .cls fun c => c == cp '+' || c == cp '*'

/- A group whose body holds a quantifier. -/
def quantifiedGroup : Regex :=
  .cat [.chr '(', .star true notParen, quantifier,
    .star true notParen, .chr ')', .star true (.cls isSpace)]

/- `_NESTED_QUANT`. -/
def nestedQuant : Regex :=
  .alt (.seq quantifiedGroup quantifier)
    (.seq quantifiedGroup
      (.seq (.cls (· == 123)) (.cls Regex.isDecimal)))

variable [Unicode] [RegexEngine]

def isSafeRegex (pattern : Str) : Bool :=
  if regexMaxPattern < pattern.length then false
  else if nestedQuant.found pattern then false
  else RegexEngine.compiles pattern

/- The options of an `in` condition. -/
def inOptions : PyVal → List Str
| .list items => items.map pyStr
| v => (splitOn (cp ',') (pyStr v)).map strip

/- `{"gt": a > e, …}[op]`. -/
def compareNum (op : Op) (a e : Float) : Bool :=
  match op with
  | .gt => e < a
  | .lt => a < e
  | .gte => e ≤ a
  | .lte => a ≤ e
  | _ => false

def matchCondition
    (event : Event)
    (cond : Condition) : Except PyError Bool :=
  let actual := event.actual cond.field
  let expected := cond.value
  let present :=
    match actual with
    | .none => false
    | _ => true
  match cond.op with
  | some .equals => .ok (pyStr actual == pyStr expected)
  | some .notEquals => .ok (pyStr actual != pyStr expected)
  | some .contains =>
      .ok (present &&
        Lib.contains (Unicode.lower (pyStr expected))
          (Unicode.lower (pyStr actual)))
  | some .isIn =>
      .ok ((inOptions expected).contains (pyStr actual))
  | some .regex =>
      let pat := pyStr expected
      .ok (isSafeRegex pat && present &&
        RegexEngine.search pat
          ((pyStr actual).take regexInputCap))
  | some .cidr =>
      .ok (present &&
        match ipAddress (pyStr actual),
          ipNetwork (pyStr expected) with
        | some ip, some net => net.contains ip
        | _, _ => false)
  | some op =>
      if op.numeric then do
        let a ← coerceNum actual
        let e ← coerceNum expected
        match a, e with
        | some a, some e => .ok (compareNum op a e)
        | _, _ => .ok false
      else
        .ok false
  | none => .ok false

/- `[_match_condition(event, c) for c in conds]`. -/
def matchConditions
    (event : Event) :
    List Condition → Except PyError (List Bool)
| [] => .ok []
| c :: rest => do
    let hit ← matchCondition event c
    let more ← matchConditions event rest
    .ok (hit :: more)

/- `(definition.get("logic") or "and").lower()`. -/
def Definition.logicWord (d : Definition) : Str :=
  Unicode.lower (orStr d.logic (lit "and"))

def matchesEvent
    (event : Event)
    (d : Definition) : Except PyError Bool :=
  if d.conditions.isEmpty then
    .ok false
  else do
    let results ← matchConditions event d.conditions
    .ok (if d.logicWord = lit "and" then results.all id
      else results.any id)

end Detection

end ThreatOrbit

---- Evaluation

namespace ThreatOrbit

namespace Detection

open Lib

variable [Unicode] [RegexEngine] [IsoDates]

/- One match of a rule. Each becomes one alert. -/
structure Match where
  entity : PyVal
  count : Nat
  event : Event

/- The events of a batch that match the conditions. -/
def matching
    (d : Definition) :
    List Event → Except PyError (List Event)
| [] => .ok []
| e :: rest => do
    let hit ← matchesEvent e d
    let more ← matching d rest
    .ok (if hit then e :: more else more)

/- The entity of a match of one event. -/
def eventEntity (e : Event) : PyVal :=
  orVal (e.get (lit "src_ip"))
    (orVal (e.get (lit "hostname"))
      (orVal (e.get (lit "username")) (.str (lit "-"))))

/- The longest `timedelta`, in days. -/
def maxDays : Int := 999999999

/- `timedelta(minutes=n)`, in microseconds. -/
def timedeltaMinutes (n : Int) : Except PyError Int :=
  if n / 1440 ≤ maxDays ∧ -maxDays ≤ n / 1440 then
    .ok (n * 60000000)
  else
    .error .overflowError

/- `int(x)` of a double, with the exceptions it raises. -/
def intOfFloat (x : Float) : Except PyError Int :=
  match truncFloat x with
  | some n => .ok n
  | none =>
      if x.isNaN then .error .valueError
      else .error .overflowError

/- The window of an aggregation, 60 minutes by default. -/
def Aggregation.window
    (agg : Aggregation) : Except PyError Int := do
  let windowMin ← coerceNum agg.windowMinutes
  match windowMin with
  | some x =>
      if 0 < x then do
        let minutes ← intOfFloat x
        timedeltaMinutes minutes
      else
        timedeltaMinutes 60
  | none => timedeltaMinutes 60

/- The field the groups are formed by. -/
def Aggregation.groupField (agg : Aggregation) : Str :=
  orStr agg.groupBy (lit "src_ip")

/- The group an event belongs to. -/
def groupKey (groupBy : Str) (e : Event) : Str :=
  pyStr (orVal (e.get groupBy) (.str (lit "-")))

/- `groups.setdefault(key, []).append(e)`. -/
def addToGroup
    (key : Str)
    (e : Event) :
    List (Str × List Event) → List (Str × List Event)
| [] => [(key, [e])]
| (k, evs) :: rest =>
    if k = key then (k, evs ++ [e]) :: rest
    else (k, evs) :: addToGroup key e rest

/- The events inside the window, group by group. -/
def groupEvents
    (groupBy : Str)
    (now window : Int) :
    List (Str × List Event) → List Event →
      List (Str × List Event)
| groups, [] => groups
| groups, e :: rest =>
    match IsoDates.fromIso e.ts with
    | none => groupEvents groupBy now window groups rest
    | some ts =>
        if window < now - ts then
          groupEvents groupBy now window groups rest
        else
          groupEvents groupBy now window
            (addToGroup (groupKey groupBy e) e groups) rest

/- The groups that reach the threshold. -/
def reached
    (threshold : Int)
    (groups : List (Str × List Event)) : List Match :=
  groups.filterMap fun g =>
    if threshold ≤ (g.2.length : Int) then
      g.2.getLast?.map fun last => ⟨.str g.1, g.2.length, last⟩
    else none

/- The threshold and the window of an aggregation. A broken
threshold yields `none`: the rule fires nothing. -/
def Aggregation.limits
    (agg : Aggregation) :
    Except PyError (Option (Int × Int)) := do
  match ← coerceNum agg.threshold with
  | none => .ok none
  | some threshold =>
      if threshold < 1 then
        .ok none
      else do
        let threshold ← intOfFloat threshold
        let window ← agg.window
        .ok (some (threshold, window))

/- The aggregated part of `evaluate`. -/
def evaluateGroups
    (agg : Aggregation)
    (now : Int)
    (found : List Event) : Except PyError (List Match) := do
  match ← agg.limits with
  | none => .ok []
  | some (threshold, window) =>
      .ok (reached threshold
        (groupEvents agg.groupField now window [] found))

/- `evaluate`: the matches of a rule over a batch. -/
def evaluate
    (d : Definition)
    (events : List Event)
    (now : Int) : Except PyError (List Match) := do
  let found ← matching d events
  if found = [] then
    .ok []
  else
    match d.aggregation with
    | none => .ok (found.map fun e => ⟨eventEntity e, 1, e⟩)
    | some agg =>
        if truthy agg.threshold then
          evaluateGroups agg now found
        else
          .ok (found.map fun e => ⟨eventEntity e, 1, e⟩)

end Detection

end ThreatOrbit
