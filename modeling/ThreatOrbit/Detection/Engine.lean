import ThreatOrbit.Detection.Rules

/-
  One detection pass over a claimed batch.

  Every enabled rule is evaluated over the batch; each match
  that no active suppression drops becomes one alert, in the
  workspace of the event that represents the match.
-/

---- Suppressions

namespace ThreatOrbit.Detection

open Lib

section

variable [IsoDates]

/- A row of `suppressions`. -/
structure Suppression where
  id : Str
  ruleId : Str
  field : Str
  value : Str
  expiresAt : Option Str
  windowStart : Option Str
  windowEnd : Option Str
deriving DecidableEq, Repr

/- A number with two digits. -/
def twoDigits (n : Nat) : Str :=
  [cp '0' + n / 10 % 10, cp '0' + n % 10]

/- `now.strftime("%H:%M")`. -/
def hhmm (now : Int) : Str :=
  let minutes := (now / 60000000 % 1440).toNat
  twoDigits (minutes / 60) ++ [cp ':'] ++
    twoDigits (minutes % 60)

/- Past its absolute expiry. -/
def Suppression.expired (s : Suppression) (now : Int) : Bool :=
  match orStr s.expiresAt [] with
  | [] => false
  | text =>
      match IsoDates.fromIso text with
      | some expiry => expiry ≤ now
      | none => false

def suppressionActive (s : Suppression) (now : Int) : Bool :=
  if s.expired now then
    false
  else
    match orStr s.windowStart [], orStr s.windowEnd [] with
    | [], _ => true
    | _, [] => true
    | start, stop =>
        if start ≤ stop then
          start ≤ hhmm now && hhmm now < stop
        else
          start ≤ hhmm now || hhmm now < stop

/- The value a suppression compares, `none` when absent. -/
def Suppression.covers
    [Unicode]
    (s : Suppression)
    (ruleId : Str)
    (event : Event) : Bool :=
  (s.ruleId = lit "*" || s.ruleId = ruleId) &&
    match event.get s.field with
    | .none => false
    | v => pyStr v == s.value

/- `_suppressed`: the first suppression that applies. -/
def suppressedBy
    [Unicode]
    (suppressions : List Suppression)
    (ruleId : Str)
    (event : Event) : Option Str :=
  (suppressions.find? (fun s => s.covers ruleId event)).map
    Suppression.id

end

---- Rules And Alerts

section

/- A row of `detection_rules`, its definition parsed. -/
structure RuleRow where
  id : Str
  name : Str
  severity : Str
  severityOverride : Option Str
  mitreTechId : Option Str
  mitreTech : Option Str
  mitreTactic : Option Str
  mitreTacticId : Option Str
  definition : Definition

/- The `detection_rules` table. Ids are a primary key. -/
structure RuleTable where
  rows : List RuleRow
  nodup : (rows.map RuleRow.id).Nodup

/- The columns of an alert the detection pass fills in. -/
structure AlertRow where
  title : Str
  severity : Str
  risk : Nat
  ruleName : Str
  srcIp : PyVal
  username : PyVal
  hostname : PyVal
  srcCountry : PyVal
  mitreTechId : Option Str
  mitreTech : Option Str
  mitreTactic : Option Str
  mitreTacticId : Option Str
  description : Str
  rawLog : PyVal
  eventCount : Nat
  orgId : PyVal

/- A piece of a title template. -/
inductive Piece where
| text (s : Str)
| field (name : Str)
deriving DecidableEq, Repr

/- `title_tmpl` of the built-in rules, by rule id. -/
def titleTemplates : List (Str × List Piece) :=
  [(lit "R-BRUTEFORCE",
      [.text (lit "Brute-force authentication against "),
        .field (lit "username"), .text (lit "@"),
        .field (lit "hostname")]),
    (lit "R-C2BEACON",
      [.text (lit "C2 beacon from "), .field (lit "hostname"),
        .text (lit " to "), .field (lit "dest_ip")]),
    (lit "R-MALPROC",
      [.text (lit "Malware execution on "),
        .field (lit "hostname")]),
    (lit "R-WEBATTACK",
      [.text (lit "Web attack ("), .field (lit "action"),
        .text (lit ") on "), .field (lit "hostname")]),
    (lit "R-EXFIL",
      [.text (lit "Possible data exfiltration from "),
        .field (lit "hostname")]),
    (lit "R-PHISH",
      [.text (lit "Phishing link clicked by "),
        .field (lit "username")]),
    (lit "R-PRIVESC",
      [.text (lit "Privilege escalation by "),
        .field (lit "username"), .text (lit " on "),
        .field (lit "hostname")]),
    (lit "R-RANSOMWARE",
      [.text (lit "Ransomware encryption on "),
        .field (lit "hostname"), .text (lit " ("),
        .field (lit "username"), .text (lit ")")]),
    (lit "R-SHADOWDEL",
      [.text (lit "Shadow copies deleted on "),
        .field (lit "hostname")]),
    (lit "R-KERBEROAST",
      [.text (lit "Kerberoasting by "),
        .field (lit "username"), .text (lit " on "),
        .field (lit "hostname")]),
    (lit "R-DNSTUNNEL",
      [.text (lit "DNS tunneling from "),
        .field (lit "hostname"), .text (lit " ("),
        .field (lit "src_ip"), .text (lit ")")]),
    (lit "R-PWSPRAY",
      [.text (lit "Password spraying from "),
        .field (lit "src_ip")]),
    (lit "R-IMPOSSIBLE",
      [.text (lit "Impossible-travel login: "),
        .field (lit "username"), .text (lit " from "),
        .field (lit "country")]),
    (lit "R-CLOUDKEY",
      [.text (lit "Cloud access key created by "),
        .field (lit "username")]),
    (lit "R-TOOLXFER",
      [.text (lit "Ingress tool transfer on "),
        .field (lit "hostname")])]

/- The fields a title may name. -/
def titleFields : List Str :=
  [lit "username", lit "hostname", lit "dest_ip",
    lit "src_ip", lit "action"]

/- `_RISK`, with its default. -/
def riskOf (severity : Str) : Nat :=
  (lookup severity
    [(lit "critical", 92), (lit "high", 76),
      (lit "medium", 52), (lit "low", 28),
      (lit "info", 12)]).getD 50

variable [Unicode]

/- `ev.get(key, default)`. -/
def Event.getOr
    (e : Event)
    (field default : Str) : PyVal :=
  if field = lit "ts" then
    .str e.ts
  else
    ((lookup field e.columns).map SqlVal.value).getD
      (.str default)

/- One piece of a title, `none` on a `KeyError`. -/
def Piece.format (e : Event) : Piece → Option Str
| .text s => some s
| .field name =>
    if titleFields.contains name then
      some (pyStr (e.getOr name (lit "-")))
    else
      none

/- `tmpl.format(…)`. -/
def formatTitle (e : Event) (pieces : List Piece) :
    Option Str :=
  (pieces.mapM (Piece.format e)).map List.flatten

/- The workspace an event belongs to. -/
def Event.org (e : Event) : PyVal :=
  orVal (e.get (lit "org_id")) (.str (lit "org-default"))

/- The title of the alert of a match. -/
def RuleRow.title (rule : RuleRow) (m : Match) : Str :=
  match lookup rule.id titleTemplates with
  | some pieces =>
      (formatTitle m.event pieces).getD rule.name
  | none => rule.name ++ [32, 183, 32] ++ pyStr m.entity

/- The alert of a match. -/
def RuleRow.alert (rule : RuleRow) (m : Match) : AlertRow :=
  let severity := orStr rule.severityOverride rule.severity
  { title := rule.title m
    severity := severity
    risk := riskOf severity
    ruleName := rule.name
    srcIp := m.event.get (lit "src_ip")
    username := m.event.get (lit "username")
    hostname := m.event.get (lit "hostname")
    srcCountry := m.event.get (lit "country")
    mitreTechId := rule.mitreTechId
    mitreTech := rule.mitreTech
    mitreTactic := rule.mitreTactic
    mitreTacticId := rule.mitreTacticId
    description :=
      lit "Rule '" ++ rule.name ++ lit "' matched. " ++
        pyStr (m.event.getOr (lit "raw") [])
    rawLog := m.event.get (lit "raw")
    eventCount := m.count
    orgId := m.event.org }

end

---- The Detection Pass

variable [Unicode] [RegexEngine] [IsoDates]

/- A match a rule raised, and the alert it became. -/
structure Raised where
  rule : RuleRow
  found : Match

/- The alert row of a raised match. -/
def Raised.alert (r : Raised) : AlertRow :=
  r.rule.alert r.found

/- What a pass did. -/
structure PassResult where
  raised : List Raised
  events : Nat
  rules : Nat
  suppressed : Nat
  firedRuleIds : List Str
  suppressionHits : List Str

/- The alerts a pass inserts, in order. -/
def PassResult.alerts (p : PassResult) : List AlertRow :=
  p.raised.map Raised.alert

/- The matches of a rule; one that fails is skipped. -/
def RuleRow.matches
    (rule : RuleRow)
    (events : List Event)
    (now : Int) : List Match :=
  match evaluate rule.definition events now with
  | .ok found => found
  | .error _ => []

/- The suppression that drops a match of an event. -/
def RuleRow.droppedBy
    (rule : RuleRow)
    (suppressions : List Suppression)
    (e : Event) : Option Str :=
  (suppressedBy suppressions rule.id e).filter (· != [])

/- The matches of a rule that become alerts. -/
def RuleRow.raises
    (rule : RuleRow)
    (suppressions : List Suppression)
    (events : List Event)
    (now : Int) : List Match :=
  (rule.matches events now).filter fun m =>
    (rule.droppedBy suppressions m.event).isNone

/- The suppressions that drop matches of a rule. -/
def RuleRow.drops
    (rule : RuleRow)
    (suppressions : List Suppression)
    (events : List Event)
    (now : Int) : List Str :=
  (rule.matches events now).filterMap fun m =>
    rule.droppedBy suppressions m.event

/- `run_detection` over a claimed batch. `clock` is the time
read when a rule is evaluated, and `started` the time the
suppressions are read. -/
def runDetection
    (rows : List RuleRow)
    (table : List Suppression)
    (started : Int)
    (clock : RuleRow → Int)
    (events : List Event) : PassResult :=
  let rules := rows.filter fun r =>
    !r.definition.conditions.isEmpty
  let suppressions := table.filter fun s =>
    suppressionActive s started
  let hits := rules.flatMap fun r =>
    r.drops suppressions events (clock r)
  { raised := rules.flatMap fun r =>
      (r.raises suppressions events (clock r)).map (⟨r, ·⟩)
    events := events.length
    rules := rules.length
    suppressed := hits.length
    firedRuleIds :=
      ((rules.filter fun r =>
        !(r.raises suppressions events (clock r)).isEmpty).map
        RuleRow.id).insertionSort (· ≤ ·)
    suppressionHits := hits.insertionSort (· ≤ ·) }

end ThreatOrbit.Detection
