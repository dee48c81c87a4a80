import ThreatOrbit.Detection.Rules

/-
  Sigma rules, vendor-neutral detection content, as they are
  imported to a definition and exported from one.

  A document is what the YAML loader yields, or what the
  dumper is given: a value. The selections a condition names
  become one list of conditions under one logic.
-/

---- Tables

namespace ThreatOrbit.Detection

open Lib

section

/- `_SEVERITY`. -/
def sigmaSeverity : List (Str × Str) :=
  [(lit "critical", lit "critical"), (lit "high", lit "high"),
    (lit "medium", lit "medium"), (lit "low", lit "low"),
    (lit "informational", lit "info"), (lit "info", lit "info")]

/- `SIGMA_FIELD_MAP`. -/
def sigmaFieldMap : List (Str × Str) :=
  [(lit "sourceip", lit "src_ip"),
    (lit "source_ip", lit "src_ip"),
    (lit "src-ip", lit "src_ip"),
    (lit "c-ip", lit "src_ip"),
    (lit "clientip", lit "src_ip"),
    (lit "ipaddress", lit "src_ip"),
    (lit "remote_ip", lit "src_ip"),
    (lit "destinationip", lit "dest_ip"),
    (lit "dst_ip", lit "dest_ip"),
    (lit "dst-ip", lit "dest_ip"),
    (lit "destinationport", lit "dest_port"),
    (lit "dst_port", lit "dest_port"),
    (lit "destport", lit "dest_port"),
    (lit "targetusername", lit "username"),
    (lit "user", lit "username"),
    (lit "username", lit "username"),
    (lit "subjectusername", lit "username"),
    (lit "accountname", lit "username"),
    (lit "computername", lit "hostname"),
    (lit "computer", lit "hostname"),
    (lit "host", lit "hostname"),
    (lit "workstationname", lit "hostname"),
    (lit "image", lit "process_name"),
    (lit "processname", lit "process_name"),
    (lit "originalfilename", lit "process_name"),
    (lit "parentimage", lit "process_name"),
    (lit "commandline", lit "raw"),
    (lit "message", lit "raw"),
    (lit "payload", lit "raw"),
    (lit "url", lit "raw"),
    (lit "cs-uri-query", lit "raw"),
    (lit "uri", lit "raw"),
    (lit "useragent", lit "raw"),
    (lit "eventtype", lit "event_type"),
    (lit "event_type", lit "event_type"),
    (lit "action", lit "action"),
    (lit "category", lit "category"),
    (lit "country", lit "country"),
    (lit "bytes", lit "bytes_out"),
    (lit "bytes_out", lit "bytes_out"),
    (lit "sentbytes", lit "bytes_out")]

/- `_TACTIC_TAGS`: the name and the id of a tactic. -/
def tacticTags : List (Str × (Str × Str)) :=
  [(lit "initial_access",
      (lit "Initial Access", lit "TA0001")),
    (lit "execution", (lit "Execution", lit "TA0002")),
    (lit "persistence", (lit "Persistence", lit "TA0003")),
    (lit "privilege_escalation",
      (lit "Privilege Escalation", lit "TA0004")),
    (lit "defense_evasion",
      (lit "Defense Evasion", lit "TA0005")),
    (lit "credential_access",
      (lit "Credential Access", lit "TA0006")),
    (lit "discovery", (lit "Discovery", lit "TA0007")),
    (lit "lateral_movement",
      (lit "Lateral Movement", lit "TA0008")),
    (lit "collection", (lit "Collection", lit "TA0009")),
    (lit "exfiltration", (lit "Exfiltration", lit "TA0010")),
    (lit "command_and_control",
      (lit "Command and Control", lit "TA0011")),
    (lit "impact", (lit "Impact", lit "TA0040"))]

/- `_MOD_OPS`. -/
def modOps : List (Str × Op) :=
  [(lit "contains", .contains), (lit "re", .regex),
    (lit "gt", .gt), (lit "gte", .gte), (lit "lt", .lt),
    (lit "lte", .lte), (lit "cidr", .cidr)]

variable [Unicode]

def resolveField (name : Str) : Option Str :=
  if fields.contains name then
    some name
  else
    let ecs := canonicalField name
    if fields.contains ecs then
      some ecs
    else
      lookup ((Unicode.lower name).filter (· != cp ' '))
        sigmaFieldMap

end

---- Selections

section

variable [Unicode]

/- What a modifier makes of the operator and the value. -/
def applyModifier
    (state : Op × PyVal)
    (modifier : Str) : Op × PyVal :=
  match lookup modifier modOps with
  | some op => (op, state.2)
  | none =>
      if modifier = lit "startswith" then
        (.regex, .str (cp '^' :: reEscape (pyStr state.2)))
      else if modifier = lit "endswith" then
        (.regex, .str (reEscape (pyStr state.2) ++ [cp '$']))
      else
        state

/- Conditions, and the notes taken on the way. -/
structure Translated where
  conditions : List Condition
  notes : List Str

/- The note that a field is no field of an event. -/
def mappedToRaw (field rest : Str) : Str :=
  lit "field '" ++ field ++ lit "' mapped to raw" ++ rest

/- The conditions of an entry of a selection. -/
def conditionsOfEntry
    (rawKey : Str)
    (value : PyVal) : Translated :=
  let parts := splitOn (cp '|') rawKey
  let fieldName := parts.headD []
  let mods := parts.tail.map Unicode.lower
  let native := resolveField fieldName
  let field := native.getD (lit "raw")
  let (op, value) := mods.foldl applyModifier (.equals, value)
  let note (rest : Str) : List Str :=
    if native.isSome then [] else [mappedToRaw fieldName rest]
  match value with
  | .list items =>
      if (op == .equals || op == .contains) &&
          !mods.contains (lit "all") then
        ⟨[⟨some field, some .isIn,
            .str (joinWith [cp ','] (items.map pyStr))⟩],
          note []⟩
      else
        let op := if native.isSome then op else .contains
        ⟨items.map fun v =>
            ⟨some field, some op, .str (pyStr v)⟩,
          note (lit " contains")⟩
  | value =>
      if native.isSome then
        ⟨[⟨some field, some op, value⟩], []⟩
      else
        ⟨[⟨some field, some .contains, .str (pyStr value)⟩],
          note (lit " contains")⟩

def conditionsFromSelection
    (sel : List (Str × PyVal)) : Translated :=
  let entries := sel.map fun e => conditionsOfEntry e.1 e.2
  ⟨entries.flatMap Translated.conditions,
    entries.flatMap Translated.notes⟩

end

---- The Condition Of A Document

section

variable [Unicode]

/- `\s*`. -/
def spaces : Regex :=
  .star true (.cls isSpace)

/- `[\w.]+`. -/
def dottedName : Regex :=
  .plus (.cls fun c => Regex.isWord c || c == cp '.')

/- `[><]=?`. -/
def countOperator : Regex :=
  .seq (.cls fun c => c == cp '>' || c == cp '<')
    (.opt (.chr '='))

/- `(?:by\s+([\w.]+))?\s*([><]=?)\s*(\d+)`. -/
def aggTail : Regex :=
  .cat [.opt (.cat [.word "by", .plus (.cls isSpace),
      .group 1 dottedName]),
    spaces, .group 2 countOperator, spaces,
    .group 3 (.plus (.cls Regex.isDecimal))]

/- `_AGG_RE`. -/
def aggRe : Regex :=
  .cat [.chr '|', spaces, .word "count(", spaces, .chr ')',
    spaces, aggTail]

/- A word of the condition language. -/
def wholeWord (word : String) : Regex :=
  .cat [.wordBoundary, .word word, .wordBoundary]

/- `\bnot\b|\b1 of\b|\ball of\b|\(`. -/
def unsupportedRe : Regex :=
  .alt (wholeWord "not")
    (.alt (wholeWord "1 of")
      (.alt (wholeWord "all of") (.chr '(')))

/- `\s+(?:and|or)\s+`. -/
def joinRe : Regex :=
  .cat [.plus (.cls isSpace), .alt (.word "and") (.word "or"),
    .plus (.cls isSpace)]

/- What the import raises. -/
inductive SigmaError where
| valueError (message : Str)
| typeError
| attributeError
deriving DecidableEq, Repr

/- The parts of a condition. -/
structure ParsedCondition where
  names : List Str
  logic : Str
  aggregation : Option Aggregation

/- The aggregation of a condition, and what precedes it. -/
def parseAggregation
    (condition : Str) :
    Except SigmaError (Option Aggregation × Str) :=
  match aggRe.search condition with
  | none => .ok (none, condition)
  | some m =>
      let groupBy :=
        match m.group 1 with
        | none => some (lit "src_ip")
        | some [] => some (lit "src_ip")
        | some name => resolveField name
      match readInt ((m.group 3).getD []) with
      | none => .error (.valueError (lit "int"))
      | some threshold =>
          let before := condition.take
            (condition.length - m.start.after.length)
          .ok (some ⟨some (groupBy.getD (lit "src_ip")),
            .int threshold, .int 5⟩, strip before)

/- The message for a condition that is not supported. -/
def unsupportedCondition (condition : Str) : Str :=
  lit "unsupported Sigma condition: '" ++ condition ++
    lit "' (not / 1-of / all-of / grouping are not supported yet)"

/- The reading of a condition. -/
def parseCondition
    (text : Str) : Except SigmaError ParsedCondition := do
  let (aggregation, condition) ← parseAggregation text
  let low := Unicode.lower condition
  if unsupportedRe.found low then
    .error (.valueError (unsupportedCondition condition))
  else
    .ok
      { names :=
          ((joinRe.split condition).map strip).filter (· != [])
        logic :=
          if contains (lit " or ") low then lit "or"
          else lit "and"
        aggregation }

/- What the loop over the selections holds. -/
structure Collected where
  conditions : List Condition
  logic : Str
  notes : List Str

/- The note on a selection that is a list. -/
def evaluatedAsOr (name : Str) : Str :=
  lit "selection '" ++ name ++ lit "' is a list - evaluated as OR"

/- One selection of the condition. -/
def collectSelection
    (detection : List (Str × PyVal))
    (so : Collected)
    (name : Str) : Except SigmaError Collected :=
  match (lookup name detection).getD .none with
  | .none =>
      .error (.valueError
        (lit "condition references unknown selection '" ++
          name ++ lit "'"))
  | .list entries =>
      let parts := entries.filterMap fun entry =>
        match entry with
        | .dict sel => some (conditionsFromSelection sel)
        | _ => none
      let conditions :=
        so.conditions ++ parts.flatMap Translated.conditions
      let notes := so.notes ++ parts.flatMap Translated.notes
      if so.logic = lit "and" ∧ 1 < entries.length then
        .ok ⟨conditions, lit "or", notes ++ [evaluatedAsOr name]⟩
      else
        .ok ⟨conditions, so.logic, notes⟩
  | .dict sel =>
      let part := conditionsFromSelection sel
      .ok ⟨so.conditions ++ part.conditions, so.logic,
        so.notes ++ part.notes⟩
  | _ =>
      .error (.valueError
        (lit "selection '" ++ name ++ lit "' must be a mapping"))

/- The selections of the condition, one after another. -/
def collect
    (detection : List (Str × PyVal)) :
    Collected → List Str → Except SigmaError Collected
| so, [] => .ok so
| so, name :: rest => do
    let so ← collectSelection detection so name
    collect detection so rest

/- The text of a value, unless it is false. -/
def textOr (value : PyVal) (fallback : Str) : Str :=
  if truthy value then pyStr value else fallback

/- The definition of a detection block, and the notes. -/
def definitionOf
    (detection : List (Str × PyVal)) :
    Except SigmaError (Definition × List Str) := do
  let condition := strip (textOr
    ((lookup (lit "condition") detection).getD .none)
    (lit "selection"))
  let parsed ← parseCondition condition
  let found ←
    collect detection ⟨[], parsed.logic, []⟩ parsed.names
  if found.conditions.isEmpty then
    .error (.valueError
      (lit "no usable conditions in the detection block"))
  else
    .ok (⟨found.conditions, some found.logic,
      parsed.aggregation⟩, found.notes)

end

---- Import

section

/- The fields of a rule that Sigma carries. -/
structure SigmaRule where
  name : Option Str
  severity : Option Str
  description : Option Str
  definition : Definition
  mitreTechId : Option Str
  mitreTactic : Option Str
  mitreTacticId : Option Str
  category : Option Str
  tags : List Str
  notes : List Str

/- `sorted(set(notes))`. -/
def sortedSet (notes : List Str) : List Str :=
  notes.dedup.mergeSort fun a b => decide (a ≤ b)

/- `[str(t) for t in value]`. -/
def iterTexts [Unicode] :
    PyVal → Except SigmaError (List Str)
| .list items => .ok (items.map pyStr)
| .dict items => .ok (items.map Prod.fst)
| .str s => .ok (s.map fun c => [c])
| _ => .error .typeError

/- `value.get(key)`. -/
def getKey (key : Str) : PyVal → Except SigmaError PyVal
| .dict items => .ok ((lookup key items).getD .none)
| _ => .error .attributeError

/- A decimal digit. -/
def digit : Regex :=
  .cls Regex.isDecimal

/- `attack\.([ts]\d{4}(?:\.\d{3})?)`. -/
def techniqueTag : Regex :=
  .cat [.word "attack.",
    .group 1 (.cat [.cls fun c => c == cp 't' || c == cp 's',
      digit, digit, digit, digit,
      .opt (.cat [.chr '.', digit, digit, digit])])]

variable [Unicode]

/- The technique a tag names. -/
def techniqueOf (tag : Str) : Option Str :=
  match (techniqueTag.fullMatch (Unicode.lower tag)).bind
      (·.group 1) with
  | some (c :: rest) =>
      if c = cp 't' then some (cp 'T' :: rest) else none
  | _ => none

/- The tactic a tag names, and its id. -/
def tacticOf (tag : Str) : Option (Str × Str) :=
  let low := Unicode.lower tag
  let name :=
    if (lit "attack.").isPrefixOf low then low.drop 7 else low
  lookup name tacticTags

/- `sigma_to_rule`, of a document that is loaded. -/
def sigmaToRule (doc : PyVal) : Except SigmaError SigmaRule :=
  match doc with
  | .dict doc => do
      let get (key : String) : PyVal :=
        (lookup (lit key) doc).getD .none
      let title := strip (textOr (get "title") [])
      if title = [] then
        .error (.valueError (lit "Sigma rule needs a title"))
      else
        match get "detection" with
        | .dict detection => do
            let (definition, notes) ← definitionOf detection
            let tags ← iterTexts
              (if truthy (get "tags") then get "tags"
                else .list [])
            let notes := sortedSet notes
            let description := textOr (get "description")
              (lit "Imported Sigma rule: " ++ title ++ lit ".")
            let logsource :=
              if truthy (get "logsource") then get "logsource"
              else .dict []
            let category ← getKey (lit "category") logsource
            let product ← getKey (lit "product") logsource
            let tactic := tags.findSome? tacticOf
            .ok
              { name := some title
                severity := some ((lookup
                  (Unicode.lower
                    (textOr (get "level") (lit "medium")))
                  sigmaSeverity).getD (lit "medium"))
                description := some (
                  if notes = [] then description
                  else description ++ lit " [import notes: " ++
                    joinWith (lit "; ") notes ++ lit "]")
                definition
                mitreTechId := tags.findSome? techniqueOf
                mitreTactic := tactic.map Prod.fst
                mitreTacticId := tactic.map Prod.snd
                category := some (Unicode.title
                  (textOr category
                    (textOr product (lit "Imported"))))
                tags := lit "sigma" :: tags
                notes }
        | _ =>
            .error (.valueError
              (lit "Sigma rule needs a detection block"))
  | _ =>
      .error (.valueError
        (lit "Sigma rule must be a YAML mapping"))

end

---- Export

/- `_NATIVE_TO_ECS`: the first alias of each field. -/
def nativeToEcs (field : Str) : Option Str :=
  (ecsAliases.find? fun a => a.2 == field).map Prod.fst

/- `_OP_TO_MOD`. -/
def opToMod : Op → Str
| .contains => lit "|contains"
| .regex => lit "|re"
| .gt => lit "|gt"
| .gte => lit "|gte"
| .lt => lit "|lt"
| .lte => lit "|lte"
| .cidr => lit "|cidr"
| _ => []

variable [Unicode]

/- The entry of the selection for a condition. -/
def exportEntry (c : Condition) : Str × PyVal :=
  let field := match c.field with
    | some field => (nativeToEcs field).getD field
    | none => lit "None"
  match c.op.getD .equals with
  | .isIn => (field, .list ((inOptions (.str (pyStr c.value))).map
      PyVal.str))
  | .notEquals => (field ++ lit "|re",
      .str (lit "^(?!" ++ reEscape (pyStr c.value) ++
        lit "$).*"))
  | op => (field ++ opToMod op, c.value)

/- `int(value)`. -/
def exportThreshold : PyVal → Except SigmaError Int
| .bool b => .ok (if b then 1 else 0)
| .int n => .ok n
| .float x =>
    match truncFloat x with
    | some n => .ok n
    | none => .error (.valueError (lit "int"))
| .str s =>
    match readInt s with
    | some n => .ok n
    | none => .error (.valueError (lit "int"))
| _ => .error .typeError

/- The condition of the exported document. -/
def exportCondition
    (aggregation : Option Aggregation) :
    Except SigmaError Str :=
  match aggregation with
  | none => .ok (lit "selection")
  | some agg =>
      if truthy agg.threshold then do
        let threshold ← exportThreshold agg.threshold
        let groupBy := agg.groupField
        let by' := (agg.groupBy.bind nativeToEcs).getD groupBy
        .ok (lit "selection | count() by " ++ by' ++
          lit " > " ++ intStr (threshold - 1))
      else
        .ok (lit "selection")

/- `rule_to_sigma`, before it is dumped. -/
def ruleToSigma (rule : SigmaRule) : Except SigmaError PyVal := do
  let definition := rule.definition
  let sel := dictOf (definition.conditions.map exportEntry)
  let condition ← exportCondition definition.aggregation
  let level :=
    if rule.severity = some (lit "info") then
      lit "informational"
    else
      orStr rule.severity (lit "medium")
  let tactic :=
    match rule.mitreTactic with
    | none => []
    | some tactic =>
        ((tacticTags.find? fun t => t.2.1 == tactic).map
          fun t => lit "attack." ++ t.1).toList
  let technique :=
    match rule.mitreTechId with
    | none => []
    | some [] => []
    | some tech => [lit "attack." ++ Unicode.lower tech]
  .ok (.dict
    [(lit "title", .str (orStr rule.name
        (lit "ThreatOrbit rule"))),
      (lit "status", .str (lit "stable")),
      (lit "description", .str (orStr rule.description [])),
      (lit "author", .str (lit "ThreatOrbit export")),
      (lit "tags",
        .list ((tactic ++ technique).map PyVal.str)),
      (lit "logsource", .dict
        [(lit "category", .str (Unicode.lower
          (orStr rule.category (lit "generic"))))]),
      (lit "detection", .dict
        [(lit "selection", .dict sel),
          (lit "condition", .str condition)]),
      (lit "level", .str level)])

end ThreatOrbit.Detection
