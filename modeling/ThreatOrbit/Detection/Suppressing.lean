import ThreatOrbit.Auth.Accounts
import ThreatOrbit.Detection.Tenants
import ThreatOrbit.Lib.Iso

/-
  Suppressions that close the alerts already open.

  A new suppression drops the matches to come and closes the
  open alerts it covers. The pass compares the id of the rule
  that matched, closing the id an alert is stored with, which
  is one and the same for every rule of the engine.
-/

---- The Request

namespace ThreatOrbit.Detection

open Lib

open Auth (HttpError)

section

variable [Unicode]

/- The fields of `SuppressionCreate` that decide what it
does. -/
structure SuppressionCreate where
  value : Str
  field : Str
  ruleId : Str
  mode : Str
  expiresHours : Option Int
  windowStart : Option Str
  windowEnd : Option Str

def suppressionFields : List Str :=
  [lit "src_ip", lit "username", lit "hostname"]

/- `_HHMM`. -/
def hhmmPattern : Regex :=
  .cat
    [.group 1
      (.alt
        (.seq (.cls fun c => c == cp '0' || c == cp '1')
          (.cls Regex.isDecimal))
        (.seq (Regex.chr '2')
          (.cls fun c => cp '0' ≤ c && c ≤ cp '3'))),
      Regex.chr ':',
      .cls fun c => cp '0' ≤ c && c ≤ cp '5',
      .cls Regex.isDecimal,
      Regex.atEnd]

/- A window time that is set, and not a time of the day. -/
def badWindow (w : Option Str) : Bool :=
  match orStr w [] with
  | [] => false
  | text => (hhmmPattern.matchAt (.start text)).isNone

/- The checks of `create_suppression`, in their order. -/
def SuppressionCreate.check
    (body : SuppressionCreate) : Except HttpError Unit :=
  if !suppressionFields.contains body.field then
    .error ⟨400, lit "field must be src_ip|username|hostname"⟩
  else if body.mode != lit "suppress" &&
      body.mode != lit "allow" then
    .error ⟨400, lit "mode must be suppress|allow"⟩
  else if strip body.value = [] then
    .error ⟨400, lit "value is required"⟩
  else if body.expiresHours.any
      (fun h => !(1 ≤ h && h ≤ 8760)) then
    .error ⟨400, lit "expires_hours must be 1-8760"⟩
  else if (orStr body.windowStart [] != []) !=
      (orStr body.windowEnd [] != []) then
    .error ⟨400,
      lit "window_start and window_end must be set together"⟩
  else if badWindow body.windowStart ||
      badWindow body.windowEnd then
    .error ⟨400, lit "window times must be HH:MM (UTC)"⟩
  else .ok ()

/- The text of a moment some hours on, to the second. -/
def expiryText (now hours : Int) : Str :=
  isoSecond
    (now / 1000000 + hours * 3600 + 62135596800).toNat

/- The row of an accepted request. -/
def SuppressionCreate.row
    (body : SuppressionCreate)
    (sid : Str)
    (now : Int) : Suppression where
  id := sid
  ruleId := orStr (some body.ruleId) (lit "*")
  field := body.field
  value := strip body.value
  expiresAt := body.expiresHours.map (expiryText now)
  windowStart := body.windowStart
  windowEnd := body.windowEnd

end

---- Stored Alerts

section

variable [Unicode] [RegexEngine] [IsoDates]

/- A claimed batch, with what the pass over it reads. -/
structure Pass where
  rows : List RuleRow
  table : List Suppression
  started : Int
  clock : RuleRow → Int
  events : List Event

def Pass.result (p : Pass) : PassResult :=
  runDetection p.rows p.table p.started p.clock p.events

/- The same pass, had a suppression been there. -/
def Pass.adding (p : Pass) (s : Suppression) : Pass :=
  { p with table := p.table ++ [s] }

/- The pass that raised an alert, and for which match. -/
structure Origin where
  pass : Pass
  raised : Raised

/- A row of `alerts`. The origin is no column: it is there to
speak of the match an alert of the engine was raised for. -/
structure StoredAlert where
  row : AlertRow
  ruleId : Str
  status : Str
  disposition : Str
  origin : Option Origin

/- `_insert_alert`, for a match of a pass. -/
def insertAlert (p : Pass) (r : Raised) : StoredAlert where
  row := r.alert
  ruleId := lit "R-ENGINE"
  status := lit "new"
  disposition := lit "undetermined"
  origin := some ⟨p, r⟩

/- `status NOT IN ('resolved','closed')`. -/
def StoredAlert.isOpen (a : StoredAlert) : Bool :=
  a.status != lit "resolved" && a.status != lit "closed"

/- The column a suppression names. -/
def AlertRow.column (a : AlertRow) (field : Str) : PyVal :=
  if field = lit "src_ip" then a.srcIp
  else if field = lit "username" then a.username
  else if field = lit "hostname" then a.hostname
  else .none

/- What a text column keeps of a value. -/
def columnText : PyVal → Option Str
| .none => none
| v => some (pyStr v)

/- The `WHERE` of the retro-closing `UPDATE`. -/
def SuppressionCreate.covers
    (body : SuppressionCreate)
    (a : StoredAlert) : Bool :=
  columnText (a.row.column body.field) ==
      some (strip body.value) &&
    (body.ruleId == [] || body.ruleId == lit "*" ||
      a.ruleId == body.ruleId) &&
    a.isOpen

/- What the `UPDATE` makes of a row. -/
def SuppressionCreate.close
    (body : SuppressionCreate)
    (a : StoredAlert) : StoredAlert :=
  if body.covers a then
    { a with
      status := lit "closed"
      disposition := lit "false-positive" }
  else a

end

---- Histories

section

variable [Unicode] [RegexEngine] [IsoDates]

/- The tables. Every suppression has an id. -/
structure Tuning where
  suppressions : List Suppression
  ids : ∀ s ∈ suppressions, s.id ≠ []
  alerts : List StoredAlert

/- A store without suppressions and alerts. -/
def Tuning.start : Tuning where
  suppressions := []
  ids := by simp
  alerts := []

/- The ids `uuid4` makes. -/
abbrev FreshId := { sid : Str // sid ≠ [] }

def createSuppression
    (body : SuppressionCreate)
    (sid : FreshId)
    (now : Int)
    (t : Tuning) : Except HttpError Tuning :=
  body.check.map fun _ =>
    { suppressions := t.suppressions ++ [body.row sid now]
      ids := by
        intro s hs
        rcases List.mem_append.mp hs with hOld | hNew
        · exact t.ids s hOld
        · rw [List.mem_singleton.mp hNew]
          exact sid.2
      alerts :=
        if suppressionActive (body.row sid now) now then
          t.alerts.map body.close
        else t.alerts }

/- A row at a position of a table, changed. -/
def changeAt
    (i : Nat)
    (f : StoredAlert → StoredAlert)
    (alerts : List StoredAlert) : List StoredAlert :=
  alerts.mapIdx fun j a => if j = i then f a else a

/- What happens to the two tables. -/
inductive TuningStep where
/- A request to suppress; a refused one changes nothing. -/
| created
    (body : SuppressionCreate)
    (sid : FreshId)
    (now : Int)
/- A suppression deleted. -/
| removed (sid : Str)
/- A detection pass, under the rules there are. -/
| detected
    (rows : List RuleRow)
    (started : Int)
    (clock : RuleRow → Int)
    (events : List Event)
/- An alert that no rule raised. -/
| inserted
    (row : AlertRow)
    (ruleId status disposition : Str)
/- An alert triaged, by hand or by a playbook. -/
| triaged (i : Nat) (status disposition : Str)
/- An alert a scheduled hunt takes for its own. -/
| hunted (i : Nat)

/- The pass over a batch, under the suppressions there are. -/
def Tuning.pass
    (t : Tuning)
    (rows : List RuleRow)
    (started : Int)
    (clock : RuleRow → Int)
    (events : List Event) : Pass :=
  ⟨rows, t.suppressions, started, clock, events⟩

def Tuning.step (t : Tuning) : TuningStep → Tuning
| .created body sid now =>
    match createSuppression body sid now t with
    | .ok t' => t'
    | .error _ => t
| .removed sid =>
    { suppressions := t.suppressions.filter (·.id != sid)
      ids := fun s hs => t.ids s (List.mem_of_mem_filter hs)
      alerts := t.alerts }
| .detected rows started clock events =>
    let p := t.pass rows started clock events
    { t with
      alerts := t.alerts ++ p.result.raised.map (insertAlert p) }
| .inserted row ruleId status disposition =>
    { t with
      alerts := t.alerts ++
        [⟨row, ruleId, status, disposition, none⟩] }
| .triaged i status disposition =>
    { t with
      alerts := changeAt i
        (fun a => { a with
          status := status
          disposition := disposition })
        t.alerts }
| .hunted i =>
    { t with
      alerts := changeAt i
        (fun a => { a with ruleId := lit "R-HUNT" })
        t.alerts }

/- The store after a history. -/
def Tuning.run (history : List TuningStep) : Tuning :=
  history.foldl Tuning.step Tuning.start

end

---- Closing And Suppressing

section

variable [Unicode] [RegexEngine] [IsoDates]

/- A request that takes one store to another closes, of the
open alerts of the engine, those the pass would not have
raised had the suppression been there. -/
def RetroAgrees
    (t t' : Tuning)
    (s : Suppression) : Prop :=
  ∀ (i : Nat) (a a' : StoredAlert),
    t.alerts[i]? = some a →
      t'.alerts[i]? = some a' →
        a.isOpen = true →
          ∀ o, a.origin = some o →
            (a'.status = lit "closed" ↔
              o.raised ∉ (o.pass.adding s).result.raised)

/- The open alerts of the engine with the value of a
suppression. -/
def Tuning.hits
    (t : Tuning)
    (s : Suppression)
    (a : StoredAlert)
    (o : Origin) : Prop :=
  a ∈ t.alerts ∧ a.isOpen = true ∧ a.origin = some o ∧
    columnText (a.row.column s.field) = some s.value

/- The rule ids that alerts of the engine are stored with. -/
def storedIds : List Str :=
  [lit "R-ENGINE", lit "R-HUNT"]

/- A suppression of every rule was active at the passes that
raised the alerts with its value; one of a rule has no such
alert, raised by that rule while it was active. The last
case is of a rule whose id is one that alerts are stored
with. -/
def RetroSafe (t : Tuning) (s : Suppression) : Prop :=
  (s.ruleId = lit "*" →
    ∀ a o, t.hits s a o →
      suppressionActive s o.pass.started = true) ∧
  (s.ruleId ≠ lit "*" → s.ruleId ∉ storedIds →
    ∀ a o, t.hits s a o →
      o.raised.rule.id = s.ruleId →
        suppressionActive s o.pass.started = false) ∧
  (s.ruleId ≠ lit "*" → s.ruleId ∈ storedIds →
    ∀ a o, t.hits s a o →
      (a.ruleId = s.ruleId ↔
        o.raised.rule.id = s.ruleId ∧
          suppressionActive s o.pass.started = true))

end

---- What A Pass Drops

section

variable [Unicode] [RegexEngine] [IsoDates]

/- A match is kept when no suppression covers it. -/
omit [RegexEngine] [IsoDates] in
theorem droppedBy_eq_none_iff
    {rule : RuleRow} {suppressions : List Suppression} {e : Event}
    (hIds : ∀ s ∈ suppressions, s.id ≠ []) :
    rule.droppedBy suppressions e = none ↔
      ∀ s ∈ suppressions, s.covers rule.id e = false := by
  unfold RuleRow.droppedBy suppressedBy
  cases hFind : suppressions.find? (·.covers rule.id e) with
  | none => simpa using List.find?_eq_none.mp hFind
  | some s =>
      have hMem := List.mem_of_find?_eq_some hFind
      have hCovers := List.find?_some hFind
      have hId : (s.id != []) = true := by simp [hIds s hMem]
      simp only [Option.map_some, Option.filter_some, hId]
      constructor
      · intro hNone
        cases hNone
      · intro hKept
        rw [hKept s hMem] at hCovers
        cases hCovers

/- The matches a pass raises alerts for. -/
theorem mem_raised_iff
    {p : Pass} {r : Raised}
    (hIds : ∀ s ∈ p.table, s.id ≠ []) :
    r ∈ p.result.raised ↔
      (r.rule ∈ p.rows ∧
        r.rule.definition.conditions.isEmpty = false ∧
        r.found ∈ r.rule.matches p.events (p.clock r.rule)) ∧
      ∀ s ∈ p.table, suppressionActive s p.started = true →
        s.covers r.rule.id r.found.event = false := by
  have hActiveIds :
      ∀ s ∈ p.table.filter (suppressionActive · p.started),
        s.id ≠ [] :=
    fun s hs => hIds s (List.mem_of_mem_filter hs)
  unfold Pass.result runDetection RuleRow.raises
  simp only [List.mem_flatMap, List.mem_map, List.mem_filter,
    Bool.not_eq_true', Option.isNone_iff_eq_none]
  constructor
  · rintro ⟨rule, ⟨hRule, hSome⟩, m, ⟨hFound, hKept⟩, rfl⟩
    have hAll := (droppedBy_eq_none_iff hActiveIds).mp hKept
    exact ⟨⟨hRule, hSome, hFound⟩, fun s hs hActive =>
      hAll s (List.mem_filter.mpr ⟨hs, hActive⟩)⟩
  · rintro ⟨⟨hRule, hSome, hFound⟩, hAll⟩
    refine ⟨r.rule, ⟨hRule, hSome⟩, r.found, ⟨hFound, ?_⟩, rfl⟩
    apply (droppedBy_eq_none_iff hActiveIds).mpr
    intro s hs
    rcases List.mem_filter.mp hs with ⟨hMem, hActive⟩
    exact hAll s hMem hActive

/- A suppression more drops a raised match when it is active
and covers the match. -/
theorem not_raised_iff
    {p : Pass} {r : Raised} {s : Suppression}
    (hIds : ∀ s ∈ p.table, s.id ≠ []) (hId : s.id ≠ [])
    (hRaised : r ∈ p.result.raised) :
    r ∉ (p.adding s).result.raised ↔
      suppressionActive s p.started = true ∧
        s.covers r.rule.id r.found.event = true := by
  have hAll : ∀ x ∈ (p.adding s).table, x.id ≠ [] := by
    intro x hx
    rcases List.mem_append.mp hx with hOld | hNew
    · exact hIds x hOld
    · rw [List.mem_singleton.mp hNew]
      exact hId
  rcases (mem_raised_iff hIds).mp hRaised with ⟨hMatch, hKept⟩
  rw [mem_raised_iff hAll]
  constructor
  · intro hDropped
    by_contra hNot
    apply hDropped
    refine ⟨hMatch, fun x hx hActive => ?_⟩
    rcases List.mem_append.mp hx with hOld | hNew
    · exact hKept x hOld hActive
    · rw [List.mem_singleton.mp hNew] at hActive ⊢
      have hCovers : ¬ s.covers r.rule.id r.found.event = true :=
        fun hTrue => hNot ⟨hActive, hTrue⟩
      simpa using hCovers
  · rintro ⟨hActive, hCovers⟩ ⟨_, hNone⟩
    have hFalse := hNone s
      (List.mem_append_right _ (List.mem_singleton_self s))
      hActive
    rw [hFalse] at hCovers
    cases hCovers

/- A suppression covers an event by the id of the rule and
the text of its column. -/
omit [RegexEngine] [IsoDates] in
theorem covers_iff
    (s : Suppression) (ruleId : Str) (e : Event) :
    s.covers ruleId e = true ↔
      (s.ruleId = lit "*" ∨ s.ruleId = ruleId) ∧
        columnText (e.get s.field) = some s.value := by
  unfold Suppression.covers columnText
  cases e.get s.field <;> simp

/- The columns of an alert are those of the event of its
match. -/
omit [RegexEngine] [IsoDates] in
theorem column_alert
    {field : Str}
    (hField : field ∈ suppressionFields) (r : Raised) :
    r.alert.column field = r.found.event.get field := by
  simp only [suppressionFields, List.mem_cons,
    List.not_mem_nil, or_false] at hField
  rcases hField with rfl | rfl | rfl
  · rfl
  · rfl
  · rfl

end

---- Alerts And Their Matches

section

variable [Unicode] [RegexEngine] [IsoDates]

/- An alert of the engine shows a match its pass raised, and
is stored with one of the engine's rule ids. -/
def StoredAlert.Traced (a : StoredAlert) : Prop :=
  ∀ o, a.origin = some o →
    a.row = o.raised.alert ∧
      a.ruleId ∈ storedIds ∧
      o.raised ∈ o.pass.result.raised ∧
      ∀ s ∈ o.pass.table, s.id ≠ []

theorem StoredAlert.Traced.of_same
    {a b : StoredAlert}
    (hTraced : a.Traced) (hRow : b.row = a.row)
    (hOrigin : b.origin = a.origin)
    (hId : b.ruleId = a.ruleId ∨ b.ruleId ∈ storedIds) :
    b.Traced := by
  intro o hSome
  rw [hOrigin] at hSome
  rcases hTraced o hSome with ⟨hAlert, hStored, hRest⟩
  refine ⟨hRow.trans hAlert, ?_, hRest⟩
  rcases hId with hSame | hNew
  · rw [hSame]
    exact hStored
  · exact hNew

omit [Unicode] [RegexEngine] [IsoDates] in
theorem mem_changeAt
    {i : Nat} {f : StoredAlert → StoredAlert}
    {alerts : List StoredAlert} {b : StoredAlert}
    (hMem : b ∈ changeAt i f alerts) :
    ∃ a ∈ alerts, b = f a ∨ b = a := by
  rcases List.mem_mapIdx.mp hMem with ⟨j, hj, hValue⟩
  refine ⟨alerts[j], List.getElem_mem hj, ?_⟩
  split at hValue
  · exact Or.inl hValue.symm
  · exact Or.inr hValue.symm

omit [RegexEngine] [IsoDates] in
theorem close_same
    (body : SuppressionCreate) (a : StoredAlert) :
    (body.close a).row = a.row ∧
      (body.close a).origin = a.origin ∧
      (body.close a).ruleId = a.ruleId := by
  unfold SuppressionCreate.close
  split
  · exact ⟨rfl, rfl, rfl⟩
  · exact ⟨rfl, rfl, rfl⟩

/- What an accepted request does to the store. -/
omit [RegexEngine] in
theorem createSuppression_ok
    {body : SuppressionCreate} {sid : FreshId} {now : Int}
    {t t' : Tuning}
    (hOk : createSuppression body sid now t = .ok t') :
    body.check = .ok () ∧
      t'.alerts =
        if suppressionActive (body.row sid now) now then
          t.alerts.map body.close
        else t.alerts := by
  unfold createSuppression at hOk
  cases hCheck : body.check with
  | error e =>
      rw [hCheck] at hOk
      cases hOk
  | ok u =>
      rw [hCheck] at hOk
      cases hOk
      exact ⟨rfl, rfl⟩

/- An accepted request names one of the three fields. -/
omit [Unicode] [RegexEngine] [IsoDates] in
theorem field_of_check
    {body : SuppressionCreate}
    (hCheck : body.check = .ok ()) :
    body.field ∈ suppressionFields := by
  unfold SuppressionCreate.check at hCheck
  split at hCheck
  · cases hCheck
  · next hNot => simpa using hNot

theorem step_traced
    {t : Tuning}
    (hTraced : ∀ a ∈ t.alerts, a.Traced) (step : TuningStep) :
    ∀ a ∈ (t.step step).alerts, a.Traced := by
  intro b hb
  cases step with
  | created body sid now =>
      simp only [Tuning.step] at hb
      cases hCreate : createSuppression body sid now t with
      | error e =>
          rw [hCreate] at hb
          exact hTraced b hb
      | ok t' =>
          rw [hCreate] at hb
          have hAlerts := (createSuppression_ok hCreate).2
          rw [hAlerts] at hb
          split at hb
          · rcases List.mem_map.mp hb with ⟨a, ha, rfl⟩
            rcases close_same body a with ⟨hRow, hOrigin, hId⟩
            exact (hTraced a ha).of_same hRow hOrigin
              (Or.inl hId)
          · exact hTraced b hb
  | removed sid => exact hTraced b hb
  | detected rows started clock events =>
      rcases List.mem_append.mp hb with hOld | hNew
      · exact hTraced b hOld
      · rcases List.mem_map.mp hNew with ⟨r, hr, rfl⟩
        intro o hSome
        cases hSome
        exact ⟨rfl, List.mem_cons_self, hr, t.ids⟩
  | inserted row ruleId status disposition =>
      rcases List.mem_append.mp hb with hOld | hNew
      · exact hTraced b hOld
      · rw [List.mem_singleton.mp hNew]
        intro o hSome
        cases hSome
  | triaged i status disposition =>
      rcases mem_changeAt hb with ⟨a, ha, rfl | rfl⟩
      · exact (hTraced a ha).of_same rfl rfl (Or.inl rfl)
      · exact hTraced b ha
  | hunted i =>
      rcases mem_changeAt hb with ⟨a, ha, rfl | rfl⟩
      · exact (hTraced a ha).of_same rfl rfl
          (Or.inr (by simp [storedIds]))
      · exact hTraced b ha

/- Along every history, alerts show matches that were
raised. -/
theorem run_traced (history : List TuningStep) :
    ∀ a ∈ (Tuning.run history).alerts, a.Traced := by
  have hFrom : ∀ (t : Tuning), (∀ a ∈ t.alerts, a.Traced) →
      ∀ a ∈ (history.foldl Tuning.step t).alerts,
        a.Traced := by
    induction history with
    | nil => exact fun t hTraced => hTraced
    | cons step rest ih =>
        exact fun t hTraced =>
          ih (t.step step) (step_traced hTraced step)
  exact hFrom Tuning.start (by simp [Tuning.start])

/- What a request closes of the open alerts. -/
omit [RegexEngine] [IsoDates] in
theorem closed_iff
    {body : SuppressionCreate} {a : StoredAlert}
    (hOpen : a.isOpen = true) (sid : Str) (now : Int) :
    (body.close a).status = lit "closed" ↔
      columnText (a.row.column (body.row sid now).field) =
          some (body.row sid now).value ∧
        ((body.row sid now).ruleId = lit "*" ∨
          (body.row sid now).ruleId = a.ruleId) := by
  have hNotClosed : a.status ≠ lit "closed" := by
    intro hClosed
    unfold StoredAlert.isOpen at hOpen
    rw [hClosed] at hOpen
    revert hOpen
    decide
  have hRule :
      ((body.row sid now).ruleId = lit "*" ∨
          (body.row sid now).ruleId = a.ruleId) ↔
        (body.ruleId = [] ∨ body.ruleId = lit "*") ∨
          a.ruleId = body.ruleId := by
    show (orStr (some body.ruleId) (lit "*") = lit "*" ∨
      orStr (some body.ruleId) (lit "*") = a.ruleId) ↔ _
    cases body.ruleId with
    | nil => simp [orStr]
    | cons c rest => simp [orStr, eq_comm]
  rw [hRule]
  unfold SuppressionCreate.close
  split
  · next hCovers =>
      unfold SuppressionCreate.covers at hCovers
      simp only [Bool.and_eq_true, Bool.or_eq_true,
        beq_iff_eq] at hCovers
      exact ⟨fun _ => hCovers.1, fun _ => rfl⟩
  · next hNot =>
      refine ⟨fun hClosed => absurd hClosed hNotClosed, ?_⟩
      rintro ⟨hColumn, hId⟩
      exfalso
      apply hNot
      unfold SuppressionCreate.covers
      simp only [Bool.and_eq_true, Bool.or_eq_true,
        beq_iff_eq]
      exact ⟨⟨hColumn, hId⟩, hOpen⟩

end

---- When Closing Is Suppressing

section

variable [Unicode] [RegexEngine] [IsoDates]

/- The two matching rules agree on an alert: the one on the
rule id it is stored with, the other on the rule that raised
it, and on the time of the pass. -/
def AgreeOn
    (s : Suppression)
    (a : StoredAlert)
    (o : Origin) : Prop :=
  (s.ruleId = lit "*" ∨ s.ruleId = a.ruleId) ↔
    suppressionActive s o.pass.started = true ∧
      (s.ruleId = lit "*" ∨ s.ruleId = o.raised.rule.id)

/- The suppression of an accepted request drops what a match
raised when it is active and names the rule and the value. -/
theorem not_raised_of_traced
    {a : StoredAlert} {o : Origin} {s : Suppression}
    (hTraced : a.Traced) (hOrigin : a.origin = some o)
    (hId : s.id ≠ []) (hField : s.field ∈ suppressionFields) :
    o.raised ∉ (o.pass.adding s).result.raised ↔
      columnText (a.row.column s.field) = some s.value ∧
        suppressionActive s o.pass.started = true ∧
          (s.ruleId = lit "*" ∨
            s.ruleId = o.raised.rule.id) := by
  rcases hTraced o hOrigin with ⟨hRow, _, hRaised, hIds⟩
  rw [not_raised_iff hIds hId hRaised, covers_iff, hRow,
    column_alert hField]
  constructor
  · rintro ⟨hActive, hRule, hValue⟩
    exact ⟨hValue, hActive, hRule⟩
  · rintro ⟨hValue, hActive, hRule⟩
    exact ⟨hActive, hRule, hValue⟩

/- The two rules agree on every alert with the value exactly
when the suppression is safe. -/
theorem retroSafe_iff
    {t : Tuning}
    (hTraced : ∀ a ∈ t.alerts, a.Traced) (s : Suppression) :
    RetroSafe t s ↔
      ∀ a o, t.hits s a o → AgreeOn s a o := by
  unfold RetroSafe
  by_cases hEvery : s.ruleId = lit "*"
  · simp only [hEvery, ne_eq, not_true_eq_false,
      false_implies, true_implies, and_true]
    refine forall_congr' fun a => forall_congr' fun o =>
      imp_congr_right fun _ => ?_
    simp [AgreeOn, hEvery]
  · by_cases hStored : s.ruleId ∈ storedIds
    · simp only [hEvery, ne_eq, not_false_eq_true, hStored,
        not_true_eq_false, false_implies, true_implies,
        true_and]
      refine forall_congr' fun a => forall_congr' fun o =>
        imp_congr_right fun _ => ?_
      simp only [AgreeOn, hEvery, false_or]
      rw [eq_comm (a := s.ruleId), eq_comm (a := s.ruleId),
        and_comm]
    · simp only [hEvery, ne_eq, not_false_eq_true, hStored,
        false_implies, true_implies, true_and, and_true]
      refine forall_congr' fun a => forall_congr' fun o =>
        imp_congr_right fun hHit => ?_
      have hKept := (hTraced a hHit.1 o hHit.2.2.1).2.1
      have hNotId : s.ruleId ≠ a.ruleId := by
        intro hSame
        rw [← hSame] at hKept
        exact hStored hKept
      simp only [AgreeOn, hEvery, hNotId, false_or,
        false_iff, not_and, Bool.eq_false_iff, ne_eq]
      constructor
      · exact fun hIdle hActive hSame =>
          hIdle hSame.symm hActive
      · exact fun hIdle hSame hActive =>
          hIdle hActive hSame.symm

/- Closing and suppressing agree when the two matching rules
agree on every open alert with the value. -/
theorem agrees_iff_agreeOn
    {t t' : Tuning} {body : SuppressionCreate} {sid : FreshId}
    {now : Int}
    (hTraced : ∀ a ∈ t.alerts, a.Traced)
    (hOk : createSuppression body sid now t = .ok t')
    (hActive :
      suppressionActive (body.row sid now) now = true) :
    RetroAgrees t t' (body.row sid now) ↔
      ∀ a o, t.hits (body.row sid now) a o →
        AgreeOn (body.row sid now) a o := by
  rcases createSuppression_ok hOk with ⟨hCheck, hAlerts⟩
  rw [if_pos hActive] at hAlerts
  have hField : (body.row sid now).field ∈ suppressionFields :=
    field_of_check hCheck
  -- One alert, against its counterpart in the new store.
  have hOne : ∀ a ∈ t.alerts,
      a.isOpen = true → ∀ o, a.origin = some o →
        (((body.close a).status = lit "closed" ↔
            o.raised ∉
              (o.pass.adding (body.row sid now)).result.raised) ↔
          (columnText (a.row.column (body.row sid now).field) =
              some (body.row sid now).value →
            AgreeOn (body.row sid now) a o)) := by
    intro a ha hOpen o hOrigin
    rw [closed_iff hOpen sid now,
      not_raised_of_traced (hTraced a ha) hOrigin sid.2 hField]
    exact and_congr_right_iff
  constructor
  · rintro hAgrees a o ⟨ha, hOpen, hOrigin, hValue⟩
    rcases List.getElem?_of_mem ha with ⟨i, hi⟩
    have hNew : t'.alerts[i]? = some (body.close a) := by
      rw [hAlerts, List.getElem?_map, hi]
      rfl
    exact (hOne a ha hOpen o hOrigin).mp
      (hAgrees i a _ hi hNew hOpen o hOrigin) hValue
  · intro hSame i a a' hi hNew hOpen o hOrigin
    have ha := List.mem_of_getElem? hi
    rw [hAlerts, List.getElem?_map, hi] at hNew
    cases hNew
    exact (hOne a ha hOpen o hOrigin).mpr fun hValue =>
      hSame a o ⟨ha, hOpen, hOrigin, hValue⟩

/- For every history, rules and accepted suppression that is
active when created, creating it closes exactly the open
alerts it would have kept from being raised, if and only if
it is safe for the alerts there are. -/
theorem retro_agrees_iff
    (history : List TuningStep)
    (body : SuppressionCreate)
    (sid : FreshId)
    (now : Int)
    (t' : Tuning)
    (hOk :
      createSuppression body sid now (Tuning.run history) =
        .ok t')
    (hActive :
      suppressionActive (body.row sid now) now = true) :
    RetroAgrees (Tuning.run history) t' (body.row sid now) ↔
      RetroSafe (Tuning.run history) (body.row sid now) := by
  have hTraced := run_traced history
  rw [agrees_iff_agreeOn hTraced hOk hActive,
    retroSafe_iff hTraced]

end

---- A Concrete Alert

section

local instance suppressingUnicode : Unicode := asciiTables
local instance suppressingRegexEngine :
    RegexEngine := noPatterns
local instance suppressingIsoDates : IsoDates := newYearDates

/- A request to suppress an address for a rule, or for all. -/
def suppressAddress (ruleId : Str) : SuppressionCreate where
  value := lit "10.0.0.9"
  field := lit "src_ip"
  ruleId := ruleId
  mode := lit "suppress"
  expiresHours := none
  windowStart := none
  windowEnd := none

/- Two failed logins, in one batch. -/
def loginPass : TuningStep :=
  .detected oneRule.rows newYearInstant
    (fun _ => newYearInstant + 60000000)
    [failedLogin "org-a", failedLogin "org-a"]

def aSid : FreshId :=
  ⟨lit "s-1", by decide⟩

/- The rule raises alerts for the batch, and each is of its
id and of the address. -/
theorem loginPass_hits (sid : FreshId) (ruleId : Str) :
    ∃ a o, (Tuning.run [loginPass]).hits
      ((suppressAddress ruleId).row sid newYearInstant) a o ∧
        a.ruleId = lit "R-ENGINE" ∧
        o.raised.rule.id = lit "R-1" := by
  have hSome : (Tuning.run [loginPass]).alerts.length = 1 := by
    decide +kernel
  have hAll : (Tuning.run [loginPass]).alerts.all (fun a =>
      a.isOpen && a.ruleId == lit "R-ENGINE" &&
        a.origin.any (fun o => o.raised.rule.id == lit "R-1") &&
        columnText (a.row.column (lit "src_ip")) ==
          some (lit "10.0.0.9")) = true := by
    decide +kernel
  rcases List.length_eq_one_iff.mp hSome with ⟨a, hAlerts⟩
  rw [hAlerts] at hAll
  simp only [List.all_cons, List.all_nil, Bool.and_true,
    Bool.and_eq_true, beq_iff_eq, Option.any_eq_true] at hAll
  rcases hAll with ⟨⟨⟨hOpen, hStored⟩, o, hOrigin, hRule⟩, hText⟩
  refine ⟨a, o, ⟨?_, hOpen, hOrigin, hText⟩, hStored, hRule⟩
  rw [hAlerts]
  exact List.mem_singleton_self a

/- A suppression of the rule that raised an open alert, and of
its address, leaves the alert open; the pass would not have
raised it. -/
theorem retro_differs :
    ∃ t', createSuppression (suppressAddress (lit "R-1"))
        aSid newYearInstant (Tuning.run [loginPass]) = .ok t' ∧
      suppressionActive
        ((suppressAddress (lit "R-1")).row aSid
          newYearInstant) newYearInstant = true ∧
      ¬ RetroAgrees (Tuning.run [loginPass]) t'
        ((suppressAddress (lit "R-1")).row aSid
          newYearInstant) := by
  refine ⟨_, rfl, by decide, fun hAgrees => ?_⟩
  rw [agrees_iff_agreeOn (run_traced [loginPass]) rfl
    (by decide)] at hAgrees
  rcases loginPass_hits aSid (lit "R-1") with
    ⟨a, o, hHit, hStored, hRule⟩
  have hAgree := (hAgrees a o hHit).mpr
    ⟨rfl, Or.inr hRule.symm⟩
  rw [hStored] at hAgree
  revert hAgree
  decide

/- A suppression of the address for every rule closes the
alert. -/
theorem every_rule_agrees :
    ∃ t', createSuppression (suppressAddress (lit "*"))
        aSid newYearInstant (Tuning.run [loginPass]) = .ok t' ∧
      RetroAgrees (Tuning.run [loginPass]) t'
        ((suppressAddress (lit "*")).row aSid
          newYearInstant) := by
  refine ⟨_, rfl, ?_⟩
  refine (retro_agrees_iff [loginPass]
    (suppressAddress (lit "*")) aSid newYearInstant _ rfl
    (by decide)).mpr ?_
  have hEvery : ((suppressAddress (lit "*")).row aSid
      newYearInstant).ruleId = lit "*" := by
    decide
  refine ⟨fun _ a o _ => rfl, fun hNot => ?_, fun hNot => ?_⟩
  · exact absurd hEvery hNot
  · exact absurd hEvery hNot

end

end ThreatOrbit.Detection
