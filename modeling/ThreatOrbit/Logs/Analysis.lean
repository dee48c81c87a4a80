import ThreatOrbit.Logs.Detectors

/-
  The analysis of a log: which lines are read, which are not,
  and what a line does to the others.
-/

---- Status Codes

namespace ThreatOrbit.Logs

open Lib Regex

def ThreeDigits (s : Str) : Prop :=
  s.length = 3 ∧ ∀ c ∈ s, (decimal c).isSome = true

theorem reads_threeDigits
    (test : Bool) {s : Str} (hThree : ThreeDigits s) :
    Reads test s := by
  intro _
  refine readInt_of_decimals ?_ hThree.2 ?_
  · rintro rfl
    cases hThree.1
  · rw [hThree.1]
    decide

theorem threeDigits_group :
    ∀ c : Cursor, ∀ d ∈ (Regex.cat [digit, digit, digit]).run c,
      ThreeDigits (c.upto d) := by
  have hStep (c d : Cursor) (hD : d ∈ digit.run c) :
      c.after.length = d.after.length + 1 := by
    unfold digit at hD
    rw [run] at hD
    split at hD
    · rename_i x rest hAfter
      split at hD
      · rw [List.mem_singleton.mp hD, hAfter]
        rfl
      · cases hD
    · cases hD
  have hSpans :
      Moves (Spans isDecimal) (.cat [digit, digit, digit]) := by
    refine moves_cat spans_refl spans_trans ?_
    intro r hR
    simp only [List.mem_cons, List.not_mem_nil, or_false,
      or_self] at hR
    rw [hR]
    exact spans_cls
  intro c d hD
  have hAll := upto_of_spans hSpans c d hD
  refine ⟨?_, hAll⟩
  simp only [cat, run, List.mem_flatMap, List.mem_singleton]
    at hD
  rcases hD with ⟨a, hA, b, hB, e, hE, rfl⟩
  have hFirst := hStep c a hA
  have hSecond := hStep a b hB
  have hThird := hStep b d hE
  unfold Cursor.upto
  rw [List.length_take]
  omega

theorem holds_three
    (i : Nat) :
    Moves (Holds i ThreeDigits)
      (.group i (.cat [digit, digit, digit])) := by
  refine holds_group i ?_ fun _ => threeDigits_group
  refine moves_cat holds_refl holds_trans ?_
  intro r hR
  simp only [List.mem_cons, List.not_mem_nil, or_false,
    or_self] at hR
  rw [hR]
  exact holds_cls _

theorem holds_other
    {i j : Nat} {a : Regex}
    (hNe : j ≠ i) (hA : Moves (Holds i ThreeDigits) a) :
    Moves (Holds i ThreeDigits) (.group j a) :=
  holds_group j hA fun hIs => absurd hIs hNe

theorem holds_statusRe [Unicode] :
    Moves (Holds 1 ThreeDigits) statusRe := by
  unfold statusRe
  refine moves_cat holds_refl holds_trans ?_
  simp only [List.forall_mem_cons, List.not_mem_nil,
    false_implies, implies_true, and_true]
  exact ⟨moves_assert holds_refl _, holds_wordI _,
    moves_plus holds_refl holds_trans (holds_cls _),
    holds_three 1, moves_assert holds_refl _⟩

theorem holds_combinedRe :
    Moves (Holds 6 ThreeDigits) combinedRe := by
  have hSpaces : Moves (Holds 6 ThreeDigits) spaces :=
    moves_plus holds_refl holds_trans (holds_cls _)
  have hPlus (p : Nat → Bool) :
      Moves (Holds 6 ThreeDigits) (.plus (.cls p)) :=
    moves_plus holds_refl holds_trans (holds_cls p)
  have hStar (greedy : Bool) (p : Nat → Bool) :
      Moves (Holds 6 ThreeDigits) (.star greedy (.cls p)) :=
    moves_star holds_refl holds_trans greedy (holds_cls p)
  have hQuoted (j : Nat) (hJ : j ≠ 6) :
      Moves (Holds 6 ThreeDigits)
        (.opt (.cat [spaces, chr '"',
          .group j (.star true (noneOf '"')), chr '"'])) := by
    refine moves_opt holds_refl
      (moves_cat holds_refl holds_trans ?_)
    simp only [List.forall_mem_cons, List.not_mem_nil,
      false_implies, implies_true, and_true]
    exact ⟨hSpaces, holds_cls _,
      holds_other hJ (hStar true _), holds_cls _⟩
  unfold combinedRe
  refine moves_cat holds_refl holds_trans ?_
  simp only [List.forall_mem_cons, List.not_mem_nil,
    false_implies, implies_true, and_true]
  refine ⟨?_, hSpaces, ?_, hSpaces, ?_, hSpaces, holds_cls _, ?_,
    holds_cls _, hSpaces, holds_cls _, ?_, holds_cls _, hSpaces,
    holds_three 6, hSpaces, ?_, hQuoted 8 (by decide),
    hQuoted 9 (by decide)⟩
  · exact holds_other (by decide) (hPlus _)
  · exact holds_other (by decide) (hPlus _)
  · exact holds_other (by decide) (hPlus _)
  · exact holds_other (by decide) (hPlus _)
  · exact holds_other (by decide) (hStar false _)
  · exact holds_other (by decide) (hPlus _)

/- The status code of a request is read. -/
theorem reads_combined
    {raw : Str} {m : Match}
    (test : Bool) (hFound : matched combinedRe raw = some m) :
    Reads ((m.group 6).getD [] != [] && test)
      ((m.group 6).getD []) := by
  cases hGroup : m.group 6 with
  | none =>
      intro hTest
      cases hTest
  | some s =>
      exact reads_threeDigits _
        (holds_of_matchAt holds_combinedRe hFound hGroup)

/- The status code in a text is read. -/
theorem reads_status [Unicode]
    (raw : Str) :
    Reads ((statusRe.search raw).bind fun m => m.group 1).isSome
      (((statusRe.search raw).bind fun m => m.group 1).getD
        []) := by
  cases hStatus :
      (statusRe.search raw).bind fun m => m.group 1 with
  | none =>
      intro hTest
      cases hTest
  | some s =>
      rcases Option.bind_eq_some_iff.mp hStatus with
        ⟨m, hFound, hGroup⟩
      exact reads_threeDigits _
        (holds_of_search holds_statusRe hFound hGroup)

---- Lines That Are Plain

section

variable [Unicode]
variable (libs : LogLibs)

/- The process id of a line is read, where it is a number. -/
def PidPlain (raw : Str) : Prop :=
  match matched syslogRe raw with
  | some m =>
      Reads ((m.group 6).getD [] != []) ((m.group 6).getD [])
  | none =>
      ∀ m, matched syslog5424Re raw = some m →
        Reads ((m.group 4).getD [] != [] &&
            libs.isdigit ((m.group 4).getD []))
          ((m.group 4).getD [])

def SyslogPlain (line : Str) : Prop :=
  ¬ (rstrip line = [] ∨ (rstrip line).head? = some (cp '#')) →
    PidPlain libs (rstrip line)

theorem syslogLine_returns_iff (line : Str) :
    Returns (syslogLine libs line) ↔ SyslogPlain libs line := by
  unfold syslogLine SyslogPlain PidPlain
  dsimp only
  by_cases hSkip :
      rstrip line = [] ∨ (rstrip line).head? = some (cp '#')
  · simp [hSkip]
  · rw [if_neg hSkip]
    simp only [hSkip, not_false_eq_true, true_implies]
    unfold tryParseRfc3164
    cases hOld : matched syslogRe (rstrip line) with
    | some m =>
        dsimp only
        rw [← intWhere_returns_iff]
        cases intWhere ((m.group 6).getD [] != [])
          ((m.group 6).getD []) <;> simp
    | none =>
        dsimp only
        unfold tryParseRfc5424
        cases hNew : matched syslog5424Re (rstrip line) with
        | none => simp
        | some m =>
            simp only [Option.some.injEq, forall_eq']
            rw [← intWhere_returns_iff]
            cases intWhere ((m.group 4).getD [] != [] &&
                libs.isdigit ((m.group 4).getD []))
              ((m.group 4).getD []) <;> simp

/- The byte count of a request is read, where it is a number. -/
def ApachePlain (line : Str) : Prop :=
  rstrip line ≠ [] →
    ∀ m, matched combinedRe (rstrip line) = some m →
      Reads ((m.group 7).getD [] != [] &&
          libs.isdigit ((m.group 7).getD []))
        ((m.group 7).getD [])

theorem apacheLine_returns_iff (line : Str) :
    Returns (apacheLine libs line) ↔ ApachePlain libs line := by
  unfold apacheLine ApachePlain
  dsimp only
  by_cases hSkip : rstrip line = []
  · simp [hSkip]
  · rw [if_neg hSkip]
    simp only [hSkip, ne_eq, not_false_eq_true, true_implies]
    unfold parseAccessLine
    cases hFound : matched combinedRe (rstrip line) with
    | none =>
        dsimp only
        cases parseErrorLine libs (rstrip line) <;> simp
    | some m =>
        simp only [Option.some.injEq, forall_eq']
        have hStatus := (intWhere_returns_iff _ _).mpr
          (reads_combined
            (libs.isdigit ((m.group 6).getD [])) hFound)
        rcases hStatus with ⟨status, hStatus⟩
        rw [hStatus, ← intWhere_returns_iff]
        cases intWhere ((m.group 7).getD [] != [] &&
            libs.isdigit ((m.group 7).getD []))
          ((m.group 7).getD []) <;> simp

/- The fields of an object that go into the entry as they are
hold texts, or nothing. -/
def JsonPlain (obj : PyVal) : Prop :=
  ∃ items,
    obj = .dict items ∧
    IsText (orVal (getVal "http_method" items)
      (getVal "method" items)) ∧
    IsText (orVal (getVal "http_path" items)
      (getVal "path" items)) ∧
    IsText (orVal (getVal "user_agent" items)
      (getVal "ua" items))

theorem fromJson_returns_iff
    (obj : PyVal) (raw : Str) :
    Returns (fromJson libs obj raw) ↔ JsonPlain obj := by
  unfold fromJson JsonPlain
  cases obj with
  | dict items =>
      simp only [PyVal.dict.injEq, exists_eq_left']
      rw [← textField_returns_iff, ← textField_returns_iff,
        ← textField_returns_iff]
      cases textField (orVal (getVal "http_method" items)
        (getVal "method" items)) with
      | error e => simp
      | ok method =>
          cases textField (orVal (getVal "http_path" items)
            (getVal "path" items)) with
          | error e => simp
          | ok path =>
              cases textField (orVal (getVal "user_agent" items)
                (getVal "ua" items)) with
              | error e => simp
              | ok agent => simp
  | none => simp
  | bool b => simp
  | int n => simp
  | float x => simp
  | str s => simp
  | list items => simp

/- A line that opens an object is no JSON, or an object with
texts; its integers are not too long. -/
def GenericPlain (line : Str) : Prop :=
  rstrip line ≠ [] →
    (lstrip (rstrip line)).head? = some (cp '{') →
      match libs.loads (rstrip line) with
      | .valueError => False
      | .decodeError => True
      | .value obj => JsonPlain obj

theorem genericText_returns (raw : Str) :
    Returns (genericText libs raw) := by
  unfold genericText
  dsimp only
  split
  · exact returns_ok _
  · unfold fromPlaintext
    dsimp only
    rcases (intWhere_returns_iff _ _).mpr (reads_status raw) with
      ⟨code, hCode⟩
    rw [hCode]
    exact returns_ok _

theorem genericLine_returns_iff (line : Str) :
    Returns (genericLine libs line) ↔ GenericPlain libs line := by
  unfold genericLine GenericPlain
  dsimp only
  by_cases hSkip : rstrip line = []
  · simp [hSkip]
  · by_cases hOpens :
        (lstrip (rstrip line)).head? = some (cp '{')
    · rw [if_neg hSkip, if_pos hOpens]
      simp only [hSkip, ne_eq, not_false_eq_true, hOpens,
        true_implies]
      cases hLoads : libs.loads (rstrip line) with
      | valueError => simp
      | decodeError => simp [genericText_returns]
      | value obj =>
          dsimp only
          rw [← fromJson_returns_iff libs obj (rstrip line)]
          cases fromJson libs obj (rstrip line) <;> simp
    · rw [if_neg hSkip, if_neg hOpens]
      simp [hOpens, genericText_returns]

/- `TimeCreated` and its `#attributes` are mappings. -/
def SystemTimePlain (system : List (Str × PyVal)) : Prop :=
  ∃ created,
    (lookup (lit "TimeCreated") system).getD (.dict []) =
      .dict created ∧
    IsDict ((lookup (lit "#attributes") created).getD (.dict []))

/- A record whose parts are mappings, as far as they are looked
into, and whose texts are texts. -/
def RecordPlain (v : PyVal) : Prop :=
  ∀ record, v = .dict record →
    ∃ eventData system,
      orVal (getVal "EventData" record)
        (orVal (getVal "event_data" record) (.dict [])) =
          .dict eventData ∧
      orVal (getVal "System" record) (.dict []) = .dict system ∧
      (truthy (getVal "TimeCreated" record) = true ∨
        truthy (getVal "timestamp" record) = true ∨
        truthy (getVal "@timestamp" record) = true ∨
        SystemTimePlain system) ∧
      (truthy (getVal "SubjectUserName" eventData) = true ∨
        truthy (getVal "TargetUserName" eventData) = true ∨
        truthy (getVal "username" record) = true ∨
        IsDict
          ((lookup (lit "Security") system).getD (.dict []))) ∧
      IsText (sourceVal (orVal (getVal "IpAddress" eventData)
        (orVal (getVal "WorkstationName" eventData)
          (getVal "source_ip" record)))) ∧
      IsText (orVal (getVal "Computer" system)
        (orVal (getVal "Computer" record)
          (getVal "hostname" record))) ∧
      IsText (orVal (getVal "NewProcessName" eventData)
        (getVal "ProcessName" eventData))

omit [Unicode] in
theorem orElseVal_returns_iff
    (a : PyVal) (b : Except LogError PyVal) :
    Returns (orElseVal a b) ↔ truthy a = true ∨ Returns b := by
  unfold orElseVal
  by_cases hA : truthy a = true
  · simp [hA]
  · simp [hA]

omit [Unicode] in
theorem systemTime_returns_iff
    (system : List (Str × PyVal)) :
    Returns (systemTime system) ↔ SystemTimePlain system := by
  unfold systemTime nestedVal SystemTimePlain
  cases hCreated :
      (lookup (lit "TimeCreated") system).getD (.dict []) with
  | dict created =>
      simp only [getOr, PyVal.dict.injEq, exists_eq_left']
      exact getOr_returns_iff _ _ _
  | none => simp [getOr]
  | bool b => simp [getOr]
  | int n => simp [getOr]
  | float x => simp [getOr]
  | str s => simp [getOr]
  | list items => simp [getOr]

theorem recordEntry_returns_iff
    (record eventData system : List (Str × PyVal)) (raw : Str) :
    Returns (recordEntry libs record eventData system raw) ↔
      (truthy (getVal "TimeCreated" record) = true ∨
        truthy (getVal "timestamp" record) = true ∨
        truthy (getVal "@timestamp" record) = true ∨
        SystemTimePlain system) ∧
      (truthy (getVal "SubjectUserName" eventData) = true ∨
        truthy (getVal "TargetUserName" eventData) = true ∨
        truthy (getVal "username" record) = true ∨
        IsDict
          ((lookup (lit "Security") system).getD (.dict []))) ∧
      IsText (sourceVal (orVal (getVal "IpAddress" eventData)
        (orVal (getVal "WorkstationName" eventData)
          (getVal "source_ip" record)))) ∧
      IsText (orVal (getVal "Computer" system)
        (orVal (getVal "Computer" record)
          (getVal "hostname" record))) ∧
      IsText (orVal (getVal "NewProcessName" eventData)
        (getVal "ProcessName" eventData)) := by
  have hUser :
      Returns (nestedVal "Security" "UserID" .none system) ↔
        IsDict
          ((lookup (lit "Security") system).getD (.dict [])) :=
    getOr_returns_iff _ _ _
  rw [← systemTime_returns_iff, ← hUser,
    ← orElseVal_returns_iff, ← orElseVal_returns_iff,
    ← orElseVal_returns_iff, ← orElseVal_returns_iff,
    ← orElseVal_returns_iff, ← orElseVal_returns_iff,
    ← textField_returns_iff, ← textField_returns_iff,
    ← textField_returns_iff]
  unfold recordEntry
  cases orElseVal (getVal "TimeCreated" record)
      (orElseVal (getVal "timestamp" record)
        (orElseVal (getVal "@timestamp" record)
          (systemTime system))) with
  | error e => simp
  | ok time =>
      cases orElseVal (getVal "SubjectUserName" eventData)
          (orElseVal (getVal "TargetUserName" eventData)
            (orElseVal (getVal "username" record)
              (nestedVal "Security" "UserID" .none system))) with
      | error e => simp
      | ok user =>
          simp only [returns_ok, true_and]
          cases textField (sourceVal
              (orVal (getVal "IpAddress" eventData)
                (orVal (getVal "WorkstationName" eventData)
                  (getVal "source_ip" record)))) with
          | error e => simp
          | ok sourceIp =>
              cases textField (orVal (getVal "Computer" system)
                  (orVal (getVal "Computer" record)
                    (getVal "hostname" record))) with
              | error e => simp
              | ok hostname =>
                  cases textField
                      (orVal (getVal "NewProcessName" eventData)
                        (getVal "ProcessName" eventData)) with
                  | error e => simp
                  | ok process => simp

theorem recordParsed_returns_iff
    (rawLine : Str) (v : PyVal) :
    Returns (recordParsed libs rawLine v) ↔ RecordPlain v := by
  have hParsed :
      Returns (recordParsed libs rawLine v) ↔
        Returns (parseRecord libs v rawLine) := by
    unfold recordParsed
    cases parseRecord libs v rawLine with
    | error e => simp
    | ok found => cases found <;> simp
  rw [hParsed]
  unfold parseRecord RecordPlain
  cases v with
  | dict record =>
      simp only [PyVal.dict.injEq, forall_eq']
      cases hData : orVal (getVal "EventData" record)
          (orVal (getVal "event_data" record) (.dict [])) with
      | dict eventData =>
          cases hSystem :
              orVal (getVal "System" record) (.dict []) with
          | dict system =>
              simp only [returns_map, PyVal.dict.injEq,
                exists_and_left, exists_eq_left']
              exact recordEntry_returns_iff libs record eventData
                system _
          | none => simp
          | bool b => simp
          | int n => simp
          | float x => simp
          | str s => simp
          | list items => simp
      | none => simp
      | bool b => simp
      | int n => simp
      | float x => simp
      | str s => simp
      | list items => simp
  | none => simp
  | bool b => simp
  | int n => simp
  | float x => simp
  | str s => simp
  | list items => simp

/- A line is no JSON, or a plain record. -/
def WindowsPlain (line : Str) : Prop :=
  rstrip line ≠ [] →
    match libs.loads (rstrip line) with
    | .valueError => False
    | .decodeError => True
    | .value record => RecordPlain record

theorem windowsLine_returns_iff (line : Str) :
    Returns (windowsLine libs line) ↔ WindowsPlain libs line := by
  unfold windowsLine WindowsPlain
  dsimp only
  by_cases hSkip : rstrip line = []
  · simp [hSkip]
  · rw [if_neg hSkip]
    simp only [hSkip, ne_eq, not_false_eq_true, true_implies]
    cases hLoads : libs.loads (rstrip line) with
    | valueError => simp
    | decodeError => simp
    | value record => exact recordParsed_returns_iff libs _ _

end

---- Analyses

open Lib

section

inductive LogFormat where
| syslog
| apache
| windowsEvent
| generic
deriving DecidableEq, Repr

def LogFormat.value : LogFormat → Str
| .syslog => lit "syslog"
| .apache => lit "apache"
| .windowsEvent => lit "windows_event"
| .generic => lit "generic"

/- What an analysis uses beside its lines: the libraries, the
settings, the detector that learns, the order of a set and the
clock. -/
structure LogService where
  libs : LogLibs
  numbers : NumberLibs
  settings : LogSettings
  runMlDetector : List ParsedLogEntry → List AnomalyFinding
  setOrder : List Str → List Str
  duration : Float
  now : Moment

structure AnalysisResult where
  logFormat : Str
  totalLines : Nat
  parsedLines : Nat
  parseErrors : Nat
  analysisDurationSeconds : Float
  findings : List AnomalyFinding
  summary : List (Severity × Nat)
  topSourceIps : List SourceSummary
  analysedAt : Moment
  detectorsUsed : List Str

variable [Unicode]

def parserOf
    (libs : LogLibs) :
    LogFormat → List Str → Except LogError Parsed
| .syslog => parseSyslog libs
| .apache => parseApache libs
| .windowsEvent => parseWindowsEvent libs
| .generic => parseGeneric libs

variable (svc : LogService)

/- The findings of the four detectors. -/
def findingsOf
    (entries : List ParsedLogEntry) :
    Except LogError (List AnomalyFinding) :=
  inTurn
    [runPatternDetector svc.settings entries,
      runStatisticalDetector svc.numbers svc.settings entries,
      .ok (svc.runMlDetector entries),
      runTemporalDetector svc.settings entries]

omit [Unicode] in
def resultOf
    (lines : List Str)
    (logFormat : LogFormat)
    (p : Parsed)
    (findings : List AnomalyFinding) : AnalysisResult :=
  let finalFindings := processFindings findings
  { logFormat := logFormat.value
    totalLines := lines.length
    parsedLines := p.entries.length
    parseErrors := p.errors
    analysisDurationSeconds := svc.duration
    findings := finalFindings
    summary := summarise finalFindings
    topSourceIps := topSourceIps svc.setOrder finalFindings
    analysedAt := svc.now
    detectorsUsed :=
      [lit "Pattern", lit "Statistical", lit "ML",
        lit "Temporal"] }

def runAnalysis
    (lines : List Str)
    (logFormat : LogFormat) : Except LogError AnalysisResult :=
  match parserOf svc.libs logFormat lines with
  | .error e => .error e
  | .ok p =>
      match findingsOf svc p.entries with
      | .error e => .error e
      | .ok findings =>
          .ok (resultOf svc lines logFormat p findings)

omit [Unicode] in
/- Each line has entries of its own: without it, those of the
others are the same. -/
def KeepsApart
    (parser : List Str → Except LogError Parsed)
    (lines : List Str) : Prop :=
  ∃ own : List (List ParsedLogEntry),
    own.length = lines.length ∧
    (∃ p, parser lines = .ok p ∧ p.entries = own.flatten) ∧
    ∀ i, i < lines.length →
      ∃ p, parser (lines.eraseIdx i) = .ok p ∧
        p.entries = (own.eraseIdx i).flatten

/- The analysis returns, and no line changes what the others
give. -/
structure NeverFails
    (lines : List Str)
    (logFormat : LogFormat) : Prop where
  returns : Returns (runAnalysis svc lines logFormat)
  apart : KeepsApart (parserOf svc.libs logFormat) lines

end

---- Analyses That Return

section

variable [Unicode]
variable (libs : LogLibs)

/- One array of plain records, or plain lines. -/
def WindowsLinesPlain (lines : List Str) : Prop :=
  if (joinedText lines).head? = some (cp '[') then
    match libs.loads (joinedText lines) with
    | .valueError => False
    | .decodeError => ∀ line ∈ lines, WindowsPlain libs line
    | .value (.list records) => ∀ v ∈ records, RecordPlain v
    | .value _ => False
  else
    ∀ line ∈ lines, WindowsPlain libs line

theorem parseWindowsEvent_returns_iff (lines : List Str) :
    Returns (parseWindowsEvent libs lines) ↔
      WindowsLinesPlain libs lines := by
  have hLines :
      Returns (gather (windowsLine libs) lines) ↔
        ∀ line ∈ lines, WindowsPlain libs line := by
    simp only [gather_returns_iff, windowsLine_returns_iff]
  unfold parseWindowsEvent WindowsLinesPlain
  by_cases hOpens : (joinedText lines).head? = some (cp '[')
  · rw [if_pos hOpens, if_pos hOpens]
    cases hLoads : libs.loads (joinedText lines) with
    | valueError => simp
    | decodeError => exact hLines
    | value v =>
        cases v with
        | list records =>
            simp only [gather_returns_iff,
              recordParsed_returns_iff]
        | none => simp
        | bool b => simp
        | int n => simp
        | float x => simp
        | str s => simp
        | dict items => simp
  · rw [if_neg hOpens, if_neg hOpens]
    exact hLines

/- Every line is one that its parser can read or keep. -/
def LinesPlain
    (logFormat : LogFormat)
    (lines : List Str) : Prop :=
  match logFormat with
  | .syslog => ∀ line ∈ lines, SyslogPlain libs line
  | .apache => ∀ line ∈ lines, ApachePlain libs line
  | .windowsEvent => WindowsLinesPlain libs lines
  | .generic => ∀ line ∈ lines, GenericPlain libs line

theorem parser_returns_iff
    (logFormat : LogFormat) (lines : List Str) :
    Returns (parserOf libs logFormat lines) ↔
      LinesPlain libs logFormat lines := by
  cases logFormat with
  | syslog =>
      simp only [parserOf, LinesPlain, parseSyslog,
        gather_returns_iff, syslogLine_returns_iff]
  | apache =>
      simp only [parserOf, LinesPlain, parseApache,
        gather_returns_iff, apacheLine_returns_iff]
  | windowsEvent =>
      exact parseWindowsEvent_returns_iff libs lines
  | generic =>
      simp only [parserOf, LinesPlain, parseGeneric,
        gather_returns_iff, genericLine_returns_iff]

variable (svc : LogService)

/- The lines are plain, their times are all with an offset or
all without one, and their statistics can be computed. -/
structure Fit
    (lines : List Str)
    (logFormat : LogFormat) : Prop where
  plain : LinesPlain svc.libs logFormat lines
  oneClock :
    OneClock (entriesOf (parserOf svc.libs logFormat lines))
  statistics :
    StatisticsFit svc.numbers svc.settings
      (entriesOf (parserOf svc.libs logFormat lines))

theorem findingsOf_returns_iff
    (entries : List ParsedLogEntry) :
    Returns (findingsOf svc entries) ↔
      OneClock entries ∧
        StatisticsFit svc.numbers svc.settings entries := by
  unfold findingsOf
  rw [inTurn_returns_iff]
  simp only [List.forall_mem_cons, List.not_mem_nil,
    false_implies, implies_true, and_true, returns_ok, true_and,
    patternDetector_returns, statisticalDetector_returns_iff,
    temporalDetector_returns_iff]
  exact and_comm

theorem analysis_returns_iff
    (lines : List Str) (logFormat : LogFormat) :
    Returns (runAnalysis svc lines logFormat) ↔
      Fit svc lines logFormat := by
  have hPlain := parser_returns_iff svc.libs logFormat lines
  unfold runAnalysis
  cases hParse : parserOf svc.libs logFormat lines with
  | error e =>
      rw [hParse] at hPlain
      refine iff_of_false (not_returns_error e) ?_
      intro hFit
      exact not_returns_error e (hPlain.mpr hFit.plain)
  | ok p =>
      rw [hParse] at hPlain
      have hFindings :
          Returns (match findingsOf svc p.entries with
            | .error e => .error e
            | .ok findings =>
                .ok (resultOf svc lines logFormat p findings)) ↔
            Returns (findingsOf svc p.entries) := by
        cases findingsOf svc p.entries <;> simp
      dsimp only
      rw [hFindings, findingsOf_returns_iff]
      constructor
      · rintro ⟨hClock, hStatistics⟩
        refine ⟨hPlain.mp (returns_ok p), ?_, ?_⟩
        · rw [hParse]
          exact hClock
        · rw [hParse]
          exact hStatistics
      · rintro ⟨_, hClock, hStatistics⟩
        rw [hParse] at hClock hStatistics
        exact ⟨hClock, hStatistics⟩

end

---- Lines Kept Apart

section

/- A loop over the lines keeps them apart. -/
theorem gather_keepsApart
    {f : Str → Except LogError Parsed} {lines : List Str}
    (hReturns : Returns (gather f lines)) :
    KeepsApart (gather f) lines := by
  refine ⟨lines.map fun line => entriesOf (f line),
    List.length_map _, ?_, ?_⟩
  · rcases hReturns with ⟨p, hP⟩
    exact ⟨p, hP, entries_of_gather hP⟩
  · intro i _
    have hRest : Returns (gather f (lines.eraseIdx i)) := by
      rw [gather_returns_iff] at hReturns ⊢
      intro line hLine
      exact hReturns line (List.mem_of_mem_eraseIdx hLine)
    rcases hRest with ⟨p, hP⟩
    refine ⟨p, hP, ?_⟩
    rw [List.eraseIdx_map]
    exact entries_of_gather hP

theorem KeepsApart.congr
    {parser other : List Str → Except LogError Parsed}
    {lines : List Str}
    (hKeeps : KeepsApart other lines)
    (hSame : parser lines = other lines)
    (hRest :
      ∀ i, i < lines.length →
        parser (lines.eraseIdx i) = other (lines.eraseIdx i)) :
    KeepsApart parser lines := by
  rcases hKeeps with ⟨own, hLength, hAll, hOthers⟩
  refine ⟨own, hLength, ?_, ?_⟩
  · rw [hSame]
    exact hAll
  · intro i hI
    rw [hRest i hI]
    exact hOthers i hI

/- Steps that give nothing can be left out. -/
theorem gather_around
    {α : Type} {f : α → Except LogError Parsed}
    {before after : List α}
    (a : α) (hBefore : ∀ b ∈ before, f b = .ok ⟨[], 0⟩)
    (hAfter : ∀ b ∈ after, f b = .ok ⟨[], 0⟩) :
    gather f (before ++ a :: after) = gather f [a] := by
  induction before with
  | nil =>
      have hNone : gather f after = .ok ⟨[], 0⟩ := by
        induction after with
        | nil => rfl
        | cons b after ih =>
            rw [List.forall_mem_cons] at hAfter
            rw [gather, hAfter.1, ih hAfter.2]
            rfl
      rw [List.nil_append, gather, hNone]
      rfl
  | cons b before ih =>
      rw [List.forall_mem_cons] at hBefore
      rw [List.cons_append, gather, hBefore.1, ih hBefore.2]
      cases gather f [a] with
      | error e => rfl
      | ok p => simp

theorem rstrip_eq_nil_iff (s : Str) :
    rstrip s = [] ↔ ∀ c ∈ s, isSpace c = true := by
  unfold rstrip
  rw [List.reverse_eq_nil_iff, List.dropWhile_eq_nil_iff]
  simp only [List.mem_reverse]

variable [Unicode]
variable {libs : LogLibs}

/- The windows parser goes line by line. -/
def ByLines
    (libs : LogLibs)
    (lines : List Str) : Prop :=
  (joinedText lines).head? = some (cp '[') →
    libs.loads (joinedText lines) = .decodeError

theorem parse_of_byLines
    {lines : List Str}
    (hBy : ByLines libs lines) :
    parseWindowsEvent libs lines =
      gather (windowsLine libs) lines := by
  unfold parseWindowsEvent
  by_cases hOpens : (joinedText lines).head? = some (cp '[')
  · rw [if_pos hOpens, hBy hOpens]
  · rw [if_neg hOpens]

/- A line with nothing but white space. -/
def Blank (line : Str) : Prop :=
  rstrip line = []

/- No line but one has more than white space. -/
def OneLine (lines : List Str) : Prop :=
  ∃ before line after,
    lines = before ++ line :: after ∧
    (∀ b ∈ before, Blank b) ∧ ∀ b ∈ after, Blank b

omit [Unicode] in
/- White space where the lines of a text are joined. -/
theorem spaces_of_joined
    {s : Str} {lines : List Str}
    (hIn : ∀ c ∈ s, c ∈ [10] ∨ ∃ w ∈ lines, c ∈ w)
    (hBlank : ∀ b ∈ lines, Blank b) :
    ∀ c ∈ s, isSpace c = true := by
  intro c hC
  rcases hIn c hC with hNewline | ⟨w, hW, hIs⟩
  · rw [List.mem_singleton.mp hNewline]
    rfl
  · exact (rstrip_eq_nil_iff w).mp (hBlank w hW) c hIs

omit [Unicode] in
theorem joinedText_around
    {before after : List Str}
    (line : Str) (hBefore : ∀ b ∈ before, Blank b)
    (hAfter : ∀ b ∈ after, Blank b) :
    joinedText (before ++ line :: after) = strip line := by
  rcases joinWith_around [10] before after line with
    ⟨front, back, hJoin, hFront, hBack⟩
  unfold joinedText
  rw [hJoin]
  exact strip_around line (spaces_of_joined hFront hBefore)
    (spaces_of_joined hBack hAfter)

theorem windowsLine_of_blank
    {line : Str}
    (hBlank : Blank line) :
    windowsLine libs line = .ok ⟨[], 0⟩ := by
  unfold windowsLine
  exact if_pos hBlank

/- Blank lines around a line change nothing. -/
theorem parse_around
    {before after : List Str}
    (line : Str) (hBefore : ∀ b ∈ before, Blank b)
    (hAfter : ∀ b ∈ after, Blank b) :
    parseWindowsEvent libs (before ++ line :: after) =
      parseWindowsEvent libs [line] := by
  have hJoined := joinedText_around line hBefore hAfter
  have hAlone : joinedText [line] = strip line := rfl
  have hGather :
      gather (windowsLine libs) (before ++ line :: after) =
        gather (windowsLine libs) [line] :=
    gather_around line
      (fun b hB => windowsLine_of_blank (hBefore b hB))
      fun b hB => windowsLine_of_blank (hAfter b hB)
  unfold parseWindowsEvent
  rw [hJoined, hAlone, hGather]

theorem parse_of_blank
    {lines : List Str}
    (hBlank : ∀ b ∈ lines, Blank b) :
    parseWindowsEvent libs lines = .ok ⟨[], 0⟩ := by
  cases lines with
  | nil => rfl
  | cons first rest =>
      rw [List.forall_mem_cons] at hBlank
      have hNone : ∀ b ∈ ([] : List Str), Blank b :=
        List.forall_mem_nil _
      have hStrip : joinedText [first] = [] := by
        have hSpaces := (rstrip_eq_nil_iff first).mp hBlank.1
        exact @strip_around [] first [] (List.forall_mem_nil _)
          hSpaces
      have hAlone :
          parseWindowsEvent libs ([] ++ first :: rest) =
            parseWindowsEvent libs [first] :=
        parse_around first hNone hBlank.2
      rw [List.nil_append] at hAlone
      rw [hAlone]
      unfold parseWindowsEvent
      rw [hStrip]
      have hLine : windowsLine libs first = .ok ⟨[], 0⟩ :=
        windowsLine_of_blank hBlank.1
      simp only [List.head?_nil, reduceCtorEq, if_false, gather,
        hLine]
      rfl

theorem oneLine_keepsApart
    {lines : List Str}
    (hOne : OneLine lines)
    (hReturns : Returns (parseWindowsEvent libs lines)) :
    KeepsApart (parseWindowsEvent libs) lines := by
  rcases hOne with ⟨before, line, after, rfl, hBefore, hAfter⟩
  rcases hReturns with ⟨p, hP⟩
  have hAlone : parseWindowsEvent libs [line] = .ok p := by
    rw [← parse_around line hBefore hAfter]
    exact hP
  have hNothing (l : List Str) :
      (l.map fun _ => ([] : List ParsedLogEntry)).flatten =
        [] := by
    rw [List.flatten_eq_nil_iff]
    intro own hOwn
    rcases List.mem_map.mp hOwn with ⟨_, _, rfl⟩
    rfl
  refine ⟨before.map (fun _ => []) ++
    p.entries :: after.map fun _ => [], ?_, ⟨p, hP, ?_⟩, ?_⟩
  · simp
  · rw [List.flatten_append, List.flatten_cons, hNothing,
      hNothing, List.nil_append, List.append_nil]
  · intro i hI
    have hLength :
        (before.map fun _ =>
          ([] : List ParsedLogEntry)).length = before.length :=
      List.length_map _
    rcases Nat.lt_or_ge i before.length with hLow | hHigh
    · rw [List.eraseIdx_append_of_lt_length hLow,
        List.eraseIdx_append_of_lt_length
          (hLength.symm ▸ hLow)]
      refine ⟨p, ?_, ?_⟩
      · rw [parse_around line (fun b hB =>
          hBefore b (List.mem_of_mem_eraseIdx hB)) hAfter]
        exact hAlone
      · rw [List.eraseIdx_map, List.flatten_append,
          List.flatten_cons, hNothing, hNothing,
          List.nil_append, List.append_nil]
    · rw [List.eraseIdx_append_of_length_le hHigh,
        List.eraseIdx_append_of_length_le
          (hLength.symm ▸ hHigh), hLength]
      cases hAt : i - before.length with
      | zero =>
          refine ⟨⟨[], 0⟩, parse_of_blank ?_, ?_⟩
          · intro b hB
            rcases List.mem_append.mp hB with hIn | hIn
            · exact hBefore b hIn
            · exact hAfter b hIn
          · rw [List.eraseIdx_cons_zero, List.flatten_append,
              hNothing, hNothing]
            rfl
      | succ k =>
          refine ⟨p, ?_, ?_⟩
          · rw [List.eraseIdx_cons_succ,
              parse_around line hBefore fun b hB =>
                hAfter b (List.mem_of_mem_eraseIdx hB)]
            exact hAlone
          · rw [List.eraseIdx_cons_succ, List.eraseIdx_map,
              List.flatten_append, List.flatten_cons, hNothing,
              hNothing, List.nil_append, List.append_nil]

/- The lines of a windows log are read one by one, and so are
they without any of them; or there is only one line. -/
def Layout
    (libs : LogLibs)
    (lines : List Str)
    (logFormat : LogFormat) : Prop :=
  logFormat = .windowsEvent →
    (ByLines libs lines ∧
      ∀ i, i < lines.length → ByLines libs (lines.eraseIdx i)) ∨
    OneLine lines

theorem parser_keepsApart
    {lines : List Str} {logFormat : LogFormat}
    (hReturns : Returns (parserOf libs logFormat lines))
    (hLayout : Layout libs lines logFormat) :
    KeepsApart (parserOf libs logFormat) lines := by
  cases logFormat with
  | syslog => exact gather_keepsApart hReturns
  | apache => exact gather_keepsApart hReturns
  | generic => exact gather_keepsApart hReturns
  | windowsEvent =>
      rcases hLayout rfl with ⟨hBy, hRest⟩ | hOne
      · have hLines : Returns (parseWindowsEvent libs lines) :=
          hReturns
        rw [parse_of_byLines hBy] at hLines
        exact (gather_keepsApart hLines).congr
          (parse_of_byLines hBy)
          fun i hI => parse_of_byLines (hRest i hI)
      · exact oneLine_keepsApart hOne hReturns

/- An analysis that fails for no line has lines that are plain,
times that can be compared and statistics that can be
computed; and with these none fails, where no line changes
how the others are read. -/
theorem analysis_never_fails
    (svc : LogService)
    (lines : List Str)
    (logFormat : LogFormat) :
    (NeverFails svc lines logFormat →
      Fit svc lines logFormat) ∧
    (Fit svc lines logFormat →
      Layout svc.libs lines logFormat →
        NeverFails svc lines logFormat) := by
  have hIff := analysis_returns_iff svc lines logFormat
  constructor
  · intro hNever
    exact hIff.mp hNever.returns
  · intro hFit hLayout
    refine ⟨hIff.mpr hFit, ?_⟩
    have hReturns :=
      (parser_returns_iff svc.libs logFormat lines).mpr
        hFit.plain
    exact parser_keepsApart hReturns hLayout

end

---- Two Logs

local instance analysisUnicode : Unicode := asciiTables

def loginLine : Str :=
  lit "\x7b\"EventID\": 4624\x7d"

def methodLine : Str :=
  lit "\x7b\"method\": 1\x7d"

/- A library that knows some JSON. -/
def someLibs : LogLibs where
  year := 2026
  upper s := s.map fun c =>
    if cp 'a' ≤ c && c ≤ cp 'z' then c - 32 else c
  isdigit s := s != [] && s.all Lib.isDigit
  loads s :=
    if s = loginLine then
      .value (.dict [(lit "EventID", .int 4624)])
    else if s = methodLine then
      .value (.dict [(lit "method", .int 1)])
    else if s = lit "[\x7b\x7d\n]" then .value (.list [.dict []])
    else .decodeError
  dumps v :=
    match v with
    | .dict [] => lit "\x7b\x7d"
    | _ => loginLine
  strptime _ _ := none
  fromIso _ := none

def someService : LogService where
  libs := someLibs
  numbers :=
    { trueDiv := fun n d =>
        (floatOfInt n).map fun x => x / Float.ofNat d
      sum := fun values => values.foldl (· + ·) 0
      fixed := fun _ _ => []
      roundTo := fun _ x => x
      thousands := fun _ => [] }
  settings :=
    { zscoreThreshold := 3.0
      rateSpikeRpm := 120
      errorRatePct := 40.0
      businessStart := 7
      businessEnd := 20
      burstCount := 20
      burstSeconds := 10
      critical := 80
      high := 50
      medium := 25 }
  runMlDetector _ := []
  setOrder types := types
  duration := 0.001
  now := ⟨0, some 0⟩

/- A line that is no JSON, before a record. -/
def startedLines : List Str :=
  [lit "started", loginLine]

theorem started_never_fails :
    NeverFails someService startedLines .windowsEvent := by
  have hTimes :
      (entriesOf (parserOf someLibs .windowsEvent
        startedLines)).map ParsedLogEntry.timestamp =
          [none, none] := rfl
  refine (analysis_never_fails someService startedLines
    .windowsEvent).2 ⟨?_, ?_, ?_⟩ ?_
  · have hOpens :
        ¬ (joinedText startedLines).head? = some (cp '[') := by
      decide
    have hRecord :
        RecordPlain (.dict [(lit "EventID", .int 4624)]) := by
      intro record hIs
      cases hIs
      refine ⟨[], [], rfl, rfl, ?_, ?_, Or.inl rfl, Or.inl rfl,
        Or.inl rfl⟩
      · exact Or.inr (Or.inr (Or.inr ⟨[], rfl, [], rfl⟩))
      · exact Or.inr (Or.inr (Or.inr ⟨[], rfl⟩))
    show WindowsLinesPlain someLibs startedLines
    unfold WindowsLinesPlain
    rw [if_neg hOpens]
    refine List.forall_mem_cons.mpr ⟨fun _ => trivial,
      List.forall_mem_singleton.mpr fun _ => hRecord⟩
  · intro e hE f hF m n hM hN
    have hTime :
        e.timestamp ∈ (entriesOf (parserOf someLibs
          .windowsEvent startedLines)).map
            ParsedLogEntry.timestamp :=
      List.mem_map_of_mem hE
    rw [hTimes, hM] at hTime
    simp at hTime
  · have hNoTimes : timedBySource (entriesOf
        (parserOf someLibs .windowsEvent startedLines)) = [] :=
      rfl
    have hNoPaths : pathsBySource (entriesOf
        (parserOf someLibs .windowsEvent startedLines)) = [] :=
      rfl
    have hNoWindows : statusWindows (entriesOf
        (parserOf someLibs .windowsEvent startedLines)) = [] :=
      rfl
    have hNoSizes : byteEntries (entriesOf
        (parserOf someLibs .windowsEvent startedLines)) = [] :=
      rfl
    refine ⟨⟨0, 0, ?_, ?_⟩, ?_, ?_, ⟨0, 0, ?_, ?_⟩⟩
    · exact congrArg (fun g => meanStd someService.numbers
        (g.map fun p => (busiest p.2 : Int))) hNoTimes
    · intro g hG
      have hIn := hNoTimes ▸ hG
      cases hIn
    · intro window hWindow
      have hIn := hNoWindows ▸ hWindow
      cases hIn
    · intro hMany
      have hNot := hNoSizes ▸ hMany
      exact absurd hNot (by decide)
    · exact congrArg (fun g => meanStd someService.numbers
        (g.map fun p => (pathCount p.2 : Int))) hNoPaths
    · intro g hG
      have hIn := hNoPaths ▸ hG
      cases hIn
  · intro _
    refine Or.inl ⟨fun hOpens => ?_, fun i hI hOpens => ?_⟩
    · exact absurd hOpens (by decide)
    · rcases i with _ | _ | i
      · exact absurd hOpens (by decide)
      · exact absurd hOpens (by decide)
      · exact absurd hI (Nat.not_lt.mpr (Nat.le_add_left 2 i))

/- A number for a method raises, and a line of an array is read
otherwise without the next. -/
theorem lines_fail_others :
    ¬ NeverFails someService [methodLine] .generic ∧
    ¬ NeverFails someService [lit "[\x7b\x7d", lit "]"]
        .windowsEvent := by
  constructor
  · rintro ⟨⟨result, hResult⟩, _⟩
    have hError :
        runAnalysis someService [methodLine] .generic =
          .error .validationError := rfl
    rw [hError] at hResult
    cases hResult
  · rintro ⟨_, own, hLength, ⟨p, hP, hAll⟩, hOthers⟩
    rcases hOthers 1 (by decide) with ⟨q, hQ, hRest⟩
    match own, hLength with
    | [first, second], _ =>
        have hFirst : q.entries = first := by
          rw [hRest]
          exact List.append_nil first
        have hBoth : p.entries = first ++ second := by
          rw [hAll]
          simp
        have hRaws :
            p.entries.map ParsedLogEntry.raw =
              [lit "\x7b\x7d"] := by
          cases hP
          rfl
        have hRaw :
            q.entries.map ParsedLogEntry.raw =
              [lit "[\x7b\x7d"] := by
          cases hQ
          rfl
        rw [hBoth, List.map_append, ← hFirst, hRaw] at hRaws
        exact absurd (List.cons.inj hRaws).1 (by decide)

end ThreatOrbit.Logs
