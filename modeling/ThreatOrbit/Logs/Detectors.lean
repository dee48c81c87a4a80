import ThreatOrbit.Logs.Entries
import ThreatOrbit.Lib.Firsts
import ThreatOrbit.Lib.Grouping

/-
  The detectors of the log service: what they find in the
  entries of a log, and what is reported of it.

  A finding has a score from 0 to 100, and one that has not is
  refused by its model.
-/

---- Findings

namespace ThreatOrbit.Logs

open Lib

inductive Severity where
| critical
| high
| medium
| low
| info
deriving DecidableEq, Repr

structure MitreTag where
  techniqueId : Str
  techniqueName : Str
  tactic : Str
  url : Str
deriving DecidableEq, Repr

structure AnomalyFinding where
  detector : Str
  findingType : Str
  description : Str
  severityScore : Int
  severity : Severity
  sourceIp : Option Str
  username : Option Str
  timestamp : Option Moment
  evidence : List Str
  mitreTags : List MitreTag
  count : Nat
  extra : List (Str × PyVal)

/- The configuration. -/
structure LogSettings where
  zscoreThreshold : Float
  rateSpikeRpm : Nat
  errorRatePct : Float
  businessStart : Int
  businessEnd : Int
  burstCount : Nat
  burstSeconds : Nat
  critical : Int
  high : Int
  medium : Int

/- What the detectors use of the built-in numbers: the quotient
of two integers (nothing where it is too large for a double),
the sum of doubles, and how numbers are written. -/
structure NumberLibs where
  trueDiv : Int → Nat → Option Float
  sum : List Float → Float
  fixed : Nat → Float → Str
  roundTo : Nat → Float → Float
  thousands : Int → Str

/- The model takes a score from 0 to 100. -/
def makeFinding
    (f : AnomalyFinding) : Except LogError AnomalyFinding :=
  if 0 ≤ f.severityScore ∧ f.severityScore ≤ 100 then .ok f
  else .error .validationError

/- `_score_to_severity` of the detectors. -/
def scoreToSeverity
    (settings : LogSettings)
    (score : Int) : Severity :=
  if settings.critical ≤ score then .critical
  else if settings.high ≤ score then .high
  else if settings.medium ≤ score then .medium
  else .low

/- A technique with its page. -/
def mitreTag (id name tactic : String) : MitreTag where
  techniqueId := lit id
  techniqueName := lit name
  tactic := lit tactic
  url :=
    lit "https://attack.mitre.org/techniques/" ++
      replaceAll (lit ".") (lit "/") (lit id) ++ lit "/"

/- The first lines of some entries. -/
def evidenceOf (entries : List ParsedLogEntry) : List Str :=
  (entries.take 5).map fun e => e.raw.take 200

/- The loop that makes findings: the first that raises ends
it. -/
def report
    {α : Type}
    (f : α → Except LogError (Option AnomalyFinding)) :
    List α → Except LogError (List AnomalyFinding)
| [] => .ok []
| a :: rest =>
    match f a with
    | .error e => .error e
    | .ok found =>
        match report f rest with
        | .error e => .error e
        | .ok more => .ok (found.toList ++ more)

/- A finding whose score is a base and a part that may not be
an integer. -/
def scoredFinding
    (base : Int)
    (part : Float)
    (finding : Int → AnomalyFinding) :
    Except LogError (Option AnomalyFinding) :=
  match truncFloat part with
  | none => .error .overflowError
  | some n => (makeFinding (finding (min 100 (base + n)))).map some

/- `a or b or "unknown"`. -/
def keyOf (a b : Option Str) : Str :=
  orStr a (orStr b (lit "unknown"))

/- A text that is not empty. -/
def someText : Option Str → Option Str
| some [] => none
| s => s

---- Patterns

open Lib Regex

structure Signature where
  name : Str
  fields : List (ParsedLogEntry → Option Str)
  pattern : Regex
  description : Str
  score : Int
  mitre : MitreTag

def rawField (e : ParsedLogEntry) : Option Str :=
  some e.raw

/- `SIGNATURES`. -/
def signatures : List Signature :=
  [{ name := lit "sql_injection"
     fields :=
       [ParsedLogEntry.httpPath, ParsedLogEntry.message, rawField]
     pattern :=
       oneOf [wordI "union", wordI "select",
         .cat [wordI "drop", spaces, wordI "table"],
         .cat [wordI "or", spaces, wordI "'1'='1"],
         wordI "information_schema", wordI "xp_cmdshell"]
     description := lit "SQL Injection attempt detected in request"
     score := 75
     mitre :=
       mitreTag "T1190" "Exploit Public-Facing Application"
         "Initial Access" },
    { name := lit "xss_attempt"
      fields :=
        [ParsedLogEntry.httpPath, ParsedLogEntry.message,
          rawField]
      pattern :=
        oneOf [wordI "<script", wordI "javascript:",
          wordI "onerror=", wordI "alert("]
      description :=
        lit "Cross-Site Scripting (XSS) attempt detected"
      score := 55
      mitre :=
        mitreTag "T1190" "Exploit Public-Facing Application"
          "Initial Access" },
    { name := lit "path_traversal"
      fields :=
        [ParsedLogEntry.httpPath, ParsedLogEntry.message,
          rawField]
      pattern :=
        oneOf [wordI "../", wordI "%2e%2e", wordI "/etc/passwd",
          wordI "/etc/shadow"]
      description :=
        lit "Path traversal / directory traversal attempt"
      score := 65
      mitre :=
        mitreTag "T1083" "File and Directory Discovery"
          "Discovery" },
    { name := lit "scanner_useragent"
      fields := [ParsedLogEntry.userAgent, rawField]
      pattern :=
        oneOf [wordI "nikto", wordI "sqlmap", wordI "nmap",
          wordI "masscan",
          .seq (wordI "curl/") (.cls Lib.isDigit),
          wordI "python-requests/"]
      description :=
        lit "Known scanner or attack tool user-agent detected"
      score := 60
      mitre :=
        mitreTag "T1595" "Active Scanning" "Reconnaissance" },
    { name := lit "log4shell"
      fields :=
        [ParsedLogEntry.httpPath, ParsedLogEntry.message,
          ParsedLogEntry.userAgent, rawField]
      pattern := wordI "$\x7bjndi:"
      description :=
        lit "Log4Shell (CVE-2021-44228) exploitation attempt"
      score := 95
      mitre :=
        mitreTag "T1190" "Exploit Public-Facing Application"
          "Initial Access" }]

/- A field of the entry has the pattern. -/
def Signature.hits (sig : Signature) (e : ParsedLogEntry) : Bool :=
  sig.fields.any fun field =>
    match someText (field e) with
    | none => false
    | some text => sig.pattern.found text

/- The entries of each signature, then of each source. -/
def patternHits
    (entries : List ParsedLogEntry) :
    List (Signature × List ParsedLogEntry) :=
  (collect (entries.flatMap fun e =>
    (signatures.filter fun sig => sig.hits e).map fun sig =>
      (sig.name, e))).flatMap fun hit =>
    match signatures.find? fun sig => decide (sig.name = hit.1) with
    | none => []
    | some sig =>
        (collect (hit.2.map fun e =>
          (keyOf e.sourceIp e.username, e))).map fun group =>
            (sig, group.2)

def patternScore (sig : Signature) (count : Nat) : Int :=
  min 100 (sig.score + (if 5 < count then 10 else 0) +
    (if 20 < count then 15 else 0))

def patternFinding
    (settings : LogSettings)
    (hit : Signature × List ParsedLogEntry) :
    Except LogError (Option AnomalyFinding) :=
  let count := hit.2.length
  let score := patternScore hit.1 count
  (makeFinding
    { detector := lit "Pattern Detector"
      findingType := hit.1.name
      description :=
        hit.1.description ++ lit " (" ++ natStr count ++
          lit " event" ++
          (if 1 < count then lit "s" else []) ++ lit ")"
      severityScore := score
      severity := scoreToSeverity settings score
      sourceIp := hit.2.head?.bind ParsedLogEntry.sourceIp
      username := hit.2.head?.bind ParsedLogEntry.username
      timestamp := hit.2.head?.bind ParsedLogEntry.timestamp
      evidence := evidenceOf hit.2
      mitreTags := [hit.1.mitre]
      count := count
      extra := [] }).map some

def runPatternDetector
    (settings : LogSettings)
    (entries : List ParsedLogEntry) :
    Except LogError (List AnomalyFinding) :=
  report (patternFinding settings) (patternHits entries)

---- Statistics

section

variable (numbers : NumberLibs)
variable (settings : LogSettings)

/- `(x - mean) ** 2`, or nothing where it overflows. -/
def squareFrom (mean : Float) (x : Int) : Option Float :=
  (floatOfInt x).bind fun y =>
    let d := y - mean
    let square := d * d
    if square.isInf && !d.isInf then none else some square

/- `_mean_std`, or nothing where it overflows. -/
def meanStd (values : List Int) : Option (Float × Float) :=
  if values = [] then some (0, 0)
  else
    (numbers.trueDiv values.sum values.length).bind fun mean =>
      (values.mapM (squareFrom mean)).map fun squares =>
        (mean,
          (numbers.sum squares / Float.ofNat values.length).sqrt)

/- `(x - mean) / std if std > 0 else 0`. -/
def zScore (mean std : Float) (count : Nat) : Float :=
  if 0 < std then (Float.ofNat count - mean) / std else 0

/- The minute of a clock, as text. -/
def minuteText (minute : Int) : Str :=
  let day := (minute / 1440).toNat
  let date := yearAndDay day
  let month := monthAndDay date.1 date.2
  natStr date.1 ++ lit "-" ++ pad 2 month.1 ++ lit "-" ++
    pad 2 (month.2 + 1) ++ lit " " ++
    pad 2 (minute / 60 % 24).toNat ++ lit ":" ++
    pad 2 (minute % 60).toNat

def Moment.minute (m : Moment) : Int :=
  m.clock / 60000000

/- The entries with a source and a time, by source. -/
def timedBySource
    (entries : List ParsedLogEntry) :
    List (Str × List (Str × ParsedLogEntry)) :=
  collect (entries.filterMap fun e =>
    match someText e.sourceIp, e.timestamp with
    | some ip, some m => some (ip, (minuteText m.minute, e))
    | _, _ => none)

/- The entries of the busiest minute. -/
def busiest (group : List (Str × ParsedLogEntry)) : Nat :=
  ((collect group).map fun bucket => bucket.2.length).foldl max 0

/- The sources that are reported for their rate, with their
z-scores. -/
def rateSpikes
    (mean std : Float)
    (groups : List (Str × List (Str × ParsedLogEntry))) :
    List ((Str × List (Str × ParsedLogEntry)) × Float) :=
  (groups.map fun g => (g, zScore mean std (busiest g.2))).filter
    fun g =>
      settings.rateSpikeRpm ≤ busiest g.1.2 ||
        settings.zscoreThreshold ≤ g.2

def rateFinding
    (g : (Str × List (Str × ParsedLogEntry)) × Float) :
    Except LogError (Option AnomalyFinding) :=
  let entries := g.1.2.map Prod.snd
  scoredFinding 40 (g.2 * 10) fun score =>
    { detector := lit "Statistical Detector"
      findingType := lit "request_rate_spike"
      description :=
        lit "IP " ++ g.1.1 ++ lit " sent " ++
          natStr (busiest g.1.2) ++
          lit " requests/minute (Z-score: " ++
          numbers.fixed 1 g.2 ++ lit ")."
      severityScore := score
      severity := scoreToSeverity settings score
      sourceIp := some g.1.1
      username := none
      timestamp := entries.head?.bind ParsedLogEntry.timestamp
      evidence := evidenceOf entries
      mitreTags :=
        [mitreTag "T1110" "Brute Force" "Credential Access"]
      count := entries.length
      extra :=
        [(lit "max_rpm", .int (busiest g.1.2)),
          (lit "z_score", .float (numbers.roundTo 2 g.2))] }

def detectRequestRateSpike
    (entries : List ParsedLogEntry) :
    Except LogError (List AnomalyFinding) :=
  let groups := timedBySource entries
  match meanStd numbers (groups.map fun g => (busiest g.2 : Int)) with
  | none => .error .overflowError
  | some (mean, std) =>
      report (rateFinding numbers settings)
        (rateSpikes settings mean std groups)

/- The entries with a status and a time, by window of five
minutes. -/
def statusWindows
    (entries : List ParsedLogEntry) :
    List (Str × List (Int × ParsedLogEntry)) :=
  collect (entries.filterMap fun e =>
    match e.httpStatus, e.timestamp with
    | some status, some m =>
        some (minuteText (m.minute - m.minute % 5), (status, e))
    | _, _ => none)

def errorsIn (window : List (Int × ParsedLogEntry)) : Nat :=
  (window.filter fun e => decide (400 ≤ e.1)).length

def errorFinding
    (window : Str × List (Int × ParsedLogEntry)) :
    Except LogError (Option AnomalyFinding) :=
  let total := window.2.length
  if total < 10 then .ok none
  else
    match numbers.trueDiv (errorsIn window.2) total with
    | none => .error .overflowError
    | some share =>
        let pct := share * 100
        if pct < settings.errorRatePct then .ok none
        else
          let entries := window.2.map Prod.snd
          scoredFinding 0 pct fun score =>
            { detector := lit "Statistical Detector"
              findingType := lit "error_rate_spike"
              description :=
                numbers.fixed 0 pct ++
                  lit "% error rate in window " ++ window.1 ++
                  lit " (" ++ natStr (errorsIn window.2) ++
                  lit "/" ++ natStr total ++ lit ")."
              severityScore := score
              severity := scoreToSeverity settings score
              sourceIp := none
              username := none
              timestamp :=
                entries.head?.bind ParsedLogEntry.timestamp
              evidence := evidenceOf entries
              mitreTags :=
                [mitreTag "T1595" "Active Scanning"
                  "Reconnaissance"]
              count := total
              extra :=
                [(lit "error_pct",
                    .float (numbers.roundTo 1 pct)),
                  (lit "window", .str window.1)] }

def detectErrorRateSpike
    (entries : List ParsedLogEntry) :
    Except LogError (List AnomalyFinding) :=
  report (errorFinding numbers settings) (statusWindows entries)

/- The entries with a byte count over zero. -/
def byteEntries
    (entries : List ParsedLogEntry) :
    List (ParsedLogEntry × Int) :=
  entries.filterMap fun e =>
    match e.bytesSent with
    | none => none
    | some n => if 0 < n then some (e, n) else none

def bytesFinding
    (mean std : Float)
    (p : ParsedLogEntry × Int) :
    Except LogError (Option AnomalyFinding) :=
  match floatOfInt p.2 with
  | none => .error .overflowError
  | some b =>
      let z := (b - mean) / std
      if z < settings.zscoreThreshold then .ok none
      else
        scoredFinding 45 (z * 8) fun score =>
          { detector := lit "Statistical Detector"
            findingType := lit "large_response_bytes"
            description :=
              lit "Unusually large response: " ++
                numbers.thousands p.2 ++
                lit " bytes (Z-score: " ++ numbers.fixed 1 z ++
                lit ")."
            severityScore := score
            severity := scoreToSeverity settings score
            sourceIp := p.1.sourceIp
            username := none
            timestamp := p.1.timestamp
            evidence := evidenceOf [p.1]
            mitreTags :=
              [mitreTag "T1030" "Data Transfer Size Limits"
                "Exfiltration"]
            count := 1
            extra := [] }

def detectBytesAnomaly
    (entries : List ParsedLogEntry) :
    Except LogError (List AnomalyFinding) :=
  let sized := byteEntries entries
  if sized.length < 20 then .ok []
  else
    match meanStd numbers (sized.map Prod.snd) with
    | none => .error .overflowError
    | some (mean, std) =>
        if std == 0 then .ok []
        else report (bytesFinding numbers settings mean std) sized

/- The entries with a source and a path, by source. -/
def pathsBySource
    (entries : List ParsedLogEntry) :
    List (Str × List (Str × ParsedLogEntry)) :=
  collect (entries.filterMap fun e =>
    match someText e.sourceIp, someText e.httpPath with
    | some ip, some path => some (ip, (path, e))
    | _, _ => none)

/- The different paths of a source. -/
def pathCount (group : List (Str × ParsedLogEntry)) : Nat :=
  (firstsBy id [] (group.map Prod.fst)).length

def pathFinding
    (mean std : Float)
    (g : Str × List (Str × ParsedLogEntry)) :
    Except LogError (Option AnomalyFinding) :=
  let count := pathCount g.2
  let z := zScore mean std count
  if z < settings.zscoreThreshold || count < 20 then .ok none
  else
    let entries := g.2.map Prod.snd
    scoredFinding 40 (z * 8) fun score =>
      { detector := lit "Statistical Detector"
        findingType := lit "path_enumeration"
        description :=
          lit "IP " ++ g.1 ++ lit " accessed " ++ natStr count ++
            lit " unique paths (Z-score: " ++
            numbers.fixed 1 z ++ lit ")."
        severityScore := score
        severity := scoreToSeverity settings score
        sourceIp := some g.1
        username := none
        timestamp := entries.head?.bind ParsedLogEntry.timestamp
        evidence := evidenceOf entries
        mitreTags :=
          [mitreTag "T1595.003" "Wordlist Scanning"
            "Reconnaissance"]
        count := count
        extra := [] }

def detectPathEnumerationRate
    (entries : List ParsedLogEntry) :
    Except LogError (List AnomalyFinding) :=
  let groups := pathsBySource entries
  match meanStd numbers
      (groups.map fun g => (pathCount g.2 : Int)) with
  | none => .error .overflowError
  | some (mean, std) =>
      report (pathFinding numbers settings mean std) groups

/- One detector after another. -/
def inTurn :
    List (Except LogError (List AnomalyFinding)) →
      Except LogError (List AnomalyFinding)
| [] => .ok []
| first :: rest =>
    match first with
    | .error e => .error e
    | .ok found =>
        match inTurn rest with
        | .error e => .error e
        | .ok more => .ok (found ++ more)

def runStatisticalDetector
    (entries : List ParsedLogEntry) :
    Except LogError (List AnomalyFinding) :=
  inTurn
    [detectRequestRateSpike numbers settings entries,
      detectErrorRateSpike numbers settings entries,
      detectBytesAnomaly numbers settings entries,
      detectPathEnumerationRate numbers settings entries]

end

---- Times

section

/- The moment of a clock with an offset, or the clock itself. -/
def Moment.instant (m : Moment) : Int :=
  m.clock - m.offset.getD 0

def Moment.hour (m : Moment) : Int :=
  m.clock / 3600000000 % 24

/- `weekday()`; the first day of year 1 is a Monday. -/
def Moment.weekday (m : Moment) : Int :=
  m.clock / 86400000000 % 7

/- Two times cannot be compared if only one has an offset. -/
def clashing (entries : List ParsedLogEntry) : Bool :=
  (entries.any fun e =>
    (e.timestamp.map fun m => m.offset.isSome).getD false) &&
  entries.any fun e =>
    (e.timestamp.map fun m => m.offset.isNone).getD false

def instantOf (e : ParsedLogEntry) : Int :=
  (e.timestamp.map Moment.instant).getD 0

/- The time between two entries, in microseconds. -/
def between (first last : ParsedLogEntry) : Int :=
  instantOf last - instantOf first

def byTime (entries : List ParsedLogEntry) : List ParsedLogEntry :=
  entries.mergeSort fun a b => decide (instantOf a ≤ instantOf b)

variable (settings : LogSettings)

/- A finding of the temporal detector. -/
def temporalFinding
    (findingType : String)
    (description : Str)
    (score : Int)
    (severity : Severity)
    (sourceIp username : Option Str)
    (timestamp : Option Moment)
    (evidence : List Str)
    (tag : MitreTag)
    (count : Nat)
    (extra : List (Str × PyVal)) : AnomalyFinding where
  detector := lit "Temporal Detector"
  findingType := lit findingType
  description := description
  severityScore := score
  severity := severity
  sourceIp := sourceIp
  username := username
  timestamp := timestamp
  evidence := evidence
  mitreTags := [tag]
  count := count
  extra := extra

variable [Unicode]

def processIn
    (names : List Str)
    (e : ParsedLogEntry) : Bool :=
  names.contains (Unicode.lower (e.process.getD []))

omit [Unicode] in
def eventIn
    (ids : List Str)
    (e : ParsedLogEntry) : Bool :=
  (e.eventId.map ids.contains).getD false

omit [Unicode] in
def authProcesses : List Str :=
  [lit "sshd", lit "su", lit "sudo", lit "login", lit "passwd",
    lit "pam", lit "krb5", lit "kerberos"]

omit [Unicode] in
def sensitiveProcesses : List Str :=
  [lit "useradd", lit "userdel", lit "usermod", lit "passwd",
    lit "visudo", lit "crontab", lit "systemctl", lit "service"]

def offHours (e : ParsedLogEntry) : Bool :=
  match e.timestamp with
  | none => false
  | some m =>
      decide (m.hour < settings.businessStart) ||
        decide (settings.businessEnd ≤ m.hour)

def offHoursAuth (e : ParsedLogEntry) : Bool :=
  offHours settings e &&
    (processIn authProcesses e || processIn sensitiveProcesses e ||
      eventIn [lit "4624", lit "4625", lit "4648", lit "4672",
        lit "4720", lit "4726"] e)

omit [Unicode] in
def offHoursFinding
    (g : Str × List ParsedLogEntry) :
    Except LogError (Option AnomalyFinding) :=
  let n := g.2.length
  if n < 2 then .ok none
  else
    let score : Int := min 100 (45 + n * 2)
    (makeFinding (temporalFinding "off_hours_auth_activity"
      (natStr n ++
        lit " authentication/sensitive events outside business hours from " ++
        g.1 ++ lit ".")
      score (scoreToSeverity settings score)
      (g.2.head?.bind ParsedLogEntry.sourceIp)
      (g.2.head?.bind ParsedLogEntry.username)
      (g.2.head?.bind ParsedLogEntry.timestamp)
      (evidenceOf g.2)
      (mitreTag "T1078" "Valid Accounts" "Initial Access")
      n [])).map some

def detectOffHoursAuth
    (entries : List ParsedLogEntry) :
    Except LogError (List AnomalyFinding) :=
  report (offHoursFinding settings)
    (collect ((entries.filter (offHoursAuth settings)).map fun e =>
      (keyOf e.sourceIp e.username, e)))

omit [Unicode] in
/- The window of the first burst, and the entries after it: an
entry comes in, and those too long before it go. -/
def burstFrom :
    List ParsedLogEntry → List ParsedLogEntry →
      Option (List ParsedLogEntry × List ParsedLogEntry)
| _, [] => none
| window, e :: rest =>
    let kept := (window ++ [e]).dropWhile fun old =>
      decide ((settings.burstSeconds : Int) * 1000000 <
        between old e)
    if settings.burstCount ≤ kept.length then some (kept, rest)
    else burstFrom kept rest

omit [Unicode] in
def burstFinding
    (g : Str × List ParsedLogEntry) :
    Except LogError (Option AnomalyFinding) :=
  match burstFrom settings [] (byTime g.2) with
  | none => .ok none
  | some (window, rest) =>
      let n := window.length
      let score : Int := min 100 (50 + n)
      (makeFinding (temporalFinding "request_burst"
        (lit "IP " ++ g.1 ++ lit " sent " ++ natStr n ++
          lit " requests in " ++ natStr settings.burstSeconds ++
          lit " seconds.")
        score (scoreToSeverity settings score) (some g.1) none
        (window.head?.bind ParsedLogEntry.timestamp)
        (evidenceOf (window ++ rest))
        (mitreTag "T1498" "Network Denial of Service" "Impact")
        n
        [(lit "window_seconds", .int settings.burstSeconds)])).map
          some

omit [Unicode] in
def detectBurst
    (entries : List ParsedLogEntry) :
    Except LogError (List AnomalyFinding) :=
  report (burstFinding settings)
    (collect (entries.filterMap fun e =>
      (someText e.sourceIp).map fun ip => (ip, e)))

omit [Unicode] in
/- Each element with the one after it. -/
def neighbours (l : List ParsedLogEntry) :
    List (ParsedLogEntry × ParsedLogEntry) :=
  l.zip l.tail

omit [Unicode] in
def travelFinding
    (p : Str × ParsedLogEntry × ParsedLogEntry) :
    Except LogError (Option AnomalyFinding) :=
  let prev := p.2.1
  let curr := p.2.2
  if 300000000 < between prev curr then .ok none
  else if prev.sourceIp = curr.sourceIp then .ok none
  else
    (makeFinding (temporalFinding "impossible_travel"
      (lit "User '" ++ p.1 ++ lit "' active from " ++
        prev.sourceIp.getD [] ++ lit " then " ++
        curr.sourceIp.getD [] ++ lit " within short time.")
      70 .high curr.sourceIp (some p.1) curr.timestamp
      [prev.raw.take 200, curr.raw.take 200]
      (mitreTag "T1078" "Valid Accounts" "Initial Access")
      2 [])).map some

omit [Unicode] in
def detectImpossibleTravel
    (entries : List ParsedLogEntry) :
    Except LogError (List AnomalyFinding) :=
  report travelFinding
    ((collect (entries.filterMap fun e =>
        match someText e.username, someText e.sourceIp with
        | some user, some _ => some (user, e)
        | _, _ => none)).flatMap fun g =>
      (neighbours (byTime g.2)).map fun p => (g.1, p))

def weekendSensitive (e : ParsedLogEntry) : Bool :=
  (match e.timestamp with
    | none => false
    | some m => decide (5 ≤ m.weekday)) &&
    (processIn sensitiveProcesses e ||
      eventIn [lit "4720", lit "4726", lit "4698", lit "7045",
        lit "1102", lit "4719"] e)

omit [Unicode] in
def weekendFinding
    (g : Str × List ParsedLogEntry) :
    Except LogError (Option AnomalyFinding) :=
  let n := g.2.length
  let score : Int := min 100 (35 + n * 3)
  (makeFinding (temporalFinding "weekend_sensitive_activity"
    (natStr n ++ lit " sensitive operations on a weekend by " ++
      g.1 ++ lit ".")
    score (scoreToSeverity settings score) none
    (g.2.head?.bind ParsedLogEntry.username)
    (g.2.head?.bind ParsedLogEntry.timestamp)
    (evidenceOf g.2)
    (mitreTag "T1098" "Account Manipulation" "Persistence")
    n [])).map some

def detectWeekendActivity
    (entries : List ParsedLogEntry) :
    Except LogError (List AnomalyFinding) :=
  report (weekendFinding settings)
    (collect ((entries.filter weekendSensitive).map fun e =>
      (keyOf e.username e.sourceIp, e)))

def authFailure (e : ParsedLogEntry) : Bool :=
  (([lit "failed", lit "failure", lit "invalid", lit "denied",
      lit "error"].any fun w =>
        contains w (Unicode.lower (e.message.getD []))) &&
    processIn authProcesses e) ||
  eventIn [lit "4625"] e

omit [Unicode] in
def fmtDuration (duration : Int) : Str :=
  let minutes := (duration / 60000000).toNat
  if minutes / 60 = 0 then natStr (minutes % 60) ++ lit "m"
  else
    natStr (minutes / 60) ++ lit "h " ++ natStr (minutes % 60) ++
      lit "m"

omit [Unicode] in
/- The time from the first entry to the last. -/
def spread (sorted : List ParsedLogEntry) : Int :=
  match sorted.head?, sorted.getLast? with
  | some first, some last => between first last
  | _, _ => 0

omit [Unicode] in
def slowBruteFinding
    (g : Str × List ParsedLogEntry) :
    Except LogError (Option AnomalyFinding) :=
  let n := g.2.length
  if n < 10 then .ok none
  else
    let sorted := byTime g.2
    let duration := spread sorted
    if duration < 1800000000 then .ok none
    else
      let score : Int := min 100 (50 + n)
      (makeFinding (temporalFinding "slow_brute_force"
        (natStr n ++ lit " auth failures from " ++ g.1 ++
          lit " spread over " ++ fmtDuration duration ++ lit ".")
        score (scoreToSeverity settings score)
        (sorted.head?.bind ParsedLogEntry.sourceIp)
        (sorted.head?.bind ParsedLogEntry.username)
        (sorted.head?.bind ParsedLogEntry.timestamp)
        (evidenceOf sorted)
        (mitreTag "T1110.003" "Password Spraying"
          "Credential Access")
        n [])).map some

def detectSlowBrute
    (entries : List ParsedLogEntry) :
    Except LogError (List AnomalyFinding) :=
  report (slowBruteFinding settings)
    (collect ((entries.filter authFailure).map fun e =>
      (keyOf e.sourceIp e.username, e)))

/- `run_temporal_detector`: sorting compares the times. -/
def runTemporalDetector
    (entries : List ParsedLogEntry) :
    Except LogError (List AnomalyFinding) :=
  let timed := entries.filter fun e => e.timestamp.isSome
  if clashing timed then .error .typeError
  else
    let sorted := byTime timed
    inTurn
      [detectOffHoursAuth settings sorted,
        detectBurst settings sorted,
        detectImpossibleTravel sorted,
        detectWeekendActivity settings sorted,
        detectSlowBrute settings sorted]

end

---- Reports

def AnomalyFinding.key (f : AnomalyFinding) : Str × Str × Str :=
  (f.findingType, f.sourceIp.getD [], f.username.getD [])

/- The evidence of two findings, each line once. -/
def joinEvidence (a b : AnomalyFinding) : List Str :=
  (firstsBy id [] (a.evidence ++ b.evidence)).take 10

/- A finding with one of its key that came before. -/
def mergeFinding (existing f : AnomalyFinding) : AnomalyFinding :=
  if existing.severityScore < f.severityScore then
    { f with evidence := joinEvidence f existing }
  else
    { existing with
      evidence := joinEvidence existing f
      count := max existing.count f.count }

def deduplicate
    (findings : List AnomalyFinding) : List AnomalyFinding :=
  findings.foldl
    (fun seen f =>
      if seen.any fun g => decide (g.key = f.key) then
        seen.map fun g =>
          if g.key = f.key then mergeFinding g f else g
      else seen ++ [f])
    []

/- `_score_to_severity` of the reports. -/
def reportSeverity (score : Int) : Severity :=
  if 80 ≤ score then .critical
  else if 50 ≤ score then .high
  else if 25 ≤ score then .medium
  else .low

/- The detectors that report a source. -/
def detectorsOf
    (findings : List AnomalyFinding)
    (ip : Str) : Nat :=
  (firstsBy id []
    ((findings.filter fun f => decide (f.sourceIp = some ip)).map
      AnomalyFinding.detector)).length

def boostOf (detectors : Nat) : Int :=
  if 4 ≤ detectors then 30
  else if 3 ≤ detectors then 20
  else if 2 ≤ detectors then 10
  else 0

def correlate
    (findings : List AnomalyFinding) : List AnomalyFinding :=
  findings.map fun f =>
    match someText f.sourceIp with
    | none => f
    | some ip =>
        let n := detectorsOf findings ip
        if boostOf n = 0 then f
        else
          let score := min 100 (f.severityScore + boostOf n)
          { f with
            severityScore := score
            severity := reportSeverity score
            description :=
              f.description ++ lit " [Corroborated by " ++
                natStr n ++ lit " detectors, score boosted]" }

def processFindings
    (findings : List AnomalyFinding) : List AnomalyFinding :=
  (correlate (deduplicate findings)).mergeSort fun a b =>
    decide (b.severityScore ≤ a.severityScore)

def summarise
    (findings : List AnomalyFinding) : List (Severity × Nat) :=
  [Severity.critical, .high, .medium, .low, .info].map
    fun severity =>
      (severity,
        findings.countP fun f => decide (f.severity = severity))

structure SourceSummary where
  ip : Str
  findingCount : Nat
  maxScore : Int
  findingTypes : List Str
deriving DecidableEq, Repr

/- `top_source_ips`; the types of a source come in the order of
a set. -/
def topSourceIps
    (setOrder : List Str → List Str)
    (findings : List AnomalyFinding) : List SourceSummary :=
  (((collect (findings.filterMap fun f =>
      (someText f.sourceIp).map fun ip => (ip, f))).map fun g =>
    { ip := g.1
      findingCount := g.2.length
      maxScore :=
        (g.2.map AnomalyFinding.severityScore).foldl max 0
      findingTypes :=
        setOrder
          (firstsBy id [] (g.2.map AnomalyFinding.findingType)) :
        SourceSummary }).mergeSort fun a b =>
    decide (b.maxScore ≤ a.maxScore)).take 10

---- What Detectors Raise

@[simp] theorem returns_map
    {α β : Type}
    (f : α → β)
    (r : Except LogError α) :
    Returns (r.map f) ↔ Returns r := by
  cases r with
  | error e => simp [Except.map]
  | ok a => simp [Except.map]

/- The loop returns exactly if each of its steps does. -/
theorem report_returns_iff
    {α : Type}
    (f : α → Except LogError (Option AnomalyFinding)) (l : List α) :
    Returns (report f l) ↔ ∀ a ∈ l, Returns (f a) := by
  induction l with
  | nil => simp [report]
  | cons a rest ih =>
      rw [List.forall_mem_cons, ← ih, report]
      cases hA : f a with
      | error e => simp
      | ok found =>
          cases hRest : report f rest with
          | error e => simp
          | ok more => simp

theorem inTurn_returns_iff
    (l : List (Except LogError (List AnomalyFinding))) :
    Returns (inTurn l) ↔ ∀ r ∈ l, Returns r := by
  induction l with
  | nil => simp [inTurn]
  | cons first rest ih =>
      rw [List.forall_mem_cons, ← ih]
      cases first with
      | error e => simp [inTurn]
      | ok found =>
          cases hRest : inTurn rest with
          | error e => simp [inTurn, hRest]
          | ok more => simp [inTurn, hRest]

theorem makeFinding_returns_iff (f : AnomalyFinding) :
    Returns (makeFinding f) ↔
      0 ≤ f.severityScore ∧ f.severityScore ≤ 100 := by
  unfold makeFinding
  split
  · rename_i hScore
    exact iff_of_true (returns_ok f) hScore
  · rename_i hScore
    exact iff_of_false (not_returns_error _) hScore

/- A part of a score that is an integer, and takes it below
zero with no base. -/
def FitScore (base : Int) (part : Float) : Prop :=
  ∃ n, truncFloat part = some n ∧ 0 ≤ base + n

theorem scoredFinding_returns_iff
    {base : Int} {part : Float} {finding : Int → AnomalyFinding}
    (hFinding : ∀ score, (finding score).severityScore = score) :
    Returns (scoredFinding base part finding) ↔
      FitScore base part := by
  unfold scoredFinding FitScore
  cases hPart : truncFloat part with
  | none => simp
  | some n =>
      simp only [returns_map, makeFinding_returns_iff, hFinding,
        Option.some.injEq, exists_eq_left']
      omega

/- A finding with a score that is capped. -/
theorem capped_returns
    {f : AnomalyFinding} {score : Int}
    (hScore : f.severityScore = min 100 score)
    (hNonneg : 0 ≤ score) :
    Returns ((makeFinding f).map some) := by
  rw [returns_map, makeFinding_returns_iff, hScore]
  omega

/- The detector of patterns raises nothing. -/
theorem patternDetector_returns
    (settings : LogSettings) (entries : List ParsedLogEntry) :
    Returns (runPatternDetector settings entries) := by
  have hScores : ∀ sig ∈ signatures, 0 ≤ sig.score := by
    unfold signatures
    simp
  unfold runPatternDetector
  rw [report_returns_iff]
  intro hit hHit
  rcases List.mem_flatMap.mp hHit with ⟨named, _, hNamed⟩
  have hSig : hit.1 ∈ signatures := by
    split at hNamed
    · cases hNamed
    · rename_i sig hFound
      rcases List.mem_map.mp hNamed with ⟨group, _, rfl⟩
      exact List.mem_of_find?_eq_some hFound
  have hBase := hScores hit.1 hSig
  refine capped_returns rfl ?_
  split <;> split <;> omega

---- What Statistics Raise

section

variable (numbers : NumberLibs)
variable (settings : LogSettings)

/- The statistics of some entries can be computed: the means
and deviations of the rates, the sizes and the numbers of
paths are doubles, and what is reported has a score that is
not below zero. -/
structure StatisticsFit
    (entries : List ParsedLogEntry) : Prop where
  rates :
    ∃ mean std,
      meanStd numbers ((timedBySource entries).map fun g =>
        (busiest g.2 : Int)) = some (mean, std) ∧
      ∀ g ∈ rateSpikes settings mean std (timedBySource entries),
        FitScore 40 (g.2 * 10)
  errors :
    ∀ window ∈ statusWindows entries, 10 ≤ window.2.length →
      ∃ share,
        numbers.trueDiv (errorsIn window.2) window.2.length =
          some share ∧
        (¬ share * 100 < settings.errorRatePct →
          FitScore 0 (share * 100))
  sizes :
    20 ≤ (byteEntries entries).length →
      ∃ mean std,
        meanStd numbers ((byteEntries entries).map Prod.snd) =
          some (mean, std) ∧
        ((std == 0) = false →
          ∀ p ∈ byteEntries entries, ∃ b,
            floatOfInt p.2 = some b ∧
            (¬ (b - mean) / std < settings.zscoreThreshold →
              FitScore 45 ((b - mean) / std * 8)))
  paths :
    ∃ mean std,
      meanStd numbers ((pathsBySource entries).map fun g =>
        (pathCount g.2 : Int)) = some (mean, std) ∧
      ∀ g ∈ pathsBySource entries, 20 ≤ pathCount g.2 →
        ¬ zScore mean std (pathCount g.2) <
            settings.zscoreThreshold →
          FitScore 40 (zScore mean std (pathCount g.2) * 8)

variable (entries : List ParsedLogEntry)

theorem rateSpike_returns_iff :
    Returns (detectRequestRateSpike numbers settings entries) ↔
      ∃ mean std,
        meanStd numbers ((timedBySource entries).map fun g =>
          (busiest g.2 : Int)) = some (mean, std) ∧
        ∀ g ∈ rateSpikes settings mean std
            (timedBySource entries),
          FitScore 40 (g.2 * 10) := by
  have hEach (g : (Str × List (Str × ParsedLogEntry)) × Float) :
      Returns (rateFinding numbers settings g) ↔
        FitScore 40 (g.2 * 10) := by
    unfold rateFinding
    exact scoredFinding_returns_iff fun _ => rfl
  unfold detectRequestRateSpike
  dsimp only
  cases hMean : meanStd numbers ((timedBySource entries).map
      fun g => (busiest g.2 : Int)) with
  | none => simp
  | some p =>
      rcases p with ⟨mean, std⟩
      simp [report_returns_iff, hEach]

theorem errorSpike_returns_iff :
    Returns (detectErrorRateSpike numbers settings entries) ↔
      ∀ window ∈ statusWindows entries, 10 ≤ window.2.length →
        ∃ share,
          numbers.trueDiv (errorsIn window.2) window.2.length =
            some share ∧
          (¬ share * 100 < settings.errorRatePct →
            FitScore 0 (share * 100)) := by
  unfold detectErrorRateSpike
  rw [report_returns_iff]
  refine forall₂_congr fun window _ => ?_
  unfold errorFinding
  dsimp only
  by_cases hFew : window.2.length < 10
  · simp [hFew, Nat.not_le.mpr hFew]
  · rw [if_neg hFew]
    cases hShare : numbers.trueDiv (errorsIn window.2)
        window.2.length with
    | none => simp [Nat.not_lt.mp hFew]
    | some share =>
        by_cases hLow : share * 100 < settings.errorRatePct
        · simp [hLow]
        · simp only [if_neg hLow]
          rw [scoredFinding_returns_iff fun _ => rfl]
          simp [hLow, Nat.not_lt.mp hFew]

theorem bytesAnomaly_returns_iff :
    Returns (detectBytesAnomaly numbers settings entries) ↔
      (20 ≤ (byteEntries entries).length →
        ∃ mean std,
          meanStd numbers ((byteEntries entries).map Prod.snd) =
            some (mean, std) ∧
          ((std == 0) = false →
            ∀ p ∈ byteEntries entries, ∃ b,
              floatOfInt p.2 = some b ∧
              (¬ (b - mean) / std < settings.zscoreThreshold →
                FitScore 45 ((b - mean) / std * 8)))) := by
  have hEach (mean std : Float) (p : ParsedLogEntry × Int) :
      Returns (bytesFinding numbers settings mean std p) ↔
        ∃ b, floatOfInt p.2 = some b ∧
          (¬ (b - mean) / std < settings.zscoreThreshold →
            FitScore 45 ((b - mean) / std * 8)) := by
    unfold bytesFinding
    cases hSize : floatOfInt p.2 with
    | none => simp
    | some b =>
        dsimp only
        by_cases hLow :
            (b - mean) / std < settings.zscoreThreshold
        · simp [hLow]
        · rw [if_neg hLow,
            scoredFinding_returns_iff fun _ => rfl]
          simp [hLow]
  unfold detectBytesAnomaly
  dsimp only
  by_cases hFew : (byteEntries entries).length < 20
  · simp [hFew, Nat.not_le.mpr hFew]
  · rw [if_neg hFew]
    cases hMean : meanStd numbers
        ((byteEntries entries).map Prod.snd) with
    | none => simp [Nat.not_lt.mp hFew]
    | some p =>
        rcases p with ⟨mean, std⟩
        cases hZero : std == 0 with
        | true => simp [hZero]
        | false =>
            simp [hZero, report_returns_iff, hEach,
              Nat.not_lt.mp hFew]

theorem pathRate_returns_iff :
    Returns (detectPathEnumerationRate numbers settings entries) ↔
      ∃ mean std,
        meanStd numbers ((pathsBySource entries).map fun g =>
          (pathCount g.2 : Int)) = some (mean, std) ∧
        ∀ g ∈ pathsBySource entries, 20 ≤ pathCount g.2 →
          ¬ zScore mean std (pathCount g.2) <
              settings.zscoreThreshold →
            FitScore 40
              (zScore mean std (pathCount g.2) * 8) := by
  have hEach (mean std : Float)
      (g : Str × List (Str × ParsedLogEntry)) :
      Returns (pathFinding numbers settings mean std g) ↔
        (20 ≤ pathCount g.2 →
          ¬ zScore mean std (pathCount g.2) <
              settings.zscoreThreshold →
            FitScore 40
              (zScore mean std (pathCount g.2) * 8)) := by
    unfold pathFinding
    dsimp only
    by_cases hLow :
        zScore mean std (pathCount g.2) < settings.zscoreThreshold
    · simp [hLow]
    · by_cases hFew : pathCount g.2 < 20
      · simp [hFew, Nat.not_le.mpr hFew]
      · simp only [hLow, hFew, decide_false, Bool.or_self,
          Bool.false_eq_true, if_false]
        rw [scoredFinding_returns_iff fun _ => rfl]
        simp [Nat.not_lt.mp hFew]
  unfold detectPathEnumerationRate
  dsimp only
  cases hMean : meanStd numbers ((pathsBySource entries).map
      fun g => (pathCount g.2 : Int)) with
  | none => simp
  | some p =>
      rcases p with ⟨mean, std⟩
      simp [report_returns_iff, hEach]

theorem statisticalDetector_returns_iff :
    Returns (runStatisticalDetector numbers settings entries) ↔
      StatisticsFit numbers settings entries := by
  unfold runStatisticalDetector
  rw [inTurn_returns_iff]
  simp only [List.forall_mem_cons, List.not_mem_nil,
    false_implies, implies_true, and_true,
    rateSpike_returns_iff, errorSpike_returns_iff,
    bytesAnomaly_returns_iff, pathRate_returns_iff]
  constructor
  · rintro ⟨hRates, hErrors, hSizes, hPaths⟩
    exact ⟨hRates, hErrors, hSizes, hPaths⟩
  · intro hFit
    exact ⟨hFit.rates, hFit.errors, hFit.sizes, hFit.paths⟩

end

---- What Times Raise

variable [Unicode]

/- No entry has a time with an offset where another has one
without. -/
def OneClock (entries : List ParsedLogEntry) : Prop :=
  ∀ e ∈ entries, ∀ f ∈ entries, ∀ m n : Moment,
    e.timestamp = some m → f.timestamp = some n →
      (m.offset = none ↔ n.offset = none)

omit [Unicode] in
theorem not_clashing_iff (entries : List ParsedLogEntry) :
    clashing (entries.filter fun e => e.timestamp.isSome) =
        false ↔
      OneClock entries := by
  have hAny (p : Moment → Bool) :
      ((entries.filter fun e => e.timestamp.isSome).any fun e =>
        (e.timestamp.map p).getD false) = true ↔
      ∃ e ∈ entries, ∃ m, e.timestamp = some m ∧ p m = true := by
    rw [List.any_eq_true]
    constructor
    · rintro ⟨e, hE, hP⟩
      rw [List.mem_filter] at hE
      cases hTime : e.timestamp with
      | none =>
          rw [hTime] at hP
          cases hP
      | some m =>
          rw [hTime] at hP
          exact ⟨e, hE.1, m, hTime, hP⟩
    · rintro ⟨e, hE, m, hTime, hP⟩
      refine ⟨e, List.mem_filter.mpr ⟨hE, ?_⟩, ?_⟩
      · rw [hTime]
        rfl
      · rw [hTime]
        exact hP
  unfold clashing
  rw [Bool.and_eq_false_iff, ← Bool.not_eq_true,
    ← Bool.not_eq_true, hAny, hAny]
  unfold OneClock
  constructor
  · rintro hNot e hE f hF m n hM hN
    constructor
    · intro hNaive
      by_contra hAware
      rcases hNot with hNot | hNot
      · exact hNot ⟨f, hF, n, hN,
          Option.isSome_iff_ne_none.mpr hAware⟩
      · exact hNot ⟨e, hE, m, hM,
          Option.isNone_iff_eq_none.mpr hNaive⟩
    · intro hNaive
      by_contra hAware
      rcases hNot with hNot | hNot
      · exact hNot ⟨e, hE, m, hM,
          Option.isSome_iff_ne_none.mpr hAware⟩
      · exact hNot ⟨f, hF, n, hN,
          Option.isNone_iff_eq_none.mpr hNaive⟩
  · intro hOne
    by_contra hBoth
    rw [not_or, not_not, not_not] at hBoth
    rcases hBoth with ⟨⟨e, hE, m, hM, hAware⟩,
      ⟨f, hF, n, hN, hNaive⟩⟩
    have hNone := (hOne e hE f hF m n hM hN).mpr
      (Option.isNone_iff_eq_none.mp hNaive)
    rw [hNone] at hAware
    cases hAware

/- Past the sorting, the temporal detector raises nothing. -/
theorem temporalDetector_returns_iff
    (settings : LogSettings) (entries : List ParsedLogEntry) :
    Returns (runTemporalDetector settings entries) ↔
      OneClock entries := by
  rw [← not_clashing_iff]
  unfold runTemporalDetector
  dsimp only
  cases hClash : clashing
      (entries.filter fun e => e.timestamp.isSome) with
  | true => simp
  | false =>
      simp only [Bool.false_eq_true, if_false, iff_true]
      rw [inTurn_returns_iff]
      simp only [List.forall_mem_cons, List.not_mem_nil,
        false_implies, implies_true, and_true]
      refine ⟨?_, ?_, ?_, ?_, ?_⟩
      · unfold detectOffHoursAuth
        rw [report_returns_iff]
        intro g _
        unfold offHoursFinding
        dsimp only
        split
        · exact returns_ok none
        · exact capped_returns rfl (by omega)
      · unfold detectBurst
        rw [report_returns_iff]
        intro g _
        unfold burstFinding
        split
        · exact returns_ok none
        · exact capped_returns rfl (by omega)
      · unfold detectImpossibleTravel
        rw [report_returns_iff]
        intro p _
        unfold travelFinding
        dsimp only
        split
        · exact returns_ok none
        · split
          · exact returns_ok none
          · rw [returns_map, makeFinding_returns_iff]
            exact ⟨(by decide : (0 : Int) ≤ 70),
              (by decide : (70 : Int) ≤ 100)⟩
      · unfold detectWeekendActivity
        rw [report_returns_iff]
        intro g _
        exact capped_returns rfl (by omega)
      · unfold detectSlowBrute
        rw [report_returns_iff]
        intro g _
        unfold slowBruteFinding
        dsimp only
        split
        · exact returns_ok none
        · split
          · exact returns_ok none
          · exact capped_returns rfl (by omega)

end ThreatOrbit.Logs
