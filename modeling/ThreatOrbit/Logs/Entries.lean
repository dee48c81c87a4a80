import ThreatOrbit.Lib.Iso
import ThreatOrbit.Lib.Captures

/-
  The entries of the log service: what its four parsers make
  of the lines of a log.

  A parser goes over the lines one by one; what it does not
  read it keeps as it is, and what the standard library raises
  beyond that ends the analysis.
-/

---- Entries

namespace ThreatOrbit.Logs

open Lib

/- What a step of the analysis may raise. -/
inductive LogError where
| valueError
| typeError
| attributeError
| overflowError
| validationError
deriving DecidableEq, Repr

/- A `datetime`: microseconds of its clock since the start of
year 1, and its offset in microseconds if it has one. -/
structure Moment where
  clock : Int
  offset : Option Int
deriving DecidableEq, Repr

/- `json.loads`: a value, a `JSONDecodeError`, or the
`ValueError` of an integer that is too long. -/
inductive Loaded where
| value (v : PyVal)
| decodeError
| valueError

/- What the parsers use of the standard library; `strptime` and
`fromIso` give nothing where they raise. -/
structure LogLibs where
  year : Nat
  upper : Str → Str
  isdigit : Str → Bool
  loads : Str → Loaded
  dumps : PyVal → Str
  strptime : Str → Str → Option Moment
  fromIso : Str → Option Moment

/- A parsed line; the model has a `dest_ip`, which no one
sets. -/
structure ParsedLogEntry where
  raw : Str
  timestamp : Option Moment
  sourceIp : Option Str
  username : Option Str
  hostname : Option Str
  process : Option Str
  pid : Option Int
  eventId : Option Str
  logLevel : Option Str
  message : Option Str
  httpMethod : Option Str
  httpPath : Option Str
  httpStatus : Option Int
  bytesSent : Option Int
  userAgent : Option Str
  extra : List (Str × PyVal)
  logFormat : Str

/- An entry with no more than its line. -/
def bareEntry (logFormat raw : Str) : ParsedLogEntry where
  raw := raw
  timestamp := none
  sourceIp := none
  username := none
  hostname := none
  process := none
  pid := none
  eventId := none
  logLevel := none
  message := none
  httpMethod := none
  httpPath := none
  httpStatus := none
  bytesSent := none
  userAgent := none
  extra := []
  logFormat := logFormat

/- What a parser returns: the entries and the number of
errors. -/
structure Parsed where
  entries : List ParsedLogEntry
  errors : Nat

/- The loop of a parser: the first element that raises ends
it. -/
def gather
    {α : Type}
    (f : α → Except LogError Parsed) :
    List α → Except LogError Parsed
| [] => .ok ⟨[], 0⟩
| a :: rest =>
    match f a with
    | .error e => .error e
    | .ok p =>
        match gather f rest with
        | .error e => .error e
        | .ok q => .ok ⟨p.entries ++ q.entries, p.errors + q.errors⟩

/- `str.rstrip()`. -/
def rstrip (s : Str) : Str :=
  (s.reverse.dropWhile isSpace).reverse

/- `str.lstrip()`. -/
def lstrip (s : Str) : Str :=
  s.dropWhile isSpace

/- `int(text)` where a test holds. -/
def intWhere
    (test : Bool)
    (s : Str) : Except LogError (Option Int) :=
  if test then
    match readInt s with
    | none => .error .valueError
    | some n => .ok (some n)
  else
    .ok none

/- `dt.replace(tzinfo=timezone.utc)`. -/
def Moment.asUtc (m : Moment) : Moment :=
  { m with offset := some 0 }

/- The same where it has no offset. -/
def Moment.orUtc (m : Moment) : Moment :=
  if m.offset = none then m.asUtc else m

/- The first format that is read. -/
def firstFormat
    (libs : LogLibs)
    (formats : List String)
    (s : Str) : Option Moment :=
  formats.findSome? fun format =>
    (libs.strptime (s.take 26) (lit format)).map Moment.orUtc

---- Patterns

open Lib Regex

section

/- `\s+`. -/
def spaces : Regex :=
  .plus (.cls isSpace)

/- `\S`. -/
def nonSpace : Regex :=
  .cls fun c => !isSpace c

/- `\d`. -/
def digit : Regex :=
  .cls isDecimal

/- `.`. -/
def anyChar : Regex :=
  .cls (· != 10)

/- A character that is not a given one. -/
def noneOf (c : Char) : Regex :=
  .cls (· != cp c)

/- `[\d.]`. -/
def dottedChar : Regex :=
  .cls fun c => isDecimal c || c == cp '.'

/- `[\d.a-fA-F:]`. -/
def addressChar : Regex :=
  .cls fun c =>
    isDecimal c || c == cp '.' || c == cp ':' ||
      (cp 'a' ≤ c && c ≤ cp 'f') || (cp 'A' ≤ c && c ≤ cp 'F')

variable [Unicode]

/- `\w`. -/
def wordChar : Regex :=
  .cls isWord

/- `SYSLOG_RE`. -/
def syslogRe : Regex :=
  .cat [.group 1 (.cat [wordChar, wordChar, wordChar]), spaces,
    .group 2 (.cat [digit, .opt digit]), spaces,
    .group 3 (.cat [digit, digit, chr ':', digit, digit,
      chr ':', digit, digit]), spaces,
    .group 4 (.plus nonSpace), spaces,
    .group 5 (.seq wordChar (.star false (.cls fun c =>
      isWord c || c == cp '-' || c == cp '.'))),
    .opt (.cat [chr '[', .group 6 (.plus digit), chr ']']),
    chr ':', spaces, .group 7 (.plus anyChar), atEnd]

omit [Unicode] in
/- `SYSLOG5424_RE`. -/
def syslog5424Re : Regex :=
  .cat [chr '<', .plus digit, chr '>',
    .opt (.cat [.plus digit, spaces]),
    .group 1 (.cat [digit, digit, digit, digit, chr '-', digit,
      digit, chr '-', digit, digit, chr 'T', digit, digit,
      chr ':', digit, digit, chr ':', digit, digit,
      .opt (.seq (chr '.') (.plus digit)),
      .opt (.alt (chr 'Z')
        (.cat [.alt (chr '+') (chr '-'), digit, digit, chr ':',
          digit, digit]))]), spaces,
    .group 2 (.plus nonSpace), spaces,
    .group 3 (.plus nonSpace), spaces,
    .group 4 (.plus nonSpace), spaces, .plus nonSpace, spaces,
    .plus nonSpace, spaces, .group 5 (.plus anyChar), atEnd]

/- `(?:password|publickey)`. -/
def sshMethod : Regex :=
  .alt (word "password") (word "publickey")

/- `(\S+) from ([\d.]+)`. -/
def userFrom : Regex :=
  .cat [.group 1 (.plus nonSpace), word " from ",
    .group 2 (.plus dottedChar)]

def failedSshRe : Regex :=
  .cat [word "Failed ", sshMethod, word " for ",
    .opt (word "invalid user "), userFrom]

def acceptedSshRe : Regex :=
  .cat [word "Accepted ", sshMethod, word " for ", userFrom]

def invalidUserRe : Regex :=
  .seq (word "Invalid user ") userFrom

def sudoRe : Regex :=
  .cat [word "sudo:", spaces, .group 1 (.plus nonSpace), spaces,
    chr ':', .star true anyChar, word "COMMAND=",
    .group 2 (.plus anyChar)]

def ipExtractRe : Regex :=
  .cat [oneOf [word "from", word "src", word "source"], spaces,
    .group 1 (.plus addressChar)]

/- `COMBINED_RE`. -/
def combinedRe : Regex :=
  .cat [.group 1 (.plus addressChar), spaces,
    .group 2 (.plus nonSpace), spaces,
    .group 3 (.plus nonSpace), spaces, chr '[',
    .group 4 (.plus (noneOf ']')), chr ']', spaces, chr '"',
    .group 5 (.star false (noneOf '"')), chr '"', spaces,
    .group 6 (.cat [digit, digit, digit]), spaces,
    .group 7 (.plus nonSpace),
    .opt (.cat [spaces, chr '"',
      .group 8 (.star true (noneOf '"')), chr '"']),
    .opt (.cat [spaces, chr '"',
      .group 9 (.star true (noneOf '"')), chr '"'])]

/- `ERROR_LOG_RE`. -/
def errorLogRe : Regex :=
  .cat [chr '[', .group 1 (.plus (noneOf ']')), chr ']', spaces,
    chr '[', .group 2 (.plus wordChar), chr ']', spaces,
    .opt (.cat [word "[pid ", .plus digit, chr ']', spaces]),
    .group 3 (.plus anyChar), atEnd]

/- `KV_RE`. -/
def kvRe : Regex :=
  .cat [.group 1 (.plus wordChar), chr '=',
    .alt
      (.cat [chr '"', .group 2 (.star false (noneOf '"')),
        chr '"'])
      (.group 3 (.plus nonSpace))]

/- `\d{1,3}`. -/
def upToThree : Regex :=
  .cat [digit, .opt (.seq digit (.opt digit))]

/- `IP_RE`. -/
def ipRe : Regex :=
  .cat [wordBoundary,
    .group 1 (.cat [upToThree, chr '.', upToThree, chr '.',
      upToThree, chr '.', upToThree]), wordBoundary]

/- `LEVEL_RE`. -/
def levelRe : Regex :=
  .cat [wordBoundary,
    .group 1 (oneOf [wordI "DEBUG", wordI "INFO",
      wordI "NOTICE", .seq (wordI "WARN") (.opt (wordI "ING")),
      wordI "ERROR", wordI "CRITICAL", wordI "FATAL",
      wordI "ALERT", wordI "EMERG"]), wordBoundary]

/- `HTTP_RE`. -/
def httpRe : Regex :=
  .cat [wordBoundary,
    .group 1 (oneOf [wordI "GET", wordI "POST", wordI "PUT",
      wordI "DELETE", wordI "PATCH", wordI "HEAD",
      wordI "OPTIONS"]), spaces,
    .group 2 (.seq (chr '/') (.star true nonSpace))]

/- `STATUS_RE`. -/
def statusRe : Regex :=
  .cat [wordBoundary, wordI "status",
    .plus (.cls fun c =>
      isSpace c || c == cp '=' || c == cp ':'),
    .group 1 (.cat [digit, digit, digit]), wordBoundary]

/- `pattern.match(text)`. -/
def matched (r : Regex) (s : Str) : Option Match :=
  r.matchAt (.start s)

end

---- Syslog

section

/- `MONTH_MAP`. -/
def monthMap : List (Str × Nat) :=
  [(lit "Jan", 1), (lit "Feb", 2), (lit "Mar", 3),
    (lit "Apr", 4), (lit "May", 5), (lit "Jun", 6),
    (lit "Jul", 7), (lit "Aug", 8), (lit "Sep", 9),
    (lit "Oct", 10), (lit "Nov", 11), (lit "Dec", 12)]

/- The day of a date, counted from the start of year 1. -/
def dayOf (year month day : Nat) : Nat :=
  ((List.range (year - 1)).map fun i => daysInYear (i + 1)).sum +
    ((List.range (month - 1)).map fun i =>
      daysInMonth year (i + 1)).sum + (day - 1)

/- `datetime(..., tzinfo=timezone.utc)`, or nothing where it
raises. -/
def datetimeUtc
    (year month : Nat)
    (day h mi s : Int) : Option Moment :=
  if 1 ≤ year ∧ year ≤ 9999 ∧ 1 ≤ day ∧
      day ≤ daysInMonth year month ∧ 0 ≤ h ∧ h < 24 ∧
      0 ≤ mi ∧ mi < 60 ∧ 0 ≤ s ∧ s < 60 then
    some
      { clock :=
          (((dayOf year month day.toNat * 24 + h) * 60 + mi) *
            60 + s) * 1000000
        offset := some 0 }
  else
    none

/- `_build_timestamp`; whatever raises gives no time. -/
def buildTimestamp
    (month day time : Str)
    (year : Nat) : Option Moment :=
  match (splitOn (cp ':') time).mapM readInt, readInt day with
  | some [h, mi, s], some d =>
      datetimeUtc year ((lookup month monthMap).getD 1) d h mi s
  | _, _ => none

variable [Unicode]

def inferLevel (msg : Str) : Str :=
  let m := Unicode.lower msg
  if [lit "error", lit "failed", lit "failure", lit "denied",
      lit "invalid"].any fun w => contains w m then
    lit "ERROR"
  else if [lit "warn", lit "warning"].any fun w =>
      contains w m then
    lit "WARNING"
  else
    lit "INFO"

omit [Unicode] in
/- A user and an address that a message names. -/
def enrichUser
    (name : String)
    (r : Regex)
    (msg : Str)
    (entry : ParsedLogEntry) : ParsedLogEntry :=
  match r.search msg with
  | none => entry
  | some m =>
      { entry with
        username := m.group 1
        sourceIp := m.group 2
        extra := setEntry (lit name) (.bool true) entry.extra }

omit [Unicode] in
def enrichFromMessage
    (entry : ParsedLogEntry)
    (msg : Str) : ParsedLogEntry :=
  let named :=
    enrichUser "invalid_user" invalidUserRe msg
      (enrichUser "accepted_ssh" acceptedSshRe msg
        (enrichUser "failed_ssh" failedSshRe msg entry))
  let withSudo :=
    match sudoRe.search msg with
    | none => named
    | some m =>
        { named with
          username := m.group 1
          extra :=
            setEntry (lit "sudo_command")
              (.str (strip ((m.group 2).getD []))) named.extra }
  match ipExtractRe.search msg with
  | none => withSudo
  | some m =>
      if (withSudo.sourceIp.getD []) = [] then
        { withSudo with sourceIp := m.group 1 }
      else withSudo

def tryParseRfc3164
    (libs : LogLibs)
    (raw : Str) : Except LogError (Option ParsedLogEntry) :=
  match matched syslogRe raw with
  | none => .ok none
  | some m =>
      let pid := (m.group 6).getD []
      match intWhere (pid != []) pid with
      | .error e => .error e
      | .ok pid =>
          let msg := (m.group 7).getD []
          .ok (some (enrichFromMessage
            { bareEntry (lit "syslog") raw with
              timestamp :=
                buildTimestamp ((m.group 1).getD [])
                  ((m.group 2).getD []) ((m.group 3).getD [])
                  libs.year
              hostname := m.group 4
              process := m.group 5
              pid := pid
              message := some msg
              logLevel := some (inferLevel msg) } msg))

def tryParseRfc5424
    (libs : LogLibs)
    (raw : Str) : Except LogError (Option ParsedLogEntry) :=
  match matched syslog5424Re raw with
  | none => .ok none
  | some m =>
      let pid := (m.group 4).getD []
      match intWhere (pid != [] && libs.isdigit pid) pid with
      | .error e => .error e
      | .ok pid =>
          let msg := (m.group 5).getD []
          .ok (some (enrichFromMessage
            { bareEntry (lit "syslog") raw with
              timestamp :=
                libs.fromIso
                  (replaceAll (lit "Z") (lit "+00:00")
                    ((m.group 1).getD []))
              hostname := m.group 2
              process := m.group 3
              pid := pid
              message := some msg
              logLevel := some (inferLevel msg) } msg))

/- A line of `parse_syslog`. -/
def syslogLine
    (libs : LogLibs)
    (line : Str) : Except LogError Parsed :=
  let raw := rstrip line
  if raw = [] ∨ raw.head? = some (cp '#') then .ok ⟨[], 0⟩
  else
    match tryParseRfc3164 libs raw with
    | .error e => .error e
    | .ok (some entry) => .ok ⟨[entry], 0⟩
    | .ok none =>
        match tryParseRfc5424 libs raw with
        | .error e => .error e
        | .ok (some entry) => .ok ⟨[entry], 0⟩
        | .ok none =>
            .ok ⟨[{ bareEntry (lit "syslog") raw with
              message := some raw }], 1⟩

def parseSyslog
    (libs : LogLibs)
    (lines : List Str) : Except LogError Parsed :=
  gather (syslogLine libs) lines

end

---- Apache

section

def statusToLevel (status : Option Int) : Str :=
  match status with
  | none => lit "INFO"
  | some n =>
      if 500 ≤ n then lit "ERROR"
      else if 400 ≤ n then lit "WARNING"
      else lit "INFO"

/- `text.split(" ", 2)`, as method, path and protocol; a text
without a blank is a path. -/
def requestParts
    (request : Str) : Option Str × Option Str × Option Str :=
  match splitOn (cp ' ') request with
  | [path] => (none, some path, none)
  | [method, path] => (some method, some path, none)
  | method :: path :: rest =>
      (some method, some path, some (joinWith [cp ' '] rest))
  | [] => (none, none, none)

/- `m.group(...)`, as a value. -/
def groupValue (m : Match) (i : Nat) : PyVal :=
  match m.group i with
  | none => .none
  | some s => .str s

def parseAccessLine
    (libs : LogLibs)
    (raw : Str) : Except LogError (Option ParsedLogEntry) :=
  match matched combinedRe raw with
  | none => .ok none
  | some m =>
      let code := (m.group 6).getD []
      let size := (m.group 7).getD []
      match intWhere (code != [] && libs.isdigit code) code with
      | .error e => .error e
      | .ok status =>
          match intWhere (size != [] && libs.isdigit size) size with
          | .error e => .error e
          | .ok bytes =>
              let request := (m.group 5).getD []
              let parts := requestParts request
              .ok (some
                { bareEntry (lit "apache") raw with
                  timestamp :=
                    libs.strptime (strip ((m.group 4).getD []))
                      (lit "%d/%b/%Y:%H:%M:%S %z")
                  sourceIp := m.group 1
                  username :=
                    if m.group 3 = some (lit "-") then none
                    else m.group 3
                  httpMethod := parts.1
                  httpPath := parts.2.1
                  httpStatus := status
                  bytesSent := bytes
                  userAgent := m.group 9
                  logLevel := some (statusToLevel status)
                  message := some request
                  extra :=
                    [(lit "referrer", groupValue m 8),
                      (lit "protocol",
                        match parts.2.2 with
                        | none => .none
                        | some s => .str s)] })

/- `text.rsplit(".", 1)[0]`. -/
def beforeLastDot (s : Str) : Str :=
  if s.contains (cp '.') then
    ((s.reverse.dropWhile (· != cp '.')).drop 1).reverse
  else s

variable [Unicode]

def parseErrorLine
    (libs : LogLibs)
    (raw : Str) : Option ParsedLogEntry :=
  (matched errorLogRe raw).map fun m =>
    { bareEntry (lit "apache") raw with
      timestamp :=
        (libs.strptime (beforeLastDot ((m.group 1).getD []))
          (lit "%a %b %d %H:%M:%S %Y")).map Moment.asUtc
      logLevel := some (libs.upper ((m.group 2).getD []))
      message := m.group 3 }

/- A line of `parse_apache`. -/
def apacheLine
    (libs : LogLibs)
    (line : Str) : Except LogError Parsed :=
  let raw := rstrip line
  if raw = [] then .ok ⟨[], 0⟩
  else
    match parseAccessLine libs raw with
    | .error e => .error e
    | .ok (some entry) => .ok ⟨[entry], 0⟩
    | .ok none =>
        match parseErrorLine libs raw with
        | some entry => .ok ⟨[entry], 0⟩
        | none =>
            .ok ⟨[{ bareEntry (lit "apache") raw with
              message := some raw }], 1⟩

def parseApache
    (libs : LogLibs)
    (lines : List Str) : Except LogError Parsed :=
  gather (apacheLine libs) lines

end

---- Values

/- `a or b`. -/
def orVal (a b : PyVal) : PyVal :=
  if truthy a then a else b

/- `obj.get(key)` of a mapping. -/
def getVal (key : String) (items : List (Str × PyVal)) : PyVal :=
  (lookup (lit key) items).getD .none

/- `value.get(key, default)`. -/
def getOr
    (key : String)
    (default : PyVal) : PyVal → Except LogError PyVal
| .dict items => .ok ((lookup (lit key) items).getD default)
| _ => .error .attributeError

/- A text field of the model. -/
def textField : PyVal → Except LogError (Option Str)
| .none => .ok none
| .str s => .ok (some s)
| _ => .error .validationError

/- `_to_int`: whatever raises gives nothing. -/
def toInt : PyVal → Option Int
| .int n => some n
| .bool b => some (if b then 1 else 0)
| .float x => truncFloat x
| .str s => readInt s
| _ => none

---- Generic Logs

section

variable [Unicode]

/- `_parse_ts` of a text. -/
def genericTime
    (libs : LogLibs)
    (text : Str) : Option Moment :=
  let s := strip text
  match firstFormat libs ["%Y-%m-%dT%H:%M:%S.%fZ",
      "%Y-%m-%dT%H:%M:%SZ", "%Y-%m-%d %H:%M:%S"] s with
  | some m => some m
  | none => libs.fromIso (replaceAll (lit "Z") (lit "+00:00") s)

/- `_parse_ts` of a value. -/
def genericTimestamp
    (libs : LogLibs)
    (v : PyVal) : Option Moment :=
  if truthy v then genericTime libs (pyStr v) else none

/- `str(value) if value else None`. -/
def strIf (v : PyVal) : Option Str :=
  if truthy v then some (pyStr v) else none

def fromJson
    (libs : LogLibs)
    (obj : PyVal)
    (raw : Str) : Except LogError ParsedLogEntry :=
  match obj with
  | .dict items =>
      match
        textField (orVal (getVal "http_method" items)
          (getVal "method" items)),
        textField (orVal (getVal "http_path" items)
          (getVal "path" items)),
        textField (orVal (getVal "user_agent" items)
          (getVal "ua" items)) with
      | .ok method, .ok path, .ok agent =>
          .ok
            { bareEntry (lit "generic") raw with
              timestamp :=
                genericTimestamp libs
                  (orVal (getVal "timestamp" items)
                    (orVal (getVal "@timestamp" items)
                      (getVal "time" items)))
              sourceIp :=
                strIf (orVal (getVal "source_ip" items)
                  (orVal (getVal "src" items)
                    (getVal "ip" items)))
              username :=
                strIf (orVal (getVal "username" items)
                  (getVal "user" items))
              httpMethod := method
              httpPath := path
              httpStatus :=
                toInt (orVal (getVal "status" items)
                  (getVal "http_status" items))
              bytesSent :=
                toInt (orVal (getVal "bytes" items)
                  (getVal "bytes_sent" items))
              userAgent := agent
              message :=
                some (pyStr (orVal (getVal "message" items)
                  (orVal (getVal "msg" items)
                    (.str (raw.take 200)))))
              logLevel :=
                some (libs.upper (pyStr
                  ((lookup (lit "level") items).getD
                    (.str (lit "INFO")))))
              extra :=
                items.filter fun item =>
                  !List.contains [lit "timestamp",
                    lit "@timestamp", lit "time"] item.1 }
      | _, _, _ => .error .validationError
  | _ => .error .attributeError

def extractKv (text : Str) : List (Str × Str) :=
  dictOf ((kvRe.findIter text).map fun m =>
    ((m.group 1).getD [],
      match m.group 2 with
      | some quoted => quoted
      | none => (m.group 3).getD []))

omit [Unicode] in
/- The first of some keys with a value that is not empty, or
what the last of them gives. -/
def firstOf
    (kv : List (Str × Str)) : List String → Option Str
| [] => none
| [key] => lookup (lit key) kv
| key :: rest =>
    match lookup (lit key) kv with
    | some (c :: text) => some (c :: text)
    | _ => firstOf kv rest

def fromKv
    (libs : LogLibs)
    (kv : List (Str × Str))
    (raw : Str) : ParsedLogEntry :=
  let low := dictOf (kv.map fun p => (Unicode.lower p.1, p.2))
  { bareEntry (lit "generic") raw with
    timestamp :=
      match firstOf low ["timestamp", "time"] with
      | some (c :: text) => genericTime libs (c :: text)
      | _ => none
    sourceIp := firstOf low ["src", "source_ip", "ip"]
    username := firstOf low ["user", "username"]
    httpMethod := lookup (lit "method") low
    httpPath := firstOf low ["path", "uri"]
    httpStatus := (lookup (lit "status") low).bind readInt
    bytesSent := (lookup (lit "bytes") low).bind readInt
    userAgent := firstOf low ["user_agent", "ua"]
    message :=
      some (orStr (firstOf low ["msg", "message"])
        (raw.take 200))
    logLevel :=
      some (libs.upper
        ((lookup (lit "level") low).getD (lit "INFO")))
    extra := low.map fun p => (p.1, .str p.2) }

def fromPlaintext
    (libs : LogLibs)
    (raw : Str) : Except LogError ParsedLogEntry :=
  let status := (statusRe.search raw).bind fun m => m.group 1
  match intWhere status.isSome (status.getD []) with
  | .error e => .error e
  | .ok code =>
      .ok
        { bareEntry (lit "generic") raw with
          sourceIp := (ipRe.search raw).bind fun m => m.group 1
          logLevel :=
            some (match levelRe.search raw with
              | none => lit "INFO"
              | some m => libs.upper ((m.group 1).getD []))
          httpMethod :=
            (httpRe.search raw).bind fun m => m.group 1
          httpPath :=
            (httpRe.search raw).bind fun m => m.group 2
          httpStatus := code
          message := some (raw.take 500) }

/- What is made of a line that is not a JSON object. -/
def genericText
    (libs : LogLibs)
    (raw : Str) : Except LogError Parsed :=
  let kv := extractKv raw
  if 2 ≤ kv.length then .ok ⟨[fromKv libs kv raw], 0⟩
  else
    match fromPlaintext libs raw with
    | .error e => .error e
    | .ok entry => .ok ⟨[entry], 0⟩

/- A line of `parse_generic`; only a `JSONDecodeError` is
caught. -/
def genericLine
    (libs : LogLibs)
    (line : Str) : Except LogError Parsed :=
  let raw := rstrip line
  if raw = [] then .ok ⟨[], 0⟩
  else if (lstrip raw).head? = some (cp '{') then
    match libs.loads raw with
    | .valueError => .error .valueError
    | .decodeError => genericText libs raw
    | .value obj =>
        match fromJson libs obj raw with
        | .error e => .error e
        | .ok entry => .ok ⟨[entry], 0⟩
  else
    genericText libs raw

def parseGeneric
    (libs : LogLibs)
    (lines : List Str) : Except LogError Parsed :=
  gather (genericLine libs) lines

end

---- Windows Events

section

/- `EVENT_ID_MAP`. -/
def eventIdMap : List (Str × Str) :=
  [(lit "4624", lit "Successful Logon"),
    (lit "4625", lit "Failed Logon"),
    (lit "4648", lit "Logon with Explicit Credentials"),
    (lit "4672", lit "Special Privileges Assigned to New Logon"),
    (lit "4688", lit "Process Created"),
    (lit "4698", lit "Scheduled Task Created"),
    (lit "4719", lit "System Audit Policy Changed"),
    (lit "4720", lit "User Account Created"),
    (lit "4726", lit "User Account Deleted"),
    (lit "4732",
      lit "Member Added to Security-Enabled Local Group"),
    (lit "4740", lit "User Account Locked Out"),
    (lit "7045", lit "New Service Installed"),
    (lit "1102", lit "Audit Log Cleared")]

def levelMap : List (Str × Str) :=
  [(lit "0", lit "INFO"), (lit "1", lit "CRITICAL"),
    (lit "2", lit "ERROR"), (lit "3", lit "WARNING"),
    (lit "4", lit "INFO"), (lit "5", lit "DEBUG")]

variable [Unicode]

/- `_parse_ts` of `windows_event`. -/
def windowsTimestamp
    (libs : LogLibs)
    (v : PyVal) : Option Moment :=
  if truthy v then
    firstFormat libs ["%Y-%m-%dT%H:%M:%S.%fZ",
      "%Y-%m-%dT%H:%M:%SZ", "%Y-%m-%dT%H:%M:%S%z",
      "%Y-%m-%d %H:%M:%S"] (pyStr v)
  else none

def clean : PyVal → Option Str
| .none => none
| v =>
    let s := strip (pyStr v)
    if [lit "-", [], lit "N/A", lit "SYSTEM",
        lit "LOCAL SERVICE"].contains s then none
    else some s

omit [Unicode] in
/- `a or b` where `b` may raise, and is only looked at if
needed. -/
def orElseVal
    (a : PyVal)
    (b : Except LogError PyVal) : Except LogError PyVal :=
  if truthy a then .ok a else b

omit [Unicode] in
/- `system.get(key, {}).get(name, default)`. -/
def nestedVal
    (key name : String)
    (default : PyVal)
    (system : List (Str × PyVal)) : Except LogError PyVal :=
  getOr name default ((lookup (lit key) system).getD (.dict []))

omit [Unicode] in
/- `system.get("TimeCreated", {}).get("#attributes", {})` and
its `SystemTime`. -/
def systemTime
    (system : List (Str × PyVal)) : Except LogError PyVal :=
  match nestedVal "TimeCreated" "#attributes" (.dict []) system with
  | .error e => .error e
  | .ok attributes =>
      getOr "SystemTime" (.str []) attributes

omit [Unicode] in
/- A text that stands for no address is none. -/
def sourceVal (v : PyVal) : PyVal :=
  match v with
  | .str s =>
      if [lit "-", lit "::1", lit "127.0.0.1"].contains s then
        .none
      else .str s
  | v => v

/- The entry of a record with mappings for its parts. -/
def recordEntry
    (libs : LogLibs)
    (record eventData system : List (Str × PyVal))
    (raw : Str) : Except LogError ParsedLogEntry :=
  match
    orElseVal (getVal "TimeCreated" record)
      (orElseVal (getVal "timestamp" record)
        (orElseVal (getVal "@timestamp" record)
          (systemTime system))),
    orElseVal (getVal "SubjectUserName" eventData)
      (orElseVal (getVal "TargetUserName" eventData)
        (orElseVal (getVal "username" record)
          (nestedVal "Security" "UserID" .none system))) with
  | .ok time, .ok user =>
      let eventId :=
        pyStr (orVal (getVal "EventID" record)
          (orVal (getVal "event_id" record)
            (orVal (getVal "EventID" system) (.str []))))
      match
        textField (sourceVal
          (orVal (getVal "IpAddress" eventData)
            (orVal (getVal "WorkstationName" eventData)
              (getVal "source_ip" record)))),
        textField (orVal (getVal "Computer" system)
          (orVal (getVal "Computer" record)
            (getVal "hostname" record))),
        textField (orVal (getVal "NewProcessName" eventData)
          (getVal "ProcessName" eventData)) with
      | .ok sourceIp, .ok hostname, .ok process =>
          .ok
            { bareEntry (lit "windows_event") raw with
              timestamp := windowsTimestamp libs time
              sourceIp := sourceIp
              username := clean user
              hostname := hostname
              eventId := some eventId
              logLevel :=
                some ((lookup (pyStr
                  ((lookup (lit "Level") system).getD
                    (.str (lit "4")))) levelMap).getD
                      (lit "INFO"))
              message :=
                some ((lookup eventId eventIdMap).getD
                  (lit "Event " ++ eventId))
              process := process
              extra :=
                [(lit "command_line",
                    getVal "CommandLine" eventData),
                  (lit "target_user",
                    getVal "TargetUserName" eventData),
                  (lit "subject_user",
                    getVal "SubjectUserName" eventData)] }
      | _, _, _ => .error .validationError
  | .error e, _ => .error e
  | .ok _, .error e => .error e

/- `_parse_record`; what is not a mapping gives no entry. -/
def parseRecord
    (libs : LogLibs)
    (v : PyVal)
    (rawLine : Str) : Except LogError (Option ParsedLogEntry) :=
  match v with
  | .dict record =>
      let raw :=
        if rawLine = [] then libs.dumps (.dict record)
        else rawLine
      match
        orVal (getVal "EventData" record)
          (orVal (getVal "event_data" record) (.dict [])),
        orVal (getVal "System" record) (.dict []) with
      | .dict eventData, .dict system =>
          (recordEntry libs record eventData system raw).map some
      | _, _ => .error .attributeError
  | _ => .ok none

/- What a record adds: an entry, or an error. -/
def recordParsed
    (libs : LogLibs)
    (rawLine : Str)
    (v : PyVal) : Except LogError Parsed :=
  match parseRecord libs v rawLine with
  | .error e => .error e
  | .ok (some entry) => .ok ⟨[entry], 0⟩
  | .ok none => .ok ⟨[], 1⟩

/- A line of `parse_windows_event`. -/
def windowsLine
    (libs : LogLibs)
    (line : Str) : Except LogError Parsed :=
  let raw := rstrip line
  if raw = [] then .ok ⟨[], 0⟩
  else
    match libs.loads raw with
    | .valueError => .error .valueError
    | .decodeError =>
        .ok ⟨[{ bareEntry (lit "windows_event") raw with
          message := some raw }], 1⟩
    | .value record => recordParsed libs raw record

omit [Unicode] in
/- The text that may be an array. -/
def joinedText (lines : List Str) : Str :=
  strip (joinWith [10] lines)

/- `parse_windows_event`: one array, or line by line. -/
def parseWindowsEvent
    (libs : LogLibs)
    (lines : List Str) : Except LogError Parsed :=
  if (joinedText lines).head? = some (cp '[') then
    match libs.loads (joinedText lines) with
    | .valueError => .error .valueError
    | .decodeError => gather (windowsLine libs) lines
    | .value (.list records) =>
        gather (recordParsed libs []) records
    | .value _ => .error .typeError
  else
    gather (windowsLine libs) lines

end

---- Lines That Are Read

/- Nothing is raised. -/
def Returns {α : Type} (r : Except LogError α) : Prop :=
  ∃ a, r = .ok a

@[simp] theorem returns_ok
    {α : Type}
    (a : α) :
    Returns (.ok a) :=
  ⟨a, rfl⟩

@[simp] theorem not_returns_error
    {α : Type}
    (e : LogError) :
    ¬ Returns (.error e : Except LogError α) := by
  rintro ⟨a, hA⟩
  cases hA

/- A loop returns exactly if each of its steps does. -/
theorem gather_returns_iff
    {α : Type}
    (f : α → Except LogError Parsed) (l : List α) :
    Returns (gather f l) ↔ ∀ a ∈ l, Returns (f a) := by
  induction l with
  | nil => simp [gather]
  | cons a rest ih =>
      rw [List.forall_mem_cons, ← ih, gather]
      cases hA : f a with
      | error e => simp
      | ok p =>
          cases hRest : gather f rest with
          | error e => simp
          | ok q => simp

/- The entries of a result. -/
def entriesOf : Except LogError Parsed → List ParsedLogEntry
| .ok p => p.entries
| .error _ => []

/- The entries of a loop are those of its steps, in order. -/
theorem entries_of_gather
    {α : Type} {f : α → Except LogError Parsed} {l : List α}
    {p : Parsed}
    (hOk : gather f l = .ok p) :
    p.entries = (l.map fun a => entriesOf (f a)).flatten := by
  induction l generalizing p with
  | nil =>
      cases hOk
      rfl
  | cons a rest ih =>
      rw [gather] at hOk
      cases hA : f a with
      | error e =>
          rw [hA] at hOk
          cases hOk
      | ok q =>
          cases hRest : gather f rest with
          | error e =>
              rw [hA, hRest] at hOk
              cases hOk
          | ok r =>
              rw [hA, hRest] at hOk
              cases hOk
              rw [List.map_cons, List.flatten_cons, hA,
                ← ih hRest]
              rfl

/- A numeral is read, where one is looked for. -/
def Reads (test : Bool) (s : Str) : Prop :=
  test = true → ∃ n, readInt s = some n

theorem intWhere_returns_iff
    (test : Bool) (s : Str) :
    Returns (intWhere test s) ↔ Reads test s := by
  unfold intWhere Reads
  cases test with
  | false => simp
  | true =>
      cases hRead : readInt s with
      | none => simp
      | some n => simp

/- A value that a text field takes. -/
def IsText (v : PyVal) : Prop :=
  v = .none ∨ ∃ s, v = .str s

theorem textField_returns_iff (v : PyVal) :
    Returns (textField v) ↔ IsText v := by
  unfold IsText
  cases v <;> simp [textField]

/- A value with keys. -/
def IsDict (v : PyVal) : Prop :=
  ∃ items, v = .dict items

theorem getOr_returns_iff
    (key : String) (default v : PyVal) :
    Returns (getOr key default v) ↔ IsDict v := by
  unfold IsDict
  cases v <;> simp [getOr]

end ThreatOrbit.Logs
