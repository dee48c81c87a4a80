import ThreatOrbit.Detection.Rules
import ThreatOrbit.Lib.Caseless
import ThreatOrbit.Lib.Fallback
import ThreatOrbit.Lib.Returns
import ThreatOrbit.Lib.Scanning
import ThreatOrbit.Lib.Url

/-
  A line of JSON as it is ingested: what a producer says
  under a flat key, what it says under a name of the Elastic
  Common Schema, and what is guessed from the raw line.
-/

---- Guesses From The Raw Line

namespace ThreatOrbit

namespace JsonIngest

open Lib
open Lib.Regex

section

/- The fields of an event, and the keys of an object. -/
abbrev Fields := List (Str × PyVal)

/- `fields.get(key)`. -/
def get (key : String) (d : Fields) : PyVal :=
  (lookup (lit key) d).getD .none

/- `fields[key] = value`. -/
def put (key : String) (value : PyVal) (d : Fields) : Fields :=
  setEntry (lit key) value d

/- `.`. -/
def anyChar : Regex :=
  cls (· != 10)

/- `\s*`. -/
def spaces : Regex :=
  star true (cls isSpace)

variable [Unicode]

/- `_IPV4`. -/
def ipv4 : Regex :=
  cat [wordBoundary,
    times 3 (.seq (within (cls isDecimal) 1 3) (chr '.')),
    within (cls isDecimal) 1 3, wordBoundary]

/- `_USER`. -/
def user : Regex :=
  cat [oneOf [.seq (wordI "user") (opt (wordI "name")),
      wordI "account", wordI "for"],
    spaces, opt (cls fun c => c == cp '=' || c == cp ':'),
    spaces,
    group 1 (plus (cls fun c =>
      letterI c || isDigit c || (lit "._\\-").contains c))]

/- `_HOST`. -/
def host : Regex :=
  cat [wordBoundary, wordI "host", opt (wordI "name"), spaces,
    cls (fun c => c == cp '=' || c == cp ':'), spaces,
    group 1 (plus (cls fun c =>
      letterI c || isDigit c || (lit "._-").contains c))]

/- What the content of a line says about it. -/
structure Signature where
  eventType : Str
  category : Str
  severity : Str
  mitre : PyVal

def signature
    (eventType category severity mitre : String) : Signature :=
  ⟨lit eventType, lit category, lit severity, .str (lit mitre)⟩

/- `_SIGNATURES`. -/
def signatures : List (Regex × Signature) :=
  [(oneOf [wordI "failed password",
        wordI "authentication failure", wordI "invalid user",
        wordI "login failed"],
      signature "failed_login" "auth" "high" "T1110"),
    (oneOf [wordI "accepted password", wordI "session opened",
        wordI "login success"],
      signature "login_success" "auth" "low" "T1078"),
    (oneOf [.seq (wordI "sql")
          (oneOf [wordI "i", wordI " injection"]),
        wordI "union select", wordI "' or '1'='1",
        wordI "1=1--"],
      signature "web_request" "web" "high" "T1190"),
    (oneOf [wordI "../", wordI "directory traversal",
        wordI "/etc/passwd"],
      signature "web_request" "web" "high" "T1083"),
    (oneOf [cat [wordI "powershell", within anyChar 0 40,
          wordI "-enc"],
        wordI "invoke-expression", wordI "downloadstring",
        wordI "mimikatz"],
      signature "process_start" "endpoint" "high" "T1059.001"),
    (oneOf [wordI "malware", wordI "trojan", wordI "ransom",
        wordI "verdict=malicious", wordI "virus"],
      signature "process_start" "endpoint" "critical" "T1204"),
    (oneOf [wordI "beacon", wordI "c2",
        cat [wordI "command", opt anyChar, wordI "and",
          opt anyChar, wordI "control"],
        wordI "cobalt"],
      signature "beacon" "network" "critical" "T1071.001"),
    (oneOf [cat [wordI "added to ", star true anyChar,
          group 1 (oneOf [wordI "admin", wordI "sudoers"])],
        wordI "EventID=4728", wordI "privilege"],
      signature "group_change" "identity" "high" "T1078"),
    (oneOf [cat [wordI "port", opt (chr ' '), wordI "scan"],
        wordI "nmap", wordI "masscan"],
      signature "port_scan" "network" "medium" "T1046")]

def infer (text : Str) : Signature :=
  match signatures.find? fun s => s.1.found text with
  | some s => s.2
  | none =>
      ⟨lit "log", lit "generic", lit "info", .none⟩

/- The text of a value that may be missing. -/
def textOrNone : Option Str → PyVal
| some s => .str s
| none => .none

def baseEvent (raw : Str) : Fields :=
  let inferred := infer raw
  let ips := (ipv4.findIter raw).map Match.text
  let userM := (user.search raw).bind (·.group 1)
  let hostM := (host.search raw).bind (·.group 1)
  [(lit "category", .str inferred.category),
    (lit "event_type", .str inferred.eventType),
    (lit "severity_hint", .str inferred.severity),
    (lit "mitre_tech_id", inferred.mitre),
    (lit "src_ip", textOrNone ips[0]?),
    (lit "dest_ip", textOrNone ips[1]?),
    (lit "username", textOrNone userM),
    (lit "hostname", textOrNone hostM),
    (lit "dest_host", .none),
    (lit "url", .none),
    (lit "raw", .str (raw.take 1000))]

end

---- The Target

section

variable [Unicode] [Normalizer]

/- `value in (None, "")`. -/
def blank : PyVal → Bool
| .none => true
| .str s => s == []
| _ => false

end

---- The Sources That Are Recognised

open Detection (orVal intOfFloat)

section

/- `obj.get(key) if isinstance(obj.get(key), dict) else {}`. -/
def part (key : String) (obj : Fields) : Fields :=
  match get key obj with
  | .dict items => items
  | _ => []

/- `int(value)`. -/
def toInt : PyVal → Except PyError Int
| .int n => .ok n
| .bool b => .ok (if b then 1 else 0)
| .float x => intOfFloat x
| .str s =>
    match readInt s with
    | some n => .ok n
    | none => .error .valueError
| _ => .error .typeError

/- The sources whose records have fields of their own. -/
inductive Source where
| sysmon
| windows
| crowdstrike
| sentinelone
| m365Defender
| m365Audit
| cloudtrail
| azureAd
| gcpAudit
| firewall
deriving DecidableEq

/- The sources in the order in which they are tried. -/
def Source.all : List Source :=
  [.sysmon, .windows, .crowdstrike, .sentinelone,
    .m365Defender, .m365Audit, .cloudtrail, .azureAd,
    .gcpAudit, .firewall]

variable [Unicode]

end

---- Parsing

open Detection (orVal ecsAliases)

/- `isinstance(value, (str, int, float))`. -/
def scalar : PyVal → Bool
| .bool _ => true
| .int _ => true
| .float _ => true
| .str _ => true
| _ => false

/- `pick`: the first key that holds a scalar which is not
empty. -/
def pick (keys : List String) (obj : Fields) : PyVal :=
  ((keys.map fun k => get k obj).find? fun v =>
    !blank v && scalar v).getD .none

/- `out.update(entries)`. -/
def update (out entries : Fields) : Fields :=
  entries.foldl (fun out e => setEntry e.1 e.2 out) out

/- An entry of an object under its dotted key, or the entries
of the object it holds. -/
def flattenEntry
    (pre : Str)
    (inner : Str → Fields → Fields)
    (out : Fields)
    (e : Str × PyVal) : Fields :=
  match e.2 with
  | .dict items => update out (inner (pre ++ e.1 ++ lit ".") items)
  | v => setEntry (pre ++ e.1) v out

/- `_flatten`, with the levels that are left; below them an
object is left out. -/
def flatten : Nat → Str → Fields → Fields
| 0, pre, obj => obj.foldl (flattenEntry pre fun _ _ => []) []
| levels + 1, pre, obj =>
    obj.foldl (flattenEntry pre (flatten levels)) []

/- `_MAX_FLATTEN_DEPTH`. -/
def maxFlattenDepth : Nat := 64

/- `value in ("log", "generic")`. -/
def placeholder : PyVal → Bool
| .str s => s == lit "log" || s == lit "generic"
| _ => false

variable [Unicode]

inductive EntityField where
| srcIp
| destIp
| username
| hostname
deriving DecidableEq

namespace EntityField

def name : EntityField → String
| .srcIp => "src_ip"
| .destIp => "dest_ip"
| .username => "username"
| .hostname => "hostname"

/- The flat keys that name an entity. -/
def keys : EntityField → List String
| .srcIp =>
    ["src_ip", "source_ip", "srcip", "client_ip", "ip"]
| .destIp => ["dest_ip", "destination_ip", "dstip"]
| .username => ["user", "username", "user_name", "account"]
| .hostname => ["host", "hostname", "computer", "device"]

def all : List EntityField :=
  [.srcIp, .destIp, .username, .hostname]

end EntityField

/- `a == b` of a value with a text or nothing. -/
def sameText : PyVal → PyVal → Bool
| .str a, .str b => a == b
| _, _ => false

variable [Normalizer]

end JsonIngest

end ThreatOrbit

---- What A Key Holds

namespace ThreatOrbit

namespace JsonIngest

open Lib
open Lib.Regex

section

variable [Unicode]

end

---- What Raises

open Detection (intOfFloat)

open Detection (orVal)

open Detection (ecsAliases)

section

variable [Unicode]

/- What an alias of an entity has to say about it. -/
def ecsValue
    (f : EntityField)
    (flat : Fields)
    (entry : Str × Str) : Option PyVal :=
  let v := (lookup entry.1 flat).getD .none
  if entry.2 = lit f.name && !blank v then
    some (.str (pyStr v))
  else none

/- The values of the aliases of an entity that an object has,
in the order of the aliases. -/
def ecsValues (f : EntityField) (obj : Fields) : List PyVal :=
  ecsAliases.filterMap
    (ecsValue f (flatten maxFlattenDepth [] obj))

end

---- The Order Of The Sources Of A Value

section

variable [Unicode]

/- What the raw line alone says of an entity. -/
def EntityField.guess (f : EntityField) (line : Str) : PyVal :=
  get f.name (baseEvent line)

/- The value that an entity is promised: that of the first
flat key that holds one, else that of the first alias, else
the guess. -/
def EntityField.wanted
    (f : EntityField)
    (line : Str)
    (obj : Fields) : PyVal :=
  if blank (pick f.keys obj) then
    (ecsValues f obj).headD (f.guess line)
  else pick f.keys obj

/- A field that still takes a value. -/
def standIn (weak : Bool) (v : PyVal) : Bool :=
  weak || !truthy v || placeholder v

/- What the aliases leave of what was picked, or guessed. -/
def EntityField.settled
    (f : EntityField)
    (line : Str)
    (obj : Fields) : PyVal :=
  let x := orVal (pick f.keys obj) (f.guess line)
  overwrite (standIn (sameText x (f.guess line))) x
    (ecsValues f obj)

variable [Normalizer]
variable {libs : JsonLibs}
variable {line : Str}
variable {obj : Fields}

end

---- Precedence

section

variable [Unicode] [Normalizer]

end

---- An Address Beside Its Alias

local instance jsonUnicode : Unicode := asciiTables

local instance jsonNormalizer : Normalizer := ⟨id⟩

end JsonIngest

end ThreatOrbit
