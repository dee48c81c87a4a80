import ThreatOrbit.Lib.Caseless

/-
  The indicators of a feed as an import reads them.
-/

---- Values And Types

namespace ThreatOrbit.Connectors

open Lib

/- The characters of `str.isdigit`, and the columns that
`ioc_store` derives from others. -/
structure ImportTools where
  isDigitChar : Nat → Bool
  hostOf : Str → Str → Option Str
  ipHexOf : Str → Str → Option Str
  regDomainOf : Str → Str → Option Str
  initialScore :
    Str → Int → Str → Option Str → Str → Str → Int
  alertMinConfidence : Int

/- `str.isdigit`. -/
def ImportTools.isDigits (t : ImportTools) (s : Str) : Bool :=
  s != [] && s.all t.isDigitChar

/- One to three digits. -/
def octetRe : Regex :=
  let d := Regex.cls Regex.isDecimal
  .alt (.cat [d, d, d]) (.alt (.cat [d, d]) d)

/- `_IPV4`. -/
def ipv4Re : Regex :=
  let part := Regex.seq octetRe (Regex.chr '.')
  .cat [part, part, part, octetRe, Regex.atEnd]

/- `_CVE`. -/
def cveRe : Regex :=
  let d := Regex.cls Regex.isDecimal
  .cat [Regex.wordI "CVE-", d, d, d, d, Regex.chr '-',
    d, d, d, .plus d, Regex.atEnd]

/- `[a-f0-9]` under `re.I`. -/
def isHexI (c : Nat) : Bool :=
  isDigit c ||
    (cp 'a' ≤ asciiLower c && asciiLower c ≤ cp 'f')

/- `_HASH`. -/
def hashRe : Regex :=
  let hex (n : Nat) :=
    Regex.cat (List.replicate n (.cls isHexI) ++ [Regex.atEnd])
  .alt (hex 32) (.alt (hex 40) (hex 64))

/- The pattern of a domain in `guess_type`. -/
def domainRe : Regex :=
  let first := fun c => Regex.letterI c || isDigit c
  .cat [.cls first,
    .star true
      (.cls fun c => first c || c == cp '.' || c == cp '-'),
    Regex.chr '.', .cls Regex.letterI,
    .plus (.cls Regex.letterI), Regex.atEnd]

/- `pattern.match(text)`. -/
def matches? (r : Regex) (s : Str) : Bool :=
  (r.matchAt (Cursor.start s)).isSome

/- A value that is taken for a URL or a path. -/
def urlShaped (v : Str) : Bool :=
  contains (lit "://") v || (lit "http").isPrefixOf v ||
    (lit "/").isPrefixOf v

def stripPort (t : ImportTools) (value : Str) : Str :=
  let v := strip value
  if v = [] ∨ urlShaped v then v
  else
    let head := v.takeWhile (· != cp ':')
    match v.dropWhile (· != cp ':') with
    | [] => v
    | _ :: tail =>
        if head = [] then v
        else if t.isDigits tail then head
        else if matches? ipv4Re head &&
            ((splitOn (cp ':') tail).filter (· != [])).all
              t.isDigits then
          head
        else v

def guessType (value : Str) : Option Str :=
  let v := strip value
  if v = [] then none
  else if matches? cveRe v then some (lit "cve")
  else if matches? ipv4Re (v.takeWhile (· != cp ':')) then
    some (lit "ip")
  else if matches? hashRe v then some (lit "hash")
  else if urlShaped v then some (lit "url")
  else if contains (lit "@") v &&
      contains (lit ".")
        ((splitOn (cp '@') v).getLast?.getD []) then
    some (lit "email")
  else if matches? domainRe v then some (lit "domain")
  else none

/- `_IOC_TYPES`. -/
def iocTypes : List Str :=
  [lit "ip", lit "domain", lit "url", lit "hash",
    lit "email", lit "cve"]

---- Severity And Confidence

section

/- `_ACTIVITY_SEVERITY`. -/
def activitySeverity : List (List Str × Str) :=
  [([lit "ransom", lit "wiper", lit "apt",
      lit "targeted attack", lit "nation state",
      lit "advanced persistent"], lit "critical"),
    ([lit "c2", lit "command and control", lit "beacon",
      lit "cobalt"], lit "critical"),
    ([lit "exfil", lit "data theft"], lit "critical"),
    ([lit "malware", lit "trojan", lit "stealer",
      lit "loader", lit "rat", lit "backdoor", lit "botnet",
      lit "worm", lit "dropper", lit "miner", lit "mining"],
      lit "high"),
    ([lit "phish", lit "spoof", lit "harvest"], lit "high"),
    ([lit "exploit", lit "rce", lit "vulnerab", lit "cve"],
      lit "high"),
    ([lit "scan", lit "recon", lit "probe", lit "brute",
      lit "spray", lit "stuffing", lit "credential",
      lit "attack", lit "abuse"], lit "medium"),
    ([lit "spam", lit "scam", lit "fraud", lit "proxy",
      lit "proxies", lit "tor", lit "vpn", lit "anonym"],
      lit "medium"),
    ([lit "suspicious", lit "unwanted", lit "adware",
      lit "pup"], lit "low")]

/- `UNCLASSIFIED_SEVERITY`. -/
def unclassifiedSeverity : Str := lit "medium"

def hits (needle text : Str) (tokens : List Str) : Bool :=
  if contains (lit " ") needle then contains needle text
  else if needle.length ≤ 3 then tokens.contains needle
  else tokens.any fun t => needle.isPrefixOf t

variable [Unicode]

def severityFor
    (threatType : Option Str)
    (tags : List Str) : Str :=
  let raw := Unicode.lower
    (joinWith (lit " ") (threatType.getD [] :: tags))
  let text := raw.map fun c =>
    if Unicode.isAlnum c then c else cp ' '
  let tokens := (splitOn (cp ' ') text).filter (· != [])
  if tokens = [] then unclassifiedSeverity
  else
    match activitySeverity.find?
        (fun row => row.1.any fun n => hits n text tokens) with
    | some row => row.2
    | none => unclassifiedSeverity

def toConfidence (raw : PyVal) : Int :=
  match raw with
  | .none | .str [] => 50
  | raw =>
      let bare :=
        ((strip (pyStr raw)).reverse.dropWhile
          (· == cp '%')).reverse
      match (readFloat (strip bare)).bind truncFloat with
      | none => 50
      | some n => max 0 (min 100 n)

end

---- Indicators

/- The entries of an indicator that an import reads. -/
structure Indicator where
  value : Option Str
  type : Option Str
  confidence : PyVal
  severity : Option Str
  threatType : Option Str
  tags : List Str
  actor : Option Str
  malwareFamily : Option Str
  source : Option Str
  firstSeen : Option Str
  lastSeen : Option Str
  reportId : Option Str

/- A row of `iocs`, up to its id. -/
structure IocRow where
  type : Str
  value : Str
  threatType : Str
  confidence : Int
  severity : Str
  source : Str
  actor : Str
  malwareFamily : Option Str
  firstSeen : Str
  lastSeen : Str
  tags : List Str
  status : Str
  sightings : Int
  reportId : Option Str
  orgId : Str
  host : Option Str
  ipHex : Option Str
  regDomain : Option Str
  intelScore : Int
  importedAt : Str
deriving DecidableEq

/- An indicator that can be imported, as `_import` keeps
it. -/
structure Candidate where
  value : Str
  itype : Str
  conf : Int
  severity : Str
  threatType : Str
  actor : Str
  malwareFamily : Str
  source : Str
  row : IocRow
deriving DecidableEq

/- `strip_port(ind.get("value") or "")`. -/
def Indicator.normalised
    (t : ImportTools)
    (ind : Indicator) : Str :=
  stripPort t (ind.value.getD [])

variable [Unicode]

/- The family as it is stored. -/
def familyOf (family : Str) : Str :=
  Unicode.lower (strip family)

/- The family that an indicator names, or the empty text. -/
def Indicator.family (ind : Indicator) : Str :=
  familyOf (ind.malwareFamily.getD [])

/- The type that an import gives an indicator. -/
def Indicator.itype
    (t : ImportTools)
    (ind : Indicator) : Str :=
  let own := Unicode.lower (strip (ind.type.getD []))
  if own = [] then
    (guessType (ind.normalised t)).getD []
  else own

/- `ioc_row`, of what `_import` passes. -/
def iocRow
    (t : ImportTools)
    (now source : Str)
    (ind : Indicator)
    (value itype severity : Str)
    (conf : Int) : IocRow :=
  let family := ind.malwareFamily.getD []
  let actor := ind.actor.getD []
  let lastSeen := orStr ind.lastSeen now
  { type := itype
    value := value
    threatType := orStr ind.threatType (lit "malicious-activity")
    confidence := conf
    severity := severity
    source := orStr ind.source source
    actor := actor
    malwareFamily :=
      if familyOf family = [] then none
      else some (familyOf family)
    firstSeen := orStr ind.firstSeen now
    lastSeen := lastSeen
    tags := ind.tags
    status := lit "active"
    sightings := 1
    reportId := ind.reportId
    orgId := lit "org-default"
    host := t.hostOf value itype
    ipHex := t.ipHexOf value itype
    regDomain := t.regDomainOf value itype
    intelScore :=
      t.initialScore itype conf lastSeen ind.reportId actor family
    importedAt := now }

/- An indicator in the loop of `_import`: `none` where it is
skipped. -/
def readIndicator
    (t : ImportTools)
    (now source : Str)
    (ind : Indicator) : Option Candidate :=
  let value := ind.normalised t
  let itype := ind.itype t
  if value = [] ∨ !iocTypes.contains itype then none
  else
    let conf := toConfidence ind.confidence
    let severity := orStr ind.severity
      (severityFor ind.threatType ind.tags)
    some
      { value := value
        itype := itype
        conf := conf
        severity := severity
        threatType := ind.threatType.getD []
        actor := ind.actor.getD []
        malwareFamily := ind.malwareFamily.getD []
        source := orStr ind.source source
        row := iocRow t now source ind value itype severity conf }

/- What is read of an indicator that can be imported. -/
theorem readIndicator_some
    {t : ImportTools} {now source : Str} {ind : Indicator}
    {c : Candidate}
    (hRead : readIndicator t now source ind = some c) :
    c.value = ind.normalised t ∧ c.value ≠ [] ∧
      c.row.value = c.value ∧
      familyOf c.malwareFamily = ind.family ∧
      c.source = orStr ind.source source := by
  unfold readIndicator at hRead
  simp only at hRead
  split at hRead
  · cases hRead
  · rename_i hGood
    rw [not_or] at hGood
    cases hRead
    exact ⟨rfl, hGood.1, rfl, rfl, rfl⟩

end ThreatOrbit.Connectors
