import ThreatOrbit.Lib.Csv
import ThreatOrbit.Lib.Shell
import ThreatOrbit.Connectors.Import

/-
  The curated blocklists, and how each is read.
-/

---- Parsers

namespace ThreatOrbit.Connectors

open Lib

/- A value with its note. -/
abbrev Entry := Str × Str

/- What a parser makes of a line or a row: it goes on to the
next, or appends what there is to append and then counts what
it has. -/
inductive Reading where
  | raised
  | skipped
  | read (entry : Option Entry)
deriving DecidableEq

def Reading.entry : Reading → Option Entry
| .read entry => entry
| _ => none

/- The loop of a parser, up to `_BULK_MAX_PER_FEED`. -/
def gather
    (cap : Nat) :
    List Entry → List Reading → Option (List Entry)
| out, [] => some out
| _, .raised :: _ => none
| out, .skipped :: rest => gather cap out rest
| out, .read entry :: rest =>
    let out := out ++ entry.toList
    if cap ≤ out.length then some out
    else gather cap out rest

/- Whether a line is blank or a comment. -/
def isComment : Str → Bool
| [] => true
| c :: _ => c == cp '#' || c == cp ';'

/- A line in `_p_iplist`. -/
def readIplist (line : Str) : Reading :=
  let v := strip line
  if isComment v then .skipped
  else
    match strip ((spaceSplit v).headD []) with
    | [] => .read none
    | first => .read (some (first, []))

/- The hosts that a hosts file names for the host itself. -/
def ownHosts : List Str :=
  [lit "localhost", lit "localhost.localdomain",
    lit "broadcasthost", lit "local", lit "ip6-localhost",
    lit "ip6-loopback"]

/- A line in `_p_hosts`. -/
def readHosts (line : Str) : Reading :=
  let s := strip line
  if isComment s then .skipped
  else
    match spaceSplit s with
    | _ :: second :: _ =>
        let host :=
          ((strip second).reverse.dropWhile
            (· == cp '.')).reverse
        if host = [] ∨ ownHosts.contains host then .skipped
        else .read (some (host, []))
    | _ => .skipped

/- A line in `_p_netset`. -/
def readNetset (line : Str) : Reading :=
  let s := strip line
  if isComment s || s.contains (cp '/') then .skipped
  else .read (some ((spaceSplit s).headD [], []))

/- `(row[i] or "").strip().strip('"')`. -/
def cell (row : List Str) (i : Nat) : Str :=
  stripBy (· == cp '"') (strip (row.getD i []))

/- Whether a row is left out, for a comment or for its
length. -/
def skipsRow (width : Nat) (row : List Str) : Bool :=
  row.length < width ||
    (lit "#").isPrefixOf ((row.headD []).dropWhile isSpace)

/- A row in `_p_threatfox`. -/
def readThreatfox : Option (List Str) → Reading
| none => .raised
| some row =>
    if skipsRow 5 row then .skipped
    else
      let value := cell row 2
      let bare :=
        if value.count (cp ':') = 1 ∧
            !(lit "http").isPrefixOf value then
          value.takeWhile (· != cp ':')
        else value
      if bare = [] then .read none
      else .read (some (bare, cell row 7))

/- A row in `_p_urlhaus`. -/
def readUrlhaus : Option (List Str) → Reading
| none => .raised
| some row =>
    if skipsRow 3 row then .skipped
    else if (lit "http").isPrefixOf (cell row 2) then
      .read (some (cell row 2, cell row 5))
    else .read none

/- `_BULK_PARSERS`. -/
inductive BulkParser where
  | iplist
  | threatfox
  | urlhaus
  | hosts
  | netset
deriving DecidableEq

/- What a parser makes of each line or row of a text. -/
def BulkParser.readings (text : Str) : BulkParser → List Reading
| .iplist => (splitLines text).map readIplist
| .threatfox => (csvReader text).map readThreatfox
| .urlhaus => (csvReader text).map readUrlhaus
| .hosts => (splitLines text).map readHosts
| .netset => (splitLines text).map readNetset

/- `_BULK_PARSERS[parser](text)`, `none` where it raises. -/
def BulkParser.parse
    (p : BulkParser)
    (cap : Nat)
    (text : Str) : Option (List Entry) :=
  gather cap [] (p.readings text)

/- The entries of a text, however many. -/
def BulkParser.entries
    (p : BulkParser)
    (text : Str) : List Entry :=
  (p.readings text).filterMap Reading.entry

/- Whether a parser reads lines, which never raises. -/
def BulkParser.byLine : BulkParser → Bool
| .iplist | .hosts | .netset => true
| .threatfox | .urlhaus => false

example :
    BulkParser.hosts.parse 2
        (lit "# a\n0.0.0.0 localhost\n0.0.0.0 a.test.\n") =
      some [(lit "a.test", [])] := by
  decide

---- The Catalogue

/- A row of `_BULK_FEEDS`. -/
structure BulkFeed where
  name : Str
  url : Str
  parser : BulkParser
  forced : Option Str
  confidence : Int
  threat : Str

/- `_BULK_FEEDS`. -/
def bulkFeeds : List BulkFeed :=
  [⟨lit "abuse.ch ThreatFox",
      lit "https://threatfox.abuse.ch/export/csv/recent/",
      .threatfox, none, 85,
      lit "malware-c2"⟩,
    ⟨lit "abuse.ch URLhaus",
      lit "https://urlhaus.abuse.ch/downloads/csv_recent/",
      .urlhaus, some (lit "url"), 85,
      lit "malware-distribution"⟩,
    ⟨lit "abuse.ch Feodo Tracker",
      lit "https://feodotracker.abuse.ch/downloads/" ++
        lit "ipblocklist.txt",
      .iplist, some (lit "ip"), 90,
      lit "botnet-c2"⟩,
    ⟨lit "blocklist.de",
      lit "https://lists.blocklist.de/lists/all.txt",
      .iplist, some (lit "ip"), 70,
      lit "attack-source"⟩,
    ⟨lit "CINS Army",
      lit "https://cinsscore.com/list/ci-badguys.txt",
      .iplist, some (lit "ip"), 70,
      lit "attack-source"⟩,
    ⟨lit "Emerging Threats",
      lit "https://rules.emergingthreats.net/blockrules/" ++
        lit "compromised-ips.txt",
      .iplist, some (lit "ip"), 75,
      lit "compromised-host"⟩,
    ⟨lit "Tor exit nodes",
      lit "https://check.torproject.org/torbulkexitlist",
      .iplist, some (lit "ip"), 40,
      lit "anonymiser"⟩,
    ⟨lit "Phishing.Database (active domains)",
      lit "https://raw.githubusercontent.com/" ++
        lit "mitchellkrogza/Phishing.Database/master/" ++
        lit "phishing-domains-ACTIVE.txt",
      .iplist, none, 80,
      lit "phishing"⟩,
    ⟨lit "Phishing.Database (active links)",
      lit "https://raw.githubusercontent.com/" ++
        lit "mitchellkrogza/Phishing.Database/master/" ++
        lit "phishing-links-ACTIVE.txt",
      .iplist, some (lit "url"), 80,
      lit "phishing"⟩,
    ⟨lit "Blocklist Project (ransomware)",
      lit "https://raw.githubusercontent.com/" ++
        lit "blocklistproject/Lists/master/ransomware.txt",
      .hosts, none, 80,
      lit "ransomware"⟩,
    ⟨lit "Blocklist Project (phishing)",
      lit "https://raw.githubusercontent.com/" ++
        lit "blocklistproject/Lists/master/phishing.txt",
      .hosts, none, 70,
      lit "phishing"⟩,
    ⟨lit "Blocklist Project (scam)",
      lit "https://raw.githubusercontent.com/" ++
        lit "blocklistproject/Lists/master/scam.txt",
      .hosts, none, 60,
      lit "scam"⟩,
    ⟨lit "Marcoux malicious IPs",
      lit "https://raw.githubusercontent.com/" ++
        lit "romainmarcoux/malicious-ip/main/full-40k.txt",
      .iplist, some (lit "ip"), 70,
      lit "attack-source"⟩,
    ⟨lit "Marcoux malicious domains",
      lit "https://raw.githubusercontent.com/" ++
        lit "romainmarcoux/malicious-domains/main/full-" ++
        lit "domains-aa.txt",
      .iplist, none, 65,
      lit "malware-distribution"⟩,
    ⟨lit "FireHOL level2",
      lit "https://raw.githubusercontent.com/firehol/" ++
        lit "blocklist-ipsets/master/firehol_level2.netset",
      .netset, some (lit "ip"), 70,
      lit "attack-source"⟩]

/- `_FEED_MIRROR`: the mirrors of feeds, by their names. -/
def feedMirror : List (Str × Str) :=
  [(lit "Tor exit nodes",
      lit "https://raw.githubusercontent.com/firehol/" ++
        lit "blocklist-ipsets/master/tor_exits.ipset"),
    (lit "blocklist.de",
      lit "https://raw.githubusercontent.com/firehol/" ++
        lit "blocklist-ipsets/master/blocklist_de.ipset"),
    (lit "CINS Army",
      lit "https://raw.githubusercontent.com/firehol/" ++
        lit "blocklist-ipsets/master/ciarmy.ipset"),
    (lit "Emerging Threats",
      lit "https://raw.githubusercontent.com/firehol/" ++
        lit "blocklist-ipsets/master/et_compromised.ipset")]

/- `_MALTRAIL_SOURCE`. -/
def maltrailSource : Str := lit "Maltrail malware trails"

/- `_MALTRAIL_FAMILY_URL.format(family)`. -/
def maltrailFamilyUrl (family : Str) : Str :=
  lit "https://raw.githubusercontent.com/" ++
    lit "stamparm/trails/master/malware/" ++ family ++
    lit ".txt"

/- `_MALWARE_FAMILIES`. -/
def malwareFamilies : List (Str × Str × Str) :=
  [(lit "emotet", lit "loader/botnet", lit "malware-c2"),
    (lit "trickbot", lit "banking trojan/loader",
      lit "malware-c2"),
    (lit "qakbot", lit "banking trojan/loader",
      lit "malware-c2"),
    (lit "icedid", lit "loader/banking trojan",
      lit "malware-c2"),
    (lit "bazarloader", lit "loader", lit "malware-c2"),
    (lit "smokeloader", lit "loader", lit "malware-c2"),
    (lit "amadey", lit "loader/botnet", lit "malware-c2"),
    (lit "guloader", lit "shellcode loader",
      lit "malware-distribution"),
    (lit "matanbuchus", lit "loader", lit "malware-c2"),
    (lit "latrodectus", lit "loader", lit "malware-c2"),
    (lit "andromeda", lit "loader/botnet", lit "malware-c2"),
    (lit "zloader", lit "loader/banking trojan",
      lit "malware-c2"),
    (lit "dridex", lit "banking trojan", lit "malware-c2"),
    (lit "ursnif", lit "banking trojan", lit "malware-c2"),
    (lit "gootkit", lit "banking trojan/loader",
      lit "malware-c2"),
    (lit "zeus", lit "banking trojan", lit "malware-c2"),
    (lit "danabot", lit "banking trojan/stealer",
      lit "malware-c2"),
    (lit "asyncrat", lit "remote access trojan",
      lit "malware-c2"),
    (lit "remcos", lit "remote access trojan",
      lit "malware-c2"),
    (lit "njrat", lit "remote access trojan",
      lit "malware-c2"),
    (lit "nanocore", lit "remote access trojan",
      lit "malware-c2"),
    (lit "quasarrat", lit "remote access trojan",
      lit "malware-c2"),
    (lit "xworm", lit "remote access trojan",
      lit "malware-c2"),
    (lit "redline", lit "information stealer",
      lit "malware-c2"),
    (lit "raccoon", lit "information stealer",
      lit "malware-c2"),
    (lit "vidar", lit "information stealer", lit "malware-c2"),
    (lit "azorult", lit "information stealer",
      lit "malware-c2"),
    (lit "lokibot", lit "information stealer",
      lit "malware-c2"),
    (lit "formbook", lit "information stealer",
      lit "malware-c2"),
    (lit "agenttesla", lit "information stealer/keylogger",
      lit "malware-c2"),
    (lit "arkei", lit "information stealer", lit "malware-c2"),
    (lit "cobaltstrike", lit "post-exploitation framework",
      lit "malware-c2"),
    (lit "tofsee", lit "spam botnet", lit "botnet-c2"),
    (lit "necurs", lit "spam botnet", lit "botnet-c2"),
    (lit "ramnit", lit "worm/botnet", lit "malware-c2")]

/- `_FAMILY_CONFIDENCE`. -/
def familyConfidence : Int := 72

/- A row of `family_feeds`. -/
structure FamilyFeed where
  family : Str
  url : Str
  role : Str
  threat : Str

def familyFeeds : List FamilyFeed :=
  malwareFamilies.map fun e =>
    ⟨e.1, maltrailFamilyUrl e.1, e.2.1, e.2.2⟩

/- A URL, and how what it serves is read and typed. -/
structure Listing where
  url : Str
  parser : BulkParser
  forced : Option Str
deriving DecidableEq

/- The listing of a feed at its origin or its mirror. -/
def BulkFeed.at (feed : BulkFeed) (url : Str) : Listing :=
  ⟨url, feed.parser, feed.forced⟩

def BulkFeed.origin (feed : BulkFeed) : Listing :=
  feed.at feed.url

def FamilyFeed.listing (feed : FamilyFeed) : Listing :=
  ⟨feed.url, .iplist, none⟩

def BulkFeed.listings
    (mirror : List (Str × Str))
    (feed : BulkFeed) : List Listing :=
  feed.origin ::
    ((lookup feed.name mirror).map feed.at).toList

/- The feeds of a sync. No two listings have a URL in common,
and a feed with a mirror is read by lines. -/
structure Catalogue where
  feeds : List BulkFeed
  mirror : List (Str × Str)
  families : List FamilyFeed
  distinct :
    ((feeds.flatMap (BulkFeed.listings mirror) ++
      families.map FamilyFeed.listing).map Listing.url).Nodup
  byLine :
    ∀ feed ∈ feeds, (lookup feed.name mirror).isSome = true →
      feed.parser.byLine = true

def Catalogue.listings (k : Catalogue) : List Listing :=
  k.feeds.flatMap (BulkFeed.listings k.mirror) ++
    k.families.map FamilyFeed.listing

/- The trails of different families have different URLs. -/
theorem maltrailFamilyUrl_injective :
    Function.Injective maltrailFamilyUrl := by
  intro family other hSame
  unfold maltrailFamilyUrl at hSame
  rw [List.append_left_inj, List.append_right_inj] at hSame
  exact hSame

/- A text as a number, to tell texts apart by. -/
def urlNumber (url : Str) : Nat :=
  url.foldl (fun n c => (131 * n + c) % 1000000007) 0

/- The numbers of the URLs of the feeds differ, and no URL is
a trail. -/
theorem feedUrls_apart :
    (((bulkFeeds.flatMap (BulkFeed.listings feedMirror)).map
        Listing.url).map urlNumber).Nodup ∧
      ∀ url ∈ (bulkFeeds.flatMap
          (BulkFeed.listings feedMirror)).map Listing.url,
        ¬ lit "https://raw.githubusercontent.com/stamparm/" <+:
          url := by
  decide +kernel

/- The URLs of the feeds and their mirrors differ, and those
of the trails are on another path. -/
theorem builtin_distinct :
    ((bulkFeeds.flatMap (BulkFeed.listings feedMirror) ++
      familyFeeds.map FamilyFeed.listing).map
        Listing.url).Nodup := by
  have hTrails :
      (familyFeeds.map FamilyFeed.listing).map Listing.url =
        (malwareFamilies.map Prod.fst).map maltrailFamilyUrl := by
    simp [familyFeeds, FamilyFeed.listing, Function.comp_def]
  have hFeeds :
      ((bulkFeeds.flatMap (BulkFeed.listings feedMirror)).map
        Listing.url).Nodup :=
    List.Nodup.of_map urlNumber feedUrls_apart.1
  have hFamilies : (malwareFamilies.map Prod.fst).Nodup := by
    decide +kernel
  have hOther := feedUrls_apart.2
  rw [List.map_append, hTrails]
  apply List.Nodup.append hFeeds
  · exact hFamilies.map maltrailFamilyUrl_injective
  · intro url hUrl hTrail
    rcases List.mem_map.mp hTrail with ⟨family, _, rfl⟩
    apply hOther _ hUrl
    exact ⟨lit "trails/master/malware/" ++ family ++ lit ".txt",
      by simp [maltrailFamilyUrl, lit]⟩

def builtinFeeds : Catalogue where
  feeds := bulkFeeds
  mirror := feedMirror
  families := familyFeeds
  distinct := builtin_distinct
  byLine := by decide

---- The First Entries

/- A loop that ends well has the first entries of its list,
as many as it may have. -/
theorem gather_prefix
    {cap : Nat} {out found : List Entry} {readings : List Reading}
    (hFound : gather cap out readings = some found) :
    ∀ e ∈ (out ++ readings.filterMap Reading.entry).take cap,
      e ∈ found := by
  induction readings generalizing out with
  | nil =>
      rw [gather, Option.some.injEq] at hFound
      intro e hE
      rw [List.filterMap_nil, List.append_nil, hFound] at hE
      exact List.mem_of_mem_take hE
  | cons reading rest ih =>
      cases reading with
      | raised =>
          rw [gather] at hFound
          cases hFound
      | skipped =>
          rw [gather] at hFound
          exact ih hFound
      | read entry =>
          have hSplit :
              out ++ (Reading.read entry :: rest).filterMap
                  Reading.entry =
                (out ++ entry.toList) ++
                  rest.filterMap Reading.entry := by
            cases entry with
            | none => simp [List.filterMap_cons, Reading.entry]
            | some e => simp [Reading.entry]
          rw [hSplit]
          simp only [gather] at hFound
          split at hFound
          · rename_i hFull
            rw [Option.some.injEq] at hFound
            intro e hE
            rw [List.take_append_of_le_length hFull] at hE
            rw [← hFound]
            exact List.mem_of_mem_take hE
          · exact ih hFound

/- What is parsed has the first entries of the text. -/
theorem parse_prefix
    {p : BulkParser} {cap : Nat} {text : Str} {found : List Entry}
    (hFound : p.parse cap text = some found) :
    ∀ e ∈ (p.entries text).take cap, e ∈ found := by
  have hAll := gather_prefix hFound
  rwa [List.nil_append] at hAll

theorem gather_isSome
    {cap : Nat} {out : List Entry} {readings : List Reading}
    (hNone : Reading.raised ∉ readings) :
    (gather cap out readings).isSome = true := by
  induction readings generalizing out with
  | nil => rfl
  | cons reading rest ih =>
      rw [List.mem_cons, not_or] at hNone
      cases reading with
      | raised => exact absurd rfl hNone.1
      | skipped => exact ih hNone.2
      | read entry =>
          simp only [gather]
          split
          · rfl
          · exact ih hNone.2

theorem readIplist_ne_raised
    (line : Str) :
    readIplist line ≠ .raised := by
  unfold readIplist
  grind

theorem readHosts_ne_raised
    (line : Str) :
    readHosts line ≠ .raised := by
  unfold readHosts
  grind

theorem readNetset_ne_raised
    (line : Str) :
    readNetset line ≠ .raised := by
  unfold readNetset
  grind

/- A parser that reads lines parses every text. -/
theorem parse_isSome
    {p : BulkParser}
    (hLine : p.byLine = true) (cap : Nat) (text : Str) :
    (p.parse cap text).isSome = true := by
  apply gather_isSome
  cases p with
  | iplist =>
      simp [BulkParser.readings, readIplist_ne_raised]
  | hosts =>
      simp [BulkParser.readings, readHosts_ne_raised]
  | netset =>
      simp [BulkParser.readings, readNetset_ne_raised]
  | threatfox => cases hLine
  | urlhaus => cases hLine

---- The Rows Of A Listing

/- The type of an entry: `forced or guess_type(value)`, where
it can be imported. -/
def typeOf (forced : Option Str) (value : Str) : Option Str :=
  (match forced with
    | some (c :: rest) => some (c :: rest)
    | _ => guessType value).filter iocTypes.contains

/- The value that is stored for an entry, `none` where it
cannot be imported. -/
def importedAs
    (t : ImportTools)
    (forced : Option Str)
    (value : Str) : Option Str :=
  match typeOf forced value with
  | none => none
  | some _ =>
      if stripPort t value = [] then none
      else some (stripPort t value)

def bulkSourceId (name : Str) : Str :=
  lit "osint:" ++ name

variable [Unicode]

def BulkFeed.row
    (feed : BulkFeed)
    (type : Str)
    (e : Entry) : Indicator :=
  let note := e.2
  { value := some e.1
    type := some type
    confidence := .int feed.confidence
    severity := none
    threatType := some
      (if note = [] then feed.threat
      else feed.threat ++ lit " (" ++ note ++ lit ")")
    tags :=
      [lit "osint", lit "public-feed"] ++
        if note = [] then []
        else [lit "malware:" ++ Unicode.lower note]
    actor := some []
    malwareFamily := some note
    source := some (bulkSourceId feed.name)
    firstSeen := none
    lastSeen := none
    reportId := none }

def FamilyFeed.row
    (feed : FamilyFeed)
    (type : Str)
    (e : Entry) : Indicator where
  value := some e.1
  type := some type
  confidence := .int familyConfidence
  severity := none
  threatType := some
    (feed.threat ++ lit " (" ++ feed.family ++ lit ")")
  tags :=
    [lit "osint", lit "public-feed",
      lit "malware:" ++ feed.family, feed.role]
  actor := some []
  malwareFamily := some feed.family
  source := some (bulkSourceId maltrailSource)
  firstSeen := none
  lastSeen := none
  reportId := none

/- The rows of the entries that have a type. -/
def rowsOf
    (forced : Option Str)
    (row : Str → Entry → Indicator)
    (entries : List Entry) : List Indicator :=
  entries.filterMap fun e =>
    (typeOf forced e.1).map fun type => row type e

theorem lower_iocType
    {type : Str}
    (hType : iocTypes.contains type = true) :
    Unicode.lower (strip type) = type := by
  rw [List.contains_iff_mem] at hType
  have hAscii : ∀ type ∈ iocTypes,
      (∀ c ∈ strip type, c < 128) ∧
        asciiLowerStr (strip type) = type := by
    decide
  rcases hAscii type hType with ⟨hSmall, hLower⟩
  rw [Unicode.lower_ascii _ hSmall, hLower]

/- An indicator with a type and a value can be imported. -/
theorem readIndicator_typed
    {t : ImportTools} {now source type value : Str}
    {ind : Indicator}
    (hType : ind.type = some type)
    (hKnown : iocTypes.contains type = true)
    (hValue : ind.value = some value)
    (hSome : stripPort t value ≠ []) :
    ∃ c, readIndicator t now source ind = some c ∧
      c.value = stripPort t value := by
  have hOwn : Unicode.lower (strip (ind.type.getD [])) = type := by
    rw [hType, Option.getD_some, lower_iocType hKnown]
  have hNe : type ≠ [] := by
    rintro rfl
    exact absurd hKnown (by decide)
  have hIs : ind.itype t = type := by
    simp only [Indicator.itype, hOwn, if_neg hNe]
  have hNormal : ind.normalised t = stripPort t value := by
    rw [Indicator.normalised, hValue, Option.getD_some]
  unfold readIndicator
  simp only [hIs, hNormal, hKnown]
  rw [if_neg (by simpa using hSome)]
  exact ⟨_, rfl, rfl⟩

/- The rows of a listing have what can be imported of its
entries. -/
theorem mem_rowsOf
    {t : ImportTools}
    (now source : Str)
    {forced : Option Str} {row : Str → Entry → Indicator}
    {entries : List Entry} {e : Entry} {v : Str}
    (hRow : ∀ type e, (row type e).type = some type ∧
      (row type e).value = some e.1)
    (hEntry : e ∈ entries)
    (hImported : importedAs t forced e.1 = some v) :
    ∃ ind ∈ rowsOf forced row entries,
      ∃ c, readIndicator t now source ind = some c ∧
        c.value = v := by
  unfold importedAs at hImported
  cases hType : typeOf forced e.1 with
  | none =>
      rw [hType] at hImported
      cases hImported
  | some type =>
      simp only [hType] at hImported
      split at hImported
      · cases hImported
      · rename_i hSome
        rw [Option.some.injEq] at hImported
        have hKnown : iocTypes.contains type = true := by
          unfold typeOf at hType
          exact (Option.filter_eq_some_iff.mp hType).2
        refine ⟨row type e, ?_, ?_⟩
        · apply List.mem_filterMap.mpr
          exact ⟨e, hEntry, by rw [hType, Option.map_some]⟩
        · rw [← hImported]
          exact readIndicator_typed (hRow type e).1 hKnown
            (hRow type e).2 hSome

end ThreatOrbit.Connectors
