import ThreatOrbit.Lib.Grouping

/-
  The vulnerability catalogue synced from NVD records.

  A record lists the products it affects as CPE matches with
  version bounds. The import keeps one range per CVE and
  product, the table stores it, and the scan compares the
  installed versions with it.
-/

---- Versions

namespace ThreatOrbit.Vulns

open Lib

/- `re.findall(r"\d+", text)`, with the run at hand. -/
def digitRuns (run : Str) : Str → List Str
| [] => if run = [] then [] else [run]
| c :: rest =>
    if (decimal c).isSome then
      digitRuns (run ++ [c]) rest
    else if run = [] then
      digitRuns [] rest
    else
      run :: digitRuns [] rest

/- The numbers of a version, or `none` where `int` raises on
one of too many digits. -/
def verTuple (v : Str) : Option (List Int) :=
  ((digitRuns [] v).mapM readInt).map fun numbers =>
    if numbers = [] then [0] else numbers

/- Zero-padded to a length. -/
def padded (n : Nat) (t : List Int) : List Int :=
  t ++ List.replicate (n - t.length) 0

/- Compare two versions, zero-padded to equal length. -/
def verCmp (a b : Str) : Option Ordering :=
  match verTuple a, verTuple b with
  | some ta, some tb =>
      let n := max ta.length tb.length
      let ta := padded n ta
      let tb := padded n tb
      some (if ta < tb then .lt
        else if tb < ta then .gt else .eq)
  | _, _ => none

/- The affected versions of a catalogue row. -/
structure Bounds where
  start : Option Str
  startIncl : Bool
  stop : Option Str
  stopIncl : Bool
deriving DecidableEq, Repr

/- Whether a version is not below the lower bound. -/
def Bounds.reaches
    (b : Bounds)
    (version : Str) : Option Bool :=
  match b.start with
  | none => some true
  | some lo =>
      (verCmp version lo).map fun c =>
        !(c = .lt || (!b.startIncl && c = .eq))

/- Whether a version is not above the upper bound. -/
def Bounds.stays
    (b : Bounds)
    (version : Str) : Option Bool :=
  match b.stop with
  | none => some true
  | some hi =>
      (verCmp version hi).map fun c =>
        !(c = .gt || (!b.stopIncl && c = .eq))

/- `_matches` of an entry with bounds: the upper bound is
looked at when the lower one holds. -/
def Bounds.covers
    (b : Bounds)
    (version : Str) : Option Bool :=
  if b.start = none ∧ b.stop = none then
    some false
  else
    match b.reaches version with
    | none => none
    | some false => some false
    | some true => b.stays version

---- NVD Records

/- A CPE match. Of the two keys of a bound at most one is
given, and a bound is a text that is not empty. -/
structure CpeMatch where
  vulnerable : Bool
  criteria : Str
  versionStartIncluding : Option Str
  versionStartExcluding : Option Str
  versionEndIncluding : Option Str
  versionEndExcluding : Option Str
  oneStart :
    versionStartIncluding = none ∨ versionStartExcluding = none
  oneEnd :
    versionEndIncluding = none ∨ versionEndExcluding = none
  filled :
    ∀ bound ∈ [versionStartIncluding, versionStartExcluding,
      versionEndIncluding, versionEndExcluding],
      bound ≠ some []

structure Node where
  cpeMatch : List CpeMatch

structure Configuration where
  nodes : List Node

/- An entry of a metric: its score, and its severity where
version 3 and version 2 have it. -/
structure CvssMetric where
  baseScore : Option Rat
  dataSeverity : Option Str
  baseSeverity : Option Str

structure Description where
  lang : Str
  value : Str

/- A CVE record. Records have an id. -/
structure CveRecord where
  id : Str
  cvssMetricV31 : List CvssMetric
  cvssMetricV30 : List CvssMetric
  cvssMetricV2 : List CvssMetric
  descriptions : List Description
  configurations : List Configuration
  named : id ≠ []

structure CatalogueRow where
  cve : Str
  product : Str
  cvss : Rat
  severity : Str
  bounds : Bounds
  fixed : Option Str
  summary : Str
deriving DecidableEq, Repr

/- `first or second`. -/
def orElse (first second : Option Str) : Option Str :=
  match first with
  | none => second
  | some [] => second
  | some text => some text

/- The CPE matches of a record, in order. -/
def CveRecord.cpeMatches (r : CveRecord) : List CpeMatch :=
  r.configurations.flatMap fun conf =>
    conf.nodes.flatMap Node.cpeMatch

def nvdSeverity (text : Str) : Str :=
  (lookup text [(lit "CRITICAL", lit "critical"),
    (lit "HIGH", lit "high"), (lit "MEDIUM", lit "medium"),
    (lit "LOW", lit "low")]).getD (lit "medium")

/- The score and severity of a record, of the first metric
it has; `upper` is `str.upper`. -/
def CveRecord.score
    (upper : Str → Str)
    (r : CveRecord) : Rat × Str :=
  match [r.cvssMetricV31, r.cvssMetricV30,
      r.cvssMetricV2].filterMap List.head? with
  | [] => (0, lit "medium")
  | metric :: _ =>
      (metric.baseScore.getD 0,
        nvdSeverity (upper
          (orStr metric.dataSeverity
            (metric.baseSeverity.getD []))))

/- The English description of a record. -/
def CveRecord.summary (r : CveRecord) : Str :=
  match r.descriptions.find? (fun d => d.lang = lit "en") with
  | none => []
  | some d => d.value.take 300

/- The fields of the criteria of a match. -/
def CpeMatch.parts (m : CpeMatch) : List Str :=
  splitOn (cp ':') m.criteria

/- The application a match is about, by its scanned name. -/
def CpeMatch.product [Unicode] (m : CpeMatch) : Option Str :=
  if m.parts.length < 6 ∨ m.parts.getD 2 [] ≠ lit "a" then
    none
  else
    let product :=
      Unicode.lower (strip
        ((m.parts.getD 4 []).map fun c =>
          if c = cp '_' then cp ' ' else c))
    if product = [] then none else some product

/- The version field of the criteria, where it pins one. -/
def CpeMatch.pinned (m : CpeMatch) : Option Str :=
  let version := m.parts.getD 5 []
  if [lit "*", lit "-", []].contains version then none
  else some version

/- The bounds a match gives: `none` if there is nothing to
scan for. -/
def CpeMatch.bounds (m : CpeMatch) : Option Bounds :=
  let start :=
    orElse m.versionStartIncluding m.versionStartExcluding
  let stop :=
    orElse m.versionEndIncluding m.versionEndExcluding
  let unbounded :=
    orStr start [] = [] ∧ orStr stop [] = []
  if unbounded then
    m.pinned.map fun version =>
      ⟨some version, true, some version, true⟩
  else
    some ⟨start, m.versionStartExcluding.isNone, stop,
      m.versionEndIncluding.isSome⟩

/- The products seen in a record, and its rows so far. -/
structure RecordState where
  seen : List Str
  rows : List CatalogueRow

/- The row a match adds: the first match of a product is
the one that counts. -/
def CveRecord.addMatch
    [Unicode]
    (upper : Str → Str)
    (r : CveRecord)
    (st : RecordState)
    (m : CpeMatch) : RecordState :=
  if !m.vulnerable then
    st
  else
    match m.product with
    | none => st
    | some product =>
        if st.seen.contains product then
          st
        else
          let seen := product :: st.seen
          match m.bounds with
          | none => { st with seen := seen }
          | some bounds =>
              { seen := seen
                rows :=
                  st.rows ++
                    [{ cve := r.id
                       product := product
                       cvss := (r.score upper).1
                       severity := (r.score upper).2
                       bounds := bounds
                       fixed := m.versionEndExcluding
                       summary := r.summary }] }

def CveRecord.rows
    [Unicode]
    (upper : Str → Str)
    (r : CveRecord) : List CatalogueRow :=
  if r.id = [] then
    []
  else
    (r.cpeMatches.foldl (r.addMatch upper) ⟨[], []⟩).rows

/- Parse NVD records into catalogue rows. -/
def nvdToCatalogue
    [Unicode]
    (upper : Str → Str)
    (vulnerabilities : List CveRecord) : List CatalogueRow :=
  vulnerabilities.flatMap (CveRecord.rows upper)

---- Table And Scan

/- A row of `cve_catalogue`. -/
structure DbRow extends CatalogueRow where
  kev : Bool
  exploit : Bool
  source : Str
  updatedAt : Str
deriving DecidableEq, Repr

/- The rows of one CVE and product. -/
def CatalogueRow.sameKey (r s : CatalogueRow) : Bool :=
  s.cve = r.cve ∧ s.product = r.product

/- `INSERT … ON CONFLICT(cve,product) DO UPDATE SET …`. -/
def upsertRow
    (source now : Str)
    (table : List DbRow)
    (r : CatalogueRow) : List DbRow :=
  if table.any (fun s => r.sameKey s.toCatalogueRow) then
    table.map fun s =>
      if r.sameKey s.toCatalogueRow then
        { s with toCatalogueRow := r, updatedAt := now }
      else s
  else
    table ++ [⟨r, false, false, source, now⟩]

/- Merge rows into the table. -/
def upsertCatalogue
    (source now : Str)
    (table : List DbRow)
    (rows : List CatalogueRow) : List DbRow :=
  rows.foldl (upsertRow source now) table

/- An entry of the scanner's catalogue. -/
structure Entry where
  cve : Str
  cvss : Rat
  severity : Str
  bounds : Bounds
  fixed : Option Str
  summary : Str
  kev : Bool
  exploit : Bool
deriving DecidableEq, Repr

def DbRow.entry (r : DbRow) : Entry :=
  { cve := r.cve
    cvss := r.cvss
    severity := r.severity
    bounds := r.bounds
    fixed := r.fixed
    summary := r.summary
    kev := r.kev
    exploit := r.exploit }

/- The synced catalogue in the scanner's shape. -/
def loadDbCatalogue
    (table : List DbRow) : List (Str × List Entry) :=
  collect (table.map fun r => (r.product, r.entry))

/- An installed software; a key that is absent is `none`. -/
structure Software where
  product : Option Str
  version : Option Str

/- What the scan reports. -/
structure Finding where
  cve : Str
  product : Str
  version : Str
  severity : Str
  cvss : Rat
  fixedIn : Option Str
  summary : Str
  kev : Bool
  exploit : Bool
deriving DecidableEq, Repr

def Entry.finding
    (e : Entry)
    (product version : Str) : Finding :=
  { cve := e.cve
    product := product
    version := version
    severity := e.severity
    cvss := e.cvss
    fixedIn := e.fixed
    summary := e.summary
    kev := e.kev
    exploit := e.exploit }

/- The findings among the entries of one product; `none`
where a comparison raises. -/
def scanEntries
    (product version : Str) :
    List Entry → Option (List Finding)
| [] => some []
| e :: rest =>
    match e.bounds.covers version with
    | none => none
    | some hit =>
        (scanEntries product version rest).map fun found =>
          if hit then e.finding product version :: found
          else found

def Software.name [Unicode] (item : Software) : Str :=
  Unicode.lower (strip (item.product.getD []))

def Software.installed (item : Software) : Str :=
  strip (item.version.getD [])

/- The catalogues of a scan, concatenated by product. -/
def mergeCatalogue
    (builtIn extra : List (Str × List Entry)) :
    List (Str × List Entry) :=
  extra.foldl
    (fun cat p =>
      setEntry p.1 ((lookup p.1 cat).getD [] ++ p.2) cat)
    builtIn

def scanItems
    [Unicode]
    (cat : List (Str × List Entry)) :
    List Software → Option (List Finding)
| [] => some []
| item :: rest =>
    if item.name = [] ∨ item.installed = [] then
      scanItems cat rest
    else
      match scanEntries item.name item.installed
          ((lookup item.name cat).getD []) with
      | none => none
      | some found => (scanItems cat rest).map (found ++ ·)

/- Match installed software against the built-in catalogue
and an extra one. -/
def scanSoftware
    [Unicode]
    (builtIn : List (Str × List Entry))
    (software : List Software)
    (extra : List (Str × List Entry)) :
    Option (List Finding) :=
  scanItems (mergeCatalogue builtIn extra) software

end ThreatOrbit.Vulns
