import ThreatOrbit.Lib.Lists
import ThreatOrbit.Lib.Python

/-
  MISP events, written and read.

  An export writes one attribute per indicator; a parse
  reads the attributes of an event and of its objects back.
  The parse collects the attributes of the objects in the
  list of the payload itself, and takes the last part of a
  composite value for hashes only.
-/

---- Events

namespace ThreatOrbit.Intel

open Lib

/- The columns of an indicator that an event is made of. -/
structure Indicator where
  type : Option Str
  value : Option Str
  severity : Option Str
  threatType : Option Str
deriving DecidableEq, Repr

structure MispAttribute where
  type : Option Str
  category : Option Str
  toIds : Bool
  value : Option Str
  comment : Option Str
deriving DecidableEq, Repr

/- A list of attributes; an element that is no mapping is
`none`. -/
abbrev Attributes := List (Option MispAttribute)

structure MispObject where
  attributes : Option Attributes
deriving DecidableEq, Repr

/- An event, without its random ids and its times. -/
structure MispEvent where
  info : Str
  tag : List Str
  attributes : Option Attributes
  objects : Option (List MispObject)
deriving DecidableEq, Repr

/- The attribute type and category of an indicator type. -/
def toMisp : List (Str × Str × Str) :=
  [(lit "ip", lit "ip-dst", lit "Network activity"),
    (lit "domain", lit "domain", lit "Network activity"),
    (lit "url", lit "url", lit "Network activity"),
    (lit "email", lit "email-src", lit "Payload delivery"),
    (lit "cve", lit "vulnerability",
      lit "External analysis")]

/- The indicator type of an attribute type. -/
def fromMisp : List (Str × Str) :=
  [(lit "ip-dst", lit "ip"), (lit "ip-src", lit "ip"),
    (lit "domain", lit "domain"),
    (lit "hostname", lit "domain"),
    (lit "domain|ip", lit "domain"), (lit "url", lit "url"),
    (lit "uri", lit "url"), (lit "email-src", lit "email"),
    (lit "email-dst", lit "email"),
    (lit "email", lit "email"), (lit "md5", lit "hash"),
    (lit "sha1", lit "hash"), (lit "sha256", lit "hash"),
    (lit "filename|md5", lit "hash"),
    (lit "filename|sha256", lit "hash"),
    (lit "vulnerability", lit "cve")]

def tlpLevels : List Str :=
  [lit "white", lit "green", lit "amber", lit "red"]

def hexDigits : Str :=
  lit "0123456789abcdefABCDEF"

/- The attribute type of a hash, by its number of digits. -/
def hashType (value : Str) : Str :=
  match (value.filter hexDigits.contains).length with
  | 32 => lit "md5"
  | 40 => lit "sha1"
  | 64 => lit "sha256"
  | _ => lit "sha256"

/- The type and category an indicator is exported with. -/
def exportType
    (type value : Str) : Option (Str × Str) :=
  if type = lit "hash" then
    some (hashType value, lit "Payload delivery")
  else
    lookup type toMisp

/- The attribute of an indicator, if it has one. -/
def exportAttribute [Unicode]
    (ioc : Indicator) : Option MispAttribute :=
  match orStr ioc.value [] with
  | [] => none
  | value =>
      (exportType (Unicode.lower (ioc.type.getD []))
          value).map fun mapped =>
        { type := some mapped.1
          category := some mapped.2
          toIds :=
            [some (lit "critical"),
              some (lit "high")].contains ioc.severity
          value := some value
          comment := some (ioc.threatType.getD []) }

/- Serialize indicators into an event. -/
def toMispEvent [Unicode]
    (iocs : List Indicator)
    (info tlp : Str)
    (tags : List Str) : MispEvent :=
  let tlp := if tlpLevels.contains tlp then tlp else lit "amber"
  { info := orStr (some info) (lit "ThreatOrbit export")
    tag := (lit "tlp:" ++ tlp) :: tags
    attributes :=
      some ((iocs.filterMap exportAttribute).map some)
    objects := none }

/- What a parse returns for an attribute. -/
inductive MispItem where
| imported (type value comment : Str) (toIds : Bool)
| skipped (value reason : Str)
deriving DecidableEq, Repr

/- The value of an attribute, and the last part of it where
a hash has several. -/
def attributeValue
    (iocType : Option Str)
    (value : Option Str) : Option Str :=
  value.map fun value =>
    if value ≠ [] ∧ value.contains (cp '|') ∧
        iocType = some (lit "hash") then
      (splitOn (cp '|') value).getLastD []
    else value

/- The item of an attribute, if it has one. -/
def parseAttribute [Unicode]
    (a : Option MispAttribute) : Option MispItem :=
  match a with
  | none => none
  | some a =>
      let mtype := Unicode.lower (a.type.getD [])
      let iocType := lookup mtype fromMisp
      match orStr (attributeValue iocType a.value) [] with
      | [] => none
      | value =>
          match iocType with
          | none =>
              some (.skipped value
                (lit "unmapped type " ++ mtype))
          | some iocType =>
              some (.imported iocType (strip value)
                (a.comment.getD []) a.toIds)

/- The attributes of the objects of an event. -/
def MispEvent.nested (event : MispEvent) : Attributes :=
  (event.objects.getD []).flatMap fun obj =>
    obj.attributes.getD []

/- Extract the indicators of an event, with the event as the
call leaves it: `attrs += …` extends the list of the event
itself, unless that is missing or empty. -/
def parseMispEvent [Unicode]
    (event : MispEvent) : List MispItem × MispEvent :=
  let own := event.attributes.getD []
  let attrs := own ++ event.nested
  (attrs.filterMap parseAttribute,
    if own = [] then event
    else { event with attributes := some attrs })

---- What Is Asked Of The Exchange

section

/- The type and value of an item that is imported. -/
def MispItem.pair : MispItem → Option (Str × Str)
| .imported type value _ _ => some (type, value)
| .skipped _ _ => none

/- The type and value of an indicator. -/
def Indicator.pair (ioc : Indicator) : Str × Str :=
  (ioc.type.getD [], ioc.value.getD [])

def exchangedTypes : List Str :=
  [lit "ip", lit "domain", lit "url", lit "email",
    lit "hash", lit "cve"]

/- An indicator of an exchanged type, with a value that is
trimmed and not blank. -/
structure Indicator.Exchangeable (ioc : Indicator) : Prop where
  typed : ∃ t ∈ exchangedTypes, ioc.type = some t
  valued :
    ∃ v, ioc.value = some v ∧ v ≠ [] ∧ strip v = v

variable [Unicode]

/- The export of the indicators is parsed back to them. -/
def Exchanged
    (iocs : List Indicator)
    (info tlp : Str)
    (tags : List Str) : Prop :=
  (parseMispEvent (toMispEvent iocs info tlp tags)).1.filterMap
      MispItem.pair =
    iocs.map Indicator.pair

/- The attribute types whose values have two halves. -/
def compositeTypes : List Str :=
  [lit "domain|ip", lit "filename|md5",
    lit "filename|sha256"]

/- No value that is imported from a composite attribute has
two halves. -/
def SingleValues (event : MispEvent) : Prop :=
  ∀ a, some a ∈ event.attributes.getD [] ++ event.nested →
    Unicode.lower (a.type.getD []) ∈ compositeTypes →
    ∀ type value comment toIds,
      parseAttribute (some a) =
        some (.imported type value comment toIds) →
      cp '|' ∉ value

/- A second parse returns the same list, and the payload is
left unchanged. -/
def ParsedTwice (event : MispEvent) : Prop :=
  (parseMispEvent (parseMispEvent event).2).1 =
      (parseMispEvent event).1 ∧
    (parseMispEvent event).2 = event

end

---- Exports

section

/- The last part of a text has no separator. -/
theorem not_mem_lastPart
    (c : Nat) (s : Str) :
    c ∉ (splitOn c s).getLastD [] := by
  cases hParts : splitOn c s with
  | nil => exact absurd hParts (splitOn_ne_nil c s)
  | cons part rest =>
      rw [List.getLastD_cons]
      have hMem : rest.getLastD part ∈ splitOn c s := by
        rw [hParts]
        exact List.getLastD_mem_cons
      exact not_mem_of_splitOn hMem

variable [Unicode]

theorem lower_exchanged
    {t : Str}
    (hType : t ∈ exchangedTypes) :
    Unicode.lower t = t := by
  have hAll :
      ∀ t ∈ exchangedTypes, (∀ c ∈ t, c < 128) ∧
        asciiLowerStr t = t := by
    decide
  rcases hAll t hType with ⟨hAscii, hLower⟩
  rw [Unicode.lower_ascii t hAscii, hLower]

/- An attribute type that is exported is read as the type
it was exported for. -/
theorem exportType_fromMisp
    {t : Str}
    (hType : t ∈ exchangedTypes) (value : Str) :
    ∃ mapped, exportType t value = some mapped ∧
      Unicode.lower mapped.1 = mapped.1 ∧
      lookup mapped.1 fromMisp = some t := by
  by_cases hHash : t = lit "hash"
  · refine ⟨_, if_pos hHash, ?_⟩
    have hAll :
        ∀ m ∈ [lit "md5", lit "sha1", lit "sha256"],
          (∀ c ∈ m, c < 128) ∧ asciiLowerStr m = m ∧
            lookup m fromMisp = some (lit "hash") := by
      decide
    have hMem :
        hashType value ∈ [lit "md5", lit "sha1",
          lit "sha256"] := by
      unfold hashType
      split <;> simp
    rcases hAll _ hMem with ⟨hAscii, hLower, hRead⟩
    rw [Unicode.lower_ascii _ hAscii, hHash]
    exact ⟨hLower, hRead⟩
  · have hAll :
        ∀ t ∈ exchangedTypes, t ≠ lit "hash" →
          ∃ mapped, lookup t toMisp = some mapped ∧
            (∀ c ∈ mapped.1, c < 128) ∧
            asciiLowerStr mapped.1 = mapped.1 ∧
            lookup mapped.1 fromMisp = some t := by
      intro t hT hNot
      simp only [exchangedTypes, List.mem_cons,
        List.not_mem_nil, or_false] at hT
      rcases hT with rfl | rfl | rfl | rfl | rfl | rfl
      · exact ⟨_, rfl, by decide, by decide, by decide⟩
      · exact ⟨_, rfl, by decide, by decide, by decide⟩
      · exact ⟨_, rfl, by decide, by decide, by decide⟩
      · exact ⟨_, rfl, by decide, by decide, by decide⟩
      · exact absurd rfl hNot
      · exact ⟨_, rfl, by decide, by decide, by decide⟩
    rcases hAll t hType hHash with
      ⟨mapped, hMapped, hAscii, hLower, hRead⟩
    refine ⟨mapped, ?_, ?_, hRead⟩
    · unfold exportType
      rw [if_neg hHash, hMapped]
    · rw [Unicode.lower_ascii _ hAscii, hLower]

/- What is read back of an indicator: the indicator, unless
it is a hash with several parts. -/
theorem parsed_export
    {ioc : Indicator} {t v : Str}
    (hType : ioc.type = some t) (hMem : t ∈ exchangedTypes)
    (hValue : ioc.value = some v) (hSome : v ≠ [])
    (hTrimmed : strip v = v) :
    (((exportAttribute ioc).bind
        fun a => parseAttribute (some a)).bind
          MispItem.pair = some ioc.pair) ↔
      (t = lit "hash" → cp '|' ∉ v) := by
  rcases exportType_fromMisp hMem v with
    ⟨mapped, hMapped, hLower, hRead⟩
  have hOr : ∀ s : Str, s ≠ [] → orStr (some s) [] = s := by
    intro s hs
    cases s with
    | nil => exact absurd rfl hs
    | cons c rest => rfl
  have hExport :
      exportAttribute ioc = some
        { type := some mapped.1
          category := some mapped.2
          toIds :=
            [some (lit "critical"),
              some (lit "high")].contains ioc.severity
          value := some v
          comment := some (ioc.threatType.getD []) } := by
    unfold exportAttribute
    rw [hValue, hOr v hSome, hType, Option.getD_some,
      lower_exchanged hMem]
    cases v with
    | nil => exact absurd rfl hSome
    | cons c rest =>
        dsimp only
        rw [hMapped]
        rfl
  have hPair : ioc.pair = (t, v) := by
    unfold Indicator.pair
    rw [hType, hValue]
    rfl
  rw [hExport, hPair, Option.bind_some]
  unfold parseAttribute attributeValue
  simp only [Option.getD_some, hLower, hRead, Option.map_some]
  by_cases hSplit : cp '|' ∈ v ∧ t = lit "hash"
  · rw [if_pos ⟨hSome, List.contains_iff_mem.mpr hSplit.1,
      congrArg some hSplit.2⟩]
    have hLast := not_mem_lastPart (cp '|') v
    constructor
    · intro hBack
      exfalso
      cases hPart : (splitOn (cp '|') v).getLastD [] with
      | nil =>
          rw [hPart] at hBack
          cases hBack
      | cons c rest =>
          rw [hPart] at hBack hLast
          simp only [orStr, Option.bind_some, MispItem.pair,
            Option.some.injEq, Prod.mk.injEq] at hBack
          have hIn := hSplit.1
          rw [← hBack.2] at hIn
          exact hLast (strip_subset _ hIn)
    · intro hNone
      exact absurd hSplit.1 (hNone hSplit.2)
  · have hWhole :
        ¬ (v ≠ [] ∧ v.contains (cp '|') = true ∧
          some t = some (lit "hash")) := by
      rintro ⟨_, hIn, hHash⟩
      cases hHash
      exact hSplit ⟨List.contains_iff_mem.mp hIn, rfl⟩
    rw [if_neg hWhole, hOr v hSome]
    cases v with
    | nil => exact absurd rfl hSome
    | cons c rest =>
        simp only [Option.bind_some, MispItem.pair, hTrimmed,
          true_iff]
        exact fun hHash hIn => hSplit ⟨hIn, hHash⟩

end

---- The Exchange

section

variable [Unicode]

theorem exchanged_iff
    {iocs : List Indicator}
    (hRows : ∀ ioc ∈ iocs, ioc.Exchangeable) (info tlp : Str)
    (tags : List Str) :
    Exchanged iocs info tlp tags ↔
      ∀ ioc ∈ iocs, ioc.type = some (lit "hash") →
        cp '|' ∉ ioc.value.getD [] := by
  have hBack :
      (parseMispEvent (toMispEvent iocs info tlp
        tags)).1.filterMap MispItem.pair =
      iocs.filterMap fun ioc =>
        ((exportAttribute ioc).bind
          fun a => parseAttribute (some a)).bind
            MispItem.pair := by
    unfold parseMispEvent toMispEvent MispEvent.nested
    simp only [Option.getD_some, Option.getD_none,
      List.flatMap_nil, List.append_nil, List.filterMap_map,
      List.filterMap_filterMap]
    rfl
  unfold Exchanged
  rw [hBack, filterMap_eq_map_iff]
  have hEach :
      ∀ ioc ∈ iocs,
        (((exportAttribute ioc).bind
          fun a => parseAttribute (some a)).bind
            MispItem.pair = some ioc.pair ↔
          (ioc.type = some (lit "hash") →
            cp '|' ∉ ioc.value.getD [])) := by
    intro ioc hIoc
    rcases hRows ioc hIoc with
      ⟨⟨t, hMem, hType⟩, v, hValue, hSome, hTrimmed⟩
    rw [parsed_export hType hMem hValue hSome hTrimmed, hType,
      hValue, Option.some.injEq, Option.getD_some]
  constructor
  · exact fun h ioc hIoc => (hEach ioc hIoc).mp (h ioc hIoc)
  · exact fun h ioc hIoc => (hEach ioc hIoc).mpr (h ioc hIoc)

/- A composite attribute is imported with its whole value,
for a domain, or with the last part of it, for a hash. -/
theorem singleValues_iff (event : MispEvent) :
    SingleValues event ↔
      ∀ a, some a ∈ event.attributes.getD [] ++ event.nested →
        Unicode.lower (a.type.getD []) = lit "domain|ip" →
        cp '|' ∉ strip (a.value.getD []) := by
  constructor
  · intro hSingle a ha hType
    have hComposite :
        Unicode.lower (a.type.getD []) ∈ compositeTypes := by
      rw [hType]
      exact List.mem_cons_self
    cases hValue : a.value.getD [] with
    | nil => simp [strip, stripBy]
    | cons c rest =>
        have hSome : a.value = some (c :: rest) := by
          cases hIs : a.value with
          | none =>
              rw [hIs] at hValue
              cases hValue
          | some v =>
              rw [hIs, Option.getD_some] at hValue
              rw [hValue]
        refine hSingle a ha hComposite (lit "domain") _
          (a.comment.getD []) a.toIds ?_
        unfold parseAttribute attributeValue
        have hRead :
            lookup (lit "domain|ip") fromMisp =
              some (lit "domain") := by
          decide
        have hNot :
            ¬ (c :: rest ≠ [] ∧
              (c :: rest).contains (cp '|') = true ∧
              some (lit "domain") = some (lit "hash")) := by
          rintro ⟨_, _, hHash⟩
          exact absurd hHash (by decide)
        simp only [hType, hRead, hSome, Option.map_some,
          if_neg hNot, orStr]
  · intro hWhole a ha hComposite type value comment toIds
      hParsed
    unfold parseAttribute attributeValue at hParsed
    dsimp only at hParsed
    simp only [compositeTypes, List.mem_cons, List.not_mem_nil,
      or_false] at hComposite
    -- the value that is imported of a hash is its last part
    have hHash :
        ∀ mtype, lookup mtype fromMisp = some (lit "hash") →
          Unicode.lower (a.type.getD []) = mtype →
          cp '|' ∉ value := by
      intro mtype hRead hType
      rw [hType, hRead] at hParsed
      cases hValue : a.value with
      | none =>
          rw [hValue] at hParsed
          cases hParsed
      | some v =>
          rw [hValue] at hParsed
          rw [Option.map_some] at hParsed
          by_cases hSplit :
              v ≠ [] ∧ v.contains (cp '|') = true ∧
                some (lit "hash") = some (lit "hash")
          · rw [if_pos hSplit] at hParsed
            have hLast := not_mem_lastPart (cp '|') v
            cases hPart : (splitOn (cp '|') v).getLastD [] with
            | nil =>
                rw [hPart] at hParsed
                cases hParsed
            | cons c rest =>
                rw [hPart] at hParsed hLast
                simp only [orStr] at hParsed
                cases hParsed
                exact fun h => hLast (strip_subset _ h)
          · rw [if_neg hSplit] at hParsed
            cases v with
            | nil => cases hParsed
            | cons c rest =>
                simp only [orStr] at hParsed
                cases hParsed
                intro hIn
                refine hSplit ⟨List.cons_ne_nil _ _, ?_, rfl⟩
                exact List.contains_iff_mem.mpr
                  (strip_subset _ hIn)
    rcases hComposite with hDomain | hMd5 | hSha
    · have hNone := hWhole a ha hDomain
      have hRead :
          lookup (lit "domain|ip") fromMisp =
            some (lit "domain") := by
        decide
      rw [hDomain, hRead] at hParsed
      cases hValue : a.value with
      | none =>
          rw [hValue] at hParsed
          cases hParsed
      | some v =>
          rw [hValue, Option.getD_some] at hNone
          rw [hValue] at hParsed
          have hNot :
              ¬ (v ≠ [] ∧ v.contains (cp '|') = true ∧
                some (lit "domain") = some (lit "hash")) := by
            rintro ⟨_, _, hHash⟩
            exact absurd hHash (by decide)
          simp only [Option.map_some, if_neg hNot] at hParsed
          cases v with
          | nil => cases hParsed
          | cons c rest =>
              simp only [orStr] at hParsed
              cases hParsed
              exact hNone
    · exact hHash _ (by decide) hMd5
    · exact hHash _ (by decide) hSha

/- A parse changes an event that has attributes of its own
and nested ones. -/
theorem parsedTwice_iff (event : MispEvent) :
    ParsedTwice event ↔
      event.attributes.getD [] = [] ∨ event.nested = [] := by
  unfold ParsedTwice
  by_cases hOwn : event.attributes.getD [] = []
  · have hSame : (parseMispEvent event).2 = event := by
      unfold parseMispEvent
      dsimp only
      rw [if_pos hOwn]
    rw [hSame]
    simp [hOwn]
  · have hAfter :
        (parseMispEvent event).2 =
          { event with
            attributes :=
              some (event.attributes.getD [] ++
                event.nested) } := by
      unfold parseMispEvent
      dsimp only
      rw [if_neg hOwn]
    constructor
    · rintro ⟨_, hSame⟩
      rw [hAfter] at hSame
      have hList := congrArg MispEvent.attributes hSame
      dsimp only at hList
      right
      have hLength := congrArg
        (fun l : Option Attributes => (l.getD []).length) hList
      rw [Option.getD_some, List.length_append] at hLength
      exact List.length_eq_zero_iff.mp (by omega)
    · rintro (hNone | hNone)
      · exact absurd hNone hOwn
      · have hSame : (parseMispEvent event).2 = event := by
          rw [hAfter, hNone, List.append_nil]
          rcases event with ⟨info, tag, attributes, objects⟩
          cases attributes with
          | none => exact absurd rfl hOwn
          | some own => rfl
        rw [hSame]
        exact ⟨rfl, rfl⟩

/- The exchange does what is asked of it where no hash has a
separator in it, no domain-and-address attribute is
imported, and an event has attributes of its own or nested
ones, not both; and only there. -/
theorem misp_exchange_iff
    {iocs : List Indicator}
    (hRows : ∀ ioc ∈ iocs, ioc.Exchangeable)
    (info tlp : Str)
    (tags : List Str)
    (event : MispEvent) :
    (Exchanged iocs info tlp tags ↔
      ∀ ioc ∈ iocs, ioc.type = some (lit "hash") →
        cp '|' ∉ ioc.value.getD []) ∧
    (SingleValues event ↔
      ∀ a, some a ∈ event.attributes.getD [] ++ event.nested →
        Unicode.lower (a.type.getD []) = lit "domain|ip" →
        cp '|' ∉ strip (a.value.getD [])) ∧
    (ParsedTwice event ↔
      event.attributes.getD [] = [] ∨ event.nested = []) :=
  ⟨exchanged_iff hRows info tlp tags, singleValues_iff event,
    parsedTwice_iff event⟩

end

---- Single Events

local instance mispUnicode : Unicode := asciiTables

/- A domain, and an event with it in an attribute of its own
and its address in an object. -/
def exchangedDomain : Indicator :=
  ⟨some (lit "domain"), some (lit "evil.example"),
    some (lit "high"), none⟩

def domainAttribute (type value : String) : MispAttribute :=
  ⟨some (lit type), none, true, some (lit value), none⟩

def nestedEvent : MispEvent where
  info := lit "event"
  tag := []
  attributes :=
    some [some (domainAttribute "domain|ip"
      "evil.example|203.0.113.9")]
  objects :=
    some [⟨some [some (domainAttribute "ip-dst"
      "203.0.113.9")]⟩]

/- A domain is exchanged, and an event without attributes
parses to single values, twice the same. -/
theorem domain_exchanged :
    Exchanged [exchangedDomain] (lit "event") (lit "amber")
      [] ∧
    SingleValues ⟨lit "event", [], none, none⟩ ∧
    ParsedTwice ⟨lit "event", [], none, none⟩ := by
  have hRows :
      ∀ ioc ∈ [exchangedDomain], ioc.Exchangeable := by
    intro ioc hIoc
    rw [List.mem_singleton.mp hIoc]
    exact ⟨⟨_, by decide, rfl⟩, _, rfl, by decide, by decide⟩
  rcases misp_exchange_iff hRows (lit "event") (lit "amber") []
    ⟨lit "event", [], none, none⟩ with
    ⟨hExchanged, hSingle, hTwice⟩
  refine ⟨hExchanged.mpr ?_, hSingle.mpr ?_,
    hTwice.mpr (.inl rfl)⟩
  · intro ioc hIoc hHash
    rw [List.mem_singleton.mp hIoc] at hHash
    exact absurd hHash (by decide)
  · intro a ha
    cases ha

/- The domain is imported with its address, and a second
parse returns the address twice. -/
theorem nested_event_fails :
    ¬ SingleValues nestedEvent ∧ ¬ ParsedTwice nestedEvent := by
  constructor
  · intro hSingle
    have hNone := hSingle
      (domainAttribute "domain|ip" "evil.example|203.0.113.9")
      (by decide) (by decide) (lit "domain")
      (lit "evil.example|203.0.113.9") [] true (by decide)
    exact absurd hNone (by decide)
  · rintro ⟨hTwice, _⟩
    revert hTwice
    decide

end ThreatOrbit.Intel
