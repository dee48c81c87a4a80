import ThreatOrbit.Lib.Captures
import ThreatOrbit.Intel.Dialect
import ThreatOrbit.Threat.Store

/-
  The indicators of the feed service, written as a bundle of
  STIX objects and read by the importers of the dashboard.

  The bundle has one object path for a type, and writes a
  value between quotes as it is.
-/

---- The Bundle

namespace ThreatOrbit.Threat

open Lib Intel

/- The time, the configured identity, and what the bundle uses
of the standard library: `uuid4 n` is the n-th that is drawn. -/
structure BundleTools where
  now : Str
  identityName : Str
  identityClass : Str
  uuid5 : Str → Str
  uuid4 : Nat → Str
  upper : Str → Str

/- The identity that a bundle is from. -/
structure StixIdentity where
  id : Str
  created : Str
  modified : Str
  name : Str
  identityClass : Str
deriving DecidableEq, Repr

inductive BundleObject where
| identity (obj : StixIdentity)
| indicator (obj : StixIndicator) (createdByRef : Str)
deriving DecidableEq, Repr

structure Bundle where
  id : Str
  objects : List BundleObject
deriving DecidableEq, Repr

def patternForIoc (ioc : EnrichedIoc) : Option Str :=
  if ioc.iocType = lit "ip" then
    some (patternOf (lit "ipv4-addr:value ") ioc.value)
  else if ioc.iocType = lit "domain" then
    some (patternOf (lit "domain-name:value ") ioc.value)
  else if ioc.iocType = lit "url" then
    some (patternOf (lit "url:value ") ioc.value)
  else if ioc.iocType = lit "hash" then
    some (patternOf (lit "file:hashes.'SHA-256' ") ioc.value)
  else
    none

def identityId (tools : BundleTools) : Str :=
  lit "identity--" ++ tools.uuid5 tools.identityName

def clampedConfidence (confidence : Int) : Int :=
  max 0 (min 100 confidence)

/- The indicator object of the n-th IOC. -/
def indicatorFor
    (tools : BundleTools)
    (n : Nat)
    (i : EnrichedIoc)
    (pattern : Str) : StixIndicator where
  id := lit "indicator--" ++ tools.uuid4 n
  created := tools.now
  modified := tools.now
  name := tools.upper i.iocType ++ lit " " ++ i.value
  description :=
    orStr i.description (lit "IOC from " ++ i.source)
  indicatorTypes := [lit "malicious-activity"]
  pattern := pattern
  validFrom := tools.now
  confidence := clampedConfidence i.confidence
  labels :=
    (firstsBy id [] (lit "threatorbit" :: i.tags)).take 20

/- The objects of the IOCs from the n-th on; one without a
pattern is passed over, after its id is drawn. -/
def indicatorObjects
    (tools : BundleTools) :
    Nat → List EnrichedIoc → List BundleObject
| _, [] => []
| n, i :: rest =>
    match patternForIoc i with
    | none => indicatorObjects tools (n + 1) rest
    | some pattern =>
        .indicator (indicatorFor tools n i pattern)
            (identityId tools) ::
          indicatorObjects tools (n + 1) rest

def convertToStixBundle
    (tools : BundleTools)
    (iocs : List EnrichedIoc) : Bundle where
  id := lit "bundle--" ++ tools.uuid4 iocs.length
  objects :=
    .identity
        { id := identityId tools
          created := tools.now
          modified := tools.now
          name := tools.identityName
          identityClass := tools.identityClass } ::
      indicatorObjects tools 0 iocs

def BundleObject.toIndicator : BundleObject → Option StixIndicator
| .identity _ => none
| .indicator obj _ => some obj

def Bundle.indicators (bundle : Bundle) : List StixIndicator :=
  bundle.objects.filterMap BundleObject.toIndicator

---- Values Without Quotes

open Lib Intel Regex

/- What is read as a value has no quote. -/
def NoQuote (v : Str) : Prop :=
  ∀ c ∈ v, notQuote c = true

theorem holds_valueRe : Moves (Holds 2 NoQuote) valueRe := by
  have hStar (p : Nat → Bool) :
      Moves (Holds 2 NoQuote) (.star true (.cls p)) :=
    moves_star holds_refl holds_trans true (holds_cls p)
  have hTaken :
      Moves (Spans notQuote)
        (.seq (.cls notQuote) (.star true (.cls notQuote))) :=
    moves_seq spans_trans spans_cls
      (moves_star spans_refl spans_trans true spans_cls)
  have hGroup :
      Moves (Holds 2 NoQuote)
        (.group 2 (.seq (.cls notQuote)
          (.star true (.cls notQuote)))) :=
    holds_group 2
      (moves_seq holds_trans (holds_cls _) (hStar _))
      (fun _ => upto_of_spans hTaken)
  unfold valueRe
  refine moves_seq holds_trans (hStar _) ?_
  refine moves_seq holds_trans (holds_cls _) ?_
  refine moves_seq holds_trans (hStar _) ?_
  refine moves_seq holds_trans (holds_cls _) ?_
  exact moves_seq holds_trans hGroup (holds_cls _)

theorem holds_patternRe :
    Moves (Holds 2 NoQuote) patternRe := by
  have hKind : Moves (Holds 2 NoQuote) kindRe := by
    unfold kindRe hashKind
    refine moves_alt (holds_wordI _) ?_
    refine moves_alt (holds_wordI _) ?_
    refine moves_alt (holds_wordI _) ?_
    refine moves_alt (holds_wordI _) ?_
    refine moves_alt (holds_wordI _) ?_
    exact moves_seq holds_trans (holds_wordI _)
      (moves_star holds_refl holds_trans true (holds_cls _))
  exact moves_seq holds_trans
    (holds_group 1 hKind (fun hIs => absurd hIs (by decide)))
    holds_valueRe

theorem holds_feedPatternRe :
    Moves (Holds 2 NoQuote) feedPatternRe := by
  have hKind : Moves (Holds 2 NoQuote) feedKindRe := by
    unfold feedKindRe
    refine moves_alt (holds_word _) ?_
    refine moves_alt (holds_word _) ?_
    refine moves_alt (holds_word _) ?_
    refine moves_alt (holds_word _) ?_
    refine moves_alt (holds_word _) ?_
    exact moves_seq holds_trans (holds_word _)
      (moves_star holds_refl holds_trans true (holds_cls _))
  exact moves_seq holds_trans
    (holds_group 1 hKind (fun hIs => absurd hIs (by decide)))
    holds_valueRe

/- The value of a match of either pattern. -/
theorem noQuote_group
    {r : Regex} {s : Str} {m : Match}
    (hR : Moves (Holds 2 NoQuote) r)
    (hFound : r.search s = some m) :
    NoQuote ((m.group 2).getD []) := by
  cases hGroup : m.group 2 with
  | none =>
      intro c hC
      cases hC
  | some v => exact holds_of_search hR hFound hGroup

theorem noQuote_of_parse [Unicode]
    {pattern t v : Str}
    (hRead : parseIndicatorPattern pattern = some (t, v)) :
    NoQuote v := by
  unfold parseIndicatorPattern at hRead
  split at hRead
  · cases hRead
  · rename_i m hFound
    rcases Option.map_eq_some_iff.mp hRead with ⟨u, _, hPair⟩
    rw [← (Prod.mk.inj hPair).2]
    exact noQuote_group holds_patternRe hFound

theorem noQuote_of_feedParse
    {pattern t v : Str}
    (hRead : feedParse pattern = some (t, v)) :
    NoQuote v := by
  rcases Option.bind_eq_some_iff.mp hRead with
    ⟨m, hFound, hRead⟩
  rcases Option.map_eq_some_iff.mp hRead with ⟨u, _, hPair⟩
  rw [← (Prod.mk.inj hPair).2]
  exact noQuote_group holds_feedPatternRe hFound

---- Known Objects

/- An object path that both importers take for a type: what
they read of it, and what they pass over. -/
structure KnownPath (t kind object : Str) : Prop where
  run :
    ∀ after, ∃ more,
      kindRe.run
          ⟨[cp '['], kind ++ (object ++ cp '=' :: after), []⟩ =
        ⟨kind.reverse ++ [cp '['], object ++ cp '=' :: after,
          []⟩ :: more
  low :
    ∀ after, feedKindRe.run ⟨[cp '['], kind ++ after, []⟩ ≠ []
  ascii : ∀ c ∈ kind, c < 128
  push : kindType (asciiLowerStr kind) = some t
  feed : feedKindType kind = some t
  object : ∀ c ∈ object, notEquals c = true

theorem knownPath_word
    (w : String) {t : Str}
    (hKind :
      lit w ∈ [lit "ipv4-addr", lit "ipv6-addr",
        lit "domain-name", lit "url", lit "email-addr"])
    (hMem :
      w ∈ ["ipv4-addr", "ipv6-addr", "domain-name", "url",
        "email-addr", "file:hashes"])
    (hPush : kindType (asciiLowerStr (lit w)) = some t)
    (hFeed : feedKindType (lit w) = some t) :
    KnownPath t (lit w) (lit ":value ") where
  run := run_kindRe_word hKind _
  low := fun after => feedKindRe_ne_nil hMem _ after
  ascii := by
    generalize lit w = kind at hKind
    revert kind
    decide
  push := hPush
  feed := hFeed
  object := by decide

theorem knownPath_hash :
    KnownPath (lit "hash")
      (lit "file:hashes" ++ lit ".'SHA-256' ") [] where
  run := run_kindRe_hash (by decide)
  low := by
    intro after
    rw [List.append_assoc]
    exact feedKindRe_ne_nil (by decide) _ _
  ascii := by decide
  push := by decide
  feed := by decide
  object := by simp

theorem takeWhile_notQuote
    {value : Str}
    (hPlain : NoQuote value) :
    value.takeWhile notQuote = value :=
  List.takeWhile_eq_self_iff.mpr hPlain

/- Both importers read the value back exactly if it has no
quote. -/
theorem feedParse_known_iff
    {t kind object value : Str}
    (hPath : KnownPath t kind object) (hSome : value ≠ []) :
    feedParse (patternOf (kind ++ object) value) =
        some (t, value) ↔
      NoQuote value := by
  constructor
  · exact noQuote_of_feedParse
  · intro hPlain
    have hText := takeWhile_notQuote hPlain
    have hRead :=
      @feedParse_written kind object t value hPath.run
        hPath.low hPath.feed hPath.object (by rwa [hText])
    rwa [hText] at hRead

theorem parse_known_iff [Unicode]
    {t kind object value : Str}
    (hPath : KnownPath t kind object) (hSome : value ≠ []) :
    parseIndicatorPattern (patternOf (kind ++ object) value) =
        some (t, value) ↔
      NoQuote value := by
  constructor
  · exact noQuote_of_parse
  · intro hPlain
    have hText := takeWhile_notQuote hPlain
    have hRead :=
      @parse_written _ kind object t value hPath.run
        hPath.ascii hPath.push hPath.object (by rwa [hText])
    rwa [hText] at hRead

/- The types that have a pattern. -/
def bundleTypes : List Str :=
  [lit "ip", lit "domain", lit "url", lit "hash"]

/- The pattern of each type is about an object that is
known. -/
theorem patternForIoc_known
    {i : EnrichedIoc}
    (hType : i.iocType ∈ bundleTypes) :
    ∃ kind object,
      patternForIoc i =
        some (patternOf (kind ++ object) i.value) ∧
      KnownPath i.iocType kind object := by
  unfold patternForIoc
  generalize i.iocType = t at *
  simp only [bundleTypes, List.mem_cons, List.not_mem_nil,
    or_false] at hType
  rcases hType with rfl | rfl | rfl | rfl
  · exact ⟨_, _, rfl, knownPath_word "ipv4-addr" (by decide)
      (by decide) (by decide) (by decide)⟩
  · exact ⟨_, _, rfl, knownPath_word "domain-name" (by decide)
      (by decide) (by decide) (by decide)⟩
  · exact ⟨_, _, rfl, knownPath_word "url" (by decide)
      (by decide) (by decide) (by decide)⟩
  · exact ⟨_, _, rfl, knownPath_hash⟩

---- The Path Of An Object

/- The path of the object that a value is about, as the export
of the dashboard names it. -/
def objectPath (i : EnrichedIoc) : Str :=
  if i.iocType = lit "ip" then
    if i.value.contains (cp ':') then lit "ipv6-addr:value "
    else lit "ipv4-addr:value "
  else if i.iocType = lit "domain" then
    lit "domain-name:value "
  else if i.iocType = lit "url" then lit "url:value "
  else
    lit "file:hashes.'" ++ hashAlgorithm i.value ++ lit "' "

/- A pattern compares the object of a value with a text. -/
def Names (i : EnrichedIoc) (pattern : Str) : Prop :=
  ∃ text, pattern = patternOf (objectPath i) text

/- The number of hex digits of a digest. -/
def digits (value : Str) : Nat :=
  (value.filter
    (lit "0123456789abcdefABCDEF").contains).length

theorem hashAlgorithm_sha256_iff (value : Str) :
    hashAlgorithm value = lit "SHA-256" ↔
      digits value ≠ 32 ∧ digits value ≠ 40 := by
  unfold hashAlgorithm digits
  split
  · rename_i hLength
    rw [hLength]
    decide
  · rename_i hLength
    rw [hLength]
    decide
  · rename_i hLength
    rw [hLength]
    decide
  · rename_i hMd5 hSha1 _
    exact ⟨fun _ => ⟨hMd5, hSha1⟩, fun _ => rfl⟩

/- An address is named if it is not one of version 6. -/
theorem names_ip_iff
    {i : EnrichedIoc}
    (hType : i.iocType = lit "ip") :
    Names i (patternOf (lit "ipv4-addr:value ") i.value) ↔
      cp ':' ∉ i.value := by
  unfold Names objectPath
  rw [if_pos hType, ← List.contains_iff_mem]
  cases hColon : i.value.contains (cp ':') with
  | true =>
      constructor
      · rintro ⟨text, hText⟩
        have hStart : lit "[ipv4-" = lit "[ipv6-" :=
          congrArg (List.take 6) hText
        revert hStart
        decide
      · intro hNot
        exact absurd rfl hNot
  | false =>
      constructor
      · intro _
        decide
      · intro _
        exact ⟨i.value, rfl⟩

/- A digest is named if it is not one of the other two
algorithms. -/
theorem names_hash_iff
    {i : EnrichedIoc}
    (hType : i.iocType = lit "hash") :
    Names i (patternOf (lit "file:hashes.'SHA-256' ")
        i.value) ↔
      digits i.value ≠ 32 ∧ digits i.value ≠ 40 := by
  have hPath :
      objectPath i =
        lit "file:hashes.'" ++ hashAlgorithm i.value ++
          lit "' " := by
    unfold objectPath
    rw [hType]
    rfl
  unfold Names
  rw [hPath, ← hashAlgorithm_sha256_iff]
  constructor
  · rintro ⟨text, hText⟩
    have hStart := congrArg (List.take 19) hText
    revert hStart
    unfold hashAlgorithm
    split
    · intro hStart
      have hHead :
          lit "[file:hashes.'SHA-2" = lit "[file:hashes.'MD5' " :=
        hStart
      revert hHead
      decide
    · intro hStart
      have hHead :
          lit "[file:hashes.'SHA-2" = lit "[file:hashes.'SHA-1" :=
        hStart
      revert hHead
      decide
    · exact fun _ => rfl
    · exact fun _ => rfl
  · intro hSha
    rw [hSha]
    exact ⟨i.value, rfl⟩

---- Reading Back

/- An IOC that the service may have. -/
structure Supported (i : EnrichedIoc) : Prop where
  type_mem : i.iocType ∈ bundleTypes
  value_ne_nil : i.value ≠ []

/- What an IOC and a record of it have in common. -/
def iocKey (i : EnrichedIoc) : Str × Str × Int :=
  (i.iocType, i.value, clampedConfidence i.confidence)

def feedKey (found : FeedIoc) : Str × Str × Int :=
  (found.type, found.value, found.confidence)

/- What both importers read in the indicators of a bundle is
what it was made of, in order, and each pattern is about the
object of its value. -/
structure ReadBack [Unicode]
    (tools : BundleTools)
    (iocs : List EnrichedIoc) : Prop where
  feed :
    ((convertToStixBundle tools iocs).indicators.filterMap
        fun obj =>
          stixIndicatorToIoc (lit "stix") (.indicator obj)).map
        feedKey =
      iocs.map iocKey
  push :
    (objectsToIocs
        ((convertToStixBundle tools iocs).indicators.map
          .indicator)).map recordKey =
      iocs.map iocKey
  names :
    List.Forall₂ (fun i obj => Names i obj.pattern) iocs
      (convertToStixBundle tools iocs).indicators

/- An IOC that the bundle has a pattern for as it is. -/
structure PlainIoc (i : EnrichedIoc) : Prop where
  value : ∀ c ∈ i.value, c ≠ cp '\''
  version : i.iocType = lit "ip" → cp ':' ∉ i.value
  digest :
    i.iocType = lit "hash" →
      digits i.value ≠ 32 ∧ digits i.value ≠ 40
  confidence : 1 ≤ i.confidence

theorem noQuote_iff (v : Str) :
    NoQuote v ↔ ∀ c ∈ v, c ≠ cp '\'' := by
  unfold NoQuote notQuote
  simp

/- An indicator that is written for an IOC. -/
def WrittenFor (i : EnrichedIoc) (obj : StixIndicator) : Prop :=
  patternForIoc i = some obj.pattern ∧
    obj.confidence = clampedConfidence i.confidence

/- There is one indicator for each IOC. -/
theorem written_indicators
    (tools : BundleTools) {iocs : List EnrichedIoc}
    (hAll : ∀ i ∈ iocs, Supported i) :
    List.Forall₂ WrittenFor iocs
      (convertToStixBundle tools iocs).indicators := by
  have hFrom (n : Nat) :
      List.Forall₂ WrittenFor iocs
        ((indicatorObjects tools n iocs).filterMap
          BundleObject.toIndicator) := by
    induction iocs generalizing n with
    | nil => exact .nil
    | cons i rest ih =>
        rw [List.forall_mem_cons] at hAll
        rcases patternForIoc_known hAll.1.type_mem with
          ⟨kind, object, hPattern, _⟩
        rw [indicatorObjects, hPattern]
        exact .cons ⟨hPattern, rfl⟩ (ih hAll.2 (n + 1))
  exact hFrom 0

/- What the connectors read of an IOC. -/
theorem feed_written_iff
    {i : EnrichedIoc} {obj : StixIndicator}
    (hI : Supported i) (hWritten : WrittenFor i obj) :
    (stixIndicatorToIoc (lit "stix") (.indicator obj)).map
          feedKey =
        some (iocKey i) ↔
      NoQuote i.value := by
  rcases patternForIoc_known hI.type_mem with
    ⟨kind, object, hPattern, hPath⟩
  rw [hWritten.1, Option.some.injEq] at hPattern
  rw [← feedParse_known_iff hPath hI.value_ne_nil, ← hPattern]
  have hClamp :
      max 0 (min 100 obj.confidence) =
        clampedConfidence i.confidence := by
    rw [hWritten.2]
    unfold clampedConfidence
    omega
  unfold stixIndicatorToIoc
  cases hRead : feedParse obj.pattern with
  | none => simp [hRead]
  | some parsed =>
      rcases parsed with ⟨t, v⟩
      simp [hRead, feedKey, iocKey, hClamp]

/- What the push reads of an IOC. -/
theorem push_written_iff [Unicode]
    {i : EnrichedIoc} {obj : StixIndicator}
    (hI : Supported i) (hWritten : WrittenFor i obj) :
    (objectToIoc (.indicator obj)).map recordKey =
        some (iocKey i) ↔
      NoQuote i.value ∧ 1 ≤ i.confidence := by
  rcases patternForIoc_known hI.type_mem with
    ⟨kind, object, hPattern, hPath⟩
  rw [hWritten.1, Option.some.injEq] at hPattern
  rw [← parse_known_iff hPath hI.value_ne_nil, ← hPattern]
  have hConfidence :
      importedConfidence obj.confidence =
          clampedConfidence i.confidence ↔
        1 ≤ i.confidence := by
    rw [hWritten.2, importedConfidence_eq_self_iff]
    unfold clampedConfidence
    omega
  unfold objectToIoc
  cases hRead : parseIndicatorPattern obj.pattern with
  | none => simp [hRead]
  | some parsed =>
      rcases parsed with ⟨t, v⟩
      simp [hRead, recordKey, iocKey, hConfidence, and_assoc]

/- The other types have one path. -/
theorem names_of_other
    {i : EnrichedIoc} {pattern : Str}
    (hPattern : pattern = patternOf (objectPath i) i.value)
    (hIp : i.iocType ≠ lit "ip") (hHash : i.iocType ≠ lit "hash") :
    Names i pattern ↔
      (i.iocType = lit "ip" → cp ':' ∉ i.value) ∧
      (i.iocType = lit "hash" →
        digits i.value ≠ 32 ∧ digits i.value ≠ 40) :=
  iff_of_true ⟨i.value, hPattern⟩
    ⟨fun hIs => absurd hIs hIp, fun hIs => absurd hIs hHash⟩

/- The object that the pattern of an IOC is about. -/
theorem names_written_iff
    {i : EnrichedIoc} {obj : StixIndicator}
    (hI : Supported i) (hWritten : WrittenFor i obj) :
    Names i obj.pattern ↔
      (i.iocType = lit "ip" → cp ':' ∉ i.value) ∧
      (i.iocType = lit "hash" →
        digits i.value ≠ 32 ∧ digits i.value ≠ 40) := by
  have hPattern := hWritten.1
  have hType := hI.type_mem
  simp only [bundleTypes, List.mem_cons, List.not_mem_nil,
    or_false] at hType
  unfold patternForIoc at hPattern
  rcases hType with hType | hType | hType | hType
  · rw [if_pos hType, Option.some.injEq] at hPattern
    rw [← hPattern, names_ip_iff hType, hType]
    simp [show lit "ip" ≠ lit "hash" by decide]
  · rw [hType] at hPattern
    refine names_of_other ?_ (by rw [hType]; decide)
      (by rw [hType]; decide)
    unfold objectPath
    rw [hType]
    exact (Option.some.inj hPattern).symm
  · rw [hType] at hPattern
    refine names_of_other ?_ (by rw [hType]; decide)
      (by rw [hType]; decide)
    unfold objectPath
    rw [hType]
    exact (Option.some.inj hPattern).symm
  · rw [hType] at hPattern
    have hIs :
        patternOf (lit "file:hashes.'SHA-256' ") i.value =
          obj.pattern :=
      Option.some.inj hPattern
    rw [← hIs, names_hash_iff hType, hType]
    simp [show lit "hash" ≠ lit "ip" by decide]

/- The bundle is read back exactly if no value has a quote, no
address is of version 6, no digest is of 32 or 40 digits,
and no confidence is below one. -/
theorem bundle_read_back_iff [Unicode]
    (tools : BundleTools)
    {iocs : List EnrichedIoc}
    (hAll : ∀ i ∈ iocs, Supported i) :
    ReadBack tools iocs ↔ ∀ i ∈ iocs, PlainIoc i := by
  have hWritten := written_indicators tools hAll
  have hFeed :
      ((convertToStixBundle tools iocs).indicators.filterMap
          fun obj =>
            stixIndicatorToIoc (lit "stix") (.indicator obj)).map
          feedKey =
        iocs.map iocKey ↔
      ∀ i ∈ iocs, NoQuote i.value := by
    rw [List.map_filterMap]
    exact filterMap_eq_map_iff_of_forall₂ hWritten
      fun i hI obj hObj => feed_written_iff (hAll i hI) hObj
  have hPush :
      (objectsToIocs
          ((convertToStixBundle tools iocs).indicators.map
            .indicator)).map recordKey =
        iocs.map iocKey ↔
      ∀ i ∈ iocs, NoQuote i.value ∧ 1 ≤ i.confidence := by
    unfold objectsToIocs
    rw [List.filterMap_map, List.map_filterMap]
    exact filterMap_eq_map_iff_of_forall₂ hWritten
      fun i hI obj hObj => push_written_iff (hAll i hI) hObj
  have hNames :
      List.Forall₂ (fun i obj => Names i obj.pattern) iocs
          (convertToStixBundle tools iocs).indicators ↔
        ∀ i ∈ iocs,
          (i.iocType = lit "ip" → cp ':' ∉ i.value) ∧
          (i.iocType = lit "hash" →
            digits i.value ≠ 32 ∧ digits i.value ≠ 40) :=
    forall₂_iff_of_forall₂ hWritten
      fun i hI obj hObj => names_written_iff (hAll i hI) hObj
  constructor
  · intro hBack i hI
    have hPlain := hPush.mp hBack.push i hI
    have hNamed := hNames.mp hBack.names i hI
    exact
      { value := (noQuote_iff _).mp hPlain.1
        version := hNamed.1
        digest := hNamed.2
        confidence := hPlain.2 }
  · intro hPlain
    have hQuote (i) (hI : i ∈ iocs) : NoQuote i.value :=
      (noQuote_iff _).mpr (hPlain i hI).value
    exact
      { feed := hFeed.mpr hQuote
        push := hPush.mpr fun i hI =>
          ⟨hQuote i hI, (hPlain i hI).confidence⟩
        names := hNames.mpr fun i hI =>
          ⟨(hPlain i hI).version, (hPlain i hI).digest⟩ }

---- Four Addresses

local instance bundleUnicode : Unicode := asciiTables

def bundleTools : BundleTools where
  now := lit "2026-01-01T00:00:00Z"
  identityName := lit "ThreatOrbit CTI Platform"
  identityClass := lit "organization"
  uuid5 := fun name => name
  uuid4 := fun n => [n]
  upper := fun s => s

def bundleIoc (iocType value : Str) : EnrichedIoc where
  iocType := iocType
  value := value
  source := lit "urlhaus"
  tags := [lit "botnet", lit "threatorbit"]
  threatType := none
  description := none
  confidence := 80
  lastSeen := none
  vtMaliciousCount := none
  enrichmentStatus := lit "skipped"

/- An address of version 4, a domain, and a URL with a
backslash come back. -/
theorem plain_bundle :
    ReadBack bundleTools
      [bundleIoc (lit "ip") (lit "203.0.113.7"),
        bundleIoc (lit "domain") (lit "a.test"),
        bundleIoc (lit "url") (lit "http://a.test/\\x")] := by
  refine (bundle_read_back_iff bundleTools ?_).mpr ?_
  · intro i hI
    simp only [List.mem_cons, List.not_mem_nil, or_false] at hI
    rcases hI with rfl | rfl | rfl <;>
      exact ⟨by decide, by decide⟩
  · intro i hI
    simp only [List.mem_cons, List.not_mem_nil, or_false] at hI
    rcases hI with rfl | rfl | rfl <;>
      exact ⟨by decide, by decide, by decide, by decide⟩

/- A URL with a quote is read up to the quote. -/
theorem quoted_url_cut :
    ¬ ReadBack bundleTools
      [bundleIoc (lit "url") (lit "http://a.test/?q='1'")] := by
  intro hBack
  have hFeed := hBack.feed
  revert hFeed
  decide

end ThreatOrbit.Threat
