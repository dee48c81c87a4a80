import ThreatOrbit.Intel.Stix

/-
  Two readers of the pattern of an indicator: the one of the
  push, and the one of the connectors, which is case
  sensitive.
-/

---- The Connectors

namespace ThreatOrbit.Intel

open Lib Regex

/- The object a pattern is about, as the connectors write
it. -/
def feedKindRe : Regex :=
  .alt (word "ipv4-addr") (.alt (word "ipv6-addr")
    (.alt (word "domain-name") (.alt (word "url")
      (.alt (word "email-addr")
        (.seq (word "file:hashes")
          (.star true (.cls notEquals)))))))

/- The pattern in `_stix_indicator_to_ioc`. -/
def feedPatternRe : Regex :=
  .seq (.group 1 feedKindRe) valueRe

/- The indicator type of the object of a pattern. -/
def feedKindType (kind : Str) : Option Str :=
  if contains (lit "ipv") kind then some (lit "ip")
  else if contains (lit "domain") kind then
    some (lit "domain")
  else if contains (lit "url") kind then some (lit "url")
  else if contains (lit "email") kind then some (lit "email")
  else if contains (lit "hashes") kind ||
      contains (lit "file") kind then
    some (lit "hash")
  else
    none

/- The type and value of a match. -/
def feedRead (m : Match) : Option (Str × Str) :=
  (feedKindType ((m.group 1).getD [])).map fun t =>
    (t, (m.group 2).getD [])

/- What the connectors read in a pattern. -/
def feedParse (pattern : Str) : Option (Str × Str) :=
  (feedPatternRe.search pattern).bind feedRead

/- An indicator as a connector hands it on. -/
structure FeedIoc where
  type : Str
  value : Str
  threatType : Str
  confidence : Int
  source : Str
  tags : List Str
deriving DecidableEq, Repr

def stixIndicatorToIoc
    (source : Str) : StixObject → Option FeedIoc
| .vulnerability _ => none
| .indicator obj =>
    match feedParse obj.pattern with
    | none => none
    | some parsed =>
        some
          { type := parsed.1
            value := parsed.2
            threatType :=
              orStr (some obj.name) (lit "stix-indicator")
            confidence := max 0 (min 100 obj.confidence)
            source := source
            tags := obj.labels }

theorem feedKindRe_run
    {w : String}
    (hWord :
      w ∈ ["ipv4-addr", "ipv6-addr", "domain-name", "url",
        "email-addr", "file:hashes"])
    (before rest : Str)
    (groups : List (Nat × Str)) :
    feedKindRe.run ⟨before, lit w ++ rest, groups⟩ =
      kindRe.run ⟨before, lit w ++ rest, groups⟩ := by
  unfold feedKindRe kindRe hashKind
  simp only [List.mem_cons, List.not_mem_nil, or_false] at hWord
  rcases hWord with rfl | rfl | rfl | rfl | rfl | rfl
  all_goals
    simp (disch := decide) only [run, run_word_self,
      run_wordI_self, run_word_clash, run_wordI_clash]

/- The connectors' object is part of the other. -/
theorem feedKindRe_part : feedKindRe.PartOf kindRe := by
  intro c
  rcases c with ⟨before, after, groups⟩
  by_cases hNone : feedKindRe.run ⟨before, after, groups⟩ = []
  · exact Or.inl hNone
  right
  have hWord :
      ∃ w ∈ ["ipv4-addr", "ipv6-addr", "domain-name", "url",
          "email-addr", "file:hashes"],
        ∃ rest, after = lit w ++ rest := by
    by_contra hOther
    push Not at hOther
    apply hNone
    have hEach (w : String) (hW : w ∈ ["ipv4-addr",
        "ipv6-addr", "domain-name", "url", "email-addr",
        "file:hashes"]) :
        (word w).run ⟨before, after, groups⟩ = [] := by
      rcases run_word_cases w ⟨before, after, groups⟩ with
        hNil | ⟨rest, hRest⟩
      · exact hNil
      · exact absurd hRest (hOther w hW rest)
    unfold feedKindRe
    simp [run, hEach]
  rcases hWord with ⟨w, hW, rest, rfl⟩
  exact feedKindRe_run hW before rest groups

theorem feedPatternRe_part : feedPatternRe.PartOf patternRe :=
  (feedKindRe_part.group 1).seq valueRe

/- Where the connectors' object is found, so is the
pattern. -/
theorem feedPatternRe_run
    {c : Cursor}
    (hLow : feedKindRe.run c ≠ []) :
    feedPatternRe.run c = patternRe.run c := by
  have hSame : feedKindRe.run c = kindRe.run c :=
    (feedKindRe_part c).resolve_left hLow
  unfold feedPatternRe patternRe
  rw [run, run, run, run, hSame]

---- The Same Reading

section

variable [Unicode]

/- The object that a match is about. -/
def objectOf (m : Match) : Str :=
  (m.group 1).getD []

def pushRead (m : Match) : Option (Str × Str) :=
  (kindType (Unicode.lower (objectOf m))).map fun t =>
    (t, (m.group 2).getD [])

/- The first object of the pattern, in any case, is written
in lower case, and its type does not change when the rest
of it is; or the first one that is in lower case has its
type and value. -/
def SameReading (pattern : Str) : Prop :=
  ∀ m, patternRe.search pattern = some m →
    (feedKindRe.run m.start ≠ [] ∧
      feedKindType (objectOf m) =
        kindType (Unicode.lower (objectOf m))) ∨
    (feedKindRe.run m.start = [] ∧
      (feedPatternRe.search pattern).bind feedRead =
        pushRead m)

theorem parse_of_search
    {pattern : Str} {m : Match}
    (hFound : patternRe.search pattern = some m) :
    parseIndicatorPattern pattern = pushRead m := by
  unfold parseIndicatorPattern pushRead objectOf
  rw [hFound]

omit [Unicode] in
theorem map_pair_eq_iff
    {a b : Option Str} {v : Str} :
    (a.map fun t => (t, v)) = (b.map fun t => (t, v)) ↔
      a = b := by
  constructor
  · intro hSame
    have hInjective : Function.Injective fun t : Str => (t, v) := by
      intro x y hPair
      exact (Prod.mk.inj hPair).1
    exact Option.map_injective hInjective hSame
  · intro hSame
    rw [hSame]

/- The two read the same in a pattern exactly in these
cases. -/
theorem feedParse_eq_iff
    (pattern : Str) :
    feedParse pattern = parseIndicatorPattern pattern ↔
      SameReading pattern := by
  unfold SameReading
  cases hFound : patternRe.search pattern with
  | none =>
      have hNone : feedPatternRe.search pattern = none :=
        feedPatternRe_part.searchFrom_none hFound
      unfold feedParse parseIndicatorPattern
      rw [hNone, hFound]
      simp
  | some m =>
      have hOnly {P : Match → Prop} :
          (∀ n, some m = some n → P n) ↔ P m := by
        simp
      rw [hOnly, parse_of_search hFound]
      by_cases hLow : feedKindRe.run m.start = []
      · unfold feedParse
        simp [hLow]
      · have hRun : feedPatternRe.run m.start ≠ [] := by
          rw [feedPatternRe_run hLow]
          intro hNil
          have hHead := run_of_searchFrom hFound
          rw [hNil] at hHead
          cases hHead
        have hSame : feedPatternRe.search pattern = some m :=
          feedPatternRe_part.searchFrom_some hFound hRun
        have hRead : feedParse pattern = feedRead m := by
          unfold feedParse
          rw [hSame]
          rfl
        rw [hRead]
        unfold feedRead pushRead
        rw [map_pair_eq_iff]
        unfold objectOf
        simp [hLow]

end

---- An Exported Pattern

/- A connector finds the object after the bracket. -/
theorem feedSearch_bracket
    {s : Str} {stop : Cursor}
    (hLow : feedKindRe.run ⟨[cp '['], s, []⟩ ≠ [])
    (hHead :
      (patternRe.run ⟨[cp '['], s, []⟩).head? = some stop) :
    feedPatternRe.search (cp '[' :: s) =
      some ⟨⟨[cp '['], s, []⟩, stop⟩ := by
  have hFound :
      patternRe.search (cp '[' :: s) =
        some ⟨⟨[cp '['], s, []⟩, stop⟩ := by
    unfold search
    rw [searchFrom_later, searchFrom_here hHead]
    unfold patternRe
    rw [run, run, run_kindRe_bracket]
    rfl
  apply feedPatternRe_part.searchFrom_some hFound
  rw [feedPatternRe_run hLow]
  intro hNil
  rw [hNil] at hHead
  cases hHead

/- A connector reads a pattern about an object of a known kind
as the type of the kind and its text up to the first quote. -/
theorem feedParse_written
    {kind object t text : Str}
    (hRun :
      ∀ after, ∃ more,
        kindRe.run
            ⟨[cp '['], kind ++ (object ++ cp '=' :: after),
              []⟩ =
          ⟨kind.reverse ++ [cp '['], object ++ cp '=' :: after,
            []⟩ :: more)
    (hLow :
      ∀ after, feedKindRe.run ⟨[cp '['], kind ++ after, []⟩ ≠ [])
    (hType : feedKindType kind = some t)
    (hObject : ∀ c ∈ object, notEquals c = true)
    (hSome : text.takeWhile notQuote ≠ []) :
    feedParse (patternOf (kind ++ object) text) =
      some (t, text.takeWhile notQuote) := by
  rcases append_quote text with ⟨rest, hRest⟩
  generalize hIs : text.takeWhile notQuote = w at *
  have hText :
      patternOf (kind ++ object) text =
        cp '[' :: (kind ++ (object ++ (lit "= '" ++
          (w ++ cp '\'' :: rest)))) := by
    unfold patternOf
    simp only [List.append_assoc]
    rw [hRest]
    rfl
  rcases hRun (lit " '" ++ (w ++ cp '\'' :: rest))
    with ⟨more, hMore⟩
  have hQuote : ∀ c ∈ w, notQuote c = true := by
    intro c hC
    rw [← hIs] at hC
    exact List.mem_takeWhile_imp hC
  have hLits :
      object ++ cp '=' :: (lit " '" ++ (w ++ cp '\'' :: rest)) =
        object ++ (lit "= '" ++ (w ++ cp '\'' :: rest)) := rfl
  rw [hLits] at hMore
  rcases head_patternRe hMore rfl rfl hObject hSome hQuote with
    ⟨stop, hHead, hStop⟩
  have hUpto := Cursor.upto_append
    ⟨[cp '['], kind ++ (object ++ (lit "= '" ++
      (w ++ cp '\'' :: rest))), []⟩
    ⟨kind.reverse ++ [cp '['], object ++ (lit "= '" ++
      (w ++ cp '\'' :: rest)), []⟩
    kind rfl
  rw [hUpto] at hStop
  unfold feedParse
  rw [hText, feedSearch_bracket (hLow _) hHead]
  simp [feedRead, Match.group, hStop, hType]

/- An escaped value is read as it is shown. -/
theorem feedParse_patternOf
    {kind object t value : Str}
    (hRun :
      ∀ after, ∃ more,
        kindRe.run
            ⟨[cp '['], kind ++ (object ++ cp '=' :: after),
              []⟩ =
          ⟨kind.reverse ++ [cp '['], object ++ cp '=' :: after,
            []⟩ :: more)
    (hLow :
      ∀ after, feedKindRe.run ⟨[cp '['], kind ++ after, []⟩ ≠ [])
    (hType : feedKindType kind = some t)
    (hObject : ∀ c ∈ object, notEquals c = true)
    (hSome : value ≠ []) :
    feedParse (patternOf (kind ++ object) (escape value)) =
      some (t, shown value) :=
  feedParse_written hRun hLow hType hObject (shown_ne_nil hSome)

theorem feedKindRe_ne_nil
    {w : String}
    (hWord :
      w ∈ ["ipv4-addr", "ipv6-addr", "domain-name", "url",
        "email-addr", "file:hashes"])
    (before rest : Str) :
    feedKindRe.run ⟨before, lit w ++ rest, []⟩ ≠ [] := by
  have hRun (c : Cursor) :
      feedKindRe.run c =
        (word "ipv4-addr").run c ++
          ((word "ipv6-addr").run c ++
            ((word "domain-name").run c ++
              ((word "url").run c ++
                ((word "email-addr").run c ++
                  ((word "file:hashes").run c).flatMap
                    (Regex.star true (.cls notEquals)).run)))) :=
    rfl
  rw [hRun]
  simp only [List.mem_cons, List.not_mem_nil, or_false] at hWord
  rcases hWord with rfl | rfl | rfl | rfl | rfl | rfl
  all_goals
    simp (disch := decide) only [run_word_self, run_word_clash]
  · simp
  · simp
  · simp
  · simp
  · simp
  · rcases run_star_greedy_cons notEquals
      ⟨(lit "file:hashes").reverse ++ before, rest, []⟩ with
      ⟨more, hMore⟩
    simp [hMore]

/- A connector reads an exported pattern as its type and the
value it shows. -/
theorem feedParse_stixPattern [Unicode]
    {t value : Str}
    (hType : t ∈ patternTypes) (hSome : value ≠ []) :
    ∃ pattern,
      stixPattern (some t) value = some pattern ∧
      feedParse pattern = some (t, shown value) := by
  have hLower := lower_patternTypes hType
  have hWord (w : String) {u : Str}
      (hW : lit w ∈ [lit "ipv4-addr", lit "ipv6-addr",
        lit "domain-name", lit "url", lit "email-addr"])
      (hMem : w ∈ ["ipv4-addr", "ipv6-addr", "domain-name",
        "url", "email-addr", "file:hashes"])
      (hIs : feedKindType (lit w) = some u) :
      feedParse (patternOf (lit w ++ lit ":value ")
        (escape value)) = some (u, shown value) :=
    feedParse_patternOf (run_kindRe_word hW _)
      (fun after => feedKindRe_ne_nil hMem _ after) hIs
      (by decide) hSome
  unfold stixPattern
  simp only [Option.getD_some, hLower]
  simp only [patternTypes, List.mem_cons, List.not_mem_nil,
    or_false] at hType
  rcases hType with rfl | rfl | rfl | rfl | rfl
  · rw [if_pos rfl]
    refine ⟨_, rfl, ?_⟩
    split
    · exact hWord "ipv6-addr" (by decide) (by decide)
        (by decide)
    · exact hWord "ipv4-addr" (by decide) (by decide)
        (by decide)
  · rw [if_neg (by decide), if_pos rfl]
    exact ⟨_, rfl, hWord "domain-name" (by decide) (by decide)
      (by decide)⟩
  · rw [if_neg (by decide), if_neg (by decide), if_pos rfl]
    exact ⟨_, rfl, hWord "url" (by decide) (by decide)
      (by decide)⟩
  · rw [if_neg (by decide), if_neg (by decide),
      if_neg (by decide), if_pos rfl]
    exact ⟨_, rfl, hWord "email-addr" (by decide) (by decide)
      (by decide)⟩
  · rw [if_neg (by decide), if_neg (by decide),
      if_neg (by decide), if_neg (by decide), if_pos rfl]
    refine ⟨_, rfl, ?_⟩
    have hAlgorithm := notEquals_hashAlgorithm value
    have hObject :
        lit "file:hashes.'" ++ hashAlgorithm value ++
            lit "' " =
          (lit "file:hashes" ++
            (lit ".'" ++ hashAlgorithm value ++ lit "' ")) ++
              [] := by
      rw [List.append_nil]
      simp only [List.append_assoc]
      rfl
    have hKind :
        feedKindType (lit "file:hashes" ++
          (lit ".'" ++ hashAlgorithm value ++ lit "' ")) =
            some (lit "hash") := by
      unfold hashAlgorithm
      split <;> decide
    rw [hObject]
    refine feedParse_patternOf (run_kindRe_hash hAlgorithm) ?_
      hKind (by simp) hSome
    intro after
    rw [List.append_assoc]
    exact feedKindRe_ne_nil (by decide) _ _

/- An empty value is read by no one. -/
theorem feedParse_empty [Unicode]
    {t : Str}
    (hType : t ∈ patternTypes) :
    ∃ pattern,
      stixPattern (some t) [] = some pattern ∧
      feedParse pattern = none := by
  have hLower := lower_patternTypes hType
  unfold stixPattern
  simp only [Option.getD_some, hLower]
  simp only [patternTypes, List.mem_cons, List.not_mem_nil,
    or_false] at hType
  rcases hType with rfl | rfl | rfl | rfl | rfl
  · rw [if_pos rfl]
    exact ⟨_, rfl, by decide⟩
  · rw [if_neg (by decide), if_pos rfl]
    exact ⟨_, rfl, by decide⟩
  · rw [if_neg (by decide), if_neg (by decide), if_pos rfl]
    exact ⟨_, rfl, by decide⟩
  · rw [if_neg (by decide), if_neg (by decide),
      if_neg (by decide), if_pos rfl]
    exact ⟨_, rfl, by decide⟩
  · rw [if_neg (by decide), if_neg (by decide),
      if_neg (by decide), if_neg (by decide), if_pos rfl]
    exact ⟨_, rfl, by decide⟩

---- One Dialect

section

variable [Unicode]

/- The connectors read an indicator as the push does, and an
exported value as it was. -/
structure OneDialect
    (source : Str)
    (obj : StixIndicator)
    (t value : Str) : Prop where
  same :
    (stixIndicatorToIoc source (.indicator obj)).map
        (fun i => (i.type, i.value)) =
      parseIndicatorPattern obj.pattern
  back :
    ∃ pattern,
      stixPattern (some t) value = some pattern ∧
      ∀ exported : StixIndicator,
        exported.pattern = pattern →
        (stixIndicatorToIoc source (.indicator exported)).map
          FeedIoc.value = some value

omit [Unicode] in
theorem stixIndicatorToIoc_read
    (source : Str) (obj : StixIndicator) :
    (stixIndicatorToIoc source (.indicator obj)).map
        (fun i => (i.type, i.value)) =
      feedParse obj.pattern := by
  unfold stixIndicatorToIoc
  cases hRead : feedParse obj.pattern with
  | none => simp [hRead]
  | some parsed => simp [hRead]

omit [Unicode] in
theorem stixIndicatorToIoc_value
    (source : Str) (obj : StixIndicator) :
    (stixIndicatorToIoc source (.indicator obj)).map
        FeedIoc.value =
      (feedParse obj.pattern).map Prod.snd := by
  rw [← stixIndicatorToIoc_read source obj, Option.map_map]
  rfl

/- An object with a pattern, and nothing else. -/
def bareIndicator (pattern : Str) : StixIndicator where
  id := []
  created := []
  modified := []
  name := []
  description := []
  indicatorTypes := []
  pattern := pattern
  validFrom := []
  confidence := 60
  labels := []

/- An exported value comes back exactly if it is not empty and
has nothing to escape. -/
theorem exported_back_iff
    {t value : Str}
    (hType : t ∈ patternTypes) (source : Str) :
    (∃ pattern,
      stixPattern (some t) value = some pattern ∧
      ∀ exported : StixIndicator,
        exported.pattern = pattern →
        (stixIndicatorToIoc source (.indicator exported)).map
          FeedIoc.value = some value) ↔
      value ≠ [] ∧ ∀ c ∈ value, c ≠ cp '\'' ∧ c ≠ cp '\\' := by
  rw [← shown_eq_self_iff]
  by_cases hEmpty : value = []
  · subst hEmpty
    rcases feedParse_empty hType with ⟨pattern, hPattern, hRead⟩
    constructor
    · rintro ⟨found, hFound, hBack⟩
      rw [hPattern, Option.some.injEq] at hFound
      have hValue :=
        hBack (bareIndicator found) rfl
      rw [stixIndicatorToIoc_value, ← hFound] at hValue
      dsimp only [bareIndicator] at hValue
      rw [hRead] at hValue
      cases hValue
    · rintro ⟨hSome, _⟩
      exact absurd rfl hSome
  · rcases feedParse_stixPattern hType hEmpty with
      ⟨pattern, hPattern, hRead⟩
    constructor
    · rintro ⟨found, hFound, hBack⟩
      rw [hPattern, Option.some.injEq] at hFound
      have hValue :=
        hBack (bareIndicator found) rfl
      rw [stixIndicatorToIoc_value, ← hFound] at hValue
      dsimp only [bareIndicator] at hValue
      rw [hRead, Option.map_some, Option.some.injEq] at hValue
      exact ⟨hEmpty, hValue⟩
    · rintro ⟨_, hShown⟩
      refine ⟨pattern, hPattern, ?_⟩
      intro exported hIs
      rw [stixIndicatorToIoc_value, hIs, hRead, Option.map_some,
        hShown]

/- The connectors speak the dialect of the push exactly about
patterns that they read the same, and values that are not
escaped. -/
theorem one_dialect_iff
    {t value : Str}
    (hType : t ∈ patternTypes)
    (source : Str)
    (obj : StixIndicator) :
    OneDialect source obj t value ↔
      SameReading obj.pattern ∧ value ≠ [] ∧
        ∀ c ∈ value, c ≠ cp '\'' ∧ c ≠ cp '\\' := by
  rw [← feedParse_eq_iff, ← exported_back_iff hType source,
    ← stixIndicatorToIoc_read source obj]
  constructor
  · intro hOne
    exact ⟨hOne.same, hOne.back⟩
  · rintro ⟨hSame, hBack⟩
    exact ⟨hSame, hBack⟩

end

---- A Name And A Capital

local instance dialectUnicode : Unicode := asciiTables

/- A pattern in lower case, and an address without quotes. -/
theorem plain_dialect :
    OneDialect (lit "stix")
      (bareIndicator (lit "[url:value = 'http://a.test/?q=1']"))
      (lit "url") (lit "http://a.test/?q=1 or 2") := by
  refine (one_dialect_iff (by decide) _ _).mpr ⟨?_, by decide,
    by decide⟩
  rw [← feedParse_eq_iff]
  decide

/- One in capitals is read by the push only, and an address
with a quote comes back cut. -/
theorem capital_not_read :
    ¬ OneDialect (lit "stix")
      (bareIndicator (lit "[URL:value = 'http://a.test/']"))
      (lit "url") (lit "http://a.test/?q='1'") := by
  intro hOne
  have hSame := hOne.same
  rw [stixIndicatorToIoc_read] at hSame
  revert hSame
  decide

end ThreatOrbit.Intel
