import ThreatOrbit.Lib.Caseless
import ThreatOrbit.Lib.Lists
import ThreatOrbit.Lib.Utf8

/-
  Indicators, written as STIX objects and read back.

  The export escapes the value in the pattern of the
  indicator; the import takes what the pattern has between
  its first two quotes, as it is.
-/

---- Export

namespace ThreatOrbit.Intel

open Lib

/- The columns of an indicator that are exported; `tags` is
the list that the stored text holds, empty if it holds
none. -/
structure IocRow where
  type : Option Str
  value : Str
  threatType : Option Str
  firstSeen : Option Str
  lastSeen : Option Str
  confidence : Option Int
  severity : Option Str
  actor : Option Str
  status : Option Str
  tags : List Str
deriving DecidableEq, Repr

/- What the export uses of the standard library: the name
UUID of some bytes, and a timestamp with its fallback. -/
structure StixTools where
  uuid5 : Bytes → Str
  ts : Option Str → Option Str → Str

/- `_det_id`; `none` where the name cannot be encoded. -/
def detId
    (tools : StixTools)
    (kind seed : Str) : Option Str :=
  (encodeUtf8 (kind ++ lit ":" ++ seed)).map fun name =>
    kind ++ lit "--" ++ tools.uuid5 name

/- The vocabulary of indicator types. -/
def indicatorType : List (Str × Str) :=
  [(lit "c2", lit "command-and-control"),
    (lit "command-and-control", lit "command-and-control"),
    (lit "malware", lit "malicious-activity"),
    (lit "phishing", lit "anomalous-activity"),
    (lit "exfil-destination", lit "exfiltration"),
    (lit "brute-force-source", lit "anomalous-activity"),
    (lit "web-attack", lit "anomalous-activity"),
    (lit "soar-blocked", lit "malicious-activity")]

def escape (value : Str) : Str :=
  replaceAll (lit "'") (lit "\\'")
    (replaceAll (lit "\\") (lit "\\\\") value)

/- The hash algorithm by the number of hex digits. -/
def hashAlgorithm (value : Str) : Str :=
  match (value.filter
      (lit "0123456789abcdefABCDEF").contains).length with
  | 32 => lit "MD5"
  | 40 => lit "SHA-1"
  | 64 => lit "SHA-256"
  | _ => lit "SHA-256"

/- A pattern that compares an object with a value. -/
def patternOf (object value : Str) : Str :=
  lit "[" ++ object ++ lit "= '" ++ value ++ lit "']"

/- The pattern of an indicator value, or `none` for the types
that have none. -/
def stixPattern [Unicode]
    (iocType : Option Str)
    (value : Str) : Option Str :=
  let v := escape value
  let t := Unicode.lower (iocType.getD [])
  if t = lit "ip" then
    let kind :=
      if value.contains (cp ':') then lit "ipv6-addr"
      else lit "ipv4-addr"
    some (patternOf (kind ++ lit ":value ") v)
  else if t = lit "domain" then
    some (patternOf (lit "domain-name:value ") v)
  else if t = lit "url" then
    some (patternOf (lit "url:value ") v)
  else if t = lit "email" then
    some (patternOf (lit "email-addr:value ") v)
  else if t = lit "hash" then
    some (patternOf
      (lit "file:hashes.'" ++ hashAlgorithm value ++
        lit "' ") v)
  else
    none

/- An indicator object. -/
structure StixIndicator where
  id : Str
  created : Str
  modified : Str
  name : Str
  description : Str
  indicatorTypes : List Str
  pattern : Str
  validFrom : Str
  confidence : Int
  labels : List Str
deriving DecidableEq, Repr

/- A vulnerability object. -/
structure StixVulnerability where
  id : Str
  created : Str
  modified : Str
  name : Str
  description : Str
deriving DecidableEq, Repr

inductive StixObject where
| indicator (obj : StixIndicator)
| vulnerability (obj : StixVulnerability)
deriving DecidableEq, Repr

/- The description of an indicator. -/
def describeIoc (ioc : IocRow) : Str :=
  orStr ioc.threatType (lit "Malicious indicator") ++
    lit " observed by ThreatOrbit" ++
    (match orStr ioc.actor [] with
    | [] => []
    | actor => lit ", attributed to " ++ actor) ++
    lit "."

/- An indicator or, for a CVE, a vulnerability; `none` where
its id cannot be made. -/
def iocToStix [Unicode]
    (tools : StixTools)
    (ioc : IocRow) : Option StixObject :=
  let value := ioc.value
  let created := tools.ts ioc.firstSeen none
  let modified := tools.ts ioc.lastSeen (some created)
  if Unicode.lower (ioc.type.getD []) = lit "cve" then
    (detId tools (lit "vulnerability") value).map fun id =>
      .vulnerability
        { id := id
          created := created
          modified := modified
          name := value
          description :=
            orStr ioc.threatType
              (lit "Vulnerability " ++ value) }
  else
    let pattern :=
      (stixPattern ioc.type value).getD
        (patternOf (lit "x-threatorbit:value ") (escape value))
    let itype :=
      (lookup (Unicode.lower (ioc.threatType.getD []))
        indicatorType).getD (lit "malicious-activity")
    (detId tools (lit "indicator") value).map fun id =>
      .indicator
        { id := id
          created := created
          modified := modified
          name :=
            orStr ioc.threatType (lit "Indicator") ++
              lit ": " ++ value
          description := describeIoc ioc
          indicatorTypes :=
            if ioc.status = some (lit "known-good") then
              [lit "benign"]
            else [itype]
          pattern := pattern
          validFrom := created
          confidence := ioc.confidence.getD 0
          labels :=
            if ioc.tags = [] then
              [orStr ioc.severity (lit "unknown")]
            else ioc.tags }

/- Serialize indicators, without actors: one object for each
of them. -/
def buildObjects [Unicode]
    (tools : StixTools)
    (iocs : List IocRow) : Option (List StixObject) :=
  iocs.mapM (iocToStix tools)

---- Import

open Lib Regex

def notEquals (c : Nat) : Bool :=
  c != cp '='

def notQuote (c : Nat) : Bool :=
  c != cp '\''

/- `file:hashes[^=]*`. -/
def hashKind : Regex :=
  .seq (wordI "file:hashes") (.star true (.cls notEquals))

/- The object a pattern is about. -/
def kindRe : Regex :=
  .alt (wordI "ipv4-addr") (.alt (wordI "ipv6-addr")
    (.alt (wordI "domain-name") (.alt (wordI "url")
      (.alt (wordI "email-addr") hashKind))))

/- `[^=]*=\s*'([^']+)'`. -/
def valueRe : Regex :=
  .seq (.star true (.cls notEquals))
    (.seq (chr '=')
      (.seq (.star true (.cls isSpace))
        (.seq (chr '\'')
          (.seq
            (.group 2 (.seq (.cls notQuote)
              (.star true (.cls notQuote))))
            (chr '\'')))))

/- `_PATTERN_RE`. -/
def patternRe : Regex :=
  .seq (.group 1 kindRe) valueRe

/- The indicator type of the object of a pattern. -/
def kindType (kind : Str) : Option Str :=
  if contains (lit "ipv") kind then some (lit "ip")
  else if contains (lit "domain") kind then
    some (lit "domain")
  else if contains (lit "url") kind then some (lit "url")
  else if contains (lit "email") kind then some (lit "email")
  else if contains (lit "hash") kind ||
      contains (lit "file") kind then
    some (lit "hash")
  else
    none

/- The type and value in the pattern of an indicator. -/
def parseIndicatorPattern [Unicode]
    (pattern : Str) : Option (Str × Str) :=
  match patternRe.search pattern with
  | none => none
  | some m =>
      (kindType (Unicode.lower ((m.group 1).getD []))).map
        fun t => (t, (m.group 2).getD [])

/- An indicator as it is imported. -/
structure ImportedIoc where
  type : Str
  value : Str
  threatType : Str
  confidence : Int
  severity : Str
  tags : List Str
deriving DecidableEq, Repr

/- A confidence that is zero counts as none. -/
def importedConfidence (confidence : Int) : Int :=
  if confidence = 0 then 60 else confidence

/- The record of an object, if it is an indicator with a
pattern that is read. -/
def objectToIoc [Unicode] : StixObject → Option ImportedIoc
| .vulnerability _ => none
| .indicator obj =>
    match parseIndicatorPattern obj.pattern with
    | none => none
    | some parsed =>
        let labels :=
          if obj.labels = [] then obj.indicatorTypes
          else obj.labels
        some
          { type := parsed.1
            value := parsed.2
            threatType :=
              orStr (some obj.name)
                (labels.headD (lit "stix-indicator"))
            confidence := importedConfidence obj.confidence
            severity :=
              if 70 ≤ importedConfidence obj.confidence then
                lit "high"
              else lit "medium"
            tags := labels }

/- Map indicator objects to importable records. -/
def objectsToIocs [Unicode]
    (objects : List StixObject) : List ImportedIoc :=
  objects.filterMap objectToIoc

---- The Pattern Of An Export

theorem run_chr_self
    (c : Char) (before rest : Str) (groups : List (Nat × Str)) :
    (chr c).run ⟨before, cp c :: rest, groups⟩ =
      [⟨cp c :: before, rest, groups⟩] := by
  simp [chr, run]

theorem run_chr_ne
    {c : Char} {x : Nat}
    (hOther : x ≠ cp c) (before rest : Str)
    (groups : List (Nat × Str)) :
    (chr c).run ⟨before, x :: rest, groups⟩ = [] := by
  simp [chr, run, hOther]

/- A cursor past a run of a class. -/
theorem skip_append
    {p : Nat → Bool} {a b : Str}
    (hClass : ∀ x ∈ a, p x = true)
    (hStop : ∀ x ∈ b.head?, p x = false) (before : Str)
    (groups : List (Nat × Str)) :
    Cursor.skip p ⟨before, a ++ b, groups⟩ =
      ⟨a.reverse ++ before, b, groups⟩ := by
  have hNone : b.takeWhile p = [] ∧ b.dropWhile p = b := by
    cases b with
    | nil => exact ⟨rfl, rfl⟩
    | cons x rest =>
        have hX := hStop x rfl
        simp [hX]
  unfold Cursor.skip
  rw [List.takeWhile_append_of_pos hClass,
    List.dropWhile_append_of_pos hClass, hNone.1, hNone.2,
    List.append_nil]

/- A value between quotes: the characters up to the second
one, as a group. -/
theorem run_quoted
    {w : Str}
    (hSome : w ≠ []) (hValue : ∀ c ∈ w, notQuote c = true)
    (before rest : Str) (groups : List (Nat × Str)) :
    ∃ stop : Cursor,
      (Regex.seq
        (.group 2 (.seq (.cls notQuote)
          (.star true (.cls notQuote))))
        (chr '\'')).run
          ⟨before, w ++ cp '\'' :: rest, groups⟩ = [stop] ∧
      stop.groups = (2, w) :: groups := by
  cases w with
  | nil => exact absurd rfl hSome
  | cons x w =>
      rw [List.forall_mem_cons] at hValue
      have hStop :
          ∀ y ∈ (cp '\'' :: rest).head?, notQuote y = false := by
        intro y hY
        cases hY
        decide
      have hUpto :=
        Cursor.upto_append
          ⟨before, x :: (w ++ cp '\'' :: rest), groups⟩
          ⟨w.reverse ++ x :: before, cp '\'' :: rest, groups⟩
          (x :: w) rfl
      refine ⟨⟨cp '\'' :: (w.reverse ++ x :: before), rest,
        (2, x :: w) :: groups⟩, ?_, rfl⟩
      have hFirst :
          (Regex.cls notQuote).run
              ⟨before, x :: (w ++ cp '\'' :: rest), groups⟩ =
            [⟨x :: before, w ++ cp '\'' :: rest, groups⟩] := by
        simp [run, hValue.1]
      rw [run, run, List.flatMap_map, run, List.cons_append,
        hFirst, List.flatMap_cons, List.flatMap_nil,
        List.append_nil, flatMap_star_greedy]
      · rw [skip_append hValue.2 hStop, run_chr_self, hUpto]
      · intro b y r hY
        refine run_chr_ne ?_ _ _ _
        simpa [notQuote] using hY

/- The value in a pattern: past the equals sign, between the
first two quotes. -/
theorem run_valueRe
    {object w : Str}
    (hObject : ∀ c ∈ object, notEquals c = true) (hSome : w ≠ [])
    (hValue : ∀ c ∈ w, notQuote c = true) (before rest : Str)
    (groups : List (Nat × Str)) :
    ∃ stop : Cursor,
      valueRe.run
        ⟨before, object ++ (lit "= '" ++
          (w ++ cp '\'' :: rest)), groups⟩ = [stop] ∧
      stop.groups = (2, w) :: groups := by
  rcases run_quoted hSome hValue
    (cp '\'' :: cp ' ' :: cp '=' :: (object.reverse ++ before))
    rest groups with ⟨stop, hQuoted, hGroups⟩
  refine ⟨stop, ?_, hGroups⟩
  have hLit :
      lit "= '" ++ (w ++ cp '\'' :: rest) =
        cp '=' :: ([cp ' '] ++
          (cp '\'' :: (w ++ cp '\'' :: rest))) := rfl
  have hEquals :
      ∀ y ∈ (cp '=' :: ([cp ' '] ++
        (cp '\'' :: (w ++ cp '\'' :: rest)))).head?,
        notEquals y = false := by
    intro y hY
    cases hY
    decide
  have hSpace : ∀ y ∈ [cp ' '], isSpace y = true := by
    decide
  have hQuote :
      ∀ y ∈ (cp '\'' :: (w ++ cp '\'' :: rest)).head?,
        isSpace y = false := by
    intro y hY
    cases hY
    decide
  unfold valueRe
  rw [run, hLit, flatMap_star_greedy]
  · rw [skip_append hObject hEquals, run, run_chr_self,
      List.flatMap_cons, List.flatMap_nil, List.append_nil, run,
      flatMap_star_greedy]
    · rw [skip_append hSpace hQuote, run, run_chr_self,
        List.flatMap_cons, List.flatMap_nil, List.append_nil]
      exact hQuoted
    · intro b y r hY
      rw [run, run_chr_ne]
      · rfl
      · intro hIs
        rw [hIs] at hY
        cases hY
  · intro b y r hY
    rw [run, run_chr_ne]
    · rfl
    · intro hIs
      rw [hIs] at hY
      cases hY

/- Past the object of a pattern, there is one way on. -/
theorem head_patternRe
    {c d : Cursor} {more : List Cursor} {object w rest : Str}
    (hKind : kindRe.run c = d :: more)
    (hAfter :
      d.after =
        object ++ (lit "= '" ++ (w ++ cp '\'' :: rest)))
    (hGroups : d.groups = [])
    (hObject : ∀ c ∈ object, notEquals c = true)
    (hSome : w ≠ [])
    (hValue : ∀ c ∈ w, notQuote c = true) :
    ∃ stop : Cursor,
      (patternRe.run c).head? = some stop ∧
      stop.groups = [(2, w), (1, c.upto d)] := by
  rcases run_valueRe hObject hSome hValue d.before rest
    [(1, c.upto d)] with ⟨stop, hRun, hStop⟩
  refine ⟨stop, ?_, hStop⟩
  unfold patternRe
  rw [run, run, hKind, List.map_cons, hGroups, hAfter]
  apply head?_flatMap_of_first
  rw [hRun]
  rfl

/- No object begins with a bracket. -/
theorem run_kindRe_bracket
    (before after : Str) :
    kindRe.run ⟨before, cp '[' :: after, []⟩ = [] :=
  rfl

/- The search finds the object after the bracket. -/
theorem search_pattern
    (object : Str)
    {rest w s : Str} {d : Cursor} {more : List Cursor}
    (hText :
      kindRe.run ⟨[cp '['], s, []⟩ = d :: more)
    (hAfter :
      d.after =
        object ++ (lit "= '" ++ (w ++ cp '\'' :: rest)))
    (hGroups : d.groups = [])
    (hObject : ∀ c ∈ object, notEquals c = true)
    (hSome : w ≠ [])
    (hValue : ∀ c ∈ w, notQuote c = true) :
    ∃ m : Match,
      patternRe.search (cp '[' :: s) = some m ∧
      m.group 1 = some (Cursor.upto ⟨[cp '['], s, []⟩ d) ∧
      m.group 2 = some w := by
  rcases head_patternRe hText hAfter hGroups hObject hSome
    hValue with ⟨stop, hHead, hStop⟩
  refine ⟨⟨⟨[cp '['], s, []⟩, stop⟩, ?_, ?_, ?_⟩
  · unfold search
    rw [searchFrom_later, searchFrom_here hHead]
    unfold patternRe
    rw [run, run, run_kindRe_bracket]
    rfl
  · simp [Match.group, hStop]
  · simp [Match.group, hStop]

---- The Types That Have A Pattern

/- What an import sees of a value: the escaped value up to
its first quote. -/
def shown (value : Str) : Str :=
  (escape value).takeWhile notQuote

theorem escape_eq_flatMap (value : Str) :
    escape value =
      value.flatMap fun c =>
        if c = cp '\\' ∨ c = cp '\'' then [cp '\\', c]
        else [c] := by
  have hSlash : replaceAll (lit "\\") (lit "\\\\") value = _ :=
    replaceAll_singleton (cp '\\') (lit "\\\\") value
  have hQuote (s : Str) :
      replaceAll (lit "'") (lit "\\'") s = _ :=
    replaceAll_singleton (cp '\'') (lit "\\'") s
  unfold escape
  rw [hSlash, hQuote, List.flatMap_assoc]
  congr 1
  funext c
  by_cases hC : c = cp '\\'
  · subst hC
    rfl
  · by_cases hD : c = cp '\''
    · subst hD
      rfl
    · simp [hC, hD]

theorem shown_ne_nil
    {value : Str}
    (hSome : value ≠ []) :
    shown value ≠ [] := by
  cases value with
  | nil => exact absurd rfl hSome
  | cons c rest =>
      unfold shown
      rw [escape_eq_flatMap, List.flatMap_cons]
      by_cases hC : c = cp '\\' ∨ c = cp '\''
      · rw [if_pos hC, List.cons_append,
          List.takeWhile_cons_of_pos (by decide)]
        exact List.cons_ne_nil _ _
      · have hQuote : notQuote c = true := by
          simpa [notQuote] using fun hIs => hC (Or.inr hIs)
        rw [if_neg hC, List.cons_append,
          List.takeWhile_cons_of_pos hQuote]
        exact List.cons_ne_nil _ _

theorem length_escape (value : Str) :
    (escape value).length =
      value.length +
        value.countP fun c => c == cp '\\' || c == cp '\'' := by
  rw [escape_eq_flatMap]
  induction value with
  | nil => rfl
  | cons c rest ih =>
      rw [List.flatMap_cons, List.length_append, ih,
        List.countP_cons]
      by_cases hC : c = cp '\\' ∨ c = cp '\''
      · have hTrue : (c == cp '\\' || c == cp '\'') = true := by
          simpa using hC
        rw [if_pos hC, if_pos hTrue]
        simp only [List.length_cons, List.length_nil]
        omega
      · have hFalse :
            ¬ (c == cp '\\' || c == cp '\'') = true := by
          simpa using hC
        rw [if_neg hC, if_neg hFalse]
        simp only [List.length_cons, List.length_nil]
        omega

theorem escape_eq_self_iff (value : Str) :
    escape value = value ↔
      ∀ c ∈ value, c ≠ cp '\'' ∧ c ≠ cp '\\' := by
  constructor
  · intro hSame c hC
    have hLength := length_escape value
    rw [hSame] at hLength
    have hCount :
        (value.countP fun c =>
          c == cp '\\' || c == cp '\'') = 0 := by
      omega
    have hPlain := List.countP_eq_zero.mp hCount c hC
    simp only [Bool.or_eq_true, beq_iff_eq, not_or] at hPlain
    exact ⟨hPlain.2, hPlain.1⟩
  · intro hPlain
    have hEach :
        ∀ c ∈ value,
          (if c = cp '\\' ∨ c = cp '\'' then [cp '\\', c]
            else [c]) = [c] := by
      intro c hC
      rw [if_neg]
      exact not_or.mpr ⟨(hPlain c hC).2, (hPlain c hC).1⟩
    rw [escape_eq_flatMap, List.flatMap_congr hEach]
    simp

/- Escaping adds no quote. -/
theorem notQuote_escape
    {value : Str}
    (hNone : ∀ c ∈ value, notQuote c = true) :
    ∀ c ∈ escape value, notQuote c = true := by
  intro c hC
  rw [escape_eq_flatMap, List.mem_flatMap] at hC
  rcases hC with ⟨d, hD, hC⟩
  split at hC
  · rcases List.mem_cons.mp hC with rfl | hLast
    · decide
    · rw [List.mem_singleton.mp hLast]
      exact hNone d hD
  · rw [List.mem_singleton.mp hC]
    exact hNone d hD

/- A value comes back if it has nothing to escape, and only
then. -/
theorem shown_eq_self_iff (value : Str) :
    shown value = value ↔
      ∀ c ∈ value, c ≠ cp '\'' ∧ c ≠ cp '\\' := by
  rw [← escape_eq_self_iff]
  constructor
  · intro hSame
    have hQuote : ∀ c ∈ value, notQuote c = true := by
      intro c hC
      rw [← hSame] at hC
      exact List.mem_takeWhile_imp hC
    have hAll : shown value = escape value :=
      List.takeWhile_eq_self_iff.mpr (notQuote_escape hQuote)
    exact hAll.symm.trans hSame
  · intro hSame
    have hPlain := (escape_eq_self_iff value).mp hSame
    unfold shown
    rw [hSame, List.takeWhile_eq_self_iff]
    intro c hC
    simpa [notQuote] using (hPlain c hC).1

theorem append_quote (s : Str) :
    ∃ rest,
      s ++ lit "']" =
        s.takeWhile notQuote ++ cp '\'' :: rest := by
  induction s with
  | nil => exact ⟨lit "]", rfl⟩
  | cons c s ih =>
      by_cases hC : c = cp '\''
      · subst hC
        exact ⟨s ++ lit "']", rfl⟩
      · have hQuote : notQuote c = true := by
          simpa [notQuote] using hC
        rcases ih with ⟨rest, hRest⟩
        refine ⟨rest, ?_⟩
        rw [List.takeWhile_cons_of_pos hQuote, List.cons_append,
          List.cons_append, hRest]

/- A pattern about an object of a known kind is read back as
the type of the kind and its text up to the first quote. -/
theorem parse_written [Unicode]
    {kind object t text : Str}
    (hRun :
      ∀ after, ∃ more,
        kindRe.run
            ⟨[cp '['], kind ++ (object ++ cp '=' :: after),
              []⟩ =
          ⟨kind.reverse ++ [cp '['], object ++ cp '=' :: after,
            []⟩ :: more)
    (hAscii : ∀ c ∈ kind, c < 128)
    (hType : kindType (asciiLowerStr kind) = some t)
    (hObject : ∀ c ∈ object, notEquals c = true)
    (hSome : text.takeWhile notQuote ≠ []) :
    parseIndicatorPattern (patternOf (kind ++ object) text) =
      some (t, text.takeWhile notQuote) := by
  rcases append_quote text with ⟨rest, hRest⟩
  generalize hIs : text.takeWhile notQuote = w at *
  have hText :
      patternOf (kind ++ object) text =
        cp '[' :: (kind ++ (object ++ (lit "= '" ++
          (w ++ cp '\'' :: rest)))) := by
    unfold patternOf
    simp only [List.append_assoc]
    rw [hRest]
    rfl
  rcases hRun (lit " '" ++ (w ++ cp '\'' :: rest))
    with ⟨more, hMore⟩
  have hQuote : ∀ c ∈ w, notQuote c = true := by
    intro c hC
    rw [← hIs] at hC
    exact List.mem_takeWhile_imp hC
  rcases search_pattern object hMore rfl rfl hObject hSome
    hQuote with ⟨m, hSearch, hKind, hValue⟩
  have hUpto := Cursor.upto_append
    ⟨[cp '['], kind ++ (object ++ cp '=' ::
      (lit " '" ++ (w ++ cp '\'' :: rest))), []⟩
    ⟨kind.reverse ++ [cp '['], object ++ cp '=' ::
      (lit " '" ++ (w ++ cp '\'' :: rest)), []⟩
    kind rfl
  have hSearch' : patternRe.search
      (patternOf (kind ++ object) text) = some m := by
    rw [hText]
    exact hSearch
  unfold parseIndicatorPattern
  rw [hSearch']
  simp only [hKind, hValue, hUpto, Option.getD_some,
    Unicode.lower_ascii kind hAscii, hType, Option.map_some]

/- An escaped value is read back as it is shown. -/
theorem parse_patternOf [Unicode]
    {kind object t value : Str}
    (hRun :
      ∀ after, ∃ more,
        kindRe.run
            ⟨[cp '['], kind ++ (object ++ cp '=' :: after),
              []⟩ =
          ⟨kind.reverse ++ [cp '['], object ++ cp '=' :: after,
            []⟩ :: more)
    (hAscii : ∀ c ∈ kind, c < 128)
    (hType : kindType (asciiLowerStr kind) = some t)
    (hObject : ∀ c ∈ object, notEquals c = true)
    (hSome : value ≠ []) :
    parseIndicatorPattern
        (patternOf (kind ++ object) (escape value)) =
      some (t, shown value) :=
  parse_written hRun hAscii hType hObject (shown_ne_nil hSome)

/- The types of the patterns, as a store writes them. -/
def patternTypes : List Str :=
  [lit "ip", lit "domain", lit "url", lit "email", lit "hash"]

/- The object of a hash pattern. -/
theorem run_kindRe_hash
    {algorithm : Str}
    (hAlgorithm : ∀ c ∈ algorithm, notEquals c = true)
    (after : Str) :
    ∃ more,
      kindRe.run
          ⟨[cp '['], (lit "file:hashes" ++ algorithm) ++
            ([] ++ cp '=' :: after), []⟩ =
        ⟨(lit "file:hashes" ++ algorithm).reverse ++ [cp '['],
          [] ++ cp '=' :: after, []⟩ :: more := by
  have hStop : ∀ y ∈ (cp '=' :: after).head?, notEquals y = false := by
    intro y hY
    cases hY
    decide
  have hOthers :
      kindRe.run
          ⟨[cp '['], lit "file:hashes" ++
            (algorithm ++ cp '=' :: after), []⟩ =
        hashKind.run
          ⟨[cp '['], lit "file:hashes" ++
            (algorithm ++ cp '=' :: after), []⟩ := by
    unfold kindRe
    simp (disch := decide) only [run, run_wordI_clash,
      List.nil_append]
  rw [List.nil_append, List.append_assoc, hOthers]
  unfold hashKind
  rw [run, run_wordI_self, List.flatMap_cons, List.flatMap_nil,
    List.append_nil]
  rcases run_star_greedy_cons notEquals
    ⟨(lit "file:hashes").reverse ++ [cp '['],
      algorithm ++ cp '=' :: after, []⟩ with ⟨more, hMore⟩
  refine ⟨more, ?_⟩
  rw [hMore, skip_append hAlgorithm hStop, List.reverse_append,
    List.append_assoc]

theorem notEquals_hashAlgorithm (value : Str) :
    ∀ c ∈ lit ".'" ++ hashAlgorithm value ++ lit "' ",
      notEquals c = true := by
  unfold hashAlgorithm
  split <;> decide

/- The object of the other patterns. -/
theorem run_kindRe_word
    {kind : Str}
    (hKind :
      kind ∈ [lit "ipv4-addr", lit "ipv6-addr",
        lit "domain-name", lit "url", lit "email-addr"])
    (object after : Str) :
    ∃ more,
      kindRe.run
          ⟨[cp '['], kind ++ (object ++ cp '=' :: after), []⟩ =
        ⟨kind.reverse ++ [cp '['], object ++ cp '=' :: after,
          []⟩ :: more := by
  simp only [List.mem_cons, List.not_mem_nil, or_false] at hKind
  unfold kindRe
  rcases hKind with rfl | rfl | rfl | rfl | rfl
  all_goals
    simp (disch := decide) only [run, run_wordI_clash,
      run_wordI_self, List.nil_append, List.cons_append]
    exact ⟨_, rfl⟩

/- A pattern of one of these objects is read back. -/
theorem parse_word [Unicode]
    (kind : Str) {t value : Str}
    (hKind :
      kind ∈ [lit "ipv4-addr", lit "ipv6-addr",
        lit "domain-name", lit "url", lit "email-addr"])
    (hType : kindType (asciiLowerStr kind) = some t)
    (hSome : value ≠ []) :
    parseIndicatorPattern
        (patternOf (kind ++ lit ":value ") (escape value)) =
      some (t, shown value) := by
  have hAscii : ∀ c ∈ kind, c < 128 := by
    clear hType
    revert kind
    decide
  exact parse_patternOf (run_kindRe_word hKind _) hAscii hType
    (by decide) hSome

theorem parse_hash [Unicode]
    {value : Str}
    (hSome : value ≠ []) :
    parseIndicatorPattern
        (patternOf
          (lit "file:hashes.'" ++ hashAlgorithm value ++
            lit "' ") (escape value)) =
      some (lit "hash", shown value) := by
  have hAlgorithm := notEquals_hashAlgorithm value
  have hObject :
      lit "file:hashes.'" ++ hashAlgorithm value ++ lit "' " =
        (lit "file:hashes" ++
          (lit ".'" ++ hashAlgorithm value ++ lit "' ")) ++
            [] := by
    rw [List.append_nil]
    simp only [List.append_assoc]
    rfl
  have hKind :
      (∀ c ∈ lit "file:hashes" ++
        (lit ".'" ++ hashAlgorithm value ++ lit "' "),
          c < 128) ∧
      kindType (asciiLowerStr (lit "file:hashes" ++
        (lit ".'" ++ hashAlgorithm value ++ lit "' "))) =
          some (lit "hash") := by
    unfold hashAlgorithm
    split <;> decide
  rw [hObject]
  exact parse_patternOf (run_kindRe_hash hAlgorithm) hKind.1
    hKind.2 (by simp) hSome

theorem lower_patternTypes [Unicode]
    {t : Str}
    (hType : t ∈ patternTypes) :
    Unicode.lower t = t := by
  have hAscii : ∀ c ∈ t, c < 128 := by
    revert t
    decide
  rw [Unicode.lower_ascii t hAscii]
  revert t
  decide

/- An exported pattern is read back as its type, and the
value it shows. -/
theorem parse_stixPattern [Unicode]
    {t value : Str}
    (hType : t ∈ patternTypes) (hSome : value ≠ []) :
    ∃ pattern,
      stixPattern (some t) value = some pattern ∧
      parseIndicatorPattern pattern =
        some (t, shown value) := by
  have hLower := lower_patternTypes hType
  unfold stixPattern
  simp only [Option.getD_some, hLower]
  simp only [patternTypes, List.mem_cons, List.not_mem_nil,
    or_false] at hType
  rcases hType with rfl | rfl | rfl | rfl | rfl
  · rw [if_pos rfl]
    refine ⟨_, rfl, ?_⟩
    split
    · exact parse_word _ (by decide) (by decide) hSome
    · exact parse_word _ (by decide) (by decide) hSome
  · rw [if_neg (by decide), if_pos rfl]
    exact ⟨_, rfl, parse_word (lit "domain-name")
      (by decide) (by decide) hSome⟩
  · rw [if_neg (by decide), if_neg (by decide), if_pos rfl]
    exact ⟨_, rfl, parse_word (lit "url")
      (by decide) (by decide) hSome⟩
  · rw [if_neg (by decide), if_neg (by decide),
      if_neg (by decide), if_pos rfl]
    exact ⟨_, rfl, parse_word (lit "email-addr")
      (by decide) (by decide) hSome⟩
  · rw [if_neg (by decide), if_neg (by decide),
      if_neg (by decide), if_neg (by decide), if_pos rfl]
    exact ⟨_, rfl, parse_hash hSome⟩

---- Round Trip

section

variable [Unicode]

/- A row that the exchange is about. -/
structure ExchangedRow (ioc : IocRow) : Prop where
  type_mem : ∃ t ∈ patternTypes, ioc.type = some t
  value_ne_nil : ioc.value ≠ []
  confidence_mem :
    ∃ n : Int, ioc.confidence = some n ∧ 0 ≤ n ∧ n ≤ 100

/- What a row and a record have in common. -/
def rowKey (ioc : IocRow) : Str × Str × Int :=
  (ioc.type.getD [], ioc.value, ioc.confidence.getD 0)

def recordKey (found : ImportedIoc) : Str × Str × Int :=
  (found.type, found.value, found.confidence)

/- The rows come back, in order. -/
def Lossless (tools : StixTools) (iocs : List IocRow) : Prop :=
  ∃ objects,
    buildObjects tools iocs = some objects ∧
    (objectsToIocs objects).map recordKey = iocs.map rowKey

/- A row whose value needs no escape and can be encoded, and
whose confidence does not count as none. -/
def PlainRow (ioc : IocRow) : Prop :=
  (∀ c ∈ ioc.value, c ≠ cp '\'' ∧ c ≠ cp '\\') ∧
    ioc.value.any isSurrogate = false ∧
    ioc.confidence ≠ some 0

/- The id of an object can be made if the value can be
encoded. -/
omit [Unicode] in
theorem detId_indicator
    (tools : StixTools) (value : Str) :
    detId tools (lit "indicator") value =
      if value.any isSurrogate then none
      else some (lit "indicator" ++ lit "--" ++ tools.uuid5
        ((lit "indicator" ++ lit ":" ++ value).flatMap
          encodeChar)) := by
  have hAny :
      (lit "indicator" ++ lit ":" ++ value).any isSurrogate =
        value.any isSurrogate := by
    rw [List.any_append]
    rfl
  unfold detId encodeUtf8
  rw [hAny]
  split
  · rfl
  · rfl

/- An indicator whose pattern is read is one record. -/
theorem objectToIoc_indicator
    (obj : StixIndicator) {t value : Str}
    (hParse :
      parseIndicatorPattern obj.pattern = some (t, value)) :
    ∃ found,
      objectToIoc (.indicator obj) = some found ∧
      recordKey found =
        (t, value, importedConfidence obj.confidence) := by
  simp only [objectToIoc, hParse]
  exact ⟨_, rfl, rfl⟩

theorem lower_ne_cve
    {ioc : IocRow}
    (hRow : ExchangedRow ioc) :
    Unicode.lower (ioc.type.getD []) ≠ lit "cve" := by
  rcases hRow.type_mem with ⟨t, hMem, hT⟩
  rw [hT, Option.getD_some, lower_patternTypes hMem]
  rintro rfl
  revert hMem
  decide

/- The object of a row has its pattern and confidence. -/
theorem iocToStix_indicator
    (tools : StixTools) {ioc : IocRow} {pattern : Str}
    (hRow : ExchangedRow ioc)
    (hPattern : stixPattern ioc.type ioc.value = some pattern)
    (hValue : ioc.value.any isSurrogate = false) :
    ∃ obj,
      iocToStix tools ioc = some (.indicator obj) ∧
      obj.pattern = pattern ∧
      obj.confidence = ioc.confidence.getD 0 := by
  unfold iocToStix
  rw [if_neg (lower_ne_cve hRow), detId_indicator, hValue,
    hPattern]
  exact ⟨_, rfl, rfl, rfl⟩

/- The object of a row is read back as one record. -/
theorem objectToIoc_iocToStix
    (tools : StixTools) {ioc : IocRow} (hRow : ExchangedRow ioc)
    (hValue : ioc.value.any isSurrogate = false) :
    ∃ obj found,
      iocToStix tools ioc = some obj ∧
      objectToIoc obj = some found ∧
      recordKey found =
        (ioc.type.getD [], shown ioc.value,
          importedConfidence (ioc.confidence.getD 0)) := by
  rcases hRow.type_mem with ⟨t, hMem, hT⟩
  rcases parse_stixPattern hMem hRow.value_ne_nil with
    ⟨pattern, hPattern, hParse⟩
  rw [← hT] at hPattern
  rcases iocToStix_indicator tools hRow hPattern hValue with
    ⟨obj, hObj, rfl, hConfidence⟩
  rcases objectToIoc_indicator obj hParse with
    ⟨found, hFound, hKey⟩
  refine ⟨.indicator obj, found, hObj, hFound, ?_⟩
  rw [hKey, hT, hConfidence]
  rfl

/- Without an encoding of the value there is no object. -/
theorem iocToStix_none
    (tools : StixTools) {ioc : IocRow} (hRow : ExchangedRow ioc)
    (hValue : ioc.value.any isSurrogate = true) :
    iocToStix tools ioc = none := by
  unfold iocToStix
  rw [if_neg (lower_ne_cve hRow), detId_indicator, hValue]
  rfl

omit [Unicode] in
theorem importedConfidence_eq_self_iff (confidence : Int) :
    importedConfidence confidence = confidence ↔
      confidence ≠ 0 := by
  unfold importedConfidence
  split <;> omega

/- The rows come back if the first of them does, and the
others do. -/
theorem lossless_cons
    (tools : StixTools) {ioc : IocRow} (hRow : ExchangedRow ioc)
    (rest : List IocRow) :
    Lossless tools (ioc :: rest) ↔
      PlainRow ioc ∧ Lossless tools rest := by
  rcases hRow.confidence_mem with ⟨n, hN, _, _⟩
  cases hValue : ioc.value.any isSurrogate with
  | true =>
      constructor
      · rintro ⟨objects, hObjects, _⟩
        unfold buildObjects at hObjects
        rw [List.mapM_cons, iocToStix_none tools hRow hValue]
          at hObjects
        cases hObjects
      · rintro ⟨⟨_, hPlain, _⟩, _⟩
        rw [hValue] at hPlain
        cases hPlain
  | false =>
      rcases objectToIoc_iocToStix tools hRow hValue with
        ⟨obj, found, hObj, hFound, hKey⟩
      have hFirst : recordKey found = rowKey ioc ↔ PlainRow ioc := by
        rw [hKey]
        unfold rowKey PlainRow
        rw [hN, hValue, Prod.mk.injEq, Prod.mk.injEq,
          shown_eq_self_iff, Option.getD_some,
          importedConfidence_eq_self_iff]
        simp
      rw [← hFirst]
      unfold Lossless buildObjects objectsToIocs
      rw [List.mapM_cons, hObj]
      constructor
      · rintro ⟨objects, hObjects, hSame⟩
        rcases Option.bind_eq_some_iff.mp hObjects with
          ⟨first, hFirstObj, hObjects⟩
        cases hFirstObj
        rcases Option.bind_eq_some_iff.mp hObjects with
          ⟨others, hOthers, hObjects⟩
        cases hObjects
        rw [List.filterMap_cons_some hFound, List.map_cons,
          List.map_cons, List.cons.injEq] at hSame
        exact ⟨hSame.1, others, hOthers, hSame.2⟩
      · rintro ⟨hSame, others, hOthers, hRest⟩
        refine ⟨obj :: others, ?_, ?_⟩
        · rw [hOthers]
          rfl
        · rw [List.filterMap_cons_some hFound, List.map_cons,
            List.map_cons, hSame, hRest]

/- Exporting rows and importing the objects returns the rows
exactly if no value has a quote or a backslash, every
value can be encoded, and no confidence is zero. -/
theorem stix_roundTrip_iff
    (tools : StixTools)
    (iocs : List IocRow)
    (hRows : ∀ ioc ∈ iocs, ExchangedRow ioc) :
    Lossless tools iocs ↔ ∀ ioc ∈ iocs, PlainRow ioc := by
  induction iocs with
  | nil =>
      constructor
      · intro _ ioc hIoc
        cases hIoc
      · intro _
        exact ⟨[], rfl, rfl⟩
  | cons ioc rest ih =>
      rw [List.forall_mem_cons] at hRows
      rw [lossless_cons tools hRows.1, List.forall_mem_cons,
        ih hRows.2]

end

---- Two Addresses

local instance stixUnicode : Unicode := asciiTables

/- Timestamps as they are stored, and no name UUIDs. -/
def plainTools : StixTools where
  uuid5 _ := []
  ts stored fallback := orStr stored (orStr fallback [])

/- An address that has been seen, and nothing else. -/
def urlRow (value : Str) : IocRow where
  type := some (lit "url")
  value := value
  threatType := none
  firstSeen := some (lit "2026-01-01T00:00:00.000Z")
  lastSeen := none
  confidence := some 80
  severity := some (lit "high")
  actor := none
  status := none
  tags := []

/- An address with an equals sign and spaces comes back. -/
theorem query_comes_back :
    Lossless plainTools
      [urlRow (lit "http://a.example/?q=1 or 2")] := by
  refine (stix_roundTrip_iff plainTools _ ?_).mpr ?_
  · rw [List.forall_mem_singleton]
    exact ⟨⟨lit "url", by decide, rfl⟩, by decide,
      80, rfl, by decide, by decide⟩
  · rw [List.forall_mem_singleton]
    exact ⟨by decide, by decide, by decide⟩

/- One with a quote is cut short. -/
theorem quote_cut_short :
    ExchangedRow (urlRow (lit "http://a.example/?q='1'")) ∧
      ¬ Lossless plainTools
        [urlRow (lit "http://a.example/?q='1'")] := by
  have hRow :
      ExchangedRow (urlRow (lit "http://a.example/?q='1'")) :=
    ⟨⟨lit "url", by decide, rfl⟩, by decide,
      80, rfl, by decide, by decide⟩
  refine ⟨hRow, ?_⟩
  intro hLossless
  rw [lossless_cons plainTools hRow] at hLossless
  exact absurd (hLossless.1.1 (cp '\'') (by decide)).1
    (by decide)

end ThreatOrbit.Intel
