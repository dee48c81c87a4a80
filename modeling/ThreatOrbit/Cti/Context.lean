import ThreatOrbit.Lib.Like
import ThreatOrbit.Cti.Lookup

/-
  The indicator that the context of a scan shows, beside the
  one that a lookup answers.

  A lookup of a bare value compares the hosts of the stored
  URLs, the scan their texts with patterns.
-/

---- The Indicator Of A Scan

namespace ThreatOrbit.Cti

open Lib

open Auth (HttpError)

open Intel (Instant)

section

variable [Unicode] [Normalizer]

def contextHost (v : Str) : Except PyError (Option Str) :=
  if isUrl v then
    (urlHost v).map fun host =>
      if host = [] then none else some host
  else .ok none

/- `(f"%://{v}/%", f"%://{v}", f"%://{v}?%")`. -/
def hostPatterns (v : Str) : List Str :=
  [lit "%://" ++ v ++ lit "/%", lit "%://" ++ v,
    lit "%://" ++ v ++ lit "?%"]

/- The rows whose values are like one of the patterns; the
query fails where a pattern is too long. -/
def likeRows
    (iocs : List Ioc)
    (v : Str) : Except PyError (List Ioc) :=
  if (hostPatterns v).any likeTooLong && !iocs.isEmpty then
    .error .databaseError
  else
    .ok (iocs.filter fun r =>
      (hostPatterns v).any fun pattern => like pattern r.value)

/- What `scope_sql` leaves of the indicators. -/
def scopedIocs
    (enforced : Bool)
    (org : Str)
    (iocs : List Ioc) : List Ioc :=
  iocs.filter fun r => !enforced || r.orgId == org

/- `scan_context`, up to the indicator. -/
def scanIndicator
    (enforced : Bool)
    (org : Str)
    (iocs : List Ioc)
    (value : Str) : Except RequestFailure (Option Ioc) :=
  let v := strip value
  if v = [] then
    .error (.http ⟨400, lit "value is required"⟩)
  else
    match contextHost v with
    | .error e => .error (.raised e)
    | .ok host =>
        let rows := scopedIocs enforced org iocs
        let row := (rowWith rows v).or
          (host.bind (rowWith rows))
        if row.isNone && isBare v then
          match likeRows rows v with
          | .error e => .error (.raised e)
          | .ok found => .ok (top Ioc.confidence found)
        else .ok row

end

---- What The Two Should Share

section

variable [Unicode] [Normalizer] [Capitals]

omit [Capitals] in
/- Whether a value is the query, the host of the query, or a
URL with the query as its host. -/
def Related (v value : Str) : Prop :=
  value = v ∨ contextHost v = .ok (some value) ∨
    hostOf value [] = some (Unicode.lower v)

/- The context of a scan has an indicator when the lookup
finds one, and both are related to the value. -/
structure ContextAgrees
    (F : Type)
    [Doubles F]
    (now : Instant)
    (enforced : Bool)
    (org : Str)
    (store : IocStore)
    (value : Str) : Prop where
  found :
    (∃ r, scanIndicator enforced org store.iocs value =
        .ok (some r)) ↔
      ∃ a, iocLookup F now store value = .ok a ∧
        a.found = true
  scanned :
    ∀ r, scanIndicator enforced org store.iocs value =
        .ok (some r) →
      Related (strip value) r.value
  looked :
    ∀ a, iocLookup F now store value = .ok a →
      a.found = true → Related (strip value) a.value

omit [Capitals] in
/- What makes them agree: a stored value is not empty and no
URL that cannot be parsed; and for a bare value that is not
stored, no row is like the patterns and none has its host, or
some row has its host, and so has the value of the first of
the most confident rows that are like the patterns. -/
structure ContextSafe
    (iocs : List Ioc)
    (v : Str) : Prop where
  stored :
    ∀ r, rowWith iocs v = some r →
      v ≠ [] ∧ (isUrl v = true → ∃ u, urlparse v = .ok u)
  hosted :
    rowWith iocs v = none → isBare v = true →
      ((∀ rows, likeRows iocs v = .ok rows → rows = []) ∧
          hostedOn iocs v = []) ∨
        ∃ rows r, likeRows iocs v = .ok rows ∧
          top Ioc.confidence rows = some r ∧
          hostOf r.value [] = some (Unicode.lower v) ∧
          hostedOn iocs v ≠ []

end

---- What A Lookup Finds

section

variable [Unicode] [Normalizer]

/- A host that a row of some type has. -/
theorem hostOf_untyped
    {value type host : Str}
    (hHost : hostOf value type = some host) :
    hostOf value [] = some host := by
  unfold hostOf at hHost ⊢
  simp only at hHost ⊢
  split at hHost
  · cases hHost
  · rename_i hUrl
    rw [if_neg hUrl]
    split at hHost
    · cases hHost
    · simpa using hHost

omit [Unicode] [Normalizer] in
theorem slash_of_isUrl
    {v : Str}
    (hUrl : isUrl v = true) :
    v.contains (cp '/') = true := by
  rw [isUrl, contains, decide_eq_true_eq] at hUrl
  rw [List.contains_iff_mem]
  exact hUrl.subset (by decide)

omit [Unicode] [Normalizer] in
theorem not_bare_of_isUrl
    {v : Str}
    (hUrl : isUrl v = true) :
    isBare v = false := by
  rw [isBare, slash_of_isUrl hUrl]
  rfl

theorem matchIndicator_related
    {store : IocStore} {v : Str} {r : Ioc}
    (hMatch : matchIndicator store.iocs v = .ok (some r)) :
    Related v r.value := by
  unfold matchIndicator at hMatch
  cases hExact : rowWith store.iocs v with
  | some row =>
      rw [hExact] at hMatch
      cases hMatch
      exact .inl (rowWith_some hExact).2
  | none =>
      rw [hExact] at hMatch
      simp only at hMatch
      split at hMatch
      · rename_i hUrl
        right
        left
        rw [contextHost, if_pos hUrl]
        cases hHost : urlHost v with
        | error e =>
            rw [hHost] at hMatch
            cases hMatch
        | ok host =>
            rw [hHost] at hMatch
            simp only [Except.map, Except.ok.injEq] at hMatch ⊢
            split at hMatch
            · cases hMatch
            · rename_i hSome
              rw [if_neg hSome, (rowWith_some hMatch).2]
      · split at hMatch
        · right
          right
          rw [Except.ok.injEq] at hMatch
          have hMem := mem_of_top hMatch
          rw [hostedOn, List.mem_filter, beq_iff_eq,
            store.host_eq r (List.mem_of_mem_filter
              (mem_of_top hMatch))] at hMem
          exact hostOf_untyped hMem.2
        · cases hMatch

variable [Capitals]
variable {F : Type} [Doubles F]
variable {now : Instant}
variable {store : IocStore}
variable {value : Str}

/- A lookup finds what is matched. -/
theorem iocLookup_found_iff
    {m : Str} :
    (∃ a, iocLookup F now store value = .ok a ∧
        a.found = true ∧ a.value = m) ↔
      ∃ r, matchIndicator store.iocs (strip value) =
        .ok (some r) ∧ r.value = m := by
  unfold iocLookup
  cases hMatch : matchIndicator store.iocs (strip value) with
  | error e => simp [hMatch, Except.map]
  | ok row =>
      cases row with
      | none => simp [hMatch, Except.map, lookupPayload]
      | some r => simp [hMatch, Except.map, lookupPayload]

/- A lookup answers with what is related to the value. -/
theorem iocLookup_related
    {a : LookupAnswer}
    (hAnswer : iocLookup F now store value = .ok a)
    (hFound : a.found = true) :
    Related (strip value) a.value := by
  rcases iocLookup_found_iff.mp ⟨a, hAnswer, hFound, rfl⟩ with
    ⟨r, hMatch, hIs⟩
  rw [← hIs]
  exact matchIndicator_related hMatch

end

---- When The Two Agree

section

variable [Unicode] [Normalizer]
variable {enforced : Bool}
variable {org : Str}
variable {iocs : List Ioc}
variable {value : Str}

omit [Unicode] [Normalizer] in
theorem scopedIocs_eq
    (hOne : ∀ r ∈ iocs, r.orgId = org) :
    scopedIocs enforced org iocs = iocs := by
  apply List.filter_eq_self.mpr
  intro r hR
  simp [hOne r hR]

/- A scan of a stored value finds its row, unless it is empty
or a URL that cannot be parsed. -/
theorem scan_stored_iff
    {r : Ioc}
    (hOne : ∀ r ∈ iocs, r.orgId = org)
    (hExact : rowWith iocs (strip value) = some r) (found : Ioc) :
    scanIndicator enforced org iocs value = .ok (some found) ↔
      found = r ∧ strip value ≠ [] ∧
        (isUrl (strip value) = true →
          ∃ u, urlparse (strip value) = .ok u) := by
  unfold scanIndicator
  by_cases hEmpty : strip value = []
  · simp [hEmpty]
  · simp only [hEmpty, if_false, scopedIocs_eq hOne, hExact,
      Option.some_or, Option.isNone_some, Bool.false_and,
      Bool.false_eq_true]
    unfold contextHost urlHost
    cases hUrl : isUrl (strip value) with
    | true =>
        cases urlparse (strip value) with
        | error e => simp [Except.map]
        | ok u =>
            simp only [Except.map, if_true]
            simp [hEmpty, eq_comm (a := r)]
    | false =>
        simp only [Bool.false_eq_true, if_false]
        simp [hEmpty, eq_comm (a := r)]

/- A scan of a URL that is not stored finds what a lookup
matches. -/
theorem scan_url_iff
    (hOne : ∀ r ∈ iocs, r.orgId = org)
    (hExact : rowWith iocs (strip value) = none)
    (hUrl : isUrl (strip value) = true) (found : Ioc) :
    scanIndicator enforced org iocs value = .ok (some found) ↔
      matchIndicator iocs (strip value) = .ok (some found) := by
  have hEmpty : strip value ≠ [] := by
    intro hNone
    rw [hNone] at hUrl
    exact absurd hUrl (by decide)
  unfold scanIndicator matchIndicator contextHost
  simp only [hEmpty, if_false, scopedIocs_eq hOne, hExact, hUrl,
    if_true, Option.none_or, not_bare_of_isUrl hUrl,
    Bool.and_false, Bool.false_eq_true]
  cases urlHost (strip value) with
  | error e => simp [Except.map]
  | ok host =>
      by_cases hHost : host = []
      · simp [Except.map, hHost]
      · simp [Except.map, hHost]

/- A scan of a bare value that is not stored finds the most
confident of the rows that are like the patterns. -/
theorem scan_bare_iff
    (hOne : ∀ r ∈ iocs, r.orgId = org)
    (hExact : rowWith iocs (strip value) = none)
    (hBare : isBare (strip value) = true) (found : Ioc) :
    scanIndicator enforced org iocs value = .ok (some found) ↔
      ∃ rows, likeRows iocs (strip value) = .ok rows ∧
        top Ioc.confidence rows = some found := by
  have hUrl : isUrl (strip value) = false := by
    cases hUrl : isUrl (strip value) with
    | false => rfl
    | true =>
        rw [not_bare_of_isUrl hUrl] at hBare
        cases hBare
  have hEmpty : strip value ≠ [] := by
    intro hNone
    rw [hNone] at hBare
    exact absurd hBare (by decide)
  unfold scanIndicator contextHost
  simp only [hEmpty, if_false, scopedIocs_eq hOne, hExact, hUrl,
    Bool.false_eq_true, Option.none_or, Option.bind_none,
    Option.isNone_none, hBare, Bool.and_true, if_true]
  cases likeRows iocs (strip value) with
  | error e => simp
  | ok rows => simp

theorem scan_neither
    (hOne : ∀ r ∈ iocs, r.orgId = org)
    (hExact : rowWith iocs (strip value) = none)
    (hUrl : isUrl (strip value) = false)
    (hBare : isBare (strip value) = false) (found : Ioc) :
    scanIndicator enforced org iocs value ≠
      .ok (some found) := by
  unfold scanIndicator contextHost
  by_cases hEmpty : strip value = []
  · simp [hEmpty]
  · simp [hEmpty, scopedIocs_eq hOne, hExact, hUrl, hBare]

/- A value is matched by the scan exactly where the lookup
matches it, and then by what is related to it. -/
def MatchedAlike
    (enforced : Bool)
    (org : Str)
    (iocs : List Ioc)
    (value : Str) : Prop :=
  ((∃ r, scanIndicator enforced org iocs value =
      .ok (some r)) ↔
    ∃ r, matchIndicator iocs (strip value) = .ok (some r)) ∧
  ∀ r, scanIndicator enforced org iocs value = .ok (some r) →
    Related (strip value) r.value

/- A stored value is matched by its row. -/
theorem matchedAlike_stored
    {row : Ioc}
    (hOne : ∀ r ∈ iocs, r.orgId = org)
    (hExact : rowWith iocs (strip value) = some row) :
    MatchedAlike enforced org iocs value ↔
      ContextSafe iocs (strip value) := by
  have hMatch : matchIndicator iocs (strip value) = .ok (some row) := by
    unfold matchIndicator
    rw [hExact]
  unfold MatchedAlike
  simp only [scan_stored_iff hOne hExact, hMatch,
    Except.ok.injEq, Option.some.injEq, exists_eq',
    iff_true, exists_eq_left]
  constructor
  · rintro ⟨hOk, _⟩
    refine ⟨fun r _ => hOk, ?_⟩
    intro hNone
    rw [hExact] at hNone
    cases hNone
  · intro hSafe
    refine ⟨hSafe.stored row hExact, ?_⟩
    rintro r ⟨rfl, _⟩
    exact .inl (rowWith_some hExact).2

/- A value that is neither stored nor bare asks for nothing. -/
theorem contextSafe_of_not_bare
    (hExact : rowWith iocs value = none)
    (hBare : isBare value = false) :
    ContextSafe iocs value := by
  constructor
  · intro r hR
    rw [hExact] at hR
    cases hR
  · intro _ hTrue
    rw [hBare] at hTrue
    cases hTrue

theorem matchedAlike_url
    {store : IocStore}
    (hOne : ∀ r ∈ store.iocs, r.orgId = org)
    (hExact : rowWith store.iocs (strip value) = none)
    (hUrl : isUrl (strip value) = true) :
    MatchedAlike enforced org store.iocs value := by
  unfold MatchedAlike
  simp only [scan_url_iff hOne hExact hUrl]
  exact ⟨trivial, fun r => matchIndicator_related⟩

theorem matchedAlike_neither
    (hOne : ∀ r ∈ iocs, r.orgId = org)
    (hExact : rowWith iocs (strip value) = none)
    (hUrl : isUrl (strip value) = false)
    (hBare : isBare (strip value) = false) :
    MatchedAlike enforced org iocs value := by
  have hNone : ∀ found,
      scanIndicator enforced org iocs value ≠
        .ok (some found) :=
    scan_neither hOne hExact hUrl hBare
  have hMatch : matchIndicator iocs (strip value) = .ok none := by
    unfold matchIndicator
    simp [hExact, hUrl, hBare]
  constructor
  · simp [hNone, hMatch]
  · intro r hR
    exact absurd hR (hNone r)

/- A bare value that is not stored is matched where it is the
host of a stored URL. -/
theorem matchIndicator_bare_iff
    (hExact : rowWith iocs value = none)
    (hUrl : isUrl value = false) (hBare : isBare value = true) :
    (∃ r, matchIndicator iocs value = .ok (some r)) ↔
      hostedOn iocs value ≠ [] := by
  unfold matchIndicator
  simp only [hExact, hUrl, Bool.false_eq_true, if_false, hBare,
    if_true, Except.ok.injEq]
  rw [← Option.isSome_iff_exists, Option.isSome_iff_ne_none,
    Ne, Ne, top_eq_none_iff]

theorem related_of_unstored_iff
    {r : Ioc}
    (hExact : rowWith iocs value = none)
    (hUrl : isUrl value = false) (hR : r ∈ iocs) :
    Related value r.value ↔
      hostOf r.value [] = some (Unicode.lower value) := by
  constructor
  · rintro (hIs | hHost | hHosted)
    · unfold rowWith at hExact
      rw [List.find?_eq_none] at hExact
      exact absurd (beq_iff_eq.mpr hIs) (hExact r hR)
    · simp [contextHost, hUrl] at hHost
    · exact hHosted
  · exact fun hHosted => .inr (.inr hHosted)

omit [Unicode] [Normalizer] in
theorem mem_of_likeRows
    {rows : List Ioc} {r : Ioc}
    (hRows : likeRows iocs value = .ok rows)
    (hTop : top Ioc.confidence rows = some r) :
    r ∈ iocs := by
  unfold likeRows at hRows
  split at hRows
  · cases hRows
  · cases hRows
    exact List.mem_of_mem_filter (mem_of_top hTop)

/- A bare value that is not stored is matched alike where the
patterns find what the hosts find. -/
theorem matchedAlike_bare
    (hOne : ∀ r ∈ iocs, r.orgId = org)
    (hExact : rowWith iocs (strip value) = none)
    (hUrl : isUrl (strip value) = false)
    (hBare : isBare (strip value) = true) :
    MatchedAlike enforced org iocs value ↔
      ContextSafe iocs (strip value) := by
  unfold MatchedAlike
  rw [matchIndicator_bare_iff hExact hUrl hBare]
  simp only [scan_bare_iff hOne hExact hBare]
  constructor
  · rintro ⟨hFound, hScanned⟩
    refine ⟨?_, fun _ _ => ?_⟩
    · intro r hR
      rw [hExact] at hR
      cases hR
    · by_cases hHosted : hostedOn iocs (strip value) = []
      · left
        refine ⟨?_, hHosted⟩
        intro rows hRows
        by_contra hSome
        have hTop : top Ioc.confidence rows ≠ none :=
          mt top_eq_none_iff.mp hSome
        rcases Option.ne_none_iff_exists'.mp hTop with ⟨r, hR⟩
        exact hFound.mp ⟨r, rows, hRows, hR⟩ hHosted
      · right
        rcases hFound.mpr hHosted with ⟨r, rows, hRows, hR⟩
        have hOn : hostOf r.value [] =
            some (Unicode.lower (strip value)) :=
          (related_of_unstored_iff hExact hUrl
            (mem_of_likeRows hRows hR)).mp
            (hScanned r ⟨rows, hRows, hR⟩)
        exact ⟨rows, r, hRows, hR, hOn, hHosted⟩
  · intro hSafe
    rcases hSafe.hosted hExact hBare with
      ⟨hNone, hHosted⟩ | ⟨rows, r, hRows, hR, hHost, hHosted⟩
    · have hNothing : ∀ r, ¬ ∃ rows,
          likeRows iocs (strip value) = .ok rows ∧
            top Ioc.confidence rows = some r := by
        rintro r ⟨rows, hRows, hR⟩
        rw [hNone rows hRows] at hR
        cases hR
      constructor
      · constructor
        · rintro ⟨r, hR⟩
          exact absurd hR (hNothing r)
        · intro hSome
          exact absurd hHosted hSome
      · intro r hR
        exact absurd hR (hNothing r)
    · constructor
      · exact iff_of_true ⟨r, rows, hRows, hR⟩ hHosted
      · rintro other ⟨more, hMore, hOther⟩
        rw [hRows] at hMore
        cases hMore
        rw [hR] at hOther
        cases hOther
        exact (related_of_unstored_iff hExact hUrl
          (mem_of_likeRows hRows hR)).mpr hHost

theorem matchedAlike_iff
    {store : IocStore}
    (hOne : ∀ r ∈ store.iocs, r.orgId = org) :
    MatchedAlike enforced org store.iocs value ↔
      ContextSafe store.iocs (strip value) := by
  cases hExact : rowWith store.iocs (strip value) with
  | some row => exact matchedAlike_stored hOne hExact
  | none =>
      cases hUrl : isUrl (strip value) with
      | true =>
          exact iff_of_true (matchedAlike_url hOne hExact hUrl)
            (contextSafe_of_not_bare hExact
              (not_bare_of_isUrl hUrl))
      | false =>
          cases hBare : isBare (strip value) with
          | false =>
              exact iff_of_true
                (matchedAlike_neither hOne hExact hUrl hBare)
                (contextSafe_of_not_bare hExact hBare)
          | true =>
              exact matchedAlike_bare hOne hExact hUrl hBare

variable [Capitals]

/- In a store of one workspace, the context of a scan and the
lookup agree on a value exactly where it is stored, not
empty and no URL that cannot be parsed, or not stored and
not bare, or bare and the patterns find what the hosts
find. -/
theorem context_agrees_iff
    (F : Type)
    [Doubles F]
    (now : Instant)
    (enforced : Bool)
    {org : Str}
    (store : IocStore)
    (hOne : ∀ r ∈ store.iocs, r.orgId = org)
    (value : Str) :
    ContextAgrees F now enforced org store value ↔
      ContextSafe store.iocs (strip value) := by
  have hLooked :
      (∃ a, iocLookup F now store value = .ok a ∧
          a.found = true) ↔
        ∃ r, matchIndicator store.iocs (strip value) =
          .ok (some r) := by
    constructor
    · rintro ⟨a, hA, hFound⟩
      rcases iocLookup_found_iff.mp ⟨a, hA, hFound, rfl⟩ with
        ⟨r, hR, _⟩
      exact ⟨r, hR⟩
    · rintro ⟨r, hR⟩
      have hAnswer : ∃ a, iocLookup F now store value = .ok a ∧
          a.found = true ∧ a.value = r.value :=
        iocLookup_found_iff.mpr ⟨r, hR, rfl⟩
      rcases hAnswer with ⟨a, hA, hFound, _⟩
      exact ⟨a, hA, hFound⟩
  rw [← matchedAlike_iff hOne]
  unfold MatchedAlike
  rw [← hLooked]
  constructor
  · exact fun hAgrees => ⟨hAgrees.found, hAgrees.scanned⟩
  · rintro ⟨hFound, hScanned⟩
    exact ⟨hFound, hScanned, fun a => iocLookup_related⟩

end

---- Concrete Scans

local instance contextUnicode : Unicode := asciiTables

local instance contextCapitals : Capitals := asciiCapitals

local instance contextNormalizer : Normalizer := ⟨id⟩

attribute [local instance] exactDoubles

def urlOn (value host : String) : Ioc :=
  { heldBy "org-a" "high" with
    type := lit "url"
    value := lit value
    host := some (lit host) }

def plainUrl : IocStore where
  iocs := [urlOn "s://a.b/" "a.b"]
  observations := []
  grades := []
  host_eq := by decide

def urlWithPort : IocStore where
  iocs := [urlOn "s://a.b:1/" "a.b"]
  observations := []
  grades := []
  host_eq := by decide

/- The scan and the lookup of a host find a URL on it. -/
theorem plain_url_agrees :
    ContextAgrees ℝ lookupTime true (lit "org-a") plainUrl
      (lit "a.b") := by
  have hOne : ∀ r ∈ plainUrl.iocs, r.orgId = lit "org-a" := by
    decide
  apply (context_agrees_iff ℝ lookupTime true plainUrl hOne
    (lit "a.b")).mpr
  have hStrip : strip (lit "a.b") = lit "a.b" := by decide
  rw [hStrip]
  constructor
  · intro r hR
    exact ⟨by decide, fun hUrl => absurd hUrl (by decide)⟩
  · intro _ _
    right
    exact ⟨plainUrl.iocs, urlOn "s://a.b/" "a.b", rfl, rfl,
      by decide, by decide⟩

/- One with a port is found by the lookup alone. -/
theorem url_with_port_disagrees :
    ¬ ContextAgrees ℝ lookupTime true (lit "org-a") urlWithPort
      (lit "a.b") := by
  intro hAgrees
  have hOne : ∀ r ∈ urlWithPort.iocs, r.orgId = lit "org-a" := by
    decide
  have hLooked :
      ∃ a, iocLookup ℝ lookupTime urlWithPort (lit "a.b") =
          .ok a ∧ a.found = true ∧
        a.value = (urlOn "s://a.b:1/" "a.b").value :=
    iocLookup_found_iff.mpr
      ⟨urlOn "s://a.b:1/" "a.b", by rfl, rfl⟩
  rcases hLooked with ⟨a, hA, hFound, _⟩
  rcases hAgrees.found.mpr ⟨a, hA, hFound⟩ with ⟨r, hR⟩
  rcases (scan_bare_iff hOne (by decide) (by decide) r).mp hR with
    ⟨rows, hRows, hTop⟩
  have hNone : likeRows urlWithPort.iocs (strip (lit "a.b")) =
      .ok [] := by
    rfl
  rw [hNone] at hRows
  cases hRows
  cases hTop

end ThreatOrbit.Cti
