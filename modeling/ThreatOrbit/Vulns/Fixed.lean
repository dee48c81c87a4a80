import ThreatOrbit.Vulns.Coverage

/-
  Fixed versions against the scanner's catalogue.

  The built-in catalogue states the affected versions in two
  forms, the synced one in a third; all three are bounds. A
  version is compared by its groups of digits, so a letter
  after them does not count.
-/

---- The Forms Of An Entry

namespace ThreatOrbit.Vulns

open Lib

/- The key of an entry that states what is affected. -/
inductive Affected where
  | lt (fixed : Str)
  | range (lo hi : Str)
  | bounds (bounds : Bounds)

/- `_lt`. -/
def lowerThan (a b : Str) : Option Bool :=
  (verCmp a b).map (· = .lt)

/- `_in_range`: the end is compared when the start holds. -/
def inRange (v lo hi : Str) : Option Bool :=
  match verCmp v lo with
  | none => none
  | some .lt => some false
  | some _ => (verCmp v hi).map (· ≠ .gt)

/- `_matches`. -/
def Affected.affects : Affected → Str → Option Bool
| .lt fixed, version => lowerThan version fixed
| .range lo hi, version => inRange version lo hi
| .bounds b, version => b.covers version

/- Every form as bounds. -/
def Affected.toBounds : Affected → Bounds
| .lt fixed => ⟨none, false, some fixed, false⟩
| .range lo hi => ⟨some lo, true, some hi, true⟩
| .bounds b => b

theorem affects_eq_covers
    (a : Affected) (version : Str) :
    a.affects version = a.toBounds.covers version := by
  cases a with
  | lt fixed =>
      simp only [Affected.affects, Affected.toBounds,
        Bounds.covers, Bounds.reaches, Bounds.stays, lowerThan]
      cases hStop : verCmp version fixed with
      | none => simp
      | some c => cases c <;> simp
  | range lo hi =>
      simp only [Affected.affects, Affected.toBounds,
        Bounds.covers, Bounds.reaches, Bounds.stays, inRange]
      cases hStart : verCmp version lo with
      | none => simp
      | some c =>
          cases hStop : verCmp version hi with
          | none => cases c <;> simp
          | some d => cases c <;> cases d <;> simp
  | bounds b => rfl

/- An entry of the built-in catalogue. -/
def listed
    (cve severity : String)
    (cvss : Rat)
    (affected : Affected)
    (fixed summary : String)
    (kev exploit : Bool) : Entry :=
  { cve := lit cve
    cvss := cvss
    severity := lit severity
    bounds := affected.toBounds
    fixed := some (lit fixed)
    summary := lit summary
    kev := kev
    exploit := exploit }

/- The two products of the path traversal. -/
def apacheTraversal : Entry :=
  listed "CVE-2021-41773" "high" (15 / 2)
    (.range (lit "2.4.49") (lit "2.4.49")) "2.4.51"
    "Path traversal & RCE in Apache HTTP Server 2.4.49"
    true true

/- `CVE_CATALOGUE`. -/
def cveCatalogue : List (Str × List Entry) :=
  [(lit "log4j",
      [listed "CVE-2021-44228" "critical" 10
        (.lt (lit "2.15.0")) "2.15.0"
        "Log4Shell - JNDI RCE in Apache Log4j 2" true true]),
    (lit "openssl",
      [listed "CVE-2014-0160" "high" (15 / 2)
        (.range (lit "1.0.1") (lit "1.0.1f")) "1.0.1g"
        "Heartbleed - TLS heartbeat memory disclosure"
        true true,
      listed "CVE-2022-3602" "high" (15 / 2)
        (.range (lit "3.0.0") (lit "3.0.6")) "3.0.7"
        "X.509 email address buffer overflow" false false]),
    (lit "apache httpd", [apacheTraversal]),
    (lit "httpd", [apacheTraversal]),
    (lit "nginx",
      [listed "CVE-2019-20372" "medium" (53 / 10)
        (.lt (lit "1.17.7")) "1.17.7"
        "HTTP request smuggling via error_page" false false]),
    (lit "openssh",
      [listed "CVE-2024-6387" "high" (81 / 10)
        (.range (lit "8.5") (lit "9.7")) "9.8"
        "regreSSHion - unauthenticated RCE in OpenSSH server"
        false true]),
    (lit "sudo",
      [listed "CVE-2021-3156" "high" (39 / 5)
        (.lt (lit "1.9.5p2")) "1.9.5p2"
        "Baron Samedit - heap overflow privilege escalation"
        true true]),
    (lit "exim",
      [listed "CVE-2019-10149" "critical" (49 / 5)
        (.range (lit "4.87") (lit "4.91")) "4.92"
        "RCE in Exim deliver_message()" true true]),
    (lit "windows",
      [listed "CVE-2020-0796" "critical" 10
        (.range (lit "10.0") (lit "10.0")) "patched"
        "SMBGhost - SMBv3 compression RCE" true true])]

---- Letters In A Version

/- What comes after a version without any digit. -/
def NoDigits (text : Str) : Prop :=
  ∀ c ∈ text, decimal c = none

theorem digitRuns_of_noDigits
    {text : Str}
    (hText : NoDigits text) :
    ∀ run, digitRuns run text = digitRuns run [] := by
  induction text with
  | nil =>
      intro run
      rfl
  | cons c rest ih =>
      intro run
      have hRest := ih fun d hd =>
        hText d (List.mem_cons_of_mem _ hd)
      have hHead := hText c List.mem_cons_self
      by_cases hRun : run = []
      · simp [digitRuns, hHead, hRest, hRun]
      · simp [digitRuns, hHead, hRest, hRun]

theorem digitRuns_append
    {text : Str}
    (hText : NoDigits text) (v : Str) :
    ∀ run, digitRuns run (v ++ text) = digitRuns run v := by
  induction v with
  | nil =>
      intro run
      exact digitRuns_of_noDigits hText run
  | cons c rest ih =>
      intro run
      rw [List.cons_append, digitRuns, digitRuns]
      simp only [ih]

theorem verTuple_append
    {text : Str}
    (hText : NoDigits text) (v : Str) :
    verTuple (v ++ text) = verTuple v := by
  unfold verTuple
  rw [digitRuns_append hText]

theorem verCmp_self
    {v : Str}
    (hRead : verTuple v ≠ none) :
    verCmp v v = some .eq := by
  unfold verCmp
  cases hTuple : verTuple v with
  | none => exact absurd hTuple hRead
  | some t => simp

/- Versions that differ in letters at the end are equal. -/
theorem verCmp_letters
    {v first second : Str}
    (hRead : verTuple v ≠ none) (hFirst : NoDigits first)
    (hSecond : NoDigits second) :
    verCmp (v ++ first) (v ++ second) = some .eq := by
  have hSelf := verCmp_self hRead
  unfold verCmp at hSelf ⊢
  rw [verTuple_append hFirst, verTuple_append hSecond]
  exact hSelf

---- Fixed Versions

section

/- The built-in entries whose own fixed version is in their
range. -/
theorem cveCatalogue_misread :
    ∀ p ∈ cveCatalogue, ∀ e ∈ p.2, ∀ fixed ∈ e.fixed,
      e.bounds.covers fixed ≠ some false →
        p.1 = lit "openssl" ∧ fixed = lit "1.0.1g" := by
  decide

/- Heartbleed covers the version that fixes it. -/
theorem cveCatalogue_openssl :
    ∃ e ∈ entriesOf cveCatalogue (lit "openssl"),
      e.fixed = some (lit "1.0.1g") ∧
        e.bounds.covers (lit "1.0.1g") = some true := by
  decide

variable [Unicode]

/- No finding is about the version that fixes it. -/
def NeverFixed
    (software : List Software)
    (extra : List (Str × List Entry)) : Prop :=
  ∀ found,
    scanSoftware cveCatalogue software extra = some found →
      ∀ f ∈ found, f.fixedIn ≠ some f.version

/- A version with a number that `int` refuses is compared. -/
def Unreadable
    (software : List Software)
    (extra : List (Str × List Entry)) : Prop :=
  ∃ product version,
    Installed software product version ∧
      ∃ e ∈ entriesOf cveCatalogue product ++
          entriesOf extra product,
        e.bounds.covers version = none

/- A version is in a range, by the groups of digits. -/
structure Bounds.Within
    (b : Bounds)
    (version : Str) : Prop where
  bounded : ¬ (b.start = none ∧ b.stop = none)
  above :
    ∀ lo, b.start = some lo →
      verCmp version lo = some .gt ∨
        b.startIncl = true ∧ verCmp version lo = some .eq
  below :
    ∀ hi, b.stop = some hi →
      verCmp version hi = some .lt ∨
        b.stopIncl = true ∧ verCmp version hi = some .eq

omit [Unicode] in
theorem covers_iff_within
    (b : Bounds) (version : Str) :
    b.covers version = some true ↔ b.Within version := by
  have hAbove :
      b.reaches version = some true ↔
        ∀ lo, b.start = some lo →
          verCmp version lo = some .gt ∨
            b.startIncl = true ∧ verCmp version lo = some .eq := by
    unfold Bounds.reaches
    cases hStart : b.start with
    | none => simp
    | some lo =>
        cases hCmp : verCmp version lo with
        | none => simp [hCmp]
        | some c => cases c <;> simp [hCmp]
  have hBelow :
      b.stays version = some true ↔
        ∀ hi, b.stop = some hi →
          verCmp version hi = some .lt ∨
            b.stopIncl = true ∧ verCmp version hi = some .eq := by
    unfold Bounds.stays
    cases hStop : b.stop with
    | none => simp
    | some hi =>
        cases hCmp : verCmp version hi with
        | none => simp [hCmp]
        | some c => cases c <;> simp [hCmp]
  rw [covers_eq_true, hAbove, hBelow]
  constructor
  · rintro ⟨hBounded, hStart, hStop⟩
    exact ⟨hBounded, hStart, hStop⟩
  · rintro ⟨hBounded, hStart, hStop⟩
    exact ⟨hBounded, hStart, hStop⟩

/- An entry of the extra catalogue has its fixed version in
its own range, and that version is installed. -/
def Misread
    (software : List Software)
    (extra : List (Str × List Entry)) : Prop :=
  ∃ product version,
    Installed software product version ∧
      ∃ e ∈ entriesOf extra product,
        e.fixed = some version ∧ e.bounds.Within version

theorem scanSoftware_isSome
    {software : List Software} {extra : List (Str × List Entry)}
    (hKeys : (extra.map Prod.fst).Nodup) :
    (scanSoftware cveCatalogue software extra).isSome = true ↔
      ¬ Unreadable software extra := by
  unfold scanSoftware Unreadable
  rw [scanItems_isSome]
  simp only [entriesOf_merge _ hKeys]
  push Not
  exact Iff.rfl

/- A fixed version is never reported exactly if the scan
raises, or OpenSSL 1.0.1g is not installed, and no fixed
version of an extra entry that has it in its range. -/
theorem fixed_never_reported_iff
    {extra : List (Str × List Entry)}
    (hKeys : (extra.map Prod.fst).Nodup)
    (software : List Software) :
    NeverFixed software extra ↔
      Unreadable software extra ∨
        ¬ Installed software (lit "openssl") (lit "1.0.1g") ∧
          ¬ Misread software extra := by
  constructor
  · intro hNever
    by_cases hRaises : Unreadable software extra
    · exact Or.inl hRaises
    · have hSome := (scanSoftware_isSome hKeys).mpr hRaises
      rcases Option.isSome_iff_exists.mp hSome with
        ⟨found, hScan⟩
      have hQuiet := hNever found hScan
      -- a covering entry of the merged catalogue is reported
      have hReport :
          ∀ product version,
            Installed software product version →
            ∀ e ∈ entriesOf cveCatalogue product ++
                entriesOf extra product,
              e.fixed = some version →
                e.bounds.covers version ≠ some true := by
        intro product version hHas e hEntry hFixed hCovers
        have hMerged :
            e ∈ entriesOf (mergeCatalogue cveCatalogue extra)
              product := by
          rw [entriesOf_merge product hKeys]
          exact hEntry
        have hFound :=
          (mem_scanItems hScan (e.finding product version)).mpr
            ⟨product, version, hHas, e,
              hMerged, hCovers, rfl⟩
        exact hQuiet _ hFound hFixed
      refine Or.inr ⟨?_, ?_⟩
      · intro hHas
        rcases cveCatalogue_openssl with
          ⟨e, hEntry, hFixed, hCovers⟩
        exact hReport _ _ hHas e
          (List.mem_append_left _ hEntry) hFixed hCovers
      · rintro ⟨product, version, hHas, e, hEntry, hFixed,
          hWithin⟩
        exact hReport _ _ hHas e
          (List.mem_append_right _ hEntry) hFixed
          ((covers_iff_within _ _).mpr hWithin)
  · rintro (hRaises | ⟨hOpenssl, hExtra⟩) found hScan f hFound
    · have hSome : (scanSoftware cveCatalogue software
          extra).isSome = true := by
        rw [hScan]
        rfl
      exact absurd hRaises
        ((scanSoftware_isSome hKeys).mp hSome)
    · rcases (mem_scanItems hScan f).mp hFound with
        ⟨product, version, hHas, e, hEntry, hCovers, rfl⟩
      intro hFixed
      have hIs : e.fixed = some version := hFixed
      rw [entriesOf_merge product hKeys] at hEntry
      rcases List.mem_append.mp hEntry with hOwn | hOther
      · unfold entriesOf at hOwn
        cases hLookup : lookup product cveCatalogue with
        | none =>
            rw [hLookup] at hOwn
            cases hOwn
        | some entries =>
            rw [hLookup] at hOwn
            have hNotFalse :
                e.bounds.covers version ≠ some false := by
              rw [hCovers]
              decide
            have hBoth := cveCatalogue_misread _
              (mem_of_lookup hLookup) e hOwn version
              hIs hNotFalse
            have hProduct : product = lit "openssl" := hBoth.1
            rw [hProduct, hBoth.2] at hHas
            exact hOpenssl hHas
      · exact hExtra ⟨product, version, hHas, e, hOther, hIs,
          (covers_iff_within _ _).mp hCovers⟩

end

---- Intervals Of Versions

/- Versions as they are compared: their numbers, then zeros. -/
def VersionKey := Lex (Nat → Int)

noncomputable instance : LinearOrder VersionKey :=
  inferInstanceAs (LinearOrder (Lex (Nat → Int)))

def versionKey (t : List Int) : VersionKey :=
  toLex fun i => t.getD i 0

theorem getElem_padded
    {n i : Nat} {t : List Int} (hI : i < (padded n t).length) :
    (padded n t)[i] = versionKey t i := by
  simp only [padded, versionKey, Pi.toLex_apply]
  grind

theorem padded_lt_iff
    {n : Nat} {s t : List Int}
    (hS : s.length ≤ n) (hT : t.length ≤ n) :
    padded n s < padded n t ↔ versionKey s < versionKey t := by
  have hLength : ∀ {u : List Int}, u.length ≤ n →
      (padded n u).length = n := by
    intro u hU
    simp [padded, hU]
  have hPast : ∀ {u : List Int} {i : Nat}, u.length ≤ n → n ≤ i →
      versionKey u i = 0 := fun hU hI =>
    List.getD_eq_default _ _ (hU.trans hI)
  simp only [List.lt_iff_exists, getElem_padded, hLength hS, hLength hT]
  constructor
  · rintro (⟨-, hShort⟩ | ⟨i, -, -, hSame, hLess⟩)
    · exact absurd hShort (lt_irrefl _)
    · exact ⟨i, hSame, hLess⟩
  · rintro ⟨i, hSame, hLess⟩
    have hI : i < n := by
      by_contra hI
      rw [hPast hS (not_lt.mp hI), hPast hT (not_lt.mp hI)] at hLess
      exact lt_irrefl _ hLess
    exact .inr ⟨i, hI, hI, hSame, hLess⟩

/- Versions compare as their keys do. -/
theorem verCmp_key
    {a b : Str} {s t : List Int}
    (hA : verTuple a = some s) (hB : verTuple b = some t) :
    (verCmp a b = some .lt ↔ versionKey s < versionKey t) ∧
    (verCmp a b = some .gt ↔ versionKey t < versionKey s) ∧
    (verCmp a b = some .eq ↔ versionKey t = versionKey s) := by
  have hLess := padded_lt_iff (le_max_left s.length t.length)
    (le_max_right _ _)
  have hMore := padded_lt_iff (le_max_right s.length t.length)
    (le_max_left _ _)
  simp only [verCmp, hA, hB]
  rcases lt_trichotomy (versionKey s) (versionKey t) with h | h | h
  · simp [if_pos (hLess.mpr h), h, h.not_gt, h.ne']
  · rw [if_neg (mt hLess.mp h.not_lt), if_neg (mt hMore.mp h.not_gt)]
    simp [h]
  · rw [if_neg (mt hLess.mp h.not_gt), if_pos (hMore.mpr h)]
    simp [h, h.not_gt, h.ne]

/- The keys in a range, if its bounds can be read. -/
def Bounds.keys (b : Bounds) : Set VersionKey :=
  {k | ¬ (b.start = none ∧ b.stop = none) ∧
    (∀ lo ∈ b.start, ∃ s ∈ verTuple lo,
      versionKey s < k ∨ b.startIncl = true ∧ versionKey s = k) ∧
    ∀ hi ∈ b.stop, ∃ s ∈ verTuple hi,
      k < versionKey s ∨ b.stopIncl = true ∧ versionKey s = k}

theorem Bounds.keys_ordConnected (b : Bounds) :
    b.keys.OrdConnected := by
  refine ⟨fun k hK m hM l hL => ⟨hK.1, ?_, ?_⟩⟩
  · intro lo hLo
    obtain ⟨s, hS, hAbove | ⟨hIncl, rfl⟩⟩ := hK.2.1 lo hLo
    · exact ⟨s, hS, .inl (hAbove.trans_le hL.1)⟩
    · exact ⟨s, hS, hL.1.lt_or_eq.imp_right fun h => ⟨hIncl, h⟩⟩
  · intro hi hHi
    obtain ⟨s, hS, hBelow | ⟨hIncl, rfl⟩⟩ := hM.2.2 hi hHi
    · exact ⟨s, hS, .inl (hL.2.trans_lt hBelow)⟩
    · exact ⟨s, hS, hL.2.lt_or_eq.imp_right fun h => ⟨hIncl, h.symm⟩⟩

theorem covers_iff_mem_keys
    {v : Str} {t : List Int}
    (hRead : verTuple v = some t) (b : Bounds) :
    b.covers v = some true ↔ versionKey t ∈ b.keys := by
  have hAbove : ∀ lo,
      (verCmp v lo = some .gt ∨
        b.startIncl = true ∧ verCmp v lo = some .eq) ↔
      ∃ s ∈ verTuple lo, versionKey s < versionKey t ∨
        b.startIncl = true ∧ versionKey s = versionKey t := by
    intro lo
    cases hS : verTuple lo with
    | none => simp [verCmp, hS]
    | some s => simp [verCmp_key hRead hS]
  have hBelow : ∀ hi,
      (verCmp v hi = some .lt ∨
        b.stopIncl = true ∧ verCmp v hi = some .eq) ↔
      ∃ s ∈ verTuple hi, versionKey t < versionKey s ∨
        b.stopIncl = true ∧ versionKey s = versionKey t := by
    intro hi
    cases hS : verTuple hi with
    | none => simp [verCmp, hS]
    | some s => simp [verCmp_key hRead hS]
  simp only [covers_iff_within, Bounds.keys, Set.mem_ofPred_eq,
    ← hAbove, ← hBelow]
  exact ⟨fun h => ⟨h.bounded, h.above, h.below⟩,
    fun h => ⟨h.1, h.2.1, h.2.2⟩⟩

/-
  The versions that an entry affects are an interval of one linear
  order, whichever form states them.
-/
theorem affected_interval (a : Affected) :
    ∃ I : Set VersionKey, I.OrdConnected ∧
      ∀ v t, verTuple v = some t →
        (a.affects v = some true ↔ versionKey t ∈ I) := by
  refine ⟨a.toBounds.keys, a.toBounds.keys_ordConnected, ?_⟩
  intro v t hRead
  rw [affects_eq_covers, covers_iff_mem_keys hRead]

theorem heartbleed_interval :
    ∃ I : Set VersionKey, I.OrdConnected ∧ versionKey [1, 0, 1] ∈ I :=
  let ⟨I, hI, hKeys⟩ := affected_interval
    (.range (lit "1.0.1") (lit "1.0.1f"))
  ⟨I, hI, (hKeys (lit "1.0.1c") [1, 0, 1] (by decide)).mp (by decide)⟩

---- A Fixed Version That Is Reported

local instance scannerUnicode : Unicode := asciiTables

def opensslOf (version : String) : Software :=
  ⟨some (lit "OpenSSL"), some (lit version)⟩

theorem heartbleed_range_quiet :
    NeverFixed [opensslOf "1.0.1f"] [] :=
  (@fixed_never_reported_iff asciiTables [] List.nodup_nil
    [opensslOf "1.0.1f"]).mpr
      (Or.inr ⟨by
        rintro ⟨item, hItem, _, hVersion, _⟩
        rw [List.mem_singleton.mp hItem] at hVersion
        exact absurd hVersion (by decide), by
        rintro ⟨product, version, _, e, hEntry, _⟩
        exact absurd hEntry List.not_mem_nil⟩)

/- The version that fixes Heartbleed is reported for it. -/
theorem heartbleed_fix_reported :
    ¬ NeverFixed [opensslOf "1.0.1g"] [] ∧
      verCmp (lit "1.0.1f") (lit "1.0.1g") = some .eq := by
  refine ⟨?_, verCmp_letters (v := lit "1.0.1")
    (by decide) (by unfold NoDigits; decide)
    (by unfold NoDigits; decide)⟩
  intro hNever
  have hScan :
      (scanSoftware cveCatalogue [opensslOf "1.0.1g"] []).map
        (List.any · fun f => f.fixedIn = some f.version) =
          some true := by
    decide
  rcases Option.map_eq_some_iff.mp hScan with
    ⟨found, hFound, hAny⟩
  rcases List.any_eq_true.mp hAny with ⟨f, hMem, hFixed⟩
  exact hNever found hFound f hMem (of_decide_eq_true hFixed)

end ThreatOrbit.Vulns
