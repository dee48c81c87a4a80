import ThreatOrbit.Logs.Detectors
import ThreatOrbit.Lib.Windows

/-
  What the temporal detector finds: the burst of a source and
  the travel of a user, by their definitions.

  The detector sorts the entries, fills a window for each
  source and compares the neighbours of each user; neither the
  order of the input nor entries at one time make a difference.
-/

---- Definitions

namespace ThreatOrbit.Logs

open Lib

/- The entry is from an interval of a number of microseconds. -/
def inInterval
    (start length : Int)
    (e : ParsedLogEntry) : Bool :=
  match e.timestamp with
  | none => false
  | some m =>
      decide (start ≤ m.instant) &&
        decide (m.instant ≤ start + length)

/- Some interval as long as the window has enough entries of a
source. -/
def Bursts
    (settings : LogSettings)
    (entries : List ParsedLogEntry)
    (ip : Str) : Prop :=
  ∃ start : Int, settings.burstCount ≤ entries.countP fun e =>
    decide (e.sourceIp = some ip) &&
      inInterval start (settings.burstSeconds * 1000000) e

/- Two entries of a user, from different sources, are at most
five minutes apart. -/
def Travels
    (entries : List ParsedLogEntry)
    (user : Str) : Prop :=
  ∃ e ∈ entries, ∃ f ∈ entries, ∃ a b : Str, ∃ m n : Moment,
    e.username = some user ∧ f.username = some user ∧
    e.sourceIp = some a ∧ f.sourceIp = some b ∧
    a ≠ [] ∧ b ≠ [] ∧ a ≠ b ∧
    e.timestamp = some m ∧ f.timestamp = some n ∧
    |n.instant - m.instant| ≤ 300000000

/- The findings of one type about a source. -/
def burstsOf
    (ip : Str)
    (f : AnomalyFinding) : Bool :=
  decide (f.findingType = lit "request_burst") &&
    decide (f.sourceIp = some ip)

---- Findings of a Loop

section

/- A loop whose steps do not raise. -/
theorem report_eq
    {α : Type} {f : α → Except LogError (Option AnomalyFinding)}
    {l : List α}
    (hReturns : ∀ a ∈ l, Returns (f a)) :
    report f l = .ok (l.filterMap fun a => (f a).toOption.join) := by
  induction l with
  | nil => rfl
  | cons a rest ih =>
      rw [List.forall_mem_cons] at hReturns
      rw [report, ih hReturns.2, List.filterMap_cons]
      cases hA : f a with
      | error e =>
          rw [hA] at hReturns
          exact absurd hReturns.1 (not_returns_error e)
      | ok found =>
          cases found with
          | none => rfl
          | some g => rfl

/- A finding whose score is capped is made. -/
theorem capped_eq
    {f : AnomalyFinding} {score : Int}
    (hScore : f.severityScore = min 100 score)
    (hNonneg : 0 ≤ score) :
    (makeFinding f).map some = .ok (some f) := by
  have hRange : 0 ≤ f.severityScore ∧ f.severityScore ≤ 100 := by
    rw [hScore]
    omega
  rw [makeFinding, if_pos hRange]
  rfl

theorem makeFinding_eq
    {f g : AnomalyFinding}
    (hMade : makeFinding f = .ok g) :
    g = f := by
  unfold makeFinding at hMade
  split at hMade
  · exact (Except.ok.inj hMade).symm
  · cases hMade

/- All findings of a loop have the type that its steps give. -/
theorem report_type
    {α : Type} {f : α → Except LogError (Option AnomalyFinding)}
    {l : List α} {found : List AnomalyFinding} {kind : Str}
    (hKind : ∀ a g, f a = .ok (some g) → g.findingType = kind)
    (hFound : report f l = .ok found) :
    ∀ g ∈ found, g.findingType = kind := by
  induction l generalizing found with
  | nil =>
      rw [report, Except.ok.injEq] at hFound
      rw [← hFound]
      exact fun g hG => absurd hG List.not_mem_nil
  | cons a rest ih =>
      rw [report] at hFound
      cases hA : f a with
      | error e =>
          rw [hA] at hFound
          cases hFound
      | ok here =>
          rw [hA] at hFound
          cases hRest : report f rest with
          | error e =>
              rw [hRest] at hFound
              cases hFound
          | ok more =>
              rw [hRest] at hFound
              have hAll : here.toList ++ more = found :=
                Except.ok.inj hFound
              rw [← hAll]
              intro g hG
              rcases List.mem_append.mp hG with hHere | hMore
              · rw [Option.mem_toList] at hHere
                rw [hHere] at hA
                exact hKind a g hA
              · exact ih hRest g hMore

/- A finding that is made has the type that was written. -/
theorem type_of_made
    {f g : AnomalyFinding}
    (hMade : (makeFinding f).map some = .ok (some g)) :
    g.findingType = f.findingType := by
  cases hF : makeFinding f with
  | error e =>
      rw [hF] at hMade
      cases hMade
  | ok made =>
      rw [hF] at hMade
      have hSame : made = g :=
        Option.some.inj (Except.ok.inj hMade)
      rw [← hSame, makeFinding_eq hF]

variable [Unicode] (settings : LogSettings)

omit [Unicode] in
theorem offHours_type
    {g : Str × List ParsedLogEntry} {f : AnomalyFinding}
    (hFound : offHoursFinding settings g = .ok (some f)) :
    f.findingType = lit "off_hours_auth_activity" := by
  unfold offHoursFinding at hFound
  dsimp only at hFound
  split at hFound
  · cases hFound
  · exact type_of_made hFound

omit [Unicode] in
theorem weekend_type
    {g : Str × List ParsedLogEntry} {f : AnomalyFinding}
    (hFound : weekendFinding settings g = .ok (some f)) :
    f.findingType = lit "weekend_sensitive_activity" :=
  type_of_made hFound

omit [Unicode] in
theorem slowBrute_type
    {g : Str × List ParsedLogEntry} {f : AnomalyFinding}
    (hFound : slowBruteFinding settings g = .ok (some f)) :
    f.findingType = lit "slow_brute_force" := by
  unfold slowBruteFinding at hFound
  dsimp only at hFound
  split at hFound
  · cases hFound
  · split at hFound
    · cases hFound
    · exact type_of_made hFound

omit [Unicode] in
theorem burst_type
    {g : Str × List ParsedLogEntry} {f : AnomalyFinding}
    (hFound : burstFinding settings g = .ok (some f)) :
    f.findingType = lit "request_burst" := by
  unfold burstFinding at hFound
  split at hFound
  · cases hFound
  · exact type_of_made hFound

omit [Unicode] in
theorem travel_type
    {p : Str × ParsedLogEntry × ParsedLogEntry} {f : AnomalyFinding}
    (hFound : travelFinding p = .ok (some f)) :
    f.findingType = lit "impossible_travel" := by
  unfold travelFinding at hFound
  dsimp only at hFound
  split at hFound
  · cases hFound
  · split at hFound
    · cases hFound
    · exact type_of_made hFound

omit [Unicode] in
/- What one detector after another finds. -/
theorem inTurn_cons
    {first : Except LogError (List AnomalyFinding)}
    {rest : List (Except LogError (List AnomalyFinding))}
    {found : List AnomalyFinding}
    (hFound : inTurn (first :: rest) = .ok found) :
    ∃ here more, first = .ok here ∧ inTurn rest = .ok more ∧
      found = here ++ more := by
  cases first with
  | error e => cases hFound
  | ok here =>
      rw [inTurn] at hFound
      cases hRest : inTurn rest with
      | error e =>
          rw [hRest] at hFound
          cases hFound
      | ok more =>
          rw [hRest] at hFound
          exact ⟨here, more, rfl, rfl, (Except.ok.inj hFound).symm⟩

omit [Unicode] in
/- Findings of another type are no bursts. -/
theorem no_bursts
    {found : List AnomalyFinding} {kind : Str}
    (hKind : ∀ f ∈ found, f.findingType = kind)
    (hOther : kind ≠ lit "request_burst") (ip : Str) :
    found.countP (burstsOf ip) = 0 := by
  rw [List.countP_eq_zero]
  intro f hF hBurst
  rw [burstsOf, Bool.and_eq_true, decide_eq_true_iff,
    hKind f hF] at hBurst
  exact hOther hBurst.1

end

---- Bursts

section

variable (settings : LogSettings)

/- The loop of the detector fills a window. -/
theorem burstFrom_eq
    (window l : List ParsedLogEntry) :
    burstFrom settings window l =
      fill instantOf (settings.burstSeconds * 1000000)
        settings.burstCount window l := by
  induction l generalizing window with
  | nil => rfl
  | cons e rest ih =>
      rw [burstFrom, fill]
      simp only [ih]
      rfl

theorem byTime_inOrder (entries : List ParsedLogEntry) :
    InOrder instantOf (byTime entries) := by
  refine (List.pairwise_mergeSort ?_ ?_ entries).imp ?_
  · intro a b c hAB hBC
    exact decide_eq_true
      ((of_decide_eq_true hAB).trans (of_decide_eq_true hBC))
  · intro a b
    rw [Bool.or_eq_true, decide_eq_true_iff, decide_eq_true_iff]
    exact le_total _ _
  · exact fun hLe => of_decide_eq_true hLe

theorem byTime_perm (entries : List ParsedLogEntry) :
    (byTime entries).Perm entries :=
  List.mergeSort_perm entries _

/- A group has a burst exactly if some interval has enough of
its entries. -/
theorem burstFrom_isSome_iff
    (hCount : 1 ≤ settings.burstCount)
    (group : List ParsedLogEntry) :
    (burstFrom settings [] (byTime group)).isSome = true ↔
      ∃ start : Int, settings.burstCount ≤ group.countP fun e =>
        decide (start ≤ instantOf e) &&
          decide (instantOf e ≤
            start + settings.burstSeconds * 1000000) := by
  rw [burstFrom_eq, fill_isSome_iff (byTime_inOrder group) hCount]
  simp only [(byTime_perm group).countP_eq]

/- What a group gives: one finding about its source, or none. -/
theorem burstFinding_counts
    (ip : Str) (g : Str × List ParsedLogEntry) :
    (((burstFinding settings g).toOption.join.map
        (burstsOf ip)).getD false) =
      (decide (g.1 = ip) &&
        (burstFrom settings [] (byTime g.2)).isSome) := by
  unfold burstFinding
  split
  · rename_i hNone
    rw [hNone, Option.isSome_none, Bool.and_false]
    rfl
  · rename_i window rest hSome
    rw [hSome, Option.isSome_some, Bool.and_true]
    dsimp only
    rw [capped_eq rfl (by omega)]
    simp [Except.toOption, burstsOf, temporalFinding]

/- In a mapping a key counts once at most. -/
theorem countP_key
    {β : Type} {d : List (Str × List β)} {p : List β → Bool}
    (hNodup : (d.map Prod.fst).Nodup) (hNil : p [] = false)
    (key : Str) :
    (d.countP fun g => decide (g.1 = key) && p g.2) =
      if p ((lookup key d).getD []) then 1 else 0 := by
  induction d with
  | nil => simp [lookup, hNil]
  | cons first rest ih =>
      rw [List.map_cons, List.nodup_cons] at hNodup
      rw [List.countP_cons, lookup]
      by_cases hKey : first.1 = key
      · have hNone : (rest.countP fun g =>
            decide (g.1 = key) && p g.2) = 0 := by
          rw [List.countP_eq_zero]
          intro g hG hHit
          rw [Bool.and_eq_true, decide_eq_true_iff] at hHit
          apply hNodup.1
          rw [hKey, ← hHit.1]
          exact List.mem_map_of_mem hG
        rw [hNone, if_pos hKey, decide_eq_true hKey]
        simp
      · rw [if_neg hKey, ih hNodup.2, decide_eq_false hKey]
        simp

/- The entries of a source, in the order of their times. -/
theorem lookup_sources
    {ip : Str}
    (hIp : ip ≠ []) (entries : List ParsedLogEntry) :
    (lookup ip (collect (entries.filterMap fun e =>
        (someText e.sourceIp).map fun ip => (ip, e)))).getD [] =
      entries.filter fun e => decide (e.sourceIp = some ip) := by
  rw [lookup_collect]
  induction entries with
  | nil => rfl
  | cons e rest ih =>
      rw [List.filterMap_cons, List.filter_cons]
      cases hSource : e.sourceIp with
      | none => simpa [someText] using ih
      | some source =>
          cases source with
          | nil =>
              have hOther : ¬ [] = ip := fun h => hIp h.symm
              simpa [someText, hOther] using ih
          | cons c text =>
              by_cases hSame : c :: text = ip
              · simpa [someText, hSame] using ih
              · simpa [someText, hSame] using ih

end

---- The Burst of a Source

section

variable (settings : LogSettings)

/- The entries that the detector goes over. -/
def timedEntries
    (entries : List ParsedLogEntry) : List ParsedLogEntry :=
  byTime (entries.filter fun e => e.timestamp.isSome)

theorem timedEntries_perm (entries : List ParsedLogEntry) :
    (timedEntries entries).Perm
      (entries.filter fun e => e.timestamp.isSome) :=
  byTime_perm _

/- Of the entries of a source, those with a time are counted. -/
theorem countP_timed
    (entries : List ParsedLogEntry) (ip : Str)
    (start length : Int) :
    (((timedEntries entries).filter fun e =>
        decide (e.sourceIp = some ip)).countP fun e =>
          decide (start ≤ instantOf e) &&
            decide (instantOf e ≤ start + length)) =
      entries.countP fun e =>
        decide (e.sourceIp = some ip) &&
          inInterval start length e := by
  rw [List.countP_filter, (timedEntries_perm entries).countP_eq,
    List.countP_filter]
  apply List.countP_congr
  intro e _
  unfold inInterval instantOf
  cases hTime : e.timestamp with
  | none => simp
  | some m => simp [and_comm]

/- One finding for each source with a burst, and none for the
others. -/
theorem burst_iff
    (hCount : 1 ≤ settings.burstCount)
    (entries : List ParsedLogEntry) :
    ∃ found,
      detectBurst settings (timedEntries entries) = .ok found ∧
      ∀ ip : Str, ip ≠ [] →
        (Bursts settings entries ip →
          found.countP (burstsOf ip) = 1) ∧
        (¬ Bursts settings entries ip →
          found.countP (burstsOf ip) = 0) := by
  refine ⟨_, report_eq ?_, ?_⟩
  · intro g _
    unfold burstFinding
    split
    · exact returns_ok none
    · exact capped_returns rfl (by omega)
  · intro ip hIp
    have hNil : (burstFrom settings [] (byTime [])).isSome = false := by
      simp [byTime, burstFrom]
    have hGroup := lookup_sources hIp (timedEntries entries)
    have hBursts :
        (burstFrom settings [] (byTime
          ((timedEntries entries).filter fun e =>
            decide (e.sourceIp = some ip)))).isSome = true ↔
          Bursts settings entries ip := by
      rw [burstFrom_isSome_iff settings hCount]
      simp only [countP_timed]
      exact Iff.rfl
    rw [List.countP_filterMap]
    simp only [burstFinding_counts]
    rw [countP_key
      (p := fun group =>
        (burstFrom settings [] (byTime group)).isSome)
      (collect_keys_nodup _) hNil ip, hGroup]
    constructor
    · intro hBurst
      rw [if_pos (hBursts.mpr hBurst)]
    · intro hCalm
      rw [if_neg (fun hSome => hCalm (hBursts.mp hSome))]

end

---- The Travel of a User

/- The entries with a user and a source, under their user. -/
def ofUsers
    (entries : List ParsedLogEntry) : List (Str × ParsedLogEntry) :=
  entries.filterMap fun e =>
    match someText e.username, someText e.sourceIp with
    | some user, some _ => some (user, e)
    | _, _ => none

theorem someText_eq_iff
    {t : Option Str} {s : Str} :
    someText t = some s ↔ t = some s ∧ s ≠ [] := by
  cases t with
  | none => simp [someText]
  | some text =>
      cases text with
      | nil =>
          simp only [someText, Option.some.injEq]
          constructor
          · intro h
            cases h
          · rintro ⟨rfl, hNil⟩
            exact absurd rfl hNil
      | cons c rest =>
          simp only [someText, Option.some.injEq]
          constructor
          · rintro rfl
            exact ⟨rfl, List.cons_ne_nil c rest⟩
          · exact And.left

theorem detectImpossibleTravel_eq (entries : List ParsedLogEntry) :
    detectImpossibleTravel entries =
      report travelFinding
        ((collect (ofUsers entries)).flatMap fun g =>
          (neighbours (byTime g.2)).map fun p => (g.1, p)) :=
  rfl

theorem mem_ofUsers_iff
    {entries : List ParsedLogEntry} {user : Str}
    {e : ParsedLogEntry} :
    (user, e) ∈ ofUsers entries ↔
      e ∈ entries ∧ e.username = some user ∧ user ≠ [] ∧
        ∃ ip, e.sourceIp = some ip ∧ ip ≠ [] := by
  rw [ofUsers, List.mem_filterMap]
  constructor
  · rintro ⟨f, hF, hPair⟩
    split at hPair
    · rename_i name ip hUser hIp
      injection hPair with hPair
      injection hPair with hName hEntry
      subst hEntry
      subst hName
      rw [someText_eq_iff] at hUser hIp
      exact ⟨hF, hUser.1, hUser.2, ip, hIp⟩
    · cases hPair
  · rintro ⟨hE, hUser, hName, ip, hIp⟩
    refine ⟨e, hE, ?_⟩
    rw [someText_eq_iff.mpr ⟨hUser, hName⟩,
      someText_eq_iff.mpr hIp]

/- The loop over the neighbours gives the pairs from different
sources that are close. -/
theorem travelFinding_eq
    (p : Str × ParsedLogEntry × ParsedLogEntry) :
    Returns (travelFinding p) ∧
      ∀ f, (travelFinding p).toOption.join = some f →
        f.username = some p.1 ∧
          f.findingType = lit "impossible_travel" := by
  unfold travelFinding
  dsimp only
  split
  · exact ⟨returns_ok none, fun f hF => by cases hF⟩
  · split
    · exact ⟨returns_ok none, fun f hF => by cases hF⟩
    · rw [@capped_eq _ 70 rfl (by decide)]
      refine ⟨returns_ok _, fun f hF => ?_⟩
      injection hF with hF
      rw [← hF]
      exact ⟨rfl, rfl⟩

theorem travelFinding_isSome_iff
    (p : Str × ParsedLogEntry × ParsedLogEntry) :
    (travelFinding p).toOption.join.isSome = true ↔
      instantOf p.2.2 - instantOf p.2.1 ≤ 300000000 ∧
        p.2.1.sourceIp ≠ p.2.2.sourceIp := by
  unfold travelFinding
  dsimp only
  split
  · rename_i hFar
    rw [between] at hFar
    refine iff_of_false (by simp [Except.toOption]) ?_
    rintro ⟨hClose, _⟩
    omega
  · rename_i hClose
    rw [between] at hClose
    split
    · rename_i hSame
      refine iff_of_false (by simp [Except.toOption]) ?_
      exact fun hBoth => hBoth.2 hSame
    · rename_i hOther
      rw [@capped_eq _ 70 rfl (by decide)]
      exact iff_of_true rfl ⟨by omega, hOther⟩

---- Both

/- Among the entries of a user two neighbours are from different
sources and close exactly if the user travels. -/
theorem travels_iff
    (entries : List ParsedLogEntry) {user : Str}
    (hUser : user ≠ []) :
    (∃ p ∈ neighbours (byTime
        (((ofUsers (timedEntries entries)).filter fun q =>
          q.1 = user).map Prod.snd)),
      instantOf p.2 - instantOf p.1 ≤ 300000000 ∧
        p.1.sourceIp ≠ p.2.sourceIp) ↔
      Travels entries user := by
  have hMem (e : ParsedLogEntry) :
      e ∈ byTime (((ofUsers (timedEntries entries)).filter
          fun q => q.1 = user).map Prod.snd) ↔
        e ∈ entries ∧ e.timestamp.isSome = true ∧
          e.username = some user ∧
          ∃ ip, e.sourceIp = some ip ∧ ip ≠ [] := by
    have hIn : e ∈ timedEntries entries ↔
        e ∈ entries ∧ e.timestamp.isSome = true := by
      rw [(timedEntries_perm entries).mem_iff, List.mem_filter]
    rw [(byTime_perm _).mem_iff, List.mem_map]
    constructor
    · rintro ⟨q, hQ, rfl⟩
      rw [List.mem_filter, decide_eq_true_iff] at hQ
      rcases hQ with ⟨hQ, hName⟩
      rw [show q = (user, q.2) from Prod.ext hName rfl,
        mem_ofUsers_iff, hIn] at hQ
      exact ⟨hQ.1.1, hQ.1.2, hQ.2.1, hQ.2.2.2⟩
    · rintro ⟨hE, hTime, hName, hIp⟩
      refine ⟨(user, e), ?_, rfl⟩
      rw [List.mem_filter, mem_ofUsers_iff, hIn]
      exact ⟨⟨⟨hE, hTime⟩, hName, hUser, hIp⟩,
        decide_eq_true rfl⟩
  have hTime {e : ParsedLogEntry} {m : Moment}
      (hM : e.timestamp = some m) : instantOf e = m.instant := by
    rw [instantOf, hM]
    rfl
  rw [neighbours, close_neighbours_iff (byTime_inOrder _)]
  constructor
  · rintro ⟨e, hE, f, hF, hLe, hClose, hOther⟩
    rw [hMem] at hE hF
    rcases hE with ⟨hE, hTimed, hName, a, hA, hSome⟩
    rcases hF with ⟨hF, hTimed', hName', b, hB, hSome'⟩
    rcases Option.isSome_iff_exists.mp hTimed with ⟨m, hM⟩
    rcases Option.isSome_iff_exists.mp hTimed' with ⟨n, hN⟩
    rw [hTime hM, hTime hN] at hLe hClose
    refine ⟨e, hE, f, hF, a, b, m, n, hName, hName', hA, hB, hSome,
      hSome', ?_, hM, hN, ?_⟩
    · rintro rfl
      exact hOther (hA.trans hB.symm)
    · rw [abs_le]
      exact ⟨by omega, hClose⟩
  · rintro ⟨e, hE, f, hF, a, b, m, n, hName, hName', hA, hB, hSome,
      hSome', hOther, hM, hN, hClose⟩
    rw [abs_le] at hClose
    have hFirst := (hMem e).mpr ⟨hE, by rw [hM]; rfl, hName, a, hA,
      hSome⟩
    have hSecond := (hMem f).mpr ⟨hF, by rw [hN]; rfl, hName', b,
      hB, hSome'⟩
    have hDiffer : e.sourceIp ≠ f.sourceIp := by
      rw [hA, hB]
      exact fun h => hOther (Option.some.inj h)
    rcases le_total m.instant n.instant with hLe | hLe
    · refine ⟨e, hFirst, f, hSecond, ?_, ?_, hDiffer⟩
      · rwa [hTime hM, hTime hN]
      · rw [hTime hM, hTime hN]
        omega
    · refine ⟨f, hSecond, e, hFirst, ?_, ?_, hDiffer.symm⟩
      · rwa [hTime hM, hTime hN]
      · rw [hTime hM, hTime hN]
        omega

/- A finding about a user who travels, and none about the
others. -/
theorem travel_iff (entries : List ParsedLogEntry) :
    ∃ found,
      detectImpossibleTravel (timedEntries entries) = .ok found ∧
      ∀ user : Str, user ≠ [] →
        ((∃ f ∈ found, f.findingType = lit "impossible_travel" ∧
          f.username = some user) ↔ Travels entries user) := by
  rw [detectImpossibleTravel_eq]
  refine ⟨_, report_eq fun p _ => (travelFinding_eq p).1, ?_⟩
  intro user hUser
  rw [← travels_iff entries hUser, ← lookup_collect]
  constructor
  · rintro ⟨f, hF, _, hName⟩
    rcases List.mem_filterMap.mp hF with ⟨p, hP, hFound⟩
    rcases List.mem_flatMap.mp hP with ⟨g, hG, hPair⟩
    rcases List.mem_map.mp hPair with ⟨pair, hNext, rfl⟩
    have hWho := ((travelFinding_eq _).2 f hFound).1
    rw [hName] at hWho
    have hKey : user = g.1 := Option.some.inj hWho
    refine ⟨pair, ?_,
      (travelFinding_isSome_iff _).mp (by rw [hFound]; rfl)⟩
    rw [hKey, lookup_of_mem (collect_keys_nodup _) hG]
    exact hNext
  · rintro ⟨pair, hNext, hClose⟩
    cases hGroup : lookup user
        (collect (ofUsers (timedEntries entries))) with
    | none =>
        rw [hGroup] at hNext
        simp [byTime, neighbours] at hNext
    | some group =>
        rw [hGroup] at hNext
        have hSome := (travelFinding_isSome_iff
          (user, pair)).mpr hClose
        rcases Option.isSome_iff_exists.mp hSome with ⟨f, hF⟩
        have hIs := (travelFinding_eq (user, pair)).2 f hF
        refine ⟨f, List.mem_filterMap.mpr ⟨(user, pair), ?_, hF⟩,
          hIs.2, hIs.1⟩
        exact List.mem_flatMap.mpr ⟨(user, group),
          mem_of_lookup hGroup,
          List.mem_map.mpr ⟨pair, hNext, rfl⟩⟩

/- The temporal detector against its definitions, for entries in
any order whose times can be compared. -/
theorem temporal_detector_finds
    [Unicode]
    (settings : LogSettings)
    (entries : List ParsedLogEntry)
    (hClock : OneClock entries)
    (hCount : 1 ≤ settings.burstCount) :
    ∃ found,
      runTemporalDetector settings entries = .ok found ∧
      (∀ ip : Str, ip ≠ [] →
        (Bursts settings entries ip →
          found.countP (burstsOf ip) = 1) ∧
        (¬ Bursts settings entries ip →
          found.countP (burstsOf ip) = 0)) ∧
      ∀ user : Str, user ≠ [] →
        ((∃ f ∈ found, f.findingType = lit "impossible_travel" ∧
          f.username = some user) ↔ Travels entries user) := by
  rcases (temporalDetector_returns_iff settings entries).mpr hClock
    with ⟨found, hFound⟩
  rw [← not_clashing_iff] at hClock
  have hRun := hFound
  rw [runTemporalDetector] at hRun
  dsimp only at hRun
  rw [hClock, if_neg Bool.false_ne_true] at hRun
  rcases inTurn_cons hRun with ⟨offHours, _, hOff, hFrom2, rfl⟩
  rcases inTurn_cons hFrom2 with ⟨bursts, _, hBursts, hFrom3, rfl⟩
  rcases inTurn_cons hFrom3 with
    ⟨travels, _, hTravels, hFrom4, rfl⟩
  rcases inTurn_cons hFrom4 with ⟨weekend, _, hWeek, hFrom5, rfl⟩
  rcases inTurn_cons hFrom5 with ⟨slow, more, hSlow, hEnd, rfl⟩
  have hNil : more = [] := (Except.ok.inj hEnd).symm
  have hOffType := report_type
    (fun _ _ => offHours_type settings) hOff
  have hBurstType := report_type
    (fun _ _ => burst_type settings) hBursts
  have hTravelType := report_type (fun _ _ => travel_type) hTravels
  have hWeekType := report_type
    (fun _ _ => weekend_type settings) hWeek
  have hSlowType := report_type
    (fun _ _ => slowBrute_type settings) hSlow
  rcases burst_iff settings hCount entries with
    ⟨foundBursts, hFoundBursts, hBurst⟩
  rcases travel_iff entries with
    ⟨foundTravels, hFoundTravels, hTravel⟩
  have hSameBursts : bursts = foundBursts :=
    Except.ok.inj (hBursts.symm.trans hFoundBursts)
  have hSameTravels : travels = foundTravels :=
    Except.ok.inj (hTravels.symm.trans hFoundTravels)
  refine ⟨_, hFound, ?_, ?_⟩
  · intro ip hIp
    have hOnly : (offHours ++ (bursts ++ (travels ++
        (weekend ++ (slow ++ more))))).countP (burstsOf ip) =
        foundBursts.countP (burstsOf ip) := by
      rw [List.countP_append, List.countP_append,
        List.countP_append, List.countP_append,
        List.countP_append, no_bursts hOffType (by decide) ip,
        no_bursts hTravelType (by decide) ip,
        no_bursts hWeekType (by decide) ip,
        no_bursts hSlowType (by decide) ip, hNil, hSameBursts]
      simp
    rw [hOnly]
    exact hBurst ip hIp
  · intro user hUser
    rw [← hTravel user hUser, ← hSameTravels]
    constructor
    · rintro ⟨f, hF, hIs, hName⟩
      have hOther {part : List AnomalyFinding} {kind : Str}
          (hKind : ∀ f ∈ part, f.findingType = kind)
          (hNot : kind ≠ lit "impossible_travel") :
          f ∉ part :=
        fun hPart => hNot ((hKind f hPart).symm.trans hIs)
      simp only [List.mem_append, hNil, List.not_mem_nil, or_false,
        hOther hOffType (by decide), hOther hBurstType (by decide),
        hOther hWeekType (by decide), hOther hSlowType (by decide),
        false_or] at hF
      exact ⟨f, hF, hIs, hName⟩
    · rintro ⟨f, hF, hIs, hName⟩
      refine ⟨f, ?_, hIs, hName⟩
      simp only [List.mem_append, hF, true_or, or_true]

---- A Log

local instance temporalUnicode : Unicode := asciiTables

/- An entry of a user from an address, a minute after
another. -/
def visit (ip : String) (minute : Int) : ParsedLogEntry :=
  { bareEntry (lit "generic") [] with
    timestamp := some ⟨minute * 60000000, none⟩
    sourceIp := some (lit ip)
    username := some (lit "eve") }

def visits : List ParsedLogEntry :=
  [visit "203.0.113.9" 2, visit "198.51.100.7" 1,
    visit "198.51.100.7" 1]

/- The default settings, with bursts of two. -/
def pairSettings : LogSettings where
  zscoreThreshold := 3.0
  rateSpikeRpm := 120
  errorRatePct := 40.0
  businessStart := 7
  businessEnd := 20
  burstCount := 2
  burstSeconds := 10
  critical := 80
  high := 50
  medium := 25

theorem visits_found :
    ∃ found,
      runTemporalDetector pairSettings visits = .ok found ∧
      found.countP (burstsOf (lit "198.51.100.7")) = 1 ∧
      ∃ f ∈ found, f.findingType = lit "impossible_travel" ∧
        f.username = some (lit "eve") := by
  rcases temporal_detector_finds pairSettings visits
      ((not_clashing_iff visits).mp rfl) (by decide) with
    ⟨found, hFound, hBursts, hTravels⟩
  refine ⟨found, hFound, (hBursts _ (by decide)).1 ?_,
    (hTravels _ (by decide)).mpr ?_⟩
  · refine ⟨60000000, ?_⟩
    decide
  · refine ⟨visit "203.0.113.9" 2, List.mem_cons_self,
      visit "198.51.100.7" 1,
      List.mem_cons_of_mem _ List.mem_cons_self, _, _, _, _, rfl,
      rfl, rfl, rfl, by decide, by decide, by decide, rfl, rfl, ?_⟩
    decide

end ThreatOrbit.Logs
