import ThreatOrbit.Lib.Shell
import ThreatOrbit.Lib.Suffixes

/-
  The registrable domain of a host: the part that someone
  registered. Names that resolve to one are siblings.

  Where the boundary sits is read from a partial table of
  public suffixes, of registries and of platforms; the longest
  listed suffix counts.
-/

---- The Registrable Domain

namespace ThreatOrbit

namespace Cti

open Lib

/- `_MULTI_LABEL_SUFFIXES`: the platforms first, then the
registries. -/
def multiLabelSuffixes : List Str :=
  ["000webhostapp.com", "vercel.app", "appspot.com",
   "r.appspot.com", "github.io", "xsph.ru", "blogspot.com",
   "pages.dev", "weebly.com", "duckdns.org", "ddns.net",
   "wcomhost.com", "repl.co", "cprapid.com", "netlify.app",
   "web.app", "firebaseapp.com", "workers.dev", "herokuapp.com",
   "azurewebsites.net", "glitch.me", "surge.sh", "neocities.org",
   "wixsite.com", "myshopify.com", "trycloudflare.com",
   "ngrok.io", "ngrok-free.app", "r2.dev", "loca.lt", "hopto.org",
   "no-ip.org", "serveo.net", "onrender.com", "fleek.co", "co.uk",
   "org.uk", "ac.uk", "gov.uk", "me.uk", "net.uk", "sch.uk",
   "com.au", "net.au", "org.au", "edu.au", "gov.au", "co.nz",
   "net.nz", "org.nz", "govt.nz", "co.za", "org.za", "web.za",
   "com.br", "net.br", "org.br", "gov.br", "co.jp", "or.jp",
   "ne.jp", "ac.jp", "go.jp", "com.cn", "net.cn", "org.cn",
   "gov.cn", "edu.cn", "co.in", "net.in", "org.in", "gov.in",
   "ac.in", "com.mx", "com.ar", "com.tr", "com.sg", "com.hk",
   "com.tw", "co.kr", "or.kr", "go.kr", "com.pl", "com.ua",
   "com.ru", "co.il", "com.my", "co.id", "com.ph"].map lit

variable [Unicode]

/- The part someone registered. -/
def registrableDomain (host : Str) : Option Str :=
  let h := Unicode.lower
    (stripBy (fun c => c == cp '.') (strip host))
  if h.isEmpty || contains (lit "/") h ||
      contains (lit ":") h then
    none
  else
    let labels := splitOn (cp '.') h
    if labels.length < 2 || labels.any List.isEmpty then
      none
    -- an address with dots, not a domain
    else if strIsDigit (labels.getLastD []) then
      none
    else
      -- the longest suffix wins
      match [3, 2].find? (fun take =>
          decide (take < labels.length) &&
            multiLabelSuffixes.contains
              (joinWith (lit ".") (labels.rtake take))) with
      | some take =>
          some (joinWith (lit ".") (labels.rtake (take + 1)))
      | none => some (joinWith (lit ".") (labels.rtake 2))

---- Host Names

/- A lower-case host name of two labels or more, whose last
label is not all digits. -/
structure HostName (host : Str) : Prop where
  lower : ∀ s, s <:+: host → Unicode.lower s = s
  noSpace : ∀ c ∈ host, isSpace c = false
  noSlash : cp '/' ∉ host
  noColon : cp ':' ∉ host
  many : 2 ≤ (splitOn (cp '.') host).length
  full : ∀ label ∈ splitOn (cp '.') host, label ≠ []
  noDigits :
    strIsDigit ((splitOn (cp '.') host).getLastD []) = false

omit [Unicode]

/- The last labels of a host. -/
def AtLabel (d host : Str) : Prop :=
  d = host ∨ ∃ before, host = before ++ cp '.' :: d

/- Labels that the table lists, written as one suffix. -/
def Listed (labels : List Str) : Prop :=
  joinWith (lit ".") labels ∈ multiLabelSuffixes

instance : DecidablePred Listed :=
  fun _ => inferInstanceAs (Decidable (_ ∈ _))

/- The public suffix of a host: the longest listed one, or else
its last label. -/
def publicSuffix (host : Str) : Str :=
  joinWith (lit ".")
    (longestListed Listed (splitOn (cp '.') host))

end Cti

end ThreatOrbit

---- Parts Around A Separator

namespace Lib

/- The parts of a text around a separator. -/
theorem splitOn_sep
    (c : Nat) (s t : Str) :
    splitOn c (s ++ c :: t) = splitOn c s ++ splitOn c t := by
  induction s with
  | nil => exact splitOn_append List.not_mem_nil t
  | cons x s ih =>
      rw [List.cons_append, splitOn, splitOn, ih]
      split
      · rfl
      · cases hS : splitOn c s with
        | nil => exact absurd hS (splitOn_ne_nil c s)
        | cons part parts => rfl

theorem joinWith_splitOn
    (c : Nat) (s : Str) :
    joinWith [c] (splitOn c s) = s := by
  induction s with
  | nil => rfl
  | cons x s ih =>
      rw [splitOn]
      cases hS : splitOn c s with
      | nil => exact absurd hS (splitOn_ne_nil c s)
      | cons part parts =>
          rw [hS] at ih
          split
          · rename_i hSep
            rw [joinWith, ih, hSep]
            · rfl
            · exact fun h => List.cons_ne_nil _ _ h
          · cases parts with
            | nil =>
                rw [joinWith] at ih
                rw [joinWith, ih]
            | cons next parts =>
                rw [joinWith] at ih ⊢
                · rw [List.cons_append, List.cons_append, ih]
                · exact fun h => List.cons_ne_nil _ _ h
                · exact fun h => List.cons_ne_nil _ _ h

theorem joinWith_append
    {sep : Str} {first later : List Str}
    (hFirst : first ≠ []) (hLater : later ≠ []) :
    joinWith sep (first ++ later) =
      joinWith sep first ++ sep ++ joinWith sep later := by
  induction first with
  | nil => exact absurd rfl hFirst
  | cons part first ih =>
      cases first with
      | nil =>
          obtain ⟨next, rest, rfl⟩ :=
            List.exists_cons_of_ne_nil hLater
          rfl
      | cons next first =>
          have hCons :
              joinWith sep (part :: (next :: first ++ later)) =
                part ++ sep ++
                  joinWith sep (next :: first ++ later) :=
            rfl
          rw [List.cons_append, hCons,
            ih (List.cons_ne_nil _ _)]
          simp only [joinWith, List.append_assoc]

end Lib

---- The Table

namespace ThreatOrbit

namespace Cti

open Lib

theorem dots_of_listed :
    ∀ s ∈ multiLabelSuffixes,
      s.count (cp '.') ≤ 2 ∧
        ∀ u ∈ s.tails,
          cp '.' ∈ u → cp '.' :: u <:+ s →
            u ∈ multiLabelSuffixes := by
  decide +kernel

theorem length_le_count_joinWith
    (labels : List Str) :
    labels.length ≤
      (joinWith (lit ".") labels).count (cp '.') + 1 := by
  induction labels with
  | nil => exact Nat.zero_le _
  | cons label labels ih =>
      cases labels with
      | nil => exact Nat.le_add_left 1 _
      | cons next labels =>
          have hCount :
              (joinWith (lit ".")
                  (label :: next :: labels)).count (cp '.') =
                label.count (cp '.') + 1 +
                  (joinWith (lit ".") (next :: labels)).count
                    (cp '.') := by
            simp only [joinWith, List.count_append]
            rfl
          rw [hCount, List.length_cons]
          omega

theorem length_of_listed
    {labels : List Str}
    (hListed : Listed labels) :
    labels.length ≤ 3 := by
  have hDots := (dots_of_listed _ hListed).1
  have hLength := length_le_count_joinWith labels
  omega

theorem tailListed_listed : TailListed Listed := by
  intro a b c rest hListed
  have hSuffix :
      cp '.' :: joinWith (lit ".") (b :: c :: rest) <:+
        joinWith (lit ".") (a :: b :: c :: rest) :=
    ⟨a, by simp only [joinWith, List.append_assoc]; rfl⟩
  apply (dots_of_listed _ hListed).2 _ _ _ hSuffix
  · exact (List.mem_tails _ _).mpr
      ((List.suffix_cons _ _).trans hSuffix)
  · simp only [joinWith, List.mem_append]
    exact Or.inl (Or.inr (List.mem_singleton_self _))

---- The Longest Suffix Wins

/- The length of the longest listed suffix of labels. -/
theorem length_longestListed
    (labels : List Str) (hMany : 2 ≤ labels.length) :
    1 ≤ (longestListed Listed labels).length ∧
      (longestListed Listed labels).length ≤ 3 := by
  have hSome :=
    longestListed_ne_nil Listed
      (List.ne_nil_of_length_pos (Nat.lt_of_succ_lt hMany))
  refine ⟨List.length_pos_of_ne_nil hSome, ?_⟩
  by_contra hLong
  exact hLong (length_of_listed
    (longestListed_listed (by omega)))

/- A listed suffix of a given length is not passed over. -/
theorem le_length_longestListed
    {labels : List Str} {n : Nat}
    (hShort : n ≤ labels.length)
    (hListed : Listed (labels.rtake n)) :
    n ≤ (longestListed Listed labels).length := by
  have hLe :=
    length_le_longestListed (rtake_suffix n labels) hListed
  rwa [length_rtake, Nat.min_eq_left hShort] at hLe

/- The longest listed suffix as labels taken from the end. -/
theorem listed_rtake_length
    (labels : List Str)
    (hMany : 1 < (longestListed Listed labels).length) :
    Listed
      (labels.rtake (longestListed Listed labels).length) := by
  rw [rtake_of_suffix (longestListed_suffix Listed labels)]
  exact longestListed_listed hMany

theorem key_of_three
    {labels : List Str}
    (hLong : 3 < labels.length)
    (hListed : Listed (labels.rtake 3)) :
    clusterKey Listed labels = labels.rtake 4 := by
  have hLe := le_length_longestListed hLong.le hListed
  have hBounds := length_longestListed labels (by omega)
  rw [clusterKey, Nat.le_antisymm hBounds.2 hLe]

theorem key_of_two
    {labels : List Str}
    (hThree : ¬ (3 < labels.length ∧ Listed (labels.rtake 3)))
    (hLong : 2 < labels.length)
    (hListed : Listed (labels.rtake 2)) :
    clusterKey Listed labels = labels.rtake 3 := by
  have hLe := le_length_longestListed hLong.le hListed
  have hBounds := length_longestListed labels (by omega)
  by_cases hTwo : (longestListed Listed labels).length = 2
  · rw [clusterKey, hTwo]
  · -- the host is a listed suffix of three labels itself
    have hIs : (longestListed Listed labels).length = 3 := by
      omega
    have hWhole := listed_rtake_length labels (by omega)
    rw [hIs] at hWhole
    have hAll : labels.length ≤ 3 :=
      Nat.le_of_not_lt (fun h => hThree ⟨h, hWhole⟩)
    rw [clusterKey, hIs, rtake_of_length_le (by omega),
      rtake_of_length_le hAll]

theorem key_of_none
    {labels : List Str}
    (hThree : ¬ (3 < labels.length ∧ Listed (labels.rtake 3)))
    (hTwo : ¬ (2 < labels.length ∧ Listed (labels.rtake 2)))
    (hMany : 2 ≤ labels.length) :
    clusterKey Listed labels = labels.rtake 2 := by
  have hBounds := length_longestListed _ hMany
  by_cases hOne : (longestListed Listed labels).length = 1
  · rw [clusterKey, hOne]
  · have hListed := listed_rtake_length labels (by omega)
    have hShort : labels.length ≤ 2 := by
      by_contra hLong
      have hIs : (longestListed Listed labels).length = 3 := by
        by_contra hNot
        have hSame : (longestListed Listed labels).length = 2 := by
          omega
        rw [hSame] at hListed
        exact hTwo ⟨by omega, hListed⟩
      rw [hIs] at hListed
      -- three labels, all of them: the last two are listed
      have hAll : labels.length = 3 := by
        by_contra hMore
        exact hThree ⟨by omega, hListed⟩
      obtain ⟨a, b, c, rfl⟩ := List.length_eq_three.mp hAll
      exact hTwo ⟨by omega, tailListed_listed _ _ _ _ hListed⟩
    rw [clusterKey, rtake_of_length_le (by omega),
      rtake_of_length_le hShort]

end Cti

end ThreatOrbit

---- Host Names And Their Labels

namespace Lib

/- A text with other characters at its ends is not stripped. -/
theorem stripBy_of_ends
    {p : Nat → Bool} {s : Str}
    (hHead : ∀ c ∈ s.head?, p c = false)
    (hLast : ∀ c ∈ s.getLast?, p c = false) :
    stripBy p s = s := by
  have hKeep :
      ∀ t : Str, (∀ c ∈ t.head?, p c = false) →
        t.dropWhile p = t := by
    intro t hT
    cases t with
    | nil => rfl
    | cons c t =>
        rw [List.dropWhile_cons, hT c rfl]
        rfl
  have hBack : ∀ c ∈ s.reverse.head?, p c = false := by
    rw [List.head?_reverse]
    exact hLast
  rw [stripBy, hKeep s hHead, hKeep _ hBack,
    List.reverse_reverse]

end Lib

namespace ThreatOrbit

namespace Cti

open Lib

/- The labels of the end of a host. -/
theorem AtLabel.labels
    {d host : Str}
    (hAt : AtLabel d host) :
    splitOn (cp '.') d <:+ splitOn (cp '.') host := by
  rcases hAt with hWhole | ⟨before, hBefore⟩
  · rw [hWhole]
  · rw [hBefore, splitOn_sep]
    exact List.suffix_append _ _

theorem AtLabel.suffix
    {d host : Str}
    (hAt : AtLabel d host) :
    d <:+ host := by
  rcases hAt with hWhole | ⟨before, hBefore⟩
  · rw [hWhole]
  · rw [hBefore]
    exact (List.suffix_cons _ _).trans (List.suffix_append _ _)

/- The last labels of a host are its end. -/
theorem atLabel_joinWith
    {host : Str} {labels : List Str}
    (hSome : labels ≠ [])
    (hSuffix : labels <:+ splitOn (cp '.') host) :
    AtLabel (joinWith (lit ".") labels) host := by
  rcases hSuffix with ⟨before, hBefore⟩
  have hHost := joinWith_splitOn (cp '.') host
  rw [← hBefore] at hHost
  by_cases hFirst : before = []
  · rw [hFirst, List.nil_append] at hHost
    exact Or.inl hHost
  · right
    refine ⟨joinWith (lit ".") before, ?_⟩
    rw [joinWith_append hFirst hSome, List.append_assoc]
      at hHost
    exact hHost.symm

/- The labels of joined labels of a host. -/
theorem splitOn_joined
    {host : Str} {labels : List Str}
    (hSome : labels ≠ [])
    (hSuffix : labels <:+ splitOn (cp '.') host) :
    splitOn (cp '.') (joinWith (lit ".") labels) = labels :=
  splitOn_joinWith hSome
    (fun _ h => not_mem_of_splitOn (hSuffix.subset h))

section

variable [Unicode]

/- A host name is taken as it is written. -/
theorem HostName.stripped
    {host : Str}
    (hHost : HostName host) :
    Unicode.lower
        (stripBy (fun c => c == cp '.') (strip host)) =
      host := by
  have hSpaces : strip host = host := by
    apply stripBy_of_ends
    · intro c hC
      exact hHost.noSpace c (List.mem_of_mem_head? hC)
    · intro c hC
      exact hHost.noSpace c (List.mem_of_mem_getLast? hC)
  have hDots : stripBy (fun c => c == cp '.') host = host := by
    apply stripBy_of_ends
    · intro c hC
      refine beq_eq_false_iff_ne.mpr (fun hDot => ?_)
      obtain ⟨rest, hRest⟩ := List.head?_eq_some_iff.mp hC
      apply hHost.full [] ?_ rfl
      rw [hRest, hDot]
      exact List.mem_append_left (splitOn (cp '.') rest)
        (List.mem_singleton_self [])
    · intro c hC
      refine beq_eq_false_iff_ne.mpr (fun hDot => ?_)
      obtain ⟨front, hFront⟩ := List.getLast?_eq_some_iff.mp hC
      apply hHost.full [] ?_ rfl
      rw [hFront, hDot, splitOn_sep]
      exact List.mem_append_right _ (List.mem_singleton_self [])
  rw [hSpaces, hDots]
  exact hHost.lower host (List.infix_refl host)

/- The end of a host name is one, if two labels are left. -/
theorem HostName.atLabel
    {d host : Str}
    (hHost : HostName host) (hAt : AtLabel d host)
    (hMany : 2 ≤ (splitOn (cp '.') d).length) :
    HostName d where
  lower s hS := hHost.lower s (hS.trans hAt.suffix.isInfix)
  noSpace c hC := hHost.noSpace c (hAt.suffix.subset hC)
  noSlash hC := hHost.noSlash (hAt.suffix.subset hC)
  noColon hC := hHost.noColon (hAt.suffix.subset hC)
  many := hMany
  full label hLabel := hHost.full label (hAt.labels.subset hLabel)
  noDigits := by
    rcases hAt.labels with ⟨before, hBefore⟩
    have hLast := hHost.noDigits
    rwa [← hBefore, List.getLastD_eq_getLast?,
      List.getLast?_append_of_ne_nil _ (splitOn_ne_nil _ _),
      ← List.getLastD_eq_getLast?] at hLast

/- The registrable domain of a host name: its public suffix with
one label more. -/
theorem registrableDomain_eq_key
    {host : Str}
    (hHost : HostName host) :
    registrableDomain host =
      some (joinWith (lit ".")
        (clusterKey Listed (splitOn (cp '.') host))) := by
  have hChars :
      (host.isEmpty || contains (lit "/") host ||
        contains (lit ":") host) = false := by
    have hSome : host ≠ [] := by
      intro hNil
      have hMany := hHost.many
      rw [hNil] at hMany
      exact absurd hMany (by decide)
    have hSlash : 47 ∉ host := hHost.noSlash
    have hColon : 58 ∉ host := hHost.noColon
    simp [contains, lit, List.singleton_infix_iff, hSome,
      hSlash, hColon]
  have hLabels :
      (decide ((splitOn (cp '.') host).length < 2) ||
        (splitOn (cp '.') host).any List.isEmpty) = false := by
    rw [Bool.or_eq_false_iff, decide_eq_false_iff_not,
      List.any_eq_false]
    refine ⟨Nat.not_lt.mpr hHost.many, ?_⟩
    intro label hLabel hEmpty
    exact hHost.full label hLabel (List.isEmpty_iff.mp hEmpty)
  have hContains :
      ∀ n, multiLabelSuffixes.contains
          (joinWith (lit ".")
            ((splitOn (cp '.') host).rtake n)) =
        decide (Listed ((splitOn (cp '.') host).rtake n)) := by
    intro n
    rw [List.contains_eq_mem]
    rfl
  have hMany := hHost.many
  unfold registrableDomain
  simp only [hHost.stripped, hChars, hLabels, hHost.noDigits,
    hContains, Bool.false_eq_true, if_false, ← Bool.decide_and]
  by_cases hThree :
      3 < (splitOn (cp '.') host).length ∧
        Listed ((splitOn (cp '.') host).rtake 3)
  · rw [List.find?_cons_of_pos (by simpa using hThree),
      key_of_three hThree.1 hThree.2]
  · rw [List.find?_cons_of_neg (by simpa using hThree)]
    by_cases hTwo :
        2 < (splitOn (cp '.') host).length ∧
          Listed ((splitOn (cp '.') host).rtake 2)
    · rw [List.find?_cons_of_pos (by simpa using hTwo),
        key_of_two hThree hTwo.1 hTwo.2]
    · rw [List.find?_cons_of_neg (by simpa using hTwo),
        key_of_none hThree hTwo hMany]
      rfl

end

end Cti

end ThreatOrbit

---- A Stable Key

namespace ThreatOrbit

namespace Cti

open Lib

/- The label that stands before a suffix in a host. -/
def CustomerOf (label suffix host : Str) : Prop :=
  cp '.' ∉ label ∧ AtLabel (label ++ cp '.' :: suffix) host

/- A host with a label before its public suffix. -/
theorem length_lt_of_longer
    {host : Str}
    (hLonger : publicSuffix host ≠ host) :
    (longestListed Listed (splitOn (cp '.') host)).length <
      (splitOn (cp '.') host).length := by
  by_contra hNot
  have hSame :=
    (longestListed_suffix Listed
      (splitOn (cp '.') host)).eq_of_length_le
        (Nat.le_of_not_lt hNot)
  apply hLonger
  rw [publicSuffix, hSame]
  exact joinWith_splitOn _ _

section

variable [Unicode]

theorem HostName.labels_ne_nil
    {host : Str}
    (hHost : HostName host) :
    clusterKey Listed (splitOn (cp '.') host) ≠ [] ∧
      2 ≤ (clusterKey Listed (splitOn (cp '.') host)).length := by
  have hMany := hHost.many
  have hLength :=
    length_clusterKey Listed (splitOn (cp '.') host)
  have hBounds := length_longestListed _ hMany
  refine ⟨List.ne_nil_of_length_pos ?_, ?_⟩
  · omega
  · omega

/- The labels of the registrable domain are the key. -/
theorem HostName.splitOn_key
    {host : Str}
    (hHost : HostName host) :
    splitOn (cp '.')
        (joinWith (lit ".")
          (clusterKey Listed (splitOn (cp '.') host))) =
      clusterKey Listed (splitOn (cp '.') host) :=
  splitOn_joined hHost.labels_ne_nil.1 (clusterKey_suffix Listed _)

/- The registrable domain is the end of the host, and its own
registrable domain. -/
theorem HostName.key_stable
    {host : Str}
    (hHost : HostName host) :
    ∃ d, registrableDomain host = some d ∧
      AtLabel d host ∧ registrableDomain d = some d := by
  have hAt :=
    atLabel_joinWith hHost.labels_ne_nil.1
      (clusterKey_suffix Listed
        (splitOn (cp '.') host))
  have hKey := hHost.splitOn_key
  refine ⟨_, registrableDomain_eq_key hHost, hAt, ?_⟩
  have hDomain := hHost.atLabel hAt
    (by rw [hKey]; exact hHost.labels_ne_nil.2)
  rw [registrableDomain_eq_key hDomain, hKey,
    clusterKey_clusterKey]

/- More labels before a host that is longer than its public
suffix. -/
theorem HostName.key_prepend
    {host more : Str}
    (hHost : HostName host)
    (hMore : HostName (more ++ cp '.' :: host))
    (hLonger : publicSuffix host ≠ host) :
    registrableDomain (more ++ cp '.' :: host) =
      registrableDomain host := by
  rw [registrableDomain_eq_key hMore,
    registrableDomain_eq_key hHost, splitOn_sep,
    clusterKey_append tailListed_listed
      (length_lt_of_longer hLonger)]

/- Two customers of one listed suffix do not share a key. -/
theorem HostName.key_customers
    {host other suffix a b : Str}
    (hHost : HostName host) (hOther : HostName other)
    (hListed : suffix ∈ multiLabelSuffixes)
    (hA : CustomerOf a suffix host) (hB : CustomerOf b suffix other)
    (hSame : registrableDomain host = registrableDomain other) :
    a = b := by
  have hLabels : Listed (splitOn (cp '.') suffix) := by
    have hText : joinWith (lit ".") (splitOn (cp '.') suffix) =
        suffix :=
      joinWith_splitOn (cp '.') suffix
    unfold Listed
    rwa [hText]
  have hKeys :
      clusterKey Listed (splitOn (cp '.') host) =
        clusterKey Listed (splitOn (cp '.') other) := by
    rw [registrableDomain_eq_key hHost,
      registrableDomain_eq_key hOther] at hSame
    rw [← hHost.splitOn_key, Option.some.inj hSame,
      hOther.splitOn_key]
  have hFirst := hA.2.labels
  have hSecond := hB.2.labels
  rw [splitOn_append hA.1] at hFirst
  rw [splitOn_append hB.1] at hSecond
  exact clusterKey_inj hLabels hFirst hSecond hKeys

/- The registrable domain as a key to cluster by: it is the end
of the host, its own key, not changed by more labels, and no
two customers of one platform share it. -/
theorem registrableDomain_stable
    (host : Str)
    (hHost : HostName host) :
    (∃ d, registrableDomain host = some d ∧
      AtLabel d host ∧ registrableDomain d = some d) ∧
    (publicSuffix host ≠ host → ∀ more,
      HostName (more ++ cp '.' :: host) →
        registrableDomain (more ++ cp '.' :: host) =
          registrableDomain host) ∧
    ∀ other suffix a b,
      HostName other → suffix ∈ multiLabelSuffixes →
        CustomerOf a suffix host →
          CustomerOf b suffix other → a ≠ b →
            registrableDomain host ≠
              registrableDomain other := by
  refine ⟨hHost.key_stable, ?_, ?_⟩
  · intro hLonger more hMore
    exact hHost.key_prepend hMore hLonger
  · intro other suffix a b hOther hListed hA hB hNot hSame
    exact hNot
      (hHost.key_customers hOther hListed hA hB hSame)

end

---- A Customer Of A Platform

local instance registrableUnicode : Unicode := asciiTables

theorem hostName_ascii
    {host : Str}
    (hLower : ∀ c ∈ host, asciiLower c = c)
    (hSpace : ∀ c ∈ host, isSpace c = false)
    (hSlash : cp '/' ∉ host) (hColon : cp ':' ∉ host)
    (hMany : 2 ≤ (splitOn (cp '.') host).length)
    (hFull : ∀ label ∈ splitOn (cp '.') host, label ≠ [])
    (hDigits :
      strIsDigit ((splitOn (cp '.') host).getLastD []) =
        false) :
    HostName host := by
  refine ⟨?_, hSpace, hSlash, hColon, hMany, hFull, hDigits⟩
  intro s hS
  have hEach : s.map asciiLower = s.map id :=
    List.map_congr_left (fun c hC => hLower c (hS.subset hC))
  exact hEach.trans (List.map_id s)

theorem customer_stable :
    ∃ d, registrableDomain (lit "login.x.r.appspot.com") =
        some d ∧
      AtLabel d (lit "login.x.r.appspot.com") ∧
        registrableDomain d = some d :=
  (registrableDomain_stable (lit "login.x.r.appspot.com")
    (hostName_ascii (by decide) (by decide) (by decide)
      (by decide) (by decide) (by decide) (by decide))).1

end Cti

end ThreatOrbit
