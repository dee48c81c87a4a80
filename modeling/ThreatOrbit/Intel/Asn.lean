import ThreatOrbit.Lib.Hex
import ThreatOrbit.Lib.Lines
import ThreatOrbit.Lib.Picking

/-
  Who announces an address: the ranges of the routing table,
  stored under keys in hexadecimal, and the lookup of the
  last range that starts at or before an address.
-/

---- Keys

namespace ThreatOrbit

namespace Intel

open Lib

/- `ip.version`. -/
def ipVersion : IpAddress → Nat
| .v4 _ => 4
| .v6 _ _ => 6

/- `int(ip)`. -/
def ipNumber : IpAddress → Nat
| .v4 ip => ip.toNat
| .v6 ip _ => ip.toNat

def keyWidth (version : Nat) : Nat :=
  if version = 4 then 8 else 32

def hexKey (ip : IpAddress) : Str :=
  hexStr (keyWidth (ipVersion ip)) (ipNumber ip)

theorem ipNumber_lt (ip : IpAddress) :
    ipNumber ip < 16 ^ keyWidth (ipVersion ip) := by
  cases ip with
  | v4 ip => exact ip.isLt
  | v6 ip scope => exact ip.isLt

---- The Table

/- A row of `asn_ranges`. -/
structure AsnRow where
  family : Nat
  startHex : Str
  endHex : Str
  asn : Int
  country : Option Str
  description : Option Str
deriving DecidableEq, Repr

/- `text or None`. -/
def orNone : Str → Option Str
| [] => none
| text => some text

/- `line.rstrip("\n")`. -/
def rstripFeeds (line : Str) : Str :=
  (line.reverse.dropWhile (· == cp '\n')).reverse

/- `_parse_line`, with `str.upper`. -/
def parseLine
    (upper : Str → Str)
    (line : Str) : Option AsnRow :=
  match splitOn (cp '\t') (rstripFeeds line) with
  | startText :: endText :: asnText :: country :: desc :: _ =>
      match readInt asnText with
      | none => none
      | some asn =>
          if asn = 0 then none
          else
            match ipAddress startText, ipAddress endText with
            | some start, some stop =>
                if ipVersion start ≠ ipVersion stop then none
                else
                  some
                    { family := ipVersion start
                      startHex := hexKey start
                      endHex := hexKey stop
                      asn := asn
                      country :=
                        orNone ((upper (strip country)).take 2)
                      description :=
                        orNone ((strip desc).take 200) }
            | _, _ => none
  | _ => none

def parseDataset
    (upper : Str → Str)
    (text : Str) : List AsnRow :=
  (splitLines text).filterMap fun line =>
    if line = [] ∨ line.head? = some (cp '#') then none
    else parseLine upper line

/- A row the database takes: a number of 64 bits, and texts
that can be encoded. -/
def AsnRow.storable (r : AsnRow) : Bool :=
  -(2 ^ 63) ≤ r.asn && r.asn < 2 ^ 63 &&
    !(r.country.getD []).any isSurrogate &&
      !(r.description.getD []).any isSurrogate

/- `load_rows`: the rows replace the table, unless one of them
raises. -/
def loadRows (rows : List AsnRow) : Option (List AsnRow) :=
  if rows.all AsnRow.storable then some rows else none

/- What a lookup returns. -/
structure AsnHit where
  asn : Option Int
  country : Option Str
  description : Option Str
  note : Option Str
deriving DecidableEq, Repr

def AsnRow.hit (r : AsnRow) : AsnHit where
  asn := some r.asn
  country := r.country
  description := r.description
  note := none

/- An address that is in no public table. -/
def unannounced (ip : IpAddress) : Bool :=
  ip.isPrivate || ip.isLoopback || ip.isLinkLocal ||
    ip.isMulticast

/- The rows of a family that start at or before a key. -/
def startingBefore
    (table : List AsnRow)
    (family : Nat)
    (key : Str) : List AsnRow :=
  table.filter fun r => r.family = family && r.startHex ≤ key

/- The last row to start at or before a key, if it holds the
key. -/
def spanAt
    (db : Picker AsnRow.startHex)
    (table : List AsnRow)
    (family : Nat)
    (key : Str) : Option AsnRow :=
  match db.pick (startingBefore table family key) with
  | none => none
  | some r =>
      if r.startHex ≤ key ∧ key ≤ r.endHex then some r else none

/- The row found for an address. -/
def spanOf
    (db : Picker AsnRow.startHex)
    (table : List AsnRow)
    (ip : IpAddress) : Option AsnRow :=
  spanAt db table (ipVersion ip) (hexKey ip)

/- `lookup`. -/
def asnLookup
    (db : Picker AsnRow.startHex)
    (table : List AsnRow)
    (value : Str) : Option AsnHit :=
  match ipAddress (strip value) with
  | none => none
  | some ip =>
      if unannounced ip then
        some ⟨none, none, none,
          some (lit ("private or reserved address - " ++
            "not announced in public BGP"))⟩
      else (spanOf db table ip).map AsnRow.hit

---- Ranges

/- The keys of a row stand for two numbers. -/
structure AsnRow.Spans
    (r : AsnRow)
    (start stop : Nat) : Prop where
  startHex : r.startHex = hexStr (keyWidth r.family) start
  endHex : r.endHex = hexStr (keyWidth r.family) stop
  start_lt : start < 16 ^ keyWidth r.family
  stop_lt : stop < 16 ^ keyWidth r.family

/- The number is in the range of the row. -/
def AsnRow.Holds (r : AsnRow) (n : Nat) : Prop :=
  ∃ start stop, r.Spans start stop ∧ start ≤ n ∧ n ≤ stop

/- The row is of the family of the address, and its range has
the address. -/
def AsnRow.Covers (r : AsnRow) (ip : IpAddress) : Prop :=
  r.family = ipVersion ip ∧ r.Holds (ipNumber ip)

/- Two ranges of one family have no address in common. A range
that ends before it starts has none. -/
def Apart (r s : AsnRow) : Prop :=
  r.family = s.family → ∀ n, ¬ (r.Holds n ∧ s.Holds n)

theorem Apart.symm
    {r s : AsnRow}
    (hApart : Apart r s) :
    Apart s r := by
  intro hFamily n hBoth
  exact hApart hFamily.symm n ⟨hBoth.2, hBoth.1⟩

instance : Std.Symm Apart where
  symm _ _ := Apart.symm

/- A row that is read from a line stands for two numbers. -/
theorem spans_of_parseLine
    {upper : Str → Str} {line : Str} {r : AsnRow}
    (hParse : parseLine upper line = some r) :
    ∃ start stop, r.Spans start stop := by
  unfold parseLine at hParse
  split at hParse
  · split at hParse
    · cases hParse
    · split at hParse
      · cases hParse
      · split at hParse
        · rename_i start stop _ _
          split at hParse
          · cases hParse
          · rename_i hVersion
            rw [not_not] at hVersion
            cases hParse
            refine ⟨ipNumber start, ipNumber stop, rfl, ?_,
              ipNumber_lt start, ?_⟩
            · dsimp only
              rw [hVersion]
              rfl
            · dsimp only
              rw [hVersion]
              exact ipNumber_lt stop
        · cases hParse
  · cases hParse

theorem spans_of_parseDataset
    {upper : Str → Str} {text : Str} {r : AsnRow}
    (hRow : r ∈ parseDataset upper text) :
    ∃ start stop, r.Spans start stop := by
  rcases List.mem_filterMap.mp hRow with ⟨line, _, hLine⟩
  split at hLine
  · cases hLine
  · exact spans_of_parseLine hLine

section Spans

variable {r s : AsnRow}
variable {ip : IpAddress}
variable {start stop other last : Nat}

/- Keys of one family compare as the addresses do. -/
theorem AsnRow.Spans.start_le_key
    (hSpans : r.Spans start stop)
    (hFamily : r.family = ipVersion ip) :
    r.startHex ≤ hexKey ip ↔ start ≤ ipNumber ip := by
  have hBound := hSpans.start_lt
  rw [hSpans.startHex, hexKey, hFamily]
  rw [hFamily] at hBound
  exact hexStr_le_iff hBound (ipNumber_lt ip)

theorem AsnRow.Spans.key_le_end
    (hSpans : r.Spans start stop)
    (hFamily : r.family = ipVersion ip) :
    hexKey ip ≤ r.endHex ↔ ipNumber ip ≤ stop := by
  have hBound := hSpans.stop_lt
  rw [hSpans.endHex, hexKey, hFamily]
  rw [hFamily] at hBound
  exact hexStr_le_iff (ipNumber_lt ip) hBound

theorem AsnRow.Spans.start_le_start
    (hSpans : r.Spans start stop) (hOther : s.Spans other last)
    (hFamily : r.family = s.family) :
    r.startHex ≤ s.startHex ↔ start ≤ other := by
  have hBound := hSpans.start_lt
  rw [hFamily] at hBound
  rw [hSpans.startHex, hOther.startHex, hFamily]
  exact hexStr_le_iff hBound hOther.start_lt

theorem AsnRow.Spans.end_lt_start
    (hSpans : r.Spans start stop) :
    r.endHex < r.startHex ↔ stop < start := by
  rw [hSpans.startHex, hSpans.endHex]
  exact hexStr_lt_iff hSpans.stop_lt hSpans.start_lt

/- The numbers of a row are determined. -/
theorem AsnRow.Spans.unique
    (hSpans : r.Spans start stop) (hOther : r.Spans other last) :
    start = other ∧ stop = last := by
  constructor
  · exact hexStr_inj hSpans.start_lt hOther.start_lt
      (hSpans.startHex.symm.trans hOther.startHex)
  · exact hexStr_inj hSpans.stop_lt hOther.stop_lt
      (hSpans.endHex.symm.trans hOther.endHex)

end Spans

end Intel

end ThreatOrbit

---- Lookups

namespace ThreatOrbit

namespace Intel

open Lib

section

/- The right answer for an address: a row whose range has it,
if there is one. -/
structure Answers
    (db : Picker AsnRow.startHex)
    (table : List AsnRow)
    (value : Str)
    (ip : IpAddress) : Prop where
  found :
    (∃ r ∈ table, r.Covers ip) →
      ∃ r ∈ table, r.Covers ip ∧
        asnLookup db table value = some r.hit
  missing :
    (¬ ∃ r ∈ table, r.Covers ip) →
      asnLookup db table value = none

/- A row that ends before it starts, and starts between the
start of the range that has the address and the address. -/
def Shadowed
    (table : List AsnRow)
    (ip : IpAddress) : Prop :=
  ∃ r ∈ table, ∃ s ∈ table, ∃ start stop other last,
    r.Covers ip ∧ s.family = r.family ∧
      r.Spans start stop ∧ s.Spans other last ∧
      last < other ∧ start ≤ other ∧ other ≤ ipNumber ip

/- Every row of a table stands for two numbers. -/
def Keyed (table : List AsnRow) : Prop :=
  ∀ r ∈ table, ∃ start stop, r.Spans start stop

variable {db : Picker AsnRow.startHex}
variable {table : List AsnRow}
variable {value : Str}
variable {ip : IpAddress}

/- Where no row ends before it starts, nothing is shadowed. -/
theorem not_shadowed_of_proper
    (hProper : ∀ r ∈ table, r.startHex ≤ r.endHex) :
    ¬ Shadowed table ip := by
  rintro ⟨_, _, s, hMem, _, _, other, last, _, _, _, hSpans,
    hReversed, _⟩
  exact absurd (hSpans.end_lt_start.mpr hReversed)
    (not_lt.mpr (hProper s hMem))

theorem asnLookup_of_public
    (hIp : ipAddress (strip value) = some ip)
    (hPublic : unannounced ip = false) :
    asnLookup db table value =
      (spanOf db table ip).map AsnRow.hit := by
  unfold asnLookup
  rw [hIp]
  dsimp only
  rw [hPublic, if_neg Bool.false_ne_true]

theorem mem_startingBefore
    {family : Nat} {key : Str}
    (r : AsnRow) :
    r ∈ startingBefore table family key ↔
      r ∈ table ∧ r.family = family ∧ r.startHex ≤ key := by
  unfold startingBefore
  rw [List.mem_filter, Bool.and_eq_true, decide_eq_true_eq,
    decide_eq_true_eq]

/- What a lookup finds has the address. -/
theorem spanOf_covers
    (hKeyed : Keyed table) {r : AsnRow}
    (hSpan : spanOf db table ip = some r) :
    r ∈ table ∧ r.Covers ip := by
  unfold spanOf spanAt at hSpan
  cases hPick :
      db.pick
        (startingBefore table (ipVersion ip) (hexKey ip)) with
  | none =>
      rw [hPick] at hSpan
      cases hSpan
  | some picked =>
      rw [hPick] at hSpan
      dsimp only at hSpan
      split at hSpan
      · rename_i hBoth
        cases hSpan
        rcases (mem_startingBefore r).mp (db.mem _ _ hPick) with
          ⟨hMem, hFamily, _⟩
        rcases hKeyed r hMem with ⟨start, stop, hSpans⟩
        exact ⟨hMem, hFamily, start, stop, hSpans,
          (hSpans.start_le_key hFamily).mp hBoth.1,
          (hSpans.key_le_end hFamily).mp hBoth.2⟩
      · cases hSpan

/- The last row to start before an address has it, unless it
ends before it starts. -/
theorem spanOf_found
    (db : Picker AsnRow.startHex) (hKeyed : Keyed table)
    (hApart : table.Pairwise Apart) {r : AsnRow} (hRow : r ∈ table)
    (hCovers : r.Covers ip) (hClear : ¬ Shadowed table ip) :
    spanOf db table ip = some r := by
  rcases hCovers with ⟨hFamily, start, stop, hSpans, hAbove,
    hBelow⟩
  have hIn : r ∈ startingBefore table (ipVersion ip) (hexKey ip) :=
    (mem_startingBefore r).mpr
      ⟨hRow, hFamily, (hSpans.start_le_key hFamily).mpr hAbove⟩
  rcases db.some_of_mem _ r hIn with ⟨picked, hPick⟩
  rcases (mem_startingBefore picked).mp (db.mem _ _ hPick) with
    ⟨hMem, hSame, hBefore⟩
  rcases hKeyed picked hMem with ⟨other, last, hOther⟩
  have hFamilies : r.family = picked.family :=
    hFamily.trans hSame.symm
  have hStart : start ≤ other :=
    (hSpans.start_le_start hOther hFamilies).mp
      (db.greatest _ _ hPick r hIn)
  have hOtherLe : other ≤ ipNumber ip :=
    (hOther.start_le_key hSame).mp hBefore
  have hProper : other ≤ last := by
    by_contra hReversed
    exact hClear ⟨r, hRow, picked, hMem, start, stop, other, last,
      ⟨hFamily, start, stop, hSpans, hAbove, hBelow⟩,
      hFamilies.symm, hSpans, hOther, not_le.mp hReversed, hStart,
      hOtherLe⟩
  -- both ranges have the start of the picked one
  have hIs : picked = r := by
    by_contra hNot
    have hBetween := hApart.forall hMem hRow hNot
    exact hBetween hFamilies.symm other
      ⟨⟨other, last, hOther, le_refl _, hProper⟩,
        start, stop, hSpans, hStart, hOtherLe.trans hBelow⟩
  unfold spanOf spanAt
  rw [hPick, hIs]
  dsimp only
  rw [if_pos ⟨(hSpans.start_le_key hFamily).mpr hAbove,
    (hSpans.key_le_end hFamily).mpr hBelow⟩]

/- A database may return a row that ends before it starts. -/
theorem spanOf_shadowed
    (hKeyed : Keyed table) (hApart : table.Pairwise Apart)
    (hShadowed : Shadowed table ip) :
    spanOf
        (Picker.preferring AsnRow.startHex fun s =>
          s.endHex < s.startHex)
        table ip = none := by
  rcases hShadowed with ⟨r, hRow, s, hMem, start, stop, other,
    last, ⟨hFamily, _, _, hUnique, _, hBelow⟩, hSame, hSpans,
    hOther, hReversed, hStart, hOtherLe⟩
  have hStop := (hUnique.unique hSpans).2
  rw [hStop] at hBelow
  have hShadow : s ∈ startingBefore table (ipVersion ip) (hexKey ip) :=
    (mem_startingBefore s).mpr ⟨hMem, hSame.trans hFamily,
      (hOther.start_le_key (hSame.trans hFamily)).mpr hOtherLe⟩
  have hSome : ∃ first,
      firstBy AsnRow.startHex
        (startingBefore table (ipVersion ip) (hexKey ip)) =
          some first :=
    firstBy_some_of_mem hShadow
  rcases hSome with ⟨m, hFirst⟩
  have hGreatest := firstBy_greatest hFirst
  rcases (mem_startingBefore m).mp (firstBy_mem hFirst) with
    ⟨hIn, hFamilyM, hBefore⟩
  rcases hKeyed m hIn with ⟨mStart, mStop, hM⟩
  have hFamilies : s.family = m.family :=
    (hSame.trans hFamily).trans hFamilyM.symm
  have hLater : other ≤ mStart :=
    (hOther.start_le_start hM hFamilies).mp (hGreatest s hShadow)
  have hPreferred :
      ∃ a ∈ startingBefore table (ipVersion ip) (hexKey ip),
        decide (a.endHex < a.startHex) = true ∧
          ∀ b ∈ startingBefore table (ipVersion ip) (hexKey ip),
            b.startHex ≤ a.startHex := by
    by_cases hProper : mStart ≤ mStop
    · -- the last row is the range of the address itself
      have hIs : m = r := by
        by_contra hNot
        have hBetween :=
          hApart.forall hIn hRow hNot
        exact hBetween (hFamilies.symm.trans hSame) mStart
          ⟨⟨mStart, mStop, hM, le_refl _, hProper⟩,
            start, stop, hSpans, hStart.trans hLater,
            ((hM.start_le_key hFamilyM).mp hBefore).trans
              hBelow⟩
      rw [hIs] at hM hGreatest
      have hEqual := (hM.unique hSpans).1
      have hNoLater : r.startHex ≤ s.startHex := by
        rw [hSpans.start_le_start hOther hSame.symm]
        exact hStart
      exact ⟨s, hShadow,
        decide_eq_true (hOther.end_lt_start.mpr hReversed),
        fun b hb => le_trans (hGreatest b hb) hNoLater⟩
    · exact ⟨m, firstBy_mem hFirst,
        decide_eq_true
          (hM.end_lt_start.mpr (not_le.mp hProper)),
        hGreatest⟩
  rcases hPreferred with ⟨a, hA, hEnds, hAll⟩
  rcases preferring_of_mem
      (p := fun s : AsnRow => decide (s.endHex < s.startHex))
      hA hEnds hAll with
    ⟨picked, hPick, hPicked⟩
  have hLess := of_decide_eq_true hPicked
  unfold spanOf spanAt
  rw [hPick]
  dsimp only
  rw [if_neg]
  rintro ⟨hStartKey, hKeyEnd⟩
  exact absurd (le_trans hStartKey hKeyEnd) (not_le.mpr hLess)

/- The dataset is loaded, and whichever row the database picks
among those of one start, the lookup of an address answers
right. -/
def Exact
    (upper : Str → Str)
    (text value : Str)
    (ip : IpAddress) : Prop :=
  ∃ table,
    loadRows (parseDataset upper text) = some table ∧
      ∀ db, Answers db table value ip

/- The lookup of a public address is exact if and only if the
database takes every row of the dataset, and no row that
ends before it starts shadows the range of the address. -/
theorem lookup_exact_iff
    {upper : Str → Str}
    {text : Str}
    (hApart : (parseDataset upper text).Pairwise Apart)
    (hIp : ipAddress (strip value) = some ip)
    (hPublic : unannounced ip = false) :
    Exact upper text value ip ↔
      (∀ r ∈ parseDataset upper text, r.storable = true) ∧
        ¬ Shadowed (parseDataset upper text) ip := by
  have hKeyed : Keyed (parseDataset upper text) :=
    fun _ hRow => spans_of_parseDataset hRow
  constructor
  · rintro ⟨table, hLoad, hAnswers⟩
    unfold loadRows at hLoad
    split at hLoad
    · rename_i hAll
      cases hLoad
      refine ⟨List.all_eq_true.mp hAll, ?_⟩
      intro hShadowed
      have hNone := spanOf_shadowed hKeyed hApart hShadowed
      rcases hShadowed with ⟨r, hRow, _, _, _, _, _, _, hCovers, _⟩
      rcases (hAnswers _).found ⟨r, hRow, hCovers⟩ with
        ⟨found, _, _, hFound⟩
      rw [asnLookup_of_public hIp hPublic, hNone] at hFound
      cases hFound
    · cases hLoad
  · rintro ⟨hStorable, hClear⟩
    refine ⟨parseDataset upper text, ?_, ?_⟩
    · unfold loadRows
      rw [if_pos (List.all_eq_true.mpr hStorable)]
    · intro db
      constructor
      · rintro ⟨r, hRow, hCovers⟩
        refine ⟨r, hRow, hCovers, ?_⟩
        rw [asnLookup_of_public hIp hPublic,
          spanOf_found db hKeyed hApart hRow hCovers hClear]
        rfl
      · intro hNobody
        rw [asnLookup_of_public hIp hPublic]
        cases hSpan : spanOf db (parseDataset upper text) ip with
        | none => rfl
        | some r =>
            exact absurd ⟨r, spanOf_covers hKeyed hSpan⟩ hNobody

end

---- A Range That Is Shadowed

/- `str.upper` on ASCII. -/
def upperAscii (s : Str) : Str :=
  s.map fun c => if cp 'a' ≤ c ∧ c ≤ cp 'z' then c - 32 else c

def googleLine : String :=
  "8.8.8.0\t8.8.8.255\t15169\tUS\tGOOGLE"

/- A line whose start is after its end. -/
def reversedLine : String :=
  "8.8.8.4\t8.8.8.1\t64500\tXX\tBROKEN"

def googleRow : AsnRow :=
  ⟨4, lit "08080800", lit "080808ff", 15169,
    some (lit "US"), some (lit "GOOGLE")⟩

def reversedRow : AsnRow :=
  ⟨4, lit "08080804", lit "08080801", 64500,
    some (lit "XX"), some (lit "BROKEN")⟩

/- The address 8.8.8.8. -/
def eights : IpAddress :=
  .v4 0x08080808#32

theorem lookup_google :
    Exact upperAscii (lit googleLine) (lit "8.8.8.8") eights := by
  have hRows :
      parseDataset upperAscii (lit googleLine) = [googleRow] := by
    decide
  refine (lookup_exact_iff ?_ (by decide)
    (by decide)).mpr ⟨?_, ?_⟩
  · rw [hRows]
    exact List.pairwise_singleton _ _
  · rw [hRows]
    decide
  · apply not_shadowed_of_proper
    rw [hRows]
    decide

theorem covers_google : googleRow.Covers eights :=
  ⟨rfl, 0x08080800, 0x080808ff,
    ⟨by decide, by decide, by decide,
      by decide⟩, by decide, by decide⟩

/- The reversed line hides the range of the address. -/
theorem reversed_line_hides :
    ¬ Exact upperAscii
      (lit (googleLine ++ "\n" ++ reversedLine))
      (lit "8.8.8.8") eights := by
  rintro ⟨table, hLoad, hAnswers⟩
  have hRows :
      loadRows (parseDataset upperAscii
        (lit (googleLine ++ "\n" ++ reversedLine))) =
          some [googleRow, reversedRow] := by
    decide
  rw [hRows] at hLoad
  cases hLoad
  rcases (hAnswers (Picker.first _)).found
    ⟨googleRow, List.mem_cons_self, covers_google⟩ with
      ⟨r, _, _, hFound⟩
  have hNone :
      asnLookup (Picker.first _) [googleRow, reversedRow]
        (lit "8.8.8.8") = none := by
    decide
  rw [hNone] at hFound
  cases hFound

end Intel

end ThreatOrbit
