import ThreatOrbit.Intel.Asn

/-
  What else is known near an address: the indicators of its
  subnet, and those of the range it is announced in.

  Both groups ask for keys between two keys. The keys of the
  two families of addresses have different lengths, and stand
  in one column.
-/

---- Pivots

namespace ThreatOrbit.Cti

open Lib

open Intel (ipVersion ipNumber keyWidth hexKey)

/- The columns of `iocs` that a pivot reads. -/
structure PivotRow where
  id : Str
  type : Str
  value : Str
  severity : Option Str
  intelScore : Int
  threatType : Option Str
  status : Str
  ipHex : Option Str
deriving DecidableEq, Repr

/- What a group shows of a row. -/
structure PivotItem where
  id : Str
  type : Str
  value : Str
  severity : Option Str
  intelScore : Int
  threatType : Option Str
  status : Str
deriving DecidableEq, Repr

def PivotRow.item (r : PivotRow) : PivotItem where
  id := r.id
  type := r.type
  value := r.value
  severity := r.severity
  intelScore := r.intelScore
  threatType := r.threatType
  status := r.status

/- A group of indicators, and what to search for it by. -/
structure PivotGroup where
  key : Str
  label : Str
  why : Str
  total : Nat
  items : List PivotItem
  pivot : Str × Str
deriving DecidableEq, Repr

def addressOf (value type : Str) : Option IpAddress :=
  if type ≠ [] ∧ type ≠ lit "ip" then none
  else ipAddress (strip value)

def ipHexOf (value type : Str) : Option Str :=
  (addressOf value type).map hexKey

/- `ORDER BY intel_score DESC, id DESC`. -/
def bestFirst (a b : PivotRow) : Prop :=
  b.intelScore < a.intelScore ∨
    b.intelScore = a.intelScore ∧ b.id ≤ a.id

instance : DecidableRel bestFirst :=
  fun _ _ => inferInstanceAs (Decidable (_ ∨ _ ∧ _))

/- `ip_hex IS NOT NULL AND ip_hex BETWEEN ? AND ? AND
id != ?`. -/
def keyBetween (lo hi own : Str) (r : PivotRow) : Bool :=
  match r.ipHex with
  | none => false
  | some key => lo ≤ key && key ≤ hi && r.id != own

/- `_rows`. -/
def pivotItems
    (rows : List PivotRow)
    (holds : PivotRow → Bool)
    (limit : Nat)
    (own : Str) : List PivotItem :=
  ((((rows.filter holds).insertionSort bestFirst).take
    limit).filter fun r => r.id != own).map PivotRow.item

/- `_count`. -/
def pivotCount
    (rows : List PivotRow)
    (holds : PivotRow → Bool) : Nat :=
  (rows.filter holds).length

/- The group of the rows between two keys, from its total and
its items: none if it has no items. -/
def keyedGroup
    (rows : List PivotRow)
    (lo hi own : Str)
    (limit : Nat)
    (group : Nat → List PivotItem → PivotGroup) :
    List PivotGroup :=
  let items := pivotItems rows (keyBetween lo hi own) (limit + 1) own
  if items = [] then []
  else
    [group (pivotCount rows (keyBetween lo hi own))
      (items.take limit)]

---- Groups

open Intel (ipVersion ipNumber keyWidth hexKey AsnRow asnLookup
  spanAt)

section

/- `int(text, 16)` of digits. -/
def hexInt (s : Str) : Nat :=
  (hexNat s).getD 0

/- `text[i:i + n]`. -/
def slice (s : Str) (i n : Nat) : Str :=
  (s.drop i).take n

/- `_SUBNET_PREFIX`. -/
def subnetPrefix : Nat → Option (Nat × Nat)
| 8 => some (6, 24)
| 32 => some (16, 64)
| _ => none

/- The block that a prefix stands for, and how many addresses
it has where that is counted. -/
def subnetBlock (keyPrefix : Str) : Nat → Str × Option Nat
| 24 =>
    (natStr (hexInt (slice keyPrefix 0 2)) ++ lit "." ++
      natStr (hexInt (slice keyPrefix 2 2)) ++ lit "." ++
      natStr (hexInt (slice keyPrefix 4 2)) ++ lit ".0/24",
      some 256)
| _ =>
    (joinWith (lit ":")
      [slice keyPrefix 0 4, slice keyPrefix 4 4,
        slice keyPrefix 8 4, slice keyPrefix 12 4] ++
      lit "::/64",
      none)

/- How much of a block is listed, where that is a lot. -/
def density (capacity : Option Nat) (total : Nat) : Str :=
  match capacity with
  | none => []
  | some capacity =>
      if capacity / 8 < total + 1 then
        lit " - " ++ natStr (total + 1) ++ lit " of " ++
          natStr capacity ++ lit " addresses in it are listed"
      else []

def subnetOf
    (block : Str)
    (capacity : Option Nat)
    (total : Nat)
    (items : List PivotItem) : PivotGroup where
  key := lit "subnet"
  label := lit "Same subnet - " ++ block
  why :=
    lit "another listed address in " ++ block ++
      density capacity total ++
      lit (". Adjacency is weaker evidence than a shared AS" ++
        " - in cloud space neighbours can be unrelated " ++
        "tenants - but both ends are already known-bad, and " ++
        "a dense block is a subnet to act on rather than a " ++
        "list of hosts")
  total := total
  items := items
  pivot := (lit "subnet", block)

/- `hit["description"] or f"AS…"`. -/
def orgName (asn : Int) : Option Str → Str
| none | some [] => lit "AS" ++ intStr asn
| some description => description

/- A range of the routing table as a group. -/
def networkOf
    (asn : Int)
    (org : Str)
    (total : Nat)
    (items : List PivotItem) : PivotGroup where
  key := lit "network"
  label := lit "Same network - AS" ++ intStr asn ++ lit " " ++ org
  why :=
    lit "announced from the same range by AS" ++ intStr asn ++
      lit " (" ++ org ++
      lit (") - shared infrastructure rather than a shared " ++
        "name")
  total := total
  items := items
  pivot := (lit "asn", intStr asn)

variable [Unicode]

def subnetGroup
    (rows : List PivotRow)
    (ioc : PivotRow)
    (limit : Nat) : List PivotGroup :=
  if Unicode.lower ioc.type ≠ lit "ip" then []
  else
    match ipHexOf ioc.value (lit "ip") with
    | none => []
    | some key =>
        match subnetPrefix key.length with
        | none => []
        | some (chars, bits) =>
            let keyPrefix := key.take chars
            let rest := key.length - chars
            let named := subnetBlock keyPrefix bits
            keyedGroup rows
              (keyPrefix ++ List.replicate rest (cp '0'))
              (keyPrefix ++ List.replicate rest (cp 'f'))
              ioc.id limit (subnetOf named.1 named.2)

/- `_network_group`, with the count of the ranges that were
loaded last. -/
def networkGroup
    (db : Picker AsnRow.startHex)
    (count : Int)
    (table : List AsnRow)
    (rows : List PivotRow)
    (ioc : PivotRow)
    (limit : Nat) : List PivotGroup :=
  if Unicode.lower ioc.type ≠ lit "ip" then []
  else if count ≤ 0 then []
  else
    match asnLookup db table ioc.value with
    | none => []
    | some hit =>
        match hit.asn with
        | none => []
        | some asn =>
            match ipHexOf ioc.value (lit "ip") with
            | none => []
            | some key =>
                match spanAt db table
                    (if key.length = 8 then 4 else 6) key with
                | none => []
                | some span =>
                    keyedGroup rows span.startHex span.endHex
                      ioc.id limit
                      (networkOf asn (orgName asn hit.description))

end

---- Keys Of Two Lengths

open Intel (ipVersion ipNumber keyWidth hexKey ipNumber_lt)

/- An address of the other family whose key is between the keys
of two numbers: its key is compared by its first digits, or
with their first digits. -/
def Stray (version lo hi : Nat) : IpAddress → Prop
| .v4 n => version = 6 ∧ lo / 16 ^ 24 < n.toNat ∧
    n.toNat ≤ hi / 16 ^ 24
| .v6 m _ => version = 4 ∧ lo ≤ m.toNat / 16 ^ 24 ∧
    m.toNat / 16 ^ 24 < hi

/- An address of the family from one number to another. -/
def LiesIn (version lo hi : Nat) (ip : IpAddress) : Prop :=
  ipVersion ip = version ∧ lo ≤ ipNumber ip ∧ ipNumber ip ≤ hi

instance (version lo hi : Nat) :
    DecidablePred (Stray version lo hi)
| .v4 _ => inferInstanceAs (Decidable (_ ∧ _))
| .v6 _ _ => inferInstanceAs (Decidable (_ ∧ _))

instance (version lo hi : Nat) :
    DecidablePred (LiesIn version lo hi) :=
  fun _ => inferInstanceAs (Decidable (_ ∧ _))

theorem ipVersion_cases (ip : IpAddress) :
    ipVersion ip = 4 ∨ ipVersion ip = 6 := by
  cases ip with
  | v4 n => exact Or.inl rfl
  | v6 m scope => exact Or.inr rfl

theorem not_stray_of_liesIn
    {version lo hi : Nat} {ip : IpAddress}
    (hLies : LiesIn version lo hi ip) :
    ¬ Stray version lo hi ip := by
  intro hStray
  cases ip with
  | v4 n =>
      have hSame : 4 = 6 := hLies.1.trans hStray.1
      exact absurd hSame (by decide)
  | v6 m scope =>
      have hSame : 6 = 4 := hLies.1.trans hStray.1
      exact absurd hSame (by decide)

/- Which keys are between the keys of two numbers. -/
theorem hexKey_between_iff
    {version lo hi : Nat}
    (hVersion : version = 4 ∨ version = 6)
    (hLo : lo < 16 ^ keyWidth version)
    (hHi : hi < 16 ^ keyWidth version) (ip : IpAddress) :
    hexStr (keyWidth version) lo ≤ hexKey ip ∧
        hexKey ip ≤ hexStr (keyWidth version) hi ↔
      LiesIn version lo hi ip ∨ Stray version lo hi ip := by
  have hIp := ipNumber_lt ip
  rcases hVersion with rfl | rfl
  · cases ip with
    | v4 n =>
        have hAbove := hexStr_le_iff hLo hIp
        have hBelow := hexStr_le_iff hIp hHi
        constructor
        · rintro ⟨hKey, hEnd⟩
          exact Or.inl ⟨rfl, hAbove.mp hKey, hBelow.mp hEnd⟩
        · rintro (⟨_, hNumber, hLast⟩ | ⟨hSix, _⟩)
          · exact ⟨hAbove.mpr hNumber, hBelow.mpr hLast⟩
          · cases hSix
    | v6 m scope =>
        have hAbove :=
          hexStr_le_longer_iff 8 24 (by decide) hLo hIp
        have hBelow :=
          hexStr_longer_le_iff 8 24 (by decide) hHi hIp
        constructor
        · rintro ⟨hKey, hEnd⟩
          exact Or.inr ⟨rfl, hAbove.mp hKey, hBelow.mp hEnd⟩
        · rintro (⟨hFour, _⟩ | ⟨_, hNumber, hLast⟩)
          · cases hFour
          · exact ⟨hAbove.mpr hNumber, hBelow.mpr hLast⟩
  · cases ip with
    | v4 n =>
        have hAbove :=
          hexStr_longer_le_iff 8 24 (by decide) hIp hLo
        have hBelow :=
          hexStr_le_longer_iff 8 24 (by decide) hIp hHi
        constructor
        · rintro ⟨hKey, hEnd⟩
          exact Or.inr ⟨rfl, hAbove.mp hKey, hBelow.mp hEnd⟩
        · rintro (⟨hSix, _⟩ | ⟨_, hNumber, hLast⟩)
          · cases hSix
          · exact ⟨hAbove.mpr hNumber, hBelow.mpr hLast⟩
    | v6 m scope =>
        have hAbove := hexStr_le_iff hLo hIp
        have hBelow := hexStr_le_iff hIp hHi
        constructor
        · rintro ⟨hKey, hEnd⟩
          exact Or.inl ⟨rfl, hAbove.mp hKey, hBelow.mp hEnd⟩
        · rintro (⟨_, hNumber, hLast⟩ | ⟨hFour, _⟩)
          · exact ⟨hAbove.mpr hNumber, hBelow.mpr hLast⟩
          · cases hFour

---- Groups Between Two Keys

section

/- An indicator other than the one asked about, with an
address of some kind. -/
def Neighbour
    (own : Str)
    (near : IpAddress → Prop)
    (r : PivotRow) : Prop :=
  r.id ≠ own ∧ ∃ ip, addressOf r.value r.type = some ip ∧ near ip

instance neighbourDecidable
    (own : Str)
    (near : IpAddress → Prop)
    [DecidablePred near]
    (r : PivotRow) : Decidable (Neighbour own near r) :=
  match h : addressOf r.value r.type with
  | none =>
      isFalse fun ⟨_, _, hIp, _⟩ => by
        rw [h] at hIp
        cases hIp
  | some ip =>
      decidable_of_iff (r.id ≠ own ∧ near ip)
        ⟨fun ⟨hOwn, hNear⟩ => ⟨hOwn, ip, h, hNear⟩,
          fun ⟨hOwn, other, hIp, hNear⟩ =>
            ⟨hOwn, Option.some.inj (h.symm.trans hIp) ▸ hNear⟩⟩

/- All items of a group are indicators of a family whose
addresses are from one number to another, and its total is
the number of these indicators. -/
structure Sound
    (rows : List PivotRow)
    (own : Str)
    (version lo hi : Nat)
    (group : PivotGroup) : Prop where
  items :
    ∀ item ∈ group.items, ∃ r ∈ rows,
      Neighbour own (LiesIn version lo hi) r ∧ r.item = item
  total :
    group.total =
      rows.countP fun r => Neighbour own (LiesIn version lo hi) r

/- No indicator of the other family has a key between those of
the numbers. -/
def Clear
    (rows : List PivotRow)
    (own : Str)
    (version lo hi : Nat) : Prop :=
  ∀ r ∈ rows, ¬ Neighbour own (Stray version lo hi) r

/- The keys of the rows are those of their addresses. -/
def Derived (rows : List PivotRow) : Prop :=
  ∀ r ∈ rows, r.ipHex = ipHexOf r.value r.type

variable {rows : List PivotRow}
variable {own : Str}
variable {version lo hi limit : Nat}

theorem keyBetween_iff
    {first last : Str} {r : PivotRow}
    (hHex : r.ipHex = ipHexOf r.value r.type) :
    keyBetween first last own r = true ↔
      r.id ≠ own ∧ ∃ ip, addressOf r.value r.type = some ip ∧
        first ≤ hexKey ip ∧ hexKey ip ≤ last := by
  unfold keyBetween
  rw [hHex]
  unfold ipHexOf
  cases addressOf r.value r.type with
  | none => simp
  | some ip =>
      simp only [Option.map_some, Bool.and_eq_true,
        decide_eq_true_eq, bne_iff_ne, Option.some.injEq,
        exists_eq_left']
      exact and_comm

/- The rows between the keys of two numbers. -/
theorem keyBetween_numbers_iff
    (own : Str) {r : PivotRow}
    (hVersion : version = 4 ∨ version = 6)
    (hLo : lo < 16 ^ keyWidth version)
    (hHi : hi < 16 ^ keyWidth version)
    (hHex : r.ipHex = ipHexOf r.value r.type) :
    keyBetween (hexStr (keyWidth version) lo)
        (hexStr (keyWidth version) hi) own r = true ↔
      Neighbour own (LiesIn version lo hi) r ∨
        Neighbour own (Stray version lo hi) r := by
  rw [keyBetween_iff hHex]
  unfold Neighbour
  rw [← and_or_left, ← exists_or]
  refine and_congr_right fun _ => exists_congr fun ip => ?_
  rw [hexKey_between_iff hVersion hLo hHi, and_or_left]

theorem not_neighbour_stray
    {r : PivotRow}
    (hLies : Neighbour own (LiesIn version lo hi) r) :
    ¬ Neighbour own (Stray version lo hi) r := by
  rcases hLies with ⟨_, ip, hIp, hNear⟩
  rintro ⟨_, other, hOther, hStray⟩
  cases hIp.symm.trans hOther
  exact not_stray_of_liesIn hNear hStray

/- A group is made from a total and items. -/
theorem mem_keyedGroup
    {first last : Str} {group : Nat → List PivotItem → PivotGroup}
    {g : PivotGroup}
    (hMem : g ∈ keyedGroup rows first last own limit group) :
    ∃ n items, g = group n items := by
  unfold keyedGroup at hMem
  dsimp only at hMem
  split at hMem
  · cases hMem
  · exact ⟨_, _, List.mem_singleton.mp hMem⟩

/- An item is a row that meets the condition. -/
theorem mem_pivotItems
    {holds : PivotRow → Bool} {item : PivotItem}
    (hMem : item ∈ pivotItems rows holds limit own) :
    ∃ r ∈ rows, holds r = true ∧ r.item = item := by
  rcases List.mem_map.mp hMem with ⟨r, hKept, hItem⟩
  have hTaken := List.mem_of_mem_take (List.mem_of_mem_filter hKept)
  have hBoth :=
    List.mem_filter.mp ((List.mem_insertionSort bestFirst).mp hTaken)
  exact ⟨r, hBoth.1, hBoth.2, hItem⟩

/- There are no items only where no row meets the condition. -/
theorem pivotItems_eq_nil
    {first last : Str}
    (hNil :
      pivotItems rows (keyBetween first last own) (limit + 1)
        own = []) :
    ∀ r ∈ rows, ¬ keyBetween first last own r = true := by
  intro r hRow hHolds
  have hIn :
      r ∈ (rows.filter (keyBetween first last own)).insertionSort
        bestFirst :=
    (List.mem_insertionSort bestFirst).mpr
      (List.mem_filter.mpr ⟨hRow, hHolds⟩)
  unfold pivotItems at hNil
  generalize hSorted :
    (rows.filter (keyBetween first last own)).insertionSort
      bestFirst = sorted at hNil hIn
  cases sorted with
  | nil => cases hIn
  | cons best others =>
      have hBest :
          best ∈
            (rows.filter (keyBetween first last own)).insertionSort
              bestFirst := by
        rw [hSorted]
        exact List.mem_cons_self
      have hOther :=
        (List.mem_filter.mp
          ((List.mem_insertionSort bestFirst).mp hBest)).2
      have hOwn : (best.id != own) = true := by
        unfold keyBetween at hOther
        split at hOther
        · cases hOther
        · rw [Bool.and_eq_true] at hOther
          exact hOther.2
      rw [List.take_succ_cons, List.map_eq_nil_iff,
        List.filter_eq_nil_iff] at hNil
      exact hNil best List.mem_cons_self hOwn

/- Where as many elements have the weaker property, those with
it have the stronger one. -/
theorem of_countP_eq
    {α : Type*} {p q : α → Bool} {l : List α}
    (hWeaker : ∀ a ∈ l, q a = true → p a = true)
    (hSame : l.countP p = l.countP q) :
    ∀ a ∈ l, p a = true → q a = true := by
  induction l with
  | nil => exact List.forall_mem_nil _
  | cons b rest ih =>
      rcases List.forall_mem_cons.mp hWeaker with ⟨hFirst, hRest⟩
      have hLe := List.countP_mono_left hRest
      rw [List.countP_cons, List.countP_cons] at hSame
      rw [List.forall_mem_cons]
      cases hP : p b with
      | false =>
          have hQ : q b = false := by
            by_contra hTrue
            rw [hFirst (Bool.eq_true_of_not_eq_false hTrue)] at hP
            cases hP
          rw [hP, hQ] at hSame
          exact ⟨fun hFalse => absurd hFalse Bool.false_ne_true,
            ih hRest hSame⟩
      | true =>
          cases hQ : q b with
          | false =>
              rw [hP, hQ] at hSame
              simp only [if_true, Bool.false_eq_true, if_false]
                at hSame
              omega
          | true =>
              rw [hP, hQ] at hSame
              exact ⟨fun _ => rfl,
                ih hRest (Nat.add_right_cancel hSame)⟩

/- A group between the keys of two numbers is sound if and
only if nothing strays in between. -/
theorem sound_keyedGroup_iff
    (limit : Nat) (group : Nat → List PivotItem → PivotGroup)
    (hVersion : version = 4 ∨ version = 6)
    (hLo : lo < 16 ^ keyWidth version)
    (hHi : hi < 16 ^ keyWidth version) (hDerived : Derived rows)
    (hTotal : ∀ n items, (group n items).total = n)
    (hItems : ∀ n items, (group n items).items = items) :
    (∀ g ∈ keyedGroup rows (hexStr (keyWidth version) lo)
        (hexStr (keyWidth version) hi) own limit group,
      Sound rows own version lo hi g) ↔
      Clear rows own version lo hi := by
  have hBetween := fun r hRow =>
    keyBetween_numbers_iff own hVersion hLo hHi
      (hDerived r hRow)
  unfold keyedGroup
  dsimp only
  constructor
  · intro hSound r hRow hStray
    have hHolds := (hBetween r hRow).mpr (Or.inr hStray)
    split at hSound
    · rename_i hNil
      exact pivotItems_eq_nil hNil r hRow hHolds
    · have hTotal' := (hSound _ List.mem_cons_self).total
      rw [hTotal, pivotCount, ← List.countP_eq_length_filter]
        at hTotal'
      have hLies :=
        of_countP_eq
          (fun r hRow hLies => (hBetween r hRow).mpr
            (Or.inl (of_decide_eq_true hLies)))
          hTotal' r hRow hHolds
      exact not_neighbour_stray (of_decide_eq_true hLies) hStray
  · intro hClear
    have hOnly :
        ∀ r ∈ rows,
          keyBetween (hexStr (keyWidth version) lo)
              (hexStr (keyWidth version) hi) own r = true ↔
            Neighbour own (LiesIn version lo hi) r := by
      intro r hRow
      rw [hBetween r hRow]
      exact or_iff_left (hClear r hRow)
    intro g hGroup
    split at hGroup
    · cases hGroup
    · cases List.mem_singleton.mp hGroup
      constructor
      · intro item hItem
        rw [hItems] at hItem
        rcases mem_pivotItems (List.mem_of_mem_take hItem) with
          ⟨r, hRow, hHolds, hIs⟩
        exact ⟨r, hRow, (hOnly r hRow).mp hHolds, hIs⟩
      · rw [hTotal, pivotCount, ← List.countP_eq_length_filter]
        apply List.countP_congr
        intro r hRow
        rw [hOnly r hRow, decide_eq_true_eq]

end

---- Blocks

/- The digits of a key that a subnet shares, and the others. -/
def netDigits (version : Nat) : Nat :=
  if version = 4 then 6 else 16

def hostDigits (version : Nat) : Nat :=
  if version = 4 then 2 else 16

def prefixBits (version : Nat) : Nat :=
  if version = 4 then 24 else 64

/- The number of the subnet of an address. -/
def netOf (ip : IpAddress) : Nat :=
  ipNumber ip / 16 ^ hostDigits (ipVersion ip)

/- The first and the last address of the subnet. -/
def blockStart (ip : IpAddress) : Nat :=
  netOf ip * 16 ^ hostDigits (ipVersion ip)

def blockStop (ip : IpAddress) : Nat :=
  blockStart ip + (16 ^ hostDigits (ipVersion ip) - 1)

/- The subnet of an address as text. -/
def blockText : IpAddress → Str
| .v4 n =>
    natStr (n.toNat / 16 ^ 6 % 256) ++ lit "." ++
      natStr (n.toNat / 16 ^ 4 % 256) ++ lit "." ++
      natStr (n.toNat / 16 ^ 2 % 256) ++ lit ".0/24"
| .v6 m _ =>
    joinWith (lit ":")
      [hexStr 4 (m.toNat / 16 ^ 28), hexStr 4 (m.toNat / 16 ^ 24),
        hexStr 4 (m.toNat / 16 ^ 20),
        hexStr 4 (m.toNat / 16 ^ 16)] ++
      lit "::/64"

/- How many addresses a subnet has, where that is counted. -/
def blockCapacity : IpAddress → Option Nat
| .v4 _ => some 256
| .v6 _ _ => none

theorem keyWidth_split (version : Nat) :
    keyWidth version = netDigits version + hostDigits version := by
  unfold keyWidth netDigits hostDigits
  split
  · rfl
  · rfl

theorem subnetPrefix_keyWidth (version : Nat) :
    subnetPrefix (keyWidth version) =
      some (netDigits version, prefixBits version) := by
  unfold keyWidth netDigits prefixBits
  split
  · rfl
  · rfl

theorem length_hexKey (ip : IpAddress) :
    (hexKey ip).length = keyWidth (ipVersion ip) :=
  length_hexStr _ _

theorem take_hexKey (ip : IpAddress) :
    (hexKey ip).take (netDigits (ipVersion ip)) =
      hexStr (netDigits (ipVersion ip)) (netOf ip) := by
  unfold hexKey
  rw [keyWidth_split, hexStr_append,
    List.take_left' (length_hexStr _ _)]
  rfl

/- The prefix with zeros is the key of the first address. -/
theorem prefix_zeros (ip : IpAddress) :
    (hexKey ip).take (netDigits (ipVersion ip)) ++
        List.replicate (hostDigits (ipVersion ip)) (cp '0') =
      hexStr (keyWidth (ipVersion ip)) (blockStart ip) := by
  rw [take_hexKey, keyWidth_split, hexStr_append]
  unfold blockStart
  rw [hexStr_mul_pow, Nat.mul_div_cancel _
    (Nat.pow_pos (by decide))]

theorem prefix_efs (ip : IpAddress) :
    (hexKey ip).take (netDigits (ipVersion ip)) ++
        List.replicate (hostDigits (ipVersion ip)) (cp 'f') =
      hexStr (keyWidth (ipVersion ip)) (blockStop ip) := by
  have hPos : 0 < 16 ^ hostDigits (ipVersion ip) :=
    Nat.pow_pos (by decide)
  rw [take_hexKey, keyWidth_split, hexStr_append]
  unfold blockStop blockStart
  rw [hexStr_pred_pow, Nat.mul_comm,
    Nat.mul_add_div hPos,
    Nat.div_eq_of_lt (Nat.sub_lt hPos Nat.zero_lt_one),
    Nat.add_zero]

theorem blockStop_lt (ip : IpAddress) :
    blockStop ip < 16 ^ keyWidth (ipVersion ip) := by
  have hPos : 0 < 16 ^ hostDigits (ipVersion ip) :=
    Nat.pow_pos (by decide)
  have hNet : netOf ip < 16 ^ netDigits (ipVersion ip) := by
    unfold netOf
    rw [Nat.div_lt_iff_lt_mul hPos, ← pow_add, ← keyWidth_split]
    exact ipNumber_lt ip
  have hNext :=
    Nat.mul_le_mul_right (16 ^ hostDigits (ipVersion ip)) hNet
  rw [keyWidth_split, pow_add]
  unfold blockStop blockStart
  rw [Nat.succ_mul] at hNext
  omega

theorem blockStart_lt (ip : IpAddress) :
    blockStart ip < 16 ^ keyWidth (ipVersion ip) :=
  lt_of_le_of_lt (Nat.le_add_right _ _) (blockStop_lt ip)

/- A piece of a numeral. -/
theorem slice_hexStr
    {width : Nat}
    (i n more x : Nat) (hWidth : width = i + n + more) :
    slice (hexStr width x) i n = hexStr n (x / 16 ^ more) := by
  unfold slice
  rw [hWidth, hexStr_append, hexStr_append, List.append_assoc,
    List.drop_left' (length_hexStr _ _),
    List.take_left' (length_hexStr _ _)]

theorem hexInt_hexStr (width n : Nat) :
    hexInt (hexStr width n) = n % 16 ^ width := by
  unfold hexInt
  rw [hexNat_hexStr]
  rfl

/- The block that a prefix is read as. -/
theorem subnetBlock_v4 (n : BitVec 32) :
    subnetBlock (hexStr 6 (netOf (.v4 n))) 24 =
      (blockText (.v4 n), some 256) := by
  have hNet : netOf (.v4 n) = n.toNat / 16 ^ 2 := rfl
  unfold subnetBlock blockText
  dsimp only
  rw [slice_hexStr 0 2 4 _ rfl, slice_hexStr 2 2 2 _ rfl,
    slice_hexStr 4 2 0 _ rfl, hexInt_hexStr, hexInt_hexStr,
    hexInt_hexStr, hNet, Nat.div_div_eq_div_mul,
    Nat.div_div_eq_div_mul, Nat.div_div_eq_div_mul, ← pow_add,
    ← pow_add, ← pow_add]
  rfl

theorem subnetBlock_v6 (m : BitVec 128) (scope : Option Str) :
    subnetBlock (hexStr 16 (netOf (.v6 m scope))) 64 =
      (blockText (.v6 m scope), none) := by
  have hNet : netOf (.v6 m scope) = m.toNat / 16 ^ 16 := rfl
  unfold subnetBlock blockText
  dsimp only
  rw [slice_hexStr 0 4 12 _ rfl, slice_hexStr 4 4 8 _ rfl,
    slice_hexStr 8 4 4 _ rfl, slice_hexStr 12 4 0 _ rfl, hNet,
    Nat.div_div_eq_div_mul, Nat.div_div_eq_div_mul,
    Nat.div_div_eq_div_mul, Nat.div_div_eq_div_mul, ← pow_add,
    ← pow_add, ← pow_add, ← pow_add]
  rfl

theorem subnetBlock_netOf (ip : IpAddress) :
    subnetBlock (hexStr (netDigits (ipVersion ip)) (netOf ip))
        (prefixBits (ipVersion ip)) =
      (blockText ip, blockCapacity ip) := by
  cases ip with
  | v4 n => exact subnetBlock_v4 n
  | v6 m scope => exact subnetBlock_v6 m scope

---- The Two Groups

open Intel (ipVersion ipNumber keyWidth hexKey AsnRow asnLookup
  spanAt spanOf spanOf_covers spanOf_found unannounced
  asnLookup_of_public Apart Shadowed Keyed)

section

variable [Unicode]

variable {db : Picker AsnRow.startHex}
variable {count : Int}
variable {table : List AsnRow}
variable {rows : List PivotRow}
variable {ioc : PivotRow}
variable {limit : Nat}
variable {ip : IpAddress}

omit [Unicode] in
theorem ipHexOf_ip (value : Str) :
    ipHexOf value (lit "ip") =
      (ipAddress (strip value)).map hexKey := by
  unfold ipHexOf addressOf
  rw [if_neg fun hBoth => hBoth.2 rfl]

/- The subnet group lists the rows between the keys of the
first and the last address of the subnet, under its name. -/
theorem subnetGroup_eq
    (hType : Unicode.lower ioc.type = lit "ip")
    (hIp : ipAddress (strip ioc.value) = some ip) :
    subnetGroup rows ioc limit =
      keyedGroup rows
        (hexStr (keyWidth (ipVersion ip)) (blockStart ip))
        (hexStr (keyWidth (ipVersion ip)) (blockStop ip))
        ioc.id limit
        (subnetOf (blockText ip) (blockCapacity ip)) := by
  have hRest :
      keyWidth (ipVersion ip) - netDigits (ipVersion ip) =
        hostDigits (ipVersion ip) := by
    rw [keyWidth_split, Nat.add_sub_cancel_left]
  unfold subnetGroup
  rw [if_neg (not_not.mpr hType), ipHexOf_ip, hIp]
  dsimp only [Option.map_some]
  rw [length_hexKey, subnetPrefix_keyWidth]
  dsimp only
  rw [hRest, prefix_zeros, prefix_efs, take_hexKey,
    subnetBlock_netOf]

/- Where the address is in a range that is found, the network
group lists the rows between the keys of the range. -/
theorem networkGroup_eq
    {span : AsnRow}
    (hType : Unicode.lower ioc.type = lit "ip") (hCount : 0 < count)
    (hIp : ipAddress (strip ioc.value) = some ip)
    (hPublic : unannounced ip = false)
    (hSpan : spanOf db table ip = some span) :
    networkGroup db count table rows ioc limit =
      keyedGroup rows span.startHex span.endHex ioc.id limit
        (networkOf span.asn (orgName span.asn span.description))
      := by
  have hFamily :
      (if (hexKey ip).length = 8 then 4 else 6) = ipVersion ip := by
    rw [length_hexKey]
    cases ip with
    | v4 n => rfl
    | v6 m scope => rfl
  have hFound : spanAt db table (ipVersion ip) (hexKey ip) =
      some span :=
    hSpan
  unfold networkGroup
  rw [if_neg (not_not.mpr hType), if_neg (not_le.mpr hCount),
    asnLookup_of_public hIp hPublic, hSpan]
  dsimp only [Option.map_some, AsnRow.hit]
  rw [ipHexOf_ip, hIp]
  dsimp only [Option.map_some]
  rw [hFamily, hFound]

/- There is a network group only for such an address. -/
theorem networkGroup_spans
    {group : PivotGroup}
    (hType : Unicode.lower ioc.type = lit "ip")
    (hMem : group ∈ networkGroup db count table rows ioc limit) :
    0 < count ∧ ∃ ip span,
      ipAddress (strip ioc.value) = some ip ∧
        unannounced ip = false ∧ spanOf db table ip = some span := by
  unfold networkGroup at hMem
  rw [if_neg (not_not.mpr hType)] at hMem
  split at hMem
  · cases hMem
  · rename_i hCount
    refine ⟨not_le.mp hCount, ?_⟩
    cases hIp : ipAddress (strip ioc.value) with
    | none =>
        unfold asnLookup at hMem
        rw [hIp] at hMem
        cases hMem
    | some ip =>
        cases hPublic : unannounced ip with
        | true =>
            unfold asnLookup at hMem
            rw [hIp] at hMem
            dsimp only at hMem
            rw [hPublic] at hMem
            cases hMem
        | false =>
            rw [asnLookup_of_public hIp hPublic] at hMem
            cases hSpan : spanOf db table ip with
            | none =>
                rw [hSpan] at hMem
                cases hMem
            | some span => exact ⟨ip, span, rfl, hPublic, hSpan⟩

end

---- Soundness

open Intel (ipVersion ipNumber keyWidth hexKey AsnRow asnLookup
  spanAt spanOf spanOf_covers spanOf_found unannounced Apart
  Shadowed Keyed not_shadowed_of_proper)

section

/- A routing table of disjoint ranges. -/
structure DisjointRanges (table : List AsnRow) : Prop where
  proper :
    ∀ range ∈ table, ∃ start stop,
      range.Spans start stop ∧ start ≤ stop
  apart : table.Pairwise Apart

theorem DisjointRanges.keyed
    {table : List AsnRow}
    (hTable : DisjointRanges table) :
    Keyed table := by
  intro range hRange
  rcases hTable.proper range hRange with ⟨start, stop, hSpans, _⟩
  exact ⟨start, stop, hSpans⟩

theorem DisjointRanges.not_shadowed
    {table : List AsnRow}
    (hTable : DisjointRanges table) (ip : IpAddress) :
    ¬ Shadowed table ip := by
  apply not_shadowed_of_proper
  intro range hRange
  rcases hTable.proper range hRange with
    ⟨start, stop, hSpans, hLe⟩
  by_contra hNot
  exact absurd (hSpans.end_lt_start.mp (not_le.mp hNot))
    (not_lt.mpr hLe)

variable [Unicode]

/- The subnet group is sound for the block it names, and the
network group for a range that the address is in. -/
structure GroupsSound
    (db : Picker AsnRow.startHex)
    (count : Int)
    (table : List AsnRow)
    (rows : List PivotRow)
    (ioc : PivotRow)
    (limit : Nat) : Prop where
  subnet :
    ∀ group ∈ subnetGroup rows ioc limit, ∃ ip,
      ipAddress (strip ioc.value) = some ip ∧
        group.label = lit "Same subnet - " ++ blockText ip ∧
          Sound rows ioc.id (ipVersion ip) (blockStart ip)
            (blockStop ip) group
  network :
    ∀ group ∈ networkGroup db count table rows ioc limit,
      ∃ ip, ipAddress (strip ioc.value) = some ip ∧
        ∃ range ∈ table, ∃ start stop,
          range.Covers ip ∧ range.Spans start stop ∧
            group.pivot = (lit "asn", intStr range.asn) ∧
              Sound rows ioc.id (ipVersion ip) start stop group

/- No other indicator strays into the subnet of the address,
nor, where the routing table is consulted, into the range
that the address is in. -/
def NoneStrays
    (count : Int)
    (table : List AsnRow)
    (rows : List PivotRow)
    (ioc : PivotRow) : Prop :=
  ∀ ip, ipAddress (strip ioc.value) = some ip →
    Clear rows ioc.id (ipVersion ip) (blockStart ip)
        (blockStop ip) ∧
      (0 < count → unannounced ip = false →
        ∀ range ∈ table, ∀ start stop, range.Covers ip →
          range.Spans start stop →
            Clear rows ioc.id (ipVersion ip) start stop)

variable {db : Picker AsnRow.startHex}
variable {count : Int}
variable {table : List AsnRow}
variable {rows : List PivotRow}
variable {ioc : PivotRow}
variable {limit : Nat}

/- What a network group lists, for the range of its address. -/
theorem sound_networkGroup_iff
    (limit : Nat)
    {ip : IpAddress} {span : AsnRow} {start stop : Nat}
    (hDerived : Derived rows)
    (hType : Unicode.lower ioc.type = lit "ip") (hCount : 0 < count)
    (hIp : ipAddress (strip ioc.value) = some ip)
    (hPublic : unannounced ip = false)
    (hSpan : spanOf db table ip = some span)
    (hFamily : span.family = ipVersion ip)
    (hSpans : span.Spans start stop) :
    (∀ group ∈ networkGroup db count table rows ioc limit,
      Sound rows ioc.id (ipVersion ip) start stop group) ↔
        Clear rows ioc.id (ipVersion ip) start stop := by
  rw [networkGroup_eq hType hCount hIp hPublic hSpan,
    hSpans.startHex, hSpans.endHex, hFamily]
  exact sound_keyedGroup_iff limit _ (ipVersion_cases ip)
    (hFamily ▸ hSpans.start_lt) (hFamily ▸ hSpans.stop_lt)
    hDerived (fun _ _ => rfl) fun _ _ => rfl

/- The subnet and the network group of an indicator of an
address list and count only addresses of its family that are
in the block and in the range, if and only if no indicator
of the other family strays in between the keys. -/
theorem groups_sound_iff
    (hDerived : Derived rows)
    (hTable : DisjointRanges table)
    (hType : Unicode.lower ioc.type = lit "ip") :
    GroupsSound db count table rows ioc limit ↔
      NoneStrays count table rows ioc := by
  constructor
  · rintro ⟨hSubnet, hNetwork⟩ ip hIp
    constructor
    · rw [← sound_keyedGroup_iff limit
        (subnetOf (blockText ip) (blockCapacity ip))
        (ipVersion_cases ip) (blockStart_lt ip)
        (blockStop_lt ip) hDerived (fun _ _ => rfl)
        fun _ _ => rfl, ← subnetGroup_eq hType hIp]
      intro group hGroup
      rcases hSubnet group hGroup with ⟨other, hOther, _, hSound⟩
      cases hIp.symm.trans hOther
      exact hSound
    · intro hCount hPublic range hRange start stop hCovers hSpans
      have hSpan :=
        spanOf_found db hTable.keyed hTable.apart hRange
          hCovers (hTable.not_shadowed ip)
      rw [← sound_networkGroup_iff limit hDerived hType hCount
        hIp hPublic hSpan hCovers.1 hSpans]
      intro group hGroup
      rcases hNetwork group hGroup with
        ⟨other, hOther, named, hNamed, first, last, hNamedCovers,
          hNamedSpans, _, hSound⟩
      cases hIp.symm.trans hOther
      have hSame :=
        spanOf_found db hTable.keyed hTable.apart hNamed
          hNamedCovers (hTable.not_shadowed ip)
      cases hSpan.symm.trans hSame
      rcases hSpans.unique hNamedSpans with ⟨rfl, rfl⟩
      exact hSound
  · intro hNone
    constructor
    · intro group hGroup
      cases hIp : ipAddress (strip ioc.value) with
      | none =>
          unfold subnetGroup at hGroup
          rw [if_neg (not_not.mpr hType), ipHexOf_ip, hIp]
            at hGroup
          cases hGroup
      | some ip =>
          rw [subnetGroup_eq hType hIp] at hGroup
          refine ⟨ip, rfl, ?_, ?_⟩
          · rcases mem_keyedGroup hGroup with ⟨_, _, rfl⟩
            rfl
          · exact (sound_keyedGroup_iff limit _
              (ipVersion_cases ip)
              (blockStart_lt ip) (blockStop_lt ip) hDerived
              (fun _ _ => rfl) fun _ _ => rfl).mpr
                (hNone ip hIp).1 group hGroup
    · intro group hGroup
      rcases networkGroup_spans hType hGroup with
        ⟨hCount, ip, span, hIp, hPublic, hSpan⟩
      rcases spanOf_covers hTable.keyed hSpan with
        ⟨hMem, hCovers⟩
      rcases hTable.keyed span hMem with ⟨start, stop, hSpans⟩
      refine ⟨ip, hIp, span, hMem, start, stop, hCovers, hSpans,
        ?_, ?_⟩
      · rw [networkGroup_eq hType hCount hIp hPublic hSpan]
          at hGroup
        rcases mem_keyedGroup hGroup with ⟨_, _, rfl⟩
        rfl
      · exact (sound_networkGroup_iff limit hDerived hType hCount
          hIp hPublic hSpan hCovers.1 hSpans).mpr
            ((hNone ip hIp).2 hCount hPublic span hMem start stop
              hCovers hSpans) group hGroup

end

---- A Stray Address

open Intel (AsnRow ipVersion)

local instance pivotUnicode : Unicode := asciiTables

/- An active indicator of an address. -/
def addressRow (id value : String) : PivotRow where
  id := lit id
  type := lit "ip"
  value := lit value
  severity := some (lit "high")
  intelScore := 80
  threatType := none
  status := lit "active"
  ipHex := ipHexOf (lit value) (lit "ip")

/- The network 32.0.0.0/8. -/
def eightBits : AsnRow :=
  ⟨4, lit "20000000", lit "20ffffff", 64500, some (lit "US"),
    none⟩

theorem spans_eightBits :
    eightBits.Spans 0x20000000 0x20ffffff :=
  ⟨by decide, by decide, by decide, by decide⟩

theorem disjoint_eightBits : DisjointRanges [eightBits] where
  proper range hRange := by
    rw [List.mem_singleton.mp hRange]
    exact ⟨_, _, spans_eightBits, by decide⟩
  apart := List.pairwise_singleton _ _

def firstRow : PivotRow := addressRow "ioc-1" "32.1.13.1"

theorem neighbours_sound :
    GroupsSound (Picker.first _) 1 [eightBits]
      [firstRow, addressRow "ioc-2" "32.1.13.7"] firstRow 8 := by
  have hIp :
      ipAddress (strip firstRow.value) =
        some (.v4 0x20010d01#32) := by
    decide
  refine (groups_sound_iff ?_ disjoint_eightBits
    (by decide)).mpr ?_
  · unfold Derived
    decide
  · intro ip hSome
    cases hIp.symm.trans hSome
    constructor
    · unfold Clear
      decide
    · intro _ _ range hRange start stop _ hSpans
      cases List.mem_singleton.mp hRange
      rcases hSpans.unique spans_eightBits with ⟨rfl, rfl⟩
      unfold Clear
      decide

/- An address of version 6 is listed in the subnet of an
address of version 4. -/
theorem stray_listed :
    ¬ GroupsSound (Picker.first _) 0 []
      [firstRow, addressRow "ioc-2" "2001:db8::1"]
      firstRow 8 := by
  intro hSound
  have hTotals :
      (subnetGroup
        [firstRow, addressRow "ioc-2" "2001:db8::1"]
        firstRow 8).map PivotGroup.total = [1] := by
    decide
  have hIp :
      ipAddress (strip firstRow.value) =
        some (.v4 0x20010d01#32) := by
    decide
  rcases List.mem_map.mp
    (hTotals ▸ List.mem_singleton.mpr rfl) with
      ⟨group, hGroup, hOne⟩
  rcases hSound.subnet group hGroup with ⟨ip, hSome, _, hBlock⟩
  cases hIp.symm.trans hSome
  have hNobody := hBlock.total
  rw [hOne] at hNobody
  exact absurd hNobody (by decide)

end ThreatOrbit.Cti
