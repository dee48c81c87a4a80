import ThreatOrbit.Intel.Asn

/-
  Passive DNS: the pairs of a name and an address that were
  resolved here, and what is kept of each.

  The table is compared with the log of all that was observed,
  which the program does not keep.
-/

---- The Table

namespace ThreatOrbit.Cti

open Lib

open Intel (hexKey)

inductive DnsVia where
  | forward
  | ptr
deriving DecidableEq, Repr

/- `observed_via`. -/
inductive ObservedVia where
  | only (via : DnsVia)
  | both
deriving DecidableEq, Repr

structure DnsRow where
  name : Str
  address : Str
  addrHex : Str
  firstSeen : Str
  lastSeen : Str
  timesSeen : Nat
  observedVia : ObservedVia
deriving DecidableEq, Repr

/- `addr_hex`, `none` for what is no address. -/
def addrHex (ip : Str) : Option Str :=
  (ipAddress ip).map hexKey

section

variable [Unicode]

/- `name.strip().strip(".").lower()`. -/
def dnsName (name : Str) : Str :=
  Unicode.lower (stripBy (· == cp '.') (strip name))

def dnsRowOf (db : List DnsRow) (name address : Str) : Option DnsRow :=
  db.find? fun r => r.name == name && r.address == address

def ObservedVia.merge (seen : ObservedVia) (via : DnsVia) : ObservedVia :=
  if seen = .only via then .only via else .both

def DnsRow.again (r : DnsRow) (now : Str) (via : DnsVia) : DnsRow :=
  { r with
    lastSeen := now
    timesSeen := r.timesSeen + 1
    observedVia := r.observedVia.merge via }

def dnsRecord
    (db : List DnsRow)
    (now name address : Str)
    (via : DnsVia) : List DnsRow :=
  let n := dnsName name
  let a := strip address
  if n = [] ∨ a = [] then db
  else
    match addrHex a with
    | none => db
    | some hex =>
        match dnsRowOf db n a with
        | none => db ++ [⟨n, a, hex, now, now, 1, .only via⟩]
        | some _ =>
            db.map fun r =>
              if r.name = n ∧ r.address = a then r.again now via else r

/- `MAX_ADDRESSES`. -/
def maxAddresses : Nat := 12

/- The resolver, as it answers at a time: `none` where it
fails, and a list of addresses, each once. -/
structure Resolver where
  forward : Str → Str → Option (List Str)
  reverse : Str → Str → Option Str

/- What is looked up, and when; each of the addresses of a name is
recorded at a time of its own. -/
inductive DnsLookup where
  | ofName (now name : Str) (clock : Nat → Str)
  | ofAddress (now ip : Str)

/- A resolution that was observed. -/
structure DnsSighting where
  now : Str
  name : Str
  address : Str
  via : DnsVia

/- What `observe_name` and `observe_address` record. -/
def DnsLookup.sightings (net : Resolver) :
    DnsLookup → List DnsSighting
| .ofName now name clock =>
    let n := dnsName name
    if n = [] ∨ cp '/' ∈ n then []
    else
      (((net.forward now n).getD []).take maxAddresses).mapIdx
        fun i a => ⟨clock i, n, a, .forward⟩
| .ofAddress now ip =>
    if addrHex ip = none then []
    else
      match net.reverse now (strip ip) with
      | none => []
      | some host =>
          if host = [] then [] else [⟨now, host, strip ip, .ptr⟩]

def recordAll
    (db : List DnsRow)
    (seen : List DnsSighting) : List DnsRow :=
  seen.foldl (fun db s => dnsRecord db s.now s.name s.address s.via) db

/- `observe_name` or `observe_address`. -/
def observe
    (net : Resolver)
    (db : List DnsRow)
    (l : DnsLookup) : List DnsRow :=
  recordAll db (l.sightings net)

---- The Log

/- The pair that a sighting is recorded under. -/
def DnsSighting.About (s : DnsSighting) (name address : Str) : Prop :=
  dnsName s.name = name ∧ strip s.address = address

instance (s : DnsSighting) (name address : Str) :
    Decidable (s.About name address) :=
  inferInstanceAs (Decidable (_ ∧ _))

/- What a table has to say of a pair, after a log of sightings
of it. -/
def dnsSummary
    (name address hex : Str) : List DnsSighting → Option DnsRow
| [] => none
| s :: rest =>
    some {
      name := name
      address := address
      addrHex := hex
      firstSeen := s.now
      lastSeen := ((s :: rest).getLast (List.cons_ne_nil s rest)).now
      timesSeen := rest.length + 1
      observedVia :=
        if ∀ t ∈ rest, t.via = s.via then .only s.via else .both }

omit [Unicode] in
theorem dnsSummary_concat
    (name address hex : Str) (log : List DnsSighting)
    (s : DnsSighting) :
    dnsSummary name address hex (log ++ [s]) =
      some (((dnsSummary name address hex log).map fun r =>
        r.again s.now s.via).getD
          ⟨name, address, hex, s.now, s.now, 1, .only s.via⟩) := by
  cases log with
  | nil => simp [dnsSummary]
  | cons t rest =>
      have hLast : (t :: (rest ++ [s])).getLast
          (List.cons_ne_nil _ _) = s := by
        simp
      simp only [List.cons_append, dnsSummary, hLast, Option.map_some,
        Option.getD_some, DnsRow.again, ObservedVia.merge,
        List.length_append, List.length_singleton]
      congr 2
      grind

omit [Unicode] in
theorem dnsRowOf_map
    {db : List DnsRow} {set : DnsRow → DnsRow}
    (hKey : ∀ r, (set r).name = r.name ∧ (set r).address = r.address)
    (name address : Str) :
    dnsRowOf (db.map set) name address =
      (dnsRowOf db name address).map set := by
  unfold dnsRowOf
  rw [List.find?_map]
  congr 2
  funext r
  simp [Function.comp_apply, hKey]

/- A sighting changes the row of its own pair, if that can be
recorded at all. -/
theorem dnsRowOf_record
    (db : List DnsRow) (s : DnsSighting) {name address hex : Str}
    (hName : name ≠ []) (hHex : addrHex address = some hex) :
    dnsRowOf (dnsRecord db s.now s.name s.address s.via) name
        address =
      if s.About name address then
        some (((dnsRowOf db name address).map fun r =>
          r.again s.now s.via).getD
            ⟨name, address, hex, s.now, s.now, 1, .only s.via⟩)
      else dnsRowOf db name address := by
  have hAddress : address ≠ [] := by
    rintro rfl
    cases hHex
  unfold dnsRecord
  by_cases hAbout : s.About name address
  · obtain ⟨hN, hA⟩ := hAbout
    simp only [hN, hA, hName, hAddress, or_self, if_false, hHex]
    rw [if_pos ⟨hN, hA⟩]
    cases hRow : dnsRowOf db name address with
    | none =>
        unfold dnsRowOf at hRow
        simp [dnsRowOf, List.find?_append, hRow]
    | some r =>
        simp only
        rw [dnsRowOf_map (by intro r; split <;> exact ⟨rfl, rfl⟩),
          hRow]
        have hKey : r.name = name ∧ r.address = address := by
          simpa using List.find?_some hRow
        simp [hKey]
  · rw [if_neg hAbout]
    have hOther : ∀ r : DnsRow,
        r.name = dnsName s.name ∧ r.address = strip s.address →
          (r.name == name && r.address == address) = false := by
      intro r hR
      rw [hR.1, hR.2]
      simpa [DnsSighting.About] using hAbout
    simp only
    split
    · rfl
    · split
      · rfl
      · split
        · rename_i hex' _ _ _
          rw [dnsRowOf, dnsRowOf, List.find?_append]
          have hLast := hOther ⟨dnsName s.name, strip s.address, hex',
            s.now, s.now, 1, .only s.via⟩ ⟨rfl, rfl⟩
          rw [List.find?_singleton, hLast]
          simp
        · rw [dnsRowOf_map (by intro r; split <;> exact ⟨rfl, rfl⟩)]
          cases hRow : dnsRowOf db name address with
          | none => rfl
          | some r =>
              have hKey := List.find?_some hRow
              rw [Option.map_some, if_neg fun hR => ?_]
              rw [hOther r hR] at hKey
              cases hKey

/- No pair has two rows, and rows are of names and addresses. -/
structure DnsTable (db : List DnsRow) : Prop where
  nodup : (db.map fun r => (r.name, r.address)).Nodup
  valid : ∀ r ∈ db, r.name ≠ [] ∧ (addrHex r.address).isSome

theorem dnsRecord_table
    {db : List DnsRow}
    (h : DnsTable db) (now name address : Str) (via : DnsVia) :
    DnsTable (dnsRecord db now name address via) := by
  unfold dnsRecord
  simp only
  split
  · exact h
  · rename_i hSome
    rw [not_or] at hSome
    split
    · exact h
    · rename_i hex hHex
      split
      · rename_i hNone
        refine ⟨?_, ?_⟩
        · rw [List.map_append, List.map_singleton]
          refine List.nodup_append.mpr
            ⟨h.nodup, List.nodup_singleton _, ?_⟩
          rintro e hE e' hE' rfl
          obtain ⟨r, hR, rfl⟩ := List.mem_map.mp hE
          have hNot := List.find?_eq_none.mp hNone r hR
          simp only [List.mem_singleton, Prod.mk.injEq] at hE'
          simp [hE'] at hNot
        · intro r hR
          rcases List.mem_append.mp hR with hR | hR
          · exact h.valid r hR
          · rw [List.mem_singleton.mp hR]
            exact ⟨hSome.1, by simp [hHex]⟩
      · have hKeys : ∀ r : DnsRow,
            (if r.name = dnsName name ∧ r.address = strip address then
              r.again now via else r).name = r.name ∧
            (if r.name = dnsName name ∧ r.address = strip address then
              r.again now via else r).address = r.address := by
          intro r
          split <;> exact ⟨rfl, rfl⟩
        refine ⟨?_, ?_⟩
        · rw [List.map_map]
          have hSame : (fun r : DnsRow => (r.name, r.address)) ∘
              (fun r => if r.name = dnsName name ∧
                  r.address = strip address then
                r.again now via else r) =
              fun r => (r.name, r.address) := by
            funext r
            simp only [Function.comp_apply, (hKeys r).1, (hKeys r).2]
          rw [hSame]
          exact h.nodup
        · intro r hR
          obtain ⟨r', hR', rfl⟩ := List.mem_map.mp hR
          rw [(hKeys r').1, (hKeys r').2]
          exact h.valid r' hR'

theorem recordAll_concat
    (db : List DnsRow) (log : List DnsSighting) (s : DnsSighting) :
    recordAll db (log ++ [s]) =
      dnsRecord (recordAll db log) s.now s.name s.address s.via := by
  simp [recordAll]

/- After a log the row of a pair says what the log does. -/
theorem dnsRowOf_recordAll
    (log : List DnsSighting) {name address hex : Str}
    (hName : name ≠ []) (hHex : addrHex address = some hex) :
    dnsRowOf (recordAll [] log) name address =
      dnsSummary name address hex
        (log.filter (·.About name address)) := by
  induction log using List.reverseRecOn with
  | nil => rfl
  | append_singleton log s ih =>
      rw [recordAll_concat, dnsRowOf_record _ _ hName hHex, ih,
        List.filter_append]
      split
      · rename_i hAbout
        rw [← dnsSummary_concat]
        simp [hAbout]
      · rename_i hAbout
        simp [hAbout]

theorem recordAll_table
    (log : List DnsSighting) : DnsTable (recordAll [] log) := by
  induction log using List.reverseRecOn with
  | nil => exact ⟨List.nodup_nil, by simp [recordAll]⟩
  | append_singleton log s ih =>
      rw [recordAll_concat]
      exact dnsRecord_table ih _ _ _ _

/-
  Whatever is looked up, the table has one row for each pair that
  was observed and none else, with the first and the last time of
  it, how often, and whether from both sides; a lookup that fails
  leaves no trace.
-/
theorem observations_exact
    (net : Resolver)
    (lookups : List DnsLookup) :
    let db := lookups.foldl (observe net) []
    let log := lookups.flatMap (DnsLookup.sightings net)
    (db.map fun r => (r.name, r.address)).Nodup ∧
    ∀ name address,
      dnsRowOf db name address =
        if name = [] then none
        else (addrHex address).bind fun hex =>
          dnsSummary name address hex
            (log.filter (·.About name address)) := by
  intro db log
  have hAll : db = recordAll [] log := by
    have hFold : ∀ db₀, lookups.foldl (observe net) db₀ =
        recordAll db₀ log := by
      intro db₀
      simp only [log, recordAll, List.foldl_flatMap]
      rfl
    exact hFold []
  have hTable := recordAll_table log
  rw [hAll]
  refine ⟨hTable.nodup, fun name address => ?_⟩
  have hAbsent : (name = [] ∨ addrHex address = none) →
      dnsRowOf (recordAll [] log) name address = none := by
    intro hNot
    cases hRow : dnsRowOf (recordAll [] log) name address with
    | none => rfl
    | some r =>
        have hKey : r.name = name ∧ r.address = address := by
          simpa using List.find?_some hRow
        obtain ⟨hName, hHex⟩ :=
          hTable.valid r (List.mem_of_find?_eq_some hRow)
        rw [hKey.1] at hName
        rw [hKey.2] at hHex
        rcases hNot with hNot | hNot
        · exact absurd hNot hName
        · rw [hNot] at hHex
          cases hHex
  split
  · rename_i hName
    exact hAbsent (Or.inl hName)
  · rename_i hName
    cases hHex : addrHex address with
    | none => exact hAbsent (Or.inr hHex)
    | some hex => exact dnsRowOf_recordAll log hName hHex

end

end ThreatOrbit.Cti
