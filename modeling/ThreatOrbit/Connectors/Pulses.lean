import ThreatOrbit.Lib.Growing
import ThreatOrbit.Lib.Python

/-
  The import of pulses: reports, one for each source and its
  own id of the pulse, and the actor library, which learns from
  the adversaries that pulses name.
-/

---- Actors

namespace ThreatOrbit.Connectors

open Lib

/- The columns of an actor that the import never writes. -/
structure ActorProfile where
  aliases : List Str
  type : Str
  motivations : List Str
  sophistication : Int
  threatLevel : Str
  iocCount : Int
  campaignCount : Int
deriving DecidableEq, Repr

/- The columns of `threat_actors`, the JSON ones as lists. -/
structure LibraryActor where
  id : Str
  name : Str
  profile : ActorProfile
  active : Bool
  firstSeen : Str
  lastSeen : Str
  sectors : List Str
  ttps : List Str
  malware : List Str
  recentActivity : Str
deriving DecidableEq, Repr

structure Pulse where
  externalId : Option Str
  title : Option Str
  tlp : Option Str
  summary : Option Str
  adversary : Option Str
  author : Option Str
  created : Option Str
  modified : Option Str
  tags : List Str
  references : List Str
  attackIds : List Str
  malwareFamilies : List Str
  targetedCountries : List Str
  industries : List Str
deriving DecidableEq, Repr

section

variable [Unicode]

/- `_merge`: what is not there in any case comes last. -/
def merge (existing incoming : List Str) : List Str :=
  incoming.foldl (fun cur v =>
    if v != [] &&
        !(cur.map Unicode.lower).contains (Unicode.lower v) then
      cur ++ [v]
    else cur) existing

def nameKey (name : Str) : Str :=
  asciiLowerStr name

/- `SELECT … WHERE LOWER(name)=LOWER(?)`. -/
def actorOf
    (actors : List LibraryActor)
    (key : Str) : Option LibraryActor :=
  actors.find? fun a => nameKey a.name == key

def Pulse.adversaryName (p : Pulse) : Str :=
  strip (p.adversary.getD [])

def Pulse.activity (p : Pulse) : Str :=
  (lit "Seen in intel: " ++ orStr p.title (lit "pulse")).take 200

/- What the import sets in the row that it found. -/
def LibraryActor.learn
    (row : LibraryActor)
    (now : Str)
    (p : Pulse)
    (a : LibraryActor) : LibraryActor :=
  { a with
    ttps := merge row.ttps p.attackIds
    malware := merge row.malware p.malwareFamilies
    sectors := merge row.sectors p.industries
    lastSeen := orStr p.modified now
    active := true
    recentActivity := p.activity }

/- The row that it inserts. -/
def newActor
    (id now : Str)
    (p : Pulse) : LibraryActor where
  id := id
  name := p.adversaryName
  profile := ⟨[], lit "unknown", [], 3, lit "medium", 0, 0⟩
  active := true
  firstSeen := orStr p.created now
  lastSeen := orStr p.modified now
  sectors := merge [] p.industries
  ttps := merge [] p.attackIds
  malware := merge [] p.malwareFamilies
  recentActivity := p.activity

def upsertActorFromPulse
    (ids : Uuids)
    (now : Str)
    (actors : List LibraryActor)
    (p : Pulse) : Option Str × List LibraryActor :=
  if p.adversaryName = [] then (none, actors)
  else
    match actorOf actors (nameKey p.adversaryName) with
    | some row =>
        (some row.id, actors.map fun a =>
          if a.id = row.id then row.learn now p a else a)
    | none =>
        let id := ids.next (actors.map LibraryActor.id)
        (some id, actors ++ [newActor id now p])

inductive ActorColumn where
  | ttps
  | malware
  | sectors
deriving DecidableEq

def LibraryActor.column (a : LibraryActor) : ActorColumn → List Str
| .ttps => a.ttps
| .malware => a.malware
| .sectors => a.sectors

def Pulse.column (p : Pulse) : ActorColumn → List Str
| .ttps => p.attackIds
| .malware => p.malwareFamilies
| .sectors => p.industries

/- What is known of actors, names and words in lower case. -/
inductive ActorFact where
  | known (key : Str)
  | word (key : Str) (column : ActorColumn) (lowered : Str)

/- A list has a word in some case. -/
def HasWord (words : List Str) (lowered : Str) : Prop :=
  ∃ v ∈ words, Unicode.lower v = lowered

def Knows (actors : List LibraryActor) : ActorFact → Prop
| .known key => ∃ a, actorOf actors key = some a
| .word key column lowered =>
    ∃ a, actorOf actors key = some a ∧
      HasWord (a.column column) lowered

def Pulse.Says (p : Pulse) : ActorFact → Prop
| .known key =>
    p.adversaryName ≠ [] ∧ nameKey p.adversaryName = key
| .word key column lowered =>
    (p.adversaryName ≠ [] ∧ nameKey p.adversaryName = key) ∧
      ∃ v ∈ p.column column, v ≠ [] ∧ Unicode.lower v = lowered

theorem merge_prefix
    (existing incoming : List Str) :
    existing <+: merge existing incoming := by
  induction incoming generalizing existing with
  | nil => exact List.prefix_rfl
  | cons v rest ih =>
      rw [merge, List.foldl_cons]
      split
      · exact (List.prefix_append existing [v]).trans (ih _)
      · exact ih existing

theorem hasWord_merge_iff
    (existing incoming : List Str) (lowered : Str) :
    HasWord (merge existing incoming) lowered ↔
      HasWord existing lowered ∨
        ∃ v ∈ incoming, v ≠ [] ∧ Unicode.lower v = lowered := by
  induction incoming generalizing existing with
  | nil => simp [merge]
  | cons v rest ih =>
      rw [merge, List.foldl_cons]
      split
      · rename_i hNew
        rw [← merge, ih]
        have hV : v ≠ [] := by
          simp only [Bool.and_eq_true, bne_iff_ne] at hNew
          exact hNew.1
        simp only [HasWord, List.mem_append, List.mem_cons]
        grind
      · rename_i hOld
        rw [← merge, ih]
        have hSeen : v = [] ∨ HasWord existing (Unicode.lower v) := by
          by_contra hNot
          rw [not_or] at hNot
          apply hOld
          rw [Bool.and_eq_true, bne_iff_ne, Bool.not_eq_true',
            ← Bool.not_eq_true, List.contains_iff_mem]
          exact ⟨hNot.1, fun hIn => hNot.2 (List.mem_map.mp hIn)⟩
        simp only [List.mem_cons, HasWord] at hSeen ⊢
        grind

/- An update of rows that keeps their names. -/
omit [Unicode] in
theorem actorOf_map
    {actors : List LibraryActor} {set : LibraryActor → LibraryActor}
    (hName : ∀ a, (set a).name = a.name) (key : Str) :
    actorOf (actors.map set) key = (actorOf actors key).map set := by
  unfold actorOf
  rw [List.find?_map]
  congr 2
  funext a
  simp [Function.comp_apply, hName]

omit [Unicode] in
theorem nameKey_of_actorOf
    {actors : List LibraryActor} {key : Str} {a : LibraryActor}
    (h : actorOf actors key = some a) :
    a ∈ actors ∧ nameKey a.name = key :=
  ⟨List.mem_of_find?_eq_some h, by simpa using List.find?_some h⟩

/- Rows of one id are one row. -/
omit [Unicode] in
theorem eq_of_id
    {actors : List LibraryActor}
    (hIds : (actors.map LibraryActor.id).Nodup) {a b : LibraryActor}
    (hA : a ∈ actors) (hB : b ∈ actors)
    (hSame : a.id = b.id) : a = b :=
  List.inj_on_of_nodup_map hIds hA hB hSame

/- What an import makes of the actor of each name. -/
theorem actorOf_upsert
    (ids : Uuids) (now : Str) {actors : List LibraryActor}
    (hIds : (actors.map LibraryActor.id).Nodup) (p : Pulse)
    (key : Str) :
    actorOf (upsertActorFromPulse ids now actors p).2 key =
      if p.adversaryName ≠ [] ∧ nameKey p.adversaryName = key then
        some (((actorOf actors key).map fun row =>
          row.learn now p row).getD
            (newActor (ids.next (actors.map LibraryActor.id)) now p))
      else actorOf actors key := by
  unfold upsertActorFromPulse
  by_cases hName : p.adversaryName = []
  · simp [hName]
  · rw [if_neg hName]
    cases hFound : actorOf actors (nameKey p.adversaryName) with
    | some row =>
        obtain ⟨hRow, hKey⟩ := nameKey_of_actorOf hFound
        simp only
        rw [actorOf_map (by intro a; split <;> rfl)]
        split
        · rename_i hSame
          obtain ⟨_, rfl⟩ := hSame
          simp [hFound]
        · rename_i hOther
          cases hAt : actorOf actors key with
          | none => rfl
          | some a =>
              obtain ⟨hA, hAKey⟩ := nameKey_of_actorOf hAt
              have hNe : a.id ≠ row.id := by
                intro hId
                obtain rfl := eq_of_id hIds hA hRow hId
                exact hOther ⟨hName, hKey.symm.trans hAKey⟩
              simp [hNe]
    | none =>
        simp only [actorOf, List.find?_append]
        split
        · rename_i hSame
          obtain ⟨_, rfl⟩ := hSame
          unfold actorOf at hFound
          simp [hFound, newActor]
        · rename_i hOther
          have hNot : (nameKey p.adversaryName == key) = false := by
            simpa [hName] using hOther
          simp [newActor, hNot]

theorem upsert_nodup
    (ids : Uuids) (now : Str) {actors : List LibraryActor}
    (hIds : (actors.map LibraryActor.id).Nodup) (p : Pulse) :
    ((upsertActorFromPulse ids now actors p).2.map
      LibraryActor.id).Nodup := by
  unfold upsertActorFromPulse
  split
  · exact hIds
  · split
    · rename_i row _
      have hSame : (actors.map fun a =>
          if a.id = row.id then row.learn now p a else a).map
            LibraryActor.id = actors.map LibraryActor.id := by
        rw [List.map_map]
        refine List.map_congr_left fun a _ => ?_
        simp only [Function.comp_apply]
        split <;> rfl
      rw [hSame]
      exact hIds
    · rw [List.map_append, List.map_singleton]
      refine List.nodup_append.mpr ⟨hIds, List.nodup_singleton _, ?_⟩
      rintro a hA b hB rfl
      rw [List.mem_singleton] at hB
      exact ids.fresh _ (hB ▸ hA)

theorem column_learn
    (row a : LibraryActor) (now : Str) (p : Pulse)
    (c : ActorColumn) :
    (row.learn now p a).column c =
      merge (row.column c) (p.column c) := by
  cases c <;> rfl

theorem column_newActor
    (id now : Str) (p : Pulse) (c : ActorColumn) :
    (newActor id now p).column c = merge [] (p.column c) := by
  cases c <;> rfl

/- `threat_actors`, whose `id` is its primary key. -/
structure ActorLibrary where
  rows : List LibraryActor
  nodup : (rows.map LibraryActor.id).Nodup

/- The library after some pulses, each with the time of its
import. -/
def learnAll
    (ids : Uuids)
    (actors : List LibraryActor)
    (pulses : List (Str × Pulse)) : List LibraryActor :=
  pulses.foldl (fun actors e =>
    (upsertActorFromPulse ids e.1 actors e.2).2) actors

theorem library_grows (ids : Uuids) :
    Grows
      (fun actors (e : Str × Pulse) =>
        (upsertActorFromPulse ids e.1 actors e.2).2)
      (fun actors => (actors.map LibraryActor.id).Nodup)
      Knows (fun e => e.2.Says) where
  keeps actors e hIds := upsert_nodup ids e.1 hIds e.2
  adds actors e f hIds := by
    cases f with
    | known key =>
        simp only [Knows, Pulse.Says,
          actorOf_upsert ids e.1 hIds e.2 key]
        split
        · rename_i hSays
          simp [hSays]
        · rename_i hNot
          simp [hNot]
    | word key column lowered =>
        simp only [Knows, Pulse.Says,
          actorOf_upsert ids e.1 hIds e.2 key]
        split
        · rename_i hSays
          cases actorOf actors key with
          | none =>
              simpa [hSays, column_newActor, HasWord] using
                hasWord_merge_iff [] (e.2.column column) lowered
          | some row =>
              simp [hSays, column_learn, hasWord_merge_iff]
        · rename_i hNot
          simp [hNot]

/-
  After any pulses the library knows what it knew and what they
  say; so it knows the same after other pulses that say the
  same, in whatever order and however often they come.
-/
theorem library_learns
    (ids : Uuids)
    (library : ActorLibrary)
    (pulses : List (Str × Pulse)) :
    (∀ f, Knows (learnAll ids library.rows pulses) f ↔
      Knows library.rows f ∨ ∃ e ∈ pulses, e.2.Says f) ∧
    ∀ others : List (Str × Pulse),
      (∀ p, p ∈ others.map Prod.snd ↔ p ∈ pulses.map Prod.snd) →
        ∀ f, Knows (learnAll ids library.rows pulses) f ↔
          Knows (learnAll ids library.rows others) f := by
  refine ⟨((library_grows ids).foldl pulses library.nodup).2, ?_⟩
  intro others hSame f
  refine (library_grows ids).of_same (fun f => ?_) library.nodup f
  constructor
  · rintro ⟨e, hE, hSays⟩
    obtain ⟨e', hE', hEq⟩ := List.mem_map.mp
      ((hSame e.2).mpr (List.mem_map_of_mem hE))
    exact ⟨e', hE', hEq ▸ hSays⟩
  · rintro ⟨e, hE, hSays⟩
    obtain ⟨e', hE', hEq⟩ := List.mem_map.mp
      ((hSame e.2).mp (List.mem_map_of_mem hE))
    exact ⟨e', hE', hEq ▸ hSays⟩

/- An actor is still there, with all that it had. -/
def KeptIn (actors : List LibraryActor) (a : LibraryActor) : Prop :=
  ∃ a' ∈ actors, a'.id = a.id ∧ a'.name = a.name ∧
    a'.profile = a.profile ∧ a'.firstSeen = a.firstSeen ∧
    ∀ c, a.column c <+: a'.column c

theorem upsert_keeps
    (ids : Uuids) (now : Str) {actors : List LibraryActor}
    (hIds : (actors.map LibraryActor.id).Nodup) (p : Pulse)
    {a : LibraryActor}
    (hA : a ∈ actors) :
    KeptIn (upsertActorFromPulse ids now actors p).2 a := by
  have hSelf : KeptIn actors a :=
    ⟨a, hA, rfl, rfl, rfl, rfl, fun _ => List.prefix_rfl⟩
  unfold upsertActorFromPulse
  split
  · exact hSelf
  · split
    · rename_i row hFound
      by_cases hRow : a.id = row.id
      · obtain rfl :=
          eq_of_id hIds hA (nameKey_of_actorOf hFound).1 hRow
        refine ⟨a.learn now p a, List.mem_map.mpr
          ⟨a, hA, if_pos rfl⟩, rfl, rfl, rfl, rfl, fun c => ?_⟩
        rw [column_learn]
        exact merge_prefix _ _
      · exact ⟨a, List.mem_map.mpr ⟨a, hA, if_neg hRow⟩, rfl, rfl,
          rfl, rfl, fun _ => List.prefix_rfl⟩
    · obtain ⟨a', hIn, hKept⟩ := hSelf
      exact ⟨a', List.mem_append_left _ hIn, hKept⟩

/- Whatever is imported, no actor loses a word, its name, its
first day or what analysts entered. -/
theorem library_keeps
    (ids : Uuids)
    (library : ActorLibrary)
    (pulses : List (Str × Pulse)) :
    ∀ a ∈ library.rows,
      KeptIn (learnAll ids library.rows pulses) a := by
  obtain ⟨actors, hIds⟩ := library
  simp only
  induction pulses generalizing actors with
  | nil =>
      intro a hA
      exact ⟨a, hA, rfl, rfl, rfl, rfl, fun _ => List.prefix_rfl⟩
  | cons e pulses ih =>
      intro a hA
      obtain ⟨b, hB, hId, hName, hProfile, hFirst, hColumns⟩ :=
        upsert_keeps ids e.1 hIds e.2 hA
      obtain ⟨c, hC, hId', hName', hProfile', hFirst', hColumns'⟩ :=
        ih _ (upsert_nodup ids e.1 hIds e.2) b hB
      exact ⟨c, hC, hId'.trans hId, hName'.trans hName,
        hProfile'.trans hProfile, hFirst'.trans hFirst,
        fun k => (hColumns k).trans (hColumns' k)⟩

end

def knownActor : LibraryActor :=
  ⟨[], lit "APT28", ⟨[], [], [], 3, [], 0, 0⟩, true, [], [], [], [],
    [], []⟩

def apt28Pulse : Pulse :=
  ⟨none, none, none, none, some (lit "apt28"), none, none, none, [],
    [], [lit "T1055"], [], [], []⟩

theorem known_actor_kept :
    @KeptIn (@learnAll asciiTables longerIds [knownActor]
      [([], apt28Pulse)]) knownActor :=
  @library_keeps asciiTables longerIds
    ⟨[knownActor], List.nodup_singleton _⟩ _ _ List.mem_cons_self

end ThreatOrbit.Connectors
