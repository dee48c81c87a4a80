import ThreatOrbit.Lib.Grouping

/-
  The ATT&CK tables: a release is cut down to what it says of the
  followed families of malware, the tables are replaced by it, and
  a family is answered from them.
-/

---- The Release

namespace ThreatOrbit.Cti

open Lib

inductive StixType where
  | attackPattern
  | intrusionSet
  | malware
  | tool
  | relationship
  | campaign
  | matrix
  | tactic
  | other
deriving DecidableEq, Repr

structure StixReference where
  sourceName : Option Str
  externalId : Option Str
  url : Option Str

structure StixObject where
  id : Str
  type : StixType
  name : Option Str
  aliases : List Str
  revoked : Bool
  deprecated : Bool
  references : List StixReference
  phases : List (Option Str × Str)
  isSubtechnique : Bool
  relationshipType : Option Str
  sourceRef : Option Str
  targetRef : Option Str
  shortname : Str
  tacticRefs : List Str
  firstSeen : Str
  lastSeen : Str

structure TechniqueRow where
  id : Str
  name : Str
  tactics : Str
  url : Option Str
  isSubtechnique : Bool
deriving DecidableEq

structure GroupRow where
  id : Str
  name : Str
  url : Option Str
deriving DecidableEq

structure SoftwareRow where
  family : Str
  id : Str
  name : Str
  url : Option Str
  kind : StixType
deriving DecidableEq

structure CampaignRow where
  id : Str
  name : Str
  url : Option Str
  firstSeen : Str
  lastSeen : Str

structure TacticRow where
  shortname : Str
  name : Str
  position : Nat

/- The tables, and what `parse_bundle` makes of a release. -/
structure AttackTables where
  tactics : List TacticRow
  techniques : List TechniqueRow
  groups : List GroupRow
  software : List SoftwareRow
  familyTechniques : List (Str × Str)
  familyGroups : List (Str × Str)
  groupTechniques : List (Str × Str)
  campaigns : List CampaignRow

def StixObject.live (o : StixObject) : Bool :=
  !o.revoked && !o.deprecated

def attackSource : Str := lit "mitre-attack"

def StixObject.attackRef (o : StixObject) : Option StixReference :=
  o.references.find? (·.sourceName == some attackSource)

/- `_attack_id`, where it is not empty. -/
def StixObject.attackId (o : StixObject) : Option Str :=
  (o.attackRef.bind (·.externalId)).filter (· != [])

def StixObject.attackUrl (o : StixObject) : Option Str :=
  o.attackRef.bind (·.url)

def StixObject.named (o : StixObject) : Str :=
  o.name.getD []

def StixObject.tactics (o : StixObject) : Str :=
  joinWith [cp ','] ((o.phases.filter
    (·.1 == some attackSource)).map Prod.snd)

def techniqueRow (o : StixObject) : Option TechniqueRow :=
  o.attackId.map fun id =>
    ⟨id, o.named, o.tactics, o.attackUrl, o.isSubtechnique⟩

def groupRow (o : StixObject) : Option GroupRow :=
  o.attackId.map fun id => ⟨id, o.named, o.attackUrl⟩

def softwareRow (family : Str) (o : StixObject) : Option SoftwareRow :=
  o.attackId.map fun id =>
    ⟨family, id, o.named, o.attackUrl, o.type⟩

def campaignRow (o : StixObject) : Option CampaignRow :=
  o.attackId.map fun id =>
    ⟨id, o.named, o.attackUrl, o.firstSeen.take 10,
      o.lastSeen.take 10⟩

/- `{o["id"]: o for o in objs}`. -/
def byRef (objs : List StixObject) : List (Str × StixObject) :=
  dictOf (objs.map fun o => (o.id, o))

def ofType (type : StixType) (objs : List StixObject) :
    List StixObject :=
  objs.filter (·.type == type)

def pairLe (a b : Str × Str) : Bool :=
  decide (a.1 < b.1 ∨ a.1 = b.1 ∧ a.2 ≤ b.2)

/- `sorted({...})`, of the pairs whose two sides have ids. -/
def sortedPairs (l : List (Option Str × Option Str)) :
    List (Str × Str) :=
  ((l.filterMap fun e => e.1.bind fun a => e.2.map fun b =>
    (a, b)).dedup).mergeSort pairLe

inductive LinkKind where
  | familyTechnique
  | familyGroup
  | groupTechnique
deriving DecidableEq

structure AttackLink where
  kind : LinkKind
  left : Str
  right : Str

/- The tables' entry of a relationship, the first that fits. -/
def linkOf
    (owners : List (Str × Str))
    (techniques groups : List (Str × StixObject))
    (src dst : Str) : Option AttackLink :=
  if (lookup src owners).isSome && (lookup dst techniques).isSome then
    (lookup src owners).map fun f => ⟨.familyTechnique, f, dst⟩
  else if (lookup src groups).isSome && (lookup dst owners).isSome then
    (lookup dst owners).map fun f => ⟨.familyGroup, f, src⟩
  else if (lookup src groups).isSome &&
      (lookup dst techniques).isSome then
    some ⟨.groupTechnique, src, dst⟩
  else none

def usesName : Str := lit "uses"

def parseTactics (objs : List StixObject) : List TacticRow :=
  let refs := ((ofType .matrix objs).head?.map
    (·.tacticRefs)).getD []
  let order := dictOf (refs.zipIdx)
  (((ofType .tactic objs).filter (·.shortname != [])).map fun o =>
    ⟨o.shortname, o.named, (lookup o.id order).getD 99⟩).mergeSort
      fun a b => a.position ≤ b.position

---- References

/- `JOIN ... ON id = ... WHERE family = key`. -/
def joinOn {α : Type}
    (pairs : List (Str × Str))
    (key : Str)
    (table : List α)
    (idOf : α → Str) : List α :=
  (pairs.filter (·.1 == key)).flatMap fun e =>
    table.filter (idOf · == e.2)

theorem lookup_byRef
    {objs : List StixObject}
    (hIds : (objs.map (·.id)).Nodup) (ref : Str) (o : StixObject) :
    lookup ref (byRef objs) = some o ↔ o ∈ objs ∧ o.id = ref := by
  have hKeys : ((objs.map fun o => (o.id, o)).map Prod.fst).Nodup := by
    simpa [Function.comp_def] using hIds
  rw [byRef, dictOf_of_nodup hKeys]
  constructor
  · intro hFound
    obtain ⟨o', hO, hSame⟩ := List.mem_map.mp (mem_of_lookup hFound)
    cases hSame
    exact ⟨hO, rfl⟩
  · rintro ⟨hO, rfl⟩
    exact lookup_of_mem hKeys (List.mem_map_of_mem hO)

theorem byRef_values
    {objs : List StixObject}
    (hIds : (objs.map (·.id)).Nodup) :
    (byRef objs).map Prod.snd = objs := by
  rw [byRef, dictOf_of_nodup (by simpa [Function.comp_def] using hIds),
    List.map_map]
  exact List.map_id objs

theorem ofType_ids
    {objs : List StixObject}
    (hIds : (objs.map (·.id)).Nodup) (type : StixType) :
    ((ofType type objs).map (·.id)).Nodup :=
  hIds.sublist (List.filter_sublist.map _)

theorem mem_ofType
    {type : StixType} {objs : List StixObject} {o : StixObject} :
    o ∈ ofType type objs ↔ o ∈ objs ∧ o.type = type := by
  simp [ofType]

theorem mem_sortedPairs
    {l : List (Option Str × Option Str)} {a b : Str} :
    (a, b) ∈ sortedPairs l ↔ (some a, some b) ∈ l := by
  simp [sortedPairs, List.mem_mergeSort, Option.bind_eq_some_iff]

theorem sortedPairs_nodup
    (l : List (Option Str × Option Str)) : (sortedPairs l).Nodup :=
  (List.mergeSort_perm _ _).nodup_iff.mpr (List.nodup_dedup _)

theorem mem_linkPairs
    (links : List AttackLink) (kind : LinkKind)
    (idAt : Str → Option Str) (f x : Str) :
    (f, x) ∈ sortedPairs ((links.filter (·.kind == kind)).map fun l =>
        (some l.left, idAt l.right)) ↔
      ∃ b, ⟨kind, f, b⟩ ∈ links ∧ idAt b = some x := by
  simp only [mem_sortedPairs, List.mem_map, List.mem_filter,
    beq_iff_eq, Prod.mk.injEq, Option.some.injEq]
  constructor
  · rintro ⟨l, ⟨hL, rfl⟩, rfl, hId⟩
    exact ⟨l.right, hL, hId⟩
  · rintro ⟨b, hL, hId⟩
    exact ⟨_, ⟨hL, rfl⟩, rfl, hId⟩

/- Joining the pairs of a key with the rows they name yields the
rows of the objects that the key is tied to. -/
theorem mem_joined
    {α : Type} {objs : List StixObject}
    (hIds : (objs.map (·.id)).Nodup) {type : StixType}
    {rowOf : StixObject → Option α} {idOf : α → Str}
    (hRow : ∀ o, (rowOf o).map idOf = o.attackId) {table : List α}
    (hTable : table =
      ((byRef (ofType type objs)).map Prod.snd).filterMap rowOf)
    (hKeys : (table.map idOf).Nodup)
    {pairs : List (Str × Str)} {key : Str}
    (tied : Str → Prop)
    (hPairs : ∀ x, (key, x) ∈ pairs ↔ ∃ b, (tied b ∧
      (lookup b (byRef (ofType type objs))).isSome) ∧
        (lookup b (byRef objs)).bind (·.attackId) = some x)
    (row : α) :
    row ∈ joinOn pairs key table idOf ↔
      ∃ o ∈ objs, o.type = type ∧ tied o.id ∧ rowOf o = some row := by
  have hIn : row ∈ joinOn pairs key table idOf ↔
      row ∈ table ∧ (key, idOf row) ∈ pairs := by
    simp [joinOn, and_comm]
  have hMem : ∀ row, row ∈ table ↔
      ∃ o ∈ objs, o.type = type ∧ rowOf o = some row := by
    intro row
    rw [hTable, byRef_values (ofType_ids hIds type), List.mem_filterMap]
    simp only [mem_ofType, and_assoc]
  rw [hIn, hPairs]
  constructor
  · rintro ⟨hTab, b, ⟨hTied, hSome⟩, hId⟩
    obtain ⟨o, hFound⟩ := Option.isSome_iff_exists.mp hSome
    obtain ⟨hIn, rfl⟩ :=
      (lookup_byRef (ofType_ids hIds type) b o).mp hFound
    obtain ⟨hO, hType⟩ := mem_ofType.mp hIn
    rw [(lookup_byRef hIds o.id o).mpr ⟨hO, rfl⟩, Option.bind_some,
      ← hRow o, Option.map_eq_some_iff] at hId
    obtain ⟨row', hRow', hSame⟩ := hId
    have hTab' := (hMem row').mpr ⟨o, hO, hType, hRow'⟩
    have hEq := List.inj_on_of_nodup_map hKeys hTab' hTab hSame
    exact ⟨o, hO, hType, hTied, hEq ▸ hRow'⟩
  · rintro ⟨o, hO, hType, hTied, hIs⟩
    refine ⟨(hMem row).mpr ⟨o, hO, hType, hIs⟩, o.id, ⟨hTied, ?_⟩, ?_⟩
    · rw [(lookup_byRef (ofType_ids hIds type) o.id o).mpr
        ⟨mem_ofType.mpr ⟨hO, hType⟩, rfl⟩]
      rfl
    · rw [(lookup_byRef hIds o.id o).mpr ⟨hO, rfl⟩, Option.bind_some,
        ← hRow o, hIs]
      rfl

theorem joinOn_nodup
    {α : Type} {pairs : List (Str × Str)}
    (hPairs : pairs.Nodup) (key : Str) {table : List α}
    {idOf : α → Str}
    (hKeys : (table.map idOf).Nodup) :
    (joinOn pairs key table idOf).Nodup := by
  refine List.nodup_flatMap.mpr
    ⟨fun e _ => (hKeys.of_map idOf).filter _, ?_⟩
  refine (hPairs.filter _).imp_of_mem ?_
  intro d e hD hE hNe row hRowD hRowE
  simp only [List.mem_filter, beq_iff_eq] at hD hE hRowD hRowE
  exact hNe (Prod.ext (hD.2.trans hE.2.symm)
    (hRowD.2.symm.trans hRowE.2))

---- The Import

section

variable [Unicode]

def norm (name : Str) : Str :=
  (Unicode.lower name).filter fun c =>
    isDigit c || (cp 'a' ≤ c && c ≤ cp 'z')

/- `by_name`, where the first of a name stays. -/
def softwareNames (objs : List StixObject) :
    List (Str × StixObject) :=
  (objs.filter fun o => o.type == .malware || o.type == .tool).flatMap
    fun o => (o.named :: o.aliases).map fun n => (norm n, o)

def familyObject (objs : List StixObject) (f : Str) :
    Option StixObject :=
  lookup (norm f) (softwareNames objs)

def famObj (objs : List StixObject) (families : List Str) :
    List (Str × StixObject) :=
  dictOf (families.filterMap fun f =>
    (familyObject objs f).map fun o => (f, o))

def famByRef (objs : List StixObject) (families : List Str) :
    List (Str × Str) :=
  dictOf ((famObj objs families).map fun e => (e.2.id, e.1))

def usesLinks (objs : List StixObject) (families : List Str) :
    List AttackLink :=
  ((ofType .relationship objs).filter
    (·.relationshipType == some usesName)).filterMap fun r =>
      r.sourceRef.bind fun src => r.targetRef.bind fun dst =>
        linkOf (famByRef objs families)
          (byRef (ofType .attackPattern objs))
          (byRef (ofType .intrusionSet objs)) src dst

def parseBundle
    (bundle : List StixObject)
    (families : List Str) : AttackTables :=
  let objs := bundle.filter (·.live)
  let idAt := fun ref => (lookup ref (byRef objs)).bind (·.attackId)
  let rowsOf := fun type => (byRef (ofType type objs)).map Prod.snd
  let pairsOf := fun kind left =>
    sortedPairs (((usesLinks objs families).filter
      (·.kind == kind)).map fun l => (left l.left, idAt l.right))
  { tactics := parseTactics objs
    techniques := (rowsOf .attackPattern).filterMap techniqueRow
    groups := (rowsOf .intrusionSet).filterMap groupRow
    software := (famObj objs families).filterMap fun e =>
      softwareRow e.1 e.2
    familyTechniques := pairsOf .familyTechnique some
    familyGroups := pairsOf .familyGroup some
    groupTechniques := pairsOf .groupTechnique idAt
    campaigns := (rowsOf .campaign).filterMap campaignRow }

/- The tables' primary keys let `store` through. -/
def AttackTables.Storable (p : AttackTables) : Prop :=
  (p.tactics.map (·.shortname)).Nodup ∧
  (p.techniques.map (·.id)).Nodup ∧
  (p.groups.map (·.id)).Nodup ∧
  (p.campaigns.map (·.id)).Nodup

instance (p : AttackTables) : Decidable p.Storable :=
  inferInstanceAs (Decidable (_ ∧ _))

/- `refresh`, where `none` is a release that was not fetched. A
`store` that fails is rolled back. -/
def refreshAttack
    (families : List Str)
    (db : AttackTables)
    (fetched : Option (List StixObject)) : AttackTables :=
  match fetched with
  | none => db
  | some bundle =>
      let parsed := parseBundle bundle families
      if parsed.Storable then parsed else db

---- The Answer

def TechniqueRow.tacticList (t : TechniqueRow) : List Str :=
  (splitOn (cp ',') t.tactics).filter (· != [])

structure TacticAnswer where
  shortname : Str
  name : Str
  techniques : List TechniqueRow

structure FamilyAnswer where
  software : Option SoftwareRow
  techniques : List TechniqueRow
  groups : List GroupRow
  byTactic : List TacticAnswer

def tacticAt (db : AttackTables) (short : Str) : Option TacticRow :=
  db.tactics.find? (·.shortname == short)

/- `names.get(short, ...)[1]`. -/
def tacticPosition (db : AttackTables) (short : Str) : Nat :=
  ((tacticAt db short).map (·.position)).getD 99

def groupByTactic
    (db : AttackTables)
    (techniques : List TechniqueRow) : List TacticAnswer :=
  ((collect (techniques.flatMap fun t =>
    t.tacticList.map fun short => (short, t))).map fun e =>
      { shortname := e.1
        name := ((tacticAt db e.1).map (·.name)).getD
          (Unicode.title (e.1.map fun c =>
            if c = cp '-' then cp ' ' else c))
        techniques := e.2.mergeSort fun a b =>
          decide (a.id ≤ b.id) : TacticAnswer }).mergeSort fun a b =>
            tacticPosition db a.shortname ≤
              tacticPosition db b.shortname

def familyKey (family : Str) : Str :=
  Unicode.lower (strip family)

def familyAttack (db : AttackTables) (family : Str) : FamilyAnswer :=
  let key := familyKey family
  match db.software.find? (·.family == key) with
  | none => ⟨none, [], [], []⟩
  | some soft =>
      let techniques :=
        (joinOn db.familyTechniques key db.techniques
          (·.id)).mergeSort fun a b =>
            pairLe (a.tactics, a.id) (b.tactics, b.id)
      { software := some soft
        techniques := techniques
        groups := (joinOn db.familyGroups key db.groups
          (·.id)).mergeSort fun a b => decide (a.name ≤ b.name)
        byTactic := groupByTactic db techniques }

---- The Objects Of A Release

/- The family whose object a reference is to: the last that has it. -/
def ownerOf
    (objs : List StixObject)
    (families : List Str)
    (ref : Str) : Option Str :=
  families.reverse.find? fun f =>
    (familyObject objs f).any (·.id == ref)

theorem famObj_of_nodup
    (objs : List StixObject) {families : List Str}
    (hFam : families.Nodup) :
    famObj objs families = families.filterMap fun f =>
      (familyObject objs f).map fun o => (f, o) := by
  refine dictOf_of_nodup ?_
  rw [List.map_filterMap]
  refine hFam.filterMap ?_
  intro f g k hF hG
  simp only [Option.map_map, Option.mem_def, Option.map_eq_some_iff,
    Function.comp_apply] at hF hG
  obtain ⟨_, _, rfl⟩ := hF
  obtain ⟨_, _, rfl⟩ := hG
  rfl

theorem lookup_famByRef
    (objs : List StixObject) {families : List Str}
    (hFam : families.Nodup) (ref : Str) :
    lookup ref (famByRef objs families) =
      ownerOf objs families ref := by
  rw [famByRef, famObj_of_nodup objs hFam]
  clear hFam
  induction families using List.reverseRecOn with
  | nil => rfl
  | append_singleton families f ih =>
      unfold ownerOf at ih ⊢
      rw [List.filterMap_append, List.map_append, dictOf,
        List.foldl_append, ← dictOf, List.reverse_concat,
        List.find?_cons]
      cases hObject : familyObject objs f with
      | none => simpa [hObject] using ih
      | some o =>
          simp only [List.filterMap_cons, hObject, Option.map_some,
            List.filterMap_nil, List.map_cons, List.map_nil,
            List.foldl_cons, List.foldl_nil, lookup_setEntry, ih,
            Option.any_some]
          by_cases hRef : o.id = ref <;> simp [hRef, beq_eq_decide]

theorem familyObject_software
    {objs : List StixObject} {f : Str} {o : StixObject}
    (hObject : familyObject objs f = some o) :
    o ∈ objs ∧ (o.type = .malware ∨ o.type = .tool) := by
  obtain ⟨o', hO, hPair⟩ := List.mem_flatMap.mp (mem_of_lookup hObject)
  obtain ⟨n, _, hSame⟩ := List.mem_map.mp hPair
  have hIs : o' = o := congrArg Prod.snd hSame
  simpa [hIs] using hO

/- An object that a family owns is neither a technique nor a group. -/
theorem ownerOf_type
    {objs : List StixObject}
    (hIds : (objs.map (·.id)).Nodup) {families : List Str} {f : Str}
    {o : StixObject}
    (hO : o ∈ objs) (hOwner : ownerOf objs families o.id = some f) :
    o.type = .malware ∨ o.type = .tool := by
  have hNames := List.find?_some hOwner
  rw [Option.any_eq_true] at hNames
  obtain ⟨o', hObject, hId⟩ := hNames
  obtain ⟨hO', hType⟩ := familyObject_software hObject
  have hSame := List.inj_on_of_nodup_map hIds hO' hO (by simpa using hId)
  exact hSame ▸ hType

/- A live relationship says that one object uses the other. -/
def Uses (objs : List StixObject) (src dst : Str) : Prop :=
  ∃ r ∈ objs, r.type = .relationship ∧
    r.relationshipType = some usesName ∧
    r.sourceRef = some src ∧ r.targetRef = some dst

theorem mem_usesLinks
    {objs : List StixObject} {families : List Str}
    {link : AttackLink} :
    link ∈ usesLinks objs families ↔
      ∃ src dst, Uses objs src dst ∧
        linkOf (famByRef objs families)
          (byRef (ofType .attackPattern objs))
          (byRef (ofType .intrusionSet objs)) src dst = some link := by
  simp only [usesLinks, List.mem_filterMap, List.mem_filter, mem_ofType,
    beq_iff_eq, Uses, Option.bind_eq_some_iff]
  constructor
  · rintro ⟨r, ⟨⟨hR, hType⟩, hUses⟩, src, hSrc, dst, hDst, hLink⟩
    exact ⟨src, dst, ⟨r, hR, hType, hUses, hSrc, hDst⟩, hLink⟩
  · rintro ⟨src, dst, ⟨r, hR, hType, hUses, hSrc, hDst⟩, hLink⟩
    exact ⟨r, ⟨⟨hR, hType⟩, hUses⟩, src, hSrc, dst, hDst, hLink⟩

/- What a family's object uses is a technique of the family. -/
theorem mem_techniqueLinks
    {objs : List StixObject} {families : List Str}
    (hFam : families.Nodup) (f b : Str) :
    ⟨.familyTechnique, f, b⟩ ∈ usesLinks objs families ↔
      (∃ ref, ownerOf objs families ref = some f ∧ Uses objs ref b) ∧
        (lookup b (byRef (ofType .attackPattern objs))).isSome := by
  simp only [mem_usesLinks, linkOf, lookup_famByRef objs hFam]
  constructor
  · rintro ⟨src, dst, hUses, hLink⟩
    cases hOwner : ownerOf objs families src <;>
      cases hOther : ownerOf objs families dst <;> grind
  · rintro ⟨⟨ref, hOwner, hUses⟩, hSome⟩
    exact ⟨ref, b, hUses, by simp [hOwner, hSome]⟩

/- What uses a family's object is a group of the family: as no
family owns a group, the first branch never takes it. -/
theorem mem_groupLinks
    {objs : List StixObject}
    (hIds : (objs.map (·.id)).Nodup) {families : List Str}
    (hFam : families.Nodup) (f b : Str) :
    ⟨.familyGroup, f, b⟩ ∈ usesLinks objs families ↔
      (∃ ref, ownerOf objs families ref = some f ∧ Uses objs b ref) ∧
        (lookup b (byRef (ofType .intrusionSet objs))).isSome := by
  simp only [mem_usesLinks, linkOf, lookup_famByRef objs hFam]
  constructor
  · rintro ⟨src, dst, hUses, hLink⟩
    cases hOwner : ownerOf objs families src <;>
      cases hOther : ownerOf objs families dst <;> grind
  · rintro ⟨⟨ref, hOwner, hUses⟩, hSome⟩
    have hFree : ownerOf objs families b = none := by
      cases hOwns : ownerOf objs families b with
      | none => rfl
      | some f' =>
          obtain ⟨g, hG⟩ := Option.isSome_iff_exists.mp hSome
          obtain ⟨hIn, rfl⟩ := (lookup_byRef
            (ofType_ids hIds .intrusionSet) b g).mp hG
          obtain ⟨hIn, hType⟩ := mem_ofType.mp hIn
          have hSoft := ownerOf_type hIds hIn hOwns
          simp [hType] at hSoft
    exact ⟨b, ref, hUses, by simp [hFree, hOwner, hSome]⟩

/- The row of a family is of the object that its name finds. -/
theorem software_find
    (objs : List StixObject) {families : List Str}
    (hFam : families.Nodup) (key : Str) :
    (((famObj objs families).filterMap fun e =>
        softwareRow e.1 e.2).find? (·.family == key)) =
      if key ∈ families then
        (familyObject objs key).bind (softwareRow key)
      else none := by
  rw [famObj_of_nodup objs hFam, List.filterMap_filterMap]
  have hEach : ∀ f, ((familyObject objs f).map fun o => (f, o)).bind
      (fun e => softwareRow e.1 e.2) =
        (familyObject objs f).bind (softwareRow f) := by
    intro f
    cases familyObject objs f <;> rfl
  simp only [hEach]
  have hKey : ∀ f row, (familyObject objs f).bind (softwareRow f) =
      some row → row.family = f := by
    intro f row hRow
    obtain ⟨o, _, hIs⟩ := Option.bind_eq_some_iff.mp hRow
    obtain ⟨id, _, rfl⟩ := Option.map_eq_some_iff.mp hIs
    rfl
  clear hFam
  induction families with
  | nil => rfl
  | cons f families ih =>
      simp only [List.filterMap_cons]
      by_cases hHere : f = key
      · subst hHere
        cases hRow : (familyObject objs f).bind (softwareRow f) with
        | none => simp only [ih, hRow, ite_self]
        | some row => simp [hKey f row hRow]
      · cases hRow : (familyObject objs f).bind (softwareRow f) with
        | none => simp [ih, Ne.symm hHere]
        | some row => simp [hKey f row hRow, hHere, ih, Ne.symm hHere]

/- A technique is under each of its tactics, and each tactic is
there once, in the order of the kill chain. -/
theorem groupByTactic_exact
    (db : AttackTables) (techniques : List TechniqueRow) :
    let byTactic := groupByTactic db techniques
    (byTactic.map (·.shortname)).Nodup ∧
    byTactic.Pairwise (fun a b =>
      tacticPosition db a.shortname ≤ tacticPosition db b.shortname) ∧
    ∀ short t, (∃ b ∈ byTactic, b.shortname = short ∧
        t ∈ b.techniques) ↔
      t ∈ techniques ∧ short ∈ t.tacticList := by
  refine ⟨?_, ?_, fun short t => ?_⟩
  · rw [groupByTactic, ((List.mergeSort_perm _ _).map _).nodup_iff,
      List.map_map]
    exact collect_keys_nodup _
  · refine (List.pairwise_mergeSort ?_ ?_ _).imp fun h => by simpa using h
    · intro a b c hAB hBC
      simp only [decide_eq_true_eq] at hAB hBC ⊢
      exact hAB.trans hBC
    · intro a b
      simpa using Nat.le_total _ _
  · simp only [groupByTactic, List.mem_mergeSort, List.mem_map,
      exists_exists_and_eq_and]
    rw [mem_collect_iff]
    simp [List.mem_flatMap]

/-
  Whatever was fetched before, a family is answered from the last
  release that could be stored: it is tracked where its name finds
  a live object with an id, and has exactly the live techniques
  and groups that are tied by a live `uses` to an object it owns,
  each once. Of the families that find one object the last owns
  it; the others are tracked with nothing under them.
-/
theorem family_answer_exact
    {families : List Str}
    (hFam : families.Nodup)
    {bundle : List StixObject}
    (hIds : ((bundle.filter (·.live)).map (·.id)).Nodup)
    (hStored : (parseBundle bundle families).Storable)
    (start : AttackTables)
    (before : List (Option (List StixObject)))
    {after : List (Option (List StixObject))}
    (hLater : ∀ later, some later ∈ after →
      ¬ (parseBundle later families).Storable)
    (family : Str) :
    let objs := bundle.filter (·.live)
    let key := familyKey family
    let db := (before ++ some bundle :: after).foldl
      (refreshAttack families) start
    let answer := familyAttack db family
    (answer.software = if key ∈ families then
        (familyObject objs key).bind (softwareRow key)
      else none) ∧
    answer.techniques.Nodup ∧ answer.groups.Nodup ∧
    (answer.software.isSome →
      (∀ row, row ∈ answer.techniques ↔
        ∃ t ∈ objs, t.type = .attackPattern ∧
          (∃ ref, ownerOf objs families ref = some key ∧
            Uses objs ref t.id) ∧
          techniqueRow t = some row) ∧
      ∀ row, row ∈ answer.groups ↔
        ∃ g ∈ objs, g.type = .intrusionSet ∧
          (∃ ref, ownerOf objs families ref = some key ∧
            Uses objs g.id ref) ∧
          groupRow g = some row) ∧
    (answer.byTactic.map (·.shortname)).Nodup ∧
    answer.byTactic.Pairwise (fun a b =>
      tacticPosition db a.shortname ≤ tacticPosition db b.shortname) ∧
    ∀ short t, (∃ b ∈ answer.byTactic, b.shortname = short ∧
        t ∈ b.techniques) ↔
      t ∈ answer.techniques ∧ short ∈ t.tacticList := by
  intro objs key db answer
  have hKept : ∀ db, after.foldl (refreshAttack families) db = db := by
    clear hStored answer db
    induction after with
    | nil => exact fun db => rfl
    | cons fetched after ih =>
        intro db
        have hStep : refreshAttack families db fetched = db := by
          cases fetched with
          | none => rfl
          | some later =>
              exact if_neg (hLater later List.mem_cons_self)
        rw [List.foldl_cons, hStep]
        exact ih (fun l hL => hLater l (List.mem_cons_of_mem _ hL)) db
  have hDb : db = parseBundle bundle families := by
    simp only [db]
    rw [List.foldl_append, List.foldl_cons, hKept]
    exact if_pos hStored
  have hAnswer : answer =
      familyAttack (parseBundle bundle families) family :=
    congrArg (familyAttack · family) hDb
  have hFind : (parseBundle bundle families).software.find?
      (·.family == key) = _ := software_find objs hFam key
  rw [hAnswer, hDb, familyAttack]
  simp only [← show key = familyKey family from rfl, hFind]
  cases hSoft : (if key ∈ families then
      (familyObject objs key).bind (softwareRow key) else none) with
  | none =>
      exact ⟨rfl, List.nodup_nil, List.nodup_nil, nofun,
        List.nodup_nil, List.Pairwise.nil, by simp⟩
  | some soft =>
      let idAt := fun ref => (lookup ref (byRef objs)).bind (·.attackId)
      obtain ⟨_, hTechniques, hGroups, _⟩ := hStored
      have hExact := groupByTactic_exact
        (parseBundle bundle families)
      refine ⟨rfl, ?_, ?_, fun _ => ⟨fun row => ?_, fun row => ?_⟩,
        hExact _⟩
      · exact (List.mergeSort_perm _ _).nodup_iff.mpr
          (joinOn_nodup (sortedPairs_nodup _) _ hTechniques)
      · exact (List.mergeSort_perm _ _).nodup_iff.mpr
          (joinOn_nodup (sortedPairs_nodup _) _ hGroups)
      · rw [List.mem_mergeSort]
        refine mem_joined hIds ?_ rfl hTechniques
          (fun b => ∃ ref, ownerOf objs families ref = some key ∧
            Uses objs ref b) (fun x => ?_) row
        · intro o
          unfold techniqueRow
          cases o.attackId <;> rfl
        · exact (mem_linkPairs _ .familyTechnique idAt key x).trans
            (exists_congr fun b => and_congr
              (mem_techniqueLinks hFam key b) Iff.rfl)
      · rw [List.mem_mergeSort]
        refine mem_joined hIds ?_ rfl hGroups
          (fun b => ∃ ref, ownerOf objs families ref = some key ∧
            Uses objs b ref) (fun x => ?_) row
        · intro o
          unfold groupRow
          cases o.attackId <;> rfl
        · exact (mem_linkPairs _ .familyGroup idAt key x).trans
            (exists_congr fun b => and_congr
              (mem_groupLinks hIds hFam key b) Iff.rfl)

end

/- Live, with an id of its own in ATT&CK. -/
def plainObject (id : Str) (type : StixType) (name : Str) :
    StixObject :=
  ⟨id, type, some name, [], false, false,
    [⟨some attackSource, some id, none⟩], [], false, some usesName,
    some (lit "S1"), some (lit "T1"), [], [], [], []⟩

theorem beacon_answered :
    let bundle := [plainObject (lit "S1") .tool (lit "Cobalt Strike"),
      plainObject (lit "T1") .attackPattern (lit "Injection"),
      plainObject (lit "R1") .relationship []]
    let db := ([] ++ some bundle :: [none]).foldl
      (@refreshAttack asciiTables [lit "cobaltstrike"])
      ⟨[], [], [], [], [], [], [], []⟩
    (@familyAttack asciiTables db (lit " CobaltStrike")).software =
      some ⟨lit "cobaltstrike", lit "S1", lit "Cobalt Strike", none,
        .tool⟩ :=
  ((@family_answer_exact asciiTables _ (by decide) _ (by decide)
    ⟨by simp [parseBundle, parseTactics, ofType, plainObject], by decide,
      by decide, by decide⟩ _ _ _ (by simp) _).1).trans (by decide)

end ThreatOrbit.Cti
