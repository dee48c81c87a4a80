import ThreatOrbit.Auth.Accounts
import ThreatOrbit.Intel.Dialect

/-
  Pulling a TAXII collection: the server's pages and the
  clients that walk them.

  The envelope has a cursor for the next page, which the
  endpoint has no parameter for.
-/

---- The Objects Of A Collection

namespace ThreatOrbit.Intel

open Lib

section

/- The columns of a threat actor that are published; lists
that the stored text does not hold are empty. -/
structure ActorRow where
  name : Str
  type : Option Str
  origin : Option Str
  firstSeen : Option Str
  lastSeen : Option Str
  aliases : List Str
  sophistication : Int
  motivations : List Str
deriving DecidableEq, Repr

/- A threat actor object; a field that is empty is left
out of it. -/
structure StixActor where
  id : Str
  created : Str
  modified : Str
  name : Str
  description : Str
  actorType : Str
  aliases : List Str
  sophistication : Str
  goals : List Str
deriving DecidableEq, Repr

structure StixRelationship where
  id : Str
  created : Str
  modified : Str
  relationshipType : Str
  sourceRef : Str
  targetRef : Str
deriving DecidableEq, Repr

/- An object that is published. -/
inductive Sdo where
| object (obj : StixObject)
| actor (obj : StixActor)
| relationship (obj : StixRelationship)
deriving DecidableEq, Repr

def Sdo.type : Sdo → Str
| .object (.indicator _) => lit "indicator"
| .object (.vulnerability _) => lit "vulnerability"
| .actor _ => lit "threat-actor"
| .relationship _ => lit "relationship"

def Sdo.id : Sdo → Str
| .object (.indicator obj) => obj.id
| .object (.vulnerability obj) => obj.id
| .actor obj => obj.id
| .relationship obj => obj.id

/- `o.get("modified") or o.get("created") or ""`. -/
def Sdo.stamp : Sdo → Str
| .object (.indicator obj) => orStr (some obj.modified) obj.created
| .object (.vulnerability obj) =>
    orStr (some obj.modified) obj.created
| .actor obj => orStr (some obj.modified) obj.created
| .relationship obj => orStr (some obj.modified) obj.created

/- `_TA_TYPE`. -/
def actorTypes : List (Str × Str) :=
  [(lit "nation-state", lit "nation-state"),
    (lit "cybercrime", lit "crime-syndicate"),
    (lit "hacktivist", lit "hacktivist"),
    (lit "insider", lit "insider-threat")]

/- `_SOPH.get(sophistication or 3, "intermediate")`. -/
@[grind =]
def sophisticationOf (level : Int) : Str :=
  match level with
  | 1 => lit "minimal"
  | 2 => lit "intermediate"
  | 4 => lit "expert"
  | 5 => lit "strategic"
  | 0 | 3 => lit "advanced"
  | _ => lit "intermediate"

section

variable [Unicode]

/- `actor_to_stix`; `none` where its id cannot be made. -/
def actorToStix
    (tools : StixTools)
    (actor : ActorRow) : Option Sdo :=
  let name := actor.name
  let created := tools.ts actor.firstSeen none
  (detId tools (lit "threat-actor") name).map fun id =>
    .actor
      { id := id
        created := created
        modified := tools.ts actor.lastSeen (some created)
        name := name
        description :=
          orStr actor.type (lit "Threat actor") ++
            lit " tracked by ThreatOrbit" ++
            (match orStr actor.origin [] with
            | [] => []
            | origin => lit " (origin " ++ origin ++ lit ")") ++
            lit "."
        actorType :=
          (lookup
            (replaceAll (lit " ") (lit "-")
              (Unicode.lower (actor.type.getD [])))
            actorTypes).getD (lit "unknown")
        aliases := actor.aliases
        sophistication := sophisticationOf actor.sophistication
        goals := actor.motivations }

/- `relationship`: an indicator indicates an actor. -/
def relationship
    (tools : StixTools)
    (srcId targetId : Str) : Option Sdo :=
  let rel := lit "indicates"
  (detId tools (lit "relationship")
      (srcId ++ lit "|" ++ rel ++ lit "|" ++ targetId)).map
    fun id =>
      .relationship
        { id := id
          created := tools.ts none none
          modified := tools.ts none none
          relationshipType := rel
          sourceRef := srcId
          targetRef := targetId }

/- The objects of one indicator: itself and, where it is an
indicator with a known actor, a relationship. -/
def objectsOfIoc
    (tools : StixTools)
    (actors : List ActorRow)
    (ioc : IocRow) : Option (List Sdo) :=
  (iocToStix tools ioc).bind fun sdo =>
    match sdo, ioc.actor with
    | .indicator obj, some (c :: rest) =>
        if (actors.map ActorRow.name).contains (c :: rest) then
          (detId tools (lit "threat-actor") (c :: rest)).bind
            fun target =>
              (relationship tools obj.id target).map fun r =>
                [.object sdo, r]
        else some [.object sdo]
    | _, _ => some [.object sdo]

/- `build_objects`, with the actors. -/
def buildWithActors
    (tools : StixTools)
    (iocs : List IocRow)
    (actors : List ActorRow) : Option (List Sdo) :=
  (actors.mapM (actorToStix tools)).bind fun first =>
    (iocs.mapM (objectsOfIoc tools actors)).map fun later =>
      first ++ later.flatten

structure ServedStore where
  iocs : List IocRow
  actors : List ActorRow
deriving DecidableEq, Repr

/- The object types that a collection serves. -/
def servedTypes : List (Str × List Str) :=
  [(lit "indicators",
      [lit "indicator", lit "vulnerability",
        lit "relationship"]),
    (lit "threat-actors", [lit "threat-actor"])]

/- `status != 'known-good'` in a query. -/
def IocRow.published (ioc : IocRow) : Bool :=
  match ioc.status with
  | none => false
  | some status => status != lit "known-good"

def objectsFor
    (tools : StixTools)
    (store : ServedStore)
    (collectionId : Str) : Option (List Sdo) :=
  (lookup collectionId servedTypes).bind fun served =>
    if collectionId = lit "threat-actors" then
      store.actors.mapM (actorToStix tools)
    else
      (buildWithActors tools
        (store.iocs.filter IocRow.published)
        store.actors).map fun objects =>
          objects.filter fun o => served.contains o.type

end

end

---- Pages

open Lib Auth

section

/- The parameters of a request for objects. -/
structure TaxiiQuery where
  type : Option Str
  addedAfter : Option Str
  limit : Int
  next : Option Str
deriving DecidableEq, Repr

structure Envelope where
  objects : List Sdo
  more : Bool
  next : Option Str
deriving DecidableEq, Repr

/- The TAXII server: the name UUIDs, and the timestamps at
the moment of a request. -/
structure TaxiiServer where
  uuid5 : Bytes → Str
  ts : Nat → Option Str → Option Str → Str

def TaxiiServer.tools (s : TaxiiServer) (moment : Nat) :
    StixTools :=
  ⟨s.uuid5, s.ts moment⟩

/- `objects[:limit]`. -/
def pageOf (objects : List Sdo) (limit : Int) : List Sdo :=
  if 0 ≤ limit then objects.take limit.toNat
  else objects.take (objects.length + limit).toNat

/- `objects.sort(key=...)`, which is stable. -/
def sortByStamp (objects : List Sdo) : List Sdo :=
  objects.mergeSort fun a b => !decide (b.stamp < a.stamp)

variable [Unicode]

/- `get_objects`; it has no parameter `next`. -/
def getObjects
    (tools : StixTools)
    (store : ServedStore)
    (collectionId : Str)
    (q : TaxiiQuery) : Except HttpError Envelope :=
  if 1000 < q.limit then
    .error ⟨422, lit "Unprocessable Entity"⟩
  else
    match lookup collectionId servedTypes with
    | none => .error ⟨404, lit "Collection not found"⟩
    | some _ =>
        match objectsFor tools store collectionId with
        | none => .error ⟨500, lit "Internal Server Error"⟩
        | some all =>
            let wanted :=
              match q.type with
              | none | some [] => all
              | some type =>
                  all.filter fun o =>
                    ((splitOn (cp ',') type).map strip).contains
                      o.type
            let recent :=
              match q.addedAfter with
              | none | some [] => wanted
              | some after =>
                  wanted.filter fun o => decide (after < o.stamp)
            let objects := sortByStamp recent
            let page := pageOf objects q.limit
            .ok
              { objects := page
                more := decide (q.limit < objects.length)
                next := page.getLast?.map Sdo.stamp }

/- The answers to a client that passes a cursor back, the
n-th at the n-th moment. -/
def TaxiiServer.serve
    (s : TaxiiServer)
    (store : ServedStore)
    (collectionId : Str)
    (limit : Int)
    (n : Nat)
    (cursor : Option Str) : Except HttpError Envelope :=
  getObjects (s.tools n) store collectionId
    ⟨none, none, limit, cursor⟩

end

---- Clients

section

/- A client that continues while there is more, with the
cursor of the page before: the objects it has received
when it stops, `none` if it does not within the fuel or is
refused. -/
@[grind =]
def follow
    (serve : Nat → Option Str → Except HttpError Envelope) :
    Nat → Nat → Option Str → Option (List Sdo)
| 0, _, _ => none
| fuel + 1, n, cursor =>
    match serve n cursor with
    | .error _ => none
    | .ok page =>
        if page.more then
          (follow serve fuel (n + 1) page.next).map fun rest =>
            page.objects ++ rest
        else some page.objects

/- What `_fetch_taxii` has received and made of it. -/
structure TaxiiWalk where
  received : List Sdo
  out : List FeedIoc
deriving DecidableEq, Repr

/- `_TAXII_MAX_PAGES` and `_TAXII_MAX_INDICATORS`. -/
def taxiiMaxPages : Nat := 50

def taxiiMaxIndicators : Nat := 100000

def sdoToIoc : Sdo → Option FeedIoc
| .object obj => stixIndicatorToIoc (lit "taxii") obj
| _ => none

/- The objects of a page, and whether the walk is full. -/
@[grind =]
def takeObjects : List Sdo → TaxiiWalk → TaxiiWalk × Bool
| [], walk => (walk, false)
| o :: rest, walk =>
    let received := walk.received ++ [o]
    match sdoToIoc o with
    | none => takeObjects rest { walk with received := received }
    | some ioc =>
        let out := walk.out ++ [ioc]
        if taxiiMaxIndicators ≤ out.length then
          (⟨received, out⟩, true)
        else takeObjects rest ⟨received, out⟩

/- The pages that `_fetch_taxii` still walks. -/
def walkPages
    (serve : Nat → Option Str → Except HttpError Envelope) :
    Nat → Nat → Option Str → TaxiiWalk →
      Except HttpError TaxiiWalk
| 0, _, _, walk => .ok walk
| pages + 1, n, cursor, walk =>
    match serve n cursor with
    | .error e => .error e
    | .ok page =>
        match takeObjects page.objects walk with
        | (after, true) => .ok after
        | (after, false) =>
            if page.more then
              match page.next with
              | none | some [] => .ok after
              | some next =>
                  walkPages serve pages (n + 1) (some next) after
            else .ok after

def fetchTaxii
    (serve : Nat → Option Str → Except HttpError Envelope) :
    Except HttpError TaxiiWalk :=
  walkPages serve taxiiMaxPages 0 none ⟨[], []⟩

variable [Unicode]

/- Every object of the collection is among those received. -/
def Covers
    (s : TaxiiServer)
    (store : ServedStore)
    (collectionId : Str)
    (received : List Sdo) : Prop :=
  ∃ objects,
    objectsFor (s.tools 0) store collectionId = some objects ∧
      ∀ o ∈ objects, ∃ r ∈ received, r.id = o.id

/- Both clients receive every object of the collection, and
stop. -/
structure PullComplete
    (s : TaxiiServer)
    (store : ServedStore)
    (collectionId : Str)
    (limit : Int) : Prop where
  client :
    ∃ fuel received,
      follow (s.serve store collectionId limit) fuel 0 none =
          some received ∧
        Covers s store collectionId received
  platform :
    ∃ walk,
      fetchTaxii (s.serve store collectionId limit) = .ok walk ∧
        Covers s store collectionId walk.received

end

---- How Many Objects There Are

section

variable [Unicode]

/- An indicator gets a relationship: it is none of a CVE, and
has a known actor. -/
def related (actors : List ActorRow) (ioc : IocRow) : Bool :=
  Unicode.lower (ioc.type.getD []) != lit "cve" &&
    !(orStr ioc.actor []).isEmpty &&
    (actors.map ActorRow.name).contains (orStr ioc.actor [])

/- The number of objects of a collection. -/
def ServedStore.count
    (store : ServedStore)
    (collectionId : Str) : Nat :=
  if collectionId = lit "threat-actors" then
    store.actors.length
  else
    ((store.iocs.filter IocRow.published).map fun ioc =>
      if related store.actors ioc then 2 else 1).sum

omit [Unicode] in
theorem relationship_type
    {tools : StixTools} {srcId targetId : Str} {r : Sdo}
    (hSome : relationship tools srcId targetId = some r) :
    r.type = lit "relationship" := by
  unfold relationship at hSome
  rcases Option.map_eq_some_iff.mp hSome with ⟨id, _, hIs⟩
  rw [← hIs]
  rfl

theorem actorToStix_type
    {tools : StixTools} {actor : ActorRow} {o : Sdo}
    (hSome : actorToStix tools actor = some o) :
    o.type = lit "threat-actor" := by
  unfold actorToStix at hSome
  rcases Option.map_eq_some_iff.mp hSome with ⟨id, _, hIs⟩
  rw [← hIs]
  rfl

/- The types of the objects of an indicator. -/
def iocTypes : List Str :=
  [lit "indicator", lit "vulnerability", lit "relationship"]

/- Whether an object is a vulnerability is a matter of the
type of the row. -/
theorem iocToStix_kind
    {tools : StixTools} {ioc : IocRow} {sdo : StixObject}
    (hSome : iocToStix tools ioc = some sdo) :
    if Unicode.lower (ioc.type.getD []) = lit "cve" then
      ∃ obj, sdo = .vulnerability obj
    else ∃ obj, sdo = .indicator obj := by
  unfold iocToStix at hSome
  dsimp only at hSome
  split at hSome
  · rename_i hCve
    rcases Option.map_eq_some_iff.mp hSome with ⟨id, _, hIs⟩
    rw [if_pos hCve]
    exact ⟨_, hIs.symm⟩
  · rename_i hOther
    rcases Option.map_eq_some_iff.mp hSome with ⟨id, _, hIs⟩
    rw [if_neg hOther]
    exact ⟨_, hIs.symm⟩

theorem objectsOfIoc_some
    {tools : StixTools} {actors : List ActorRow} {ioc : IocRow}
    {l : List Sdo}
    (hSome : objectsOfIoc tools actors ioc = some l) :
    l.length = (if related actors ioc then 2 else 1) ∧
      ∀ o ∈ l, o.type ∈ iocTypes := by
  unfold objectsOfIoc at hSome
  rcases Option.bind_eq_some_iff.mp hSome with
    ⟨sdo, hSdo, hRest⟩
  have hKind := iocToStix_kind hSdo
  by_cases hCve :
      Unicode.lower (ioc.type.getD []) = lit "cve"
  · rw [if_pos hCve] at hKind
    rcases hKind with ⟨obj, rfl⟩
    have hAlone : related actors ioc = false := by
      simp [related, hCve]
    dsimp only at hRest
    rw [Option.some.injEq] at hRest
    subst hRest
    simp [hAlone, Sdo.type, iocTypes]
  · rw [if_neg hCve] at hKind
    rcases hKind with ⟨obj, rfl⟩
    have hIndicator :
        (Sdo.object (.indicator obj)).type ∈ iocTypes := by
      simp [Sdo.type, iocTypes]
    cases hActor : ioc.actor with
    | none =>
        have hAlone : related actors ioc = false := by
          simp [related, hActor, orStr]
        rw [hActor] at hRest
        dsimp only at hRest
        rw [Option.some.injEq] at hRest
        subst hRest
        simp [hAlone, hIndicator]
    | some actor =>
        cases actor with
        | nil =>
            have hAlone : related actors ioc = false := by
              simp [related, hActor, orStr]
            rw [hActor] at hRest
            dsimp only at hRest
            rw [Option.some.injEq] at hRest
            subst hRest
            simp [hAlone, hIndicator]
        | cons c rest =>
            rw [hActor] at hRest
            dsimp only at hRest
            by_cases hKnown :
                (actors.map ActorRow.name).contains
                  (c :: rest) = true
            · have hBoth : related actors ioc = true := by
                rw [related, hActor]
                simp only [orStr, hKnown, Bool.and_true]
                simp [hCve]
              rw [if_pos hKnown] at hRest
              rcases Option.bind_eq_some_iff.mp hRest with
                ⟨target, _, hTarget⟩
              rcases Option.map_eq_some_iff.mp hTarget with
                ⟨r, hR, rfl⟩
              have hType := relationship_type hR
              constructor
              · rw [hBoth]
                rfl
              · intro o hO
                rcases List.mem_cons.mp hO with rfl | hLast
                · exact hIndicator
                · rw [List.mem_singleton.mp hLast, hType]
                  decide
            · have hAlone : related actors ioc = false := by
                rw [related, hActor]
                simp only [orStr]
                rw [Bool.not_eq_true] at hKnown
                rw [hKnown, Bool.and_false]
              rw [if_neg hKnown, Option.some.injEq] at hRest
              subst hRest
              simp [hAlone, hIndicator]

/- The collection has as many objects as its rows say. -/
theorem length_objectsFor
    {tools : StixTools} {store : ServedStore} {collectionId : Str}
    {objects : List Sdo}
    (hSome :
      objectsFor tools store collectionId = some objects) :
    objects.length = store.count collectionId := by
  unfold objectsFor at hSome
  rcases Option.bind_eq_some_iff.mp hSome with
    ⟨served, hServed, hRest⟩
  unfold ServedStore.count
  by_cases hActors : collectionId = lit "threat-actors"
  · rw [if_pos hActors] at hRest
    rw [if_pos hActors]
    exact length_of_mapM hRest
  · rw [if_neg hActors] at hRest
    rw [if_neg hActors]
    rcases Option.map_eq_some_iff.mp hRest with
      ⟨built, hBuilt, hIs⟩
    unfold buildWithActors at hBuilt
    rcases Option.bind_eq_some_iff.mp hBuilt with
      ⟨first, hFirst, hLater⟩
    rcases Option.map_eq_some_iff.mp hLater with
      ⟨later, hIocs, hJoined⟩
    have hTypes : served = iocTypes := by
      unfold servedTypes at hServed
      simp only [lookup] at hServed
      split at hServed
      · rw [Option.some.injEq] at hServed
        exact hServed.symm
      · split at hServed
        · rename_i hIs
          exact absurd hIs.symm hActors
        · cases hServed
    rcases flatten_of_mapM (fun _ _ h => objectsOfIoc_some h)
      hIocs with ⟨hLength, hAll⟩
    have hNone :
        first.filter (fun o => served.contains o.type) = [] := by
      rw [List.filter_eq_nil_iff]
      intro o hO
      have hType : o.type = lit "threat-actor" :=
        forall_of_mapM (fun _ _ h => actorToStix_type h) hFirst
          o hO
      rw [hTypes, hType]
      decide
    have hKeep :
        later.flatten.filter
            (fun o => served.contains o.type) =
          later.flatten := by
      rw [List.filter_eq_self]
      intro o hO
      rw [hTypes]
      simpa using hAll o hO
    rw [← hIs, ← hJoined, List.filter_append, hNone, hKeep,
      List.nil_append, hLength]

end

---- One Page

section

variable [Unicode]

/- An answer to a client: a page of the collection, whatever
the cursor. -/
theorem serve_ok_iff
    {s : TaxiiServer} {store : ServedStore} {collectionId : Str}
    {limit : Int} {n : Nat} {cursor : Option Str} {page : Envelope}
    (hLimit : limit ≤ 1000) :
    s.serve store collectionId limit n cursor = .ok page ↔
      ∃ objects,
        objectsFor (s.tools n) store collectionId =
            some objects ∧
          page =
            { objects := pageOf (sortByStamp objects) limit
              more := decide (limit < objects.length)
              next :=
                (pageOf (sortByStamp objects) limit).getLast?.map
                  Sdo.stamp } := by
  unfold TaxiiServer.serve getObjects
  rw [if_neg (not_lt.mpr hLimit)]
  have hLength (objects : List Sdo) :
      (sortByStamp objects).length = objects.length :=
    List.length_mergeSort _
  cases hServed : lookup collectionId servedTypes with
  | none =>
      have hNone :
          objectsFor (s.tools n) store collectionId = none := by
        unfold objectsFor
        rw [hServed]
        rfl
      simp [hNone]
  | some served =>
      cases hObjects :
          objectsFor (s.tools n) store collectionId with
      | none => simp
      | some objects =>
          simp [hLength, eq_comm]

/- With more objects than a page holds a client that goes on
never stops. -/
theorem follow_none
    {s : TaxiiServer} {store : ServedStore} {collectionId : Str}
    {limit : Int}
    (hLimit : limit ≤ 1000)
    (hMore : limit < store.count collectionId) (fuel n : Nat)
    (cursor : Option Str) :
    follow (s.serve store collectionId limit) fuel n cursor =
      none := by
  induction fuel generalizing n cursor with
  | zero => rfl
  | succ fuel ih =>
      unfold follow
      cases hPage :
          s.serve store collectionId limit n cursor with
      | error e => rfl
      | ok page =>
          rcases (serve_ok_iff hLimit).mp hPage with
            ⟨objects, hObjects, rfl⟩
          have hLength := length_objectsFor hObjects
          dsimp only
          rw [hLength, if_pos (decide_eq_true hMore), ih]
          rfl

/- With no more objects than a page holds, it holds all of
them and says that there is no more. -/
theorem serve_all
    {s : TaxiiServer} {store : ServedStore} {collectionId : Str}
    {limit : Int} {objects : List Sdo}
    (hLimit : limit ≤ 1000)
    (hObjects :
      objectsFor (s.tools 0) store collectionId = some objects)
    (hFits : (store.count collectionId : Int) ≤ limit) :
    ∃ page,
      s.serve store collectionId limit 0 none = .ok page ∧
        page.more = false ∧
        page.objects = sortByStamp objects := by
  have hLength := length_objectsFor hObjects
  refine ⟨_, (serve_ok_iff hLimit).mpr
    ⟨objects, hObjects, rfl⟩, ?_, ?_⟩
  · rw [hLength]
    exact decide_eq_false (by omega)
  · have hSorted : (sortByStamp objects).length = objects.length :=
      List.length_mergeSort _
    unfold pageOf
    rw [if_pos (by omega), List.take_of_length_le (by omega)]

omit [Unicode] in
theorem takeObjects_all
    (objects : List Sdo) (walk : TaxiiWalk)
    (hRoom :
      walk.out.length + objects.length < taxiiMaxIndicators) :
    (takeObjects objects walk).2 = false ∧
      (takeObjects objects walk).1.received =
        walk.received ++ objects := by
  induction objects generalizing walk with
  | nil => simp [takeObjects]
  | cons o rest ih =>
      rw [List.length_cons] at hRoom
      unfold takeObjects
      cases hIoc : sdoToIoc o with
      | none =>
          have hRest :=
            ih { walk with received := walk.received ++ [o] }
              (by dsimp only; omega)
          dsimp only at hRest ⊢
          rw [List.append_assoc] at hRest
          exact hRest
      | some ioc =>
          have hOut : (walk.out ++ [ioc]).length =
              walk.out.length + 1 := by
            simp
          have hRest :=
            ih ⟨walk.received ++ [o], walk.out ++ [ioc]⟩
              (by rw [hOut]; omega)
          dsimp only at hRest ⊢
          rw [if_neg (by omega)]
          rw [List.append_assoc] at hRest
          exact hRest

theorem covers_sorted
    {s : TaxiiServer} {store : ServedStore} {collectionId : Str}
    {objects : List Sdo}
    (hObjects :
      objectsFor (s.tools 0) store collectionId =
        some objects) :
    Covers s store collectionId (sortByStamp objects) := by
  refine ⟨objects, hObjects, ?_⟩
  intro o hO
  exact ⟨o, (List.mergeSort_perm objects _).mem_iff.mpr hO, rfl⟩

theorem fits_of_complete
    {s : TaxiiServer} {store : ServedStore} {collectionId : Str}
    {limit : Int}
    (hLimit : limit ≤ 1000)
    (hComplete : PullComplete s store collectionId limit) :
    (objectsFor (s.tools 0) store collectionId).isSome = true ∧
      (store.count collectionId : Int) ≤ limit := by
  rcases hComplete.client with ⟨fuel, received, hFollow, hCovers⟩
  rcases hCovers with ⟨objects, hObjects, _⟩
  constructor
  · rw [hObjects]
    rfl
  · by_contra hMore
    rw [follow_none hLimit (not_le.mp hMore)] at hFollow
    cases hFollow

/- A pull receives every object and stops exactly where the
objects of the collection can be made and fit on one page. -/
theorem pull_complete_iff
    {s : TaxiiServer}
    {store : ServedStore}
    {collectionId : Str}
    {limit : Int}
    (hPos : 1 ≤ limit)
    (hLimit : limit ≤ 1000) :
    PullComplete s store collectionId limit ↔
      (objectsFor (s.tools 0) store collectionId).isSome =
          true ∧
        (store.count collectionId : Int) ≤ limit := by
  constructor
  · exact fits_of_complete hLimit
  · rintro ⟨hSome, hFits⟩
    rcases Option.isSome_iff_exists.mp hSome with
      ⟨objects, hObjects⟩
    rcases serve_all hLimit hObjects hFits with
      ⟨page, hPage, hLast, hAll⟩
    have hCovers := covers_sorted hObjects
    rw [← hAll] at hCovers
    constructor
    · refine ⟨1, page.objects, ?_, hCovers⟩
      unfold follow
      rw [hPage]
      simp [hLast]
    · have hLength := length_objectsFor hObjects
      have hSorted : page.objects.length = objects.length := by
        rw [hAll]
        exact List.length_mergeSort _
      have hRoom :
          (TaxiiWalk.mk [] []).out.length + page.objects.length <
            taxiiMaxIndicators := by
        unfold taxiiMaxIndicators
        simp only [List.length_nil]
        omega
      have hTaken := takeObjects_all page.objects ⟨[], []⟩ hRoom
      rcases hPair : takeObjects page.objects ⟨[], []⟩ with
        ⟨walk, full⟩
      rw [hPair] at hTaken
      have hOpen : full = false := hTaken.1
      have hReceived : walk.received = page.objects := hTaken.2
      refine ⟨walk, ?_, ?_⟩
      · unfold fetchTaxii taxiiMaxPages walkPages
        rw [hPage]
        dsimp only
        rw [hPair, hOpen, hLast]
        rfl
      · rw [hReceived]
        exact hCovers

end

---- Two Addresses

local instance pullUnicode : Unicode := asciiTables

/- A server without name UUIDs. -/
def plainServer : TaxiiServer where
  uuid5 name := name.map UInt8.toNat
  ts _ stored fallback := orStr stored (orStr fallback [])

/- Two indicators of one import, and no actor. -/
def twoAddresses : ServedStore where
  iocs :=
    [{ urlRow (lit "http://a.test/") with
        status := some (lit "active") },
      { urlRow (lit "http://b.test/") with
        status := some (lit "active") }]
  actors := []

theorem twoAddresses_on_one_page :
    PullComplete plainServer twoAddresses (lit "indicators")
      100 :=
  (pull_complete_iff (by decide) (by decide)).mpr
    ⟨by decide, by decide⟩

/- On pages of one the second is never sent. -/
theorem twoAddresses_on_two_pages :
    ¬ PullComplete plainServer twoAddresses (lit "indicators")
      1 := by
  intro hComplete
  have hFits := (fits_of_complete (by decide) hComplete).2
  revert hFits
  decide

end ThreatOrbit.Intel
