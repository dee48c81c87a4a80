import Mathlib.Data.Finset.Sort
import ThreatOrbit.Lib.Breadth
import ThreatOrbit.Lib.Grouping

/-
  The relationship graph: actors, malware, techniques, sectors,
  reports and indicators as nodes, and the pivots on it: the
  neighbours of a node, a shortest path between two nodes, and
  the part of the graph around a focus.
-/

---- The Graph

namespace ThreatOrbit.Cti

open Lib

structure GraphNode where
  id : Str
  label : Str
  group : Str
  level : Option Str
  size : Int
  iocType : Option Str
deriving DecidableEq, Repr

structure GraphLink where
  source : Str
  target : Str
  kind : Str
deriving DecidableEq, Repr

/- The nodes by their id, and the links. -/
structure Graph where
  nodes : List GraphNode
  links : List GraphLink

/- A node, whose id is its group and its name. -/
def graphNode
    (group name label : Str)
    (size : Int)
    (level iocType : Option Str) : GraphNode where
  id := group ++ cp ':' :: name
  label := label
  group := group
  level := level
  size := size
  iocType := iocType

namespace Graph

def ids (g : Graph) : List Str :=
  g.nodes.map GraphNode.id

/- `id in nodes`. -/
def has (g : Graph) (id : Str) : Bool :=
  g.ids.contains id

@[simp]
theorem has_iff
    {g : Graph}
    {id : Str} : g.has id = true ↔ id ∈ g.ids := by
  simp [has]

/- `nodes[id]`. -/
def node? (g : Graph) (id : Str) : Option GraphNode :=
  g.nodes.find? fun n => n.id = id

def addNode (g : Graph) (n : GraphNode) : Graph :=
  if g.has n.id then g
  else { g with nodes := g.nodes ++ [n] }

def link (g : Graph) (src dst kind : Str) : Graph :=
  { g with links := g.links ++ [⟨src, dst, kind⟩] }

/- A link to a node, which is added before. -/
def attach
    (src kind : Str)
    (g : Graph)
    (n : GraphNode) : Graph :=
  (g.addNode n).link src n.id kind

def attachAll
    (g : Graph)
    (src kind : Str)
    (nodes : List GraphNode) : Graph :=
  nodes.foldl (attach src kind) g

end Graph

/- The rows of the three queries.  The lists stand for the JSON
columns as `_loads` reads them. -/
structure ActorRow where
  name : Str
  threatLevel : Option Str
  iocCount : Option Int
  malware : List Str
  ttps : List Str
  sectors : List Str
  sophistication : Int

structure ReportRow where
  id : Str
  externalId : Option Str
  title : Option Str
  tlp : Option Str
  actors : List Str
  malwareFamilies : List Str
  attackIds : List Str
  updatedAt : Str

structure GraphIocRow where
  value : Str
  type : Str
  actor : Str
  severity : Str
  reportId : Option Str

structure GraphStore where
  actors : List ActorRow
  reports : List ReportRow
  iocs : List GraphIocRow

def malwareNode (m : Str) : GraphNode :=
  graphNode (lit "malware") m m 9 none none

def techniqueNode (t : Str) : GraphNode :=
  graphNode (lit "technique") t t 8 none none

def sectorNode (s : Str) : GraphNode :=
  graphNode (lit "sector") s s 8 none none

def actorNode (a : ActorRow) : GraphNode :=
  graphNode (lit "actor") a.name a.name
    (min 34 (12 + a.iocCount.getD 0 / 20)) a.threatLevel none

def namedActor (name : Str) : GraphNode :=
  graphNode (lit "actor") name name 14 (some (lit "medium")) none

def reportNode (r : ReportRow) : GraphNode :=
  graphNode (lit "report") r.id
    ((orStr r.title (lit "Intel report")).take 60) 10 r.tlp none

def iocNode (i : GraphIocRow) : GraphNode :=
  graphNode (lit "ioc") i.value i.value 6 (some i.severity)
    (some i.type)

def addActor (g : Graph) (a : ActorRow) : Graph :=
  let aid := (actorNode a).id
  (((g.addNode (actorNode a)).attachAll aid (lit "uses")
      (a.malware.map malwareNode)).attachAll aid (lit "employs")
      (a.ttps.map techniqueNode)).attachAll aid (lit "targets")
      (a.sectors.map sectorNode)

def addReport (g : Graph) (r : ReportRow) : Graph :=
  let rid := (reportNode r).id
  (((g.addNode (reportNode r)).attachAll rid (lit "attributed to")
      (r.actors.map namedActor)).attachAll rid (lit "documents")
      (r.malwareFamilies.map malwareNode)).attachAll rid
      (lit "documents") (r.attackIds.map techniqueNode)

def reportNodes (reports : List ReportRow) : List (Str × Str) :=
  dictOf (reports.map fun r => (r.id, (reportNode r).id))

def linkIf
    (src : Option Str)
    (dst kind : Str)
    (g : Graph) : Graph :=
  match src with
  | some src => g.link src dst kind
  | none => g

/- An indicator is linked to its actor and its report. -/
def addIoc
    (known : List (Str × Str))
    (g : Graph)
    (i : GraphIocRow) : Graph :=
  let aid := if i.actor = [] then none
    else some (namedActor i.actor).id
  let aid := aid.filter g.has
  let rid := (i.reportId.filter (· ≠ [])).bind (lookup · known)
  if aid.isSome ∨ rid.isSome then
    linkIf rid (iocNode i).id (lit "reported")
      (linkIf aid (iocNode i).id (lit "indicates")
        (g.addNode (iocNode i)))
  else g

def severityRank (s : Str) : Nat :=
  if s = lit "critical" then 4
  else if s = lit "high" then 3
  else if s = lit "medium" then 2
  else 1

/- `ORDER BY key DESC LIMIT limit`. -/
def topRows
    {α κ : Type}
    [LE κ]
    [DecidableRel (α := κ) (· ≤ ·)]
    (key : α → κ)
    (limit : Nat)
    (rows : List α) : List α :=
  (rows.mergeSort fun a b => decide (key b ≤ key a)).take limit

def fullGraph
    (db : GraphStore)
    (actorLimit iocLimit : Nat) : Graph :=
  let actors := topRows ActorRow.sophistication actorLimit db.actors
  let reports := topRows ReportRow.updatedAt actorLimit
    (db.reports.filter fun r => r.externalId.isSome)
  let iocs := topRows (fun i => severityRank i.severity) iocLimit
    (db.iocs.filter fun i => i.actor ≠ [] ∨ i.reportId.isSome)
  iocs.foldl (addIoc (reportNodes reports))
    (reports.foldl addReport (actors.foldl addActor ⟨[], []⟩))

/- The graph of the two lookups. -/
def pivotGraph (db : GraphStore) : Graph :=
  fullGraph db 200 600

/- Ids are distinct and not empty, and links join nodes of the
graph. -/
structure Graph.Sound (g : Graph) : Prop where
  nodup : g.ids.Nodup
  named : [] ∉ g.ids
  ends : ∀ l ∈ g.links, l.source ∈ g.ids ∧ l.target ∈ g.ids

namespace Graph

@[simp]
theorem mem_ids_addNode
    (g : Graph) (n : GraphNode) (id : Str) :
    id ∈ (g.addNode n).ids ↔ id ∈ g.ids ∨ id = n.id := by
  unfold addNode
  split
  · rename_i hIn
    constructor
    · exact Or.inl
    · rintro (h | rfl)
      · exact h
      · exact has_iff.mp hIn
  · simp [ids]

@[simp]
theorem ids_link (g : Graph) (src dst kind : Str) :
    (g.link src dst kind).ids = g.ids :=
  rfl

/- The second graph is sound and has the nodes of the first. -/
def Extends (g g' : Graph) : Prop :=
  g'.Sound ∧ ∀ id ∈ g.ids, id ∈ g'.ids

theorem Extends.trans
    {a b c : Graph}
    (h : a.Extends b)
    (h' : b.Extends c) : a.Extends c :=
  ⟨h'.1, fun id hId => h'.2 id (h.2 id hId)⟩

theorem Sound.addNode
    {g : Graph}
    (h : g.Sound) (n : GraphNode)
    (hId : n.id ≠ []) : g.Extends (g.addNode n) := by
  refine ⟨⟨?_, ?_, ?_⟩, fun id hIn =>
    (mem_ids_addNode g n id).mpr (Or.inl hIn)⟩
  · unfold Graph.addNode
    split
    · exact h.nodup
    · rename_i hNot
      have hIds : ({ g with nodes := g.nodes ++ [n] } : Graph).ids =
          g.ids ++ [n.id] := by simp [ids]
      rw [hIds]
      exact List.nodup_append.mpr ⟨h.nodup, List.nodup_singleton _,
        by
          intro a hA b hB hEq
          rw [List.mem_singleton.mp hB] at hEq
          exact hNot (has_iff.mpr (hEq ▸ hA))⟩
  · rw [mem_ids_addNode]
    rintro (hIn | hEq)
    · exact h.named hIn
    · exact hId hEq.symm
  · intro l hL
    have hOld : l ∈ g.links := by
      unfold Graph.addNode at hL
      split at hL <;> exact hL
    obtain ⟨hSrc, hDst⟩ := h.ends l hOld
    simp [hSrc, hDst]

theorem Sound.link
    {g : Graph}
    (h : g.Sound) {src dst : Str} (kind : Str) (hSrc : src ∈ g.ids)
    (hDst : dst ∈ g.ids) : g.Extends (g.link src dst kind) := by
  refine ⟨⟨h.nodup, h.named, ?_⟩, fun _ => id⟩
  intro l hL
  rcases List.mem_append.mp hL with hL | hL
  · exact h.ends l hL
  · rw [List.mem_singleton.mp hL]
    exact ⟨hSrc, hDst⟩

theorem Sound.attachAll
    {g : Graph}
    (h : g.Sound) {src : Str} (kind : Str) (nodes : List GraphNode)
    (hSrc : src ∈ g.ids) (hNodes : ∀ n ∈ nodes, n.id ≠ []) :
    g.Extends (g.attachAll src kind nodes) := by
  induction nodes generalizing g with
  | nil => exact ⟨h, fun _ => id⟩
  | cons n nodes ih =>
      have hAdd := h.addNode n (hNodes n List.mem_cons_self)
      have hLink := hAdd.1.link kind (hAdd.2 src hSrc)
        ((mem_ids_addNode g n n.id).mpr (Or.inr rfl))
      have hStep := hAdd.trans hLink
      exact hStep.trans (ih hStep.1 (hStep.2 src hSrc)
        fun m hM => hNodes m (List.mem_cons_of_mem _ hM))

/- A node, and what three loops attach to it. -/
theorem Sound.star
    {g : Graph}
    (h : g.Sound) (n : GraphNode) (k₁ k₂ k₃ : Str)
    (l₁ l₂ l₃ : List GraphNode) (hId : n.id ≠ [])
    (hNodes : ∀ m ∈ l₁ ++ l₂ ++ l₃, m.id ≠ []) :
    g.Extends ((((g.addNode n).attachAll n.id k₁ l₁).attachAll
        n.id k₂ l₂).attachAll n.id k₃ l₃) ∧
      n.id ∈ ((((g.addNode n).attachAll n.id k₁ l₁).attachAll
        n.id k₂ l₂).attachAll n.id k₃ l₃).ids := by
  have hAdd := h.addNode n hId
  have hIn : n.id ∈ (g.addNode n).ids :=
    (mem_ids_addNode g n n.id).mpr (Or.inr rfl)
  have h₁ := hAdd.1.attachAll k₁ l₁ hIn
    fun m hM => hNodes m (by simp [hM])
  have h₂ := h₁.1.attachAll k₂ l₂ (h₁.2 _ hIn)
    fun m hM => hNodes m (by simp [hM])
  have h₃ := h₂.1.attachAll k₃ l₃ (h₂.2 _ (h₁.2 _ hIn))
    fun m hM => hNodes m (by simp [hM])
  exact ⟨hAdd.trans (h₁.trans (h₂.trans h₃)),
    h₃.2 _ (h₂.2 _ (h₁.2 _ hIn))⟩

end Graph

theorem graphNode_id_ne_nil
    {group name label : Str} {size : Int}
    {level iocType : Option Str} :
    (graphNode group name label size level iocType).id ≠ [] := by
  simp [graphNode]

theorem addActor_extends
    {g : Graph}
    (h : g.Sound)
    (a : ActorRow) : g.Extends (addActor g a) := by
  refine (h.star (actorNode a) _ _ _ _ _ _
    graphNode_id_ne_nil fun m hM => ?_).1
  simp only [List.mem_append, List.mem_map] at hM
  rcases hM with (⟨_, _, rfl⟩ | ⟨_, _, rfl⟩) | ⟨_, _, rfl⟩ <;>
    exact graphNode_id_ne_nil

theorem addReport_extends
    {g : Graph}
    (h : g.Sound) (r : ReportRow) :
    g.Extends (addReport g r) ∧
      (reportNode r).id ∈ (addReport g r).ids := by
  refine h.star (reportNode r) _ _ _ _ _ _
    graphNode_id_ne_nil fun m hM => ?_
  simp only [List.mem_append, List.mem_map] at hM
  rcases hM with (⟨_, _, rfl⟩ | ⟨_, _, rfl⟩) | ⟨_, _, rfl⟩ <;>
    exact graphNode_id_ne_nil

theorem linkIf_extends
    {g : Graph}
    (h : g.Sound) {src : Option Str} {dst : Str} (kind : Str)
    (hSrc : ∀ id ∈ src, id ∈ g.ids)
    (hDst : dst ∈ g.ids) : g.Extends (linkIf src dst kind g) := by
  cases src with
  | none => exact ⟨h, fun _ => id⟩
  | some src => exact h.link kind (hSrc src rfl) hDst

theorem addIoc_extends
    {known : List (Str × Str)} {g : Graph}
    (h : g.Sound) (hKnown : ∀ e ∈ known, e.2 ∈ g.ids)
    (i : GraphIocRow) : g.Extends (addIoc known g i) := by
  unfold addIoc
  generalize (if i.actor = [] then none
    else some (namedActor i.actor).id) = aid
  simp only
  split
  · have hAdd :=
      h.addNode (iocNode i) graphNode_id_ne_nil
    have hIoc : (iocNode i).id ∈ (g.addNode (iocNode i)).ids :=
      (Graph.mem_ids_addNode _ _ _).mpr (Or.inr rfl)
    have hAid : ∀ id ∈ aid.filter g.has,
        id ∈ (g.addNode (iocNode i)).ids := fun id hId =>
      hAdd.2 id (Graph.has_iff.mp (Option.mem_filter_iff.mp hId).2)
    have hRid : ∀ id ∈
        (i.reportId.filter (· ≠ [])).bind (lookup · known),
          id ∈ g.ids := by
      intro id hId
      obtain ⟨key, _, hLookup⟩ := Option.bind_eq_some_iff.mp hId
      exact hKnown _ (mem_of_lookup hLookup)
    have hActor :=
      linkIf_extends hAdd.1 (lit "indicates") hAid hIoc
    have hReport := linkIf_extends hActor.1 (lit "reported")
      (fun id hId => hActor.2 id (hAdd.2 id (hRid id hId)))
      (hActor.2 _ hIoc)
    exact hAdd.trans (hActor.trans hReport)
  · exact ⟨h, fun _ => id⟩

/- Rows added one by one keep a graph sound. -/
theorem foldl_extends
    {α : Type}
    (add : Graph → α → Graph) (kept : Graph → Prop)
    (hKept : ∀ g g', g.Extends g' → kept g → kept g')
    (hAdd : ∀ g : Graph, g.Sound → kept g → ∀ row,
      g.Extends (add g row))
    (rows : List α)
    {g : Graph}
    (h : g.Sound)
    (hStart : kept g) : g.Extends (rows.foldl add g) := by
  induction rows generalizing g with
  | nil => exact ⟨h, fun _ => id⟩
  | cons row rows ih =>
      have hStep := hAdd g h hStart row
      exact hStep.trans (ih hStep.1 (hKept _ _ hStep hStart))

theorem mem_reports_fold
    (reports : List ReportRow) {g : Graph} (h : g.Sound) :
    ∀ r ∈ reports, (reportNode r).id ∈
      (reports.foldl addReport g).ids := by
  induction reports generalizing g with
  | nil => simp
  | cons r reports ih =>
      obtain ⟨hStep, hIn⟩ := addReport_extends h r
      have hRest := foldl_extends addReport (fun _ => True)
        (fun _ _ _ => id) (fun g hG _ r => (addReport_extends hG r).1)
        reports hStep.1 trivial
      intro q hQ
      rcases List.mem_cons.mp hQ with rfl | hQ
      · exact hRest.2 _ hIn
      · exact ih hStep.1 q hQ

theorem fullGraph_sound
    (db : GraphStore) (actorLimit iocLimit : Nat) :
    (fullGraph db actorLimit iocLimit).Sound := by
  have hEmpty : (⟨[], []⟩ : Graph).Sound :=
    ⟨List.nodup_nil, List.not_mem_nil, by simp⟩
  have hActors := (foldl_extends addActor (fun _ => True)
    (fun _ _ _ => id) (fun _ hG _ a => addActor_extends hG a)
    (topRows ActorRow.sophistication actorLimit db.actors) hEmpty
    trivial).1
  let reports := topRows ReportRow.updatedAt actorLimit
    (db.reports.filter fun r => r.externalId.isSome)
  have hReports := (foldl_extends addReport (fun _ => True)
    (fun _ _ _ => id) (fun _ hG _ r => (addReport_extends hG r).1)
    reports hActors trivial).1
  have hKnown := mem_reports_fold reports hActors
  refine (foldl_extends (addIoc (reportNodes reports))
    (fun g => ∀ e ∈ reportNodes reports, e.2 ∈ g.ids)
    (fun _ _ hExt hIn e hE => hExt.2 _ (hIn e hE))
    (fun _ hG hIn i => addIoc_extends hG hIn i) _ hReports ?_).1
  intro e hE
  have hEntry : e ∈ reports.map
      fun r => (r.id, (reportNode r).id) :=
    mem_of_mem_dictOf hE
  obtain ⟨r, hR, rfl⟩ := List.mem_map.mp hEntry
  exact hKnown r hR

---- Adjacency

/- `adj.setdefault(a, set()).add(b)`, for both ends. -/
def joinEnds
    (adj : Str → Finset Str)
    (l : GraphLink) : Str → Finset Str :=
  let adj := Function.update adj l.source
    (insert l.target (adj l.source))
  Function.update adj l.target (insert l.source (adj l.target))

/- The map of the ends, where an absent key has the empty set. -/
def adjacency (links : List GraphLink) : Str → Finset Str :=
  links.foldl joinEnds fun _ => ∅

/- A link joins two nodes in either direction. -/
def GraphLink.Joins (l : GraphLink) (a b : Str) : Prop :=
  (l.source = a ∧ l.target = b) ∨ (l.source = b ∧ l.target = a)

def Joined (links : List GraphLink) (a b : Str) : Prop :=
  ∃ l ∈ links, l.Joins a b

theorem mem_adjacency_iff
    (links : List GraphLink) (a b : Str) :
    b ∈ adjacency links a ↔ Joined links a b := by
  have hFold : ∀ adj : Str → Finset Str,
      b ∈ links.foldl joinEnds adj a ↔
        b ∈ adj a ∨ Joined links a b := by
    induction links with
    | nil => simp [Joined]
    | cons l links ih =>
        intro adj
        have hOne : b ∈ joinEnds adj l a ↔
            b ∈ adj a ∨ l.Joins a b := by
          simp only [joinEnds, GraphLink.Joins,
            Function.update_apply]
          grind
        rw [List.foldl_cons, ih, hOne, or_assoc]
        simp [Joined]
  simpa [adjacency] using hFold fun _ => ∅

theorem Joined.mem_ids
    {g : Graph}
    (h : g.Sound) {a b : Str}
    (hJoined : Joined g.links a b) : b ∈ g.ids := by
  obtain ⟨l, hL, ⟨_, rfl⟩ | ⟨rfl, _⟩⟩ := hJoined
  · exact (h.ends l hL).2
  · exact (h.ends l hL).1

---- The Pivots

/- The order in which the set of a node's neighbours is gone
through. -/
structure SetOrder where
  order : Str → Finset Str → List Str
  perm : ∀ a s, (order a s : Multiset Str) = s.val

def sortedOrder : SetOrder where
  order _ s := s.sort (· ≤ ·)
  perm _ s := s.sort_eq (· ≤ ·)

structure PathAnswer where
  found : Bool
  reason : Option Str
  path : List GraphNode
  links : List GraphLink
  hops : Option Nat
deriving DecidableEq, Repr

/- The map from both directions of the links to their kinds, the
entry made last in front. -/
def linkKinds (links : List GraphLink) : List ((Str × Str) × Str) :=
  (links.map (fun l => ((l.source, l.target), l.kind)) ++
    links.map (fun l => ((l.target, l.source), l.kind))).reverse

/- A node of the chain that the graph lacks is an error. -/
def shortestPath
    (sets : SetOrder)
    (db : GraphStore)
    (src dst : Str) : Option PathAnswer :=
  let g := pivotGraph db
  if !g.has src || !g.has dst then
    some ⟨false, some (lit "unknown node"), [], [], none⟩
  else if src = dst then
    (g.node? src).map fun n => ⟨true, none, [n], [], none⟩
  else
    let adj := adjacency g.links
    let search := Search.run (fun a => sets.order a (adj a)) dst
      (g.nodes.length + 1) ⟨[(src, [])], [src]⟩
    if !search.found.contains dst then
      some ⟨false, some (lit "no path"), [], [], none⟩
    else
      let chain :=
        (traceBack search.prev [] search.prev.length dst).reverse
      let kind := fun e =>
        ((linkKinds g.links).lookup e).getD (lit "linked")
      (chain.mapM g.node?).map fun path =>
        ⟨true, none, path,
          (chain.zip chain.tail).map fun e => ⟨e.1, e.2, kind e⟩,
          some (chain.length - 1)⟩

/- The other end of a link at a node. -/
def otherEnd (id : Str) (l : GraphLink) : Option Str :=
  if l.source = id then some l.target
  else if l.target = id then some l.source
  else none

/- The neighbours, each with the kind of its link. -/
def neighbours
    (db : GraphStore)
    (id : Str) : Option GraphNode × List (GraphNode × Str) :=
  let g := pivotGraph db
  if !g.has id then (none, [])
  else (g.node? id, g.links.filterMap fun l =>
    ((otherEnd id l).filter (· ≠ [])).bind fun other =>
      (g.node? other).map (·, l.kind))

structure GraphView where
  nodes : List GraphNode
  links : List GraphLink
  focus : Option Str
  counts : List (Str × Nat)

def build
    (db : GraphStore)
    (focus : Option Str)
    (depth : Int)
    (actorLimit iocLimit : Nat) : GraphView :=
  let g := fullGraph db actorLimit iocLimit
  let g : Graph :=
    match focus.filter fun id => id != [] && g.has id with
    | some id =>
        let keep := widen (adjacency g.links) (max 1 depth).toNat id
        ⟨g.nodes.filter fun n => n.id ∈ keep,
          g.links.filter fun l => l.source ∈ keep ∧ l.target ∈ keep⟩
    | none => g
  ⟨g.nodes, g.links, focus, tally (g.nodes.map GraphNode.group)⟩

/- A path between two nodes that no other undercuts, and the
links along it, each with the kind of a link it stands for. -/
structure Shortest
    (links : List GraphLink)
    (src dst : Str)
    (path : List Str)
    (along : List GraphLink) : Prop where
  starts : path.head? = some src
  ends : path.getLast? = some dst
  joined : path.IsChain (Joined links)
  least : ∀ n, Steps (Joined links) src n dst → path.length ≤ n + 1
  pairs : along.map (fun l => (l.source, l.target)) =
    path.zip path.tail
  kinds : ∀ l ∈ along,
    ∃ l' ∈ links, l'.Joins l.source l.target ∧ l'.kind = l.kind

/- An answer tells whether two nodes are connected, and how. -/
def Answers
    (links : List GraphLink)
    (src dst : Str)
    (answer : PathAnswer) : Prop :=
  (answer.found = true ↔ ∃ n, Steps (Joined links) src n dst) ∧
  (answer.found = true → Shortest links src dst
    (answer.path.map GraphNode.id) answer.links)

theorem Graph.node?_of_mem
    {g : Graph} {id : Str}
    (hIn : id ∈ g.ids) :
    ∃ n ∈ g.nodes, g.node? id = some n ∧ n.id = id := by
  obtain ⟨n, hN, hId⟩ := List.mem_map.mp hIn
  cases hFind : g.node? id with
  | none =>
      have hNone := List.find?_eq_none.mp hFind n hN
      exact absurd hId (by simpa using hNone)
  | some m =>
      refine ⟨m, List.mem_of_find?_eq_some hFind, rfl, ?_⟩
      simpa using List.find?_some hFind

/- Each node of a list of ids is found under its id. -/
theorem Graph.mapM_node?
    {g : Graph}
    (ids : List Str) (hIn : ∀ id ∈ ids, id ∈ g.ids) :
    ∃ path, ids.mapM g.node? = some path ∧
      path.map GraphNode.id = ids := by
  induction ids with
  | nil => exact ⟨[], rfl, rfl⟩
  | cons id ids ih =>
      obtain ⟨n, _, hNode, hId⟩ :=
        Graph.node?_of_mem (hIn id List.mem_cons_self)
      obtain ⟨path, hPath, hIds⟩ :=
        ih fun x hX => hIn x (List.mem_cons_of_mem _ hX)
      exact ⟨n :: path, by simp [hNode, hPath], by simp [hId, hIds]⟩

theorem lookup_linkKinds
    {links : List GraphLink} {a b : Str}
    (hJoined : Joined links a b) :
    ∃ l ∈ links, l.Joins a b ∧
      (linkKinds links).lookup (a, b) = some l.kind := by
  cases hGet : (linkKinds links).lookup (a, b) with
  | none =>
      have hNone := List.lookup_eq_none_iff.mp hGet
      obtain ⟨l, hL, ⟨rfl, rfl⟩ | ⟨rfl, rfl⟩⟩ := hJoined
      · refine absurd
          (hNone ((l.source, l.target), l.kind) ?_) (by simp)
        exact List.mem_reverse.mpr (List.mem_append_left _
          (List.mem_map_of_mem hL))
      · refine absurd
          (hNone ((l.target, l.source), l.kind) ?_) (by simp)
        exact List.mem_reverse.mpr (List.mem_append_right _
          (List.mem_map_of_mem hL))
  | some kind =>
      obtain ⟨l₁, l₂, hEq, _⟩ := List.lookup_eq_some_iff.mp hGet
      have hEntry : ((a, b), kind) ∈ linkKinds links := by
        rw [hEq]
        exact List.mem_append_right _ List.mem_cons_self
      rcases List.mem_append.mp (List.mem_reverse.mp hEntry) with
        hEntry | hEntry
      · obtain ⟨l, hL, hSame⟩ := List.mem_map.mp hEntry
        cases hSame
        exact ⟨l, hL, Or.inl ⟨rfl, rfl⟩, rfl⟩
      · obtain ⟨l, hL, hSame⟩ := List.mem_map.mp hEntry
        cases hSame
        exact ⟨l, hL, Or.inr ⟨rfl, rfl⟩, rfl⟩

/- Consecutive elements of a chain are related. -/
theorem rel_of_mem_zip_tail
    {α : Type} {r : α → α → Prop} {l : List α}
    (h : l.IsChain r) {e : α × α}
    (hE : e ∈ l.zip l.tail) : r e.1 e.2 := by
  induction h with
  | nil => simp at hE
  | singleton a => simp at hE
  | cons_cons hRel _ ih =>
      rcases List.mem_cons.mp hE with rfl | hE
      · exact hRel
      · exact ih hE

/- A chain is a way from its head to its last element. -/
theorem steps_of_chain
    {r : Str → Str → Prop} {a b : Str} {before : List Str}
    (hHead : (before ++ [b]).head? = some a)
    (hChain : (before ++ [b]).IsChain r) :
    ∃ n, Steps r a n b := by
  induction before using List.reverseRecOn generalizing b with
  | nil =>
      obtain rfl : b = a := by simpa using hHead
      exact ⟨0, Steps.here⟩
  | append_singleton before c ih =>
      obtain ⟨hBefore, _, hLast⟩ := List.isChain_append.mp hChain
      have hFirst : (before ++ [c]).head? = some a := by
        simpa using hHead
      obtain ⟨n, hSteps⟩ := ih hFirst hBefore
      exact ⟨n + 1, hSteps.step (hLast c (by simp) b (by simp))⟩

theorem SetOrder.mem_iff
    (sets : SetOrder) (links : List GraphLink) (a b : Str) :
    b ∈ sets.order a (adjacency links a) ↔ Joined links a b := by
  rw [← mem_adjacency_iff, ← Multiset.mem_coe, sets.perm,
    Finset.mem_val]

/- What the search finds between two different nodes. -/
theorem search_spec
    (sets : SetOrder) {g : Graph} (h : g.Sound) {src : Str}
    (dst : Str) (hSrc : src ∈ g.ids) :
    ∃ level, ∀ search,
      search = Search.run
        (fun a => sets.order a (adjacency g.links a)) dst
        (g.nodes.length + 1) ⟨[(src, [])], [src]⟩ →
      search.Traced
          (fun a => sets.order a (adjacency g.links a)) src []
          level ∧
        (∀ v ∈ search.found, v ∈ g.ids) ∧
        ∀ n, Steps (Joined g.links) src n dst →
          dst ∈ search.found ∧ level dst ≤ n := by
  have hRel : (fun a b =>
      b ∈ sets.order a (adjacency g.links a)) = Joined g.links := by
    funext a b
    exact propext (sets.mem_iff g.links a b)
  have hCard : g.ids.toFinset.card ≤ g.nodes.length :=
    (List.toFinset_card_le _).trans (List.length_map _).le
  have hStart : Search.Levelled
      (fun a => sets.order a (adjacency g.links a)) src []
      (fun _ => 0) ⟨[(src, [])], [src]⟩ :=
    Search.levelled_start
  have hNext : ∀ v ∈ g.ids.toFinset,
      ∀ w ∈ sets.order v (adjacency g.links v),
        w ∈ g.ids.toFinset := fun v _ w hW =>
    List.mem_toFinset.mpr
      (((sets.mem_iff g.links v w).mp hW).mem_ids h)
  obtain ⟨level, hTraced, hIn, hLeast⟩ :=
    Search.run_spec g.ids.toFinset hNext (g.nodes.length + 1) _ hStart
      (by simpa [Search.found] using hSrc) (by
        simp only [List.length_singleton]
        omega)
  rw [hRel] at hLeast
  refine ⟨level, ?_⟩
  rintro search rfl
  exact ⟨hTraced, fun v hV => List.mem_toFinset.mp (hIn v hV),
    hLeast⟩

theorem shortestPath_spec
    (sets : SetOrder) (db : GraphStore) {src dst : Str}
    (hSrc : src ∈ (pivotGraph db).ids)
    (hDst : dst ∈ (pivotGraph db).ids) :
    ∃ answer, shortestPath sets db src dst = some answer ∧
      Answers (pivotGraph db).links src dst answer := by
  have hSound : (pivotGraph db).Sound := fullGraph_sound db 200 600
  unfold shortestPath
  generalize pivotGraph db = g at hSrc hDst hSound ⊢
  have hKnown : ¬ (!g.has src || !g.has dst) = true := by
    simp [hSrc, hDst]
  simp only [if_neg hKnown]
  split
  · rename_i hSame
    subst hSame
    obtain ⟨n, _, hNode, hId⟩ := Graph.node?_of_mem hSrc
    refine ⟨⟨true, none, [n], [], none⟩, by rw [hNode]; rfl, ?_⟩
    refine ⟨iff_of_true rfl ⟨0, Steps.here⟩, fun _ => ?_⟩
    exact {
      starts := by simp [hId]
      ends := by simp [hId]
      joined := by simp
      least := fun n _ => Nat.succ_le_succ (Nat.zero_le n)
      pairs := rfl
      kinds := fun l hL => absurd hL List.not_mem_nil }
  · obtain ⟨level, hSpec⟩ := search_spec sets hSound dst hSrc
    obtain ⟨hTraced, hIn, hLeast⟩ := hSpec _ rfl
    revert hTraced hIn hLeast
    generalize Search.run _ dst _ _ = search
    intro hTraced hIn hLeast
    by_cases hFound : dst ∈ search.found
    · have hStop : [] ∉ search.found :=
        fun hNil => hSound.named (hIn _ hNil)
      have hShort := hTraced.short dst hFound
      obtain ⟨before, hEq, hHead, hChain, hLength, hAll⟩ :=
        traceBack_spec hTraced hStop search.prev.length dst hFound
          hShort
      have hJoined : (before ++ [dst]).IsChain (Joined g.links) :=
        hChain.imp fun a b => (sets.mem_iff g.links a b).mp
      obtain ⟨path, hPath, hIds⟩ := Graph.mapM_node? (before ++ [dst])
        fun x hX => hIn x (hAll x hX)
      refine ⟨_, by
        rw [if_neg (by simpa using hFound), hEq, hPath,
          Option.map_some],
        ?_⟩
      refine ⟨iff_of_true rfl (steps_of_chain hHead hJoined),
        fun _ => ?_⟩
      simp only [hIds]
      exact {
        starts := hHead
        ends := List.getLast?_concat
        joined := hJoined
        least := fun n hSteps => by
          rw [List.length_append, hLength]
          exact Nat.succ_le_succ (hLeast n hSteps).2
        pairs := by
          simp only [List.map_map, Function.comp_def, Prod.mk.eta,
            List.map_id']
        kinds := fun l hL => by
          obtain ⟨e, hE, rfl⟩ := List.mem_map.mp hL
          obtain ⟨l', hL', hJoins, hKind⟩ :=
            lookup_linkKinds (rel_of_mem_zip_tail hJoined hE)
          exact ⟨l', hL', hJoins, by
            simp only [Prod.mk.eta] at hKind
            simp only [hKind, Option.getD_some]⟩ }
    · refine ⟨_, if_pos (by simpa using hFound), ?_⟩
      have hNot : ¬ ∃ n, Steps (Joined g.links) src n dst :=
        fun ⟨n, hSteps⟩ => hFound (hLeast n hSteps).1
      exact ⟨iff_of_false Bool.false_ne_true hNot,
        fun h => absurd h Bool.false_ne_true⟩

theorem otherEnd_eq_some_iff
    (id other : Str) (l : GraphLink) :
    otherEnd id l = some other ↔ l.Joins id other := by
  unfold otherEnd GraphLink.Joins
  grind

theorem mem_neighbours_iff
    (db : GraphStore) {id : Str} (hId : id ∈ (pivotGraph db).ids)
    (other kind : Str) :
    (∃ e ∈ (neighbours db id).2, e.1.id = other ∧ e.2 = kind) ↔
      ∃ l ∈ (pivotGraph db).links,
        l.Joins id other ∧ l.kind = kind := by
  have hSound : (pivotGraph db).Sound := fullGraph_sound db 200 600
  unfold neighbours
  generalize pivotGraph db = g at hId hSound ⊢
  rw [if_neg (by simpa using hId)]
  simp only [List.mem_filterMap, Option.bind_eq_some_iff,
    Option.filter_eq_some_iff, Option.map_eq_some_iff,
    otherEnd_eq_some_iff]
  constructor
  · rintro ⟨_, ⟨l, hL, x, ⟨hJoins, _⟩, n, hNode, rfl⟩, rfl, rfl⟩
    have hX : n.id = x := by simpa using List.find?_some hNode
    exact ⟨l, hL, hX ▸ hJoins, rfl⟩
  · rintro ⟨l, hL, hJoins, rfl⟩
    have hIn := Joined.mem_ids hSound ⟨l, hL, hJoins⟩
    obtain ⟨n, _, hNode, rfl⟩ := Graph.node?_of_mem hIn
    have hNe : n.id ≠ [] := fun hEq => hSound.named (hEq ▸ hIn)
    exact ⟨(n, l.kind), ⟨l, hL, n.id, ⟨hJoins, by simp [hNe]⟩, n,
      hNode, rfl⟩, rfl, rfl⟩

/- At most `max(1, depth)` links away. -/
def Near
    (links : List GraphLink)
    (focus : Str)
    (depth : Int)
    (id : Str) : Prop :=
  ∃ n : Nat, (n : Int) ≤ max 1 depth ∧
    Steps (Joined links) focus n id

/- A view keeps what is near the focus. -/
def Keeps
    (g : Graph)
    (focus : Str)
    (depth : Int)
    (view : GraphView) : Prop :=
  (∀ n, n ∈ view.nodes ↔
    n ∈ g.nodes ∧ Near g.links focus depth n.id) ∧
  (∀ l, l ∈ view.links ↔
    l ∈ g.links ∧ Near g.links focus depth l.source ∧
      Near g.links focus depth l.target)

theorem build_spec
    (db : GraphStore) {focus : Str} (depth : Int)
    (actorLimit iocLimit : Nat)
    (hFocus : focus ∈ (fullGraph db actorLimit iocLimit).ids) :
    Keeps (fullGraph db actorLimit iocLimit) focus depth
      (build db (some focus) depth actorLimit iocLimit) := by
  have hSound := fullGraph_sound db actorLimit iocLimit
  unfold build Keeps
  generalize fullGraph db actorLimit iocLimit = g at hFocus hSound ⊢
  have hRel : (fun a b => b ∈ adjacency g.links a) =
      Joined g.links := by
    funext a b
    exact propext (mem_adjacency_iff g.links a b)
  have hKeep : ∀ id,
      id ∈ widen (adjacency g.links) (max 1 depth).toNat focus ↔
        Near g.links focus depth id := by
    intro id
    rw [mem_widen_iff, hRel]
    refine exists_congr fun n => and_congr_left fun _ => ?_
    omega
  have hGiven : (some focus).filter
      (fun id => id != [] && g.has id) = some focus := by
    have hNe : focus ≠ [] := fun hEq => hSound.named (hEq ▸ hFocus)
    simp [hNe, hFocus]
  simp only [hGiven, List.mem_filter, decide_eq_true_eq, hKeep,
    implies_true, and_self]

/- The three pivots agree on the links: paths are shortest,
neighbours are the nodes at the other end of a link, and a
focus keeps the nodes near it with all links between them. -/
theorem pivots_exact
    (sets : SetOrder)
    (db : GraphStore) :
    (∀ src dst, src ∈ (pivotGraph db).ids →
      dst ∈ (pivotGraph db).ids →
        ∃ answer, shortestPath sets db src dst = some answer ∧
          Answers (pivotGraph db).links src dst answer) ∧
    (∀ id other kind, id ∈ (pivotGraph db).ids →
      ((∃ e ∈ (neighbours db id).2, e.1.id = other ∧ e.2 = kind) ↔
        ∃ l ∈ (pivotGraph db).links,
          l.Joins id other ∧ l.kind = kind)) ∧
    (∀ focus depth actorLimit iocLimit,
      focus ∈ (fullGraph db actorLimit iocLimit).ids →
        Keeps (fullGraph db actorLimit iocLimit) focus depth
          (build db (some focus) depth actorLimit iocLimit)) :=
  ⟨fun _ _ => shortestPath_spec sets db,
    fun _ other kind hId => mem_neighbours_iff db hId other kind,
    fun _ depth actorLimit iocLimit =>
      build_spec db depth actorLimit iocLimit⟩

end ThreatOrbit.Cti
