import ThreatOrbit.Lib.Firsts
import ThreatOrbit.Auth.Accounts
import ThreatOrbit.Intel.Misp
import ThreatOrbit.Connectors.Import

/-
  Imports of indicators by a user: a list of values, and the
  attributes of a MISP event.

  Both leave out the values that are there already. The list
  asks for those of the workspace of the user, the event for
  those of all.
-/

---- The Requests

namespace ThreatOrbit.Cti

open Lib

open Auth (HttpError)

open Connectors (IocRow ImportTools iocTypes)

open Intel (MispEvent MispItem parseMispEvent tlpLevels)

section

/- `_IMPORT_PROBE_CHUNK`. -/
def importProbeChunk : Nat := 800

/- What `ioc_row` is passed by an import. -/
structure NewIoc where
  type : Str
  value : Str
  threatType : Str
  confidence : Int
  severity : Str
  source : Str
  actor : Str
  tags : List Str
  orgId : Str
deriving DecidableEq

/- `ioc_row`, up to the id. -/
def NewIoc.row
    (t : ImportTools)
    (now : Str)
    (n : NewIoc) : IocRow where
  type := n.type
  value := n.value
  threatType := n.threatType
  confidence := n.confidence
  severity := n.severity
  source := n.source
  actor := n.actor
  malwareFamily := none
  firstSeen := now
  lastSeen := now
  tags := n.tags
  status := lit "active"
  sightings := 1
  reportId := none
  orgId := n.orgId
  host := t.hostOf n.value n.type
  ipHex := t.ipHexOf n.value n.type
  regDomain := t.regDomainOf n.value n.type
  intelScore :=
    t.initialScore n.type n.confidence now none n.actor []
  importedAt := now

structure IocImportItem where
  type : Str
  value : Str

structure IocImport where
  indicators : List IocImportItem
  confidence : Int
  severity : Str
  source : Str
  actor : Str
  threatType : Str
  tags : List Str

/- What an import answers. -/
structure ImportTally where
  imported : Nat
  duplicates : Nat
  skipped : Nat
  total : Nat
  tlp : Option Str
deriving DecidableEq

/- The rows that `scope_sql` leaves. -/
def inScope (enforced : Bool) (org : Str) (r : IocRow) : Bool :=
  !enforced || r.orgId == org

variable [Unicode]

/- What the loop of `import_iocs` makes of an indicator:
`none` where it is skipped. -/
def IocImport.read
    (body : IocImport)
    (org : Str)
    (item : IocImportItem) : Option NewIoc :=
  let val := strip item.value
  let itype := Unicode.lower (strip item.type)
  if val = [] ∨ !iocTypes.contains itype then none
  else
    some
      { type := itype
        value := val
        threatType := body.threatType
        confidence := max 0 (min 100 body.confidence)
        severity := body.severity
        source := body.source
        actor := body.actor
        tags := body.tags
        orgId := org }

/- The values that the probes of the store return. -/
def probeValues
    (enforced : Bool)
    (org : Str)
    (iocs : List IocRow)
    (vals : List Str) : List Str :=
  (chunks importProbeChunk vals).flatMap fun part =>
    (iocs.filter fun r =>
      part.contains r.value && inScope enforced org r).map
        IocRow.value

def importIocs
    (t : ImportTools)
    (enforced : Bool)
    (now org : Str)
    (body : IocImport)
    (iocs : List IocRow) :
    Except HttpError (ImportTally × List IocRow) :=
  if body.indicators.isEmpty then
    .error ⟨400, lit "No indicators supplied"⟩
  else
    let readable := body.indicators.filterMap (body.read org)
    let candidates := firstsBy NewIoc.value [] readable
    let existing := probeValues enforced org iocs
      (candidates.map NewIoc.value)
    let new := candidates.filter fun n =>
      !existing.contains n.value
    .ok
      ({ imported := new.length
         duplicates :=
           (readable.length - candidates.length) +
             (candidates.length - new.length)
         skipped := body.indicators.length - readable.length
         total := body.indicators.length
         tlp := none },
        iocs ++ new.map (NewIoc.row t now))

def mispTlp (event : MispEvent) : Str :=
  ((event.tag.map fun tag =>
      let name := Unicode.lower tag
      if (lit "tlp:").isPrefixOf name then name.drop 4
      else []).find? tlpLevels.contains).getD (lit "amber")

/- What the loop of `import_misp` makes of an attribute:
`none` where it is skipped. -/
def readMispItem
    (tlp org : Str) : MispItem → Option NewIoc
| .skipped _ _ => none
| .imported type value comment toIds =>
    if iocTypes.contains type then
      some
        { type := type
          value := strip value
          threatType := orStr (some comment) (lit "misp-import")
          confidence := if toIds then 70 else 50
          severity := if toIds then lit "high" else lit "medium"
          source := lit "MISP import"
          actor := []
          tags := [lit "tlp:" ++ tlp, lit "misp"]
          orgId := org }
    else none

/- The loop of `import_misp`, which asks the store for each
value and inserts as it goes. -/
def importMispItems
    (t : ImportTools)
    (now org tlp : Str) :
    List IocRow → List MispItem → List IocRow × ImportTally
| iocs, [] => (iocs, ⟨0, 0, 0, 0, some tlp⟩)
| iocs, item :: rest =>
    match readMispItem tlp org item with
    | none =>
        let r := importMispItems t now org tlp iocs rest
        (r.1, { r.2 with
          skipped := r.2.skipped + 1
          total := r.2.total + 1 })
    | some n =>
        if iocs.any fun r => r.value == n.value then
          let r := importMispItems t now org tlp iocs rest
          (r.1, { r.2 with
            duplicates := r.2.duplicates + 1
            total := r.2.total + 1 })
        else
          let r := importMispItems t now org tlp
            (iocs ++ [n.row t now]) rest
          (r.1, { r.2 with
            imported := r.2.imported + 1
            total := r.2.total + 1 })

def importMisp
    (t : ImportTools)
    (now org : Str)
    (event : MispEvent)
    (iocs : List IocRow) :
    Except HttpError (ImportTally × List IocRow) :=
  let parsed := (parseMispEvent event).1
  if parsed.isEmpty then
    .error
      ⟨400, lit "No importable attributes in the MISP event"⟩
  else
    let r := importMispItems t now org (mispTlp event) iocs parsed
    .ok (r.2, r.1)

end

---- Two Stores

open Connectors (IocRow ImportTools)
open Intel (MispEvent MispItem parseMispEvent)

section

/- The rows of a workspace. -/
def rowsOf (org : Str) (iocs : List IocRow) : List IocRow :=
  iocs.filter fun r => r.orgId == org

/- The rows of the other workspaces. -/
def rowsBeside (org : Str) (iocs : List IocRow) : List IocRow :=
  iocs.filter fun r => !(r.orgId == org)

/- Whether a store has a value. -/
def Held (iocs : List IocRow) (value : Str) : Prop :=
  value ∈ iocs.map IocRow.value

/- The rows that an import leaves: those it was given where it
fails. -/
def leftBy
    (iocs : List IocRow)
    (r : Except HttpError (ImportTally × List IocRow)) :
    List IocRow :=
  match r with
  | .error _ => iocs
  | .ok r => r.2

/- The answer of an import. -/
def answerOf
    (r : Except HttpError (ImportTally × List IocRow)) :
    Except HttpError ImportTally :=
  r.map Prod.fst

inductive ImportRequest where
  | list (body : IocImport)
  | misp (event : MispEvent)

variable [Unicode]

def ImportRequest.run
    (t : ImportTools)
    (enforced : Bool)
    (now org : Str)
    (iocs : List IocRow) :
    ImportRequest → Except HttpError (ImportTally × List IocRow)
| .list body => importIocs t enforced now org body iocs
| .misp event => importMisp t now org event iocs

/- An import in a workspace answers two stores alike, leaves
the same rows of the workspace in both, and no other row
changed. -/
structure ImportRequest.Blind
    (t : ImportTools)
    (now org : Str)
    (first second : List IocRow)
    (request : ImportRequest) : Prop where
  answer :
    answerOf (request.run t true now org first) =
      answerOf (request.run t true now org second)
  own :
    rowsOf org (leftBy first (request.run t true now org first)) =
      rowsOf org
        (leftBy second (request.run t true now org second))
  beside :
    ∀ iocs ∈ [first, second],
      rowsBeside org
          (leftBy iocs (request.run t true now org iocs)) =
        rowsBeside org iocs

/- What an event would import. -/
def mispNew (org : Str) (event : MispEvent) : List NewIoc :=
  (parseMispEvent event).1.filterMap
    (readMispItem (mispTlp event) org)

/- Whether two stores hold the same of the values that the
attributes of an event would import. -/
def ImportRequest.HeldAlike
    (org : Str)
    (first second : List IocRow) : ImportRequest → Prop
| .list _ => True
| .misp event =>
    ∀ n ∈ mispNew org event,
      Held first n.value ↔ Held second n.value

end

---- What The Imports Insert

section

variable [Unicode]
variable {t : ImportTools}
variable {now org : Str}

omit [Unicode] in
theorem held_append
    {iocs : List IocRow} {n : NewIoc} {value : Str} :
    Held (iocs ++ [n.row t now]) value ↔
      value = n.value ∨ Held iocs value := by
  simp [Held, NewIoc.row, or_comm]

/- The loop inserts the first attributes of the values that
the store lacks. -/
omit [Unicode] in
theorem importMispItems_spec
    (tlp : Str) (items : List MispItem) (iocs : List IocRow) :
    let readable := items.filterMap (readMispItem tlp org)
    let new :=
      firstsBy NewIoc.value (iocs.map IocRow.value) readable
    importMispItems t now org tlp iocs items =
      (iocs ++ new.map (NewIoc.row t now),
        { imported := new.length
          duplicates := readable.length - new.length
          skipped := items.length - readable.length
          total := items.length
          tlp := some tlp }) ∧
      new.length ≤ readable.length ∧
      readable.length ≤ items.length := by
  induction items generalizing iocs with
  | nil => simp [importMispItems, firstsBy]
  | cons item rest ih =>
      rw [importMispItems]
      cases hRead : readMispItem tlp org item with
      | none =>
          rw [List.filterMap_cons_none hRead]
          rcases ih iocs with ⟨hLoop, hNew, hReadable⟩
          simp only
          refine ⟨?_, hNew, ?_⟩
          · rw [hLoop]
            simp only [Prod.mk.injEq, ImportTally.mk.injEq,
              List.length_cons, true_and, and_true]
            omega
          · rw [List.length_cons]
            omega
      | some n =>
          rw [List.filterMap_cons_some hRead]
          simp only [firstsBy]
          have hAny : (iocs.any fun r => r.value == n.value) =
              (iocs.map IocRow.value).contains n.value := by
            rw [Bool.eq_iff_iff]
            simp
          rw [hAny]
          split
          · rcases ih iocs with ⟨hLoop, hNew, hReadable⟩
            refine ⟨?_, ?_, ?_⟩
            · rw [hLoop]
              simp only [Prod.mk.injEq, ImportTally.mk.injEq,
                List.length_cons, true_and, and_true]
              omega
            · rw [List.length_cons]
              omega
            · rw [List.length_cons, List.length_cons]
              omega
          · rcases ih (iocs ++ [n.row t now]) with
              ⟨hLoop, hNew, hReadable⟩
            have hSame :
                firstsBy NewIoc.value
                    ((iocs ++ [n.row t now]).map IocRow.value)
                    (rest.filterMap (readMispItem tlp org)) =
                  firstsBy NewIoc.value
                    (n.value :: iocs.map IocRow.value)
                    (rest.filterMap (readMispItem tlp org)) := by
              apply firstsBy_congr
              intro m _
              simp [NewIoc.row, or_comm]
            rw [hSame] at hLoop hNew
            refine ⟨?_, ?_, ?_⟩
            · rw [hLoop]
              simp only [Prod.mk.injEq, ImportTally.mk.injEq,
                List.length_cons, List.map_cons, List.append_assoc,
                List.singleton_append, true_and, and_true]
              omega
            · rw [List.length_cons, List.length_cons]
              omega
            · rw [List.length_cons, List.length_cons]
              omega

/- The probes of a workspace tell what it holds. -/
omit [Unicode] in
theorem mem_probeValues
    (org : Str) (iocs : List IocRow) {vals : List Str} {v : Str}
    (hVal : v ∈ vals) :
    v ∈ probeValues true org iocs vals ↔
      Held (rowsOf org iocs) v := by
  have hFlat : (chunks importProbeChunk vals).flatten = vals :=
    flatten_chunks (by decide) vals
  unfold probeValues Held rowsOf inScope
  simp only [List.mem_flatMap, List.mem_map, List.mem_filter,
    Bool.and_eq_true, List.contains_iff_mem, Bool.not_true,
    Bool.false_or]
  constructor
  · rintro ⟨part, _, r, ⟨hR, _, hOrg⟩, hIs⟩
    exact ⟨r, ⟨hR, hOrg⟩, hIs⟩
  · rintro ⟨r, ⟨hR, hOrg⟩, hIs⟩
    rw [← hFlat] at hVal
    rcases List.mem_flatten.mp hVal with ⟨part, hPart, hIn⟩
    exact ⟨part, hPart, r, ⟨hR, hIs ▸ hIn, hOrg⟩, hIs⟩

/- The list inserts the first of the values that the
workspace lacks. -/
theorem importIocs_eq
    (body : IocImport) (iocs : List IocRow) :
    importIocs t true now org body iocs =
      if body.indicators.isEmpty then
        .error ⟨400, lit "No indicators supplied"⟩
      else
        let readable := body.indicators.filterMap (body.read org)
        let new := firstsBy NewIoc.value
          ((rowsOf org iocs).map IocRow.value) readable
        .ok
          ({ imported := new.length
             duplicates :=
               (readable.length -
                  (firstsBy NewIoc.value [] readable).length) +
                ((firstsBy NewIoc.value [] readable).length -
                  new.length)
             skipped := body.indicators.length - readable.length
             total := body.indicators.length
             tlp := none },
            iocs ++ new.map (NewIoc.row t now)) := by
  have hNew :
      (firstsBy NewIoc.value []
          (body.indicators.filterMap (body.read org))).filter
          (fun n =>
            !(probeValues true org iocs
              ((firstsBy NewIoc.value []
                (body.indicators.filterMap
                  (body.read org))).map
                NewIoc.value)).contains n.value) =
        firstsBy NewIoc.value
          ((rowsOf org iocs).map IocRow.value)
          (body.indicators.filterMap (body.read org)) := by
    refine Eq.trans ?_ (firstsBy_nil_filter _ _)
    apply List.filter_congr
    intro n hN
    have hProbe := mem_probeValues org iocs
      (List.mem_map_of_mem (f := NewIoc.value) hN)
    rw [Bool.not_inj_iff, Bool.eq_iff_iff, List.contains_iff_mem,
      List.contains_iff_mem, hProbe, Held]
  unfold importIocs
  simp only [hNew]

theorem orgId_of_read
    {body : IocImport} {item : IocImportItem} {n : NewIoc}
    (hRead : body.read org item = some n) :
    n.orgId = org := by
  unfold IocImport.read at hRead
  simp only at hRead
  split at hRead
  · cases hRead
  · cases hRead
    rfl

omit [Unicode] in
theorem orgId_of_misp
    {tlp : Str} {item : MispItem} {n : NewIoc}
    (hRead : readMispItem tlp org item = some n) :
    n.orgId = org := by
  unfold readMispItem at hRead
  split at hRead
  · cases hRead
  · split at hRead
    · cases hRead
      rfl
    · cases hRead

/- Rows that are inserted in a workspace are among its rows,
and among no others. -/
omit [Unicode] in
theorem rows_insert
    {iocs : List IocRow} {new : List NewIoc}
    (hOrg : ∀ n ∈ new, n.orgId = org) :
    rowsOf org (iocs ++ new.map (NewIoc.row t now)) =
        rowsOf org iocs ++ new.map (NewIoc.row t now) ∧
      rowsBeside org (iocs ++ new.map (NewIoc.row t now)) =
        rowsBeside org iocs := by
  have hRows : ∀ r ∈ new.map (NewIoc.row t now),
      (r.orgId == org) = true := by
    intro r hR
    rcases List.mem_map.mp hR with ⟨n, hN, rfl⟩
    exact beq_iff_eq.mpr (hOrg n hN)
  unfold rowsOf rowsBeside
  rw [List.filter_append, List.filter_append]
  constructor
  · rw [List.filter_eq_self.mpr hRows]
  · have hNone :
        (new.map (NewIoc.row t now)).filter
          (fun r => !(r.orgId == org)) = [] := by
      rw [List.filter_eq_nil_iff]
      intro r hR
      simp [hRows r hR]
    rw [hNone, List.append_nil]

end

---- Which Imports Are Blind

open Intel (MispEvent parseMispEvent)

section

variable [Unicode]
variable {t : ImportTools}
variable {now org : Str}
variable {first second : List IocRow}

/- An import of a list is blind. -/
theorem list_blind
    (hOwn : rowsOf org first = rowsOf org second)
    (body : IocImport) :
    (ImportRequest.list body).Blind t now org first second := by
  have hOrg : ∀ iocs : List IocRow, ∀ n ∈
      firstsBy NewIoc.value ((rowsOf org iocs).map IocRow.value)
        (body.indicators.filterMap (body.read org)),
      n.orgId = org := by
    intro iocs n hN
    rcases List.mem_filterMap.mp (mem_of_mem_firstsBy hN).1 with
      ⟨item, _, hRead⟩
    exact orgId_of_read hRead
  refine ⟨?_, ?_, ?_⟩
  · simp only [ImportRequest.run, importIocs_eq, hOwn]
    split
    · rfl
    · rfl
  · simp only [ImportRequest.run, importIocs_eq]
    split
    · exact hOwn
    · simp only [leftBy]
      rw [(rows_insert (hOrg first)).1,
        (rows_insert (hOrg second)).1, hOwn]
  · intro iocs _
    simp only [ImportRequest.run, importIocs_eq]
    split
    · rfl
    · exact (rows_insert (hOrg iocs)).2

/- What an import of an event leaves, if it imports. -/
theorem importMisp_eq
    {event : MispEvent}
    (hSome : (parseMispEvent event).1.isEmpty = false)
    (iocs : List IocRow) :
    let new := firstsBy NewIoc.value
      (iocs.map IocRow.value) (mispNew org event)
    importMisp t now org event iocs =
      .ok
        ({ imported := new.length
           duplicates := (mispNew org event).length - new.length
           skipped :=
             (parseMispEvent event).1.length -
               (mispNew org event).length
           total := (parseMispEvent event).1.length
           tlp := some (mispTlp event) },
          iocs ++ new.map (NewIoc.row t now)) := by
  simp only [importMisp, hSome, Bool.false_eq_true, if_false]
  rw [(importMispItems_spec (mispTlp event)
    (parseMispEvent event).1 iocs).1]
  rfl

/- An import of an event is blind exactly when the stores hold
the same of its values. -/
theorem misp_blind_iff
    (hOwn : rowsOf org first = rowsOf org second)
    (event : MispEvent) :
    (ImportRequest.misp event).Blind t now org first second ↔
      ∀ n ∈ mispNew org event,
        Held first n.value ↔ Held second n.value := by
  cases hSome : (parseMispEvent event).1.isEmpty with
  | true =>
      have hRun : ∀ iocs,
          (ImportRequest.misp event).run t true now org iocs =
            .error ⟨400,
              lit "No importable attributes in the MISP event"⟩ := by
        intro iocs
        simp [ImportRequest.run, importMisp, hSome]
      have hNone : mispNew org event = [] := by
        rw [List.isEmpty_iff] at hSome
        rw [mispNew, hSome]
        rfl
      rw [hNone]
      constructor
      · intro _ n hN
        cases hN
      · intro _
        refine ⟨?_, ?_, ?_⟩
        · rw [hRun, hRun]
        · rw [hRun, hRun]
          exact hOwn
        · intro iocs _
          rw [hRun]
          rfl
  | false =>
      have hOrg : ∀ iocs : List IocRow, ∀ n ∈
          firstsBy NewIoc.value (iocs.map IocRow.value)
            (mispNew org event),
          n.orgId = org := by
        intro iocs n hN
        rcases List.mem_filterMap.mp
          (mem_of_mem_firstsBy hN).1 with ⟨item, _, hRead⟩
        exact orgId_of_misp hRead
      have hRun : ∀ iocs,
          (ImportRequest.misp event).run t true now org iocs =
            importMisp t now org event iocs :=
        fun _ => rfl
      have hValues : ∀ new : List NewIoc,
          (new.map (NewIoc.row t now)).map IocRow.value =
            new.map NewIoc.value := by
        intro new
        simp [NewIoc.row]
      constructor
      · intro hBlind
        have hRows := hBlind.own
        rw [hRun, hRun, importMisp_eq hSome,
          importMisp_eq hSome] at hRows
        simp only [leftBy] at hRows
        rw [(rows_insert (hOrg first)).1,
          (rows_insert (hOrg second)).1, hOwn,
          List.append_cancel_left_eq] at hRows
        have hSame := congrArg (List.map IocRow.value) hRows
        rw [hValues, hValues] at hSame
        exact firstsBy_agree_iff.mp hSame
      · intro hHeld
        have hSame :
            firstsBy NewIoc.value (first.map IocRow.value)
                (mispNew org event) =
              firstsBy NewIoc.value (second.map IocRow.value)
                (mispNew org event) :=
          firstsBy_congr hHeld
        refine ⟨?_, ?_, ?_⟩
        · rw [hRun, hRun, importMisp_eq hSome,
            importMisp_eq hSome, hSame]
          rfl
        · rw [hRun, hRun, importMisp_eq hSome,
            importMisp_eq hSome]
          simp only [leftBy]
          rw [(rows_insert (hOrg first)).1,
            (rows_insert (hOrg second)).1, hOwn, hSame]
        · intro iocs _
          rw [hRun, importMisp_eq hSome]
          exact (rows_insert (hOrg iocs)).2

/- An import by a user of a workspace, into two stores that
agree on its rows, is blind to the other rows exactly when
it is the list, or the stores hold the same of the values
that the event would import. -/
theorem import_blind_iff
    (t : ImportTools)
    (now : Str)
    (hOwn : rowsOf org first = rowsOf org second)
    (request : ImportRequest) :
    request.Blind t now org first second ↔
      request.HeldAlike org first second := by
  cases request with
  | list body =>
      exact iff_of_true (list_blind hOwn body) trivial
  | misp event => exact misp_blind_iff hOwn event

end

---- Concrete Imports

open Intel (MispEvent MispAttribute)

local instance importsUnicode : Unicode := asciiTables

def bareTools : ImportTools where
  isDigitChar := isDigit
  hostOf _ _ := none
  ipHexOf _ _ := none
  regDomainOf _ _ := none
  initialScore _ _ _ _ _ _ := 50
  alertMinConfidence := 85

/- An event with one domain. -/
def domainEvent : MispEvent where
  info := lit "event"
  tag := []
  attributes :=
    some [some
      ⟨some (lit "domain"), none, true, some (lit "a.b"), none⟩]
  objects := none

/- A row of a workspace with a value. -/
def rowOf (org value : String) : IocRow :=
  NewIoc.row bareTools []
    { type := lit "domain"
      value := lit value
      threatType := []
      confidence := 50
      severity := lit "high"
      source := []
      actor := []
      tags := []
      orgId := lit org }

/- The import of the event is blind to an indicator that it
does not name. -/
theorem import_blind_beside :
    (ImportRequest.misp domainEvent).Blind bareTools []
      (lit "org-a") [rowOf "org-b" "c.d"] [] := by
  have hOwn :
      rowsOf (lit "org-a") [rowOf "org-b" "c.d"] =
        rowsOf (lit "org-a") [] := by
    decide
  apply (import_blind_iff bareTools [] hOwn
    (.misp domainEvent)).mpr
  intro n hN
  have hValue : n.value = lit "a.b" := by
    revert n
    decide
  rw [hValue]
  unfold Held
  decide

/- The import of the event is not blind to the indicator of
another workspace with its value. -/
theorem import_not_blind :
    rowsOf (lit "org-a") [rowOf "org-b" "a.b"] =
        rowsOf (lit "org-a") [] ∧
      ¬ (ImportRequest.misp domainEvent).Blind bareTools []
        (lit "org-a") [rowOf "org-b" "a.b"] [] := by
  constructor
  · decide
  · intro hBlind
    have hAnswer := congrArg (Except.map ImportTally.imported)
      hBlind.answer
    revert hAnswer
    decide

end ThreatOrbit.Cti
