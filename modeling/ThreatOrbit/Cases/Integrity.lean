import ThreatOrbit.Cases.Requests
import ThreatOrbit.Lib.Utf8

/-
  The digests of the evidence of cases, through all that writes
  or copies evidence, and the bundles that are exported.

  The digest is that of the whole content a request brings; what
  is stored is its first 2000 characters.
-/

---- Bundles

namespace ThreatOrbit.Cases

open Lib

section

/- A row of the audit log, as a bundle holds it. -/
structure AuditSlice where
  ts : Str
  actor : Str
  action : Str
  target : Str
  detail : Str
deriving DecidableEq, Repr

/- What is exported of a case; the kind and the version are
those of every bundle. -/
structure BundleDoc (ν : Type) where
  exportedAt : Str
  exportedBy : Str
  row : Case ν
  auditTrail : List AuditSlice

/- SHA-256 in hex, the key and HMAC-SHA256 in hex, and the
canonical bytes of a document. -/
structure BundleLibs (ν : Type) where
  sha256 : Bytes → Str
  secret : Str
  hmacSha256 : Str → Bytes → Str
  canonical : BundleDoc ν → Bytes

structure Bundle (ν : Type) where
  bundle : BundleDoc ν
  value : Str
  contentSha256 : Str

variable {ν : Type} (libs : BundleLibs ν)

def signBundle (doc : BundleDoc ν) : Bundle ν where
  bundle := doc
  value := libs.hmacSha256 libs.secret (libs.canonical doc)
  contentSha256 := libs.sha256 (libs.canonical doc)

def verifyBundle (doc : BundleDoc ν) (signature : Str) : Bool :=
  libs.hmacSha256 libs.secret (libs.canonical doc) == signature

/- `hashlib.sha256(text.encode()).hexdigest()`, or nothing where
the text has no encoding. -/
def digestOf (text : Str) : Option Str :=
  (encodeUtf8 text).map libs.sha256

/- The digest of an item is that of its content. -/
def Intact (e : Evidence) : Prop :=
  digestOf libs e.content = some e.sha256

end

---- Steps

section

def CaseRequest.content : CaseRequest → Option Str
| .evidence _ body _ _ _ _ => some (orStr body.content [])
| _ => none

def CaseRequest.item : CaseRequest → Option Evidence
| .evidence _ body itemId sha256 actor now =>
    some (body.item itemId sha256 actor now)
| _ => none

variable {ν : Type} [DecidableEq ν] (libs : BundleLibs ν)

/- The digest of a request is that of the content it brings. -/
def CaseRequest.Hashed : CaseRequest → Prop
| .evidence _ body _ sha256 _ _ =>
    digestOf libs (orStr body.content []) = some sha256
| _ => True

/- The cases with the requests on them, and what was
exported. -/
structure Vault (ν : Type) where
  desk : Desk ν
  bundles : List (Bundle ν)

inductive VaultLabel (ν : Type) where
| request (label : CaseLabel)
| opened (id : Str) (c : Case ν)
| seeded (id : Str) (c : Case ν)
| touched (id : Str)
| removed (id : Str)
| exported (id : Str)

def Vault.setRow
    (v : Vault ν)
    (id : Str)
    (row : Option (Case ν)) : Vault ν :=
  { v with
    desk :=
      { v.desk with cases := Function.update v.desk.cases id row } }

/- What happens to cases: a request goes on; a case is opened, by
an analyst, a split, a playbook or the engine, without evidence;
the demonstration data brings cases whose items have no content
and no digest; other columns are written; a case is removed;
and a case is exported. -/
inductive VaultStep :
    Vault ν → VaultLabel ν → Vault ν → Prop
| request
    {v : Vault ν}
    {label : CaseLabel}
    {d : Desk ν}
    (hStep : CaseStep v.desk label d)
    (hHashed : ∀ k call, label = .arrive k →
      d.calls k = some call → call.request.Hashed libs) :
    VaultStep v (.request label) { v with desk := d }
| opened
    {v : Vault ν}
    {id : Str}
    {c : Case ν}
    (hNew : v.desk.cases id = none)
    (hEmpty : c.evidence = []) :
    VaultStep v (.opened id c) (v.setRow id (some c))
| seeded
    {v : Vault ν}
    {id : Str}
    {c : Case ν}
    (hNew : v.desk.cases id = none)
    (hBare : ∀ e ∈ c.evidence, e.content = [] ∧ e.sha256 = []) :
    VaultStep v (.seeded id c) (v.setRow id (some c))
| touched
    {v : Vault ν}
    {id : Str}
    {c c' : Case ν}
    (hRow : v.desk.cases id = some c)
    (hSame : c'.evidence = c.evidence) :
    VaultStep v (.touched id) (v.setRow id (some c'))
| removed
    {v : Vault ν}
    {id : Str} :
    VaultStep v (.removed id) (v.setRow id none)
| exported
    {v : Vault ν}
    {id : Str}
    {doc : BundleDoc ν}
    (hRow : v.desk.cases id = some doc.row) :
    VaultStep v (.exported id)
      { v with bundles := signBundle libs doc :: v.bundles }

/- Every item of every case, and of every bundle that was
exported, has the digest of its content. -/
def Verifiable (v : Vault ν) : Prop :=
  (∀ id c, v.desk.cases id = some c →
    ∀ e ∈ c.evidence, Intact libs e) ∧
  ∀ b ∈ v.bundles, ∀ e ∈ b.bundle.row.evidence, Intact libs e

/- The condition on a step. A request that adds evidence to a case
that is there brings a content whose first 2000 characters have
the digest of the whole; and a case of the demonstration data
has no evidence, or the digest of nothing is nothing. -/
def KeptWhole (e : Transition (Vault ν) (VaultLabel ν)) : Prop :=
  (∀ k req goal u left, e.label = .request (.write k) →
    e.pre.desk.calls k = some ⟨req, .writing goal (u :: left)⟩ →
    e.pre.desk.cases u.caseId ≠ none →
    ∀ content, req.content = some content →
      digestOf libs (content.take 2000) = digestOf libs content) ∧
  ∀ id c, e.label = .seeded id c → c.evidence ≠ [] →
    digestOf libs [] = some []

/- No case, no request and no bundle. -/
def Vault.start : Vault ν where
  desk :=
    { cases := fun _ => none
      next := 0
      landed := []
      calls := fun _ => none }
  bundles := []

end

---- What Requests Write

section

variable {ν : Type} [DecidableEq ν] {libs : BundleLibs ν}

omit [DecidableEq ν] in
/- The item of a request is intact exactly if what is stored has
the digest of what was brought. -/
theorem intact_item_iff
    {req : CaseRequest} {item : Evidence}
    (hHashed : req.Hashed libs) (hItem : req.item = some item) :
    Intact libs item ↔ ∀ content, req.content = some content →
      digestOf libs (content.take 2000) =
        digestOf libs content := by
  cases req with
  | evidence caseId body itemId sha256 actor now =>
      have hSha : digestOf libs (orStr body.content []) =
          some sha256 := hHashed
      have hIs : body.item itemId sha256 actor now = item :=
        Option.some.inj hItem
      simp only [CaseRequest.content, Option.some.injEq,
        forall_eq']
      rw [← hIs, hSha]
      exact Iff.rfl
  | note | task | link | merge | playbookNote => cases hItem

/- The evidence of an update: items that were intact, and the item
of its request. -/
structure PlannedUpdate
    (libs : BundleLibs ν)
    (req : CaseRequest)
    (u : RowUpdate ν) : Prop where
  items : ∀ es, u.evidence = some es → ∀ e ∈ es,
    Intact libs e ∨ req.item = some e
  own : ∀ item, req.item = some item →
    ∃ es, u.evidence = some es ∧ item ∈ es

omit [DecidableEq ν] in
/- An update that sets no evidence, for a request that adds
none. -/
theorem PlannedUpdate.of_none
    {req : CaseRequest} {u : RowUpdate ν}
    (hNone : u.evidence = none) (hNoItem : req.item = none) :
    PlannedUpdate libs req u := by
  refine ⟨fun es hEs => ?_, fun item hItem => ?_⟩
  · rw [hNone] at hEs
    cases hEs
  · rw [hNoItem] at hItem
    cases hItem

/- What a request plans from rows whose items are intact. -/
theorem planned_of_plan
    {req : CaseRequest} {mark : Nat}
    {first second : Option (Case ν)} {updates : List (RowUpdate ν)}
    (hFirst : ∀ c, first = some c →
      ∀ e ∈ c.evidence, Intact libs e)
    (hSecond : ∀ c, second = some c →
      ∀ e ∈ c.evidence, Intact libs e)
    (hPlan : req.plan mark first second = .ok updates) :
    ∀ u ∈ updates, PlannedUpdate libs req u := by
  cases req with
  | note caseId content type actor now =>
      cases first with
      | none => cases hPlan
      | some c =>
          injection hPlan with hPlan
          rw [← hPlan, List.forall_mem_singleton]
          exact .of_none rfl rfl
  | evidence caseId body itemId sha256 actor now =>
      cases first with
      | none => cases hPlan
      | some c =>
          injection hPlan with hPlan
          rw [← hPlan, List.forall_mem_singleton]
          refine ⟨fun es hEs e hE => ?_, fun item hItem => ?_⟩
          · injection hEs with hEs
            rw [← hEs] at hE
            rcases List.mem_append.mp hE with hOld | hNew
            · exact .inl (hFirst c rfl e hOld)
            · rw [List.mem_singleton.mp hNew]
              exact .inr rfl
          · injection hItem with hItem
            rw [← hItem]
            exact ⟨_, rfl, List.mem_append_right _
              List.mem_cons_self⟩
  | task caseId taskId body now =>
      cases first with
      | none => cases hPlan
      | some c =>
          simp only [CaseRequest.plan] at hPlan
          cases hTasks : changeTask taskId body c.tasks with
          | none =>
              rw [hTasks] at hPlan
              cases hPlan
          | some tasks =>
              rw [hTasks] at hPlan
              injection hPlan with hPlan
              rw [← hPlan, List.forall_mem_singleton]
              exact .of_none rfl rfl
  | link caseId other relation now =>
      cases first with
      | none => cases hPlan
      | some a =>
          cases second with
          | none => cases hPlan
          | some b =>
              injection hPlan with hPlan
              rw [← hPlan, List.forall_mem_cons,
                List.forall_mem_singleton]
              exact ⟨.of_none rfl rfl, .of_none rfl rfl⟩
  | merge call =>
      cases first with
      | none => cases hPlan
      | some tgt =>
          cases second with
          | none => cases hPlan
          | some src =>
              injection hPlan with hPlan
              rw [← hPlan, List.forall_mem_cons,
                List.forall_mem_singleton]
              refine ⟨⟨fun es hEs e hE => ?_, fun item hItem => ?_⟩,
                .of_none rfl rfl⟩
              · injection hEs with hEs
                rw [← hEs] at hE
                rcases List.mem_append.mp hE with hTgt | hSrc
                · exact .inl (hFirst tgt rfl e hTgt)
                · exact .inl (hSecond src rfl e hSrc)
              · cases hItem
  | playbookNote caseId content ts now =>
      cases first with
      | none => cases hPlan
      | some c =>
          injection hPlan with hPlan
          rw [← hPlan, List.forall_mem_singleton]
          exact .of_none rfl rfl

end

---- The Invariant

section

variable {ν : Type} [DecidableEq ν] {libs : BundleLibs ν}

/- What a request on its way holds. -/
structure CallInv
    (libs : BundleLibs ν)
    (call : CaseCall ν) : Prop where
  hashed : call.request.Hashed libs
  half : ∀ c, call.phase = .half (some c) →
    ∀ e ∈ c.evidence, Intact libs e
  writing : ∀ goal left, call.phase = .writing goal left →
    ∀ u ∈ left, PlannedUpdate libs call.request u

structure VaultInv
    (libs : BundleLibs ν)
    (v : Vault ν) : Prop where
  verifiable : Verifiable libs v
  calls : ∀ k call, v.desk.calls k = some call →
    CallInv libs call

omit [DecidableEq ν] in
theorem VaultInv.start :
    VaultInv libs (Vault.start : Vault ν) := by
  refine ⟨⟨fun id c hRow => ?_, fun b hB => ?_⟩,
    fun k call hCall => ?_⟩
  · cases hRow
  · exact absurd hB List.not_mem_nil
  · cases hCall

omit [DecidableEq ν] in
/- A request that has gone on, with what it holds. -/
theorem calls_set
    {v : Vault ν} {k : Nat} {next : CaseCall ν}
    (hInv : VaultInv libs v) (hNext : CallInv libs next) :
    ∀ j call, (v.desk.set k next).calls j = some call →
      CallInv libs call := by
  intro j call hCall
  rw [Desk.set] at hCall
  dsimp only at hCall
  rw [Function.update_apply] at hCall
  split at hCall
  · rw [← Option.some.inj hCall]
    exact hNext
  · exact hInv.calls j call hCall

omit [DecidableEq ν] in
/- A request that neither waits with a row nor writes. -/
theorem CallInv.idle
    {call : CaseCall ν}
    (hHashed : call.request.Hashed libs)
    (hHalf : ∀ c, call.phase ≠ .half (some c))
    (hWriting : ∀ goal left, call.phase ≠ .writing goal left) :
    CallInv libs call :=
  ⟨hHashed, fun c hPhase => absurd hPhase (hHalf c),
    fun goal left hPhase => absurd hPhase (hWriting goal left)⟩

/- A request that has read all it needs. -/
theorem CallInv.read
    {req : CaseRequest} {mark : Nat}
    {first second : Option (Case ν)}
    (hHashed : req.Hashed libs)
    (hFirst : ∀ c, first = some c →
      ∀ e ∈ c.evidence, Intact libs e)
    (hSecond : ∀ c, second = some c →
      ∀ e ∈ c.evidence, Intact libs e) :
    CallInv libs ⟨req, planned (req.plan mark first second)⟩ := by
  cases hPlan : req.plan mark first second with
  | error why =>
      apply CallInv.idle hHashed
      · intro c hPhase
        cases hPhase
      · intro goal left hPhase
        cases hPhase
  | ok updates =>
      refine ⟨hHashed, fun c hPhase => ?_,
        fun goal left hPhase => ?_⟩
      · cases hPhase
      · injection hPhase with _ hLeft
        rw [← hLeft]
        exact planned_of_plan hFirst hSecond hPlan

omit [DecidableEq ν] in
/- The rows after an update that is to be written. -/
theorem rows_write
    {v : Vault ν} {k : Nat} {req : CaseRequest}
    {goal : List Effect} {u : RowUpdate ν}
    {left : List (RowUpdate ν)}
    (hInv : VaultInv libs v)
    (hCall : v.desk.calls k = some ⟨req, .writing goal (u :: left)⟩) :
    (∀ id c, u.write v.desk.cases id = some c →
      ∀ e ∈ c.evidence, Intact libs e) ↔
      (v.desk.cases u.caseId ≠ none →
        ∀ content, req.content = some content →
          digestOf libs (content.take 2000) =
            digestOf libs content) := by
  have hHolds := hInv.calls k _ hCall
  have hPlanned := hHolds.writing goal (u :: left) rfl u
    List.mem_cons_self
  constructor
  · intro hRows hThere
    cases hRow : v.desk.cases u.caseId with
    | none => exact absurd hRow hThere
    | some c =>
        have hWritten : u.write v.desk.cases u.caseId =
            some (u.apply c) := by
          rw [RowUpdate.write, Function.update_self, hRow]
          rfl
        cases hItem : req.item with
        | none =>
            intro content hContent
            cases req with
            | evidence => cases hItem
            | note | task | link | merge | playbookNote =>
                cases hContent
        | some item =>
            rcases hPlanned.own item hItem with ⟨es, hEs, hIn⟩
            apply (intact_item_iff hHolds.hashed hItem).mp
            apply hRows u.caseId _ hWritten item
            rw [RowUpdate.apply, hEs]
            exact hIn
  · intro hCond id c hRow e hE
    rw [RowUpdate.write, Function.update_apply] at hRow
    split at hRow
    · rename_i hId
      rcases Option.map_eq_some_iff.mp hRow with
        ⟨old, hOld, rfl⟩
      rw [RowUpdate.apply] at hE
      dsimp only at hE
      cases hEs : u.evidence with
      | none =>
          rw [hEs] at hE
          exact hInv.verifiable.1 u.caseId old hOld e hE
      | some es =>
          rw [hEs] at hE
          rcases hPlanned.items es hEs e hE with hIntact | hItem
          · exact hIntact
          · apply (intact_item_iff hHolds.hashed hItem).mpr
            apply hCond
            rw [hOld]
            exact Option.some_ne_none old
    · exact hInv.verifiable.1 id c hRow e hE

omit [DecidableEq ν] in
theorem VaultInv.setRow
    {v : Vault ν} {id : Str} {row : Option (Case ν)}
    (hInv : VaultInv libs v)
    (hRow : ∀ c, row = some c → ∀ e ∈ c.evidence, Intact libs e) :
    VaultInv libs (v.setRow id row) := by
  refine ⟨⟨fun other c hOther => ?_, hInv.verifiable.2⟩,
    hInv.calls⟩
  rw [Vault.setRow] at hOther
  dsimp only at hOther
  rw [Function.update_apply] at hOther
  split at hOther
  · exact hRow c hOther
  · exact hInv.verifiable.1 other c hOther

/- A step that meets the condition keeps the invariant. -/
theorem VaultInv.keep
    {v w : Vault ν} {label : VaultLabel ν}
    (hInv : VaultInv libs v) (hStep : VaultStep libs v label w)
    (hKept : KeptWhole libs ⟨v, label, w⟩) :
    VaultInv libs w := by
  cases hStep with
  | request hStep hHashed =>
      have hBundles := hInv.verifiable.2
      cases hStep with
      | refused hIdle hCheck =>
          refine ⟨hInv.verifiable, calls_set hInv ?_⟩
          apply CallInv.idle
            (hHashed _ _ rfl (Function.update_self _ _ _))
          · intro c hPhase
            cases hPhase
          · intro goal left hPhase
            cases hPhase
      | arrived hIdle hCheck =>
          refine ⟨hInv.verifiable, calls_set hInv ?_⟩
          apply CallInv.idle
            (hHashed _ _ rfl (Function.update_self _ _ _))
          · intro c hPhase
            cases hPhase
          · intro goal left hPhase
            cases hPhase
      | readOnly hCall hOne =>
          refine ⟨hInv.verifiable, calls_set hInv ?_⟩
          apply CallInv.read (hInv.calls _ _ hCall).hashed
          · exact fun c hRow => hInv.verifiable.1 _ c hRow
          · intro c hNone
            cases hNone
      | readFirst hCall hTwo =>
          refine ⟨hInv.verifiable, calls_set hInv
            ⟨(hInv.calls _ _ hCall).hashed, fun c hPhase => ?_,
              fun goal left hPhase => ?_⟩⟩
          · injection hPhase with hRow
            exact hInv.verifiable.1 _ c hRow
          · cases hPhase
      | readSecond hCall hTwo =>
          have hHolds := hInv.calls _ _ hCall
          refine ⟨hInv.verifiable, calls_set hInv ?_⟩
          apply CallInv.read hHolds.hashed
          · intro c hFirst
            apply hHolds.half c
            dsimp only
            rw [hFirst]
          · exact fun c hRow => hInv.verifiable.1 _ c hRow
      | write hCall =>
          have hHolds := hInv.calls _ _ hCall
          refine ⟨⟨?_, hBundles⟩, calls_set hInv
            ⟨hHolds.hashed, fun c hPhase => ?_,
              fun goal left hPhase => ?_⟩⟩
          · exact (rows_write hInv hCall).mpr
              (hKept.1 _ _ _ _ _ rfl hCall)
          · cases hPhase
          · injection hPhase with _ hLeft
            intro u hU
            rw [← hLeft] at hU
            exact hHolds.writing _ _ rfl u
              (List.mem_cons_of_mem _ hU)
      | commit hCall =>
          have hHolds := (hInv.calls _ _ hCall).hashed
          refine ⟨hInv.verifiable, calls_set hInv
            ⟨hHolds, fun c hPhase => ?_,
              fun goal left hPhase => ?_⟩⟩
          · cases hPhase
          · cases hPhase
  | opened hNew hEmpty =>
      apply hInv.setRow
      intro c hC e hE
      rw [← Option.some.inj hC, hEmpty] at hE
      exact absurd hE List.not_mem_nil
  | seeded hNew hBare =>
      apply hInv.setRow
      intro c hC e hE
      rw [← Option.some.inj hC] at hE
      rcases hBare e hE with ⟨hContent, hSha⟩
      rw [Intact, hContent, hSha]
      exact hKept.2 _ _ rfl (List.ne_nil_of_mem hE)
  | touched hRow hSame =>
      apply hInv.setRow
      intro c hC e hE
      rw [← Option.some.inj hC, hSame] at hE
      exact hInv.verifiable.1 _ _ hRow e hE
  | removed =>
      apply hInv.setRow
      intro c hC
      cases hC
  | exported hRow =>
      refine ⟨⟨hInv.verifiable.1, ?_⟩, hInv.calls⟩
      rw [List.forall_mem_cons]
      exact ⟨hInv.verifiable.1 _ _ hRow, hInv.verifiable.2⟩

end

---- A Long Content

end ThreatOrbit.Cases
