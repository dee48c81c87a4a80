import ThreatOrbit.Lib.Run
import ThreatOrbit.Collector.Reading

/-
  The log collector.

  A pass goes over the tailed files: it asks for the inode,
  looks up the offset, and reads, ships and checkpoints one
  batch after another. Files are appended to, renamed and
  truncated between any two of these steps.
-/

---- Passes

namespace ThreatOrbit.Collector

open Lib

structure LogFile where
  inode : Nat
  content : Bytes
deriving DecidableEq, Repr

/- A record of the checkpoint, and which of the files at its
path it is about: the code does not have the latter. -/
structure Mark where
  inode : Nat
  offset : Nat
  file : Nat
deriving DecidableEq, Repr

/- How far a pass is with a path: an offset to go on from,
the `stat` of `read_new_lines`, a batch that is read, or one
that is shipped and put in the checkpoint. Each says which of
the files at the path it is about. -/
inductive Stage where
| waiting
| located (offset file : Nat)
| sized (inode start file : Nat)
| batch (inode offset file : Nat) (lines : List Str)
| saving (offset file : Nat) (full : Bool)
deriving DecidableEq, Repr

/- A pass: the paths to come, and how far it is with the
first. -/
structure Pass where
  paths : List Str
  stage : Stage
deriving DecidableEq, Repr

/- The files, how many have gone from each path, with their
lines, the checkpoint in memory and on disk, the lines
shipped, and the pass that runs. -/
structure Host where
  files : Str → Option LogFile
  number : Str → Nat
  gone : Str → List Str
  data : List (Str × Mark)
  saved : List (Str × Mark)
  shipped : List (Str × Str)
  pass : Option Pass

/- What is there of a file. -/
def Host.contentOf (w : Host) (path : Str) : Bytes :=
  match w.files path with
  | some f => f.content
  | none => []

def offsetFor
    (data : List (Str × Mark))
    (path : Str)
    (inode : Nat) : Nat :=
  match lookup path data with
  | some m => if m.inode ≠ inode then 0 else m.offset
  | none => 0

/- The file that an offset is about: the top of any file is
about the one that is there. -/
def fileFor
    (data : List (Str × Mark))
    (path : Str)
    (inode current : Nat) : Nat :=
  match lookup path data with
  | some m => if m.inode ≠ inode then current else m.file
  | none => current

/- What a step does. -/
inductive HostEvent where
| appended (path : Str) (more : Bytes)
| replaced (path : Str) (file : Option LogFile)
| started (paths : List Str)
| looked (path : Str)
| sized (path : Str)
| read (path : Str)
| shipped (path : Str)
| saved
| failed
| finished
| crashed
deriving DecidableEq, Repr

/- The agent: the lines of a batch. -/
structure Agent where
  batch : Nat
  pos : 0 < batch

/- The next state. A file is replaced when it is renamed,
removed, created or truncated. An error of the system or of
the server ends the work on a path, after a `ship` that
fails as well as before; a restart reads the checkpoint
from disk. -/
inductive Agent.Step
    (a : Agent) : Host → HostEvent → Host → Prop
| append
    (w : Host) (path : Str) (f : LogFile) (more : Bytes)
    (hFile : w.files path = some f) :
    a.Step w (.appended path more)
      { w with
        files := Function.update w.files path
          (some { f with content := f.content ++ more }) }
| replace
    (w : Host) (path : Str) (file : Option LogFile) :
    a.Step w (.replaced path file)
      { w with
        files := Function.update w.files path file
        number :=
          Function.update w.number path (w.number path + 1)
        gone := Function.update w.gone path
          (w.gone path ++ completeLines (w.contentOf path)) }
| start
    (w : Host) (paths : List Str)
    (hIdle : w.pass = none) :
    a.Step w (.started paths)
      { w with pass := some ⟨paths, .waiting⟩ }
| look
    (w : Host) (path : Str) (rest : List Str) (f : LogFile)
    (hPass : w.pass = some ⟨path :: rest, .waiting⟩)
    (hFile : w.files path = some f) :
    a.Step w (.looked path)
      { w with
        pass := some
          ⟨path :: rest,
            .located (offsetFor w.data path f.inode)
              (fileFor w.data path f.inode (w.number path))⟩ }
| size
    (w : Host) (path : Str) (rest : List Str) (f : LogFile)
    (offset file : Nat)
    (hPass : w.pass = some ⟨path :: rest, .located offset file⟩)
    (hFile : w.files path = some f) :
    a.Step w (.sized path)
      { w with
        pass := some
          ⟨path :: rest,
            .sized f.inode
              (if offset > f.content.length then 0 else offset)
              (w.number path)⟩ }
| read
    (w : Host) (path : Str) (rest : List Str) (f : LogFile)
    (inode start file : Nat)
    (hPass :
      w.pass = some ⟨path :: rest, .sized inode start file⟩)
    (hFile : w.files path = some f) :
    a.Step w (.read path)
      { w with
        pass :=
          let got := readNewLines a.batch f.content start
          if got.1 = [] then some ⟨rest, .waiting⟩
          else
            some
              ⟨path :: rest,
                .batch inode got.2 (w.number path) got.1⟩ }
| ship
    (w : Host) (path : Str) (rest : List Str)
    (inode offset file : Nat) (lines : List Str)
    (hPass :
      w.pass =
        some ⟨path :: rest, .batch inode offset file lines⟩) :
    a.Step w (.shipped path)
      { w with
        shipped := w.shipped ++ lines.map fun l => (path, l)
        data := setEntry path ⟨inode, offset, file⟩ w.data
        pass := some
          ⟨path :: rest,
            .saving offset file
              (decide (a.batch ≤ lines.length))⟩ }
| save
    (w : Host) (path : Str) (rest : List Str)
    (offset file : Nat) (full : Bool)
    (hPass :
      w.pass = some ⟨path :: rest, .saving offset file full⟩) :
    a.Step w .saved
      { w with
        saved := w.data
        pass :=
          if full then
            some ⟨path :: rest, .located offset file⟩
          else some ⟨rest, .waiting⟩ }
| fail
    (w : Host) (path : Str) (rest : List Str) (stage : Stage)
    (hPass : w.pass = some ⟨path :: rest, stage⟩) :
    a.Step w .failed
      { w with pass := some ⟨rest, .waiting⟩ }
| finish
    (w : Host) (stage : Stage)
    (hPass : w.pass = some ⟨[], stage⟩) :
    a.Step w .finished { w with pass := none }
| crash
    (w : Host) :
    a.Step w .crashed { w with data := w.saved, pass := none }

---- Progress

/- The offset of a record, if it is about the file that is
there. -/
def markAt
    (data : List (Str × Mark))
    (path : Str)
    (number : Nat) : Nat :=
  match lookup path data with
  | some m => if m.file = number then m.offset else 0
  | none => 0

/- How far the checkpoint is in the file. -/
def Host.position (w : Host) (path : Str) : Nat :=
  markAt w.data path (w.number path)

/- How far the file is read. -/
def Host.reached (w : Host) (path : Str) : Nat :=
  match w.pass with
  | some ⟨p :: _, .batch _ offset file _⟩ =>
      if p = path ∧ file = w.number path then offset
      else w.position path
  | _ => w.position path

/- The lines of the path that are read and not shipped. -/
def Host.inFlight (w : Host) (path : Str) : List Str :=
  match w.pass with
  | some ⟨p :: _, .batch _ _ _ lines⟩ =>
      if p = path then lines else []
  | _ => []

/- Those of them whose file has gone. -/
def Host.orphaned (w : Host) (path : Str) : List Str :=
  match w.pass with
  | some ⟨p :: _, .batch _ _ file lines⟩ =>
      if p = path ∧ file ≠ w.number path then lines else []
  | _ => []

def Host.inodeOf (w : Host) (path : Str) : Option Nat :=
  (w.files path).map LogFile.inode

/- A file is replaced when its complete lines are read; where
the offset of another file is at hand, the size of this one
gives it away or it is the top; a file is read that was
measured, or from the top of one with its inode; and a
batch whose file has gone does get shipped. -/
def Clean
    (path : Str)
    (t : Transition Host HostEvent) : Prop :=
  let w := t.pre
  match t.label with
  | .replaced p _ =>
      p = path →
        completeLines
          ((w.contentOf path).drop (w.reached path)) = []
  | .sized p =>
      p = path → ∀ rest offset file,
        w.pass = some ⟨path :: rest, .located offset file⟩ →
          file = w.number path ∨ offset = 0 ∨
            (w.contentOf path).length < offset
  | .read p =>
      p = path → ∀ rest inode start file,
        w.pass = some ⟨path :: rest, .sized inode start file⟩ →
          file = w.number path ∨
            start = 0 ∧ w.inodeOf path = some inode
  | .failed => w.orphaned path = []
  | .crashed => w.orphaned path = []
  | _ => True

/- A record is about this file, and then at the start of a
line of it, or about an earlier one. -/
structure Placed (w : Host) (path : Str) (m : Mark) : Prop where
  old : m.file ≤ w.number path
  there :
    m.file = w.number path →
      w.inodeOf path = some m.inode ∧
        LineEnd (w.contentOf path) m.offset

/- No record is about a later file. -/
def NotLater (w : Host) (path : Str) (file : Nat) : Prop :=
  file ≤ w.number path ∧
    ∀ m, lookup path w.data = some m → m.file ≤ file

/- What a stage of the pass knows of the file. -/
def StageOk (w : Host) (path : Str) : Stage → Prop
| .waiting => True
| .located offset file =>
    NotLater w path file ∧
      (file = w.number path → offset = w.position path)
| .sized inode start file =>
    NotLater w path file ∧
      (file = w.number path →
        start = w.position path ∧
          w.inodeOf path = some inode)
| .batch inode offset file lines =>
    NotLater w path file ∧
      (file = w.number path →
        w.inodeOf path = some inode ∧
          LineEnd (w.contentOf path) offset ∧
          completeLines ((w.contentOf path).take offset) =
            completeLines
              ((w.contentOf path).take (w.position path)) ++
              lines)
| .saving offset file _ =>
    ∃ inode, lookup path w.data = some ⟨inode, offset, file⟩

/- The lines up to an offset, after those of the files gone,
are in the given relation to the lines shipped, with the
orphaned ones. -/
def Accounted
    (R : List Str → List Str → Prop)
    (w : Host)
    (path : Str)
    (offset : Nat) : Prop :=
  R (w.gone path ++
      completeLines ((w.contentOf path).take offset))
    (linesOf path w.shipped ++ w.orphaned path)

/- The records are placed, the pass knows what it does, and
the lines are accounted for. -/
structure ShipInv
    (R : List Str → List Str → Prop)
    (path : Str)
    (w : Host) : Prop where
  data : ∀ m, lookup path w.data = some m → Placed w path m
  saved : ∀ m, lookup path w.saved = some m → Placed w path m
  stage :
    ∀ rest st, w.pass = some ⟨path :: rest, st⟩ →
      StageOk w path st
  memory : Accounted R w path (w.position path)
  disk :
    Accounted List.Sublist w path
      (markAt w.saved path (w.number path))

---- Facts Of The Invariant

theorem contentOf_file
    {w : Host} {path : Str} {f : LogFile}
    (hFile : w.files path = some f) :
    w.contentOf path = f.content := by
  unfold Host.contentOf
  rw [hFile]

theorem inodeOf_file
    {w : Host} {path : Str} {f : LogFile}
    (hFile : w.files path = some f) :
    w.inodeOf path = some f.inode := by
  unfold Host.inodeOf
  rw [hFile]
  rfl

theorem markAt_of_ne
    {data : List (Str × Mark)} {path : Str} {number : Nat}
    (hOther :
      ∀ m, lookup path data = some m → m.file ≠ number) :
    markAt data path number = 0 := by
  unfold markAt
  split
  · rename_i m hLookup
    exact if_neg (hOther m hLookup)
  · rfl

theorem markAt_some
    {data : List (Str × Mark)} {path : Str} {m : Mark}
    (hLookup : lookup path data = some m) :
    markAt data path m.file = m.offset := by
  unfold markAt
  rw [hLookup]
  exact if_pos rfl

/- An offset of a file that has gone is none of this one. -/
theorem NotLater.position
    {w : Host} {path : Str} {file : Nat}
    (hNot : NotLater w path file) (hGone : file ≠ w.number path) :
    w.position path = 0 := by
  apply markAt_of_ne
  intro m hLookup
  have hLe := hNot.2 m hLookup
  have hFile := hNot.1
  omega

theorem lineEnd_zero (content : Bytes) : LineEnd content 0 :=
  ⟨Nat.zero_le _, Or.inl rfl⟩

theorem markAt_lineEnd
    {w : Host} {path : Str} {data : List (Str × Mark)}
    (hPlaced :
      ∀ m, lookup path data = some m → Placed w path m) :
    LineEnd (w.contentOf path)
      (markAt data path (w.number path)) := by
  unfold markAt
  split
  · rename_i m hLookup
    split
    · rename_i hSame
      exact ((hPlaced m hLookup).there hSame).2
    · exact lineEnd_zero _
  · exact lineEnd_zero _

theorem ShipInv.notLater
    {R : List Str → List Str → Prop} {path : Str} {w : Host}
    (hInv : ShipInv R path w) :
    NotLater w path (w.number path) :=
  ⟨le_refl _, fun m hLookup => (hInv.data m hLookup).old⟩

/- A stage that holds no batch leaves no lines behind. -/
theorem orphaned_of_stage
    {w : Host} {paths : List Str} {st : Stage}
    (hPass : w.pass = some ⟨paths, st⟩)
    (hStage : ∀ i o n l, st ≠ .batch i o n l) (path : Str) :
    w.orphaned path = [] := by
  unfold Host.orphaned
  rw [hPass]
  cases paths with
  | nil => rfl
  | cons p rest =>
      cases st with
      | batch i o n l => exact absurd rfl (hStage i o n l)
      | _ => rfl

/- Only the pass has changed. -/
theorem ShipInv.of_pass
    {R : List Str → List Str → Prop} {path : Str} {w : Host}
    (hInv : ShipInv R path w) (q : Option Pass)
    (hOrphaned :
      Host.orphaned { w with pass := q } path = w.orphaned path)
    (hStage :
      ∀ rest st, q = some ⟨path :: rest, st⟩ →
        StageOk w path st) :
    ShipInv R path { w with pass := q } := by
  constructor
  · intro m hLookup
    have hPlaced := hInv.data m hLookup
    exact ⟨hPlaced.old, hPlaced.there⟩
  · intro m hLookup
    have hPlaced := hInv.saved m hLookup
    exact ⟨hPlaced.old, hPlaced.there⟩
  · intro rest st hPass
    have hOk := hStage rest st hPass
    cases st with
    | waiting => trivial
    | located offset file => exact hOk
    | sized inode start file => exact hOk
    | batch inode offset file lines => exact hOk
    | saving offset file full => exact hOk
  · have hMemory := hInv.memory
    unfold Accounted at hMemory ⊢
    rw [hOrphaned]
    exact hMemory
  · have hDisk := hInv.disk
    unfold Accounted at hDisk ⊢
    rw [hOrphaned]
    exact hDisk

---- Steps Of A Pass

section

variable {R : List Str → List Str → Prop}
variable {path p : Str}
variable {w : Host}
variable {rest : List Str}

theorem ShipInv.look
    {f : LogFile}
    (hInv : ShipInv R path w)
    (hPass : w.pass = some ⟨p :: rest, .waiting⟩)
    (hFile : w.files p = some f) :
    ShipInv R path
      { w with
        pass := some
          ⟨p :: rest,
            .located (offsetFor w.data p f.inode)
              (fileFor w.data p f.inode (w.number p))⟩ } := by
  apply hInv.of_pass
  · rw [orphaned_of_stage hPass (by simp)]
    rfl
  · intro rest' st hStage
    cases hStage
    unfold StageOk offsetFor fileFor
    cases hLookup : lookup path w.data with
    | none =>
        refine ⟨hInv.notLater, fun _ => ?_⟩
        unfold Host.position markAt
        rw [hLookup]
    | some m =>
        have hPlaced := hInv.data m hLookup
        simp only
        by_cases hInode : m.inode ≠ f.inode
        · rw [if_pos hInode, if_pos hInode]
          refine ⟨hInv.notLater, fun _ => ?_⟩
          symm
          apply markAt_of_ne
          intro m' hLookup' hSame
          cases hLookup.symm.trans hLookup'
          have hThere := (hPlaced.there hSame).1
          rw [inodeOf_file hFile] at hThere
          exact hInode (Option.some.inj hThere).symm
        · rw [if_neg hInode, if_neg hInode]
          refine ⟨⟨hPlaced.old, ?_⟩, ?_⟩
          · intro m' hLookup'
            cases hLookup.symm.trans hLookup'
            exact le_refl _
          · intro hSame
            unfold Host.position
            rw [← hSame, markAt_some hLookup]

theorem ShipInv.size
    {f : LogFile} {offset file : Nat}
    (hInv : ShipInv R path w)
    (hPass : w.pass = some ⟨p :: rest, .located offset file⟩)
    (hFile : w.files p = some f)
    (hClean : p = path →
      file = w.number path ∨ offset = 0 ∨
        (w.contentOf path).length < offset) :
    ShipInv R path
      { w with
        pass := some
          ⟨p :: rest,
            .sized f.inode
              (if offset > f.content.length then 0 else offset)
              (w.number p)⟩ } := by
  apply hInv.of_pass
  · rw [orphaned_of_stage hPass (by simp)]
    rfl
  · intro rest' st hStage
    cases hStage
    have hLocated := hInv.stage rest _ hPass
    refine ⟨hInv.notLater, fun _ => ⟨?_, inodeOf_file hFile⟩⟩
    have hWithin := (markAt_lineEnd hInv.data).1
    rw [contentOf_file hFile] at hClean hWithin
    by_cases hSame : file = w.number path
    · have hOffset := hLocated.2 hSame
      rw [hOffset]
      exact if_neg (not_lt_of_ge hWithin)
    · rw [hLocated.1.position hSame]
      rcases hClean rfl with hThere | hTop | hShort
      · exact absurd hThere hSame
      · rw [hTop]
        exact ite_self 0
      · exact if_pos hShort

/- What a measured file is read from. -/
theorem ShipInv.start_of_sized
    {inode start file : Nat}
    (hInv : ShipInv R path w)
    (hPass : w.pass = some ⟨path :: rest, .sized inode start file⟩)
    (hClean :
      file = w.number path ∨
        start = 0 ∧ w.inodeOf path = some inode) :
    start = w.position path ∧ w.inodeOf path = some inode := by
  have hSized := hInv.stage rest _ hPass
  rcases hClean with hSame | ⟨hTop, hInode⟩
  · exact hSized.2 hSame
  · by_cases hSame : file = w.number path
    · exact hSized.2 hSame
    · exact ⟨hTop.trans (hSized.1.position hSame).symm, hInode⟩

theorem ShipInv.read
    {f : LogFile} {inode start file batch : Nat}
    (hInv : ShipInv R path w)
    (hPass : w.pass = some ⟨p :: rest, .sized inode start file⟩)
    (hFile : w.files p = some f)
    (hClean : p = path →
      file = w.number path ∨
        start = 0 ∧ w.inodeOf path = some inode) :
    ShipInv R path
      { w with
        pass :=
          let got := readNewLines batch f.content start
          if got.1 = [] then some ⟨rest, .waiting⟩
          else
            some
              ⟨p :: rest,
                .batch inode got.2 (w.number p) got.1⟩ } := by
  apply hInv.of_pass
  · rw [orphaned_of_stage hPass (by simp)]
    simp only
    split
    · exact orphaned_of_stage rfl (by simp) path
    · unfold Host.orphaned
      simp only
      apply if_neg
      rintro ⟨hHead, hGone⟩
      exact hGone (by rw [hHead])
  · intro rest' st hStage
    simp only at hStage
    split at hStage
    · cases hStage
      trivial
    · cases hStage
      have hStart := hInv.start_of_sized hPass (hClean rfl)
      have hEnd := markAt_lineEnd hInv.data
      have hSpec := readNewLines_spec batch hEnd
      rw [contentOf_file hFile] at hSpec
      refine ⟨hInv.notLater, fun _ => ⟨hStart.2, ?_⟩⟩
      rw [contentOf_file hFile, hStart.1]
      exact ⟨hSpec.1, hSpec.2.1⟩

theorem ShipInv.fail
    {st : Stage}
    (hInv : ShipInv R path w)
    (hPass : w.pass = some ⟨p :: rest, st⟩)
    (hClean : w.orphaned path = []) :
    ShipInv R path
      { w with pass := some ⟨rest, .waiting⟩ } := by
  apply hInv.of_pass
  · rw [hClean]
    exact orphaned_of_stage rfl (by simp) path
  · intro rest' st' hStage
    cases hStage
    trivial

theorem ShipInv.ship
    {inode offset file : Nat} {lines : List Str} {full : Bool}
    (hAppend : ∀ a b c, R a b → R (a ++ c) (b ++ c))
    (hInv : ShipInv R path w)
    (hPass :
      w.pass = some ⟨p :: rest, .batch inode offset file lines⟩) :
    ShipInv R path
      { w with
        shipped := w.shipped ++ lines.map fun l => (p, l)
        data := setEntry p ⟨inode, offset, file⟩ w.data
        pass := some ⟨p :: rest, .saving offset file full⟩ } := by
  by_cases hHead : p = path
  · subst hHead
    have hBatch := hInv.stage rest _ hPass
    have hMemory := hInv.memory
    have hDisk := hInv.disk
    unfold Accounted Host.orphaned at hMemory hDisk
    simp only [hPass, true_and] at hMemory hDisk
    have hLines :
        linesOf p (w.shipped ++ lines.map fun l => (p, l)) =
          linesOf p w.shipped ++ lines := by
      rw [linesOf_append, linesOf_tagged, if_pos rfl]
    constructor
    · intro m hLookup
      rw [lookup_setEntry, if_pos rfl] at hLookup
      cases hLookup
      exact ⟨hBatch.1.1, fun hSame =>
        ⟨(hBatch.2 hSame).1, (hBatch.2 hSame).2.1⟩⟩
    · intro m hLookup
      have hPlaced := hInv.saved m hLookup
      exact ⟨hPlaced.old, hPlaced.there⟩
    · intro rest' st hStage
      cases hStage
      exact ⟨inode, by rw [lookup_setEntry, if_pos rfl]⟩
    · unfold Accounted Host.position markAt Host.orphaned
      simp only [lookup_setEntry, if_true, hLines,
        List.append_nil]
      by_cases hSame : file = w.number p
      · have hTake := (hBatch.2 hSame).2.2
        rw [if_neg (fun h => h hSame), List.append_nil]
          at hMemory
        rw [if_pos hSame]
        have hNext := hAppend _ _ lines hMemory
        rw [List.append_assoc, ← hTake] at hNext
        exact hNext
      · rw [hBatch.1.position hSame, if_pos hSame] at hMemory
        rw [if_neg hSame]
        exact hMemory
    · unfold Accounted Host.orphaned
      simp only [hLines, List.append_nil]
      by_cases hSame : file = w.number p
      · rw [if_neg (fun h => h hSame), List.append_nil] at hDisk
        exact hDisk.trans (List.sublist_append_left _ _)
      · rw [if_pos hSame] at hDisk
        exact hDisk
  · have hMemory := hInv.memory
    have hDisk := hInv.disk
    unfold Accounted Host.orphaned at hMemory hDisk
    simp only [hPass, hHead, false_and, if_false] at hMemory hDisk
    have hLines :
        linesOf path (w.shipped ++ lines.map fun l => (p, l)) =
          linesOf path w.shipped := by
      rw [linesOf_append, linesOf_tagged, if_neg hHead,
        List.append_nil]
    have hLookup :
        lookup path (setEntry p ⟨inode, offset, file⟩ w.data) =
          lookup path w.data := by
      rw [lookup_setEntry, if_neg hHead]
    constructor
    · intro m hM
      rw [hLookup] at hM
      have hPlaced := hInv.data m hM
      exact ⟨hPlaced.old, hPlaced.there⟩
    · intro m hM
      have hPlaced := hInv.saved m hM
      exact ⟨hPlaced.old, hPlaced.there⟩
    · intro rest' st hStage
      cases hStage
      exact absurd rfl hHead
    · unfold Accounted Host.position markAt Host.orphaned
      simp only [hLookup, hLines]
      exact hMemory
    · unfold Accounted Host.orphaned
      simp only [hLines]
      exact hDisk

theorem ShipInv.save
    {offset file : Nat} {full : Bool}
    (hSub : ∀ a b, R a b → List.Sublist a b)
    (hInv : ShipInv R path w)
    (hPass :
      w.pass = some ⟨p :: rest, .saving offset file full⟩) :
    ShipInv R path
      { w with
        saved := w.data
        pass :=
          if full then
            some ⟨p :: rest, .located offset file⟩
          else some ⟨rest, .waiting⟩ } := by
  have hNone :
      Host.orphaned
        { w with
          saved := w.data
          pass :=
            if full then
              some ⟨p :: rest, .located offset file⟩
            else some ⟨rest, .waiting⟩ } path = [] := by
    cases full with
    | true => exact orphaned_of_stage rfl (by simp) path
    | false => exact orphaned_of_stage rfl (by simp) path
  have hBefore := orphaned_of_stage hPass (by simp) path
  have hMemory := hInv.memory
  unfold Accounted at hMemory
  rw [hBefore] at hMemory
  constructor
  · intro m hLookup
    have hPlaced := hInv.data m hLookup
    exact ⟨hPlaced.old, hPlaced.there⟩
  · intro m hLookup
    have hPlaced := hInv.data m hLookup
    exact ⟨hPlaced.old, hPlaced.there⟩
  · intro rest' st hStage
    cases full with
    | false =>
        cases hStage
        trivial
    | true =>
        cases hStage
        rcases hInv.stage rest _ hPass with ⟨inode, hLookup⟩
        refine ⟨⟨(hInv.data _ hLookup).old, ?_⟩, ?_⟩
        · intro m hM
          cases hLookup.symm.trans hM
          exact le_refl _
        · intro hSame
          have hMark := markAt_some hLookup
          exact hMark.symm.trans
            (congrArg (markAt w.data path) hSame)
  · unfold Accounted
    rw [hNone]
    exact hMemory
  · unfold Accounted
    rw [hNone]
    exact hSub _ _ hMemory

end

---- Steps Of The Files

variable {R : List Str → List Str → Prop}
variable {path p : Str}
variable {w w' : Host}
variable {rest : List Str}

/- A stage knows of a file what it did when the file has
only grown. -/
theorem StageOk.grown
    {st : Stage} {more : Bytes}
    (hOk : StageOk w path st) (hData : w'.data = w.data)
    (hNumber : w'.number path = w.number path)
    (hInode : w'.inodeOf path = w.inodeOf path)
    (hContent : w'.contentOf path = w.contentOf path ++ more)
    (hWithin : w.position path ≤ (w.contentOf path).length) :
    StageOk w' path st := by
  have hPosition : w'.position path = w.position path := by
    unfold Host.position
    rw [hData, hNumber]
  have hNot {file : Nat} (h : NotLater w path file) :
      NotLater w' path file := by
    unfold NotLater
    rw [hNumber, hData]
    exact h
  cases st with
  | waiting => trivial
  | located offset file =>
      refine ⟨hNot hOk.1, ?_⟩
      rw [hNumber, hPosition]
      exact hOk.2
  | sized inode start file =>
      refine ⟨hNot hOk.1, ?_⟩
      rw [hNumber, hPosition, hInode]
      exact hOk.2
  | batch inode offset file lines =>
      refine ⟨hNot hOk.1, ?_⟩
      rw [hNumber, hPosition, hInode, hContent]
      intro hSame
      rcases hOk.2 hSame with ⟨hI, hEnd, hTake⟩
      refine ⟨hI, hEnd.append more, ?_⟩
      rw [List.take_append_of_le_length hEnd.1,
        List.take_append_of_le_length hWithin]
      exact hTake
  | saving offset file full =>
      unfold StageOk at hOk ⊢
      rw [hData]
      exact hOk

/- The file of the path has grown, or is the same. -/
theorem ShipInv.grown
    {more : Bytes}
    (hInv : ShipInv R path w) (hData : w'.data = w.data)
    (hSaved : w'.saved = w.saved)
    (hShipped : w'.shipped = w.shipped) (hPass : w'.pass = w.pass)
    (hNumber : w'.number path = w.number path)
    (hGone : w'.gone path = w.gone path)
    (hInode : w'.inodeOf path = w.inodeOf path)
    (hContent : w'.contentOf path = w.contentOf path ++ more) :
    ShipInv R path w' := by
  have hEnd := markAt_lineEnd hInv.data
  have hPosition : w'.position path = w.position path := by
    unfold Host.position
    rw [hData, hNumber]
  have hOrphaned : w'.orphaned path = w.orphaned path := by
    unfold Host.orphaned
    rw [hPass, hNumber]
  have hPlaced {m : Mark} (h : Placed w path m) :
      Placed w' path m := by
    constructor
    · rw [hNumber]
      exact h.old
    · rw [hNumber, hInode, hContent]
      intro hSame
      exact ⟨(h.there hSame).1, (h.there hSame).2.append more⟩
  have hAccounted
      {Q : List Str → List Str → Prop}
      {offset : Nat}
      (hWithin : offset ≤ (w.contentOf path).length)
      (h : Accounted Q w path offset) :
      Accounted Q w' path offset := by
    unfold Accounted at h ⊢
    rw [hGone, hContent, hShipped, hOrphaned,
      List.take_append_of_le_length hWithin]
    exact h
  constructor
  · intro m hLookup
    rw [hData] at hLookup
    exact hPlaced (hInv.data m hLookup)
  · intro m hLookup
    rw [hSaved] at hLookup
    exact hPlaced (hInv.saved m hLookup)
  · intro rest st hStage
    rw [hPass] at hStage
    exact (hInv.stage rest st hStage).grown hData hNumber hInode
      hContent hEnd.1
  · rw [hPosition]
    exact hAccounted hEnd.1 hInv.memory
  · rw [hSaved, hNumber]
    exact hAccounted (markAt_lineEnd hInv.saved).1 hInv.disk

theorem inodeOf_congr
    (hFiles : w'.files path = w.files path) :
    w'.inodeOf path = w.inodeOf path := by
  unfold Host.inodeOf
  rw [hFiles]

theorem contentOf_congr
    (hFiles : w'.files path = w.files path) :
    w'.contentOf path = w.contentOf path ++ [] := by
  unfold Host.contentOf
  rw [hFiles, List.append_nil]

theorem ShipInv.append
    {f : LogFile} {more : Bytes}
    (hInv : ShipInv R path w) (hFile : w.files p = some f) :
    ShipInv R path
      { w with
        files := Function.update w.files p
          (some { f with content := f.content ++ more }) } := by
  by_cases hSame : p = path
  · subst hSame
    have hNew :
        Host.files
          { w with
            files := Function.update w.files p
              (some { f with content := f.content ++ more }) } p =
          some { f with content := f.content ++ more } :=
      Function.update_self _ _ _
    have hContent := congrArg (· ++ more) (contentOf_file hFile)
    exact hInv.grown rfl rfl rfl rfl rfl rfl
      ((inodeOf_file hNew).trans (inodeOf_file hFile).symm)
      ((contentOf_file hNew).trans hContent.symm)
  · have hOld := Function.update_of_ne (Ne.symm hSame)
      (some { f with content := f.content ++ more }) w.files
    exact hInv.grown rfl rfl rfl rfl rfl rfl
      (inodeOf_congr hOld) (contentOf_congr hOld)

/- What is read of the file, with the batch in flight. -/
theorem ShipInv.reached
    (hAppend : ∀ a b c, R a b → R (a ++ c) (b ++ c))
    (hInv : ShipInv R path w) :
    LineEnd (w.contentOf path) (w.reached path) ∧
      R (w.gone path ++
          completeLines
            ((w.contentOf path).take (w.reached path)))
        (linesOf path w.shipped ++ w.inFlight path) := by
  have hMemory := hInv.memory
  have hEnd : LineEnd (w.contentOf path) (w.position path) :=
    markAt_lineEnd hInv.data
  unfold Accounted Host.orphaned at hMemory
  unfold Host.reached Host.inFlight
  split
  · rename_i q rest inode offset file lines hPass
    simp only [hPass] at hMemory ⊢
    by_cases hHead : q = path
    · subst hHead
      simp only [true_and, if_true] at hMemory ⊢
      have hBatch := hInv.stage rest _ hPass
      by_cases hSame : file = w.number q
      · rw [if_neg (fun h => h hSame), List.append_nil]
          at hMemory
        rw [if_pos hSame]
        refine ⟨(hBatch.2 hSame).2.1, ?_⟩
        rw [(hBatch.2 hSame).2.2, ← List.append_assoc]
        exact hAppend _ _ lines hMemory
      · rw [if_pos hSame] at hMemory
        rw [if_neg hSame]
        exact ⟨hEnd, hMemory⟩
    · simp only [hHead, false_and, if_false] at hMemory ⊢
      exact ⟨hEnd, hMemory⟩
  · rename_i hOther
    refine ⟨hEnd, ?_⟩
    split at hMemory
    · rename_i q rest inode offset file lines hPass
      exact absurd hPass (hOther q rest inode offset file lines)
    · exact hMemory

theorem orphaned_of_replaced
    (hInv : ShipInv R path w) (file : Option LogFile) :
    Host.orphaned
      { w with
        files := Function.update w.files path file
        number :=
          Function.update w.number path (w.number path + 1)
        gone := Function.update w.gone path
          (w.gone path ++ completeLines (w.contentOf path)) }
      path = w.inFlight path := by
  unfold Host.orphaned Host.inFlight
  simp only
  split
  · rename_i q rest inode offset n lines hPass
    by_cases hHead : q = path
    · subst hHead
      have hBatch := hInv.stage rest _ hPass
      have hOld := hBatch.1.1
      rw [if_pos rfl]
      apply if_pos
      rw [Function.update_self]
      exact ⟨rfl, by omega⟩
    · simp only [hHead, false_and, if_false]
  · rfl

/- The file of the path is replaced. -/
theorem ShipInv.replaceThis
    (hAppend : ∀ a b c, R a b → R (a ++ c) (b ++ c))
    (hSub : ∀ a b, R a b → List.Sublist a b)
    (hInv : ShipInv R path w) (file : Option LogFile)
    (hClean :
      completeLines
        ((w.contentOf path).drop (w.reached path)) = []) :
    ShipInv R path
      { w with
        files := Function.update w.files path file
        number :=
          Function.update w.number path (w.number path + 1)
        gone := Function.update w.gone path
          (w.gone path ++ completeLines (w.contentOf path)) } := by
  have hReached := hInv.reached hAppend
  have hAll := hReached.1.lines
  rw [hClean, List.append_nil] at hAll
  have hLines := hReached.2
  rw [← hAll] at hLines
  have hOrphaned := orphaned_of_replaced hInv file
  have hZero
      {data : List (Str × Mark)}
      (hPlaced :
        ∀ m, lookup path data = some m → Placed w path m) :
      markAt data path (w.number path + 1) = 0 := by
    apply markAt_of_ne
    intro m hLookup
    have hOld := (hPlaced m hLookup).old
    omega
  have hPlaced {m : Mark} (h : Placed w path m) :
      Placed
        { w with
          files := Function.update w.files path file
          number :=
            Function.update w.number path (w.number path + 1)
          gone := Function.update w.gone path
            (w.gone path ++ completeLines (w.contentOf path)) }
        path m := by
    have hOld := h.old
    constructor
    · simp only [Function.update_self]
      omega
    · simp only [Function.update_self]
      intro hSame
      omega
  constructor
  · intro m hLookup
    exact hPlaced (hInv.data m hLookup)
  · intro m hLookup
    exact hPlaced (hInv.saved m hLookup)
  · intro rest st hStage
    have hOk := hInv.stage rest st hStage
    cases st with
    | waiting => trivial
    | located offset n =>
        have hOld := hOk.1.1
        unfold StageOk NotLater
        simp only [Function.update_self]
        exact ⟨⟨by omega, hOk.1.2⟩, fun hSame => by omega⟩
    | sized inode start n =>
        have hOld := hOk.1.1
        unfold StageOk NotLater
        simp only [Function.update_self]
        exact ⟨⟨by omega, hOk.1.2⟩, fun hSame => by omega⟩
    | batch inode offset n lines =>
        have hOld := hOk.1.1
        unfold StageOk NotLater
        simp only [Function.update_self]
        exact ⟨⟨by omega, hOk.1.2⟩, fun hSame => by omega⟩
    | saving offset n full => exact hOk
  · unfold Accounted Host.position
    rw [hOrphaned]
    simp only [Function.update_self]
    rw [hZero hInv.data, List.take_zero]
    exact (List.append_nil _).symm ▸ hLines
  · unfold Accounted
    rw [hOrphaned]
    simp only [Function.update_self]
    rw [hZero hInv.saved, List.take_zero]
    exact (List.append_nil _).symm ▸ hSub _ _ hLines

theorem ShipInv.replace
    (hAppend : ∀ a b c, R a b → R (a ++ c) (b ++ c))
    (hSub : ∀ a b, R a b → List.Sublist a b)
    (hInv : ShipInv R path w) (file : Option LogFile)
    (hClean : p = path →
      completeLines
        ((w.contentOf path).drop (w.reached path)) = []) :
    ShipInv R path
      { w with
        files := Function.update w.files p file
        number := Function.update w.number p (w.number p + 1)
        gone := Function.update w.gone p
          (w.gone p ++ completeLines (w.contentOf p)) } := by
  by_cases hSame : p = path
  · subst hSame
    exact hInv.replaceThis hAppend hSub file (hClean rfl)
  · have hOther := Ne.symm hSame
    have hOld := Function.update_of_ne hOther file w.files
    exact hInv.grown rfl rfl rfl rfl
      (Function.update_of_ne hOther _ _)
      (Function.update_of_ne hOther _ _)
      (inodeOf_congr hOld) (contentOf_congr hOld)

theorem ShipInv.crash
    (hInv : ShipInv R path w) (hClean : w.orphaned path = []) :
    ShipInv List.Sublist path
      { w with data := w.saved, pass := none } := by
  have hDisk := hInv.disk
  unfold Accounted at hDisk
  rw [hClean] at hDisk
  constructor
  · intro m hLookup
    have hPlaced := hInv.saved m hLookup
    exact ⟨hPlaced.old, hPlaced.there⟩
  · intro m hLookup
    have hPlaced := hInv.saved m hLookup
    exact ⟨hPlaced.old, hPlaced.there⟩
  · intro rest st hStage
    cases hStage
  · exact hDisk
  · exact hDisk

end ThreatOrbit.Collector
