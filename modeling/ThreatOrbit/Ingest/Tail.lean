import ThreatOrbit.Lib.Run
import ThreatOrbit.Lib.Lines

/-
  The tail of a log directory.

  A poll goes over the files of the directory, reads each
  from its offset, and hands the lines of all of them over
  at its end. The size is asked for in one step, the file
  read in another, and files change in between.
-/

---- Polls

namespace ThreatOrbit.Ingest

open Lib

/- `MAX_FILE_READ`. -/
def maxFileRead : Nat :=
  8 * 1024 * 1024

/- The lines that are handed over of a text. -/
def fileLines (content : Bytes) : List Str :=
  nonBlankLines (readText content)

/- What `fh.read(MAX_FILE_READ)` gives after a seek. -/
def readChunk (content : Bytes) (start : Nat) : Str :=
  (readText (content.drop start)).take maxFileRead

/- A file that ends with a whole character, and not with a
carriage return that a line feed may follow. -/
def EndsWhole (content : Bytes) : Prop :=
  ∀ b, content.getLast? = some b →
    b.toNat < 0x80 ∧ b ≠ byte '\r'

/- The text layer over a file: the position that `fh.tell()`
reports after the read. It is opaque, and no byte offset
where a decoder holds bytes back, but for the end of a
file. -/
structure TextLayer where
  tell : Bytes → Nat → Nat
  tell_end :
    ∀ content start,
      start ≤ content.length →
      (readText (content.drop start)).length < maxFileRead →
      EndsWhole content →
      tell content start = content.length

/- A poll on its way: the files to come, the offset to read
the first of them from where its size was asked for, and the
lines so far, each with its file. -/
structure Scan where
  names : List Str
  sized : Option Nat
  lines : List (Str × Str)
deriving DecidableEq, Repr

/- The files of the directory, the offsets, the lines that
`ingest_lines` took, and the poll that runs. -/
structure Watcher where
  files : Str → Option Bytes
  offsets : List (Str × Nat)
  handed : List (Str × Str)
  scan : Option Scan

/- `offsets.get(path, 0)`. -/
def offsetOf (offsets : List (Str × Nat)) (path : Str) : Nat :=
  (lookup path offsets).getD 0

/- Where a file of a size is read from. -/
def startOf
    (offsets : List (Str × Nat))
    (path : Str)
    (size : Nat) : Nat :=
  let start := offsetOf offsets path
  if size < start then 0 else start

/- What a step does. -/
inductive TailEvent where
| written (path : Str) (content : Option Bytes)
| listed (names : List Str)
| skipped (path : Str)
| sized (path : Str)
| read (path : Str)
| ingested
| raised
deriving DecidableEq, Repr

/- The next state. A file is skipped where it has no new
bytes, is no file, or cannot be read; a poll without lines
hands nothing over; a poll whose `ingest_lines` raises is
logged and given up. -/
inductive TextLayer.Step
    (x : TextLayer) : Watcher → TailEvent → Watcher → Prop
| write
    (w : Watcher) (path : Str) (content : Option Bytes) :
    x.Step w (.written path content)
      { w with files := Function.update w.files path content }
| list
    (w : Watcher) (names : List Str)
    (hIdle : w.scan = none) :
    x.Step w (.listed names)
      { w with scan := some ⟨names, none, []⟩ }
| skip
    (w : Watcher) (p : Scan) (path : Str) (names : List Str)
    (hScan : w.scan = some p)
    (hNames : p.names = path :: names) :
    x.Step w (.skipped path)
      { w with
        scan := some { p with names := names, sized := none } }
| size
    (w : Watcher) (p : Scan) (path : Str) (names : List Str)
    (content : Bytes)
    (hScan : w.scan = some p)
    (hNames : p.names = path :: names)
    (hFirst : p.sized = none)
    (hFile : w.files path = some content)
    (hNew :
      content.length ≠ startOf w.offsets path content.length) :
    x.Step w (.sized path)
      { w with
        scan := some
          { p with
            sized :=
              some (startOf w.offsets path content.length) } }
| read
    (w : Watcher) (p : Scan) (path : Str) (names : List Str)
    (start : Nat) (content : Bytes)
    (hScan : w.scan = some p)
    (hNames : p.names = path :: names)
    (hSized : p.sized = some start)
    (hFile : w.files path = some content) :
    x.Step w (.read path)
      { w with
        offsets :=
          setEntry path (x.tell content start) w.offsets
        scan := some
          { names := names
            sized := none
            lines := p.lines ++
              (nonBlankLines (readChunk content start)).map
                fun line => (path, line) } }
| ingest
    (w : Watcher) (p : Scan)
    (hScan : w.scan = some p)
    (hDone : p.names = []) :
    x.Step w .ingested
      { w with handed := w.handed ++ p.lines, scan := none }
| raise
    (w : Watcher) (p : Scan)
    (hScan : w.scan = some p)
    (hDone : p.names = [])
    (hLines : p.lines ≠ []) :
    x.Step w .raised { w with scan := none }

/- Once no poll runs and the offset is at the end of the
file, its non-blank lines have been taken, each once and
whole. -/
def Tailed (path : Str) (w : Watcher) : Prop :=
  ∀ content, w.scan = none → w.files path = some content →
    offsetOf w.offsets path = content.length →
      linesOf path w.handed = fileLines content

/- The file only grows by appends. -/
def Grows
    (path : Str)
    (t : Transition Watcher TailEvent) : Prop :=
  ∀ content, t.label = .written path content →
    ∃ data,
      content = some ((t.pre.files path).getD [] ++ data)

/- The text that was read is that of the bytes up to the
position that was reported. -/
def TextLayer.Reports
    (x : TextLayer)
    (content : Bytes)
    (start : Nat) : Prop :=
  start ≤ x.tell content start ∧
    x.tell content start ≤ content.length ∧
    readChunk content start =
      readText
        ((content.drop start).take
          (x.tell content start - start))

/- A read of the file starts in no line, and the position
that is reported is where it stopped; no `ingest_lines`
raises on lines of the file. -/
def TextLayer.Clean
    (x : TextLayer)
    (path : Str)
    (t : Transition Watcher TailEvent) : Prop :=
  match t.label with
  | .read path' =>
      path' = path → ∀ p start content,
        t.pre.scan = some p → p.sized = some start →
        t.pre.files path = some content →
          LineCut (content.take start) (content.drop start) ∧
            x.Reports content start
  | .raised =>
      ∀ p, t.pre.scan = some p → linesOf path p.lines = []
  | _ => True

---- One Read

/- A read to the end of a file reports where it stopped. -/
theorem reports_of_end
    (x : TextLayer) {content : Bytes} {start : Nat}
    (hStart : start ≤ content.length)
    (hAll :
      (readText (content.drop start)).length < maxFileRead)
    (hEnd : EndsWhole content) :
    x.Reports content start := by
  have hTell := x.tell_end content start hStart hAll hEnd
  refine ⟨by rw [hTell]; exact hStart, le_of_eq hTell, ?_⟩
  have hRest :
      (content.drop start).take (content.length - start) =
        content.drop start :=
    List.take_of_length_le (by rw [List.length_drop])
  rw [hTell, hRest]
  exact List.take_of_length_le (le_of_lt hAll)

/- A part of what comes after a cut is cut from it as well. -/
theorem lineCut_take
    {before after : Bytes}
    (hCut : LineCut before after) (n : Nat) :
    LineCut before (after.take (n + 1)) := by
  rcases hCut with hNil | hLast | hHead | hHead
  · exact Or.inl hNil
  · exact Or.inr (Or.inl hLast)
  · exact Or.inr (Or.inr (Or.inl (by
      rw [List.head?_take, if_neg (Nat.succ_ne_zero n), hHead])))
  · exact Or.inr (Or.inr (Or.inr (by
      rw [List.head?_take, if_neg (Nat.succ_ne_zero n), hHead])))

/- The read takes the lines between the two offsets. -/
theorem fileLines_take
    {x : TextLayer} {content : Bytes} {start : Nat}
    (hCut : LineCut (content.take start) (content.drop start))
    (hReports : x.Reports content start) :
    fileLines (content.take (x.tell content start)) =
      fileLines (content.take start) ++
        nonBlankLines (readChunk content start) := by
  rcases hReports with ⟨hFrom, _, hChunk⟩
  rcases Nat.exists_eq_add_of_le hFrom with ⟨more, hMore⟩
  have hSplit :
      content.take (x.tell content start) =
        content.take start ++ (content.drop start).take more := by
    rw [hMore, List.take_add]
  have hLess : x.tell content start - start = more := by
    omega
  rw [hChunk, hSplit, hLess]
  cases more with
  | zero => simp [fileLines, readText, nonBlankLines,
      decodeReplace, decodeFrom, universalNewlines, splitLines]
  | succ more =>
      exact nonBlankLines_readText_append
        (lineCut_take hCut more)

theorem offsetOf_setEntry
    (offsets : List (Str × Nat)) (path path' : Str) (n : Nat) :
    offsetOf (setEntry path' n offsets) path =
      if path' = path then n else offsetOf offsets path := by
  unfold offsetOf
  rw [lookup_setEntry]
  split
  · rfl
  · rfl

---- The Invariant

/- The lines of a poll on its way. -/
def Watcher.inFlight (w : Watcher) : List (Str × Str) :=
  match w.scan with
  | some p => p.lines
  | none => []

/- What is there of a file. -/
def Watcher.contentOf (w : Watcher) (path : Str) : Bytes :=
  (w.files path).getD []

structure TailInv (path : Str) (w : Watcher) : Prop where
  within :
    offsetOf w.offsets path ≤ (w.contentOf path).length
  taken :
    linesOf path (w.handed ++ w.inFlight) =
      fileLines
        ((w.contentOf path).take (offsetOf w.offsets path))
  sized :
    ∀ p start, w.scan = some p → p.sized = some start →
      p.names.head? = some path →
        start = offsetOf w.offsets path

theorem TailInv.tailed
    {path : Str} {w : Watcher}
    (hInv : TailInv path w) :
    Tailed path w := by
  intro content hIdle hFile hEnd
  have hTaken := hInv.taken
  simp only [Watcher.inFlight, hIdle, List.append_nil,
    Watcher.contentOf, hFile, Option.getD_some, hEnd,
    List.take_length] at hTaken
  exact hTaken

theorem TailInv.write
    {path path' : Str} {w : Watcher} {content : Option Bytes}
    (hInv : TailInv path w)
    (hGrows : path' = path →
      ∃ data, content = some (w.contentOf path ++ data)) :
    TailInv path
      { w with files := Function.update w.files path' content } := by
  by_cases hSame : path' = path
  · rcases hGrows hSame with ⟨data, hData⟩
    have hContent :
        Watcher.contentOf
          { w with
            files := Function.update w.files path' content } path =
          w.contentOf path ++ data := by
      simp [Watcher.contentOf, hSame, hData]
    constructor
    · rw [hContent, List.length_append]
      exact Nat.le_add_right_of_le hInv.within
    · rw [hContent, List.take_append_of_le_length hInv.within]
      exact hInv.taken
    · exact hInv.sized
  · have hContent :
        Watcher.contentOf
          { w with
            files := Function.update w.files path' content } path =
          w.contentOf path := by
      unfold Watcher.contentOf
      simp only
      rw [Function.update_of_ne (Ne.symm hSame)]
    constructor
    · rw [hContent]
      exact hInv.within
    · rw [hContent]
      exact hInv.taken
    · exact hInv.sized

/- A step that leaves the files, the offsets and the lines as
they are. -/
theorem TailInv.of_same
    {path : Str} {w w' : Watcher}
    (hInv : TailInv path w) (hFiles : w'.files = w.files)
    (hOffsets : w'.offsets = w.offsets)
    (hLines :
      linesOf path (w'.handed ++ w'.inFlight) =
        linesOf path (w.handed ++ w.inFlight))
    (hSized :
      ∀ p start, w'.scan = some p → p.sized = some start →
        p.names.head? = some path →
          start = offsetOf w.offsets path) :
    TailInv path w' := by
  have hContent : w'.contentOf path = w.contentOf path := by
    unfold Watcher.contentOf
    rw [hFiles]
  constructor
  · rw [hContent, hOffsets]
    exact hInv.within
  · rw [hContent, hOffsets, hLines]
    exact hInv.taken
  · rw [hOffsets]
    exact hSized

theorem TailInv.size
    {path path' : Str} {w : Watcher} {p : Scan} {names : List Str}
    {content : Bytes}
    (hInv : TailInv path w) (hScan : w.scan = some p)
    (hNames : p.names = path' :: names)
    (hFile : w.files path' = some content) :
    TailInv path
      { w with
        scan := some
          { p with
            sized :=
              some (startOf w.offsets path' content.length) } } := by
  apply hInv.of_same
  · rfl
  · rfl
  · simp only [Watcher.inFlight, hScan]
  · intro p' start hScan' hSized hHead
    cases hScan'
    rw [hNames, List.head?_cons, Option.some.injEq] at hHead
    rw [Option.some.injEq] at hSized
    have hWithin := hInv.within
    simp only [Watcher.contentOf, ← hHead, hFile,
      Option.getD_some] at hWithin
    rw [← hSized, ← hHead]
    exact if_neg (not_lt_of_ge hWithin)

theorem TailInv.read
    {x : TextLayer} {path path' : Str} {w : Watcher} {p : Scan}
    {names : List Str} {start : Nat} {content : Bytes}
    (hInv : TailInv path w) (hScan : w.scan = some p)
    (hNames : p.names = path' :: names)
    (hSized : p.sized = some start)
    (hFile : w.files path' = some content)
    (hClean : path' = path →
      LineCut (content.take start) (content.drop start) ∧
        x.Reports content start) :
    TailInv path
      { w with
        offsets :=
          setEntry path' (x.tell content start) w.offsets
        scan := some
          { names := names
            sized := none
            lines := p.lines ++
              (nonBlankLines (readChunk content start)).map
                fun line => (path', line) } } := by
  have hBefore := hInv.taken
  simp only [Watcher.inFlight, hScan] at hBefore
  constructor
  · simp only [offsetOf_setEntry]
    split
    · rename_i hSame
      have hLe := (hClean hSame).2.2.1
      simp only [Watcher.contentOf, ← hSame, hFile,
        Option.getD_some]
      exact hLe
    · exact hInv.within
  · simp only [Watcher.inFlight, offsetOf_setEntry]
    rw [← List.append_assoc, linesOf_append, hBefore,
      linesOf_tagged]
    split
    · rename_i hSame
      have hStart : start = offsetOf w.offsets path := by
        apply hInv.sized p start hScan hSized
        rw [hNames, hSame, List.head?_cons]
      have hContent : w.contentOf path = content := by
        simp only [Watcher.contentOf, ← hSame, hFile,
          Option.getD_some]
      have hTake :=
        fileLines_take (hClean hSame).1 (hClean hSame).2
      rw [← hStart, hContent, ← hTake]
      exact congrArg
        (fun c => fileLines (List.take (x.tell content start) c))
        hContent.symm
    · exact List.append_nil _
  · intro p' start' hScan' hSized'
    cases hScan'
    cases hSized'

theorem TailInv.step
    {x : TextLayer} {path : Str} {w w' : Watcher} {e : TailEvent}
    (hInv : TailInv path w) (hStep : x.Step w e w')
    (hGrows : Grows path ⟨w, e, w'⟩)
    (hClean : x.Clean path ⟨w, e, w'⟩) :
    TailInv path w' := by
  cases hStep with
  | write path' content =>
      apply hInv.write
      intro hSame
      exact hGrows content (by rw [hSame])
  | list names hIdle =>
      apply hInv.of_same
      · rfl
      · rfl
      · simp only [Watcher.inFlight, hIdle]
      · intro p start hScan hSized
        cases hScan
        cases hSized
  | skip p path' names hScan hNames =>
      apply hInv.of_same
      · rfl
      · rfl
      · simp only [Watcher.inFlight, hScan]
      · intro p' start hScan' hSized
        cases hScan'
        cases hSized
  | size p path' names content hScan hNames hFirst hFile hNew =>
      exact hInv.size hScan hNames hFile
  | read p path' names start content hScan hNames hSized hFile =>
      apply hInv.read hScan hNames hSized hFile
      intro hSame
      exact hClean hSame p start content hScan hSized
        (hSame ▸ hFile)
  | ingest p hScan hDone =>
      apply hInv.of_same
      · rfl
      · rfl
      · simp only [Watcher.inFlight, hScan, List.append_nil]
      · intro p' start hScan'
        cases hScan'
  | raise p hScan hDone hLines =>
      apply hInv.of_same
      · rfl
      · rfl
      · have hNone : linesOf path p.lines = [] :=
          hClean p hScan
        simp only [Watcher.inFlight, hScan, List.append_nil,
          linesOf_append, hNone]
      · intro p' start hScan'
        cases hScan'

---- Runs Of The Watcher

/- Nothing of the file has been read yet. -/
structure Watcher.Unread (w : Watcher) (path : Str) : Prop where
  offset : lookup path w.offsets = none
  handed : w.handed = []
  scan : w.scan = none

theorem Watcher.Unread.inv
    {w : Watcher} {path : Str}
    (hUnread : w.Unread path) :
    TailInv path w := by
  have hOffset : offsetOf w.offsets path = 0 := by
    unfold offsetOf
    rw [hUnread.offset]
    rfl
  constructor
  · rw [hOffset]
    exact Nat.zero_le _
  · simp only [hOffset, hUnread.handed, Watcher.inFlight,
      hUnread.scan]
    rfl
  · intro p start hScan
    rw [hUnread.scan] at hScan
    cases hScan

/- In a run over a file that only grows, in which each read
of it is clean, its lines are taken each once and whole
whenever it is drained. -/
theorem tailed_exactly
    (x : TextLayer)
    (path : Str)
    {w w' : Watcher}
    {trace : List (Transition Watcher TailEvent)}
    (hUnread : w.Unread path)
    (hRun : Run x.Step w trace w')
    (hGrows : ∀ t ∈ trace, Grows path t)
    (hClean : ∀ t ∈ trace, x.Clean path t) :
    ∀ t ∈ trace, Tailed path t.post := by
  have hInv := hUnread.inv
  clear hUnread
  induction hRun with
  | nil w => simp
  | cons hStep _ ih =>
      rw [List.forall_mem_cons] at hGrows hClean ⊢
      have hNext := hInv.step hStep hGrows.1 hClean.1
      exact ⟨hNext.tailed, ih hGrows.2 hClean.2 hNext⟩

---- One File

/- A text layer that reads to the end of a file. -/
def wholeText : TextLayer :=
  ⟨fun content _ => content.length, fun _ _ _ _ _ => rfl⟩

def tailFile : Str :=
  lit "app.log"

/- A directory with one file. -/
def oneFile (content : Bytes) : Str → Option Bytes :=
  Function.update (fun _ => none) tailFile (some content)

/- The watcher between polls. -/
def watcherOver
    (content : Bytes)
    (offsets : List (Str × Nat))
    (handed : List (Str × Str)) : Watcher :=
  ⟨oneFile content, offsets, handed, none⟩

/- The lines a poll reads of the file. -/
def polledLines
    (content : Bytes)
    (start : Nat) : List (Str × Str) :=
  (nonBlankLines (readChunk content start)).map
    fun line => (tailFile, line)

/- The states of a poll of the file, and the steps up to its
hand-over. -/
def scanning
    (w : Watcher)
    (p : Scan) : Watcher :=
  { w with scan := some p }

def scanned
    (content : Bytes)
    (offsets : List (Str × Nat))
    (handed : List (Str × Str)) : Watcher :=
  { watcherOver content
      (setEntry tailFile content.length offsets) handed with
    scan := some
      ⟨[], none, polledLines content
        (startOf offsets tailFile content.length)⟩ }

def scanTrace
    (content : Bytes)
    (offsets : List (Str × Nat))
    (handed : List (Str × Str)) :
    List (Transition Watcher TailEvent) :=
  let w := watcherOver content offsets handed
  let start := startOf offsets tailFile content.length
  [⟨w, .listed [tailFile], scanning w ⟨[tailFile], none, []⟩⟩,
    ⟨scanning w ⟨[tailFile], none, []⟩, .sized tailFile,
      scanning w ⟨[tailFile], some start, []⟩⟩,
    ⟨scanning w ⟨[tailFile], some start, []⟩, .read tailFile,
      scanned content offsets handed⟩]

theorem oneFile_file (content : Bytes) :
    oneFile content tailFile = some content :=
  Function.update_self _ _ _

theorem scan_run
    {content : Bytes} {offsets : List (Str × Nat)}
    (handed : List (Str × Str))
    (hNew :
      content.length ≠
        startOf offsets tailFile content.length) :
    Run wholeText.Step (watcherOver content offsets handed)
      (scanTrace content offsets handed)
      (scanned content offsets handed) :=
  .cons (.list _ [tailFile] rfl)
    (.cons
      (.size _ ⟨[tailFile], none, []⟩ tailFile [] content rfl rfl
        rfl (oneFile_file content) hNew)
      (.cons
        (.read _
          ⟨[tailFile],
            some (startOf offsets tailFile content.length), []⟩
          tailFile [] _ content rfl rfl rfl
          (oneFile_file content))
        (.nil _)))

theorem scan_grows
    (content : Bytes) (offsets : List (Str × Nat))
    (handed : List (Str × Str)) :
    ∀ t ∈ scanTrace content offsets handed, Grows tailFile t := by
  intro t hT content' hLabel
  simp only [scanTrace, List.mem_cons, List.not_mem_nil,
    or_false] at hT
  rcases hT with hT | hT | hT
  all_goals
    rw [hT] at hLabel
    cases hLabel

/- The poll hands its lines over. -/
theorem ingest_scan
    (content : Bytes) (offsets : List (Str × Nat))
    (handed : List (Str × Str)) :
    wholeText.Step (scanned content offsets handed) .ingested
      (watcherOver content
        (setEntry tailFile content.length offsets)
        (handed ++
          polledLines content
            (startOf offsets tailFile content.length))) :=
  TextLayer.Step.ingest (scanned content offsets handed) _ rfl
    rfl

/- The file grows. -/
theorem write_step
    (content more : Bytes) (offsets : List (Str × Nat))
    (handed : List (Str × Str)) :
    wholeText.Step (watcherOver content offsets handed)
      (.written tailFile (some (content ++ more)))
      (watcherOver (content ++ more) offsets handed) := by
  have hStep :=
    @TextLayer.Step.write wholeText
      (watcherOver content offsets handed) tailFile
      (some (content ++ more))
  simp only [watcherOver, oneFile, Function.update_idem] at hStep
  exact hStep

theorem write_grows
    (content more : Bytes) (offsets : List (Str × Nat))
    (handed : List (Str × Str)) :
    Grows tailFile
      ⟨watcherOver content offsets handed,
        .written tailFile (some (content ++ more)),
        watcherOver (content ++ more) offsets handed⟩ := by
  intro content' hLabel
  cases hLabel
  refine ⟨more, ?_⟩
  simp only [watcherOver, oneFile_file, Option.getD_some]

def wholeLine : Bytes :=
  asciiBytes (lit "ok\n")

theorem whole_line_tailed :
    Tailed tailFile
      (watcherOver wholeLine [(tailFile, 3)]
        [(tailFile, lit "ok")]) := by
  have hRun :
      Run wholeText.Step (watcherOver wholeLine [] [])
        (scanTrace wholeLine [] [] ++
          [⟨scanned wholeLine [] [], .ingested,
            watcherOver wholeLine [(tailFile, 3)]
              [(tailFile, lit "ok")]⟩])
        (watcherOver wholeLine [(tailFile, 3)]
          [(tailFile, lit "ok")]) :=
    (scan_run [] (by decide)).append
      (.cons (ingest_scan wholeLine [] []) (.nil _))
  refine tailed_exactly wholeText tailFile ⟨rfl, rfl, rfl⟩ hRun
    ?_ ?_ _
    (List.mem_append_right _ (List.mem_singleton_self _))
  · intro t hT
    rcases List.mem_append.mp hT with hScan | hLast
    · exact scan_grows wholeLine [] [] t hScan
    · rw [List.mem_singleton.mp hLast]
      intro content hLabel
      cases hLabel
  · intro t hT
    rcases List.mem_append.mp hT with hScan | hLast
    · simp only [scanTrace, List.mem_cons, List.not_mem_nil,
        or_false] at hScan
      rcases hScan with hT | hT | hT
      · rw [hT]
        trivial
      · rw [hT]
        trivial
      · rw [hT]
        intro _ p start content hP hSized hFile
        cases hP
        cases hSized
        cases (oneFile_file wholeLine).symm.trans hFile
        refine ⟨Or.inl rfl, reports_of_end wholeText ?_ ?_ ?_⟩
        · decide
        · decide
        · intro b hB
          cases hB
          decide
    · rw [List.mem_singleton.mp hLast]
      trivial

/- A whole poll of the file, with its hand-over. -/
theorem poll_run
    {content : Bytes} {offsets : List (Str × Nat)}
    (handed : List (Str × Str))
    (hNew :
      content.length ≠
        startOf offsets tailFile content.length) :
    ∃ trace,
      Run wholeText.Step (watcherOver content offsets handed)
        trace
        (watcherOver content
          (setEntry tailFile content.length offsets)
          (handed ++
            polledLines content
              (startOf offsets tailFile content.length))) ∧
      ∀ t ∈ trace, Grows tailFile t := by
  refine ⟨_, (scan_run handed hNew).append
    (.cons (ingest_scan content offsets handed) (.nil _)), ?_⟩
  intro t hT
  rcases List.mem_append.mp hT with hScan | hLast
  · exact scan_grows content offsets handed t hScan
  · rw [List.mem_singleton.mp hLast]
    intro content' hLabel
    cases hLabel

/- A line that is written in two parts, with a poll between
them, is handed over in two. -/
theorem partial_line_split :
    ∃ trace w,
      Run wholeText.Step
        (watcherOver (asciiBytes (lit "fai")) [] []) trace w ∧
      (∀ t ∈ trace, Grows tailFile t) ∧
      ¬ Tailed tailFile w := by
  have hFirst : (asciiBytes (lit "fai")).length ≠
      startOf [] tailFile (asciiBytes (lit "fai")).length := by
    decide
  rcases poll_run [] hFirst with ⟨first, hRun, hGrows⟩
  have hWrite :=
    write_step (asciiBytes (lit "fai")) (asciiBytes (lit "led\n"))
      [(tailFile, 3)] [(tailFile, lit "fai")]
  have hMore :
      (asciiBytes (lit "failed\n")).length ≠
        startOf [(tailFile, 3)] tailFile
          (asciiBytes (lit "failed\n")).length := by
    decide
  rcases poll_run [(tailFile, lit "fai")] hMore with
    ⟨second, hRun', hGrows'⟩
  refine ⟨_, _, hRun.append (.cons hWrite hRun'), ?_, ?_⟩
  · intro t hT
    rcases List.mem_append.mp hT with hOld | hNew
    · exact hGrows t hOld
    rcases List.mem_cons.mp hNew with hGrown | hLast
    · rw [hGrown]
      exact write_grows _ _ _ _
    · exact hGrows' t hLast
  · intro hTailed
    have hLines :=
      hTailed (asciiBytes (lit "failed\n")) rfl
        (oneFile_file _) (by decide)
    revert hLines
    decide

end ThreatOrbit.Ingest
