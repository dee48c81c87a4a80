import ThreatOrbit.Collector.Agent

/-
  What the collector delivers.

  A run keeps account of the lines, and a pass that nothing
  disturbs leaves no complete line of a file behind.
-/

---- Runs Of The Agent

namespace ThreatOrbit.Collector

open Lib

section

variable {a : Agent}
variable {R : List Str → List Str → Prop}
variable {path : Str}
variable {w w' : Host}

theorem ShipInv.step
    {e : HostEvent}
    (hAppend : ∀ a b c, R a b → R (a ++ c) (b ++ c))
    (hSub : ∀ a b, R a b → List.Sublist a b)
    (hInv : ShipInv R path w) (hStep : a.Step w e w')
    (hClean : Clean path ⟨w, e, w'⟩)
    (hCrash : e = .crashed → R = List.Sublist) :
    ShipInv R path w' := by
  cases hStep with
  | append p f more hFile => exact hInv.append hFile
  | replace p file =>
      exact hInv.replace hAppend hSub file hClean
  | start paths hIdle =>
      apply hInv.of_pass
      · unfold Host.orphaned
        rw [hIdle]
        cases paths with
        | nil => rfl
        | cons p rest => rfl
      · intro rest st hStage
        cases hStage
        trivial
  | look p rest f hPass hFile => exact hInv.look hPass hFile
  | size p rest f offset file hPass hFile =>
      apply hInv.size hPass hFile
      intro hSame
      exact hClean hSame rest offset file (hSame ▸ hPass)
  | read p rest f inode start file hPass hFile =>
      apply hInv.read hPass hFile
      intro hSame
      exact hClean hSame rest inode start file (hSame ▸ hPass)
  | ship p rest inode offset file lines hPass =>
      exact hInv.ship hAppend hPass
  | save p rest offset file full hPass =>
      exact hInv.save hSub hPass
  | fail p rest st hPass => exact hInv.fail hPass hClean
  | finish st hPass =>
      apply hInv.of_pass
      · unfold Host.orphaned
        rw [hPass]
      · intro rest st' hStage
        cases hStage
  | crash =>
      rw [hCrash rfl]
      exact hInv.crash hClean

theorem ShipInv.run
    {trace : List (Transition Host HostEvent)}
    (hAppend : ∀ a b c, R a b → R (a ++ c) (b ++ c))
    (hSub : ∀ a b, R a b → List.Sublist a b)
    (hInv : ShipInv R path w) (hRun : Run a.Step w trace w')
    (hClean : ∀ t ∈ trace, Clean path t)
    (hCrash :
      ∀ t ∈ trace, t.label = .crashed → R = List.Sublist) :
    ShipInv R path w' := by
  induction hRun with
  | nil w => exact hInv
  | cons hStep _ ih =>
      rw [List.forall_mem_cons] at hClean hCrash
      exact ih
        (hInv.step hAppend hSub hStep hClean.1 hCrash.1)
        hClean.2 hCrash.2

/- A step of the pass itself that goes well. -/
def HostEvent.Undisturbed : HostEvent → Prop
| .appended _ _ => False
| .replaced _ _ => False
| .failed => False
| .crashed => False
| _ => True

/- No complete line of the file is beyond the checkpoint. -/
def CaughtUp (path : Str) (w : Host) : Prop :=
  completeLines
    ((w.contentOf path).drop (w.position path)) = []

/- A batch that is not full is the last of its file. -/
def LastBatch (a : Agent) (path : Str) (w : Host) : Stage → Prop
| .batch _ offset file lines =>
    lines.length < a.batch →
      completeLines ((w.contentOf path).drop offset) = [] ∧
        file = w.number path
| .saving offset file full =>
    full = false →
      completeLines ((w.contentOf path).drop offset) = [] ∧
        file = w.number path
| _ => True

/- The path is to come, or the pass is done with it. -/
structure OnItsWay
    (a : Agent)
    (path : Str)
    (w : Host) : Prop where
  idle : w.pass = none → CaughtUp path w
  paths :
    ∀ q, w.pass = some q → path ∈ q.paths ∨ CaughtUp path w
  last :
    ∀ rest st, w.pass = some ⟨path :: rest, st⟩ →
      LastBatch a path w st

/- A read without lines has nothing before it. -/
theorem caughtUp_of_read
    {p : Str} {rest : List Str} {f : LogFile}
    {inode start file : Nat}
    (hInv : ShipInv R path w)
    (hPass : w.pass = some ⟨p :: rest, .sized inode start file⟩)
    (hFile : w.files p = some f)
    (hClean : p = path →
      file = w.number path ∨
        start = 0 ∧ w.inodeOf path = some inode)
    (hNone : (readNewLines a.batch f.content start).1 = [])
    (hHead : p = path) :
    CaughtUp path w := by
  subst hHead
  have hEnd : LineEnd (w.contentOf p) (w.position p) :=
    markAt_lineEnd hInv.data
  have hStart := (hInv.start_of_sized hPass (hClean rfl)).1
  rcases readNewLines_spec a.batch hEnd with ⟨hNew, hTake, hLeft⟩
  rw [contentOf_file hFile, ← hStart, hNone] at hLeft hTake
  rw [contentOf_file hFile, ← hStart] at hNew
  have hRest := hLeft a.pos
  have hBoth := hEnd.lines.symm.trans
    ((congrArg completeLines (contentOf_file hFile)).trans
      hNew.lines)
  rw [hTake, hRest, contentOf_file hFile, ← hStart] at hBoth
  unfold CaughtUp
  rw [contentOf_file hFile, ← hStart]
  simpa using hBoth

/- The invariant of a pass under way, from the paths it has
left and its stage. -/
theorem OnItsWay.of_pass
    {paths : List Str} {st : Stage}
    (hPass : w.pass = some ⟨paths, st⟩)
    (hPaths : path ∈ paths ∨ CaughtUp path w)
    (hLast : ∀ rest, paths = path :: rest →
      LastBatch a path w st) :
    OnItsWay a path w where
  idle hIdle := by
    rw [hPass] at hIdle
    cases hIdle
  paths q hQ := by
    rw [hPass] at hQ
    cases hQ
    exact hPaths
  last rest st' hStage := by
    rw [hPass] at hStage
    cases hStage
    exact hLast rest rfl

theorem OnItsWay.step
    {e : HostEvent}
    (hWay : OnItsWay a path w) (hInv : ShipInv R path w)
    (hStep : a.Step w e w') (hClean : Clean path ⟨w, e, w'⟩)
    (hGood : e.Undisturbed) :
    OnItsWay a path w' := by
  cases hStep with
  | append p f more hFile => exact absurd hGood id
  | replace p file => exact absurd hGood id
  | fail p rest st hPass => exact absurd hGood id
  | crash => exact absurd hGood id
  | start paths hIdle =>
      refine ⟨fun _ => hWay.idle hIdle, ?_, ?_⟩
      · intro q _
        exact Or.inr (hWay.idle hIdle)
      · intro rest st hStage
        cases hStage
        trivial
  | look p rest f hPass hFile =>
      have hOld := hWay.paths _ hPass
      exact .of_pass rfl hOld fun _ _ => trivial
  | size p rest f offset file hPass hFile =>
      have hOld := hWay.paths _ hPass
      exact .of_pass rfl hOld fun _ _ => trivial
  | read p rest f inode start file hPass hFile =>
      have hOld := hWay.paths _ hPass
      have hRead : p = path →
          file = w.number path ∨
            start = 0 ∧ w.inodeOf path = some inode := by
        intro hSame
        exact hClean hSame rest inode start file (hSame ▸ hPass)
      by_cases hNone :
          (readNewLines a.batch f.content start).1 = []
      · simp only [hNone, if_true]
        refine .of_pass rfl ?_ fun _ _ => trivial
        rcases hOld with hIn | hDone
        · rcases List.mem_cons.mp hIn with hHead | hLater
          · have hUp :=
              caughtUp_of_read hInv hPass hFile hRead hNone
                hHead.symm
            exact Or.inr hUp
          · exact Or.inl hLater
        · exact Or.inr hDone
      · simp only [hNone, if_false]
        refine .of_pass rfl hOld ?_
        intro rest' hPaths
        cases hPaths
        intro hRoom
        refine ⟨?_, rfl⟩
        have hEnd : LineEnd (w.contentOf path)
            (w.position path) :=
          markAt_lineEnd hInv.data
        have hStart :=
          (hInv.start_of_sized hPass (hRead rfl)).1
        have hLeft := (readNewLines_spec a.batch hEnd).2.2
        rw [contentOf_file hFile, ← hStart] at hLeft
        have hRest := hLeft hRoom
        rw [← congrArg (List.drop _) (contentOf_file hFile)]
          at hRest
        exact hRest
  | ship p rest inode offset file lines hPass =>
      refine .of_pass rfl ?_ ?_
      · by_cases hHead : p = path
        · exact Or.inl (hHead ▸ List.mem_cons_self)
        · rcases hWay.paths _ hPass with hIn | hDone
          · exact Or.inl hIn
          · right
            unfold CaughtUp Host.position markAt at hDone ⊢
            simp only [lookup_setEntry, if_neg hHead]
            exact hDone
      · intro rest' hPaths
        cases hPaths
        intro hFull
        apply hWay.last rest _ hPass
        exact not_le.mp (of_decide_eq_false hFull)
  | save p rest offset file full hPass =>
      have hOld := hWay.paths _ hPass
      cases full with
      | true => exact .of_pass rfl hOld fun _ _ => trivial
      | false =>
          refine .of_pass rfl ?_ fun _ _ => trivial
          rcases hOld with hIn | hDone
          · rcases List.mem_cons.mp hIn with hHead | hLater
            · subst hHead
              right
              have hLast := hWay.last rest _ hPass rfl
              rcases hInv.stage rest _ hPass with
                ⟨inode, hLookup⟩
              have hMark := markAt_some hLookup
              simp only [hLast.2] at hMark
              unfold CaughtUp Host.position
              simp only [hMark]
              exact hLast.1
            · exact Or.inl hLater
          · exact Or.inr hDone
  | finish st hPass =>
      refine ⟨fun _ => ?_, by simp, by simp⟩
      rcases hWay.paths _ hPass with hIn | hDone
      · cases hIn
      · exact hDone

theorem OnItsWay.run
    {trace : List (Transition Host HostEvent)}
    (hAppend : ∀ a b c, R a b → R (a ++ c) (b ++ c))
    (hSub : ∀ a b, R a b → List.Sublist a b)
    (hWay : OnItsWay a path w) (hInv : ShipInv R path w)
    (hRun : Run a.Step w trace w')
    (hClean : ∀ t ∈ trace, Clean path t)
    (hGood : ∀ t ∈ trace, t.label.Undisturbed) :
    OnItsWay a path w' ∧ ShipInv R path w' := by
  induction hRun with
  | nil w => exact ⟨hWay, hInv⟩
  | cons hStep _ ih =>
      rw [List.forall_mem_cons] at hClean hGood
      have hNext := hWay.step hInv hStep hClean.1 hGood.1
      have hKept :=
        hInv.step hAppend hSub hStep hClean.1 fun hCrash => by
          have hBad := hGood.1
          rw [hCrash] at hBad
          exact absurd hBad id
      exact ih hNext hKept hClean.2 hGood.2

end

---- Delivery

/- The complete lines ever written to a path. -/
def Host.written (w : Host) (path : Str) : List Str :=
  w.gone path ++ completeLines (w.contentOf path)

/- Nothing of the path has been read. -/
structure Host.Fresh (w : Host) (path : Str) : Prop where
  data : lookup path w.data = none
  saved : lookup path w.saved = none
  gone : w.gone path = []
  shipped : w.shipped = []
  pass : w.pass = none

theorem Host.Fresh.inv
    {R : List Str → List Str → Prop} {w : Host} {path : Str}
    (hRefl : R [] []) (hFresh : w.Fresh path) :
    ShipInv R path w := by
  have hOrphaned : w.orphaned path = [] := by
    unfold Host.orphaned
    rw [hFresh.pass]
  constructor
  · intro m hLookup
    rw [hFresh.data] at hLookup
    cases hLookup
  · intro m hLookup
    rw [hFresh.saved] at hLookup
    cases hLookup
  · intro rest st hPass
    rw [hFresh.pass] at hPass
    cases hPass
  · unfold Accounted Host.position markAt
    rw [hOrphaned, hFresh.data, hFresh.gone, hFresh.shipped]
    exact hRefl
  · unfold Accounted markAt
    rw [hOrphaned, hFresh.saved, hFresh.gone, hFresh.shipped]
    exact List.Sublist.refl _

/- What a whole undisturbed pass leaves. -/
theorem delivered
    {R : List Str → List Str → Prop} {a : Agent} {path : Str}
    {w w' w'' : Host} {paths : List Str}
    {pass : List (Transition Host HostEvent)}
    (hAppend : ∀ a b c, R a b → R (a ++ c) (b ++ c))
    (hSub : ∀ a b, R a b → List.Sublist a b)
    (hInv : ShipInv R path w)
    (hStart : a.Step w (.started paths) w')
    (hListed : (w.files path).isSome → path ∈ paths)
    (hPass : Run a.Step w' pass w'')
    (hGood : ∀ t ∈ pass, t.label.Undisturbed)
    (hEnd : w''.pass = none) (hClean : ∀ t ∈ pass, Clean path t) :
    R (w''.written path) (linesOf path w''.shipped) := by
  have hNext : ShipInv R path w' :=
    hInv.step hAppend hSub hStart trivial (by simp)
  have hWay : OnItsWay a path w' := by
    cases hStart with
    | start _ hIdle =>
        refine ⟨by simp, ?_, ?_⟩
        · intro q hQ
          cases hQ
          cases hFile : w.files path with
          | none =>
              right
              unfold CaughtUp Host.contentOf
              simp only [hFile, List.drop_nil]
              rfl
          | some f =>
              rw [hFile] at hListed
              exact Or.inl (hListed rfl)
        · intro rest st hStage
          cases hStage
          trivial
  rcases hWay.run hAppend hSub hNext hPass hClean hGood with
    ⟨hDone, hLast⟩
  have hUp := hDone.idle hEnd
  have hLines : LineEnd (w''.contentOf path)
      (w''.position path) :=
    markAt_lineEnd hLast.data
  have hAll := hLines.lines
  unfold CaughtUp at hUp
  rw [hUp, List.append_nil] at hAll
  have hMemory := hLast.memory
  unfold Accounted Host.orphaned at hMemory
  rw [← hAll, hEnd, List.append_nil] at hMemory
  exact hMemory

/- After a clean run and an undisturbed pass over the files
that there are, every complete line ever written to a path
has been shipped, in order; and only once, if no process
crashed. -/
theorem shipped_at_least_once
    (a : Agent)
    (path : Str)
    {w₀ w₁ w₂ w₃ : Host}
    {paths : List Str}
    {before pass : List (Transition Host HostEvent)}
    (hFresh : w₀.Fresh path)
    (hBefore : Run a.Step w₀ before w₁)
    (hStart : a.Step w₁ (.started paths) w₂)
    (hListed : (w₁.files path).isSome → path ∈ paths)
    (hPass : Run a.Step w₂ pass w₃)
    (hUndisturbed : ∀ t ∈ pass, t.label.Undisturbed)
    (hEnd : w₃.pass = none)
    (hClean : ∀ t ∈ before ++ pass, Clean path t) :
    (w₃.written path).Sublist (linesOf path w₃.shipped) ∧
      ((∀ t ∈ before, t.label ≠ .crashed) →
        w₃.written path = linesOf path w₃.shipped) := by
  have hFirst : ∀ t ∈ before, Clean path t :=
    fun t hT => hClean t (List.mem_append_left _ hT)
  have hSecond : ∀ t ∈ pass, Clean path t :=
    fun t hT => hClean t (List.mem_append_right _ hT)
  constructor
  · have hInv : ShipInv List.Sublist path w₁ :=
      (hFresh.inv (List.Sublist.refl _)).run
        (fun _ _ c h => h.append_right c) (fun _ _ h => h)
        hBefore hFirst (fun _ _ _ => rfl)
    exact delivered (fun _ _ c h => h.append_right c)
      (fun _ _ h => h) hInv hStart hListed hPass hUndisturbed
      hEnd hSecond
  · intro hNoCrash
    have hInv : ShipInv Eq path w₁ :=
      (hFresh.inv rfl).run (fun _ _ c h => congrArg (· ++ c) h)
        (fun _ _ h => h ▸ List.Sublist.refl _) hBefore hFirst
        (fun t hT hCrash => absurd hCrash (hNoCrash t hT))
    exact delivered (fun _ _ c h => congrArg (· ++ c) h)
      (fun _ _ h => h ▸ List.Sublist.refl _) hInv hStart hListed
      hPass hUndisturbed hEnd hSecond

---- One Log

def logPath : Str :=
  lit "/var/log/app.log"

def defaultAgent : Agent :=
  ⟨500, by decide⟩

/- A host with one log, and what the agent knows of it. -/
def hostWith
    (file : LogFile)
    (data saved : List (Str × Mark))
    (shipped : List (Str × Str))
    (pass : Option Pass) : Host :=
  { files := Function.update (fun _ => none) logPath (some file)
    number := fun _ => 0
    gone := fun _ => []
    data := data
    saved := saved
    shipped := shipped
    pass := pass }

theorem hostWith_file
    (file : LogFile) (data saved : List (Str × Mark))
    (shipped : List (Str × Str)) (pass : Option Pass) :
    (hostWith file data saved shipped pass).files logPath =
      some file := by
  simp only [hostWith, Function.update_self]

theorem hostWith_fresh
    (file : LogFile) :
    (hostWith file [] [] [] none).Fresh logPath :=
  ⟨rfl, rfl, rfl, rfl, rfl⟩

def lineLog : LogFile :=
  ⟨1, asciiBytes (lit "ok\n")⟩

/- The state of the pass over the log at a stage. -/
def atStage (stage : Stage) : Host :=
  hostWith lineLog [] [] [] (some ⟨[logPath], stage⟩)

/- The record after the line. -/
def lineMark : List (Str × Mark) :=
  [(logPath, ⟨1, 3, 0⟩)]

def lineShipped : List (Str × Str) :=
  [(logPath, lit "ok")]

def linePass : List (Transition Host HostEvent) :=
  [⟨atStage .waiting, .looked logPath, atStage (.located 0 0)⟩,
    ⟨atStage (.located 0 0), .sized logPath,
      atStage (.sized 1 0 0)⟩,
    ⟨atStage (.sized 1 0 0), .read logPath,
      atStage (.batch 1 3 0 [lit "ok"])⟩,
    ⟨atStage (.batch 1 3 0 [lit "ok"]), .shipped logPath,
      hostWith lineLog lineMark [] lineShipped
        (some ⟨[logPath], .saving 3 0 false⟩)⟩,
    ⟨hostWith lineLog lineMark [] lineShipped
        (some ⟨[logPath], .saving 3 0 false⟩),
      .saved,
      hostWith lineLog lineMark lineMark lineShipped
        (some ⟨[], .waiting⟩)⟩,
    ⟨hostWith lineLog lineMark lineMark lineShipped
        (some ⟨[], .waiting⟩),
      .finished,
      hostWith lineLog lineMark lineMark lineShipped none⟩]

theorem linePass_run :
    Run defaultAgent.Step (atStage .waiting) linePass
      (hostWith lineLog lineMark lineMark lineShipped none) := by
  have hLook :=
    Agent.Step.look (a := defaultAgent) (atStage .waiting)
      logPath [] lineLog rfl (hostWith_file _ _ _ _ _)
  have hSize :=
    Agent.Step.size (a := defaultAgent) (atStage (.located 0 0))
      logPath [] lineLog 0 0 rfl (hostWith_file _ _ _ _ _)
  have hRead :=
    Agent.Step.read (a := defaultAgent) (atStage (.sized 1 0 0))
      logPath [] lineLog 1 0 0 rfl (hostWith_file _ _ _ _ _)
  have hShip :=
    Agent.Step.ship (a := defaultAgent)
      (atStage (.batch 1 3 0 [lit "ok"])) logPath [] 1 3 0
      [lit "ok"] rfl
  have hSave :=
    Agent.Step.save (a := defaultAgent)
      (hostWith lineLog lineMark [] lineShipped
        (some ⟨[logPath], .saving 3 0 false⟩))
      logPath [] 3 0 false rfl
  have hFinish :=
    Agent.Step.finish (a := defaultAgent)
      (hostWith lineLog lineMark lineMark lineShipped
        (some ⟨[], .waiting⟩)) .waiting rfl
  exact .cons hLook (.cons hSize (.cons hRead (.cons hShip
    (.cons hSave (.cons hFinish (.nil _))))))

theorem line_delivered :
    (hostWith lineLog lineMark lineMark lineShipped none).written
        logPath =
      linesOf logPath
        (hostWith lineLog lineMark lineMark lineShipped
          none).shipped := by
  have hBoth :=
    shipped_at_least_once defaultAgent logPath
      (hostWith_fresh lineLog) (.nil _)
      (.start _ [logPath] rfl)
      (fun _ => List.mem_singleton_self _) linePass_run
      (by
        intro t hT
        simp only [linePass, List.mem_cons, List.not_mem_nil,
          or_false] at hT
        rcases hT with hT | hT | hT | hT | hT | hT
        all_goals
          rw [hT]
          trivial)
      rfl
      (by
        intro t hT
        simp only [linePass, List.nil_append, List.mem_cons,
          List.not_mem_nil, or_false] at hT
        rcases hT with hT | hT | hT | hT | hT | hT
        · rw [hT]
          trivial
        · rw [hT]
          intro _ rest offset file hPass
          cases hPass
          exact Or.inl rfl
        · rw [hT]
          intro _ rest inode start file hPass
          cases hPass
          exact Or.inl rfl
        · rw [hT]
          trivial
        · rw [hT]
          trivial
        · rw [hT]
          trivial)
  exact hBoth.2 fun t hT => absurd hT List.not_mem_nil

/- The host after the log was renamed and made anew. -/
def rotated (pass : Option Pass) : Host :=
  { files := Function.update (fun _ => none) logPath
      (some ⟨2, []⟩)
    number := Function.update (fun _ => 0) logPath 1
    gone := Function.update (fun _ => []) logPath [lit "ok"]
    data := []
    saved := []
    shipped := []
    pass := pass }

theorem rotated_file (pass : Option Pass) :
    (rotated pass).files logPath = some ⟨2, []⟩ := by
  simp only [rotated, Function.update_self]

theorem rotate_step :
    defaultAgent.Step (hostWith lineLog [] [] [] none)
      (.replaced logPath (some ⟨2, []⟩)) (rotated none) := by
  have hStep :=
    Agent.Step.replace (a := defaultAgent)
      (hostWith lineLog [] [] [] none) logPath (some ⟨2, []⟩)
  have hLines :
      completeLines
        ((hostWith lineLog [] [] [] none).contentOf logPath) =
        [lit "ok"] := by
    rw [contentOf_file (hostWith_file lineLog [] [] [] none)]
    decide
  rw [hLines] at hStep
  simp only [hostWith, Function.update_idem] at hStep
  exact hStep

/- The log is renamed before its last line is read, and the
line is in no batch of the passes after. -/
theorem rotated_tail_lost :
    ∃ w₀ w₁ w₂ w₃ before pass,
      w₀.Fresh logPath ∧
      Run defaultAgent.Step w₀ before w₁ ∧
      defaultAgent.Step w₁ (.started [logPath]) w₂ ∧
      Run defaultAgent.Step w₂ pass w₃ ∧
      (∀ t ∈ pass, t.label.Undisturbed) ∧
      w₃.pass = none ∧
      ¬ (w₃.written logPath).Sublist
        (linesOf logPath w₃.shipped) := by
  have hLook :=
    Agent.Step.look (a := defaultAgent)
      (rotated (some ⟨[logPath], .waiting⟩)) logPath [] ⟨2, []⟩
      rfl (rotated_file _)
  have hSize :=
    Agent.Step.size (a := defaultAgent)
      (rotated (some ⟨[logPath], .located 0 1⟩)) logPath []
      ⟨2, []⟩ 0 1 rfl (rotated_file _)
  have hRead :=
    Agent.Step.read (a := defaultAgent)
      (rotated (some ⟨[logPath], .sized 2 0 1⟩)) logPath []
      ⟨2, []⟩ 2 0 1 rfl (rotated_file _)
  have hFinish :=
    Agent.Step.finish (a := defaultAgent)
      (rotated (some ⟨[], .waiting⟩)) .waiting rfl
  refine ⟨hostWith lineLog [] [] [] none, rotated none, _,
    rotated none, _, _, hostWith_fresh lineLog,
    .cons rotate_step (.nil _), .start _ [logPath] rfl,
    .cons hLook (.cons hSize (.cons hRead
      (.cons hFinish (.nil _)))), ?_, rfl, ?_⟩
  · intro t hT
    simp only [List.mem_cons, List.not_mem_nil, or_false] at hT
    rcases hT with hT | hT | hT | hT
    all_goals
      rw [hT]
      trivial
  · unfold Host.written
    rw [contentOf_file (rotated_file none)]
    decide

end ThreatOrbit.Collector
