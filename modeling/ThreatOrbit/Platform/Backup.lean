import ThreatOrbit.Lib.Python
import ThreatOrbit.Lib.Writes

/-
  The restore of a backup: the snapshots of an archive take the
  places of live databases, one target after another.

  Each snapshot is verified right before it is copied, so that
  the targets before one that fails have been replaced.
-/

---- Restore

namespace ThreatOrbit.Platform

open Lib

/- The bytes of a file, if it exists, by its path. -/
abbrev Files := Str → Option (List Nat)

/- What `PRAGMA integrity_check` gives: its first row, if any,
or an error of the library. -/
inductive Integrity where
| row (text : Option Str)
| sqliteError (text : Str)
deriving DecidableEq, Repr

/- What a restore finds: the check of a database, the directory
of the extracted archive with the snapshot of each name
(nothing if the archive cannot be read or has an unsafe
member), and what the file system does not do: make the
parent of a path, remove a file, or copy to a path. A copy
that fails leaves the file as it was, or part of it. -/
structure RestoreSetup where
  integrity : List Nat → Integrity
  work : Str
  archive : Option (Str → Option (List Nat))
  noParent : Str → Bool
  noRemove : Str → Bool
  noCopy : Str → Option (Option (List Nat))

inductive RestoreError where
| runtimeError (message : Str)
| osError
| tarError
deriving DecidableEq, Repr

def verify
    (setup : RestoreSetup)
    (path : Str)
    (snap : List Nat) : Except RestoreError Unit :=
  match setup.integrity snap with
  | .sqliteError e =>
      .error (.runtimeError
        (lit "cannot open " ++ path ++ lit " as a database: " ++ e))
  | .row text =>
      if text = some (lit "ok") then .ok ()
      else
        .error (.runtimeError
          (lit "integrity check failed for " ++ path ++ lit ": " ++
            text.getD (lit "no result")))

def walOf (dest : Str) : Str :=
  dest ++ lit "-wal"

def shmOf (dest : Str) : Str :=
  dest ++ lit "-shm"

/- The files of a target: the database and its sidecars. -/
def pathsOf (dest : Str) : List Str :=
  [dest, walOf dest, shmOf dest]

/- The loop that removes the sidecars. -/
def dropSidecars
    (setup : RestoreSetup) :
    List Str → Files → Files × Except RestoreError Unit
| [], files => (files, .ok ())
| p :: rest, files =>
    if (files p).isSome then
      if setup.noRemove p then (files, .error .osError)
      else dropSidecars setup rest (Function.update files p none)
    else dropSidecars setup rest files

/- `shutil.copyfile`. -/
def copyfile
    (setup : RestoreSetup)
    (snap : List Nat)
    (dest : Str)
    (files : Files) : Files × Except RestoreError Unit :=
  match setup.noCopy dest with
  | none => (Function.update files dest (some snap), .ok ())
  | some none => (files, .error .osError)
  | some (some part) =>
      (Function.update files dest (some part), .error .osError)

/- The body of the loop past the verification and the check of
the destination. -/
def replaceFile
    (setup : RestoreSetup)
    (snap : List Nat)
    (dest : Str)
    (files : Files) : Files × Except RestoreError Unit :=
  if setup.noParent dest then (files, .error .osError)
  else
    match dropSidecars setup [walOf dest, shmOf dest] files with
    | (files, .error e) => (files, .error e)
    | (files, .ok ()) => copyfile setup snap dest files

/- The loop over the targets. -/
def restoreFrom
    (setup : RestoreSetup)
    (archive : Str → Option (List Nat))
    (force : Bool) :
    List (Str × Str) → List Str → Files →
      Files × Except RestoreError (List Str)
| [], restored, files => (files, .ok restored)
| (name, dest) :: rest, restored, files =>
    match archive name with
    | none => restoreFrom setup archive force rest restored files
    | some snap =>
        match verify setup
            (setup.work ++ lit "/" ++ name ++ lit ".db") snap with
        | .error e => (files, .error e)
        | .ok () =>
            if (files dest).isSome && !force then
              (files, .error (.runtimeError
                (dest ++ lit
                  " already exists; pass --force to overwrite")))
            else
              match replaceFile setup snap dest files with
              | (files, .error e) => (files, .error e)
              | (files, .ok ()) =>
                  restoreFrom setup archive force rest
                    (restored ++ [name]) files

def restore
    (setup : RestoreSetup)
    (targets : List (Str × Str))
    (force : Bool)
    (files : Files) : Files × Except RestoreError (List Str) :=
  match setup.archive with
  | none => (files, .error .tarError)
  | some archive =>
      restoreFrom setup archive force targets [] files

/- The check of a database passes. -/
def Sound (setup : RestoreSetup) (snap : List Nat) : Prop :=
  setup.integrity snap = .row (some (lit "ok"))

/- What a restore returns: the names with a snapshot, each
target of them replaced by its snapshot, which is verified,
without sidecars, and the other targets as they were. -/
structure Delivered
    (setup : RestoreSetup)
    (archive : Str → Option (List Nat))
    (targets : List (Str × Str))
    (before after : Files)
    (names : List Str) : Prop where
  names_eq : names =
    (targets.filter fun t => (archive t.1).isSome).map Prod.fst
  replaced : ∀ t ∈ targets, ∀ snap, archive t.1 = some snap →
    Sound setup snap ∧ after t.2 = some snap ∧
      after (walOf t.2) = none ∧ after (shmOf t.2) = none
  others : ∀ t ∈ targets, archive t.1 = none →
    ∀ p ∈ pathsOf t.2, after p = before p

/- A restore that raises leaves the files of all targets as they
were, and one that returns has replaced them. -/
def AllOrNothing
    (setup : RestoreSetup)
    (targets : List (Str × Str))
    (before : Files)
    (result : Files × Except RestoreError (List Str)) : Prop :=
  (∀ e, result.2 = .error e →
    ∀ t ∈ targets, ∀ p ∈ pathsOf t.2, result.1 p = before p) ∧
  ∀ names, result.2 = .ok names →
    ∃ archive, setup.archive = some archive ∧
      Delivered setup archive targets before result.1 names

---- Conditions

section

variable (setup : RestoreSetup)
  (archive : Str → Option (List Nat)) (force : Bool)

/- A target passes: it has no snapshot, or a sound one for which
there is place, and the file system does what it is asked. -/
def Passes (files : Files) (t : Str × Str) : Prop :=
  ∀ snap, archive t.1 = some snap →
    Sound setup snap ∧ (force = true ∨ files t.2 = none) ∧
    setup.noParent t.2 = false ∧
    (∀ p ∈ [walOf t.2, shmOf t.2], files p = none ∨
      setup.noRemove p = false) ∧
    setup.noCopy t.2 = none

/- What a target that passes writes. -/
def writesOf (t : Str × Str) : List (Str × Option (List Nat)) :=
  match archive t.1 with
  | none => []
  | some snap =>
      [(walOf t.2, none), (shmOf t.2, none), (t.2, some snap)]

/- A sidecar stays because it cannot be removed. -/
def blocked (files : Files) (p : Str) : Bool :=
  (files p).isSome && setup.noRemove p

/- What a replacement that fails has written by then: nothing up
to the sidecars, then those that could be removed, and then what
a copy leaves. -/
def halfReplaced
    (files : Files)
    (dest : Str) : List (Str × Option (List Nat)) :=
  if setup.noParent dest || blocked setup files (walOf dest) then []
  else if blocked setup files (shmOf dest) then
    [(walOf dest, none)]
  else
    [(walOf dest, none), (shmOf dest, none)] ++
      match setup.noCopy dest with
      | some (some part) => [(dest, some part)]
      | _ => []

/- What a target that fails has written by then. -/
def leavings
    (files : Files)
    (t : Str × Str) : List (Str × Option (List Nat)) :=
  match archive t.1 with
  | none => []
  | some snap =>
      if setup.integrity snap ≠ .row (some (lit "ok")) then []
      else if (files t.2).isSome && !force then []
      else halfReplaced setup files t.2

/- Each target passes after what those before it write. -/
def AllPass (files : Files) : List (Str × Str) → Prop
| [] => True
| t :: rest =>
    Passes setup archive force files t ∧
      AllPass (write files (writesOf archive t)) rest

/- The targets are not divided. Either all pass, and on the files
of each the last write of all is what the target itself
writes, or leaves. Or one fails, and what was written by then
ends, on the files of every target, with what was there. -/
def Undivided
    (files : Files)
    (targets : List (Str × Str)) : Prop :=
  (AllPass setup archive force files targets ∧
    ∀ t ∈ targets, ∀ p ∈ pathsOf t.2, ∀ value,
      lastWrite p (targets.flatMap (writesOf archive)) =
          some value →
        value = write files (writesOf archive t) p) ∨
  ∃ first t rest, targets = first ++ t :: rest ∧
    AllPass setup archive force files first ∧
    let made := first.flatMap (writesOf archive)
    ¬ Passes setup archive force (write files made) t ∧
    ∀ u ∈ targets, ∀ p ∈ pathsOf u.2, ∀ value,
      lastWrite p (made ++
          leavings setup archive force (write files made) t) =
          some value →
        value = files p

end

---- One Target

section

variable {setup : RestoreSetup}
  {archive : Str → Option (List Nat)} {force : Bool}

theorem verify_sound
    {snap : List Nat}
    (hSound : Sound setup snap) (path : Str) :
    verify setup path snap = .ok () := by
  rw [verify, hSound]
  rfl

theorem verify_unsound
    {snap : List Nat}
    (hSound : ¬ Sound setup snap) (path : Str) :
    ∃ e, verify setup path snap = .error e := by
  unfold verify
  cases hCheck : setup.integrity snap with
  | sqliteError e => exact ⟨_, rfl⟩
  | row text =>
      have hText : ¬ text = some (lit "ok") := by
        rintro rfl
        exact hSound hCheck
      exact ⟨_, if_neg hText⟩

/- A removed file, or none, is no file. -/
theorem drop_one
    (files : Files) (p : Str) :
    files p = none → Function.update files p none = files := by
  intro hNone
  rw [← hNone, Function.update_eq_self]

/- The sidecars that can be removed are. -/
theorem dropSidecars_ok
    {ps : List Str} {files : Files}
    (hRemove : ∀ p ∈ ps,
      files p = none ∨ setup.noRemove p = false) :
    dropSidecars setup ps files =
      (write files (ps.map fun p => (p, none)), .ok ()) := by
  induction ps generalizing files with
  | nil => rfl
  | cons p rest ih =>
      rw [List.forall_mem_cons] at hRemove
      have hRest : ∀ q ∈ rest,
          Function.update files p none q = none ∨
            setup.noRemove q = false := by
        intro q hQ
        rw [Function.update_apply]
        split
        · exact .inl rfl
        · exact hRemove.2 q hQ
      have hWrite : write files ((p :: rest).map fun p => (p, none)) =
          write (Function.update files p none)
            (rest.map fun p => (p, none)) := by
        rw [← write_singleton, ← write_append]
        rfl
      rw [hWrite, dropSidecars]
      cases hFile : files p with
      | none =>
          rw [drop_one files p hFile] at hRest ⊢
          exact ih hRest
      | some bytes =>
          rcases hRemove.1 with hNone | hCan
          · rw [hNone] at hFile
            cases hFile
          · rw [hCan]
            exact ih hRest

theorem sidecars_ne (dest : Str) : shmOf dest ≠ walOf dest := by
  intro hSame
  exact absurd (List.append_cancel_left hSame) (by decide)

/- The sidecars up to the one that stays are removed. -/
theorem dropSidecars_blocked
    {files : Files} {dest : Str}
    (hBlocked : blocked setup files (walOf dest) = true ∨
      blocked setup files (shmOf dest) = true) :
    dropSidecars setup [walOf dest, shmOf dest] files =
      (write files
        (if blocked setup files (walOf dest) then []
          else [(walOf dest, none)]),
        .error .osError) := by
  unfold dropSidecars
  cases hWal : blocked setup files (walOf dest) with
  | true =>
      rw [blocked, Bool.and_eq_true] at hWal
      simp [hWal.1, hWal.2]
  | false =>
      have hShm : blocked setup files (shmOf dest) = true := by
        rcases hBlocked with hFirst | hSecond
        · rw [hWal] at hFirst
          cases hFirst
        · exact hSecond
      rw [blocked, Bool.and_eq_true] at hShm
      have hGone : dropSidecars setup [shmOf dest]
          (Function.update files (walOf dest) none) =
          (Function.update files (walOf dest) none,
            .error .osError) := by
        have hStill : Function.update files (walOf dest) none
            (shmOf dest) = files (shmOf dest) :=
          Function.update_of_ne (sidecars_ne dest) _ _
        rw [dropSidecars, hStill, if_pos hShm.1, if_pos hShm.2]
      rw [if_neg Bool.false_ne_true, write_singleton, ← hGone]
      cases hFile : files (walOf dest) with
      | none => simp [drop_one files _ hFile]
      | some bytes =>
          rw [blocked, hFile] at hWal
          have hCan : setup.noRemove (walOf dest) = false := by
            simpa using hWal
          simp [hCan]

theorem replaceFile_fail
    {files : Files} {snap : List Nat} {dest : Str}
    (hFail : ¬ (setup.noParent dest = false ∧
      (∀ p ∈ [walOf dest, shmOf dest],
        files p = none ∨ setup.noRemove p = false) ∧
      setup.noCopy dest = none)) :
    ∃ e, replaceFile setup snap dest files =
      (write files (halfReplaced setup files dest), .error e) := by
  have hFree (p : Str) :
      blocked setup files p = false ↔
        (files p = none ∨ setup.noRemove p = false) := by
    rw [blocked, Bool.and_eq_false_iff, Option.isSome_eq_false_iff,
      Option.isNone_iff_eq_none]
  unfold replaceFile halfReplaced
  by_cases hParent : setup.noParent dest = true
  · rw [if_pos hParent, hParent, Bool.true_or, if_pos rfl]
    exact ⟨_, rfl⟩
  · rw [Bool.not_eq_true] at hParent
    rw [hParent, Bool.false_or, if_neg Bool.false_ne_true]
    by_cases hRemove : ∀ p ∈ [walOf dest, shmOf dest],
        files p = none ∨ setup.noRemove p = false
    · have hWal := (hFree (walOf dest)).mpr
        (hRemove _ List.mem_cons_self)
      have hShm := (hFree (shmOf dest)).mpr
        (hRemove _ (List.mem_cons_of_mem _ List.mem_cons_self))
      rw [dropSidecars_ok hRemove, hWal, hShm,
        if_neg Bool.false_ne_true, if_neg Bool.false_ne_true]
      dsimp only
      unfold copyfile
      rcases hCopy : setup.noCopy dest with _ | _ | part
      · exact absurd ⟨hParent, hRemove, hCopy⟩ hFail
      · exact ⟨_, rfl⟩
      · refine ⟨.osError, ?_⟩
        rw [write_append, write_singleton]
        rfl
    · have hBlocked : blocked setup files (walOf dest) = true ∨
          blocked setup files (shmOf dest) = true := by
        by_contra hNot
        rw [not_or, Bool.not_eq_true, Bool.not_eq_true] at hNot
        apply hRemove
        rw [List.forall_mem_cons, List.forall_mem_singleton]
        exact ⟨(hFree _).mp hNot.1, (hFree _).mp hNot.2⟩
      rw [dropSidecars_blocked hBlocked]
      refine ⟨.osError, ?_⟩
      cases hWal : blocked setup files (walOf dest) with
      | true => rfl
      | false =>
          rw [hWal] at hBlocked
          rcases hBlocked with hFirst | hShm
          · cases hFirst
          · rw [hShm]
            rfl

/- A target that passes is restored. -/
theorem restoreFrom_pass
    {files : Files} {t : Str × Str}
    (hPass : Passes setup archive force files t)
    (rest : List (Str × Str)) (restored : List Str) :
    restoreFrom setup archive force (t :: rest) restored files =
      restoreFrom setup archive force rest
        (restored ++
          ([t].filter fun t => (archive t.1).isSome).map Prod.fst)
        (write files (writesOf archive t)) := by
  rcases t with ⟨name, dest⟩
  rw [restoreFrom]
  cases hSnap : archive name with
  | none => simp [writesOf, hSnap]
  | some snap =>
      rcases hPass snap hSnap with
        ⟨hSound, hPlace, hParent, hRemove, hCopy⟩
      have hThere : ((files dest).isSome && !force) = false := by
        rcases hPlace with hForce | hNone
        · rw [hForce, Bool.not_true, Bool.and_false]
        · rw [hNone]
          rfl
      have hMade : replaceFile setup snap dest files =
          (write files (writesOf archive (name, dest)),
            .ok ()) := by
        unfold replaceFile
        rw [hParent, dropSidecars_ok hRemove]
        simp only [Bool.false_eq_true, if_false, copyfile, hCopy,
          writesOf, hSnap]
        rw [← write_singleton, ← write_append]
        rfl
      simp [verify_sound hSound, hThere, hMade, hSnap]

/- A target that fails ends the restore. -/
theorem restoreFrom_fail
    {files : Files} {t : Str × Str}
    (hFail : ¬ Passes setup archive force files t)
    (rest : List (Str × Str)) (restored : List Str) :
    ∃ e, restoreFrom setup archive force (t :: rest) restored
        files =
      (write files (leavings setup archive force files t),
        .error e) := by
  rcases t with ⟨name, dest⟩
  rw [restoreFrom]
  cases hSnap : archive name with
  | none =>
      refine absurd (fun snap hSome => ?_) hFail
      rw [hSnap] at hSome
      cases hSome
  | some snap =>
      simp only [leavings, hSnap]
      by_cases hSound : Sound setup snap
      · have hIs : setup.integrity snap = .row (some (lit "ok")) :=
          hSound
        rw [if_neg (not_not_intro hIs), verify_sound hSound]
        dsimp only
        by_cases hThere : ((files dest).isSome && !force) = true
        · rw [if_pos hThere, if_pos hThere]
          exact ⟨_, rfl⟩
        · rw [if_neg hThere, if_neg hThere]
          have hPlace : force = true ∨ files dest = none := by
            cases force with
            | true => exact .inl rfl
            | false => simpa using hThere
          have hNot : ¬ (setup.noParent dest = false ∧
              (∀ p ∈ [walOf dest, shmOf dest],
                files p = none ∨ setup.noRemove p = false) ∧
              setup.noCopy dest = none) := by
            intro hAll
            apply hFail
            intro other hOther
            rw [hSnap, Option.some.injEq] at hOther
            rw [← hOther]
            exact ⟨hSound, hPlace, hAll⟩
          rcases replaceFile_fail hNot with ⟨e, hE⟩
          rw [hE]
          exact ⟨_, rfl⟩
      · have hNot : setup.integrity snap ≠ .row (some (lit "ok")) :=
          hSound
        rw [if_pos hNot]
        rcases verify_unsound hSound
          (setup.work ++ lit "/" ++ name ++ lit ".db") with ⟨e, hE⟩
        rw [hE]
        exact ⟨_, rfl⟩

end

---- All Targets

section

variable {setup : RestoreSetup}
  {archive : Str → Option (List Nat)} {force : Bool}

/- Targets that pass are restored, and the loop goes on. -/
theorem restoreFrom_passing
    {files : Files} {first : List (Str × Str)}
    (hPass : AllPass setup archive force files first)
    (rest : List (Str × Str)) (restored : List Str) :
    restoreFrom setup archive force (first ++ rest) restored files =
      restoreFrom setup archive force rest
        (restored ++
          (first.filter fun t => (archive t.1).isSome).map Prod.fst)
        (write files (first.flatMap (writesOf archive))) := by
  induction first generalizing files restored with
  | nil => simp
  | cons t first ih =>
      rw [List.cons_append, restoreFrom_pass hPass.1, ih hPass.2,
        ← write_append, List.flatMap_cons, List.append_assoc,
        ← List.map_append, ← List.filter_append,
        List.singleton_append]

/- All targets pass, or there is a first that fails. -/
theorem allPass_or
    (setup : RestoreSetup) (archive : Str → Option (List Nat))
    (force : Bool) (files : Files) (targets : List (Str × Str)) :
    AllPass setup archive force files targets ∨
      ∃ first t rest, targets = first ++ t :: rest ∧
        AllPass setup archive force files first ∧
        ¬ Passes setup archive force
          (write files (first.flatMap (writesOf archive))) t := by
  induction targets generalizing files with
  | nil => exact .inl trivial
  | cons t targets ih =>
      by_cases hPass : Passes setup archive force files t
      · rcases ih (write files (writesOf archive t)) with
          hAll | ⟨first, u, rest, hSplit, hFirst, hFail⟩
        · exact .inl ⟨hPass, hAll⟩
        · refine .inr ⟨t :: first, u, rest, by rw [hSplit]; rfl,
            ⟨hPass, hFirst⟩, ?_⟩
          rw [List.flatMap_cons, write_append]
          exact hFail
      · exact .inr ⟨[], t, targets, rfl, trivial, hPass⟩

/- A first target that fails is the only one. -/
theorem first_failing_unique
    {files : Files} {first first' rest rest' : List (Str × Str)}
    {t t' : Str × Str}
    (hSplit : first ++ t :: rest = first' ++ t' :: rest')
    (hFirst : AllPass setup archive force files first)
    (hFirst' : AllPass setup archive force files first')
    (hFail : ¬ Passes setup archive force
      (write files (first.flatMap (writesOf archive))) t)
    (hFail' : ¬ Passes setup archive force
      (write files (first'.flatMap (writesOf archive))) t') :
    first = first' ∧ t = t' := by
  induction first generalizing files first' with
  | nil =>
      cases first' with
      | nil =>
          injection hSplit with hHead _
          exact ⟨rfl, hHead⟩
      | cons u first' =>
          injection hSplit with hHead _
          rw [hHead] at hFail
          exact absurd hFirst'.1 hFail
  | cons u first ih =>
      cases first' with
      | nil =>
          injection hSplit with hHead _
          rw [← hHead] at hFail'
          exact absurd hFirst.1 hFail'
      | cons v first' =>
          injection hSplit with hHead hTail
          subst hHead
          rw [List.flatMap_cons, write_append] at hFail hFail'
          rcases ih hTail hFirst.2 hFirst'.2 hFail hFail' with
            ⟨hSame, hT⟩
          exact ⟨by rw [hSame], hT⟩

/- Not all pass where one fails. -/
theorem not_allPass
    {files : Files} {first rest : List (Str × Str)} {t : Str × Str}
    (hFail : ¬ Passes setup archive force
      (write files (first.flatMap (writesOf archive))) t) :
    ¬ AllPass setup archive force files (first ++ t :: rest) := by
  induction first generalizing files with
  | nil => exact fun hAll => hFail hAll.1
  | cons u first ih =>
      rw [List.flatMap_cons, write_append] at hFail
      exact fun hAll => ih hFail hAll.2

/- A snapshot that passes is sound. -/
theorem sound_of_allPass
    {files : Files} {targets : List (Str × Str)}
    (hAll : AllPass setup archive force files targets) :
    ∀ t ∈ targets, ∀ snap, archive t.1 = some snap →
      Sound setup snap := by
  induction targets generalizing files with
  | nil => exact fun t hT => absurd hT List.not_mem_nil
  | cons u targets ih =>
      rw [List.forall_mem_cons]
      exact ⟨fun snap hSnap => (hAll.1 snap hSnap).1, ih hAll.2⟩

theorem dest_ne_sidecars (dest : Str) :
    walOf dest ≠ dest ∧ shmOf dest ≠ dest := by
  constructor
  · intro hSame
    have hLength := congrArg List.length hSame
    rw [walOf, List.length_append] at hLength
    exact absurd hLength (by
      rw [show (lit "-wal").length = 4 from rfl]
      omega)
  · intro hSame
    have hLength := congrArg List.length hSame
    rw [shmOf, List.length_append] at hLength
    exact absurd hLength (by
      rw [show (lit "-shm").length = 4 from rfl]
      omega)

/- What a target leaves on its files. -/
theorem write_writesOf
    {t : Str × Str} {snap : List Nat}
    (hSnap : archive t.1 = some snap) (files : Files) :
    write files (writesOf archive t) t.2 = some snap ∧
      write files (writesOf archive t) (walOf t.2) = none ∧
      write files (writesOf archive t) (shmOf t.2) = none := by
  rcases dest_ne_sidecars t.2 with ⟨hWal, hShm⟩
  have hSide := sidecars_ne t.2
  simp [writesOf, hSnap, write, lastWrite, hWal.symm, hShm.symm,
    hSide]

end

---- All or Nothing

section

variable {setup : RestoreSetup}
  {archive : Str → Option (List Nat)} {force : Bool}

/- Restored targets are delivered exactly if the last writes on
the files of each are its own. -/
theorem delivered_iff
    {files : Files} {targets : List (Str × Str)}
    (hAll : AllPass setup archive force files targets) :
    Delivered setup archive targets files
        (write files (targets.flatMap (writesOf archive)))
        ((targets.filter fun t => (archive t.1).isSome).map
          Prod.fst) ↔
      ∀ t ∈ targets, ∀ p ∈ pathsOf t.2, ∀ value,
        lastWrite p (targets.flatMap (writesOf archive)) =
            some value →
          value = write files (writesOf archive t) p := by
  constructor
  · intro hDelivered t hT p hP value hLast
    have hValue : write files
        (targets.flatMap (writesOf archive)) p = value := by
      rw [write, hLast]
      rfl
    rw [← hValue]
    cases hSnap : archive t.1 with
    | none =>
        rw [hDelivered.others t hT hSnap p hP, writesOf, hSnap]
        rfl
    | some snap =>
        rcases hDelivered.replaced t hT snap hSnap with
          ⟨_, hDest, hWal, hShm⟩
        rcases write_writesOf hSnap files with
          ⟨hDest', hWal', hShm'⟩
        rw [pathsOf, List.mem_cons, List.mem_cons,
          List.mem_singleton] at hP
        rcases hP with rfl | rfl | rfl
        · rw [hDest, hDest']
        · rw [hWal, hWal']
        · rw [hShm, hShm']
  · intro hLast
    refine ⟨rfl, ?_, ?_⟩
    · intro t hT snap hSnap
      have hOwn (p : Str) (hP : p ∈ pathsOf t.2) :
          write files (targets.flatMap (writesOf archive)) p =
            write files (writesOf archive t) p := by
        have hWrite : ∃ w ∈ writesOf archive t, w.1 = p := by
          rw [pathsOf, List.mem_cons, List.mem_cons,
            List.mem_singleton] at hP
          rcases hP with rfl | rfl | rfl <;> simp [writesOf, hSnap]
        rcases hWrite with ⟨w, hW, rfl⟩
        rcases exists_lastWrite
            (List.mem_flatMap.mpr ⟨t, hT, hW⟩) with ⟨value, hValue⟩
        rw [← hLast t hT w.1 hP value hValue, write, hValue]
        rfl
      rcases write_writesOf hSnap files with ⟨hDest, hWal, hShm⟩
      refine ⟨sound_of_allPass hAll t hT snap hSnap, ?_, ?_, ?_⟩
      · rw [hOwn t.2 (by simp [pathsOf]), hDest]
      · rw [hOwn (walOf t.2) (by simp [pathsOf]), hWal]
      · rw [hOwn (shmOf t.2) (by simp [pathsOf]), hShm]
    · intro t hT hSnap p hP
      rw [write_eq_iff]
      intro value hValue
      rw [hLast t hT p hP value hValue, writesOf, hSnap]
      rfl

/- A restore is all or nothing exactly if its targets are not
divided. -/
theorem restore_all_or_nothing_iff
    (setup : RestoreSetup)
    (targets : List (Str × Str))
    (force : Bool)
    (files : Files) :
    AllOrNothing setup targets files
        (restore setup targets force files) ↔
      ∀ archive, setup.archive = some archive →
        Undivided setup archive force files targets := by
  unfold restore
  cases hArchive : setup.archive with
  | none =>
      refine iff_of_true ⟨fun _ _ _ _ _ _ => rfl, ?_⟩ ?_
      · intro names hNames
        cases hNames
      · intro archive hSome
        cases hSome
  | some archive =>
      simp only [Option.some.injEq, forall_eq']
      rcases allPass_or setup archive force files targets with
        hAll | ⟨first, t, rest, hSplit, hFirst, hFail⟩
      · have hRun := restoreFrom_passing hAll [] []
        rw [List.append_nil, List.nil_append, restoreFrom] at hRun
        rw [hRun]
        constructor
        · intro hBoth
          rcases hBoth.2 _ rfl with ⟨other, hOther, hDelivered⟩
          rw [hArchive, Option.some.injEq] at hOther
          rw [← hOther] at hDelivered
          exact .inl ⟨hAll, (delivered_iff hAll).mp hDelivered⟩
        · rintro (⟨_, hLast⟩ | ⟨first, t, rest, hSplit, _, hFail, _⟩)
          · constructor
            · intro e hE
              cases hE
            · intro names hNames
              injection hNames with hNames
              rw [← hNames]
              exact ⟨archive, hArchive,
                (delivered_iff hAll).mpr hLast⟩
          · rw [hSplit] at hAll
            exact absurd hAll (not_allPass hFail)
      · rcases restoreFrom_fail hFail rest
          ((first.filter fun t => (archive t.1).isSome).map
            Prod.fst) with ⟨e, hE⟩
        have hRun := restoreFrom_passing hFirst (t :: rest) []
        rw [List.nil_append, hE, ← hSplit, ← write_append] at hRun
        rw [hRun]
        constructor
        · intro hBoth
          refine .inr ⟨first, t, rest, hSplit, hFirst, hFail, ?_⟩
          intro u hU p hP
          exact write_eq_iff.mp (hBoth.1 e rfl u hU p hP)
        · rintro (⟨hAll, _⟩ |
            ⟨first', t', rest', hSplit', hFirst', hFail', hLast⟩)
          · rw [hSplit] at hAll
            exact absurd hAll (not_allPass hFail)
          · rcases first_failing_unique (hSplit.symm.trans hSplit')
                hFirst hFirst' hFail hFail' with ⟨rfl, rfl⟩
            constructor
            · intro _ _ u hU p hP
              exact write_eq_iff.mpr (hLast u hU p hP)
            · intro names hNames
              cases hNames

end

---- A Restore That Is Divided

/- An archive with two snapshots; the second is corrupt. -/
def halfCorrupt (name : Str) : Option (List Nat) :=
  if name = lit "dashboard" then some (lit "backup")
  else if name = lit "threat" then some (lit "corrupt")
  else none

def halfSetup : RestoreSetup where
  integrity snap :=
    if snap = lit "backup" then .row (some (lit "ok"))
    else .sqliteError (lit "file is not a database")
  work := lit "/tmp/work"
  archive := some halfCorrupt
  noParent _ := false
  noRemove _ := false
  noCopy _ := none

def halfTargets : List (Str × Str) :=
  [(lit "dashboard", lit "/data/dashboard.db"),
    (lit "threat", lit "/data/threat_api.db")]

/- Both databases are live. -/
def liveFiles (p : Str) : Option (List Nat) :=
  if p = lit "/data/dashboard.db" then some (lit "live")
  else if p = lit "/data/threat_api.db" then some (lit "live")
  else none

/- The restore raises at the second target, and the first has
been replaced. -/
theorem restore_divided :
    (restore halfSetup halfTargets true liveFiles).2 =
        .error (.runtimeError (lit
          "cannot open /tmp/work/threat.db as a database: file is not a database")) ∧
      (restore halfSetup halfTargets true liveFiles).1
          (lit "/data/dashboard.db") = some (lit "backup") ∧
      liveFiles (lit "/data/dashboard.db") = some (lit "live") := by
  refine ⟨by rfl, by rfl, by rfl⟩

theorem first_target_replaced :
    ¬ AllOrNothing halfSetup halfTargets liveFiles
      (restore halfSetup halfTargets true liveFiles) := by
  intro hBoth
  have hSame := hBoth.1 _ restore_divided.1
    (lit "dashboard", lit "/data/dashboard.db") List.mem_cons_self
    (lit "/data/dashboard.db") List.mem_cons_self
  rw [restore_divided.2.1, restore_divided.2.2] at hSame
  exact absurd hSame (by decide)

end ThreatOrbit.Platform
