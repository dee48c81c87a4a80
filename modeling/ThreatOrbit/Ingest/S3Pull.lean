import ThreatOrbit.Lib.Run
import ThreatOrbit.Lib.Lines

/-
  The pull of a bucket.

  A poll lists the keys above a saved cursor, gets and
  ingests the objects one by one, and saves the key it has
  reached. The cursor is one step, each object another, so
  objects are added and the process fails in between.
-/

---- Listings

namespace ThreatOrbit.Ingest

open Lib

/- `<Key>` and `</Key>`. -/
def keyOpen : Str :=
  lit "<Key>"

def keyClose : Str :=
  lit "</Key>"

/- The match of `<Key>([^<]+)</Key>` at the start of a text. -/
def keyAt (s : Str) : Option Str :=
  if keyOpen.isPrefixOf s then
    let rest := s.drop keyOpen.length
    let key := rest.takeWhile (· ≠ cp '<')
    if key ≠ [] ∧ keyClose.isPrefixOf (rest.drop key.length) then
      some key
    else none
  else none

/- `re.findall`, where the first characters are skipped: they
belong to a match. -/
@[grind =]
def findKeysFrom : Nat → Str → List Str
| _, [] => []
| n + 1, _ :: rest => findKeysFrom n rest
| 0, c :: rest =>
    match keyAt (c :: rest) with
    | some key =>
        key :: findKeysFrom
          (keyOpen.length + key.length + keyClose.length - 1) rest
    | none => findKeysFrom 0 rest

def findKeys (s : Str) : List Str :=
  findKeysFrom 0 s

/- The keys in their order, which on code points is that of
UTF-8. -/
def sortKeys (keys : List Str) : List Str :=
  keys.mergeSort fun a b => decide (a ≤ b)

/- `keys[:n]`. -/
def sliceTo (n : Int) (keys : List Str) : List Str :=
  if 0 ≤ n then keys.take n.toNat
  else keys.take (keys.length - (-n).toNat)

/- An object of the bucket under the prefix. -/
structure S3Object where
  key : Str
  body : Str
deriving DecidableEq, Repr

/- The lines that a poll ingests of an object. -/
def S3Object.lines (o : S3Object) : List Str :=
  nonBlankLines o.body

/- The characters that a key may need an escape for. -/
def xmlSpecial (c : Nat) : Bool :=
  c < 32 || c == cp '&' || c == cp '<' || c == cp '>' ||
    c == cp '"' || c == cp '\''

/- The store: how it escapes a key in XML. -/
structure Store where
  escape : Str → Str
  escape_lt : ∀ key, cp '<' ∉ escape key
  escape_ne : ∀ key, key ≠ [] → escape key ≠ []
  escape_plain :
    ∀ key, (∀ c ∈ key, xmlSpecial c = false) →
      escape key = key

/- The keys that `ListObjectsV2` answers with: the first
thousand above `start-after`. -/
def pageOf (bucket : List S3Object) (start : Str) : List Str :=
  ((sortKeys (bucket.map S3Object.key)).filter
    (start < ·)).take 1000

/- A text around the keys of an answer. -/
def NoKey (s : Str) : Prop :=
  ¬ keyOpen <:+: s

/- The rest of an answer, each key in its element and
something after it. -/
def Store.entries
    (s : Store)
    (page : List (Str × Str)) : Str :=
  page.flatMap fun e =>
    keyOpen ++ s.escape e.1 ++ keyClose ++ e.2

def Store.Answers
    (s : Store)
    (bucket : List S3Object)
    (start answer : Str) : Prop :=
  ∃ (head : Str) (page : List (Str × Str)),
    page.map Prod.fst = pageOf bucket start ∧
    answer = head ++ s.entries page ∧
    NoKey head ∧ ∀ e ∈ page, NoKey e.2

/- `list_objects` from the answer. -/
def listObjects (answer : Str) : List Str :=
  sortKeys (findKeys answer)

/- The keys a poll takes on. -/
def pollKeys
    (answer start : Str)
    (maxObjects : Int) : List Str :=
  sliceTo maxObjects ((listObjects answer).filter (start < ·))

---- Polls

/- A poll on its way: the cursor it read, the keys it was
given, the last one it is done with, those to come, and
those whose lines it has handed over. -/
structure S3Poll where
  start : Str
  listed : List Str
  last : Str
  rest : List Str
  taken : List Str
deriving DecidableEq, Repr

/- The bucket, the saved cursor, what `ingest_lines` has
stored, by object, and the poll that runs. -/
structure Puller where
  bucket : List S3Object
  cursor : Str
  log : List (Str × List Str)
  poll : Option S3Poll
deriving DecidableEq, Repr

/- What a step does. -/
inductive PullEvent where
| put (o : S3Object)
| listed (page keys : List Str)
| unlisted
| fetched (key : Str)
| refused (key : Str)
| storedThenRaised (key : Str)
| saved
| aborted
deriving DecidableEq, Repr

/- The entry of the log for an object; without lines
`ingest_lines` is not called. -/
def S3Object.entry (o : S3Object) : List (Str × List Str) :=
  if o.lines = [] then [] else [(o.key, o.lines)]

/- The next state. A request that fails, or an `ingest_lines`
that raises, ends the loop over the keys; it may have
stored the lines before. The process may stop at any time,
and the cursor may fail to be saved. -/
inductive Store.Step
    (s : Store) : Puller → PullEvent → Puller → Prop
| put
    (w : Puller) (o : S3Object)
    (hKey : o.key ≠ [])
    (hNew : o.key ∉ w.bucket.map S3Object.key) :
    s.Step w (.put o) { w with bucket := w.bucket ++ [o] }
| list
    (w : Puller) (answer : Str) (maxObjects : Int)
    (hIdle : w.poll = none)
    (hAnswer : s.Answers w.bucket w.cursor answer) :
    s.Step w
      (.listed (pageOf w.bucket w.cursor) (listObjects answer))
      { w with
        poll := some
          { start := w.cursor
            listed := pollKeys answer w.cursor maxObjects
            last := w.cursor
            rest := pollKeys answer w.cursor maxObjects
            taken := [] } }
| unlisted
    (w : Puller) (hIdle : w.poll = none) :
    s.Step w .unlisted w
| fetch
    (w : Puller) (p : S3Poll) (o : S3Object)
    (rest : List Str)
    (hPoll : w.poll = some p)
    (hNext : p.rest = o.key :: rest)
    (hObject : o ∈ w.bucket) :
    s.Step w (.fetched o.key)
      { w with
        log := w.log ++ o.entry
        poll := some
          { p with
            last := o.key
            rest := rest
            taken := p.taken ++ o.entry.map Prod.fst } }
| refuse
    (w : Puller) (p : S3Poll) (key : Str) (rest : List Str)
    (hPoll : w.poll = some p)
    (hNext : p.rest = key :: rest) :
    s.Step w (.refused key)
      { w with poll := some { p with rest := [] } }
| storeThenRaise
    (w : Puller) (p : S3Poll) (o : S3Object)
    (rest : List Str)
    (hPoll : w.poll = some p)
    (hNext : p.rest = o.key :: rest)
    (hObject : o ∈ w.bucket)
    (hLines : o.lines ≠ []) :
    s.Step w (.storedThenRaised o.key)
      { w with
        log := w.log ++ o.entry
        poll := some
          { p with
            rest := []
            taken := p.taken ++ [o.key] } }
| save
    (w : Puller) (p : S3Poll)
    (hPoll : w.poll = some p)
    (hDone : p.rest = []) :
    s.Step w .saved { w with cursor := p.last, poll := none }
| abort
    (w : Puller) (p : S3Poll)
    (hPoll : w.poll = some p) :
    s.Step w .aborted { w with poll := none }

/- Every object at or below the cursor is ingested, and no
object twice. -/
structure Pulled (w : Puller) : Prop where
  complete :
    ∀ o ∈ w.bucket, o.key ≤ w.cursor → o.lines ≠ [] →
      (o.key, o.lines) ∈ w.log
  once : (w.log.map Prod.fst).Nodup

/- The keys a listing gives are keys of the bucket. -/
def PullEvent.Exact (w : Puller) : PullEvent → Prop
| .listed _ keys => ∀ key ∈ keys, key ∈ w.bucket.map S3Object.key
| _ => True

/- An object is added above the cursor, or has no lines; no
listed key needs an escape; `ingest_lines` does not raise
after it has stored; the cursor is saved past no object
that the poll was not given; and a poll that has handed
lines over does save it. -/
def Store.Clean
    (s : Store)
    (t : Transition Puller PullEvent) : Prop :=
  match t.label with
  | .put o => t.pre.cursor < o.key ∨ o.lines = []
  | .listed page _ => ∀ key ∈ page, s.escape key = key
  | .storedThenRaised _ => False
  | .saved =>
      ∀ p, t.pre.poll = some p → ∀ o ∈ t.pre.bucket,
        p.start < o.key → o.key ≤ p.last → o.lines ≠ [] →
          o.key ∈ p.listed
  | .aborted => ∀ p, t.pre.poll = some p → p.taken = []
  | _ => True

---- Reading A Listing

theorem findKeysFrom_drop
    (n : Nat) (s : Str) :
    findKeysFrom n s = findKeysFrom 0 (s.drop n) := by
  induction n generalizing s with
  | zero => rfl
  | succ n ih =>
      cases s with
      | nil => rfl
      | cons c rest => exact ih rest

theorem keyAt_entry
    {key : Str}
    (hLt : cp '<' ∉ key) (hNe : key ≠ []) (rest : Str) :
    keyAt (keyOpen ++ key ++ keyClose ++ rest) = some key := by
  have hTake :
      (key ++ (keyClose ++ rest)).takeWhile (· ≠ cp '<') =
        key := by
    rw [List.takeWhile_append_of_pos]
    · have hNone :
          (keyClose ++ rest).takeWhile (· ≠ cp '<') = [] :=
        rfl
      rw [hNone, List.append_nil]
    · intro c hC
      simp only [ne_eq, decide_eq_true_eq]
      exact fun hSame => hLt (hSame ▸ hC)
  have hClose : keyClose.isPrefixOf (keyClose ++ rest) = true := by
    rw [List.isPrefixOf_iff_prefix]
    exact List.prefix_append _ _
  have hOpen : keyOpen.isPrefixOf
      (keyOpen ++ (key ++ (keyClose ++ rest))) = true := by
    rw [List.isPrefixOf_iff_prefix]
    exact List.prefix_append _ _
  unfold keyAt
  rw [List.append_assoc, List.append_assoc, if_pos hOpen,
    List.drop_left]
  simp only [hTake, List.drop_left, hClose, hNe, ne_eq,
    not_false_eq_true, and_self, if_true]

/- An element is read, and the reading goes on after it. -/
theorem findKeys_entry
    {key : Str}
    (hLt : cp '<' ∉ key) (hNe : key ≠ []) (rest : Str) :
    findKeysFrom 0 (keyOpen ++ key ++ keyClose ++ rest) =
      key :: findKeysFrom 0 rest := by
  have hAt := keyAt_entry hLt hNe rest
  have hShape :
      keyOpen ++ key ++ keyClose ++ rest =
        cp '<' ::
          (keyOpen.tail ++ key ++ keyClose ++ rest) :=
    rfl
  rw [hShape] at hAt ⊢
  rw [findKeysFrom, hAt]
  simp only
  rw [findKeysFrom_drop]
  have hLength :
      keyOpen.length + key.length + keyClose.length - 1 =
        (keyOpen.tail ++ key ++ keyClose).length := by
    simp only [List.length_append, List.length_tail]
    have hOpen : keyOpen.length = 5 := rfl
    omega
  rw [hLength, List.drop_left]

/- The start of an element is not made up by what comes
before it. -/
theorem not_prefix_before
    {c : Nat} {before after : Str}
    (hNo : NoKey (c :: before))
    (hAfter : after = [] ∨ ∃ rest, after = cp '<' :: rest) :
    keyOpen.isPrefixOf (c :: before ++ after) = false := by
  rw [← Bool.not_eq_true, List.isPrefixOf_iff_prefix]
  rintro ⟨tail, hSplit⟩
  rcases List.append_eq_append_iff.mp hSplit with
    ⟨mid, hHead, _⟩ | ⟨mid, hHead, hTail⟩
  · apply hNo
    rw [hHead]
    exact (List.prefix_append _ _).isInfix
  · cases mid with
    | nil =>
        rw [List.append_nil] at hHead
        apply hNo
        rw [hHead]
    | cons d mid =>
        rcases hAfter with hNil | ⟨rest, hRest⟩
        · rw [hNil] at hTail
          cases hTail
        · rw [hRest, List.cons_append, List.cons.injEq] at hTail
          rw [← hTail.1] at hHead
          have hInner : cp '<' ∈ keyOpen.tail := by
            rw [hHead]
            simp
          revert hInner
          decide

theorem findKeys_skip
    {before after : Str}
    (hNo : NoKey before)
    (hAfter : after = [] ∨ ∃ rest, after = cp '<' :: rest) :
    findKeysFrom 0 (before ++ after) = findKeysFrom 0 after := by
  induction before with
  | nil => rfl
  | cons c before ih =>
      have hNone : keyAt (c :: before ++ after) = none := by
        unfold keyAt
        rw [not_prefix_before hNo hAfter]
        rfl
      rw [List.cons_append] at hNone ⊢
      rw [findKeysFrom, hNone]
      apply ih
      intro hInfix
      exact hNo (hInfix.trans (List.infix_cons (List.infix_rfl)))

theorem entries_start
    (s : Store) (page : List (Str × Str)) :
    s.entries page = [] ∨
      ∃ rest, s.entries page = cp '<' :: rest := by
  cases page with
  | nil => exact Or.inl rfl
  | cons e page => exact Or.inr ⟨_, rfl⟩

/- The keys of an answer are read as they were escaped. -/
theorem findKeys_answer
    {s : Store} {head : Str} {page : List (Str × Str)}
    (hHead : NoKey head) (hTails : ∀ e ∈ page, NoKey e.2)
    (hKeys : ∀ e ∈ page, e.1 ≠ []) :
    findKeys (head ++ s.entries page) =
      page.map fun e => s.escape e.1 := by
  unfold findKeys
  rw [findKeys_skip hHead (entries_start s page)]
  clear hHead
  induction page with
  | nil => rfl
  | cons e page ih =>
      rw [List.forall_mem_cons] at hTails hKeys
      have hShape :
          s.entries (e :: page) =
            keyOpen ++ s.escape e.1 ++ keyClose ++
              (e.2 ++ s.entries page) := by
        simp only [Store.entries, List.flatMap_cons,
          List.append_assoc]
      rw [hShape, findKeys_entry (s.escape_lt _)
        (s.escape_ne _ hKeys.1),
        findKeys_skip hTails.1 (entries_start s page),
        ih hTails.2 hKeys.2, List.map_cons]

---- What A Poll Is Given

theorem mem_sortKeys
    {keys : List Str} {key : Str} :
    key ∈ sortKeys keys ↔ key ∈ keys :=
  List.mem_mergeSort

theorem sortKeys_ordered
    (keys : List Str) :
    (sortKeys keys).Pairwise (· ≤ ·) := by
  have hSorted :
      (sortKeys keys).Pairwise
        fun a b => decide (a ≤ b) = true := by
    apply List.pairwise_mergeSort
    · intro a b c hAB hBC
      rw [decide_eq_true_eq] at hAB hBC ⊢
      exact le_trans hAB hBC
    · intro a b
      rw [Bool.or_eq_true, decide_eq_true_eq, decide_eq_true_eq]
      exact le_total a b
  exact hSorted.imp fun hLe => of_decide_eq_true hLe

theorem sortKeys_nodup
    {keys : List Str}
    (hNodup : keys.Nodup) :
    (sortKeys keys).Nodup :=
  (List.mergeSort_perm keys _).nodup_iff.mpr hNodup

/- Different keys are sorted one above the other. -/
theorem sortKeys_ascending
    {keys : List Str}
    (hNodup : keys.Nodup) :
    (sortKeys keys).Pairwise (· < ·) := by
  have hBoth :=
    (sortKeys_ordered keys).and (sortKeys_nodup hNodup)
  exact hBoth.imp fun h => lt_of_le_of_ne h.1 h.2

theorem mem_pageOf
    {bucket : List S3Object} {start key : Str}
    (hKey : key ∈ pageOf bucket start) :
    key ∈ bucket.map S3Object.key ∧ start < key := by
  have hFilter := List.mem_of_mem_take hKey
  rw [List.mem_filter, mem_sortKeys, decide_eq_true_eq]
    at hFilter
  exact hFilter

theorem pageOf_nodup
    {bucket : List S3Object}
    (hNodup : (bucket.map S3Object.key).Nodup) (start : Str) :
    (pageOf bucket start).Nodup := by
  have hSub :
      (pageOf bucket start).Sublist
        (sortKeys (bucket.map S3Object.key)) :=
    (List.take_sublist _ _).trans List.filter_sublist
  exact hSub.nodup (sortKeys_nodup hNodup)

theorem ne_nil_of_lt
    {start key : Str}
    (hLt : start < key) :
    key ≠ [] := by
  intro hNil
  subst hNil
  exact absurd hLt (List.not_lt_nil start)

/- A listing gives the page, where no key needs an escape. -/
theorem listObjects_answer
    {s : Store} {bucket : List S3Object} {start answer : Str}
    (hAnswer : s.Answers bucket start answer)
    (hPlain : ∀ key ∈ pageOf bucket start, s.escape key = key) :
    listObjects answer = sortKeys (pageOf bucket start) := by
  rcases hAnswer with ⟨head, page, hPage, hText, hHead, hTails⟩
  have hMem : ∀ e ∈ page, e.1 ∈ pageOf bucket start := by
    intro e hE
    rw [← hPage]
    exact List.mem_map_of_mem hE
  have hFound : findKeys answer = page.map fun e => s.escape e.1 := by
    rw [hText]
    exact findKeys_answer hHead hTails fun e hE =>
      ne_nil_of_lt (mem_pageOf (hMem e hE)).2
  unfold listObjects
  rw [hFound, ← hPage]
  congr 1
  exact List.map_congr_left fun e hE =>
    hPlain e.1 (hMem e hE)

theorem sliceTo_sublist
    (n : Int) (keys : List Str) :
    (sliceTo n keys).Sublist keys := by
  unfold sliceTo
  split
  · exact List.take_sublist _ _
  · exact List.take_sublist _ _

theorem pollKeys_sublist
    (answer start : Str) (maxObjects : Int) :
    (pollKeys answer start maxObjects).Sublist
      (listObjects answer) :=
  (sliceTo_sublist _ _).trans List.filter_sublist

theorem pollKeys_above
    {answer start key : Str} {maxObjects : Int}
    (hKey : key ∈ pollKeys answer start maxObjects) :
    start < key := by
  have hFilter := (sliceTo_sublist _ _).subset hKey
  exact of_decide_eq_true (List.mem_filter.mp hFilter).2

---- The Invariant

/- Two objects of a bucket with one key are one. -/
theorem object_unique
    {bucket : List S3Object}
    (hNodup : (bucket.map S3Object.key).Nodup) {o o' : S3Object}
    (hO : o ∈ bucket) (hO' : o' ∈ bucket) (hKey : o.key = o'.key) :
    o = o' :=
  List.inj_on_of_nodup_map hNodup hO hO' hKey

/- What holds of a poll on its way. -/
structure PollInv (w : Puller) (p : S3Poll) : Prop where
  started : p.start = w.cursor
  ahead : w.cursor ≤ p.last
  known : ∀ key ∈ p.listed, key ∈ w.bucket.map S3Object.key
  ascending : p.rest.Pairwise (· < ·)
  above : ∀ key ∈ p.rest, p.last < key
  left :
    p.rest ≠ [] → ∀ key ∈ p.listed, p.last < key → key ∈ p.rest
  done :
    ∀ o ∈ w.bucket, o.key ∈ p.listed → o.key ≤ p.last →
      o.lines ≠ [] → (o.key, o.lines) ∈ w.log
  reached : ∀ e ∈ w.log, e.1 ≤ p.last
  held : p.taken = [] → ∀ e ∈ w.log, e.1 ≤ w.cursor

/- What holds between the steps. -/
structure PullInv (w : Puller) : Prop where
  keys : (w.bucket.map S3Object.key).Nodup
  pulled : Pulled w
  idle : w.poll = none → ∀ e ∈ w.log, e.1 ≤ w.cursor
  polling : ∀ p, w.poll = some p → PollInv w p

---- What A Step Keeps

theorem mem_entry
    {o : S3Object} {e : Str × List Str}
    (hE : e ∈ o.entry) :
    e = (o.key, o.lines) := by
  unfold S3Object.entry at hE
  split at hE
  · cases hE
  · exact List.mem_singleton.mp hE

theorem entry_of_lines
    {o : S3Object}
    (hLines : o.lines ≠ []) :
    (o.key, o.lines) ∈ o.entry := by
  unfold S3Object.entry
  rw [if_neg hLines]
  exact List.mem_singleton_self _

theorem PullInv.put
    {w : Puller} {o : S3Object}
    (hInv : PullInv w) (hNew : o.key ∉ w.bucket.map S3Object.key)
    (hClean : w.cursor < o.key ∨ o.lines = []) :
    PullInv { w with bucket := w.bucket ++ [o] } := by
  constructor
  · show ((w.bucket ++ [o]).map S3Object.key).Nodup
    rw [List.map_append]
    exact hInv.keys.append (List.nodup_singleton _)
      (List.disjoint_singleton.mpr hNew)
  · constructor
    · intro o' hMem hLe hLines
      rcases List.mem_append.mp hMem with hOld | hAdded
      · exact hInv.pulled.complete o' hOld hLe hLines
      · rw [List.mem_singleton.mp hAdded] at hLe hLines
        rcases hClean with hAbove | hNone
        · exact absurd hLe (not_le_of_gt hAbove)
        · exact absurd hNone hLines
    · exact hInv.pulled.once
  · exact hInv.idle
  · intro p hPoll
    have hP := hInv.polling p hPoll
    refine
      { started := hP.started
        ahead := hP.ahead
        known := ?_
        ascending := hP.ascending
        above := hP.above
        left := hP.left
        done := ?_
        reached := hP.reached
        held := hP.held }
    · intro key hKey
      rw [List.map_append]
      exact List.mem_append_left _ (hP.known key hKey)
    · intro o' hMem hListed hLe hLines
      rcases List.mem_append.mp hMem with hOld | hAdded
      · exact hP.done o' hOld hListed hLe hLines
      · -- the new key was in no listing of the bucket
        rw [List.mem_singleton.mp hAdded] at hListed
        exact absurd (hP.known _ hListed) hNew

theorem PullInv.list
    {s : Store} {w : Puller} {answer : Str} {maxObjects : Int}
    (hInv : PullInv w) (hIdle : w.poll = none)
    (hAnswer : s.Answers w.bucket w.cursor answer)
    (hPlain : ∀ key ∈ pageOf w.bucket w.cursor,
      s.escape key = key) :
    PullInv
      { w with
        poll := some
          { start := w.cursor
            listed := pollKeys answer w.cursor maxObjects
            last := w.cursor
            rest := pollKeys answer w.cursor maxObjects
            taken := [] } } := by
  have hList := listObjects_answer hAnswer hPlain
  have hSub := pollKeys_sublist answer w.cursor maxObjects
  rw [hList] at hSub
  constructor
  · exact hInv.keys
  · exact ⟨hInv.pulled.complete, hInv.pulled.once⟩
  · intro hNone
    cases hNone
  · intro p hPoll
    cases hPoll
    refine
      { started := rfl
        ahead := le_refl _
        known := ?_
        ascending := ?_
        above := fun key hKey => pollKeys_above hKey
        left := fun _ key hKey _ => hKey
        done := ?_
        reached := hInv.idle hIdle
        held := fun _ => hInv.idle hIdle }
    · intro key hKey
      have hPage := mem_sortKeys.mp (hSub.subset hKey)
      exact (mem_pageOf hPage).1
    · exact (sortKeys_ascending
        (pageOf_nodup hInv.keys w.cursor)).sublist hSub
    · intro o _ hListed hLe
      exact absurd hLe (not_le_of_gt (pollKeys_above hListed))

theorem PullInv.fetch
    {w : Puller} {p : S3Poll} {o : S3Object} {rest : List Str}
    (hInv : PullInv w) (hPoll : w.poll = some p)
    (hNext : p.rest = o.key :: rest) (hObject : o ∈ w.bucket) :
    PullInv
      { w with
        log := w.log ++ o.entry
        poll := some
          { p with
            last := o.key
            rest := rest
            taken := p.taken ++ o.entry.map Prod.fst } } := by
  have hP := hInv.polling p hPoll
  have hAbove : p.last < o.key := by
    apply hP.above
    rw [hNext]
    exact List.mem_cons_self
  have hAscending := hP.ascending
  rw [hNext, List.pairwise_cons] at hAscending
  have hReached : ∀ e ∈ w.log ++ o.entry, e.1 ≤ o.key := by
    intro e hE
    rcases List.mem_append.mp hE with hOld | hNew
    · exact le_of_lt (lt_of_le_of_lt (hP.reached e hOld) hAbove)
    · rw [mem_entry hNew]
  constructor
  · exact hInv.keys
  · constructor
    · intro o' hMem hLe hLines
      exact List.mem_append_left _
        (hInv.pulled.complete o' hMem hLe hLines)
    · -- what is in the log is below the key
      show ((w.log ++ o.entry).map Prod.fst).Nodup
      rw [List.map_append]
      apply hInv.pulled.once.append
      · unfold S3Object.entry
        split
        · exact List.nodup_nil
        · exact List.nodup_singleton _
      · intro key hOld hNew
        rcases List.mem_map.mp hOld with ⟨e, hE, hKey⟩
        rcases List.mem_map.mp hNew with ⟨e', hE', hKey'⟩
        have hBelow := lt_of_le_of_lt (hP.reached e hE) hAbove
        rw [hKey, ← hKey', mem_entry hE'] at hBelow
        exact absurd hBelow (lt_irrefl _)
  · intro hNone
    cases hNone
  · intro p' hPoll'
    cases hPoll'
    refine
      { started := hP.started
        ahead := le_of_lt (lt_of_le_of_lt hP.ahead hAbove)
        known := hP.known
        ascending := hAscending.2
        above := hAscending.1
        left := ?_
        done := ?_
        reached := hReached
        held := ?_ }
    · intro _ key hListed hKey
      have hLeft : key ∈ p.rest := by
        apply hP.left
        · rw [hNext]
          exact List.cons_ne_nil _ _
        · exact hListed
        · exact lt_trans hAbove hKey
      rw [hNext, List.mem_cons] at hLeft
      rcases hLeft with hSame | hLater
      · rw [hSame] at hKey
        exact absurd hKey (lt_irrefl _)
      · exact hLater
    · intro o' hMem hListed hLe hLines
      rcases le_or_gt o'.key p.last with hOld | hNew
      · exact List.mem_append_left _
          (hP.done o' hMem hListed hOld hLines)
      · have hLeft : o'.key ∈ p.rest := by
          apply hP.left
          · rw [hNext]
            exact List.cons_ne_nil _ _
          · exact hListed
          · exact hNew
        rw [hNext, List.mem_cons] at hLeft
        rcases hLeft with hSame | hLater
        · have hUnique :=
            object_unique hInv.keys hMem hObject hSame
          rw [hUnique] at hLines ⊢
          exact List.mem_append_right _ (entry_of_lines hLines)
        · exact absurd hLe
            (not_le_of_gt (hAscending.1 _ hLater))
    · intro hTaken e hE
      rw [List.append_eq_nil_iff, List.map_eq_nil_iff] at hTaken
      rw [hTaken.2, List.append_nil] at hE
      exact hP.held hTaken.1 e hE

theorem PullInv.refuse
    {w : Puller} {p : S3Poll}
    (hInv : PullInv w) (hPoll : w.poll = some p) :
    PullInv { w with poll := some { p with rest := [] } } := by
  have hP := hInv.polling p hPoll
  constructor
  · exact hInv.keys
  · exact ⟨hInv.pulled.complete, hInv.pulled.once⟩
  · intro hNone
    cases hNone
  · intro p' hPoll'
    cases hPoll'
    exact
      { started := hP.started
        ahead := hP.ahead
        known := hP.known
        ascending := List.Pairwise.nil
        above := fun _ hKey => absurd hKey List.not_mem_nil
        left := fun hNe => absurd rfl hNe
        done := hP.done
        reached := hP.reached
        held := hP.held }

theorem PullInv.save
    {w : Puller} {p : S3Poll}
    (hInv : PullInv w) (hPoll : w.poll = some p)
    (hClean : ∀ o ∈ w.bucket, p.start < o.key →
      o.key ≤ p.last → o.lines ≠ [] → o.key ∈ p.listed) :
    PullInv { w with cursor := p.last, poll := none } := by
  have hP := hInv.polling p hPoll
  constructor
  · exact hInv.keys
  · constructor
    · intro o hMem hLe hLines
      rcases le_or_gt o.key w.cursor with hOld | hNew
      · exact hInv.pulled.complete o hMem hOld hLines
      · rw [← hP.started] at hNew
        have hListed := hClean o hMem hNew hLe hLines
        exact hP.done o hMem hListed hLe hLines
    · exact hInv.pulled.once
  · intro _
    exact hP.reached
  · intro p' hPoll'
    cases hPoll'

theorem PullInv.abort
    {w : Puller} {p : S3Poll}
    (hInv : PullInv w) (hPoll : w.poll = some p)
    (hTaken : p.taken = []) :
    PullInv { w with poll := none } := by
  constructor
  · exact hInv.keys
  · exact ⟨hInv.pulled.complete, hInv.pulled.once⟩
  · intro _
    exact (hInv.polling p hPoll).held hTaken
  · intro p' hPoll'
    cases hPoll'

theorem PullInv.step
    {s : Store} {w w' : Puller} {e : PullEvent}
    (hInv : PullInv w) (hStep : s.Step w e w')
    (hClean : s.Clean ⟨w, e, w'⟩) :
    PullInv w' := by
  cases hStep with
  | put o _ hNew => exact hInv.put hNew hClean
  | list answer maxObjects hIdle hAnswer =>
      exact hInv.list hIdle hAnswer hClean
  | unlisted hIdle => exact hInv
  | fetch p o rest hPoll hNext hObject =>
      exact hInv.fetch hPoll hNext hObject
  | refuse p key rest hPoll _ => exact hInv.refuse hPoll
  | storeThenRaise p o rest _ _ _ _ => exact absurd hClean id
  | save p hPoll _ => exact hInv.save hPoll (hClean p hPoll)
  | abort p hPoll => exact hInv.abort hPoll (hClean p hPoll)

/- A listing of a clean step gives keys of the bucket. -/
theorem exact_of_clean
    {s : Store} {w w' : Puller} {e : PullEvent}
    (hStep : s.Step w e w') (hClean : s.Clean ⟨w, e, w'⟩) :
    e.Exact w := by
  cases hStep with
  | list answer maxObjects _ hAnswer =>
      intro key hKey
      rw [listObjects_answer hAnswer hClean, mem_sortKeys] at hKey
      exact (mem_pageOf hKey).1
  | _ => trivial

---- Runs Of The Puller

/- Before the first poll. -/
structure Puller.Fresh (w : Puller) : Prop where
  keys : (w.bucket.map S3Object.key).Nodup
  named : ∀ o ∈ w.bucket, o.key ≠ []
  cursor : w.cursor = []
  log : w.log = []
  poll : w.poll = none

theorem Puller.Fresh.inv
    {w : Puller}
    (hFresh : w.Fresh) :
    PullInv w := by
  constructor
  · exact hFresh.keys
  · constructor
    · intro o hMem hLe
      rw [hFresh.cursor] at hLe
      have hNil : o.key = [] := by
        rcases hKey : o.key with _ | ⟨c, key⟩
        · rfl
        · rw [hKey] at hLe
          exact absurd hLe (not_le_of_gt (List.nil_lt_cons c key))
      exact absurd hNil (hFresh.named o hMem)
    · rw [hFresh.log]
      exact List.nodup_nil
  · intro _ e hE
    rw [hFresh.log] at hE
    cases hE
  · intro p hPoll
    rw [hFresh.poll] at hPoll
    cases hPoll

/- In a run of clean steps nothing below the cursor is
skipped, nothing is ingested twice, and a listing gives
keys of the bucket. -/
theorem pulled_exactly_once
    (s : Store)
    {w w' : Puller}
    {trace : List (Transition Puller PullEvent)}
    (hFresh : w.Fresh)
    (hRun : Run s.Step w trace w')
    (hClean : ∀ t ∈ trace, s.Clean t) :
    ∀ t ∈ trace, Pulled t.post ∧ t.label.Exact t.pre := by
  have hInv := hFresh.inv
  clear hFresh
  induction hRun with
  | nil w => simp
  | cons hStep _ ih =>
      rw [List.forall_mem_cons] at hClean ⊢
      have hNext := hInv.step hStep hClean.1
      exact ⟨⟨hNext.pulled, exact_of_clean hStep hClean.1⟩,
        ih hClean.2 hNext⟩

---- One Object

/- A character as XML text has it. -/
def xmlEntity (c : Nat) : Str :=
  if c = cp '&' then lit "&amp;"
  else if c = cp '<' then lit "&lt;"
  else if c = cp '>' then lit "&gt;"
  else if c = cp '"' then lit "&quot;"
  else if c = cp '\'' then lit "&apos;"
  else if c < 32 then
    lit "&#" ++ (Nat.toDigits 10 c).map Char.toNat ++ lit ";"
  else [c]

theorem xmlEntity_lt (c : Nat) : cp '<' ∉ xmlEntity c := by
  by_cases hControl : c < 32
  · revert c
    decide
  · unfold xmlEntity
    rw [if_neg hControl]
    split
    · decide
    split
    · decide
    · rename_i _ hLt
      repeat' split
      · decide
      · decide
      · decide
      · exact fun hMem => hLt (List.mem_singleton.mp hMem).symm

theorem xmlEntity_ne (c : Nat) : xmlEntity c ≠ [] := by
  unfold xmlEntity
  repeat' split
  all_goals simp [lit]

theorem xmlEntity_plain
    {c : Nat}
    (hPlain : xmlSpecial c = false) :
    xmlEntity c = [c] := by
  simp only [xmlSpecial, Bool.or_eq_false_iff,
    decide_eq_false_iff_not, beq_eq_false_iff_ne] at hPlain
  rcases hPlain with ⟨⟨⟨⟨⟨hControl, hAmp⟩, hLt⟩, hGt⟩, hQuot⟩, hApos⟩
  unfold xmlEntity
  rw [if_neg hAmp, if_neg hLt, if_neg hGt, if_neg hQuot,
    if_neg hApos, if_neg hControl]

/- A store that escapes what it has to. -/
def xmlStore : Store where
  escape := fun key => key.flatMap xmlEntity
  escape_lt := by
    intro key hMem
    rcases List.mem_flatMap.mp hMem with ⟨c, _, hC⟩
    exact xmlEntity_lt c hC
  escape_ne := by
    intro key hNe hNil
    rcases List.exists_cons_of_ne_nil hNe with ⟨c, rest, hKey⟩
    rw [hKey, List.flatMap_cons, List.append_eq_nil_iff] at hNil
    exact xmlEntity_ne c hNil.1
  escape_plain := by
    intro key hPlain
    induction key with
    | nil => rfl
    | cons c rest ih =>
        rw [List.forall_mem_cons] at hPlain
        rw [List.flatMap_cons, xmlEntity_plain hPlain.1,
          ih hPlain.2]
        rfl

/- An answer with one key. -/
def answerOne (key : Str) : Str :=
  lit "<ListBucketResult>" ++
    xmlStore.entries [(key, lit "</ListBucketResult>")]

theorem pageOf_one
    {o : S3Object}
    (hKey : o.key ≠ []) :
    pageOf [o] [] = [o.key] := by
  rcases hShape : o.key with _ | ⟨c, rest⟩
  · exact absurd hShape hKey
  · simp [pageOf, sortKeys, hShape]

theorem noKey_after : NoKey (lit "</ListBucketResult>") := by
  unfold NoKey
  decide

theorem answerOne_answers
    {o : S3Object}
    (hKey : o.key ≠ []) :
    xmlStore.Answers [o] [] (answerOne o.key) := by
  refine ⟨lit "<ListBucketResult>",
    [(o.key, lit "</ListBucketResult>")], ?_, rfl, ?_, ?_⟩
  · rw [pageOf_one hKey]
    rfl
  · unfold NoKey
    decide
  · intro e hE
    rw [List.mem_singleton.mp hE]
    exact noKey_after

theorem listObjects_one
    {key : Str}
    (hKey : key ≠ []) :
    listObjects (answerOne key) = [xmlStore.escape key] := by
  have hFound : findKeys (answerOne key) = [xmlStore.escape key] := by
    unfold answerOne
    rw [findKeys_answer]
    · rfl
    · unfold NoKey
      decide
    · intro e hE
      rw [List.mem_singleton.mp hE]
      exact noKey_after
    · intro e hE
      rw [List.mem_singleton.mp hE]
      exact hKey
  unfold listObjects sortKeys
  rw [hFound, List.mergeSort_singleton]

theorem pollKeys_one
    {key : Str}
    (hKey : key ≠ []) :
    pollKeys (answerOne key) [] 50 = [xmlStore.escape key] := by
  unfold pollKeys
  rw [listObjects_one hKey]
  have hNe := xmlStore.escape_ne key hKey
  rcases hShape : xmlStore.escape key with _ | ⟨c, rest⟩
  · exact absurd hShape hNe
  · simp [sliceTo]

---- Where The Puller Fails

def earlyObject : S3Object :=
  ⟨lit "a.log", lit "first\n"⟩

def lateObject : S3Object :=
  ⟨lit "b.log", lit "second\n"⟩

def pullerOver (bucket : List S3Object) : Puller :=
  ⟨bucket, [], [], none⟩

theorem pullerOver_fresh
    {o : S3Object}
    (hKey : o.key ≠ []) :
    (pullerOver [o]).Fresh where
  keys := List.nodup_singleton _
  named := by
    intro o' hMem
    rw [List.mem_singleton.mp hMem]
    exact hKey
  cursor := rfl
  log := rfl
  poll := rfl

/- A poll that was given one key. -/
def pollOne (key : Str) : S3Poll :=
  ⟨[], [key], [], [key], []⟩

/- The poll after the object. -/
def pollTaken (o : S3Object) : S3Poll :=
  ⟨[], [o.key], o.key, [], [o.key]⟩

theorem list_one
    {o : S3Object}
    (log : List (Str × List Str)) (hKey : o.key ≠ [])
    (hPlain : xmlStore.escape o.key = o.key) :
    xmlStore.Step ⟨[o], [], log, none⟩
      (.listed [o.key] [o.key])
      ⟨[o], [], log, some (pollOne o.key)⟩ := by
  have hStep :=
    Store.Step.list ⟨[o], [], log, none⟩ (answerOne o.key) 50
      rfl (answerOne_answers hKey)
  simp only [pageOf_one hKey, listObjects_one hKey,
    pollKeys_one hKey, hPlain] at hStep
  exact hStep

theorem fetch_one
    {o : S3Object}
    (log : List (Str × List Str)) (hLines : o.lines ≠ []) :
    xmlStore.Step
      ⟨[o], [], log, some (pollOne o.key)⟩
      (.fetched o.key)
      ⟨[o], [], log ++ [(o.key, o.lines)], some (pollTaken o)⟩ := by
  have hStep :=
    @Store.Step.fetch xmlStore
      ⟨[o], [], log, some (pollOne o.key)⟩ (pollOne o.key) o []
      rfl rfl (List.mem_singleton_self o)
  simp only [S3Object.entry, if_neg hLines] at hStep
  exact hStep

/- The first poll, and the state it leaves. -/
def firstPoll : List (Transition Puller PullEvent) :=
  [⟨pullerOver [lateObject],
      .listed [lateObject.key] [lateObject.key],
      ⟨[lateObject], [], [], some (pollOne lateObject.key)⟩⟩,
    ⟨⟨[lateObject], [], [], some (pollOne lateObject.key)⟩,
      .fetched lateObject.key,
      ⟨[lateObject], [], [(lateObject.key, lateObject.lines)],
        some (pollTaken lateObject)⟩⟩,
    ⟨⟨[lateObject], [], [(lateObject.key, lateObject.lines)],
        some (pollTaken lateObject)⟩,
      .saved,
      ⟨[lateObject], lateObject.key,
        [(lateObject.key, lateObject.lines)], none⟩⟩]

theorem firstPoll_run :
    Run xmlStore.Step (pullerOver [lateObject]) firstPoll
      ⟨[lateObject], lateObject.key,
        [(lateObject.key, lateObject.lines)], none⟩ :=
  .cons (list_one [] (by decide) (by decide))
    (.cons (fetch_one [] (by decide))
      (.cons (Store.Step.save _ (pollTaken lateObject) rfl rfl)
        (.nil _)))

theorem first_poll_pulled :
    Pulled
      ⟨[lateObject], lateObject.key,
        [(lateObject.key, lateObject.lines)], none⟩ := by
  have hAll :=
    pulled_exactly_once xmlStore
      (pullerOver_fresh (o := lateObject) (by decide))
      firstPoll_run
      (by
        intro t hT
        simp only [firstPoll, List.mem_cons, List.not_mem_nil,
          or_false] at hT
        rcases hT with hT | hT | hT
        · rw [hT]
          intro key hKey
          rw [List.mem_singleton.mp hKey]
          decide
        · rw [hT]
          trivial
        · rw [hT]
          intro p hPoll o hMem _ _ _
          cases hPoll
          rw [List.mem_singleton.mp hMem]
          exact List.mem_singleton_self _)
  exact (hAll _ (by
    unfold firstPoll
    exact List.mem_of_mem_getLast? rfl)).1

/- An object whose key is below the saved cursor is never
listed. -/
theorem late_object_skipped :
    ∃ trace w,
      Run xmlStore.Step (pullerOver [lateObject]) trace w ∧
      ¬ Pulled w := by
  refine ⟨_, _, firstPoll_run.append
    (.cons (.put _ earlyObject (by decide) (by decide))
      (.nil _)), ?_⟩
  intro hPulled
  have hLogged :=
    hPulled.complete earlyObject (by decide) (by decide)
      (by decide)
  revert hLogged
  decide

end ThreatOrbit.Ingest
