import ThreatOrbit.Lib.Run
import ThreatOrbit.Lib.Python
import ThreatOrbit.Lib.Ranking

/-
  The notification bell: a burst is folded into one row that
  counts its events, and the badge adds up the unread rows.
-/

---- The Bell

namespace ThreatOrbit.Platform

open Lib

/- A row of `notifications`. Times are in microseconds: their
texts are ordered as they are. -/
structure Notification where
  id : Str
  ts : Nat
  type : Str
  severity : Str
  title : Str
  detail : Option Str
  link : Option Str
  read : Bool
  groupKey : Option Str
  rollupCount : Nat
  orgId : Str
deriving DecidableEq, Repr

/- The arguments of `notify`. -/
structure NotifyCall where
  type : Str
  title : Str
  severity : Str
  detail : Option Str
  link : Option Str
  groupKey : Option Str
  groupWindowSec : Nat
  rollupTitle : Option Str
  rollupLink : Option Str
  orgId : Str
deriving DecidableEq, Repr

/- The row a later event of a burst is folded into. -/
def openBucket
    (now : Nat)
    (call : NotifyCall)
    (rows : List Notification) : Option Notification :=
  match call.groupKey with
  | none | some [] => none
  | some key =>
      let cutoff :=
        (now / 1000000 - call.groupWindowSec) * 1000000
      top Notification.ts
        (rows.filter fun r =>
          r.groupKey == some key && r.orgId == call.orgId &&
            cutoff ≤ r.ts)

/- The bucket with one more event. -/
def Notification.roll
    (call : NotifyCall)
    (now : Nat)
    (r : Notification) : Notification :=
  let n := (if r.rollupCount = 0 then 1 else r.rollupCount) + 1
  { r with
    rollupCount := n
    ts := now
    read := false
    title :=
      replaceAll (lit "{n}") (natStr n)
        (orStr call.rollupTitle (lit "{n} × " ++ call.title))
    severity := call.severity
    detail := call.detail
    link :=
      match call.rollupLink with
      | none | some [] => call.link
      | some link => some link }

/- The row of the first event. -/
def NotifyCall.row
    (call : NotifyCall)
    (id : Str)
    (now : Nat) : Notification where
  id := id
  ts := now
  type := call.type
  severity := call.severity
  title := call.title
  detail := call.detail
  link := call.link
  read := false
  groupKey := call.groupKey
  rollupCount := 1
  orgId := call.orgId

/- `notify`, with the id a new row gets: the rows, and the id
of the one that represents the event. -/
def notify
    (nid : Str)
    (now : Nat)
    (call : NotifyCall)
    (rows : List Notification) : List Notification × Str :=
  match openBucket now call rows with
  | some bucket =>
      (rows.map fun r =>
        if r.id = bucket.id then bucket.roll call now else r,
        bucket.id)
  | none => (rows ++ [call.row nid now], nid)

/- Whether the rows `mark_read` sets include one. -/
def marks (id : Option Str) (r : Notification) : Bool :=
  match id with
  | none | some [] => !r.read
  | some id => r.id == id

def markRead
    (id : Option Str)
    (rows : List Notification) : List Notification :=
  rows.map fun r => if marks id r then { r with read := true } else r

/- The rows a workspace sees. -/
def visible
    (enforced : Bool)
    (org : Str)
    (r : Notification) : Bool :=
  !enforced || r.orgId == org

structure Bell where
  items : List Notification
  unread : Nat

/- `ORDER BY ts DESC, id DESC`. -/
def listedBefore (a b : Notification) : Prop :=
  b.ts < a.ts ∨ b.ts = a.ts ∧ b.id ≤ a.id

instance : DecidableRel listedBefore :=
  fun _ _ => inferInstanceAs (Decidable (_ ∨ _ ∧ _))

def listNotifications
    (enforced : Bool)
    (org : Str)
    (limit : Nat)
    (unreadOnly : Bool)
    (rows : List Notification) : Bell where
  items :=
    ((rows.filter fun r =>
      visible enforced org r && (!unreadOnly || !r.read)).insertionSort
        listedBefore).take limit
  unread :=
    ((rows.filter fun r =>
      !r.read && visible enforced org r).map
        Notification.rollupCount).sum

---- Events And Readers

/- The calls: an event, or a reader of a workspace who marks
one row or all. -/
inductive BellCall where
| notify (nid : Str) (now : Nat) (call : NotifyCall)
| markRead (org : Str) (id : Option Str)
deriving DecidableEq, Repr

/- The rows, and of each id the events it stands for since it
was last marked read for the workspace it belongs to. -/
structure Desk where
  rows : List Notification
  since : Str → Nat

/- Whether a reader's mark is for a row. -/
def readerMarks
    (enforced : Bool)
    (org : Str)
    (id : Option Str)
    (r : Notification) : Bool :=
  marks id r && visible enforced org r

/- The events not read after a reader has marked rows. -/
def sinceMarked
    (enforced : Bool)
    (org : Str)
    (id : Option Str)
    (d : Desk)
    (x : Str) : Nat :=
  if d.rows.any fun r =>
      r.id == x && readerMarks enforced org id r then 0
  else d.since x

/- One call. The id of a new row is not in use. -/
inductive BellStep
    (enforced : Bool) : Desk → BellCall → Desk → Prop
| notify
    (d : Desk) (nid : Str) (now : Nat) (call : NotifyCall)
    (hFresh : ∀ r ∈ d.rows, r.id ≠ nid) :
    BellStep enforced d (.notify nid now call)
      (let out := notify nid now call d.rows
       ⟨out.1,
        Function.update d.since out.2 (d.since out.2 + 1)⟩)
| markRead (d : Desk) (org : Str) (id : Option Str) :
    BellStep enforced d (.markRead org id)
      ⟨markRead id d.rows, sinceMarked enforced org id d⟩

/- The events a workspace has not read. -/
def Desk.pending
    (enforced : Bool)
    (org : Str)
    (d : Desk) : Nat :=
  ((d.rows.filter (visible enforced org)).map
    fun r => d.since r.id).sum

/- The badge of every workspace counts its events that are not
read. -/
def CountsEvents (enforced : Bool) (d : Desk) : Prop :=
  ∀ org limit unreadOnly,
    (listNotifications enforced org limit unreadOnly
      d.rows).unread = d.pending enforced org

/- A reader of a workspace leaves the rows of the others. -/
def OwnRows
    (enforced : Bool)
    (e : Transition Desk BellCall) : Prop :=
  ∀ org id, e.label = .markRead org id →
    e.post.rows.filter (fun r => !visible enforced org r) =
      e.pre.rows.filter (fun r => !visible enforced org r)

/- No event is folded into a row that was read, and no reader
sets a row of another workspace. -/
def FitsBell
    (enforced : Bool)
    (e : Transition Desk BellCall) : Prop :=
  match e.label with
  | .notify _ now call =>
      ∀ bucket, openBucket now call e.pre.rows = some bucket →
        bucket.read = false
  | .markRead org id =>
      ∀ r ∈ e.pre.rows, r.read = false → marks id r = true →
        visible enforced org r = true

/- A bell without rows. -/
structure Desk.Empty (d : Desk) : Prop where
  rows : d.rows = []
  since : ∀ x, d.since x = 0

---- The Badge

section

variable {enforced : Bool}
variable {d : Desk}

/- What a row adds to the badge. -/
def Notification.shown (r : Notification) : Nat :=
  if r.read then 0 else r.rollupCount

/- Every row adds the events that were not read since. -/
structure BellInv (d : Desk) : Prop where
  ids : (d.rows.map Notification.id).Nodup
  counted : ∀ r ∈ d.rows, d.since r.id = r.shown
  held : ∀ r ∈ d.rows, 1 ≤ r.rollupCount
  absent :
    ∀ x, (∀ r ∈ d.rows, r.id ≠ x) → d.since x = 0

theorem Desk.Empty.inv
    (hEmpty : d.Empty) :
    BellInv d := by
  rcases hEmpty with ⟨hRows, hSince⟩
  constructor
  · rw [hRows]
    exact List.nodup_nil
  · simp [hRows]
  · simp [hRows]
  · exact fun x _ => hSince x

/- The badge adds up the rows the workspace sees. -/
theorem unread_eq
    (enforced : Bool) (org : Str) (limit : Nat) (unreadOnly : Bool)
    (rows : List Notification) :
    (listNotifications enforced org limit unreadOnly
      rows).unread =
        ((rows.filter (visible enforced org)).map
          Notification.shown).sum := by
  unfold listNotifications
  dsimp only
  induction rows with
  | nil => rfl
  | cons r rest ih =>
      rw [List.filter_cons, List.filter_cons]
      cases hSeen : visible enforced org r with
      | false => simpa using ih
      | true =>
          cases hRead : r.read with
          | true => simpa [Notification.shown, hRead] using ih
          | false => simp [Notification.shown, hRead, ih]

theorem BellInv.counts
    (hInv : BellInv d) :
    CountsEvents enforced d := by
  intro org limit unreadOnly
  rw [unread_eq, Desk.pending]
  congr 1
  apply List.map_congr_left
  intro r hR
  exact (hInv.counted r (List.mem_of_mem_filter hR)).symm

/- A badge that counts the events agrees row by row where no
row shows too few. -/
theorem shown_eq_of_counts
    (hCounts : CountsEvents enforced d) {r : Notification}
    (hR : r ∈ d.rows)
    (hAll :
      (∀ x ∈ d.rows, d.since x.id ≤ x.shown) ∨
        ∀ x ∈ d.rows, x.shown ≤ d.since x.id) :
    r.shown = d.since r.id := by
  have hSum := hCounts r.orgId 0 false
  rw [unread_eq, Desk.pending] at hSum
  have hSeen : r ∈ d.rows.filter (visible enforced r.orgId) := by
    rw [List.mem_filter]
    exact ⟨hR, by simp [visible]⟩
  by_contra hDiffer
  rcases hAll with hFew | hMany
  · have hLess :
        ((d.rows.filter (visible enforced r.orgId)).map
            fun x => d.since x.id).sum <
          ((d.rows.filter (visible enforced r.orgId)).map
            Notification.shown).sum := by
      apply List.sum_lt_sum
      · intro x hX
        exact hFew x (List.mem_of_mem_filter hX)
      · have hLe := hFew r hR
        exact ⟨r, hSeen, by omega⟩
    omega
  · have hLess :
        ((d.rows.filter (visible enforced r.orgId)).map
            Notification.shown).sum <
          ((d.rows.filter (visible enforced r.orgId)).map
            fun x => d.since x.id).sum := by
      apply List.sum_lt_sum
      · intro x hX
        exact hMany x (List.mem_of_mem_filter hX)
      · have hLe := hMany r hR
        exact ⟨r, hSeen, by omega⟩
    omega

theorem mem_of_openBucket
    {now : Nat} {call : NotifyCall} {rows : List Notification}
    {bucket : Notification}
    (hBucket : openBucket now call rows = some bucket) :
    bucket ∈ rows := by
  unfold openBucket at hBucket
  split at hBucket
  · cases hBucket
  · cases hBucket
  · exact List.mem_of_mem_filter (mem_of_top hBucket)

/- The rows after an event that is folded. -/
theorem mem_notify_of_bucket
    {nid : Str} {now : Nat} {call : NotifyCall}
    {rows : List Notification} {bucket r : Notification}
    (hBucket : openBucket now call rows = some bucket)
    (hR : r ∈ (notify nid now call rows).1) :
    r = bucket.roll call now ∨
      (r ∈ rows ∧ r.id ≠ bucket.id) := by
  unfold notify at hR
  rw [hBucket] at hR
  rcases List.mem_map.mp hR with ⟨x, hX, hIs⟩
  by_cases hHere : x.id = bucket.id
  · rw [if_pos hHere] at hIs
    exact .inl hIs.symm
  · rw [if_neg hHere] at hIs
    rw [← hIs]
    exact .inr ⟨hX, hHere⟩

theorem notify_ids_of_bucket
    (nid : Str)
    {now : Nat} {call : NotifyCall} {rows : List Notification}
    {bucket : Notification}
    (hBucket : openBucket now call rows = some bucket) :
    (notify nid now call rows).1.map Notification.id =
      rows.map Notification.id := by
  unfold notify
  rw [hBucket, List.map_map]
  apply List.map_congr_left
  intro r _
  dsimp only [Function.comp_apply]
  split
  · rename_i hHere
    exact hHere.symm
  · rfl

/- What a folded event makes of a bell that counts. -/
theorem BellInv.fold
    {now : Nat} {call : NotifyCall} {bucket : Notification}
    (hInv : BellInv d) (nid : Str)
    (hBucket : openBucket now call d.rows = some bucket) :
    let out := notify nid now call d.rows
    let since :=
      Function.update d.since out.2 (d.since out.2 + 1)
    (∀ r ∈ out.1, r.shown = since r.id ∨
      r = bucket.roll call now ∧
        r.shown = bucket.rollupCount + 1 ∧
          since r.id = bucket.shown + 1) ∧
      ∀ r ∈ out.1, 1 ≤ r.rollupCount := by
  intro out since
  have hMem := mem_of_openBucket hBucket
  have hId : out.2 = bucket.id := by
    show (notify nid now call d.rows).2 = bucket.id
    unfold notify
    rw [hBucket]
  have hHeld := hInv.held bucket hMem
  constructor
  · intro r hR
    rcases mem_notify_of_bucket hBucket hR with
      rfl | ⟨hOld, hOther⟩
    · right
      refine ⟨rfl, ?_, ?_⟩
      · have hSome : bucket.rollupCount ≠ 0 := by omega
        simp [Notification.shown, Notification.roll, hSome]
      · show Function.update d.since out.2 (d.since out.2 + 1)
          bucket.id = bucket.shown + 1
        rw [hId, Function.update_self, hInv.counted bucket hMem]
    · left
      show r.shown = Function.update d.since out.2 _ r.id
      rw [hId, Function.update_of_ne hOther]
      exact (hInv.counted r hOld).symm
  · intro r hR
    rcases mem_notify_of_bucket hBucket hR with
      rfl | ⟨hOld, _⟩
    · exact Nat.le_add_left _ _
    · exact hInv.held r hOld

end

---- One Call

section

variable {enforced : Bool}
variable {d : Desk}

/- An event that opens a row is counted by it. -/
theorem BellInv.insert
    {nid : Str} {now : Nat} {call : NotifyCall}
    (hInv : BellInv d) (hFresh : ∀ r ∈ d.rows, r.id ≠ nid)
    (hNone : openBucket now call d.rows = none) :
    let out := notify nid now call d.rows
    BellInv
      ⟨out.1,
        Function.update d.since out.2 (d.since out.2 + 1)⟩ := by
  intro out
  have hOut : out = (d.rows ++ [call.row nid now], nid) := by
    show notify nid now call d.rows = _
    unfold notify
    rw [hNone]
  rw [hOut, hInv.absent nid hFresh]
  constructor
  · dsimp only
    rw [List.map_append, List.map_singleton]
    apply List.Nodup.append hInv.ids (List.nodup_singleton _)
    intro x hX hNew
    rcases List.mem_map.mp hX with ⟨r, hR, hIs⟩
    rw [List.mem_singleton.mp hNew] at hIs
    exact hFresh r hR hIs
  · intro r hR
    dsimp only at hR ⊢
    rcases List.mem_append.mp hR with hOld | hNew
    · rw [Function.update_of_ne (hFresh r hOld)]
      exact hInv.counted r hOld
    · rw [List.mem_singleton.mp hNew]
      exact Function.update_self nid 1 d.since
  · intro r hR
    rcases List.mem_append.mp hR with hOld | hNew
    · exact hInv.held r hOld
    · rw [List.mem_singleton.mp hNew]
      exact le_refl 1
  · intro x hX
    dsimp only at hX ⊢
    rw [List.forall_mem_append] at hX
    have hOther : x ≠ nid :=
      fun hSame => hX.2 _ (List.mem_singleton_self _) hSame.symm
    rw [Function.update_of_ne hOther]
    exact hInv.absent x hX.1

/- An event of a bucket that is not read is counted once. -/
theorem BellInv.folded
    {nid : Str} {now : Nat} {call : NotifyCall}
    {bucket : Notification}
    (hInv : BellInv d)
    (hBucket : openBucket now call d.rows = some bucket)
    (hUnread : bucket.read = false) :
    let out := notify nid now call d.rows
    BellInv
      ⟨out.1,
        Function.update d.since out.2 (d.since out.2 + 1)⟩ := by
  intro out
  rcases hInv.fold nid hBucket with ⟨hCounted, hHeld⟩
  have hIds := notify_ids_of_bucket nid hBucket
  constructor
  · show ((notify nid now call d.rows).1.map
      Notification.id).Nodup
    rw [hIds]
    exact hInv.ids
  · intro r hR
    rcases hCounted r hR with hSame | ⟨_, hShown, hSince⟩
    · exact hSame.symm
    · refine hSince.trans ?_
      rw [hShown]
      simp [Notification.shown, hUnread]
  · exact hHeld
  · intro x hX
    have hAbsent : ∀ r ∈ d.rows, r.id ≠ x := by
      intro r hR hIs
      have hMem : x ∈ out.1.map Notification.id := by
        show x ∈ (notify nid now call d.rows).1.map _
        rw [hIds, ← hIs]
        exact List.mem_map_of_mem hR
      rcases List.mem_map.mp hMem with ⟨r', hR', hIs'⟩
      exact hX r' hR' hIs'
    have hId : out.2 = bucket.id := by
      show (notify nid now call d.rows).2 = bucket.id
      unfold notify
      rw [hBucket]
    dsimp only
    rw [hId, Function.update_of_ne
      (Ne.symm (hAbsent bucket (mem_of_openBucket hBucket)))]
    exact hInv.absent x hAbsent

theorem mem_markRead
    {id : Option Str} {rows : List Notification}
    {r : Notification} :
    r ∈ markRead id rows ↔
      ∃ x ∈ rows,
        (if marks id x then { x with read := true } else x) = r :=
  List.mem_map

/- The events of a row after a reader has marked rows. -/
theorem BellInv.sinceMarked
    (hInv : BellInv d) {r : Notification} (hR : r ∈ d.rows)
    (org : Str) (id : Option Str) :
    sinceMarked enforced org id d r.id =
      if readerMarks enforced org id r then 0
      else d.since r.id := by
  have hAny :
      (d.rows.any fun x =>
          x.id == r.id && readerMarks enforced org id x) =
        readerMarks enforced org id r := by
    rw [Bool.eq_iff_iff, List.any_eq_true]
    constructor
    · rintro ⟨x, hX, hHolds⟩
      rw [Bool.and_eq_true, beq_iff_eq] at hHolds
      rw [← List.inj_on_of_nodup_map hInv.ids hX hR hHolds.1]
      exact hHolds.2
    · intro hMarks
      exact ⟨r, hR, by simp [hMarks]⟩
  unfold Platform.sinceMarked
  rw [hAny]

/- A mark shows no row with too many events. -/
theorem BellInv.marked_le
    (hInv : BellInv d) (org : Str) (id : Option Str) :
    ∀ r ∈ markRead id d.rows,
      r.shown ≤ Platform.sinceMarked enforced org id d r.id := by
  intro r hR
  rcases mem_markRead.mp hR with ⟨x, hX, hIs⟩
  have hCounted := hInv.counted x hX
  cases hMarks : marks id x with
  | true =>
      rw [if_pos hMarks] at hIs
      rw [← hIs]
      exact Nat.zero_le _
  | false =>
      rw [hMarks, if_neg (by simp)] at hIs
      rw [← hIs, hInv.sinceMarked hX]
      simp [readerMarks, hMarks, hCounted]

/- A mark of what the reader sees is counted. -/
theorem BellInv.marked
    {org : Str} {id : Option Str}
    (hInv : BellInv d)
    (hOwn :
      ∀ r ∈ d.rows, r.read = false → marks id r = true →
        visible enforced org r = true) :
    BellInv
      ⟨markRead id d.rows,
        Platform.sinceMarked enforced org id d⟩ := by
  have hIds : (markRead id d.rows).map Notification.id =
      d.rows.map Notification.id := by
    unfold markRead
    rw [List.map_map]
    apply List.map_congr_left
    intro r _
    dsimp only [Function.comp_apply]
    split <;> rfl
  constructor
  · show ((markRead id d.rows).map Notification.id).Nodup
    rw [hIds]
    exact hInv.ids
  · intro r hR
    rcases mem_markRead.mp hR with ⟨x, hX, hIs⟩
    have hCounted := hInv.counted x hX
    have hSince :
        Platform.sinceMarked enforced org id d x.id =
          if readerMarks enforced org id x then 0
          else d.since x.id :=
      hInv.sinceMarked hX org id
    cases hMarks : marks id x with
    | true =>
        rw [if_pos hMarks] at hIs
        rw [← hIs]
        refine hSince.trans ?_
        simp only [readerMarks, hMarks, Bool.true_and]
        cases hRead : x.read with
        | false => simp [hOwn x hX hRead hMarks, Notification.shown]
        | true =>
            rw [hCounted]
            simp [Notification.shown, hRead]
    | false =>
        rw [hMarks, if_neg (by simp)] at hIs
        rw [← hIs]
        refine hSince.trans ?_
        simp [readerMarks, hMarks, hCounted]
  · intro r hR
    rcases mem_markRead.mp hR with ⟨x, hX, hIs⟩
    rw [← hIs]
    split
    · exact hInv.held x hX
    · exact hInv.held x hX
  · intro x hX
    have hAbsent : ∀ r ∈ d.rows, r.id ≠ x := by
      intro r hR hIs
      have hMem : x ∈ (markRead id d.rows).map Notification.id := by
        rw [hIds, ← hIs]
        exact List.mem_map_of_mem hR
      rcases List.mem_map.mp hMem with ⟨r', hR', hIs'⟩
      exact hX r' hR' hIs'
    show Platform.sinceMarked enforced org id d x = 0
    unfold Platform.sinceMarked
    rw [hInv.absent x hAbsent]
    split <;> rfl

/- A call that fits keeps the count. -/
theorem BellInv.step
    {call : BellCall} {next : Desk}
    (hInv : BellInv d) (hStep : BellStep enforced d call next)
    (hFits : FitsBell enforced ⟨d, call, next⟩) :
    BellInv next := by
  cases hStep with
  | notify nid now call hFresh =>
      cases hBucket : openBucket now call d.rows with
      | none => exact hInv.insert hFresh hBucket
      | some bucket =>
          exact hInv.folded hBucket (hFits bucket hBucket)
  | markRead org id => exact hInv.marked hFits

/- A call after which the badge is right fits. -/
theorem fits_of_counts
    {call : BellCall} {next : Desk}
    (hInv : BellInv d) (hStep : BellStep enforced d call next)
    (hCounts : CountsEvents enforced next) :
    FitsBell enforced ⟨d, call, next⟩ := by
  cases hStep with
  | notify nid now call hFresh =>
      intro bucket hBucket
      rcases hInv.fold nid hBucket with ⟨hCounted, _⟩
      by_contra hNot
      have hRead : bucket.read = true := by simpa using hNot
      have hMem := mem_of_openBucket hBucket
      have hRow : bucket.roll call now ∈
          (notify nid now call d.rows).1 := by
        unfold notify
        rw [hBucket]
        exact List.mem_map.mpr ⟨bucket, hMem, if_pos rfl⟩
      have hHeld := hInv.held bucket hMem
      have hZero : bucket.shown = 0 := by
        simp [Notification.shown, hRead]
      have hFew : ∀ r ∈ (notify nid now call d.rows).1,
          Function.update d.since
              (notify nid now call d.rows).2
              (d.since (notify nid now call d.rows).2 + 1)
              r.id ≤ r.shown := by
        intro r hR
        rcases hCounted r hR with hSame | ⟨_, hShown, hSince⟩
        · exact hSame.ge
        · rw [hSince, hShown, hZero]
          omega
      have hSame := shown_eq_of_counts hCounts hRow (.inl hFew)
      have hId : (notify nid now call d.rows).2 = bucket.id := by
        unfold notify
        rw [hBucket]
      have hSince : (bucket.roll call now).shown =
          d.since bucket.id + 1 := by
        refine hSame.trans ?_
        show Function.update d.since _ _ bucket.id = _
        rw [hId, Function.update_self]
      have hShown : (bucket.roll call now).shown =
          bucket.rollupCount + 1 := by
        have hNonzero : bucket.rollupCount ≠ 0 := by omega
        simp [Notification.shown, Notification.roll, hNonzero]
      rw [hInv.counted bucket hMem, hZero, hShown] at hSince
      omega
  | markRead org id =>
      intro r hR hRead hMarks
      by_contra hNot
      have hRow : { r with read := true } ∈
          markRead id d.rows :=
        mem_markRead.mpr ⟨r, hR, if_pos hMarks⟩
      have hSame := shown_eq_of_counts hCounts hRow
        (.inr (hInv.marked_le org id))
      have hSince :
          Platform.sinceMarked enforced org id d r.id =
            d.since r.id := by
        rw [hInv.sinceMarked hR]
        simp [readerMarks, hNot]
      have hHeld := hInv.held r hR
      have hShown : d.since r.id = 0 := by
        rw [← hSince]
        exact hSame.symm
      rw [hInv.counted r hR] at hShown
      simp only [Notification.shown, hRead] at hShown
      simp at hShown
      omega

/- A reader who sets no row of another workspace changes
none. -/
theorem ownRows_of_fits
    {e : Transition Desk BellCall}
    (hStep : BellStep enforced e.pre e.label e.post)
    (hFits : FitsBell enforced e) :
    OwnRows enforced e := by
  intro org id hLabel
  rcases e with ⟨pre, label, post⟩
  dsimp only at hLabel hStep
  subst hLabel
  cases hStep with
  | markRead =>
      show (markRead id pre.rows).filter _ = pre.rows.filter _
      have hEach : ∀ r ∈ pre.rows,
          visible enforced org r = false →
            (if marks id r then { r with read := true } else r) =
              r := by
        intro r hR hOther
        split
        · rename_i hMarks
          cases hRead : r.read with
          | true => rw [← hRead]
          | false =>
              rw [hFits r hR hRead hMarks] at hOther
              cases hOther
        · rfl
      unfold markRead
      generalize pre.rows = rows at hEach
      induction rows with
      | nil => rfl
      | cons r rest ih =>
          rw [List.forall_mem_cons] at hEach
          rw [List.map_cons, List.filter_cons, List.filter_cons,
            ih hEach.2]
          have hSeen :
              visible enforced org
                  (if marks id r then { r with read := true }
                    else r) =
                visible enforced org r := by
            split <;> rfl
          rw [hSeen]
          cases hOther : visible enforced org r with
          | true => rfl
          | false => rw [hEach.1 hOther]

/- In every run of events and readers from an empty bell, the
badge of each workspace counts its events that are not read
and no reader changes a row of another workspace, exactly
when no event is folded into a row that was read and no
reader sets a row of another workspace. -/
theorem badge_counts_iff
    (enforced : Bool)
    {start last : Desk}
    {trace : List (Transition Desk BellCall)}
    (hEmpty : start.Empty)
    (hRun : Run (BellStep enforced) start trace last) :
    (∀ e ∈ trace,
        CountsEvents enforced e.post ∧ OwnRows enforced e) ↔
      ∀ e ∈ trace, FitsBell enforced e := by
  have hCounts :
      (∀ e ∈ trace, CountsEvents enforced e.post) ↔
        ∀ e ∈ trace, FitsBell enforced e :=
    hRun.forall_post_iff (I := BellInv)
      (fun _ hInv => hInv.counts)
      (fun _ _ _ hInv hStep hFits => hInv.step hStep hFits)
      (fun _ _ _ hInv hStep hJ => fits_of_counts hInv hStep hJ)
      hEmpty.inv
  have hSteps : ∀ e ∈ trace,
      BellStep enforced e.pre e.label e.post :=
    fun e hE =>
      (hRun.forall_step (I := fun _ => True)
        (fun _ _ _ _ _ => trivial) trivial e hE).2
  constructor
  · intro hAll
    exact hCounts.mp fun e hE => (hAll e hE).1
  · intro hFits e hE
    exact ⟨hCounts.mpr hFits e hE,
      ownRows_of_fits (hSteps e hE) (hFits e hE)⟩

end

---- A Concrete Bell

def highAlert : NotifyCall where
  type := lit "alert"
  title := lit "Port scan"
  severity := lit "high"
  detail := none
  link := none
  groupKey := some (lit "alert:high")
  groupWindowSec := 300
  rollupTitle := none
  rollupLink := none
  orgId := lit "org-a"

def emptyDesk : Desk :=
  ⟨[], fun _ => 0⟩

def firstAlert : BellCall :=
  .notify (lit "n-1") 600000000 highAlert

def alerted : Desk :=
  ⟨[highAlert.row (lit "n-1") 600000000],
    Function.update (fun _ => 0) (lit "n-1") 1⟩

theorem first_alert_step :
    BellStep true emptyDesk firstAlert alerted :=
  .notify emptyDesk (lit "n-1") 600000000 highAlert
    (by simp [emptyDesk])

/- One alert is one event. -/
theorem one_alert_counted :
    CountsEvents true alerted := by
  have hRun : Run (BellStep true) emptyDesk
      [⟨emptyDesk, firstAlert, alerted⟩] alerted :=
    .cons first_alert_step (.nil alerted)
  have hFits : ∀ e ∈ [(⟨emptyDesk, firstAlert, alerted⟩ :
      Transition Desk BellCall)], FitsBell true e := by
    intro e hE
    rw [List.mem_singleton.mp hE]
    intro bucket hBucket
    cases hBucket
  exact ((badge_counts_iff true ⟨rfl, fun _ => rfl⟩ hRun).mpr
    hFits _ (List.mem_singleton_self _)).1

/- The alert is read, and a minute later there is another. -/
def readAlert : Desk :=
  ⟨markRead none alerted.rows,
    sinceMarked true (lit "org-a") none alerted⟩

def secondAlert : BellCall :=
  .notify (lit "n-2") 660000000 highAlert

def alertedAgain : Desk :=
  let out :=
    notify (lit "n-2") 660000000 highAlert readAlert.rows
  ⟨out.1,
    Function.update readAlert.since out.2
      (readAlert.since out.2 + 1)⟩

/- The badge counts the alert that was read again. -/
theorem read_alert_counted_again :
    Run (BellStep true) emptyDesk
        [⟨emptyDesk, firstAlert, alerted⟩,
          ⟨alerted, .markRead (lit "org-a") none, readAlert⟩,
          ⟨readAlert, secondAlert, alertedAgain⟩]
        alertedAgain ∧
      (listNotifications true (lit "org-a") 30 false
        alertedAgain.rows).unread = 2 ∧
      alertedAgain.pending true (lit "org-a") = 1 := by
  refine ⟨?_, by decide, by decide⟩
  refine .cons first_alert_step (.cons (.markRead _ _ _)
    (.cons (.notify readAlert (lit "n-2") 660000000 highAlert ?_)
      (.nil _)))
  decide

end ThreatOrbit.Platform
