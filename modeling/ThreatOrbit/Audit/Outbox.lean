import ThreatOrbit.Lib.Run
import ThreatOrbit.Lib.Text

/-
  The audit outbox: transactions insert audit rows, drain
  passes ship the committed ones beyond a stored cursor, and
  several passes may be in flight.
-/

---- The Outbox

namespace ThreatOrbit.Audit

open Lib

/- A row of `audit_log`, which is also the event posted. -/
structure AuditRow where
  id : Nat
  ts : Str
  actor : Str
  action : Str
  target : Option Str
  detail : Option Str
deriving DecidableEq, Repr

/- A row with the transaction that inserted it. -/
structure Insert where
  row : AuditRow
  tx : Nat
deriving DecidableEq, Repr

/- What the sink makes of a post. -/
inductive SinkOutcome where
| accepted
| refused
| exception
deriving DecidableEq, Repr

/- A drain pass: after it has read the cursor, while it posts
rows, and when it is about to store the new cursor. -/
inductive Drain where
| reading (cursor : Nat)
| posting (cursor lastOk : Nat) (sent left : List AuditRow)
| saving (lastOk : Nat) (sent : List AuditRow)
deriving DecidableEq, Repr

/- The rows a pass has still to post. -/
def Drain.left : Drain → List AuditRow
| .posting _ _ _ left => left
| _ => []

/- The rows a pass has delivered. -/
def Drain.sent : Drain → List AuditRow
| .reading _ => []
| .posting _ _ sent _ => sent
| .saving _ sent => sent

/- The cursors a pass may store. -/
def Drain.marks : Drain → List Nat
| .reading cursor => [cursor]
| .posting _ lastOk _ left => lastOk :: left.map AuditRow.id
| .saving lastOk _ => [lastOk]

def batchSize : Nat := 200

/- The rows of one pass. -/
def batch
    (cursor : Nat)
    (committed : List AuditRow) : List AuditRow :=
  ((committed.filter fun r => cursor < r.id).insertionSort
    fun a b => a.id ≤ b.id).take batchSize

/- The end of the loop: the cursor is stored if it moved. -/
def Drain.finish
    (cursor lastOk : Nat)
    (sent : List AuditRow) : Option Drain :=
  if lastOk ≠ cursor then some (.saving lastOk sent) else none

/- The rows inserted so far, how each transaction ended, the
stored cursor, the passes in flight, and what the sink has
accepted. -/
structure Outbox where
  next : Nat
  inserted : List Insert
  ended : Nat → Option Bool
  cursor : Nat
  drains : Nat → Option Drain
  accepted : List AuditRow

/- The rows a query sees. -/
def Outbox.committed (o : Outbox) : List AuditRow :=
  (o.inserted.filter fun i => o.ended i.tx == some true).map
    Insert.row

inductive OutboxCall where
| insert (tx : Nat) (row : AuditRow)
| commit (tx : Nat)
| abort (tx : Nat)
| getCursor (k : Nat)
| read (k : Nat)
| post (k : Nat) (outcome : SinkOutcome)
| finish (k : Nat)
| setCursor (k : Nat)
| crash (k : Nat)
deriving DecidableEq, Repr

/- One step of a transaction or of a drain pass. -/
inductive OutboxStep : Outbox → OutboxCall → Outbox → Prop
-- the id is handed out at insertion
| insert
    (o : Outbox) (tx : Nat) (row : AuditRow)
    (hOpen : o.ended tx = none)
    (hId : row.id = o.next) :
    OutboxStep o (.insert tx row)
      { o with
        next := o.next + 1
        inserted := o.inserted ++ [⟨row, tx⟩] }
| commit
    (o : Outbox) (tx : Nat)
    (hOpen : o.ended tx = none) :
    OutboxStep o (.commit tx)
      { o with ended := Function.update o.ended tx (some true) }
| abort
    (o : Outbox) (tx : Nat)
    (hOpen : o.ended tx = none) :
    OutboxStep o (.abort tx)
      { o with ended := Function.update o.ended tx (some false) }
| getCursor
    (o : Outbox) (k : Nat)
    (hNew : o.drains k = none) :
    OutboxStep o (.getCursor k)
      { o with
        drains :=
          Function.update o.drains k (some (.reading o.cursor)) }
| read
    (o : Outbox) (k cursor : Nat)
    (hHere : o.drains k = some (.reading cursor)) :
    OutboxStep o (.read k)
      { o with
        drains := Function.update o.drains k
          (some (.posting cursor cursor []
            (batch cursor o.committed))) }
| accepted
    (o : Outbox) (k cursor lastOk : Nat)
    (sent left : List AuditRow) (row : AuditRow)
    (hHere : o.drains k =
      some (.posting cursor lastOk sent (row :: left))) :
    OutboxStep o (.post k .accepted)
      { o with
        accepted := o.accepted ++ [row]
        drains := Function.update o.drains k
          (some (.posting cursor row.id (sent ++ [row]) left)) }
-- the first failure ends the loop
| refused
    (o : Outbox) (k cursor lastOk : Nat)
    (sent left : List AuditRow) (row : AuditRow)
    (hHere : o.drains k =
      some (.posting cursor lastOk sent (row :: left))) :
    OutboxStep o (.post k .refused)
      { o with
        drains := Function.update o.drains k
          (Drain.finish cursor lastOk sent) }
-- what `_post` does not catch ends the pass
| exception
    (o : Outbox) (k cursor lastOk : Nat)
    (sent left : List AuditRow) (row : AuditRow)
    (hHere : o.drains k =
      some (.posting cursor lastOk sent (row :: left))) :
    OutboxStep o (.post k .exception)
      { o with drains := Function.update o.drains k none }
| finish
    (o : Outbox) (k cursor lastOk : Nat)
    (sent : List AuditRow)
    (hHere : o.drains k =
      some (.posting cursor lastOk sent [])) :
    OutboxStep o (.finish k)
      { o with
        drains := Function.update o.drains k
          (Drain.finish cursor lastOk sent) }
| setCursor
    (o : Outbox) (k lastOk : Nat)
    (sent : List AuditRow)
    (hHere : o.drains k = some (.saving lastOk sent)) :
    OutboxStep o (.setCursor k)
      { o with
        cursor := lastOk
        drains := Function.update o.drains k none }
| crash (o : Outbox) (k : Nat) :
    OutboxStep o (.crash k)
      { o with drains := Function.update o.drains k none }

/- Every committed row at or below the cursor was accepted. -/
def Shipped (o : Outbox) : Prop :=
  ∀ r ∈ o.committed, r.id ≤ o.cursor → r ∈ o.accepted

/- Each pass delivers its rows in the order of their ids. -/
def InOrder (o : Outbox) : Prop :=
  ∀ k d, o.drains k = some d →
    (d.sent.map AuditRow.id).Pairwise (· < ·)

/- What is delivered was committed. -/
def OnlyCommitted (o : Outbox) : Prop :=
  ∀ r ∈ o.accepted, r ∈ o.committed

/- A transaction commits no row at or below the cursor, or at
or below a cursor that a pass in flight may store. -/
def FitsOutbox (e : Transition Outbox OutboxCall) : Prop :=
  ∀ tx, e.label = .commit tx →
    ∀ i ∈ e.pre.inserted, i.tx = tx →
      e.pre.cursor < i.row.id ∧
        ∀ k d, e.pre.drains k = some d →
          ∀ m ∈ d.marks, m < i.row.id

/- No row was inserted, and no pass is in flight. -/
structure Outbox.Starts (o : Outbox) : Prop where
  inserted : o.inserted = []
  accepted : o.accepted = []
  idle : ∀ k, o.drains k = none

---- The Rows Of A Pass

section

variable {o : Outbox}

theorem mem_committed
    {r : AuditRow} :
    r ∈ o.committed ↔
      ∃ i ∈ o.inserted, o.ended i.tx = some true ∧ i.row = r := by
  unfold Outbox.committed
  simp only [List.mem_map, List.mem_filter, beq_iff_eq]
  constructor
  · rintro ⟨i, ⟨hI, hEnded⟩, hRow⟩
    exact ⟨i, hI, hEnded, hRow⟩
  · rintro ⟨i, hI, hEnded, hRow⟩
    exact ⟨i, ⟨hI, hEnded⟩, hRow⟩

/- The committed rows beyond a cursor, in order. -/
def beyond
    (cursor : Nat)
    (committed : List AuditRow) : List AuditRow :=
  (committed.filter fun r => cursor < r.id).insertionSort
    fun a b => a.id ≤ b.id

theorem mem_beyond
    {cursor : Nat} {committed : List AuditRow} {r : AuditRow} :
    r ∈ beyond cursor committed ↔
      r ∈ committed ∧ cursor < r.id := by
  unfold beyond
  rw [List.mem_insertionSort, List.mem_filter,
    decide_eq_true_eq]

/- They are in strict order, since no id is used twice. -/
theorem beyond_ordered
    (cursor : Nat) {committed : List AuditRow}
    (hIds : (committed.map AuditRow.id).Nodup) :
    (beyond cursor committed).Pairwise
      fun a b => a.id < b.id := by
  have hKept : ((committed.filter fun r =>
      cursor < r.id).map AuditRow.id).Nodup :=
    hIds.sublist (List.filter_sublist.map _)
  have hNodup : ((beyond cursor committed).map
      AuditRow.id).Nodup :=
    ((List.perm_insertionSort _ _).map _).nodup_iff.mpr hKept
  have hTotal : Std.Total fun a b : AuditRow => a.id ≤ b.id :=
    ⟨fun a b => Nat.le_total _ _⟩
  have hTrans : IsTrans AuditRow fun a b => a.id ≤ b.id :=
    ⟨fun _ _ _ => Nat.le_trans⟩
  have hSorted : (beyond cursor committed).Pairwise
      fun a b => a.id ≤ b.id :=
    List.pairwise_insertionSort _ _
  have hApart : (beyond cursor committed).Pairwise
      fun a b => a.id ≠ b.id :=
    List.pairwise_map.mp hNodup
  exact (hSorted.and hApart).imp
    fun h => lt_of_le_of_ne h.1 h.2

theorem mem_batch
    {cursor : Nat} {committed : List AuditRow} {r : AuditRow}
    (hR : r ∈ batch cursor committed) :
    r ∈ committed ∧ cursor < r.id :=
  mem_beyond.mp (List.mem_of_mem_take hR)

theorem batch_ordered
    (cursor : Nat) {committed : List AuditRow}
    (hIds : (committed.map AuditRow.id).Nodup) :
    (batch cursor committed).Pairwise
      fun a b => a.id < b.id :=
  (beyond_ordered cursor hIds).sublist (List.take_sublist _ _)

/- A row beyond the cursor that is not in the batch comes
after all that are. -/
theorem mem_batch_or_later
    {cursor : Nat} {committed : List AuditRow} {r : AuditRow}
    (hIds : (committed.map AuditRow.id).Nodup) (hR : r ∈ committed)
    (hBeyond : cursor < r.id) :
    r ∈ batch cursor committed ∨
      ∀ x ∈ batch cursor committed, x.id < r.id := by
  have hAll : r ∈ beyond cursor committed :=
    mem_beyond.mpr ⟨hR, hBeyond⟩
  have hOrder := beyond_ordered cursor hIds
  rw [← List.take_append_drop batchSize
    (beyond cursor committed)] at hAll hOrder
  rcases List.mem_append.mp hAll with hTaken | hLater
  · exact .inl hTaken
  · exact .inr fun x hX =>
      (List.pairwise_append.mp hOrder).2.2 x hX r hLater

end

---- What Every Step Keeps

section

variable {o : Outbox}

/- The rows a pass has left are committed, the cursors it may
store are in order, and it has delivered in order what lies
below them. -/
structure Drain.Sound
    (committed : List AuditRow)
    (d : Drain) : Prop where
  left : ∀ r ∈ d.left, r ∈ committed
  marks : d.marks.Pairwise (· < ·)
  sent : (d.sent.map AuditRow.id).Pairwise (· < ·)
  below : ∀ r ∈ d.sent, ∀ m ∈ d.marks, r.id ≤ m

structure OutboxInv (o : Outbox) : Prop where
  ids : (o.inserted.map fun i => i.row.id).Nodup
  fresh : ∀ i ∈ o.inserted, i.row.id < o.next
  only : OnlyCommitted o
  sound : ∀ k d, o.drains k = some d → d.Sound o.committed

theorem Outbox.Starts.inv
    (hStart : o.Starts) :
    OutboxInv o := by
  constructor
  · rw [hStart.inserted]
    exact List.nodup_nil
  · simp [hStart.inserted]
  · unfold OnlyCommitted
    simp [hStart.accepted]
  · intro k d hHere
    rw [hStart.idle] at hHere
    cases hHere

theorem OutboxInv.committed_ids
    (hInv : OutboxInv o) :
    (o.committed.map AuditRow.id).Nodup := by
  unfold Outbox.committed
  rw [List.map_map]
  exact hInv.ids.sublist (List.filter_sublist.map _)

theorem Drain.Sound.mono
    {committed committed' : List AuditRow} {d : Drain}
    (hSound : d.Sound committed)
    (hMore : ∀ r ∈ committed, r ∈ committed') :
    d.Sound committed' :=
  ⟨fun r hR => hMore r (hSound.left r hR), hSound.marks,
    hSound.sent, hSound.below⟩

/- The rows a pass sees when it has read the cursor. -/
theorem sound_batch
    (cursor : Nat) {committed : List AuditRow}
    (hIds : (committed.map AuditRow.id).Nodup) :
    Drain.Sound committed
      (.posting cursor cursor [] (batch cursor committed)) := by
  constructor
  · intro r hR
    exact (mem_batch hR).1
  · apply List.pairwise_cons.mpr
    constructor
    · intro m hM
      rcases List.mem_map.mp hM with ⟨r, hR, rfl⟩
      exact (mem_batch hR).2
    · exact List.pairwise_map.mpr (batch_ordered cursor hIds)
  · exact List.Pairwise.nil
  · intro r hR
    cases hR

/- A row that is accepted is the next in order. -/
theorem Drain.Sound.accept
    {committed : List AuditRow} {cursor lastOk : Nat}
    {sent left : List AuditRow} {row : AuditRow}
    (hSound :
      Drain.Sound committed
        (.posting cursor lastOk sent (row :: left))) :
    Drain.Sound committed
      (.posting cursor row.id (sent ++ [row]) left) := by
  rcases hSound with ⟨hLeft, hMarks, hSent, hBelow⟩
  have hRest := (List.pairwise_cons.mp hMarks).2
  have hLast : lastOk < row.id :=
    (List.pairwise_cons.mp hMarks).1 row.id
      List.mem_cons_self
  have hBefore : ∀ r ∈ sent, r.id < row.id := fun r hR =>
    lt_of_le_of_lt (hBelow r hR lastOk List.mem_cons_self) hLast
  have hAfter : ∀ m ∈ left.map AuditRow.id, row.id < m :=
    (List.pairwise_cons.mp hRest).1
  constructor
  · intro r hR
    exact hLeft r (List.mem_cons_of_mem _ hR)
  · exact hRest
  · show ((sent ++ [row]).map AuditRow.id).Pairwise (· < ·)
    rw [List.map_append]
    apply List.pairwise_append.mpr
    refine ⟨hSent, List.pairwise_singleton _ _, ?_⟩
    intro a hA b hB
    rcases List.mem_map.mp hA with ⟨r, hR, rfl⟩
    rw [List.mem_singleton.mp hB]
    exact hBefore r hR
  · intro r hR m hM
    have hUpTo : row.id ≤ m := by
      rcases List.mem_cons.mp hM with hHere | hLater
      · exact hHere.ge
      · exact (hAfter m hLater).le
    rcases List.mem_append.mp hR with hOld | hNew
    · exact (hBefore r hOld).le.trans hUpTo
    · rw [List.mem_singleton.mp hNew]
      exact hUpTo

/- The end of the loop keeps what was delivered. -/
theorem Drain.Sound.finish
    {committed : List AuditRow} {cursor lastOk : Nat}
    {sent left : List AuditRow} {d : Drain}
    (hSound :
      Drain.Sound committed
        (.posting cursor lastOk sent left))
    (hNext : Drain.finish cursor lastOk sent = some d) :
    d.Sound committed := by
  unfold Drain.finish at hNext
  split at hNext
  · cases hNext
    constructor
    · intro r hR
      cases hR
    · exact List.pairwise_singleton _ _
    · exact hSound.sent
    · intro r hR m hM
      rw [List.mem_singleton.mp hM]
      exact hSound.below r hR lastOk List.mem_cons_self
  · cases hNext

/- The committed rows after each end of a transaction. -/
theorem committed_insert
    {tx : Nat}
    (row : AuditRow) (hOpen : o.ended tx = none) :
    Outbox.committed
        { o with
          next := o.next + 1
          inserted := o.inserted ++ [⟨row, tx⟩] } =
      o.committed := by
  unfold Outbox.committed
  simp [List.filter_append, hOpen]

theorem committed_abort
    {tx : Nat}
    (hOpen : o.ended tx = none) :
    Outbox.committed
        { o with
          ended := Function.update o.ended tx (some false) } =
      o.committed := by
  unfold Outbox.committed
  congr 1
  apply List.filter_congr
  intro i _
  by_cases hSame : i.tx = tx
  · simp [hSame, hOpen]
  · simp [hSame]

theorem mem_committed_commit
    {tx : Nat} {r : AuditRow}
    (hOpen : o.ended tx = none) :
    r ∈ Outbox.committed
        { o with
          ended := Function.update o.ended tx (some true) } ↔
      r ∈ o.committed ∨
        ∃ i ∈ o.inserted, i.tx = tx ∧ i.row = r := by
  simp only [mem_committed]
  constructor
  · rintro ⟨i, hI, hEnded, hRow⟩
    by_cases hSame : i.tx = tx
    · exact .inr ⟨i, hI, hSame, hRow⟩
    · rw [Function.update_of_ne hSame] at hEnded
      exact .inl ⟨i, hI, hEnded, hRow⟩
  · rintro (⟨i, hI, hEnded, hRow⟩ | ⟨i, hI, hSame, hRow⟩)
    · have hOther : i.tx ≠ tx := by
        intro hSame
        rw [hSame, hOpen] at hEnded
        cases hEnded
      exact ⟨i, hI,
        by rw [Function.update_of_ne hOther]; exact hEnded,
        hRow⟩
    · exact ⟨i, hI,
        by rw [hSame, Function.update_self], hRow⟩

/- Every step keeps the order, and delivers what was
committed. -/
theorem OutboxInv.step
    {call : OutboxCall} {next : Outbox}
    (hInv : OutboxInv o) (hStep : OutboxStep o call next) :
    OutboxInv next := by
  cases hStep with
  | insert tx row hOpen hId =>
      have hSame := committed_insert row hOpen
      constructor
      · dsimp only
        rw [List.map_append]
        apply List.Nodup.append hInv.ids
          (List.nodup_singleton _)
        intro x hX hNew
        rcases List.mem_map.mp hX with ⟨i, hI, rfl⟩
        have hBelow := hInv.fresh i hI
        have hHere := List.mem_singleton.mp hNew
        dsimp only at hHere
        omega
      · intro i hI
        dsimp only at hI ⊢
        rcases List.mem_append.mp hI with hOld | hNew
        · have hBelow := hInv.fresh i hOld
          omega
        · rw [List.mem_singleton.mp hNew, hId]
          exact Nat.lt_succ_self _
      · unfold OnlyCommitted
        rw [hSame]
        exact hInv.only
      · rw [hSame]
        exact hInv.sound
  | commit tx hOpen =>
      refine ⟨hInv.ids, hInv.fresh, ?_, ?_⟩
      · intro r hR
        exact (mem_committed_commit hOpen).mpr
          (.inl (hInv.only r hR))
      · intro k d hHere
        exact (hInv.sound k d hHere).mono fun r hR =>
          (mem_committed_commit hOpen).mpr (.inl hR)
  | abort tx hOpen =>
      have hSame := committed_abort hOpen
      refine ⟨hInv.ids, hInv.fresh, ?_, ?_⟩
      · unfold OnlyCommitted
        rw [hSame]
        exact hInv.only
      · rw [hSame]
        exact hInv.sound
  | getCursor k hNew =>
      refine ⟨hInv.ids, hInv.fresh, hInv.only,
        forall_update hInv.sound ?_⟩
      intro d hD
      rw [← Option.some.inj hD]
      exact ⟨by simp [Drain.left],
        List.pairwise_singleton _ _, List.Pairwise.nil,
        by simp [Drain.sent]⟩
  | read k cursor hHere =>
      refine ⟨hInv.ids, hInv.fresh, hInv.only,
        forall_update hInv.sound ?_⟩
      intro d hD
      rw [← Option.some.inj hD]
      exact sound_batch cursor hInv.committed_ids
  | accepted k cursor lastOk sent left row hHere =>
      have hSound := hInv.sound k _ hHere
      refine ⟨hInv.ids, hInv.fresh, ?_,
        forall_update hInv.sound ?_⟩
      · intro r hR
        rcases List.mem_append.mp hR with hOld | hNew
        · exact hInv.only r hOld
        · rw [List.mem_singleton.mp hNew]
          exact hSound.left row List.mem_cons_self
      · intro d hD
        rw [← Option.some.inj hD]
        exact hSound.accept
  | refused k cursor lastOk sent left row hHere =>
      refine ⟨hInv.ids, hInv.fresh, hInv.only,
        forall_update hInv.sound ?_⟩
      intro d hD
      exact (hInv.sound k _ hHere).finish hD
  | exception k cursor lastOk sent left row hHere =>
      refine ⟨hInv.ids, hInv.fresh, hInv.only,
        forall_update hInv.sound ?_⟩
      intro d hD
      cases hD
  | finish k cursor lastOk sent hHere =>
      refine ⟨hInv.ids, hInv.fresh, hInv.only,
        forall_update hInv.sound ?_⟩
      intro d hD
      exact (hInv.sound k _ hHere).finish hD
  | setCursor k lastOk sent hHere =>
      refine ⟨hInv.ids, hInv.fresh, hInv.only,
        forall_update hInv.sound ?_⟩
      intro d hD
      cases hD
  | crash k =>
      refine ⟨hInv.ids, hInv.fresh, hInv.only,
        forall_update hInv.sound ?_⟩
      intro d hD
      cases hD

end

---- Nothing Is Passed Over

section

variable {o : Outbox}

/- A committed row was accepted, or the pass has it left, or
it lies beyond every cursor the pass may store. -/
def Drain.Covers
    (o : Outbox)
    (d : Drain) : Prop :=
  ∀ r ∈ o.committed,
    r ∈ o.accepted ∨ r ∈ d.left ∨ ∀ m ∈ d.marks, m < r.id

structure CoverInv (o : Outbox) : Prop where
  inv : OutboxInv o
  shipped : Shipped o
  covers : ∀ k d, o.drains k = some d → d.Covers o

theorem Outbox.Starts.cover
    (hStart : o.Starts) :
    CoverInv o := by
  refine ⟨hStart.inv, ?_, ?_⟩
  · intro r hR
    rcases mem_committed.mp hR with ⟨i, hI, _⟩
    rw [hStart.inserted] at hI
    cases hI
  · intro k d hHere
    rw [hStart.idle] at hHere
    cases hHere

/- The cursor a pass starts from covers what is shipped. -/
theorem Shipped.reading
    (hShipped : Shipped o) :
    (Drain.reading o.cursor).Covers o := by
  intro r hR
  rcases Nat.lt_or_ge o.cursor r.id with hBeyond | hUpTo
  · right; right
    intro m hM
    rw [List.mem_singleton.mp hM]
    exact hBeyond
  · exact .inl (hShipped r hR hUpTo)

/- The batch is what is committed next. -/
theorem covers_batch
    {cursor : Nat}
    (hIds : (o.committed.map AuditRow.id).Nodup)
    (hCovers : (Drain.reading cursor).Covers o) :
    (Drain.posting cursor cursor []
      (batch cursor o.committed)).Covers o := by
  intro r hR
  rcases hCovers r hR with hDone | hNone | hBeyond
  · exact .inl hDone
  · cases hNone
  · have hPast : cursor < r.id :=
      hBeyond cursor (List.mem_singleton_self _)
    rcases mem_batch_or_later hIds hR hPast with hIn | hLater
    · exact .inr (.inl hIn)
    · right; right
      intro m hM
      rcases List.mem_cons.mp hM with rfl | hMem
      · exact hPast
      · rcases List.mem_map.mp hMem with ⟨x, hX, rfl⟩
        exact hLater x hX

/- A pass that ends covers what lies beyond its last row. -/
theorem Drain.Covers.finish
    {cursor lastOk : Nat} {sent left : List AuditRow} {d : Drain}
    (hSound :
      Drain.Sound o.committed
        (.posting cursor lastOk sent left))
    (hCovers : (Drain.posting cursor lastOk sent left).Covers o)
    (hNext : Drain.finish cursor lastOk sent = some d) :
    d.Covers o := by
  unfold Drain.finish at hNext
  split at hNext
  · cases hNext
    intro r hR
    rcases hCovers r hR with hDone | hLeft | hBeyond
    · exact .inl hDone
    · right; right
      intro m hM
      rw [List.mem_singleton.mp hM]
      exact (List.pairwise_cons.mp hSound.marks).1 r.id
        (List.mem_map_of_mem hLeft)
    · right; right
      intro m hM
      rw [List.mem_singleton.mp hM]
      exact hBeyond lastOk List.mem_cons_self
  · cases hNext

/- A step at which no transaction commits behind a cursor. -/
theorem CoverInv.step
    {call : OutboxCall} {next : Outbox}
    (hInv : CoverInv o) (hStep : OutboxStep o call next)
    (hFits : FitsOutbox ⟨o, call, next⟩) :
    CoverInv next := by
  suffices hBoth : Shipped next ∧
      ∀ k d, next.drains k = some d → d.Covers next from
    ⟨hInv.inv.step hStep, hBoth.1, hBoth.2⟩
  cases hStep with
  | insert tx row hOpen hId =>
      have hSame := committed_insert row hOpen
      unfold Shipped Drain.Covers
      rw [hSame]
      exact ⟨hInv.shipped, hInv.covers⟩
  | commit tx hOpen =>
      constructor
      · intro r hR hUpTo
        rcases (mem_committed_commit hOpen).mp hR with
          hOld | ⟨i, hI, hTx, rfl⟩
        · exact hInv.shipped r hOld hUpTo
        · have hBeyond := (hFits tx rfl i hI hTx).1
          dsimp only at hUpTo hBeyond
          omega
      · intro k d hHere r hR
        rcases (mem_committed_commit hOpen).mp hR with
          hOld | ⟨i, hI, hTx, rfl⟩
        · exact hInv.covers k d hHere r hOld
        · exact .inr (.inr
            ((hFits tx rfl i hI hTx).2 k d hHere))
  | abort tx hOpen =>
      have hSame := committed_abort hOpen
      unfold Shipped Drain.Covers
      rw [hSame]
      exact ⟨hInv.shipped, hInv.covers⟩
  | getCursor k hNew =>
      refine ⟨hInv.shipped, forall_update hInv.covers ?_⟩
      intro d hD
      rw [← Option.some.inj hD]
      exact hInv.shipped.reading
  | read k cursor hHere =>
      refine ⟨hInv.shipped, forall_update hInv.covers ?_⟩
      intro d hD
      rw [← Option.some.inj hD]
      exact covers_batch hInv.inv.committed_ids
        (hInv.covers k _ hHere)
  | accepted k cursor lastOk sent left row hHere =>
      have hMore : ∀ r ∈ o.accepted, r ∈ o.accepted ++ [row] :=
        fun r hR => List.mem_append_left _ hR
      constructor
      · intro r hR hUpTo
        exact hMore r (hInv.shipped r hR hUpTo)
      · apply forall_update
        · intro k' d hD r hR
          rcases hInv.covers k' d hD r hR with hDone | hRest
          · exact .inl (hMore r hDone)
          · exact .inr hRest
        · intro d hD r hR
          rw [← Option.some.inj hD]
          rcases hInv.covers k _ hHere r hR with
            hDone | hLeft | hBeyond
          · exact .inl (hMore r hDone)
          · rcases List.mem_cons.mp hLeft with rfl | hLater
            · exact .inl (List.mem_append_right _
                (List.mem_singleton_self _))
            · exact .inr (.inl hLater)
          · exact .inr (.inr fun m hM =>
              hBeyond m (List.mem_cons_of_mem _ hM))
  | refused k cursor lastOk sent left row hHere =>
      refine ⟨hInv.shipped, forall_update hInv.covers ?_⟩
      intro d hD
      exact (hInv.covers k _ hHere).finish
        (hInv.inv.sound k _ hHere) hD
  | exception k cursor lastOk sent left row hHere =>
      refine ⟨hInv.shipped, forall_update hInv.covers ?_⟩
      intro d hD
      cases hD
  | finish k cursor lastOk sent hHere =>
      refine ⟨hInv.shipped, forall_update hInv.covers ?_⟩
      intro d hD
      exact (hInv.covers k _ hHere).finish
        (hInv.inv.sound k _ hHere) hD
  | setCursor k lastOk sent hHere =>
      constructor
      · intro r hR hUpTo
        rcases hInv.covers k _ hHere r hR with
          hDone | hNone | hBeyond
        · exact hDone
        · cases hNone
        · have hPast := hBeyond lastOk
            (List.mem_singleton_self _)
          dsimp only at hUpTo
          omega
      · apply forall_update hInv.covers
        intro d hD
        cases hD
  | crash k =>
      refine ⟨hInv.shipped, forall_update hInv.covers ?_⟩
      intro d hD
      cases hD

/- A row that was not committed was not accepted, so it must
be beyond the cursor when it is. -/
theorem OutboxInv.beyond_cursor
    {call : OutboxCall} {next : Outbox}
    (hInv : OutboxInv o) (hStep : OutboxStep o call next)
    (hShipped : Shipped next) {tx : Nat} (hCall : call = .commit tx)
    {i : Insert}
    (hI : i ∈ o.inserted) (hTx : i.tx = tx) :
    o.cursor < i.row.id := by
  subst hCall
  cases hStep with
  | commit _ hOpen =>
      by_contra hBehind
      have hNow := (mem_committed_commit (r := i.row) hOpen).mpr
        (.inr ⟨i, hI, hTx, rfl⟩)
      have hDone : i.row ∈ o.accepted :=
        hShipped i.row hNow (Nat.le_of_not_lt hBehind)
      rcases mem_committed.mp (hInv.only i.row hDone) with
        ⟨i', hI', hEnded, hRow⟩
      have hSame : i' = i :=
        List.inj_on_of_nodup_map hInv.ids hI' hI
          (congrArg AuditRow.id hRow)
      rw [hSame, hTx, hOpen] at hEnded
      cases hEnded

/- In every run, each pass delivers in the order of the ids
and nothing that is not committed is delivered. Where no
transaction commits behind a cursor that is stored or may
be, every committed row at or below the cursor was
accepted; and that needs every row to be committed beyond
the stored cursor. -/
theorem outbox_ships
    {start last : Outbox}
    {trace : List (Transition Outbox OutboxCall)}
    (hStart : start.Starts)
    (hRun : Run OutboxStep start trace last) :
    (∀ e ∈ trace, InOrder e.post ∧ OnlyCommitted e.post) ∧
      ((∀ e ∈ trace, FitsOutbox e) →
        ∀ e ∈ trace, Shipped e.post) ∧
      ((∀ e ∈ trace, Shipped e.post) →
        ∀ e ∈ trace, ∀ tx, e.label = .commit tx →
          ∀ i ∈ e.pre.inserted, i.tx = tx →
            e.pre.cursor < i.row.id) := by
  have hSteps := hRun.forall_step (I := OutboxInv)
    (fun _ _ _ hInv hStep => hInv.step hStep) hStart.inv
  refine ⟨?_, ?_, ?_⟩
  · intro e hE
    have hNext := (hSteps e hE).1.step (hSteps e hE).2
    exact ⟨fun k d hHere => (hNext.sound k d hHere).sent,
      hNext.only⟩
  · intro hFits e hE
    have hKept :=
      (hRun.restrict hFits).forall_step (I := CoverInv)
        (fun _ _ _ hInv hStep => hInv.step hStep.1 hStep.2)
        hStart.cover e hE
    exact (hKept.1.step hKept.2.1 hKept.2.2).shipped
  · intro hShipped e hE tx hLabel i hI hTx
    exact (hSteps e hE).1.beyond_cursor (hSteps e hE).2
      (hShipped e hE) hLabel hI hTx

end

---- Concrete Passes

def loginRow (id : Nat) : AuditRow :=
  ⟨id, lit "2026-01-01T00:00:00+00:00", lit "a@x.y",
    lit "auth.login", none, none⟩

def emptyOutbox : Outbox :=
  ⟨1, [], fun _ => none, 0, fun _ => none, []⟩

theorem emptyOutbox_starts : emptyOutbox.Starts :=
  ⟨rfl, rfl, fun _ => rfl⟩

def inserting (tx : Nat) (o : Outbox) : Outbox :=
  { o with
    next := o.next + 1
    inserted := o.inserted ++ [⟨loginRow o.next, tx⟩] }

def committing (tx : Nat) (o : Outbox) : Outbox :=
  { o with ended := Function.update o.ended tx (some true) }

def draining (d : Option Drain) (o : Outbox) : Outbox :=
  { o with drains := Function.update o.drains 0 d }

/- The sink has accepted a row of the first pass. -/
def accepting (id : Nat) (o : Outbox) : Outbox :=
  { draining (some (.posting 0 id [loginRow id] [])) o with
    accepted := o.accepted ++ [loginRow id] }

def storing (id : Nat) (o : Outbox) : Outbox :=
  { draining none o with cursor := id }

def begun (o : Outbox) : Outbox :=
  draining (some (.reading 0)) o

def ready (id : Nat) (o : Outbox) : Outbox :=
  draining (some (.posting 0 0 [] [loginRow id])) (begun o)

def shipped (id : Nat) (o : Outbox) : Outbox :=
  accepting id (ready id o)

def ended (id : Nat) (o : Outbox) : Outbox :=
  draining (some (.saving id [loginRow id])) (shipped id o)

/- A pass that ships one row. -/
def passOf
    (id : Nat)
    (o : Outbox) : List (Transition Outbox OutboxCall) :=
  [⟨o, .getCursor 0, begun o⟩,
    ⟨begun o, .read 0, ready id o⟩,
    ⟨ready id o, .post 0 .accepted, shipped id o⟩,
    ⟨shipped id o, .finish 0, ended id o⟩,
    ⟨ended id o, .setCursor 0, storing id (ended id o)⟩]

theorem passOf_run
    {id : Nat} {o : Outbox}
    (hIdle : o.drains 0 = none) (hCursor : o.cursor = 0)
    (hBatch : batch 0 o.committed = [loginRow id]) (hId : id ≠ 0) :
    Run OutboxStep o (passOf id o) (storing id (ended id o)) := by
  have hBegin : OutboxStep o (.getCursor 0) (begun o) := by
    have hSame : draining (some (.reading o.cursor)) o =
        begun o := by
      rw [hCursor]
      rfl
    rw [← hSame]
    exact .getCursor o 0 hIdle
  have hRead : OutboxStep (begun o) (.read 0) (ready id o) := by
    have hStep := OutboxStep.read (begun o) 0 0
      rfl
    have hSame : batch 0 (begun o).committed = [loginRow id] :=
      hBatch
    rw [hSame] at hStep
    exact hStep
  have hPost : OutboxStep (ready id o) (.post 0 .accepted)
      (shipped id o) :=
    .accepted (ready id o) 0 0 0 [] [] (loginRow id)
      rfl
  have hFinish : OutboxStep (shipped id o) (.finish 0)
      (ended id o) := by
    have hStep := OutboxStep.finish (shipped id o) 0 0 id
      [loginRow id] rfl
    rw [Drain.finish, if_pos hId] at hStep
    exact hStep
  have hSave : OutboxStep (ended id o) (.setCursor 0)
      (storing id (ended id o)) :=
    .setCursor (ended id o) 0 id [loginRow id]
      rfl
  exact .cons hBegin (.cons hRead (.cons hPost
    (.cons hFinish (.cons hSave (.nil _)))))

def inserted : Outbox := inserting 0 emptyOutbox

def committed : Outbox := committing 0 inserted

/- A row that is committed is shipped. -/
theorem committed_row_shipped :
    Shipped (storing 1 (ended 1 committed)) := by
  have hFirst : Run OutboxStep emptyOutbox
      [⟨emptyOutbox, .insert 0 (loginRow 1), inserted⟩,
        ⟨inserted, .commit 0, committed⟩] committed :=
    .cons (.insert _ 0 _ rfl rfl)
      (.cons (.commit _ 0 rfl) (.nil _))
  have hPass : Run OutboxStep committed (passOf 1 committed)
      (storing 1 (ended 1 committed)) :=
    passOf_run rfl rfl (by decide) (by decide)
  have hRun := hFirst.append hPass
  refine (outbox_ships emptyOutbox_starts hRun).2.1 ?_
    ⟨ended 1 committed, .setCursor 0,
      storing 1 (ended 1 committed)⟩ (by simp [passOf])
  simp only [passOf, List.cons_append, List.nil_append,
    List.forall_mem_cons, List.not_mem_nil, false_imp_iff,
    implies_true, and_true]
  refine ⟨?_, ?_, ?_, ?_, ?_, ?_, ?_⟩ <;> intro tx hLabel
  case refine_2 =>
    intro i hI _
    rw [List.mem_singleton.mp hI]
    refine ⟨by decide, ?_⟩
    intro k d hHere
    cases hHere
  all_goals cases hLabel

/- Two transactions, and the second commits first. -/
def bothInserted : Outbox := inserting 1 inserted

def secondCommitted : Outbox := committing 1 bothInserted

def secondShipped : Outbox :=
  storing 2 (ended 2 secondCommitted)

/- The row of the first one is behind the cursor. -/
theorem late_commit_dropped :
    Run OutboxStep emptyOutbox
        ([⟨emptyOutbox, .insert 0 (loginRow 1), inserted⟩,
            ⟨inserted, .insert 1 (loginRow 2), bothInserted⟩,
            ⟨bothInserted, .commit 1, secondCommitted⟩] ++
          passOf 2 secondCommitted ++
          [⟨secondShipped, .commit 0,
            committing 0 secondShipped⟩])
        (committing 0 secondShipped) ∧
      ¬Shipped (committing 0 secondShipped) := by
  constructor
  · apply Run.append
    · apply Run.append
      · exact .cons (.insert _ 0 _ rfl rfl)
          (.cons (.insert _ 1 _ rfl rfl)
            (.cons (.commit _ 1 rfl) (.nil _)))
      · exact passOf_run rfl rfl (by decide) (by decide)
    · exact .cons (.commit _ 0 rfl) (.nil _)
  · intro hShipped
    have hRow := hShipped (loginRow 1) (by decide) (by decide)
    revert hRow
    decide

end ThreatOrbit.Audit
