import ThreatOrbit.Lib.Text

/-
  The durable event queue over the `events` table.

  A worker claims a batch of pending events, which marks
  them with its name and the time, and completes the batch
  when it has processed it. A claim is a lease: past the
  lease window another claim may take the event, and
  `requeueStale` releases it.

  The clock is in microseconds; the queue stamps and
  compares whole seconds, as `_now()` drops the rest. The
  stamps are ISO texts of UTC instants at second
  resolution, which compare as the instants do, and are
  kept here as the number of seconds.
-/

---- Rows And Tables

namespace ThreatOrbit.Detection

open Lib

/- A row of `events`: the queue's own columns, and the
columns the rules read as `event`. -/
structure EventRow (E : Type) where
  id : Str
  ts : Str
  processed : Bool
  claimedBy : Option Str
  claimedAt : Option Int
  event : E
deriving DecidableEq, Repr

/- The `events` table. Ids are a primary key, and a row that
is claimed carries the time of the claim. -/
structure EventTable (E : Type) where
  rows : List (EventRow E)
  nodup : (rows.map EventRow.id).Nodup
  stamped :
    ∀ r ∈ rows, r.claimedBy.isSome → r.claimedAt.isSome

/- `ORDER BY ts DESC`: newest first, and rows of one `ts` in
whatever order the backend returns them. -/
structure TsOrder (E : Type) where
  sort : List (EventRow E) → List (EventRow E)
  perm : ∀ rows, (sort rows).Perm rows
  newestFirst :
    ∀ rows,
      (sort rows).Pairwise (fun a b => b.ts ≤ a.ts)

/- `a` may come before `b` in the newest-first order. -/
def EventRow.notOlder {E : Type} (a b : EventRow E) : Prop :=
  b.ts ≤ a.ts

instance {E : Type} :
    DecidableRel (EventRow.notOlder (E := E)) := by
  intro a b
  unfold EventRow.notOlder
  infer_instance

instance {E : Type} :
    Std.Total (EventRow.notOlder (E := E)) :=
  ⟨fun _ _ => le_total _ _⟩

instance {E : Type} :
    IsTrans (EventRow E) EventRow.notOlder :=
  ⟨fun _ _ _ hAb hBc => le_trans hBc hAb⟩

/- The order that keeps rows of one `ts` in table order. -/
def TsOrder.stable (E : Type) : TsOrder E where
  sort rows := rows.insertionSort EventRow.notOlder
  perm _ := List.perm_insertionSort _ _
  newestFirst _ := List.pairwise_insertionSort _ _

---- Queue Operations

section

variable {E : Type}

/- `_now()`: the clock without its microseconds. -/
def seconds (clock : Nat) : Int :=
  (clock / 1000000 : Nat)

/- `claimed_at < cutoff`, false on a null stamp. -/
def EventRow.stampedBefore
    (cutoff : Int)
    (r : EventRow E) : Bool :=
  match r.claimedAt with
  | some stamp => stamp < cutoff
  | none => false

/- The rows a claim may take. -/
def EventRow.claimable
    (cutoff : Int)
    (r : EventRow E) : Bool :=
  !r.processed &&
    (r.claimedBy.isNone || r.stampedBefore cutoff)

/- The rows whose lease is stale. -/
def EventRow.stale
    (cutoff : Int)
    (r : EventRow E) : Bool :=
  !r.processed && r.claimedBy.isSome &&
    r.stampedBefore cutoff

/- `UPDATE events SET … WHERE …`, keeping ids and stamps. -/
def EventTable.update
    (t : EventTable E)
    (f : EventRow E → EventRow E)
    (hId : ∀ r, (f r).id = r.id)
    (hStamp :
      ∀ r, (r.claimedBy.isSome → r.claimedAt.isSome) →
        (f r).claimedBy.isSome → (f r).claimedAt.isSome) :
    EventTable E where
  rows := t.rows.map f
  nodup := by
    have hIds :
        (t.rows.map f).map EventRow.id =
          t.rows.map EventRow.id := by
      rw [List.map_map]
      exact List.map_congr_left (fun r _ => hId r)
    rw [hIds]
    exact t.nodup
  stamped := by
    intro r hr
    rcases List.mem_map.mp hr with ⟨old, hOld, rfl⟩
    exact hStamp old (t.stamped old hOld)

/- A row with the lease of a worker. -/
def EventRow.lease
    (ids : List Str)
    (worker : Str)
    (stamp : Int)
    (r : EventRow E) : EventRow E :=
  if r.id ∈ ids then
    { r with claimedBy := some worker, claimedAt := some stamp }
  else
    r

/- A row of a completed batch. -/
def EventRow.finish
    (ids : List Str)
    (r : EventRow E) : EventRow E :=
  if r.id ∈ ids then
    { r with processed := true, claimedBy := none }
  else
    r

/- A row with its stale lease released. -/
def EventRow.release
    (cutoff : Int)
    (r : EventRow E) : EventRow E :=
  if r.stale cutoff then { r with claimedBy := none } else r

/- The rows a claim picks, newest first, up to the batch. -/
def pick
    (order : TsOrder E)
    (t : EventTable E)
    (cutoff : Int)
    (batch : Nat) : List (EventRow E) :=
  (order.sort (t.rows.filter (EventRow.claimable cutoff))).take
    batch

/- Claim up to `batch` pending events for a worker. Returns
the rows as they were selected and the updated table. -/
def claim
    (order : TsOrder E)
    (t : EventTable E)
    (worker : Str)
    (batch lease clock : Nat) :
    List (EventRow E) × EventTable E :=
  let rows := pick order t (seconds clock - lease) batch
  (rows,
    t.update
      (EventRow.lease (rows.map EventRow.id) worker
        (seconds clock))
      (by intro r; unfold EventRow.lease; split <;> rfl)
      (by
        intro r hOld
        unfold EventRow.lease
        split
        · intro _; rfl
        · exact hOld))

/- The atomic claim of a pool worker. SQLite runs `claim`
under a write lock; Postgres updates the rows a subselect
picks and returns them as updated. -/
def claimLocked
    (postgres : Bool)
    (order : TsOrder E)
    (t : EventTable E)
    (worker : Str)
    (batch lease clock : Nat) :
    List (EventRow E) × EventTable E :=
  let (rows, claimed) := claim order t worker batch lease clock
  if postgres then
    (rows.map
      (EventRow.lease (rows.map EventRow.id) worker
        (seconds clock)), claimed)
  else
    (rows, claimed)

/- Mark a processed batch done and drop its lease. -/
def complete
    (t : EventTable E)
    (ids : List Str) : EventTable E :=
  t.update (EventRow.finish ids)
    (by intro r; unfold EventRow.finish; split <;> rfl)
    (by
      intro r hOld
      unfold EventRow.finish
      split
      · simp
      · exact hOld)

/- Release the leases held longer than the lease window.
Returns the number of events put back on the queue. -/
def requeueStale
    (t : EventTable E)
    (lease clock : Nat) : Nat × EventTable E :=
  let cutoff := seconds clock - lease
  ((t.rows.filter (EventRow.stale cutoff)).length,
    t.update (EventRow.release cutoff)
      (by intro r; unfold EventRow.release; split <;> rfl)
      (by
        intro r hOld
        unfold EventRow.release
        split
        · simp
        · exact hOld))

/- Events that are claimed and not done. -/
def inFlight (t : EventTable E) : Nat :=
  (t.rows.filter
    (fun r => !r.processed && r.claimedBy.isSome)).length

end

---- Facts About The Operations

variable {E : Type}

/- Two rows of the table with one id are one row. -/
theorem EventTable.eq_of_id
    (t : EventTable E) {a b : EventRow E} (hA : a ∈ t.rows)
    (hB : b ∈ t.rows) (hId : a.id = b.id) :
    a = b :=
  List.inj_on_of_nodup_map t.nodup hA hB hId

/- Everything picked was claimable in the table. -/
theorem mem_of_mem_pick
    {order : TsOrder E} {t : EventTable E} {cutoff : Int}
    {batch : Nat} {r : EventRow E}
    (hr : r ∈ pick order t cutoff batch) :
    r ∈ t.rows ∧ r.claimable cutoff = true := by
  have hSorted := List.mem_of_mem_take hr
  have hFiltered :=
    (order.perm (t.rows.filter
      (EventRow.claimable cutoff))).mem_iff.mp hSorted
  exact List.mem_filter.mp hFiltered

@[simp] theorem EventRow.lease_id
    (ids : List Str)
    (worker : Str)
    (stamp : Int)
    (r : EventRow E) :
    (r.lease ids worker stamp).id = r.id := by
  unfold EventRow.lease
  split <;> rfl

@[simp] theorem EventRow.finish_id
    (ids : List Str)
    (r : EventRow E) :
    (r.finish ids).id = r.id := by
  unfold EventRow.finish
  split <;> rfl

@[simp] theorem EventRow.release_id
    (cutoff : Int)
    (r : EventRow E) :
    (r.release cutoff).id = r.id := by
  unfold EventRow.release
  split <;> rfl

@[simp] theorem EventRow.lease_processed
    (ids : List Str)
    (worker : Str)
    (stamp : Int)
    (r : EventRow E) :
    (r.lease ids worker stamp).processed = r.processed := by
  unfold EventRow.lease
  split <;> rfl

@[simp] theorem EventRow.release_processed
    (cutoff : Int)
    (r : EventRow E) :
    (r.release cutoff).processed = r.processed := by
  unfold EventRow.release
  split <;> rfl

theorem EventRow.lease_of_mem
    {ids : List Str} {r : EventRow E}
    (hMem : r.id ∈ ids) (worker : Str) (stamp : Int) :
    r.lease ids worker stamp =
      { r with
        claimedBy := some worker
        claimedAt := some stamp } :=
  if_pos hMem

theorem EventRow.lease_of_not_mem
    {ids : List Str} {r : EventRow E}
    (hMem : r.id ∉ ids) (worker : Str) (stamp : Int) :
    r.lease ids worker stamp = r :=
  if_neg hMem

theorem EventRow.finish_of_mem
    {ids : List Str} {r : EventRow E}
    (hMem : r.id ∈ ids) :
    r.finish ids =
      { r with processed := true, claimedBy := none } :=
  if_pos hMem

theorem EventRow.finish_of_not_mem
    {ids : List Str} {r : EventRow E}
    (hMem : r.id ∉ ids) :
    r.finish ids = r :=
  if_neg hMem

/- A row that is claimed and stamped late enough. -/
theorem EventRow.claimed_not_claimable
    {cutoff stamp : Int} {worker : Str} {r : EventRow E}
    (hBy : r.claimedBy = some worker)
    (hAt : r.claimedAt = some stamp) (hLate : cutoff ≤ stamp) :
    r.claimable cutoff = false := by
  simp [EventRow.claimable, EventRow.stampedBefore, hBy, hAt,
    hLate]

theorem EventRow.claimed_not_stale
    {cutoff stamp : Int} {r : EventRow E}
    (hAt : r.claimedAt = some stamp) (hLate : cutoff ≤ stamp) :
    r.stale cutoff = false := by
  simp [EventRow.stale, EventRow.stampedBefore, hAt, hLate]

/- Within the lease window by the clock, a stamp is within
the window by whole seconds. -/
theorem cutoff_le_of_within
    {claimedAt clock lease : Nat}
    (hWithin : clock < claimedAt + lease * 1000000) :
    seconds clock - lease ≤ seconds claimedAt := by
  unfold seconds
  omega

end ThreatOrbit.Detection
