import ThreatOrbit.Lib.Run
import ThreatOrbit.Detection.EventQueue

/-
  The pool of detection workers over the event queue.

  Workers claim batches, complete them, and release stale
  leases, in any interleaving and on one clock. When every
  batch is completed within the lease window, every event
  is handed out once and none is lost.

  Main declarations:
    * `Pool`, `PoolStep`, `TimelyStep`
    * `PoolInv` and `PoolInv.step`
    * `pool_exactly_once`
-/

---- States And Steps

namespace ThreatOrbit

namespace Detection

open Lib

/- A batch a claim returned, and whether it is completed. -/
structure Batch where
  worker : Str
  ids : List Str
  claimedAt : Nat
  done : Bool
deriving DecidableEq, Repr

/- The table, the clock, and the batches handed out so far. -/
structure Pool (E : Type) where
  events : EventTable E
  clock : Nat
  batches : List Batch

inductive PoolLabel where
| claim (worker : Str) (batch : Nat)
| complete (b : Batch)
| requeueStale
| tick
deriving DecidableEq, Repr

/- A batch, closed if it is the one that was completed. -/
def Batch.close (completed b : Batch) : Batch :=
  if b = completed then { b with done := true } else b

namespace Pool

variable {E : Type}

/- A worker claims a batch. An empty claim ends the loop of
the worker and hands out nothing. -/
def claim
    (postgres : Bool)
    (order : TsOrder E)
    (lease : Nat)
    (s : Pool E)
    (worker : Str)
    (batch clock : Nat) : Pool E :=
  let out :=
    claimLocked postgres order s.events worker batch lease
      clock
  { events := out.2
    clock := clock
    batches :=
      s.batches ++
        if out.1 = [] then []
        else [⟨worker, out.1.map EventRow.id, clock, false⟩] }

/- A worker completes a batch it was handed. -/
def complete
    (s : Pool E)
    (b : Batch)
    (clock : Nat) : Pool E :=
  { events := Detection.complete s.events b.ids
    clock := clock
    batches := s.batches.map b.close }

/- Stale leases are released. -/
def requeueStale
    (lease : Nat)
    (s : Pool E)
    (clock : Nat) : Pool E :=
  { s with
    events := (Detection.requeueStale s.events lease clock).2
    clock := clock }

end Pool

/- One atomic step of the pool at a time of the clock. -/
inductive PoolStep
    {E : Type}
    (postgres : Bool)
    (order : TsOrder E)
    (lease : Nat) :
    Pool E → Nat × PoolLabel → Pool E → Prop
| claim
    (s : Pool E)
    (worker : Str)
    (batch clock : Nat)
    (hClock : s.clock ≤ clock) :
    PoolStep postgres order lease s
      (clock, .claim worker batch)
      (s.claim postgres order lease worker batch clock)
| complete
    (s : Pool E)
    (b : Batch)
    (clock : Nat)
    (hClock : s.clock ≤ clock)
    (hMem : b ∈ s.batches)
    (hOpen : b.done = false) :
    PoolStep postgres order lease s (clock, .complete b)
      (s.complete b clock)
| requeueStale
    (s : Pool E)
    (clock : Nat)
    (hClock : s.clock ≤ clock) :
    PoolStep postgres order lease s (clock, .requeueStale)
      (s.requeueStale lease clock)
| tick
    (s : Pool E)
    (clock : Nat)
    (hClock : s.clock ≤ clock) :
    PoolStep postgres order lease s (clock, .tick)
      { s with clock := clock }

/- A step at a time when every batch not yet completed, the
one the step completes included, is younger than the lease
window. -/
def TimelyStep
    {E : Type}
    (postgres : Bool)
    (order : TsOrder E)
    (lease : Nat)
    (s : Pool E)
    (a : Nat × PoolLabel)
    (t : Pool E) : Prop :=
  PoolStep postgres order lease s a t ∧
    ∀ b ∈ s.batches, b.done = false →
      a.1 < b.claimedAt + lease * 1000000

end Detection

end ThreatOrbit

---- The Invariant

namespace ThreatOrbit

namespace Detection

open Lib

section

variable {E : Type}

/- What a timely run from `start` keeps. The rows of an open
batch carry its lease, the rows of a completed batch are
processed, and no event is in two batches. -/
structure PoolInv (start s : Pool E) : Prop where
  sameIds :
    s.events.rows.map EventRow.id =
      start.events.rows.map EventRow.id
  held :
    ∀ b ∈ s.batches, b.done = false →
      ∀ r ∈ s.events.rows, r.id ∈ b.ids →
        r.processed = false ∧
          r.claimedBy = some b.worker ∧
          r.claimedAt = some (seconds b.claimedAt)
  finished :
    ∀ b ∈ s.batches, b.done = true →
      ∀ r ∈ s.events.rows, r.id ∈ b.ids →
        r.processed = true
  known :
    ∀ b ∈ s.batches, b.ids ≠ [] ∧
      b.ids ⊆ s.events.rows.map EventRow.id
  apart :
    s.batches.Pairwise (fun a b => a.ids.Disjoint b.ids)
  processedBy :
    ∀ r ∈ s.events.rows, r.processed = true →
      (∃ b ∈ s.batches, r.id ∈ b.ids) ∨
        ∃ old ∈ start.events.rows,
          old.id = r.id ∧ old.processed = true
  leasedBy :
    ∀ r ∈ s.events.rows, r.processed = false →
      r.claimedBy.isSome →
        (∃ b ∈ s.batches, b.done = false ∧ r.id ∈ b.ids) ∨
          r ∈ start.events.rows

theorem PoolInv.start
    {s : Pool E}
    (hFresh : s.batches = []) :
    PoolInv s s where
  sameIds := rfl
  held := by simp [hFresh]
  finished := by simp [hFresh]
  known := by simp [hFresh]
  apart := by simp [hFresh]
  processedBy r hr hDone := Or.inr ⟨r, hr, rfl, hDone⟩
  leasedBy r hr _ _ := Or.inr hr

/- The ids a claim hands out, on either backend. -/
theorem claimLocked_ids
    (postgres : Bool) (order : TsOrder E) (t : EventTable E)
    (worker : Str) (batch lease clock : Nat) :
    (claimLocked postgres order t worker batch lease
        clock).1.map EventRow.id =
      (pick order t (seconds clock - lease) batch).map
        EventRow.id := by
  unfold claimLocked claim
  cases postgres
  · rfl
  · simp

theorem claimLocked_rows
    (postgres : Bool) (order : TsOrder E) (t : EventTable E)
    (worker : Str) (batch lease clock : Nat) :
    (claimLocked postgres order t worker batch lease
        clock).2.rows =
      t.rows.map
        (EventRow.lease
          ((pick order t (seconds clock - lease) batch).map
            EventRow.id) worker (seconds clock)) := by
  unfold claimLocked claim
  cases postgres <;> rfl

/- A row of an open batch that is younger than the lease
window is out of reach of a claim. -/
theorem PoolInv.not_picked
    {start s : Pool E}
    (hInv : PoolInv start s)
    {order : TsOrder E} {lease batch clock : Nat}
    (hYoung :
      ∀ b ∈ s.batches, b.done = false →
        clock < b.claimedAt + lease * 1000000)
    {r : EventRow E}
    (hPick :
      r ∈ pick order s.events (seconds clock - lease) batch)
    {b : Batch}
    (hBatch : b ∈ s.batches) :
    r.id ∉ b.ids := by
  intro hMem
  rcases mem_of_mem_pick hPick with ⟨hRow, hClaimable⟩
  cases hDone : b.done with
  | true =>
      have hProcessed :=
        hInv.finished b hBatch hDone r hRow hMem
      simp [EventRow.claimable, hProcessed] at hClaimable
  | false =>
      rcases hInv.held b hBatch hDone r hRow hMem with
        ⟨_, hBy, hAt⟩
      have hNot :=
        EventRow.claimed_not_claimable hBy hAt
          (cutoff_le_of_within (hYoung b hBatch hDone))
      rw [hNot] at hClaimable
      cases hClaimable

end

---- The Steps Keep The Invariant

section

variable {E : Type}

/- What the batch of a claim is, when there is one. -/
theorem mem_claim_batches
    {postgres : Bool} {order : TsOrder E} {lease : Nat}
    {s : Pool E} {worker : Str} {batch clock : Nat} {b : Batch}
    (hBatch :
      b ∈ (s.claim postgres order lease worker batch
        clock).batches) :
    b ∈ s.batches ∨
      (pick order s.events (seconds clock - lease) batch ≠ [] ∧
        b =
          ⟨worker,
            (pick order s.events (seconds clock - lease)
              batch).map EventRow.id, clock, false⟩) := by
  simp only [Pool.claim, List.mem_append] at hBatch
  rcases hBatch with hOld | hNew
  · exact Or.inl hOld
  · right
    split at hNew
    · simp at hNew
    · rename_i hSome
      rw [List.mem_singleton, claimLocked_ids] at hNew
      refine ⟨?_, hNew⟩
      intro hEmpty
      apply hSome
      rw [← List.map_eq_nil_iff (f := EventRow.id),
        claimLocked_ids, hEmpty]
      rfl

theorem PoolInv.claim
    {start s : Pool E}
    (hInv : PoolInv start s) (postgres : Bool) (order : TsOrder E)
    {lease : Nat}
    (worker : Str) (batch : Nat) {clock : Nat}
    (hYoung :
      ∀ b ∈ s.batches, b.done = false →
        clock < b.claimedAt + lease * 1000000) :
    PoolInv start
      (s.claim postgres order lease worker batch clock) := by
  let picked :=
    pick order s.events (seconds clock - lease) batch
  let ids := picked.map EventRow.id
  let t := s.claim postgres order lease worker batch clock
  have hRows :
      t.events.rows =
        s.events.rows.map
          (EventRow.lease ids worker (seconds clock)) :=
    claimLocked_rows _ _ _ _ _ _ _
  have hRow :
      ∀ r ∈ t.events.rows, ∃ old ∈ s.events.rows,
        r = old.lease ids worker (seconds clock) := by
    intro r hr
    rw [hRows] at hr
    rcases List.mem_map.mp hr with ⟨old, hOld, rfl⟩
    exact ⟨old, hOld, rfl⟩
  -- a picked event is in no earlier batch
  have hNew : ∀ b ∈ s.batches, ∀ id ∈ b.ids, id ∉ ids := by
    intro b hBatch id hId hPicked
    rcases List.mem_map.mp hPicked with ⟨r, hr, rfl⟩
    exact hInv.not_picked hYoung hr hBatch hId
  have hSub : ids ⊆ s.events.rows.map EventRow.id := by
    intro id hId
    rcases List.mem_map.mp hId with ⟨r, hr, rfl⟩
    exact List.mem_map_of_mem (mem_of_mem_pick hr).1
  have hKeepIds :
      t.events.rows.map EventRow.id =
        s.events.rows.map EventRow.id := by
    rw [hRows, List.map_map]
    exact List.map_congr_left
      (fun r _ => EventRow.lease_id ids worker _ r)
  refine ⟨hKeepIds.trans hInv.sameIds, ?_, ?_, ?_, ?_, ?_, ?_⟩
  · intro b hBatch hOpen r hr hMem
    rcases hRow r hr with ⟨old, hOld, rfl⟩
    rw [EventRow.lease_id] at hMem
    rcases mem_claim_batches hBatch with hEarlier | ⟨_, rfl⟩
    · rw [EventRow.lease_of_not_mem
        (hNew b hEarlier old.id hMem)]
      exact hInv.held b hEarlier hOpen old hOld hMem
    · have hPending : old.processed = false := by
        rcases List.mem_map.mp hMem with ⟨p, hp, hSame⟩
        rcases mem_of_mem_pick hp with ⟨hIn, hClaimable⟩
        rw [← s.events.eq_of_id hIn hOld hSame]
        simp only [EventRow.claimable, Bool.and_eq_true,
          Bool.not_eq_true'] at hClaimable
        exact hClaimable.1
      rw [EventRow.lease_of_mem hMem]
      exact ⟨hPending, rfl, rfl⟩
  · intro b hBatch hDone r hr hMem
    rcases hRow r hr with ⟨old, hOld, rfl⟩
    rw [EventRow.lease_id] at hMem
    rw [EventRow.lease_processed]
    rcases mem_claim_batches hBatch with hEarlier | ⟨_, rfl⟩
    · exact hInv.finished b hEarlier hDone old hOld hMem
    · cases hDone
  · intro b hBatch
    rw [hKeepIds]
    rcases mem_claim_batches hBatch with hEarlier | ⟨hSome, rfl⟩
    · exact hInv.known b hEarlier
    · exact ⟨by simpa using hSome, hSub⟩
  · simp only [Pool.claim]
    rw [List.pairwise_append]
    refine ⟨hInv.apart, ?_, ?_⟩
    · split <;> simp
    · intro a hA b hB
      split at hB
      · simp at hB
      · rw [List.mem_singleton, claimLocked_ids] at hB
        subst hB
        exact fun id hId hPicked => hNew a hA id hId hPicked
  · intro r hr hDone
    rcases hRow r hr with ⟨old, hOld, rfl⟩
    rw [EventRow.lease_processed] at hDone
    rw [EventRow.lease_id]
    rcases hInv.processedBy old hOld hDone with
      ⟨b, hBatch, hMem⟩ | hBefore
    · exact Or.inl
        ⟨b, List.mem_append_left _ hBatch, hMem⟩
    · exact Or.inr hBefore
  · intro r hr hPending hClaimed
    rcases hRow r hr with ⟨old, hOld, rfl⟩
    rw [EventRow.lease_id]
    by_cases hMem : old.id ∈ ids
    · left
      have hSome :
          (claimLocked postgres order s.events worker batch
            lease clock).1 ≠ [] := by
        intro hEmpty
        have hIds :=
          claimLocked_ids postgres order s.events worker batch
            lease clock
        rw [hEmpty] at hIds
        have hNone : ids = [] := hIds.symm
        rw [hNone] at hMem
        cases hMem
      refine ⟨⟨worker, ids, clock, false⟩, ?_, rfl, hMem⟩
      apply List.mem_append_right
      rw [if_neg hSome, List.mem_singleton, claimLocked_ids]
    · rw [EventRow.lease_of_not_mem hMem] at hPending hClaimed ⊢
      rcases hInv.leasedBy old hOld hPending hClaimed with
        ⟨b, hBatch, hOpen, hIn⟩ | hBefore
      · exact Or.inl
          ⟨b, List.mem_append_left _ hBatch, hOpen, hIn⟩
      · exact Or.inr hBefore

/- Closing a batch changes only whether it is done. -/
@[simp] theorem Batch.close_ids (completed b : Batch) :
    (completed.close b).ids = b.ids := by
  unfold Batch.close
  split <;> rfl

theorem Batch.close_of_ne
    {completed b : Batch}
    (hNe : b ≠ completed) :
    completed.close b = b :=
  if_neg hNe

theorem Batch.close_self_done (b : Batch) :
    (b.close b).done = true := by
  simp [Batch.close]

/- Two batches of a timely run share no event. -/
theorem PoolInv.disjoint
    {start s : Pool E}
    (hInv : PoolInv start s) {a b : Batch} (hA : a ∈ s.batches)
    (hB : b ∈ s.batches) (hNe : a ≠ b) :
    a.ids.Disjoint b.ids := by
  have hSymm : Std.Symm (fun a b : Batch => a.ids.Disjoint b.ids) :=
    ⟨fun _ _ h => List.disjoint_comm.mp h⟩
  exact hInv.apart.forall hA hB hNe

theorem PoolInv.complete
    {start s : Pool E}
    (hInv : PoolInv start s) {completed : Batch} (clock : Nat)
    (hMem : completed ∈ s.batches) :
    PoolInv start (s.complete completed clock) := by
  have hRow :
      ∀ r ∈ (s.complete completed clock).events.rows,
        ∃ old ∈ s.events.rows, r = old.finish completed.ids := by
    intro r hr
    rcases List.mem_map.mp hr with ⟨old, hOld, rfl⟩
    exact ⟨old, hOld, rfl⟩
  have hBatchOf :
      ∀ b ∈ (s.complete completed clock).batches,
        ∃ old ∈ s.batches, b = completed.close old := by
    intro b hb
    rcases List.mem_map.mp hb with ⟨old, hOld, rfl⟩
    exact ⟨old, hOld, rfl⟩
  have hKeepIds :
      (s.complete completed clock).events.rows.map
          EventRow.id =
        s.events.rows.map EventRow.id := by
    change
      (s.events.rows.map (EventRow.finish completed.ids)).map
          EventRow.id =
        s.events.rows.map EventRow.id
    rw [List.map_map]
    exact List.map_congr_left
      (fun r _ => EventRow.finish_id completed.ids r)
  refine ⟨hKeepIds.trans hInv.sameIds, ?_, ?_, ?_, ?_, ?_, ?_⟩
  · intro b hBatch hOpen r hr hIn
    rcases hBatchOf b hBatch with ⟨was, hWas, rfl⟩
    rcases hRow r hr with ⟨old, hOld, rfl⟩
    rw [Batch.close_ids, EventRow.finish_id] at hIn
    have hNe : was ≠ completed := by
      rintro rfl
      rw [Batch.close_self_done] at hOpen
      cases hOpen
    rw [Batch.close_of_ne hNe] at hOpen ⊢
    have hOut : old.id ∉ completed.ids :=
      fun hBoth => hInv.disjoint hWas hMem hNe hIn hBoth
    rw [EventRow.finish_of_not_mem hOut]
    exact hInv.held was hWas hOpen old hOld hIn
  · intro b hBatch hDone r hr hIn
    rcases hBatchOf b hBatch with ⟨was, hWas, rfl⟩
    rcases hRow r hr with ⟨old, hOld, rfl⟩
    rw [Batch.close_ids, EventRow.finish_id] at hIn
    by_cases hSame : old.id ∈ completed.ids
    · rw [EventRow.finish_of_mem hSame]
    · have hNe : was ≠ completed := by
        rintro rfl
        exact hSame hIn
      rw [Batch.close_of_ne hNe] at hDone
      rw [EventRow.finish_of_not_mem hSame]
      exact hInv.finished was hWas hDone old hOld hIn
  · intro b hBatch
    rcases hBatchOf b hBatch with ⟨was, hWas, rfl⟩
    rw [Batch.close_ids, hKeepIds]
    exact hInv.known was hWas
  · apply List.Pairwise.map _ _ hInv.apart
    intro a b hApart
    simpa using hApart
  · intro r hr hDone
    rcases hRow r hr with ⟨old, hOld, rfl⟩
    rw [EventRow.finish_id]
    by_cases hIn : old.id ∈ completed.ids
    · left
      exact ⟨completed.close completed,
        List.mem_map_of_mem hMem, by simpa using hIn⟩
    · rw [EventRow.finish_of_not_mem hIn] at hDone
      rcases hInv.processedBy old hOld hDone with
        ⟨b, hBatch, hHas⟩ | hBefore
      · left
        exact ⟨completed.close b, List.mem_map_of_mem hBatch,
          by simpa using hHas⟩
      · exact Or.inr hBefore
  · intro r hr hPending hClaimed
    rcases hRow r hr with ⟨old, hOld, rfl⟩
    by_cases hIn : old.id ∈ completed.ids
    · rw [EventRow.finish_of_mem hIn] at hPending
      cases hPending
    · rw [EventRow.finish_of_not_mem hIn] at hPending hClaimed ⊢
      rcases hInv.leasedBy old hOld hPending hClaimed with
        ⟨b, hBatch, hOpen, hHas⟩ | hBefore
      · left
        have hNe : b ≠ completed := by
          rintro rfl
          exact hIn hHas
        refine ⟨b, ?_, hOpen, hHas⟩
        rw [← Batch.close_of_ne hNe]
        exact List.mem_map_of_mem hBatch
      · exact Or.inr hBefore

/- The lease of an open, young batch is never stale. -/
theorem PoolInv.not_released
    {start s : Pool E}
    (hInv : PoolInv start s) {lease clock : Nat}
    (hYoung :
      ∀ b ∈ s.batches, b.done = false →
        clock < b.claimedAt + lease * 1000000)
    {b : Batch}
    (hBatch : b ∈ s.batches)
    (hOpen : b.done = false)
    {r : EventRow E}
    (hr : r ∈ s.events.rows)
    (hIn : r.id ∈ b.ids) :
    r.release (seconds clock - lease) = r := by
  rcases hInv.held b hBatch hOpen r hr hIn with ⟨_, _, hAt⟩
  have hFresh :=
    EventRow.claimed_not_stale hAt
      (cutoff_le_of_within (hYoung b hBatch hOpen))
  simp [EventRow.release, hFresh]

theorem PoolInv.requeueStale
    {start s : Pool E}
    (hInv : PoolInv start s) {lease clock : Nat}
    (hYoung :
      ∀ b ∈ s.batches, b.done = false →
        clock < b.claimedAt + lease * 1000000) :
    PoolInv start (s.requeueStale lease clock) := by
  have hRow :
      ∀ r ∈ (s.requeueStale lease clock).events.rows,
        ∃ old ∈ s.events.rows,
          r = old.release (seconds clock - lease) := by
    intro r hr
    rcases List.mem_map.mp hr with ⟨old, hOld, rfl⟩
    exact ⟨old, hOld, rfl⟩
  have hKeepIds :
      (s.requeueStale lease clock).events.rows.map
          EventRow.id =
        s.events.rows.map EventRow.id := by
    change
      (s.events.rows.map
          (EventRow.release (seconds clock - lease))).map
          EventRow.id =
        s.events.rows.map EventRow.id
    rw [List.map_map]
    exact List.map_congr_left
      (fun r _ => EventRow.release_id _ r)
  refine ⟨hKeepIds.trans hInv.sameIds, ?_, ?_, ?_,
    hInv.apart, ?_, ?_⟩
  · intro b hBatch hOpen r hr hIn
    rcases hRow r hr with ⟨old, hOld, rfl⟩
    rw [EventRow.release_id] at hIn
    rw [hInv.not_released hYoung hBatch hOpen hOld hIn]
    exact hInv.held b hBatch hOpen old hOld hIn
  · intro b hBatch hDone r hr hIn
    rcases hRow r hr with ⟨old, hOld, rfl⟩
    rw [EventRow.release_id] at hIn
    rw [EventRow.release_processed]
    exact hInv.finished b hBatch hDone old hOld hIn
  · intro b hBatch
    rw [hKeepIds]
    exact hInv.known b hBatch
  · intro r hr hDone
    rcases hRow r hr with ⟨old, hOld, rfl⟩
    rw [EventRow.release_processed] at hDone
    rw [EventRow.release_id]
    exact hInv.processedBy old hOld hDone
  · intro r hr hPending hClaimed
    rcases hRow r hr with ⟨old, hOld, rfl⟩
    have hKept : old.release (seconds clock - lease) = old := by
      unfold EventRow.release at hClaimed ⊢
      split at hClaimed
      · cases hClaimed
      · rename_i hFresh
        exact if_neg hFresh
    rw [hKept] at hPending hClaimed ⊢
    exact hInv.leasedBy old hOld hPending hClaimed

/- Every timely step keeps the invariant. -/
theorem PoolInv.step
    {postgres : Bool} {order : TsOrder E} {lease : Nat}
    {start s t : Pool E} {a : Nat × PoolLabel}
    (hInv : PoolInv start s)
    (hStep : TimelyStep postgres order lease s a t) :
    PoolInv start t := by
  rcases hStep with ⟨hStep, hYoung⟩
  cases hStep with
  | claim worker batch clock _ =>
      exact hInv.claim postgres order worker batch hYoung
  | complete b clock _ hMem _ =>
      exact hInv.complete clock hMem
  | requeueStale clock _ =>
      exact hInv.requeueStale hYoung
  | tick clock _ =>
      exact ⟨hInv.sameIds, hInv.held, hInv.finished,
        hInv.known, hInv.apart, hInv.processedBy,
        hInv.leasedBy⟩

end

---- Exactly-Once Delivery

variable {E : Type}

/- The batches of a state that an event was handed out in. -/
def Pool.handedOutIn (s : Pool E) (id : Str) : List Batch :=
  s.batches.filter (fun b => b.ids.contains id)

/- The ids a step hands out: those of the batch it adds. -/
def returned
    (e : Transition (Pool E) (Nat × PoolLabel)) : List Str :=
  (e.post.batches.drop e.pre.batches.length).flatMap Batch.ids

/- An unexpired lease: another claim cannot take the event
now, and a claim after the lease window can. The lease is
that of exactly one open batch, or was on the row already
when the run started. -/
structure UnderLease
    (lease : Nat)
    (start s : Pool E)
    (r : EventRow E) : Prop where
  pending : r.processed = false
  unexpired :
    r.claimable (seconds s.clock - lease) = false
  expires :
    ∃ stamp, r.claimedAt = some stamp ∧
      ∀ clock, stamp < seconds clock - lease →
        r.claimable (seconds clock - lease) = true
  holder :
    (∃! b, b ∈ s.batches ∧ b.done = false ∧ r.id ∈ b.ids ∧
      r.claimedBy = some b.worker ∧
        r.claimedAt = some (seconds b.claimedAt)) ∨
      r ∈ start.events.rows

/- In a timely run an event is in at most one batch. -/
theorem PoolInv.handedOut_le_one
    {start s : Pool E}
    (hInv : PoolInv start s) (id : Str) :
    (s.handedOutIn id).length ≤ 1 := by
  have hApart :
      (s.handedOutIn id).Pairwise
        (fun a b => a.ids.Disjoint b.ids) :=
    hInv.apart.sublist List.filter_sublist
  cases hList : s.handedOutIn id with
  | nil => simp
  | cons a rest =>
      cases rest with
      | nil => simp
      | cons b more =>
          exfalso
          rw [hList] at hApart
          have hA : a ∈ s.handedOutIn id := by simp [hList]
          have hB : b ∈ s.handedOutIn id := by simp [hList]
          have hInA : id ∈ a.ids := by
            simpa using (List.mem_filter.mp hA).2
          have hInB : id ∈ b.ids := by
            simpa using (List.mem_filter.mp hB).2
          exact
            (List.rel_of_pairwise_cons hApart
              (List.mem_cons_self)) hInA hInB

/- No event is dropped. -/
theorem PoolInv.not_dropped
    {start s : Pool E}
    (hInv : PoolInv start s) (lease : Nat) {r : EventRow E}
    (hr : r ∈ s.events.rows) :
    r.processed = true ∨
      r.claimable (seconds s.clock - lease) = true ∨
        UnderLease lease start s r := by
  cases hPending : r.processed with
  | true => exact Or.inl rfl
  | false =>
      right
      cases hNow : r.claimable (seconds s.clock - lease) with
      | true => exact Or.inl rfl
      | false =>
          right
          have hClaimed : r.claimedBy.isSome := by
            cases hBy : r.claimedBy with
            | some worker => rfl
            | none =>
                simp [EventRow.claimable, hPending, hBy]
                  at hNow
          rcases Option.isSome_iff_exists.mp
              (s.events.stamped r hr hClaimed) with
            ⟨stamp, hStamp⟩
          refine ⟨hPending, hNow, ⟨stamp, hStamp, ?_⟩, ?_⟩
          · intro clock hLate
            simp [EventRow.claimable, EventRow.stampedBefore,
              hPending, hStamp, hLate]
          · rcases hInv.leasedBy r hr hPending hClaimed with
              ⟨b, hBatch, hOpen, hIn⟩ | hBefore
            · left
              have hHeld := hInv.held b hBatch hOpen r hr hIn
              refine ⟨b, ⟨hBatch, hOpen, hIn, hHeld.2⟩, ?_⟩
              rintro c ⟨hOther, _, hAlso, _⟩
              by_contra hNe
              exact hInv.disjoint hOther hBatch hNe hAlso hIn
            · exact Or.inr hBefore

/- A step hands out no processed event. -/
theorem returned_pending
    {postgres : Bool} {order : TsOrder E} {lease : Nat}
    {s t : Pool E} {a : Nat × PoolLabel}
    (hStep : TimelyStep postgres order lease s a t) {r : EventRow E}
    (hr : r ∈ s.events.rows) (hDone : r.processed = true) :
    r.id ∉ returned ⟨s, a, t⟩ := by
  intro hReturned
  rcases List.mem_flatMap.mp hReturned with ⟨b, hNew, hIn⟩
  rcases hStep with ⟨hStep, _⟩
  cases hStep with
  | claim worker batch clock _ =>
      simp only [Pool.claim, List.drop_left] at hNew
      split at hNew
      · simp at hNew
      · rw [List.mem_singleton, claimLocked_ids] at hNew
        subst hNew
        rcases List.mem_map.mp hIn with ⟨p, hPick, hSame⟩
        rcases mem_of_mem_pick hPick with ⟨hRow, hClaimable⟩
        rw [s.events.eq_of_id hRow hr hSame] at hClaimable
        simp [EventRow.claimable, hDone] at hClaimable
  | complete b clock _ _ _ =>
      simp only [Pool.complete] at hNew
      rw [List.drop_eq_nil_of_le (by simp)] at hNew
      cases hNew
  | requeueStale clock _ =>
      simp [Pool.requeueStale] at hNew
  | tick clock _ => simp at hNew

/- A processed event stays processed. -/
theorem processed_step
    {postgres : Bool} {order : TsOrder E} {lease : Nat}
    {s t : Pool E} {a : Nat × PoolLabel}
    (hStep : TimelyStep postgres order lease s a t) {id : Str}
    (hDone :
      ∀ r ∈ s.events.rows, r.id = id → r.processed = true) :
    ∀ r ∈ t.events.rows, r.id = id → r.processed = true := by
  intro r hr hId
  rcases hStep with ⟨hStep, _⟩
  cases hStep with
  | claim worker batch clock _ =>
      simp only [Pool.claim, claimLocked_rows] at hr
      rcases List.mem_map.mp hr with ⟨old, hOld, rfl⟩
      rw [EventRow.lease_id] at hId
      rw [EventRow.lease_processed]
      exact hDone old hOld hId
  | complete b clock _ _ _ =>
      rcases List.mem_map.mp hr with ⟨old, hOld, rfl⟩
      rw [EventRow.finish_id] at hId
      unfold EventRow.finish
      split
      · rfl
      · exact hDone old hOld hId
  | requeueStale clock _ =>
      rcases List.mem_map.mp hr with ⟨old, hOld, rfl⟩
      rw [EventRow.release_id] at hId
      rw [EventRow.release_processed]
      exact hDone old hOld hId
  | tick clock _ => exact hDone r hr hId

/- From an event that is processed on, no claim of a timely
run returns it. -/
theorem not_returned_later
    {postgres : Bool} {order : TsOrder E} {lease : Nat}
    {start s t : Pool E}
    {trace : List (Transition (Pool E) (Nat × PoolLabel))}
    (hRun :
      Run (TimelyStep postgres order lease) s trace t)
    (hInv : PoolInv start s)
    {id : Str}
    (hKnown : id ∈ s.events.rows.map EventRow.id)
    (hDone :
      ∀ r ∈ s.events.rows, r.id = id → r.processed = true) :
    ∀ e ∈ trace, id ∉ returned e := by
  induction hRun with
  | nil s => simp
  | @cons s t u a rest hStep hRest ih =>
      have hNext := hInv.step hStep
      have hSame :
          t.events.rows.map EventRow.id =
            s.events.rows.map EventRow.id :=
        hNext.sameIds.trans hInv.sameIds.symm
      intro e he
      rcases List.mem_cons.mp he with rfl | hLater
      · rcases List.mem_map.mp hKnown with ⟨r, hr, rfl⟩
        exact returned_pending hStep hr (hDone r hr rfl)
      · exact ih hNext (by rw [hSame]; exact hKnown)
          (processed_step hStep hDone) e hLater

/- Exactly-once delivery. In a timely run from a state with
no batch handed out: no event is in two batches, and an
event processed in the run is in exactly one; an event
that is processed is returned by no later claim; and no
event of the table is dropped. -/
theorem pool_exactly_once
    (postgres : Bool)
    (order : TsOrder E)
    (lease : Nat)
    {start s t : Pool E}
    {earlier later :
      List (Transition (Pool E) (Nat × PoolLabel))}
    (hFresh : start.batches = [])
    (hEarlier :
      Run (TimelyStep postgres order lease) start earlier s)
    (hLater :
      Run (TimelyStep postgres order lease) s later t) :
    s.events.rows.map EventRow.id =
        start.events.rows.map EventRow.id ∧
      ∀ r ∈ s.events.rows,
        (s.handedOutIn r.id).length ≤ 1 ∧
        (r.processed = true →
          (∀ old ∈ start.events.rows,
            old.id = r.id → old.processed = false) →
          (s.handedOutIn r.id).length = 1) ∧
        (r.processed = true →
          ∀ e ∈ later, r.id ∉ returned e) ∧
        (r.processed = true ∨
          r.claimable (seconds s.clock - lease) = true ∨
            UnderLease lease start s r) := by
  have hInv : PoolInv start s :=
    Run.invariant (fun _ _ _ h hStep => h.step hStep)
      hEarlier (PoolInv.start hFresh)
  refine ⟨hInv.sameIds, ?_⟩
  intro r hr
  have hOne := hInv.handedOut_le_one r.id
  refine ⟨hOne, ?_, ?_, hInv.not_dropped lease hr⟩
  · intro hDone hPending
    rcases hInv.processedBy r hr hDone with
      ⟨b, hBatch, hIn⟩ | ⟨old, hOld, hSame, hBefore⟩
    · have hMem : b ∈ s.handedOutIn r.id :=
        List.mem_filter.mpr ⟨hBatch, by simpa using hIn⟩
      have hPos := List.length_pos_of_mem hMem
      omega
    · rw [hPending old hOld hSame] at hBefore
      cases hBefore
  · intro hDone
    apply not_returned_later hLater hInv
      (List.mem_map_of_mem hr)
    intro other hOther hSame
    rw [s.events.eq_of_id hOther hr hSame]
    exact hDone

/- One pending event. -/
def oneEvent : EventTable Unit where
  rows := [⟨lit "e1", lit "2026-01-01", false, none, none, ()⟩]
  nodup := by simp
  stamped := by simp

/- The pool that claims the event at second 1. -/
def oneClaimed : Pool Unit :=
  Pool.claim false (TsOrder.stable Unit) 300
    ⟨oneEvent, 0, []⟩ (lit "pool-0") 100 1000000

/- The pool that completes its batch at second 3. -/
def oneCompleted : Pool Unit :=
  oneClaimed.complete
    ⟨lit "pool-0", [lit "e1"], 1000000, false⟩ 3000000

/- The event is handed out once and not dropped. -/
theorem pool_exactly_once_oneEvent :
    (oneCompleted.handedOutIn (lit "e1")).length = 1 := by
  have hClaim :
      TimelyStep false (TsOrder.stable Unit) 300
        ⟨oneEvent, 0, []⟩
        (1000000, .claim (lit "pool-0") 100) oneClaimed :=
    ⟨.claim _ _ _ _ (Nat.zero_le _),
      fun _ hNone => by cases hNone⟩
  have hComplete :
      TimelyStep false (TsOrder.stable Unit) 300 oneClaimed
        (3000000, .complete
          ⟨lit "pool-0", [lit "e1"], 1000000, false⟩)
        oneCompleted :=
    ⟨.complete _ _ _ (by decide) (by decide) rfl, by decide⟩
  have hRow :
      (⟨lit "e1", lit "2026-01-01", true, none, some 1, ()⟩ :
        EventRow Unit) ∈ oneCompleted.events.rows := by
    decide
  have hAll :=
    (pool_exactly_once false (TsOrder.stable Unit) 300 rfl
      (.cons hClaim (.cons hComplete (.nil oneCompleted)))
      (.nil oneCompleted)).2 _ hRow
  refine hAll.2.1 rfl ?_
  intro old hOld _
  have hOne : old ∈ oneEvent.rows := hOld
  simp only [oneEvent, List.mem_singleton] at hOne
  rw [hOne]

end Detection

end ThreatOrbit
