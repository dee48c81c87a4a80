import ThreatOrbit.Lib.Run
import ThreatOrbit.Lib.Python

/-
  The leader lease of the background work.

  A node takes its time, looks for the row, may create it,
  and claims it by one conditional update. Each statement is
  a step of its own, so calls of any number of nodes
  interleave statement by statement.
-/

---- The Lease

namespace ThreatOrbit.Cluster

open Lib

/- The row of a lease: no holder is the empty text. -/
structure Lease where
  holder : Str
  expiresAt : Int
deriving DecidableEq, Repr

/- The row that `_ensure_row` inserts. -/
def freshLease : Lease :=
  ⟨[], 0⟩

/- The update of `acquire`, and whether it changed the row. -/
def claimLease
    (row : Option Lease)
    (holder : Str)
    (now ttl : Int) : Option Lease × Bool :=
  match row with
  | some lease =>
      if lease.holder = holder ∨ lease.expiresAt < now then
        (some ⟨holder, now + ttl⟩, true)
      else
        (some lease, false)
  | none => (none, false)

/- The answer of `is_leader` from the row. -/
def leaseHeld
    (row : Option Lease)
    (holder : Str)
    (now : Int) : Bool :=
  match row with
  | some lease => lease.holder == holder && now ≤ lease.expiresAt
  | none => false

/- The update of `release`. -/
def releaseLease
    (row : Option Lease)
    (holder : Str) : Option Lease :=
  match row with
  | some lease =>
      if lease.holder = holder then some freshLease
      else some lease
  | none => none

theorem claimLease_won
    {row after : Option Lease} {holder : Str} {now ttl : Int}
    (hWon : claimLease row holder now ttl = (after, true)) :
    after = some ⟨holder, now + ttl⟩ ∧
      ∃ lease, row = some lease ∧
        (lease.holder = holder ∨ lease.expiresAt < now) := by
  cases row with
  | none => cases hWon
  | some lease =>
      unfold claimLease at hWon
      simp only at hWon
      split at hWon
      · rename_i hFree
        rw [Prod.mk.injEq] at hWon
        exact ⟨hWon.1.symm, lease, rfl, hFree⟩
      · cases hWon

theorem claimLease_lost
    {row after : Option Lease} {holder : Str} {now ttl : Int}
    (hLost : claimLease row holder now ttl = (after, false)) :
    after = row := by
  cases row with
  | none =>
      cases hLost
      rfl
  | some lease =>
      unfold claimLease at hLost
      simp only at hLost
      split at hLost
      · cases hLost
      · rw [Prod.mk.injEq] at hLost
        exact hLost.1.symm

/- A row has one holder. -/
theorem leaseHeld_unique
    {row : Option Lease} {a b : Str} {now : Int}
    (hA : leaseHeld row a now = true)
    (hB : leaseHeld row b now = true) :
    a = b := by
  cases row with
  | none => cases hA
  | some lease =>
      simp only [leaseHeld, Bool.and_eq_true,
        beq_iff_eq] at hA hB
      exact hA.1.symm.trans hB.1

---- Nodes

/- The nodes by their holder ids. Election is only turned off
where the background work is pinned to one node. -/
structure Deployment where
  election : Bool
  nodes : List Str
  named : ∀ h ∈ nodes, h ≠ []
  alone :
    election = false → ∀ a ∈ nodes, ∀ b ∈ nodes, a = b

/- A call on its way, by the statement it runs next. -/
inductive Call where
| select (holder : Str) (now ttl : Int)
| insert (holder : Str) (now ttl : Int)
| update (holder : Str) (now ttl : Int)
| read (holder : Str) (now : Int)
| release (holder : Str)
deriving DecidableEq, Repr

/- The time a call was started at, if it uses one. -/
def Call.now : Call → Option Int
| .select _ now _ | .insert _ now _ | .update _ now _
| .read _ now => some now
| .release _ => none

/- The row, the clock the nodes share, and their calls. -/
structure World where
  row : Option Lease
  clock : Int
  calls : List Call
deriving Repr

/- What a step lets be seen: a lease acquired until a time,
or without one when election is off; an answer; a lease
given up. -/
inductive Seen where
| nothing
| acquired (holder : Str) (expiresAt : Option Int)
| refused (holder : Str)
| answered (holder : Str) (leader : Bool)
| released (holder : Str)
deriving DecidableEq, Repr

/- A call runs its next statement and goes on, or ends. -/
def World.advance
    (w : World)
    (c : Call)
    (row : Option Lease)
    (next : Option Call) : World :=
  { w with row, calls := next.toList ++ w.calls.erase c }

/- The next state of the nodes. -/
inductive Deployment.Step
    (d : Deployment) : World → Seen → World → Prop
| tick (w : World) (seconds : Nat) :
    d.Step w .nothing { w with clock := w.clock + seconds }
| acquireOff
    (w : World) (h : Str)
    (hOff : d.election = false) (hNode : h ∈ d.nodes) :
    d.Step w (.acquired h none) w
| acquire
    (w : World) (h : Str) (ttl : Int)
    (hOn : d.election = true) (hNode : h ∈ d.nodes)
    (hTtl : 0 < ttl) :
    d.Step w .nothing
      { w with calls := .select h w.clock ttl :: w.calls }
| select
    (w : World) (h : Str) (now ttl : Int)
    (hCall : .select h now ttl ∈ w.calls) :
    d.Step w .nothing
      (w.advance (.select h now ttl) w.row
        (some (if w.row.isSome then .update h now ttl
          else .insert h now ttl)))
| insert
    (w : World) (h : Str) (now ttl : Int)
    (hCall : .insert h now ttl ∈ w.calls) :
    d.Step w .nothing
      (w.advance (.insert h now ttl)
        (some (w.row.getD freshLease))
        (some (.update h now ttl)))
| won
    (w : World) (h : Str) (now ttl : Int)
    (row : Option Lease)
    (hCall : .update h now ttl ∈ w.calls)
    (hWon : claimLease w.row h now ttl = (row, true)) :
    d.Step w (.acquired h (some (now + ttl)))
      (w.advance (.update h now ttl) row none)
| lost
    (w : World) (h : Str) (now ttl : Int)
    (row : Option Lease)
    (hCall : .update h now ttl ∈ w.calls)
    (hLost : claimLease w.row h now ttl = (row, false)) :
    d.Step w (.refused h)
      (w.advance (.update h now ttl) row none)
| isLeaderOff
    (w : World) (h : Str)
    (hOff : d.election = false) (hNode : h ∈ d.nodes) :
    d.Step w (.answered h true) w
| isLeader
    (w : World) (h : Str)
    (hOn : d.election = true) (hNode : h ∈ d.nodes) :
    d.Step w .nothing
      { w with calls := .read h w.clock :: w.calls }
| read
    (w : World) (h : Str) (now : Int)
    (hCall : .read h now ∈ w.calls) :
    d.Step w (.answered h (leaseHeld w.row h now))
      (w.advance (.read h now) w.row none)
| release
    (w : World) (h : Str) (hNode : h ∈ d.nodes) :
    d.Step w .nothing
      { w with calls := .release h :: w.calls }
| released
    (w : World) (h : Str)
    (hCall : .release h ∈ w.calls) :
    d.Step w (.released h)
      (w.advance (.release h) (releaseLease w.row h) none)
| failed
    (w : World) (c : Call) (hCall : c ∈ w.calls) :
    d.Step w .nothing (w.advance c w.row none)

/- Whether a node that asked now would be told that it is the
leader. -/
def Deployment.isLeader
    (d : Deployment)
    (w : World)
    (h : Str) : Bool :=
  !d.election || leaseHeld w.row h w.clock

/- What a step makes of the expiry of the last lease a node
acquired and has not given up. -/
def Seen.expiry
    (a : Str)
    (held : Option Int) : Seen → Option Int
| .acquired h (some expiresAt) =>
    if h = a then some expiresAt else held
| .released h => if h = a then none else held
| _ => held

/- The expiry of the last lease a node acquired in a run, if
it has not released since. -/
def outstanding
    (a : Str)
    (trace : List (Transition World Seen)) : Option Int :=
  trace.foldl (fun held t => t.label.expiry a held) none

---- Exclusion

/- No call is from the future, and a lease that is neither
expired nor given up is the row. -/
structure LeaseInv
    (held : Str → Option Int)
    (w : World) : Prop where
  past :
    ∀ c ∈ w.calls, ∀ now, c.now = some now → now ≤ w.clock
  current :
    ∀ a expiresAt, held a = some expiresAt →
      w.clock ≤ expiresAt → w.row = some ⟨a, expiresAt⟩

theorem past_advance
    {w : World} {c : Call} {row : Option Lease} {next : Option Call}
    (hPast :
      ∀ c ∈ w.calls, ∀ now, c.now = some now →
        now ≤ w.clock)
    (hCall : c ∈ w.calls)
    (hNext : ∀ d, next = some d → d.now = c.now) :
    ∀ d ∈ (w.advance c row next).calls, ∀ now,
      d.now = some now →
        now ≤ (w.advance c row next).clock := by
  intro d hD now hNow
  rcases List.mem_append.mp hD with hNew | hOld
  · rw [hNext d (by simpa using hNew)] at hNow
    exact hPast c hCall now hNow
  · exact hPast d (List.mem_of_mem_erase hOld) now hNow

/- Only the holder claims a lease that has not expired. -/
theorem holder_of_claim
    {held : Str → Option Int} {w : World} {h a : Str}
    {now ttl expiresAt : Int} {row : Option Lease}
    (hInv : LeaseInv held w) (hCall : .update h now ttl ∈ w.calls)
    (hWon : claimLease w.row h now ttl = (row, true))
    (hHeld : held a = some expiresAt)
    (hLive : w.clock ≤ expiresAt) :
    a = h := by
  have hRow := hInv.current a expiresAt hHeld hLive
  have hPast := hInv.past _ hCall now rfl
  rcases (claimLease_won hWon).2 with ⟨lease, hLease, hFree⟩
  rw [hRow, Option.some.injEq] at hLease
  rcases hFree with hSame | hExpired
  · rw [← hLease] at hSame
    exact hSame
  · rw [← hLease] at hExpired
    simp only at hExpired
    omega

theorem LeaseInv.step
    {d : Deployment} {held : Str → Option Int} {w v : World}
    {seen : Seen}
    (hInv : LeaseInv held w) (hStep : d.Step w seen v) :
    LeaseInv (fun a => seen.expiry a (held a)) v := by
  cases hStep with
  | tick seconds =>
      constructor
      · intro c hC now hNow
        have hPast := hInv.past c hC now hNow
        simp only
        omega
      · intro a expiresAt hHeld hLive
        simp only at hLive
        exact hInv.current a expiresAt hHeld (by omega)
  | acquireOff h hOff hNode => exact hInv
  | isLeaderOff h hOff hNode => exact hInv
  | acquire h ttl hOn hNode hTtl =>
      refine ⟨?_, hInv.current⟩
      rw [List.forall_mem_cons]
      refine ⟨?_, hInv.past⟩
      intro now hNow
      rw [Call.now, Option.some.injEq] at hNow
      exact hNow.symm.le
  | isLeader h hOn hNode =>
      refine ⟨?_, hInv.current⟩
      rw [List.forall_mem_cons]
      refine ⟨?_, hInv.past⟩
      intro now hNow
      rw [Call.now, Option.some.injEq] at hNow
      exact hNow.symm.le
  | release h hNode =>
      refine ⟨?_, hInv.current⟩
      rw [List.forall_mem_cons]
      refine ⟨?_, hInv.past⟩
      intro now hNow
      cases hNow
  | select h now ttl hCall =>
      refine ⟨past_advance hInv.past hCall ?_, hInv.current⟩
      intro c hC
      rw [Option.some.injEq] at hC
      rw [← hC]
      split
      · rfl
      · rfl
  | insert h now ttl hCall =>
      refine ⟨past_advance hInv.past hCall ?_, ?_⟩
      · intro c hC
        rw [Option.some.injEq] at hC
        rw [← hC]
        rfl
      · intro a expiresAt hHeld hLive
        have hRow := hInv.current a expiresAt hHeld hLive
        simp only [World.advance]
        rw [hRow]
        rfl
  | won h now ttl row hCall hWon =>
      refine ⟨past_advance hInv.past hCall (by simp), ?_⟩
      intro a expiresAt hHeld hLive
      have hRow := (claimLease_won hWon).1
      simp only [World.advance, Seen.expiry] at hHeld hLive ⊢
      rw [hRow]
      split at hHeld
      · rename_i hSame
        rw [Option.some.injEq] at hHeld
        rw [hSame, hHeld]
      · rename_i hOther
        have hSame := holder_of_claim hInv hCall hWon hHeld hLive
        exact absurd hSame.symm hOther
  | lost h now ttl row hCall hLost =>
      refine ⟨past_advance hInv.past hCall (by simp), ?_⟩
      intro a expiresAt hHeld hLive
      simp only [World.advance]
      rw [claimLease_lost hLost]
      exact hInv.current a expiresAt hHeld hLive
  | read h now hCall =>
      exact ⟨past_advance hInv.past hCall (by simp),
        hInv.current⟩
  | released h hCall =>
      refine ⟨past_advance hInv.past hCall (by simp), ?_⟩
      intro a expiresAt hHeld hLive
      simp only [World.advance, Seen.expiry] at hHeld hLive ⊢
      split at hHeld
      · cases hHeld
      · rename_i hOther
        have hRow := hInv.current a expiresAt hHeld hLive
        rw [hRow]
        simp only [releaseLease]
        rw [if_neg (fun hSame => hOther hSame.symm)]
  | failed c hCall =>
      exact ⟨past_advance hInv.past hCall (by simp),
        hInv.current⟩

theorem LeaseInv.run
    {d : Deployment} {held : Str → Option Int} {w v : World}
    {trace : List (Transition World Seen)}
    (hInv : LeaseInv held w) (hRun : Run d.Step w trace v) :
    LeaseInv
      (fun a => trace.foldl
        (fun held t => t.label.expiry a held) (held a)) v := by
  induction hRun generalizing held with
  | nil w => exact hInv
  | cons hStep _ ih => exact ih (hInv.step hStep)

/- With election off no call takes a lease. -/
structure OffInv
    (held : Str → Option Int)
    (w : World) : Prop where
  timeless : ∀ c ∈ w.calls, c.now = none
  none : ∀ a, held a = none

theorem OffInv.step
    {d : Deployment}
    (hOff : d.election = false)
    {held : Str → Option Int} {w v : World} {seen : Seen}
    (hInv : OffInv held w) (hStep : d.Step w seen v) :
    OffInv (fun a => seen.expiry a (held a)) v := by
  have hErase : ∀ c, ∀ e ∈ w.calls.erase c, e.now = Option.none :=
    fun c e hE => hInv.timeless e (List.mem_of_mem_erase hE)
  cases hStep with
  | tick seconds => exact ⟨hInv.timeless, hInv.none⟩
  | acquireOff h hOff hNode => exact hInv
  | isLeaderOff h hOff hNode => exact hInv
  | acquire h ttl hOn hNode hTtl =>
      rw [hOff] at hOn
      cases hOn
  | isLeader h hOn hNode =>
      rw [hOff] at hOn
      cases hOn
  | release h hNode =>
      refine ⟨?_, hInv.none⟩
      rw [List.forall_mem_cons]
      exact ⟨rfl, hInv.timeless⟩
  | select h now ttl hCall =>
      have hNow := hInv.timeless _ hCall
      cases hNow
  | insert h now ttl hCall =>
      have hNow := hInv.timeless _ hCall
      cases hNow
  | won h now ttl row hCall hWon =>
      have hNow := hInv.timeless _ hCall
      cases hNow
  | lost h now ttl row hCall hLost =>
      have hNow := hInv.timeless _ hCall
      cases hNow
  | read h now hCall =>
      have hNow := hInv.timeless _ hCall
      cases hNow
  | released h hCall =>
      refine ⟨hErase _, ?_⟩
      intro a
      simp only [Seen.expiry, hInv.none a, ite_self]
  | failed c hCall => exact ⟨hErase c, hInv.none⟩

theorem OffInv.run
    {d : Deployment}
    (hOff : d.election = false)
    {held : Str → Option Int} {w v : World}
    {trace : List (Transition World Seen)}
    (hInv : OffInv held w) (hRun : Run d.Step w trace v) :
    OffInv
      (fun a => trace.foldl
        (fun held t => t.label.expiry a held) (held a)) v := by
  induction hRun generalizing held with
  | nil w => exact hInv
  | cons hStep _ ih => exact ih (hInv.step hOff hStep)

/- At every moment at most one node is the leader, and a node
that acquires the lease while another's has not expired
finds it released. -/
theorem lease_exclusive
    {d : Deployment}
    {w v : World}
    {trace : List (Transition World Seen)}
    (hStart : w.calls = [])
    (hRun : Run d.Step w trace v) :
    (∀ a ∈ d.nodes, ∀ b ∈ d.nodes,
      d.isLeader v a = true → d.isLeader v b = true → a = b) ∧
    ∀ b expiresAt u, d.Step v (.acquired b expiresAt) u →
      ∀ a held, outstanding a trace = some held →
        v.clock ≤ held → a = b := by
  have hFirst : LeaseInv (fun _ => none) w := by
    constructor
    · intro c hC
      rw [hStart] at hC
      cases hC
    · intro a expiresAt hHeld
      cases hHeld
  have hInv := hFirst.run hRun
  constructor
  · intro a hA b hB hLeaderA hLeaderB
    cases hElection : d.election with
    | false => exact d.alone hElection a hA b hB
    | true =>
        simp only [Deployment.isLeader, hElection,
          Bool.not_true, Bool.false_or] at hLeaderA hLeaderB
        exact leaseHeld_unique hLeaderA hLeaderB
  · intro b expiresAt u hStep a held hHeld hLive
    cases hStep with
    | acquireOff h hOff hNode =>
        have hNothing : OffInv (fun _ => none) w := by
          constructor
          · intro c hC
            rw [hStart] at hC
            cases hC
          · exact fun _ => rfl
        have hNone := (hNothing.run hOff hRun).none a
        unfold outstanding at hHeld
        rw [hNone] at hHeld
        cases hHeld
    | won h now ttl row hCall hWon =>
        exact holder_of_claim hInv hCall hWon hHeld hLive

def twoNodes : Deployment where
  election := true
  nodes := [lit "a:1", lit "b:2"]
  named := by decide
  alone := by decide

/- The worlds of a node that acquires the lease while there
is no row for it. -/
def noLease : World :=
  ⟨none, 9, []⟩

def leaseSelected : World :=
  ⟨none, 9, [.select (lit "b:2") 9 60]⟩

def leaseMissing : World :=
  ⟨none, 9, [.insert (lit "b:2") 9 60]⟩

def leaseInserted : World :=
  ⟨some freshLease, 9, [.update (lit "b:2") 9 60]⟩

def leaseTaken : World :=
  ⟨some ⟨lit "b:2", 69⟩, 9, []⟩

def firstAcquire : List (Transition World Seen) :=
  [⟨noLease, .nothing, leaseSelected⟩,
    ⟨leaseSelected, .nothing, leaseMissing⟩,
    ⟨leaseMissing, .nothing, leaseInserted⟩,
    ⟨leaseInserted, .acquired (lit "b:2") (some 69),
      leaseTaken⟩]

theorem run_firstAcquire :
    Run twoNodes.Step noLease firstAcquire leaseTaken :=
  .cons (.acquire noLease (lit "b:2") 60 rfl (by decide)
      (by decide))
    (.cons (.select leaseSelected (lit "b:2") 9 60 (by decide))
      (.cons (.insert leaseMissing (lit "b:2") 9 60
          (by decide))
        (.cons (.won leaseInserted (lit "b:2") 9 60
            (some ⟨lit "b:2", 69⟩) (by decide) (by decide))
          (.nil leaseTaken))))

/- No other node acquires the lease that was just taken. -/
theorem first_acquire_exclusive :
    outstanding (lit "b:2") firstAcquire = some 69 ∧
      ¬ ∃ expiresAt u,
        twoNodes.Step leaseTaken
          (.acquired (lit "a:1") expiresAt) u := by
  have hHeld : outstanding (lit "b:2") firstAcquire = some 69 := by
    decide
  refine ⟨hHeld, ?_⟩
  rintro ⟨expiresAt, u, hStep⟩
  have hSame := (lease_exclusive rfl run_firstAcquire).2
    (lit "a:1") expiresAt u hStep (lit "b:2") 69 hHeld
    (by decide)
  revert hSame
  decide

end ThreatOrbit.Cluster
