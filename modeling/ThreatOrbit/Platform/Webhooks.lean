import ThreatOrbit.Lib.Run
import ThreatOrbit.Auth.Accounts

/-
  Outbound webhooks: who a delivery posts to, the outcome it
  writes when it is done, and the operator's pause between
  the two.
-/

---- The Table

namespace ThreatOrbit.Platform

open Lib
open Auth

/- A row of `webhooks`. -/
structure Webhook where
  id : Str
  url : Str
  events : List Str
  status : Str
  lastDelivery : Option Nat
  secret : Option Str
  orgId : Str
deriving DecidableEq, Repr

/- What a delivery keeps of a row. -/
structure Subscriber where
  id : Str
  url : Str
  secret : Option Str
deriving DecidableEq, Repr

def Webhook.subscriber (w : Webhook) : Subscriber :=
  ⟨w.id, w.url, w.secret⟩

def subscribers
    (enforced : Bool)
    (event : Str)
    (org : Option Str)
    (rows : List Webhook) : List Subscriber :=
  (rows.filter fun w =>
    (w.status != lit "paused" &&
      (!enforced || org.all fun o => w.orgId == o)) &&
        w.events.contains event).map Webhook.subscriber

/- What one attempt to post meets. -/
inductive Reply where
| status (code : Nat)
| unsafeUrl
| httpError
deriving DecidableEq, Repr

def maxAttempts : Nat := 3

def postAttempts (reply : Nat → Reply) : Nat → Bool
| 0 => false
| left + 1 =>
    match reply (maxAttempts - (left + 1)) with
    | .status code =>
        if code < 400 then true else postAttempts reply left
    | .unsafeUrl => false
    | .httpError => postAttempts reply left

def postWithRetry (reply : Nat → Reply) : Bool :=
  postAttempts reply maxAttempts

/- The row of a webhook that was posted to. -/
def Webhook.settled
    (now : Nat)
    (ok : Bool)
    (w : Webhook) : Webhook :=
  if ok then
    { w with lastDelivery := some now, status := lit "active" }
  else { w with status := lit "failing" }

/- What `_deliver` writes after it has posted to a webhook. -/
def writeOutcome
    (now : Nat)
    (id : Str)
    (ok : Bool)
    (rows : List Webhook) : List Webhook :=
  rows.map fun w => if w.id = id then w.settled now ok else w

def webhookEvents : List Str :=
  [lit "alert.created", lit "incident.resolved",
    lit "ioc.confirmed", lit "case.created",
    lit "playbook.failed", lit "playbook.completed",
    lit "playbook.action", lit "darkweb.takedown"]

/- The body of `update_webhook`. -/
structure WebhookUpdate where
  status : Option Str
  events : Option (List Str)
deriving DecidableEq, Repr

/- `_wh_scope`. -/
def webhookScope
    (enforced : Bool)
    (org : Str)
    (w : Webhook) : Bool :=
  !enforced || w.orgId == org

/- The fields a body sets. -/
def WebhookUpdate.set
    (body : WebhookUpdate)
    (w : Webhook) : Webhook :=
  { w with
    status := body.status.getD w.status
    events := body.events.getD w.events }

/- `update_webhook`, for an operator of a workspace. -/
def updateWebhook
    (enforced : Bool)
    (org : Str)
    (id : Str)
    (body : WebhookUpdate)
    (rows : List Webhook) : Except HttpError (List Webhook) :=
  if !body.status.all fun s =>
      s == lit "active" || s == lit "paused" then
    .error ⟨400, lit "status must be active or paused"⟩
  else if !body.events.all fun events =>
      events.all webhookEvents.contains && !events.isEmpty then
    .error ⟨400, lit
      ("events must be a non-empty subset of " ++
        "['alert.created', 'case.created', " ++
        "'darkweb.takedown', 'incident.resolved', " ++
        "'ioc.confirmed', 'playbook.action', " ++
        "'playbook.completed', 'playbook.failed']")⟩
  else if body.status.isNone && body.events.isNone then
    .error ⟨400, lit "No fields to update"⟩
  else if rows.any fun w =>
      w.id == id && webhookScope enforced org w then
    .ok (rows.map fun w =>
      if w.id == id && webhookScope enforced org w then
        body.set w
      else w)
  else .error ⟨404, lit "Webhook not found"⟩

/- The row `test_webhook` posts to, paused or not. -/
def testWebhook
    (enforced : Bool)
    (org : Str)
    (id : Str)
    (rows : List Webhook) : Option Subscriber :=
  (rows.find? fun w =>
    w.id == id && webhookScope enforced org w).map
      Webhook.subscriber

---- Deliveries In Flight

/- A delivery that has begun: the subscribers it has not
posted to, the outcome it has not written, and which
webhooks were held back when it began. -/
structure Delivery where
  test : Bool
  waiting : List Subscriber
  outcome : Option (Str × Bool)
  heldBack : Str → Bool

/- The table, the deliveries, and the webhooks an operator has
paused and not made active since. -/
structure Relay where
  rows : List Webhook
  deliveries : Nat → Option Delivery
  paused : Str → Bool

inductive RelayCall where
| dispatch (job : Nat) (event : Str) (org : Option Str)
| test (job : Nat) (org : Str) (id : Str)
| post (job : Nat) (reply : Nat → Reply)
| write (job : Nat) (now : Nat)
| update (org : Str) (id : Str) (body : WebhookUpdate)

/- The webhooks held back after an update that was made. -/
def heldAfter
    (id : Str)
    (body : WebhookUpdate)
    (paused : Str → Bool) : Str → Bool :=
  match body.status with
  | none => paused
  | some s =>
      Function.update paused id (s == lit "paused")

/- A refused update changes nothing. -/
def Relay.update
    (enforced : Bool)
    (org : Str)
    (id : Str)
    (body : WebhookUpdate)
    (r : Relay) : Relay :=
  match updateWebhook enforced org id body r.rows with
  | .ok rows =>
      { r with rows, paused := heldAfter id body r.paused }
  | .error _ => r

/- One step of a delivery, or a call of an operator. -/
inductive RelayStep
    (enforced : Bool) : Relay → RelayCall → Relay → Prop
| dispatch
    (r : Relay) (job : Nat) (event : Str) (org : Option Str)
    (hNew : r.deliveries job = none) :
    RelayStep enforced r (.dispatch job event org)
      { r with
        deliveries := Function.update r.deliveries job
          (some ⟨false, subscribers enforced event org r.rows,
            none, r.paused⟩) }
| test
    (r : Relay) (job : Nat) (org id : Str) (sub : Subscriber)
    (hNew : r.deliveries job = none)
    (hFound : testWebhook enforced org id r.rows = some sub) :
    RelayStep enforced r (.test job org id)
      { r with
        deliveries := Function.update r.deliveries job
          (some ⟨true, [sub], none, r.paused⟩) }
| post
    (r : Relay) (job : Nat) (reply : Nat → Reply)
    (d : Delivery) (sub : Subscriber) (rest : List Subscriber)
    (hHere : r.deliveries job = some d)
    (hIdle : d.outcome = none)
    (hNext : d.waiting = sub :: rest) :
    RelayStep enforced r (.post job reply)
      { r with
        deliveries := Function.update r.deliveries job
          (some { d with
            waiting := rest
            outcome := some (sub.id, postWithRetry reply) }) }
| write
    (r : Relay) (job now : Nat)
    (d : Delivery) (id : Str) (ok : Bool)
    (hHere : r.deliveries job = some d)
    (hDone : d.outcome = some (id, ok)) :
    RelayStep enforced r (.write job now)
      { r with
        rows := writeOutcome now id ok r.rows
        deliveries := Function.update r.deliveries job
          (some { d with outcome := none }) }
| update
    (r : Relay) (org id : Str) (body : WebhookUpdate) :
    RelayStep enforced r (.update org id body)
      (r.update enforced org id body)

/- Every webhook that an operator has paused is stored so. -/
def Relay.Paused (r : Relay) : Prop :=
  ∀ w ∈ r.rows, r.paused w.id = true → w.status = lit "paused"

/- A dispatch that began while a webhook was held back does
not post to it. -/
def PostsToOthers (e : Transition Relay RelayCall) : Prop :=
  ∀ job reply d sub rest,
    e.label = .post job reply →
    e.pre.deliveries job = some d →
    d.test = false →
    d.waiting = sub :: rest →
    d.heldBack sub.id = false

def StaysPaused (e : Transition Relay RelayCall) : Prop :=
  e.post.Paused ∧ PostsToOthers e

/- No outcome is written to a webhook that is held back. -/
def FitsRelay (e : Transition Relay RelayCall) : Prop :=
  ∀ job now d id ok,
    e.label = .write job now →
    e.pre.deliveries job = some d →
    d.outcome = some (id, ok) →
    ∀ w ∈ e.pre.rows, w.id = id → e.pre.paused id = false

/- Before the first delivery and the first pause. -/
structure Relay.Starts (r : Relay) : Prop where
  ids : (r.rows.map Webhook.id).Nodup
  idle : ∀ job, r.deliveries job = none
  free : ∀ id, r.paused id = false

---- The Table After A Call

section

variable {enforced : Bool}

/- A subscriber is a row that is not paused. -/
theorem subscribers_open
    {event : Str} {org : Option Str} {rows : List Webhook}
    {sub : Subscriber}
    (hSub : sub ∈ subscribers enforced event org rows) :
    ∃ w ∈ rows, w.id = sub.id ∧ w.status ≠ lit "paused" := by
  rcases List.mem_map.mp hSub with ⟨w, hW, hIs⟩
  rw [List.mem_filter] at hW
  rcases hW with ⟨hRow, hHolds⟩
  simp only [Bool.and_eq_true, bne_iff_ne] at hHolds
  exact ⟨w, hRow, by rw [← hIs]; rfl, hHolds.1.1⟩

theorem settled_id
    (now : Nat) (ok : Bool) (w : Webhook) :
    (w.settled now ok).id = w.id := by
  cases ok <;> rfl

theorem settled_status
    (now : Nat) (ok : Bool) (w : Webhook) :
    (w.settled now ok).status ≠ lit "paused" := by
  cases ok with
  | true =>
      show lit "active" ≠ lit "paused"
      decide
  | false =>
      show lit "failing" ≠ lit "paused"
      decide

theorem mem_writeOutcome
    {now : Nat} {id : Str} {ok : Bool} {rows : List Webhook}
    {w : Webhook}
    (hW : w ∈ writeOutcome now id ok rows) :
    (w.id = id ∧ w.status ≠ lit "paused") ∨
      (w ∈ rows ∧ w.id ≠ id) := by
  rcases List.mem_map.mp hW with ⟨x, hX, hIs⟩
  split at hIs
  · rename_i hHere
    left
    rw [← hIs, settled_id]
    exact ⟨hHere, settled_status now ok x⟩
  · rename_i hOther
    right
    rw [← hIs]
    exact ⟨hX, hOther⟩

theorem writeOutcome_ids
    (now : Nat) (id : Str) (ok : Bool) (rows : List Webhook) :
    (writeOutcome now id ok rows).map Webhook.id =
      rows.map Webhook.id := by
  unfold writeOutcome
  rw [List.map_map]
  apply List.map_congr_left
  intro w _
  dsimp only [Function.comp_apply]
  split
  · exact settled_id now ok w
  · rfl

/- What an update that was made did. -/
theorem updateWebhook_ok
    {org id : Str} {body : WebhookUpdate} {rows next : List Webhook}
    (hOk : updateWebhook enforced org id body rows = .ok next) :
    (∃ w ∈ rows, w.id = id ∧ webhookScope enforced org w) ∧
      next = rows.map fun w =>
        if w.id == id && webhookScope enforced org w then
          body.set w
        else w := by
  unfold updateWebhook at hOk
  split at hOk
  · cases hOk
  · split at hOk
    · cases hOk
    · split at hOk
      · cases hOk
      · split at hOk
        · rename_i hAny
          rcases List.any_eq_true.mp hAny with ⟨w, hW, hHolds⟩
          rw [Bool.and_eq_true, beq_iff_eq] at hHolds
          constructor
          · exact ⟨w, hW, hHolds⟩
          · exact (Except.ok.inj hOk).symm
        · cases hOk

end

---- Every Step

section

variable {enforced : Bool}
variable {r : Relay}

/- What is held back is stored as paused, and no dispatch
waits for what was held back when it began. -/
structure RelayInv (r : Relay) : Prop where
  ids : (r.rows.map Webhook.id).Nodup
  paused : r.Paused
  avoids :
    ∀ job d, r.deliveries job = some d →
      d.test = false →
        ∀ sub ∈ d.waiting, d.heldBack sub.id = false

theorem Relay.Starts.inv
    (hStart : r.Starts) :
    RelayInv r := by
  constructor
  · exact hStart.ids
  · intro w _ hPaused
    rw [hStart.free] at hPaused
    cases hPaused
  · intro job d hHere
    rw [hStart.idle] at hHere
    cases hHere

/- A row whose id was just set is the one that was set. -/
theorem RelayInv.found
    (hInv : RelayInv r) {w x : Webhook} (hW : w ∈ r.rows)
    (hX : x ∈ r.rows) (hSame : w.id = x.id) :
    w = x :=
  List.inj_on_of_nodup_map hInv.ids hW hX hSame

theorem RelayInv.update
    (hInv : RelayInv r) (org id : Str) (body : WebhookUpdate) :
    RelayInv (r.update enforced org id body) := by
  unfold Relay.update
  cases hOut : updateWebhook enforced org id body r.rows with
  | error e => exact hInv
  | ok next =>
      rcases updateWebhook_ok hOut with
        ⟨⟨own, hOwn, hId, hScope⟩, hNext⟩
      have hOwnRow : ∀ x ∈ r.rows, x.id = id →
          webhookScope enforced org x = true := by
        intro x hX hHere
        rw [hInv.found hX hOwn (hHere.trans hId.symm)]
        exact hScope
      constructor
      · show (next.map Webhook.id).Nodup
        have hIds : next.map Webhook.id =
            r.rows.map Webhook.id := by
          rw [hNext, List.map_map]
          apply List.map_congr_left
          intro w _
          dsimp only [Function.comp_apply]
          split <;> rfl
        rw [hIds]
        exact hInv.ids
      · intro w hW hPaused
        dsimp only at hW hPaused
        rw [hNext] at hW
        rcases List.mem_map.mp hW with ⟨x, hX, hIs⟩
        by_cases hHere : x.id = id
        · rw [if_pos (by simp [hHere, hOwnRow x hX hHere])] at hIs
          rw [← hIs] at hPaused ⊢
          have hHeld : heldAfter id body r.paused id = true := by
            rw [← hHere]
            rw [← hHere] at hPaused
            exact hPaused
          unfold heldAfter at hHeld
          unfold WebhookUpdate.set
          cases hStatus : body.status with
          | none =>
              rw [hStatus] at hHeld
              exact hInv.paused x hX (by rw [hHere]; exact hHeld)
          | some s =>
              rw [hStatus] at hHeld
              dsimp only at hHeld
              rw [Function.update_self, beq_iff_eq] at hHeld
              exact hHeld
        · rw [if_neg (by simp [hHere])] at hIs
          rw [← hIs] at hPaused ⊢
          apply hInv.paused x hX
          cases hStatus : body.status with
          | none => simpa [heldAfter, hStatus] using hPaused
          | some s =>
              simpa [heldAfter, hStatus, hHere] using hPaused
      · exact hInv.avoids

/- A step that writes to no webhook that is held back. -/
theorem RelayInv.step
    {call : RelayCall} {next : Relay}
    (hInv : RelayInv r) (hStep : RelayStep enforced r call next)
    (hFits : FitsRelay ⟨r, call, next⟩) :
    RelayInv next := by
  cases hStep with
  | dispatch job event org hNew =>
      refine ⟨hInv.ids, hInv.paused,
        forall_update hInv.avoids ?_⟩
      intro d hD _ sub hSub
      rw [← Option.some.inj hD] at hSub ⊢
      rcases subscribers_open hSub with ⟨w, hW, hId, hOpen⟩
      dsimp only
      rw [← hId]
      by_contra hHeld
      exact hOpen (hInv.paused w hW (by simpa using hHeld))
  | test job org id sub hNew hFound =>
      refine ⟨hInv.ids, hInv.paused,
        forall_update hInv.avoids ?_⟩
      intro d hD hTest
      rw [← Option.some.inj hD] at hTest
      cases hTest
  | post job reply d sub rest hHere hIdle hNext =>
      refine ⟨hInv.ids, hInv.paused,
        forall_update hInv.avoids ?_⟩
      intro d' hD hTest s hS
      rw [← Option.some.inj hD] at hTest hS ⊢
      exact hInv.avoids job d hHere hTest s
        (by rw [hNext]; exact List.mem_cons_of_mem _ hS)
  | write job now d id ok hHere hDone =>
      refine ⟨?_, ?_, forall_update hInv.avoids ?_⟩
      · show ((writeOutcome now id ok r.rows).map
          Webhook.id).Nodup
        rw [writeOutcome_ids]
        exact hInv.ids
      · intro w hW hPaused
        dsimp only at hW hPaused
        rcases List.mem_map.mp hW with ⟨x, hX, hIs⟩
        rcases mem_writeOutcome hW with
          ⟨hSame, _⟩ | ⟨hOld, _⟩
        · have hId : x.id = id := by
            rw [← hSame, ← hIs]
            split
            · exact (settled_id now ok x).symm
            · rfl
          rw [hSame, hFits job now d id ok rfl hHere hDone
            x hX hId] at hPaused
          cases hPaused
        · exact hInv.paused w hOld hPaused
      · intro d' hD hTest s hS
        rw [← Option.some.inj hD] at hTest hS ⊢
        exact hInv.avoids job d hHere hTest s hS
  | update org id body => exact hInv.update org id body

/- A step after which what is held back is still paused. -/
theorem fits_of_paused
    {call : RelayCall} {next : Relay}
    (hStep : RelayStep enforced r call next)
    (hPaused : next.Paused) :
    FitsRelay ⟨r, call, next⟩ := by
  rintro job now d id ok hLabel hHere hDone w hW hId
  dsimp only at hLabel hHere hW
  subst hLabel
  cases hStep with
  | write _ _ d' id' ok' hHere' hDone' =>
      rw [hHere, Option.some.injEq] at hHere'
      subst hHere'
      rw [hDone, Option.some.injEq, Prod.mk.injEq] at hDone'
      rcases hDone' with ⟨rfl, rfl⟩
      by_contra hHeld
      have hSet : w.settled now ok ∈
          writeOutcome now id ok r.rows :=
        List.mem_map.mpr ⟨w, hW, if_pos hId⟩
      apply settled_status now ok w
      apply hPaused _ hSet
      rw [settled_id, hId]
      simpa using hHeld

/- A dispatch posts to what it waits for. -/
theorem RelayInv.posts
    {e : Transition Relay RelayCall}
    (hInv : RelayInv e.pre) :
    PostsToOthers e := by
  intro job reply d sub rest _ hHere hTest hNext
  exact hInv.avoids job d hHere hTest sub
    (by rw [hNext]; exact List.mem_cons_self)

/- In every run of deliveries, tests and updates, every webhook
that is paused stays so until it is made active, and no
dispatch that begins in between posts to it, exactly when
no delivery or test writes its outcome in between. -/
theorem stays_paused_iff
    (enforced : Bool)
    {start last : Relay}
    {trace : List (Transition Relay RelayCall)}
    (hStart : start.Starts)
    (hRun : Run (RelayStep enforced) start trace last) :
    (∀ e ∈ trace, StaysPaused e) ↔ ∀ e ∈ trace, FitsRelay e := by
  have hPaused :
      (∀ e ∈ trace, e.post.Paused) ↔
        ∀ e ∈ trace, FitsRelay e :=
    hRun.forall_post_iff (I := RelayInv)
      (fun _ hInv => hInv.paused)
      (fun _ _ _ hInv hStep hFits => hInv.step hStep hFits)
      (fun _ _ _ _ hStep hJ => fits_of_paused hStep hJ)
      hStart.inv
  constructor
  · intro hAll
    exact hPaused.mp fun e hE => (hAll e hE).1
  · intro hFits e hE
    have hSteps :=
      (hRun.restrict hFits).forall_step (I := RelayInv)
        (fun _ _ _ hInv hStep => hInv.step hStep.1 hStep.2)
        hStart.inv e hE
    exact ⟨hPaused.mpr hFits e hE, hSteps.1.posts⟩

end

---- Calm Pauses

section

variable {enforced : Bool}
variable {r : Relay}

/- A delivery that will write to a webhook. -/
def Delivery.Pending (id : Str) (d : Delivery) : Prop :=
  (∃ sub ∈ d.waiting, sub.id = id) ∨
    ∃ ok, d.outcome = some (id, ok)

/- A webhook is paused when nothing will write to it, and not
tested while it is. -/
def CalmRelay (e : Transition Relay RelayCall) : Prop :=
  match e.label with
  | .update _ id body =>
      body.status = some (lit "paused") →
        ∀ job d, e.pre.deliveries job = some d → ¬d.Pending id
  | .test _ _ id => e.pre.paused id = false
  | _ => True

/- Nothing will write to a webhook that is held back. -/
structure CalmInv (r : Relay) : Prop where
  inv : RelayInv r
  calm :
    ∀ job d, r.deliveries job = some d →
      ∀ id, d.Pending id → r.paused id = false

theorem CalmInv.fits
    {e : Transition Relay RelayCall}
    (hInv : CalmInv e.pre) :
    FitsRelay e := by
  intro job now d id ok _ hHere hDone w _ _
  exact hInv.calm job d hHere id (.inr ⟨ok, hDone⟩)

theorem CalmInv.step
    {call : RelayCall} {next : Relay}
    (hInv : CalmInv r) (hStep : RelayStep enforced r call next)
    (hCalm : CalmRelay ⟨r, call, next⟩) :
    CalmInv next := by
  refine ⟨hInv.inv.step hStep hInv.fits, ?_⟩
  cases hStep with
  | dispatch job event org hNew =>
      apply forall_update hInv.calm
      intro d hD id hPending
      rw [← Option.some.inj hD] at hPending
      rcases hPending with ⟨sub, hSub, rfl⟩ | ⟨ok, hDone⟩
      · rcases subscribers_open hSub with ⟨w, hW, hId, hOpen⟩
        rw [← hId]
        by_contra hHeld
        exact hOpen
          (hInv.inv.paused w hW (by simpa using hHeld))
      · cases hDone
  | test job org id sub hNew hFound =>
      apply forall_update hInv.calm
      intro d hD x hPending
      rw [← Option.some.inj hD] at hPending
      rcases hPending with ⟨s, hS, rfl⟩ | ⟨ok, hDone⟩
      · rw [List.mem_singleton.mp hS]
        rcases Option.map_eq_some_iff.mp hFound with
          ⟨w, hW, hIs⟩
        have hHolds := List.find?_some hW
        rw [Bool.and_eq_true, beq_iff_eq] at hHolds
        have hId : sub.id = id := by
          rw [← hIs]
          exact hHolds.1
        rw [hId]
        exact hCalm
      · cases hDone
  | post job reply d sub rest hHere hIdle hNext =>
      apply forall_update hInv.calm
      intro d' hD x hPending
      rw [← Option.some.inj hD] at hPending
      rcases hPending with ⟨s, hS, rfl⟩ | ⟨ok, hDone⟩
      · exact hInv.calm job d hHere s.id (.inl ⟨s,
          by rw [hNext]; exact List.mem_cons_of_mem _ hS, rfl⟩)
      · rw [Option.some.injEq, Prod.mk.injEq] at hDone
        exact hInv.calm job d hHere x (.inl ⟨sub,
          by rw [hNext]; exact List.mem_cons_self, hDone.1⟩)
  | write job now d id ok hHere hDone =>
      apply forall_update hInv.calm
      intro d' hD x hPending
      rw [← Option.some.inj hD] at hPending
      rcases hPending with hWaits | ⟨ok', hNone⟩
      · exact hInv.calm job d hHere x (.inl hWaits)
      · cases hNone
  | update org id body =>
      unfold Relay.update
      cases updateWebhook enforced org id body r.rows with
      | error e => exact hInv.calm
      | ok rows =>
          intro job d hHere x hPending
          have hOpen := hInv.calm job d hHere x hPending
          dsimp only
          cases hStatus : body.status with
          | none => simpa [heldAfter, hStatus] using hOpen
          | some s =>
              by_cases hSame : x = id
              · have hActive : s ≠ lit "paused" := by
                  rintro rfl
                  exact hCalm hStatus job d hHere
                    (hSame ▸ hPending)
                simp [heldAfter, hStatus, hSame, hActive]
              · simpa [heldAfter, hStatus, hSame] using hOpen

/- A run in which webhooks are paused and tested like that
keeps them paused. -/
theorem fits_of_calm
    {start last : Relay} {trace : List (Transition Relay RelayCall)}
    (hStart : start.Starts)
    (hRun : Run (RelayStep enforced) start trace last)
    (hCalm : ∀ e ∈ trace, CalmRelay e) :
    ∀ e ∈ trace, FitsRelay e := by
  have hFirst : CalmInv start := by
    refine ⟨hStart.inv, ?_⟩
    intro job d hHere
    rw [hStart.idle] at hHere
    cases hHere
  intro e hE
  have hSteps :=
    (hRun.restrict hCalm).forall_step (I := CalmInv)
      (fun _ _ _ hInv hStep => hInv.step hStep.1 hStep.2)
      hFirst e hE
  exact hSteps.1.fits

end

---- A Concrete Pause

def siemHook : Webhook where
  id := lit "wh-1"
  url := lit "https://siem.example/hook"
  events := [lit "alert.created"]
  status := lit "active"
  lastDelivery := none
  secret := none
  orgId := lit "org-a"

def idleRelay : Relay :=
  ⟨[siemHook], fun _ => none, fun _ => false⟩

theorem idleRelay_starts : idleRelay.Starts := by
  refine ⟨?_, fun _ => rfl, fun _ => rfl⟩
  exact List.nodup_singleton _

def pauseBody : WebhookUpdate :=
  ⟨some (lit "paused"), none⟩

def pauseCall : RelayCall :=
  .update (lit "org-a") (lit "wh-1") pauseBody

def pausedRelay (r : Relay) : Relay :=
  r.update true (lit "org-a") (lit "wh-1") pauseBody

/- A webhook is paused when nothing is in flight. -/
theorem paused_hook_stays :
    StaysPaused
      ⟨idleRelay, pauseCall, pausedRelay idleRelay⟩ := by
  have hRun : Run (RelayStep true) idleRelay
      [⟨idleRelay, pauseCall, pausedRelay idleRelay⟩]
      (pausedRelay idleRelay) :=
    .cons (.update _ _ _ _) (.nil _)
  have hFits : ∀ e ∈
      [(⟨idleRelay, pauseCall, pausedRelay idleRelay⟩ :
        Transition Relay RelayCall)], FitsRelay e := by
    intro e hE
    rw [List.mem_singleton.mp hE]
    intro job now d id ok hLabel
    cases hLabel
  exact (stays_paused_iff true idleRelay_starts hRun).mpr
    hFits _ (List.mem_singleton_self _)

/- An alert is on its way when the operator pauses. -/
def sending : Relay :=
  { idleRelay with
    deliveries := Function.update idleRelay.deliveries 0
      (some ⟨false,
        subscribers true (lit "alert.created")
          (some (lit "org-a")) idleRelay.rows,
        none, idleRelay.paused⟩) }

def posted : Relay :=
  { pausedRelay sending with
    deliveries :=
      Function.update (pausedRelay sending).deliveries 0
        (some ⟨false, [], some (lit "wh-1", true),
          idleRelay.paused⟩) }

def settled : Relay :=
  { posted with
    rows := writeOutcome 5 (lit "wh-1") true posted.rows
    deliveries := Function.update posted.deliveries 0
      (some ⟨false, [], none, idleRelay.paused⟩) }

/- The delivery makes the webhook active again. -/
theorem delivery_ends_pause :
    Run (RelayStep true) idleRelay
        [⟨idleRelay,
            .dispatch 0 (lit "alert.created")
              (some (lit "org-a")), sending⟩,
          ⟨sending, pauseCall, pausedRelay sending⟩,
          ⟨pausedRelay sending,
            .post 0 (fun _ => .status 200), posted⟩,
          ⟨posted, .write 0 5, settled⟩]
        settled ∧
      ¬StaysPaused ⟨posted, .write 0 5, settled⟩ := by
  constructor
  · refine .cons (.dispatch _ _ _ _ rfl)
      (.cons (.update _ _ _ _) (.cons ?_ (.cons ?_ (.nil _))))
    · exact .post (pausedRelay sending) 0
        (fun _ => .status 200)
        ⟨false, [siemHook.subscriber], none, idleRelay.paused⟩
        siemHook.subscriber [] rfl rfl rfl
    · exact .write posted 0 5
        ⟨false, [], some (lit "wh-1", true), idleRelay.paused⟩
        (lit "wh-1") true rfl rfl
  · rintro ⟨hPaused, _⟩
    have hStatus := hPaused
      { siemHook with lastDelivery := some 5 }
      (by decide) (by decide)
    revert hStatus
    decide

end ThreatOrbit.Platform
