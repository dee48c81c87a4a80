import ThreatOrbit.Net.Guard
import ThreatOrbit.Platform.Notifications
import ThreatOrbit.Platform.Webhooks

/-
  What a notification is pushed to besides its row: the live
  stream, and the Slack webhooks that users registered for
  themselves.
-/

---- The Live Stream

namespace ThreatOrbit.Platform

open Lib

structure StreamMessage where
  type : Str
  data : List (Str × Option Str)
  ts : Str
deriving DecidableEq, Repr

/- A connected client: its workspace, and its queue. -/
structure Listener where
  org : Option Str
  queue : List StreamMessage
deriving DecidableEq, Repr

/- `_MAX_QUEUED`. -/
def maxQueued : Nat := 200

/- `put_nowait`: a full queue drops the message. -/
def Listener.put (m : StreamMessage) (l : Listener) : Listener :=
  if l.queue.length < maxQueued then
    { l with queue := l.queue ++ [m] }
  else l

/- The workspace of an event, if it is for one. -/
def eventOrg
    (enforced : Bool)
    (data : List (Str × Option Str))
    (org : Option Str) : Option Str :=
  match org with
  | some org => some org
  | none =>
      if enforced then (lookup (lit "org_id") data).getD none
      else none

/- A client that isolation keeps an event from. -/
def Listener.barred
    (enforced : Bool)
    (event : Option Str)
    (l : Listener) : Bool :=
  enforced && event.isSome && l.org != event

/- `publish`: the clients, and how many were reached. -/
def publish
    (enforced : Bool)
    (type : Str)
    (data : List (Str × Option Str))
    (org : Option Str)
    (ts : Str)
    (listeners : List Listener) : List Listener × Nat :=
  let event := eventOrg enforced data org
  (listeners.map fun l =>
      if l.barred enforced event then l else l.put ⟨type, data, ts⟩,
    listeners.countP fun l =>
      !l.barred enforced event && l.queue.length < maxQueued)

---- Slack

open Auth

section

/- A row of `users` with what routes notifications to it. -/
structure SlackUser where
  email : Str
  orgId : Option Str
  status : Str
  slackWebhook : Option Str
  slackMinSeverity : Option Str
deriving DecidableEq

/- `_SEV_RANK`. -/
def sevRank : List (Str × Nat) :=
  [(lit "info", 0), (lit "low", 1), (lit "medium", 2),
    (lit "high", 3), (lit "critical", 4)]

/- The webhook of an active user. -/
def SlackUser.hook (u : SlackUser) : Option Str :=
  match u.slackWebhook with
  | none | some [] => none
  | some hook => if u.status = lit "active" then some hook else none

/- The severity meets the threshold of the user. -/
def SlackUser.wants (severity : Str) (u : SlackUser) : Bool :=
  (lookup (orStr u.slackMinSeverity (lit "high"))
      sevRank).getD 3 ≤
    (lookup severity sevRank).getD 0

/- What the client makes of a request that it sends. -/
inductive Outcome where
| status (code : Nat)
| httpError
| raises
deriving DecidableEq, Repr

/- An answer, with whether the request has arrived. -/
structure Answer where
  arrived : Bool
  outcome : Outcome
deriving DecidableEq, Repr

/- What the server posts with: the prefixes it declares, the
secret store, and, for each user, the resolvers at the time
and the webhook's answer. -/
structure Outbound where
  declared : Str
  allowPrivate : Bool
  decrypt : Str → Str
  upper : Str → Str
  validating : SlackUser → Net.Resolver
  pinning : SlackUser → Net.Resolver
  answer : SlackUser → Net.Request → Answer

structure Posted where
  arrived : Bool
  delivered : Bool
  raised : Bool
deriving DecidableEq, Repr

variable [Unicode] [Normalizer]

/- `deliver_slack`: the guard's refusals and the client's
errors are caught, and nothing else. -/
def Outbound.deliverSlack
    (o : Outbound)
    (u : SlackUser)
    (url : Str) : Posted :=
  match Net.safeRequest o.declared (lit "POST") url [] []
      o.allowPrivate (o.validating u) (o.pinning u) with
  | .error (.unsafeUrl _) => ⟨false, false, false⟩
  | .error _ => ⟨false, false, true⟩
  | .ok request =>
      let a := o.answer u request
      match a.outcome with
      | .status code => ⟨a.arrived, code < 400, false⟩
      | .httpError => ⟨a.arrived, false, false⟩
      | .raises => ⟨a.arrived, false, true⟩

/- The text of a notification. -/
def Outbound.slackText
    (o : Outbound)
    (severity title : Str)
    (detail link : Option Str) : Str :=
  let line : Option Str → Str
    | none | some [] => []
    | some text => cp '\n' :: text
  lit "*[" ++ o.upper severity ++ lit "] " ++ title ++
    lit "*" ++ line detail ++ line link

/- The post to a user, if there is one. -/
def Outbound.post
    (o : Outbound)
    (severity : Str)
    (u : SlackUser) : Option Posted :=
  match u.hook with
  | none => none
  | some hook =>
      if u.wants severity ∧ o.decrypt hook ≠ [] then
        some (o.deliverSlack u (o.decrypt hook))
      else none

/- `notify_slack_users`: what arrives, by user. A post that
raises ends the loop. -/
def fanSlack
    (o : Outbound)
    (severity text : Str) :
    List SlackUser → List (SlackUser × Str)
| [] => []
| u :: rest =>
    match o.post severity u with
    | none => fanSlack o severity text rest
    | some posted =>
        let later :=
          if posted.raised then []
          else fanSlack o severity text rest
        if posted.arrived then (u, text) :: later else later

end

---- Pushing A Notification

section

variable [Unicode] [Normalizer]

/- What a push has reached: the stream, the Slack webhooks,
and the subscribed webhooks. -/
structure Pushed where
  listeners : List Listener
  slack : List (SlackUser × Str)
  webhooks : List Webhook

/- `_push`: it takes no workspace, and dispatches nothing. -/
def push
    (enforced : Bool)
    (o : Outbound)
    (users : List SlackUser)
    (listeners : List Listener)
    (ts type severity title : Str)
    (detail link : Option Str) : Pushed where
  listeners :=
    (publish enforced (lit "notification")
      [(lit "type", some type),
        (lit "severity", some severity),
        (lit "title", some title), (lit "link", link)]
      none ts listeners).1
  slack :=
    fanSlack o severity (o.slackText severity title detail link)
      users
  webhooks := []

/- `notify` with its push: the rows, and what is reached. -/
def notifyAndPush
    (enforced : Bool)
    (o : Outbound)
    (users : List SlackUser)
    (listeners : List Listener)
    (ts nid : Str)
    (now : Nat)
    (call : NotifyCall)
    (rows : List Notification) : List Notification × Pushed :=
  let shown :=
    match openBucket now call rows with
    | some bucket => bucket.roll call now
    | none => call.row nid now
  ((notify nid now call rows).1,
    push enforced o users listeners ts call.type call.severity
      shown.title call.detail shown.link)

/- The client is of another workspace. -/
def Listener.Elsewhere (org : Str) (l : Listener) : Prop :=
  ∃ other, l.org = some other ∧ other ≠ org

/- Nobody of another workspace is reached: no client of one
gets a message, no webhook and no user's Slack webhook of
one is posted to. -/
structure StaysInside
    (org : Str)
    (before : List Listener)
    (p : Pushed) : Prop where
  stream :
    ∀ (i : Nat) (l : Listener), before[i]? = some l →
      l.Elsewhere org → p.listeners[i]? = some l
  slack : ∀ u text, (u, text) ∈ p.slack → orgOr u.orgId = org
  webhooks : ∀ w ∈ p.webhooks, w.orgId = org

/- A client of another workspace is connected, with room in
its queue. -/
def HeardElsewhere
    (org : Str)
    (listeners : List Listener) : Prop :=
  ∃ l ∈ listeners,
    l.Elsewhere org ∧ l.queue.length < maxQueued

/- The Slack webhook of a user takes the post, and no post
before it raises. -/
def Outbound.Routes
    (o : Outbound)
    (severity : Str)
    (users : List SlackUser)
    (u : SlackUser) : Prop :=
  ∃ before after posted,
    users = before ++ u :: after ∧
      o.post severity u = some posted ∧
      posted.arrived = true ∧
      ∀ v ∈ before, ∀ p, o.post severity v = some p →
        p.raised = false

/- That of a user of another workspace does. -/
def RoutedElsewhere
    (o : Outbound)
    (severity org : Str)
    (users : List SlackUser) : Prop :=
  ∃ u, o.Routes severity users u ∧ orgOr u.orgId ≠ org

end

---- Who Is Reached

section

/- An event without a workspace goes to every client. -/
theorem publish_unscoped
    {enforced : Bool} {data : List (Str × Option Str)}
    (hData : lookup (lit "org_id") data = none) (type ts : Str)
    (listeners : List Listener) :
    (publish enforced type data none ts listeners).1 =
      listeners.map (Listener.put ⟨type, data, ts⟩) := by
  have hEvent : eventOrg enforced data none = none := by
    unfold eventOrg
    rw [hData]
    cases enforced <;> rfl
  unfold publish
  rw [hEvent]
  apply List.map_congr_left
  intro l _
  unfold Listener.barred
  simp

/- A message is put exactly where there is room. -/
theorem put_eq_iff
    (m : StreamMessage) (l : Listener) :
    l.put m = l ↔ ¬ l.queue.length < maxQueued := by
  unfold Listener.put
  by_cases hRoom : l.queue.length < maxQueued
  · rw [if_pos hRoom]
    constructor
    · intro hSame
      have hQueue := congrArg Listener.queue hSame
      simp at hQueue
    · intro hFull
      exact absurd hRoom hFull
  · rw [if_neg hRoom]
    exact ⟨fun _ => hRoom, fun _ => rfl⟩

variable [Unicode] [Normalizer]

theorem routes_cons_iff
    (o : Outbound) (severity : Str) (v : SlackUser)
    (rest : List SlackUser) (u : SlackUser) :
    o.Routes severity (v :: rest) u ↔
      (u = v ∧ ∃ posted,
        o.post severity v = some posted ∧
          posted.arrived = true) ∨
      ((∀ p, o.post severity v = some p → p.raised = false) ∧
        o.Routes severity rest u) := by
  constructor
  · rintro ⟨before, after, posted, hUsers, hPost, hArrived,
      hBefore⟩
    cases before with
    | nil =>
        cases hUsers
        exact Or.inl ⟨rfl, posted, hPost, hArrived⟩
    | cons w before =>
        cases hUsers
        rw [List.forall_mem_cons] at hBefore
        exact Or.inr ⟨hBefore.1, before, after, posted, rfl,
          hPost, hArrived, hBefore.2⟩
  · rintro (⟨rfl, posted, hPost, hArrived⟩ |
      ⟨hFirst, before, after, posted, rfl, hPost, hArrived,
        hBefore⟩)
    · exact ⟨[], rest, posted, rfl, hPost, hArrived,
        List.forall_mem_nil _⟩
    · exact ⟨v :: before, after, posted, rfl, hPost, hArrived,
        List.forall_mem_cons.mpr ⟨hFirst, hBefore⟩⟩

/- The users whose webhooks take the text. -/
theorem mem_fanSlack
    {o : Outbound} {severity text : Str} {users : List SlackUser}
    (u : SlackUser) (t : Str) :
    (u, t) ∈ fanSlack o severity text users ↔
      t = text ∧ o.Routes severity users u := by
  induction users with
  | nil =>
      constructor
      · intro hMem
        cases hMem
      · rintro ⟨_, before, after, posted, hUsers, _⟩
        exact absurd hUsers.symm (by simp)
  | cons v rest ih =>
      rw [routes_cons_iff, fanSlack]
      cases hPost : o.post severity v with
      | none => simp [ih]
      | some posted =>
          rcases posted with ⟨arrived, delivered, raised⟩
          cases raised with
          | true =>
              cases arrived with
              | true => simp [and_comm]
              | false => simp
          | false =>
              cases arrived with
              | true =>
                  simp only [Bool.false_eq_true, if_false,
                    if_true, List.mem_cons, Prod.mk.injEq, ih]
                  simp
                  tauto
              | false => simp [ih]

/- With isolation on, a notification stays inside its workspace
exactly if no client of another one has room in its queue,
and no Slack webhook of a user of another one takes it. -/
theorem notify_inside_iff
    (o : Outbound)
    (users : List SlackUser)
    (listeners : List Listener)
    (ts nid : Str)
    (now : Nat)
    (call : NotifyCall)
    (rows : List Notification) :
    StaysInside call.orgId listeners
        (notifyAndPush true o users listeners ts nid now call
          rows).2 ↔
      ¬ HeardElsewhere call.orgId listeners ∧
        ¬ RoutedElsewhere o call.severity call.orgId users := by
  unfold notifyAndPush push
  dsimp only
  have hData (type severity title : Str) (link : Option Str) :
      lookup (lit "org_id")
        [(lit "type", some type), (lit "severity", some severity),
          (lit "title", some title), (lit "link", link)] =
        none := by
    rfl
  constructor
  · rintro ⟨hStream, hSlack, _⟩
    refine ⟨?_, ?_⟩
    · rintro ⟨l, hMem, hOther, hRoom⟩
      rcases List.mem_iff_getElem?.mp hMem with ⟨i, hAt⟩
      have hSame := hStream i l hAt hOther
      dsimp only at hSame
      rw [publish_unscoped (hData _ _ _ _), List.getElem?_map,
        hAt] at hSame
      exact (put_eq_iff _ l).mp (Option.some.inj hSame) hRoom
    · rintro ⟨u, hRoutes, hOther⟩
      exact hOther
        (hSlack u _ ((mem_fanSlack u _).mpr ⟨rfl, hRoutes⟩))
  · rintro ⟨hHeard, hRouted⟩
    refine ⟨?_, ?_, ?_⟩
    · intro i l hAt hOther
      dsimp only
      rw [publish_unscoped (hData _ _ _ _), List.getElem?_map,
        hAt]
      have hFull : ¬ l.queue.length < maxQueued := fun hRoom =>
        hHeard ⟨l, List.mem_of_getElem? hAt, hOther, hRoom⟩
      exact congrArg some ((put_eq_iff _ l).mpr hFull)
    · intro u text hMem
      by_contra hOther
      exact hRouted
        ⟨u, ((mem_fanSlack u text).mp hMem).2, hOther⟩
    · exact List.forall_mem_nil _

end

---- A Client Of Another Workspace

local instance fanoutUnicode : Unicode := asciiTables

local instance fanoutNormalizer : Normalizer := ⟨id⟩

/- A server that nothing is routed from. -/
def quietOutbound : Outbound where
  declared := []
  allowPrivate := false
  decrypt := id
  upper := id
  validating := fun _ _ _ => .failed
  pinning := fun _ _ _ => .failed
  answer := fun _ _ => ⟨false, .httpError⟩

/- A connected client of a workspace. -/
def clientOf (org : String) : Listener :=
  ⟨some (lit org), []⟩

/- It reads the title of another workspace's alert. -/
theorem other_workspace_hears :
    ¬ StaysInside highAlert.orgId [clientOf "org-b"]
        (notifyAndPush true quietOutbound []
          [clientOf "org-b"] (lit "now") (lit "n-1") 600000000
          highAlert []).2 ∧
      (notifyAndPush true quietOutbound []
          [clientOf "org-b"] (lit "now") (lit "n-1") 600000000
          highAlert []).2.listeners.map
        (fun l => l.queue.map fun m =>
          lookup (lit "title") m.data) =
        [[some (some (lit "Port scan"))]] := by
  refine ⟨?_, by decide⟩
  intro hInside
  have hSame := hInside.stream 0 (clientOf "org-b") rfl
    ⟨lit "org-b", rfl, by decide⟩
  revert hSame
  decide

end ThreatOrbit.Platform
