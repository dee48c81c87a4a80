import ThreatOrbit.Lib.Run
import ThreatOrbit.Lib.Json

/-
  Self-serve billing: what a verified Stripe event does to
  the settings of the deployment, and whether the stored
  licence agrees with the subscriptions.
-/

---- Licence Keys

namespace ThreatOrbit.Billing

open Lib

/- The limits of a plan. Without one it is unlimited. -/
structure Plan where
  label : Str
  seats : Option Nat
  connectors : Option Nat
deriving DecidableEq, Repr

/- `PLANS`. -/
def plans : List (Str × Plan) :=
  [(lit "starter", ⟨lit "Starter", some 5, some 3⟩),
    (lit "pro", ⟨lit "Pro", some 25, some 10⟩),
    (lit "enterprise", ⟨lit "Enterprise", none, none⟩)]

/- A character of the URL-safe base64 alphabet. -/
def base64Char (n : Nat) : Nat :=
  if n < 26 then cp 'A' + n
  else if n < 52 then cp 'a' + (n - 26)
  else if n < 62 then cp '0' + (n - 52)
  else if n = 62 then cp '-'
  else cp '_'

/- `_b64e`: base64 without its padding. -/
def b64e : Str → Str
| [] => []
| [a] => [base64Char (a / 4), base64Char (a % 4 * 16)]
| [a, b] =>
    [base64Char (a / 4),
      base64Char (a % 4 * 16 + b / 16),
      base64Char (b % 16 * 4)]
| a :: b :: c :: rest =>
    base64Char (a / 4) ::
      base64Char (a % 4 * 16 + b / 16) ::
        base64Char (b % 16 * 4 + c / 64) ::
          base64Char (c % 64) :: b64e rest

def limitValue : Option Nat → PyVal
| none => .none
| some n => .int n

/- The payload of a key, with its keys sorted. -/
def licencePayload (plan org : Str) (limits : Plan) : Str :=
  dumps (.dict
    [(lit "connectors", limitValue limits.connectors),
      (lit "expires", .none),
      (lit "org", .str org),
      (lit "plan", .str plan),
      (lit "seats", limitValue limits.seats)])

/- `generate_key` with the limits of the plan. There is no key
of a plan that is not sold. The signature is a function of
the payload. -/
def generateKey
    (sign : Str → Str)
    (plan org : Str) : Option Str :=
  (lookup plan plans).map fun limits =>
    let payload := licencePayload plan org limits
    lit "TOL-" ++ b64e payload ++ cp '.' :: sign payload

---- Events

/- The table `settings`. -/
abbrev Settings := Str → Option Str

def Settings.set
    (s : Settings)
    (key : Str)
    (value : Option Str) : Settings :=
  Function.update s key value

/- What `apply_event` reads of an event. -/
structure StripeEvent where
  type : Str
  id : Option Str
  subscription : Option Str
  customer : Option Str
  plan : Option Str
deriving DecidableEq, Repr

/- The name a licence is made out to. -/
def orgName (s : Settings) : Str :=
  orStr (s (lit "organization")) (lit "self-serve")

/- A value that is there and not empty. -/
def given : Option Str → Option Str
| some [] => none
| value => value

/- Remember a value that is given. -/
def Settings.setGiven
    (s : Settings)
    (key : Str)
    (value : Option Str) : Settings :=
  match given value with
  | some value => s.set key (some value)
  | none => s

/- The subscription an event names. -/
def StripeEvent.sub (event : StripeEvent) : Option Str :=
  (given event.subscription).or
    (if event.type == lit "customer.subscription.created" then
      event.id
    else none)

/- The settings of a plan that is paid for. -/
def activate
    (event : StripeEvent)
    (plan key : Str)
    (s : Settings) : Settings :=
  (((s.set (lit "license_key") (some key)).setGiven
    (lit "stripe_customer_id") event.customer).setGiven
      (lit "stripe_subscription_id") event.sub).set
        (lit "billing_plan") (some plan)

/- The settings after a subscription is cancelled. -/
def cancel (s : Settings) : Settings :=
  ((s.set (lit "license_key") none).set
    (lit "stripe_subscription_id") none).set
      (lit "billing_plan") none

/- `apply_event`, with what it reports. -/
def applyEvent
    (sign : Str → Str)
    (event : StripeEvent)
    (s : Settings) : Settings × Option Str :=
  if event.type == lit "checkout.session.completed" ||
      event.type == lit "customer.subscription.created" then
    match event.plan with
    | none => (s, none)
    | some plan =>
        match generateKey sign plan (orgName s) with
        -- a plan that is not sold is ignored
        | none => (s, none)
        | some key =>
            (activate event plan key s,
              some (lit "plan=" ++ plan ++
                lit " activated via Stripe"))
  else if event.type == lit "customer.subscription.deleted" then
    (cancel s, some (lit
      "subscription cancelled - licence reverted to default"))
  else (s, none)

/- The events about a subscription. -/
inductive BillingEvent where
| completed (session sub : Str) (plan customer : Option Str)
| created (sub : Str) (plan customer : Option Str)
| deleted (sub : Str)
deriving DecidableEq, Repr

/- The event as Stripe sends it. -/
def BillingEvent.raw : BillingEvent → StripeEvent
| .completed session sub plan customer =>
    ⟨lit "checkout.session.completed", some session, some sub,
      customer, plan⟩
| .created sub plan customer =>
    ⟨lit "customer.subscription.created", some sub, none,
      customer, plan⟩
| .deleted sub =>
    ⟨lit "customer.subscription.deleted", some sub, none,
      none, none⟩

/- The plan that is sold, if a plan is. -/
def sold (sub : Str) : Option Str → Option (Str × Str)
| none => none
| some plan => (lookup plan plans).map fun _ => (sub, plan)

/- The subscription an event activates, and its plan. -/
def BillingEvent.activates :
    BillingEvent → Option (Str × Str)
| .completed _ sub plan _ => sold sub plan
| .created sub plan _ => sold sub plan
| .deleted _ => none

---- Receiving Events

/- The settings, and the events received so far. -/
structure Ledger where
  received : List BillingEvent
  settings : Settings

/- The webhook receives an event, again or for the first
time. -/
inductive BillingStep
    (sign : Str → Str) : Ledger → BillingEvent → Ledger → Prop
| receive (b : Ledger) (event : BillingEvent) :
    BillingStep sign b event
      ⟨b.received ++ [event],
        (applyEvent sign event.raw b.settings).1⟩

/- A subscription that was activated and not deleted. -/
def Live
    (received : List BillingEvent)
    (sub plan : Str) : Prop :=
  (∃ e ∈ received, e.activates = some (sub, plan)) ∧
    .deleted sub ∉ received

/- A minted licence is stored exactly if a subscription is
live, and it is one of the plan of such a subscription. -/
def Agrees (sign : Str → Str) (b : Ledger) : Prop :=
  (b.settings (lit "license_key") ≠ none ↔
      ∃ sub plan, Live b.received sub plan) ∧
    ∀ key, b.settings (lit "license_key") = some key →
      ∃ sub plan, Live b.received sub plan ∧
        generateKey sign plan (orgName b.settings) = some key

/- A subscription is activated that is not deleted, or has the
plan of one that is live; or one is deleted while no other
is live. -/
def FitsBilling (e : Transition Ledger BillingEvent) : Prop :=
  (∀ sub plan, e.label.activates = some (sub, plan) →
      .deleted sub ∉ e.pre.received ∨
        ∃ other, Live e.pre.received other plan) ∧
    ∀ sub, e.label = .deleted sub →
      ∀ other plan, Live e.pre.received other plan →
        other = sub

/- No event was received, and no licence is stored. -/
structure Ledger.Fresh (b : Ledger) : Prop where
  received : b.received = []
  unlicensed : b.settings (lit "license_key") = none

---- The Plan Of A Key

section

variable {sign : Str → Str}

/- The first group of the payload that differs. -/
def keyHead (limits : Plan) : Str :=
  match limits.connectors with
  | none => lit "TOL-eyJjb25uZWN0b3JzIjpu"
  | some 3 => lit "TOL-eyJjb25uZWN0b3JzIjoz"
  | some _ => lit "TOL-eyJjb25uZWN0b3JzIjox"

theorem key_head
    (org : Str) {plan : Str} {limits : Plan}
    (hPlan : (plan, limits) ∈ plans) (rest : Str) :
    (lit "TOL-" ++ b64e (licencePayload plan org limits) ++
      rest).take 24 = keyHead limits := by
  simp only [plans, List.mem_cons, Prod.mk.injEq,
    List.not_mem_nil, or_false] at hPlan
  rcases hPlan with ⟨rfl, rfl⟩ | ⟨rfl, rfl⟩ | ⟨rfl, rfl⟩
  · rfl
  · rfl
  · rfl

theorem generateKey_plan
    {plan other org key : Str}
    (hKey : generateKey sign plan org = some key)
    (hOther : generateKey sign other org = some key) :
    other = plan := by
  rcases Option.map_eq_some_iff.mp hKey with
    ⟨limits, hLimits, hIs⟩
  rcases Option.map_eq_some_iff.mp hOther with
    ⟨limits', hLimits', hIs'⟩
  have hPlan := mem_of_lookup hLimits
  have hPlan' := mem_of_lookup hLimits'
  have hHead : keyHead limits' = keyHead limits := by
    rw [← key_head org hPlan, ← key_head org hPlan', hIs, hIs']
  simp only [plans, List.mem_cons, Prod.mk.injEq,
    List.not_mem_nil, or_false] at hPlan hPlan'
  rcases hPlan with ⟨rfl, rfl⟩ | ⟨rfl, rfl⟩ | ⟨rfl, rfl⟩ <;>
    rcases hPlan' with
      ⟨rfl, rfl⟩ | ⟨rfl, rfl⟩ | ⟨rfl, rfl⟩ <;>
    first
    | rfl
    | exact absurd hHead (by decide)

end

---- One Event

section

variable {sign : Str → Str}

theorem set_of_ne
    {s : Settings} {key other : Str}
    (value : Option Str) (hOther : other ≠ key) :
    (s.set key value) other = s other :=
  Function.update_of_ne hOther _ _

theorem set_self
    (s : Settings) (key : Str) (value : Option Str) :
    (s.set key value) key = value :=
  Function.update_self _ _ _

theorem setGiven_of_ne
    {s : Settings} {key other : Str}
    (value : Option Str) (hOther : other ≠ key) :
    (s.setGiven key value) other = s other := by
  unfold Settings.setGiven
  cases given value with
  | some value => exact set_of_ne _ hOther
  | none => rfl

/- The settings an activation leaves. -/
theorem activate_of_ne
    (event : StripeEvent) (plan key : Str) (s : Settings)
    {name : Str}
    (hKey : name ≠ lit "license_key")
    (hCustomer : name ≠ lit "stripe_customer_id")
    (hSub : name ≠ lit "stripe_subscription_id")
    (hPlan : name ≠ lit "billing_plan") :
    activate event plan key s name = s name := by
  unfold activate
  rw [set_of_ne _ hPlan, setGiven_of_ne _ hSub,
    setGiven_of_ne _ hCustomer, set_of_ne _ hKey]

theorem activate_key
    (event : StripeEvent) (plan key : Str) (s : Settings) :
    activate event plan key s (lit "license_key") =
      some key := by
  unfold activate
  rw [set_of_ne _ (by decide), setGiven_of_ne _ (by decide),
    setGiven_of_ne _ (by decide)]
  exact set_self _ _ _

/- An event that activates a plan mints its key. -/
theorem applyEvent_of_activates
    {event : BillingEvent} {sub plan : Str}
    (hActs : event.activates = some (sub, plan)) (s : Settings) :
    ∃ key, generateKey sign plan (orgName s) = some key ∧
      (applyEvent sign event.raw s).1 =
        activate event.raw plan key s := by
  have hPlan : event.raw.plan = some plan ∧
      (lookup plan plans).isSome = true := by
    cases event with
    | completed session sub' plan' customer =>
        cases plan' with
        | none => cases hActs
        | some p =>
            rcases Option.map_eq_some_iff.mp hActs with
              ⟨limits, hFound, hIs⟩
            cases hIs
            exact ⟨rfl, by rw [hFound]; rfl⟩
    | created sub' plan' customer =>
        cases plan' with
        | none => cases hActs
        | some p =>
            rcases Option.map_eq_some_iff.mp hActs with
              ⟨limits, hFound, hIs⟩
            cases hIs
            exact ⟨rfl, by rw [hFound]; rfl⟩
    | deleted sub' => cases hActs
  rcases Option.isSome_iff_exists.mp hPlan.2 with
    ⟨limits, hLimits⟩
  have hKey :
      generateKey sign plan (orgName s) =
        some (lit "TOL-" ++
          b64e (licencePayload plan (orgName s) limits) ++
            cp '.' ::
              sign (licencePayload plan (orgName s) limits)) := by
    unfold generateKey
    rw [hLimits]
    rfl
  refine ⟨_, hKey, ?_⟩
  have hType : (event.raw.type ==
        lit "checkout.session.completed" ||
      event.raw.type ==
        lit "customer.subscription.created") = true := by
    cases event with
    | completed => rfl
    | created => rfl
    | deleted => cases hActs
  unfold applyEvent
  rw [if_pos hType, hPlan.1]
  dsimp only
  rw [hKey]

/- An event that neither activates nor deletes changes
nothing. -/
theorem applyEvent_of_ignored
    {event : BillingEvent}
    (hActs : event.activates = none)
    (hKeeps : ∀ sub, event ≠ .deleted sub) (s : Settings) :
    (applyEvent sign event.raw s).1 = s := by
  have hPlan : ∀ plan, event.raw.plan = some plan →
      lookup plan plans = none := by
    intro plan hIs
    cases event with
    | completed session sub plan' customer =>
        cases hIs
        exact Option.map_eq_none_iff.mp hActs
    | created sub plan' customer =>
        cases hIs
        exact Option.map_eq_none_iff.mp hActs
    | deleted sub => cases hIs
  have hType : (event.raw.type ==
        lit "checkout.session.completed" ||
      event.raw.type ==
        lit "customer.subscription.created") = true := by
    cases event with
    | completed => rfl
    | created => rfl
    | deleted sub => exact absurd rfl (hKeeps sub)
  unfold applyEvent
  rw [if_pos hType]
  cases hSold : event.raw.plan with
  | none => rfl
  | some plan =>
      dsimp only
      unfold generateKey
      rw [hPlan plan hSold]
      rfl

theorem applyEvent_deleted
    (sub : Str) (s : Settings) :
    (applyEvent sign (BillingEvent.deleted sub).raw s).1 =
      cancel s :=
  rfl

theorem cancel_key (s : Settings) :
    cancel s (lit "license_key") = none := by
  unfold cancel
  rw [set_of_ne _ (by decide), set_of_ne _ (by decide)]
  exact set_self _ _ _

/- What an event adds to the subscriptions that are live. -/
theorem live_append_iff
    {received : List BillingEvent} {event : BillingEvent}
    {sub plan : Str} :
    Live (received ++ [event]) sub plan ↔
      event ≠ .deleted sub ∧
        (Live received sub plan ∨
          event.activates = some (sub, plan) ∧
            .deleted sub ∉ received) := by
  unfold Live
  simp only [List.mem_append, List.mem_singleton]
  constructor
  · rintro ⟨⟨e, hE | rfl, hActs⟩, hKept⟩
    · rw [not_or] at hKept
      exact ⟨fun hIs => hKept.2 hIs.symm,
        .inl ⟨⟨e, hE, hActs⟩, hKept.1⟩⟩
    · rw [not_or] at hKept
      exact ⟨fun hIs => hKept.2 hIs.symm,
        .inr ⟨hActs, hKept.1⟩⟩
  · rintro ⟨hKeeps, ⟨⟨e, hE, hActs⟩, hKept⟩ | ⟨hActs, hKept⟩⟩
    · exact ⟨⟨e, .inl hE, hActs⟩,
        not_or.mpr ⟨hKept, fun hIs => hKeeps hIs.symm⟩⟩
    · exact ⟨⟨event, .inr rfl, hActs⟩,
        not_or.mpr ⟨hKept, fun hIs => hKeeps hIs.symm⟩⟩

end

---- Every Sequence Of Events

section

variable {sign : Str → Str}
variable {b : Ledger}

theorem Ledger.Fresh.agrees
    (hFresh : b.Fresh) :
    Agrees sign b := by
  constructor
  · rw [hFresh.unlicensed]
    constructor
    · intro hStored
      exact absurd rfl hStored
    · rintro ⟨sub, plan, ⟨e, hE, _⟩, _⟩
      rw [hFresh.received] at hE
      cases hE
  · intro key hStored
    rw [hFresh.unlicensed] at hStored
    cases hStored

/- What is stored after an activation. -/
theorem activated_agrees_iff
    {event : BillingEvent} {sub plan : Str}
    (hActs : event.activates = some (sub, plan)) :
    Agrees sign
        ⟨b.received ++ [event],
          (applyEvent sign event.raw b.settings).1⟩ ↔
      .deleted sub ∉ b.received ∨
        ∃ other, Live b.received other plan := by
  have hMinted : ∃ key,
      generateKey sign plan (orgName b.settings) = some key ∧
        (applyEvent sign event.raw b.settings).1 =
          activate event.raw plan key b.settings :=
    applyEvent_of_activates hActs b.settings
  rcases hMinted with ⟨key, hKey, hOut⟩
  have hStored : (applyEvent sign event.raw b.settings).1
      (lit "license_key") = some key := by
    rw [hOut]
    exact activate_key _ _ _ _
  have hName : orgName (applyEvent sign event.raw b.settings).1 =
      orgName b.settings := by
    unfold orgName
    rw [hOut, activate_of_ne _ _ _ _ (by decide) (by decide)
      (by decide) (by decide)]
  have hKeeps : ∀ x, event ≠ .deleted x := by
    rintro x rfl
    cases hActs
  constructor
  · rintro ⟨_, hPlan⟩
    rcases hPlan key hStored with ⟨other, plan', hLive, hSame⟩
    dsimp only at hLive hSame
    rw [hName] at hSame
    rw [generateKey_plan hKey hSame] at hLive
    rcases live_append_iff.mp hLive with
      ⟨_, hBefore | ⟨hNow, hKept⟩⟩
    · exact .inr ⟨other, hBefore⟩
    · rw [hActs, Option.some.injEq, Prod.mk.injEq] at hNow
      rw [← hNow.1] at hKept
      exact .inl hKept
  · intro hFits
    have hLive : ∃ other,
        Live (b.received ++ [event]) other plan := by
      rcases hFits with hKept | ⟨other, hOther⟩
      · exact ⟨sub, live_append_iff.mpr
          ⟨hKeeps sub, .inr ⟨hActs, hKept⟩⟩⟩
      · exact ⟨other, live_append_iff.mpr
          ⟨hKeeps other, .inl hOther⟩⟩
    rcases hLive with ⟨other, hLive⟩
    constructor
    · dsimp only
      rw [hStored]
      exact ⟨fun _ => ⟨other, plan, hLive⟩, fun _ => by simp⟩
    · intro key' hIs
      dsimp only at hIs
      rw [hStored] at hIs
      cases hIs
      refine ⟨other, plan, hLive, ?_⟩
      dsimp only
      rw [hName]
      exact hKey

/- What is stored after a deletion. -/
theorem deleted_agrees_iff
    (sub : Str) :
    Agrees sign
        ⟨b.received ++ [.deleted sub],
          (applyEvent sign (BillingEvent.deleted sub).raw
            b.settings).1⟩ ↔
      ∀ other plan, Live b.received other plan → other = sub := by
  rw [applyEvent_deleted]
  have hNone := cancel_key b.settings
  constructor
  · rintro ⟨hStored, _⟩ other plan hLive
    by_contra hOther
    have hLater : Live (b.received ++ [.deleted sub]) other plan := by
      refine live_append_iff.mpr ⟨?_, .inl hLive⟩
      intro hIs
      exact hOther (BillingEvent.deleted.inj hIs).symm
    exact hStored.mpr ⟨other, plan, hLater⟩ hNone
  · intro hFits
    constructor
    · constructor
      · intro hStored
        exact absurd hNone hStored
      · rintro ⟨other, plan, hLive⟩
        rcases live_append_iff.mp hLive with
          ⟨hKeeps, hBefore | ⟨hNow, _⟩⟩
        · rw [hFits other plan hBefore] at hKeeps
          exact absurd rfl hKeeps
        · cases hNow
    · intro key hStored
      dsimp only at hStored
      rw [hNone] at hStored
      cases hStored

/- What is stored after an event that changes nothing. -/
theorem ignored_agrees_iff
    {event : BillingEvent}
    (hActs : event.activates = none)
    (hKeeps : ∀ sub, event ≠ .deleted sub) :
    Agrees sign
        ⟨b.received ++ [event],
          (applyEvent sign event.raw b.settings).1⟩ ↔
      Agrees sign b := by
  have hLive : ∀ sub plan,
      Live (b.received ++ [event]) sub plan ↔
        Live b.received sub plan := by
    intro sub plan
    rw [live_append_iff, hActs]
    simp [hKeeps sub]
  rw [applyEvent_of_ignored hActs hKeeps]
  unfold Agrees
  simp only [hLive]

/- The licence agrees after an event that fits. -/
theorem agrees_step
    {event : BillingEvent} {next : Ledger}
    (hAgrees : Agrees sign b)
    (hStep : BillingStep sign b event next) :
    Agrees sign next ↔ FitsBilling ⟨b, event, next⟩ := by
  cases hStep with
  | receive =>
      cases hActs : event.activates with
      | some both =>
          rcases both with ⟨sub, plan⟩
          rw [activated_agrees_iff hActs]
          constructor
          · intro hFits
            constructor
            · intro sub' plan' hIs
              dsimp only at hIs
              rw [hActs] at hIs
              cases hIs
              exact hFits
            · rintro x rfl
              cases hActs
          · intro hFits
            exact hFits.1 sub plan hActs
      | none =>
          by_cases hDeletes : ∃ sub, event = .deleted sub
          · rcases hDeletes with ⟨sub, rfl⟩
            rw [deleted_agrees_iff]
            constructor
            · intro hFits
              constructor
              · intro sub' plan' hIs
                cases hIs
              · intro x hIs
                cases hIs
                exact hFits
            · intro hFits
              exact hFits.2 sub rfl
          · have hKeeps : ∀ sub, event ≠ .deleted sub :=
              fun sub hIs => hDeletes ⟨sub, hIs⟩
            rw [ignored_agrees_iff hActs hKeeps]
            constructor
            · intro _
              constructor
              · intro sub plan hIs
                dsimp only at hIs
                rw [hActs] at hIs
                cases hIs
              · intro sub hIs
                exact absurd hIs (hKeeps sub)
            · intro _
              exact hAgrees

/- In every sequence of events, in any order and with any
repetitions, the stored licence agrees with the live
subscriptions after each event exactly when every
activation is of a subscription that is not deleted, or of
the plan of a live one, and every deletion leaves no other
subscription live. -/
theorem billing_agrees_iff
    (sign : Str → Str)
    {start last : Ledger}
    {trace : List (Transition Ledger BillingEvent)}
    (hFresh : start.Fresh)
    (hRun : Run (BillingStep sign) start trace last) :
    (∀ e ∈ trace, Agrees sign e.post) ↔
      ∀ e ∈ trace, FitsBilling e :=
  hRun.forall_post_iff (I := Agrees sign)
    (fun _ hAgrees => hAgrees)
    (fun _ _ _ hAgrees hStep hFits =>
      (agrees_step hAgrees hStep).mpr hFits)
    (fun _ _ _ hAgrees hStep hNext =>
      (agrees_step hAgrees hStep).mp hNext)
    hFresh.agrees

end

---- Concrete Subscriptions

def noLicence : Ledger :=
  ⟨[], fun _ => none⟩

def received
    (sign : Str → Str)
    (event : BillingEvent)
    (b : Ledger) : Ledger :=
  ⟨b.received ++ [event],
    (applyEvent sign event.raw b.settings).1⟩

def starterCreated : BillingEvent :=
  .created (lit "sub_a") (some (lit "starter")) none

def proCreated : BillingEvent :=
  .created (lit "sub_b") (some (lit "pro")) none

def starterDeleted : BillingEvent :=
  .deleted (lit "sub_a")

/- The licence of one subscription. -/
theorem starter_agrees :
    Agrees id (received id starterCreated noLicence) := by
  have hRun : Run (BillingStep id) noLicence
      [⟨noLicence, starterCreated,
        received id starterCreated noLicence⟩]
      (received id starterCreated noLicence) :=
    .cons (.receive _ _) (.nil _)
  have hFits : ∀ e ∈
      [(⟨noLicence, starterCreated,
          received id starterCreated noLicence⟩ :
        Transition Ledger BillingEvent)], FitsBilling e := by
    intro e hE
    rw [List.mem_singleton.mp hE]
    constructor
    · intro sub plan _
      exact .inl (by simp [noLicence])
    · intro sub hIs
      cases hIs
  exact (billing_agrees_iff id ⟨rfl, rfl⟩ hRun).mpr hFits _
    (List.mem_singleton_self _)

def bothCreated : Ledger :=
  received id proCreated
    (received id starterCreated noLicence)

def starterGone : Ledger :=
  received id starterDeleted bothCreated

/- Deleting one subscription removes the licence of the
other, and a redelivered activation brings it back. -/
theorem deletion_removes_other_licence :
    Run (BillingStep id) noLicence
        [⟨noLicence, starterCreated,
            received id starterCreated noLicence⟩,
          ⟨received id starterCreated noLicence, proCreated,
            bothCreated⟩,
          ⟨bothCreated, starterDeleted, starterGone⟩,
          ⟨starterGone, starterCreated,
            received id starterCreated starterGone⟩]
        (received id starterCreated starterGone) ∧
      starterGone.settings (lit "license_key") = none ∧
      Live starterGone.received (lit "sub_b") (lit "pro") ∧
      (received id starterCreated starterGone).settings
          (lit "license_key") =
        generateKey id (lit "starter") (lit "self-serve") ∧
      .deleted (lit "sub_a") ∈
        (received id starterCreated starterGone).received := by
  refine ⟨?_, rfl, ⟨⟨proCreated, ?_, rfl⟩, ?_⟩, rfl, ?_⟩
  · exact .cons (.receive _ _) (.cons (.receive _ _)
      (.cons (.receive _ _) (.cons (.receive _ _) (.nil _))))
  · decide
  · decide
  · decide

end ThreatOrbit.Billing
