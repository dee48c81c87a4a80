import ThreatOrbit.Auth.Accounts
import ThreatOrbit.Siem.Entities

/-
  Dismissing alerts as false positives, in bulk and one at a
  time.

  Each dismissal feeds the false-positive rate of the rule
  that raised the alert. One at a time it does so at every
  call; in bulk it does so once for each rule the alerts
  name.
-/

---- Alerts And Rules

namespace ThreatOrbit.Siem

open Lib

section

/- The values of a `REAL` column that `MIN(100, fp_rate+2)`
works on. The sum is rounded, and never to less than what
it started from. -/
class FpRates (R : Type) extends LinearOrder R where
  plusTwo : R → R
  hundred : R
  le_plusTwo : ∀ x, x ≤ plusTwo x

/- The columns of `alerts` that a dismissal reads or
writes. -/
structure TriagedAlert where
  id : Str
  status : Str
  disposition : Str
  owner : Option Str
  ruleId : Option Str
  ruleName : Option Str
  orgId : Str
deriving DecidableEq, Repr

/- A row of `detection_rules`. -/
structure FpRule (R : Type) where
  id : Str
  name : Str
  fpRate : R

/- The two tables; the id of an alert is its primary key. -/
structure Desk (R : Type) where
  alerts : List TriagedAlert
  rules : List (FpRule R)
  nodup : (alerts.map TriagedAlert.id).Nodup

def Scope.covers (sc : Scope) (a : TriagedAlert) : Bool :=
  !sc.enforced || a.orgId == sc.org

/- A rule as an alert names it. -/
abbrev RuleRef := Str × Option Str

/- `(rule_id, rule_name)`, where the rule id is truthy. -/
def TriagedAlert.ref (a : TriagedAlert) : Option RuleRef :=
  match a.ruleId with
  | some (c :: rest) => some (c :: rest, a.ruleName)
  | _ => none

variable {R : Type} [FpRates R]

/- `MIN(100, fp_rate+2)`. -/
def bumpRate (x : R) : R :=
  min FpRates.hundred (FpRates.plusTwo x)

/- `id=? OR name=?`. -/
def FpRule.hitBy (r : FpRule R) (p : RuleRef) : Bool :=
  r.id == p.1 || p.2 == some r.name

def FpRule.bumped (p : RuleRef) (r : FpRule R) : FpRule R :=
  if r.hitBy p then { r with fpRate := bumpRate r.fpRate }
  else r

/- The `UPDATE` of the rules that a reference reaches. -/
def bumpRules
    (rules : List (FpRule R))
    (p : RuleRef) : List (FpRule R) :=
  rules.map (FpRule.bumped p)

end

---- One Alert

open Auth (HttpError)

section

structure AlertUpdate where
  status : Option Str
  disposition : Option Str
  owner : Option Str
deriving DecidableEq, Repr

/- The columns a body sets. -/
def TriagedAlert.set
    (body : AlertUpdate)
    (a : TriagedAlert) : TriagedAlert :=
  { a with
    status := body.status.getD a.status
    disposition := body.disposition.getD a.disposition
    owner := body.owner.or a.owner }

/- `WHERE id=?` and the scope. -/
def Scope.names
    (sc : Scope)
    (id : Str)
    (a : TriagedAlert) : Bool :=
  a.id == id && sc.covers a

def TriagedAlert.updated
    (sc : Scope)
    (id : Str)
    (body : AlertUpdate)
    (a : TriagedAlert) : TriagedAlert :=
  if sc.names id a then a.set body else a

theorem TriagedAlert.updated_id
    (sc : Scope) (id : Str) (body : AlertUpdate)
    (a : TriagedAlert) :
    (a.updated sc id body).id = a.id := by
  unfold TriagedAlert.updated
  split
  · rfl
  · rfl

variable {R : Type} [FpRates R]

/- `UPDATE alerts SET ..`. -/
def Desk.write
    (d : Desk R)
    (sc : Scope)
    (id : Str)
    (body : AlertUpdate) : Desk R where
  alerts := d.alerts.map (TriagedAlert.updated sc id body)
  rules := d.rules
  nodup := by
    rw [List.map_map]
    have hSame :
        TriagedAlert.id ∘ TriagedAlert.updated sc id body =
          TriagedAlert.id :=
      funext fun a => TriagedAlert.updated_id sc id body a
    rw [hSame]
    exact d.nodup

def Desk.bump (d : Desk R) (p : RuleRef) : Desk R :=
  { d with rules := bumpRules d.rules p }

/- The feedback loop: the rule of the alert, when there is
one. -/
def Desk.feedback (d : Desk R) (id : Str) : Desk R :=
  match (d.alerts.find? fun a => a.id == id).bind
      TriagedAlert.ref with
  | some p => d.bump p
  | none => d

def falsePositive : Str :=
  lit "false-positive"

/- `update_alert`: the tables and the row it returns. -/
def updateAlert
    (sc : Scope)
    (id : Str)
    (body : AlertUpdate)
    (d : Desk R) :
    Except HttpError (Desk R × Option TriagedAlert) :=
  if body = ⟨none, none, none⟩ then
    .error ⟨400, lit "No fields to update"⟩
  else if d.alerts.all fun a => !sc.names id a then
    .error ⟨404, lit "Alert not found"⟩
  else
    let written := d.write sc id body
    let fed :=
      if body.disposition = some falsePositive then
        written.feedback id
      else written
    .ok (fed, fed.alerts.find? fun a => a.id == id)

end

---- Many Alerts

section

/- The order in which a Python set is walked. -/
structure SetOrder where
  list : List RuleRef → List RuleRef
  perm : ∀ refs, (list refs).Perm refs

/- `status='closed', disposition='false-positive'`. -/
def dismissal : AlertUpdate where
  status := some (lit "closed")
  disposition := some falsePositive
  owner := none

structure BulkAnswer where
  dismissed : Nat
  notFound : List Str
deriving DecidableEq, Repr

variable {R : Type} [FpRates R]

/- What the loop of `bulk_dismiss_alerts` carries. -/
structure BulkState (R : Type) where
  desk : Desk R
  dismissed : List Str
  ruleIds : List RuleRef

/- `rule_ids.add(..)`, of a rule id that is truthy. -/
def addRef
    (refs : List RuleRef) :
    Option RuleRef → List RuleRef
| none => refs
| some p => if p ∈ refs then refs else refs ++ [p]

/- One id of the loop. -/
def bulkStep
    (sc : Scope)
    (s : BulkState R)
    (id : Str) : BulkState R :=
  match s.desk.alerts.find? (sc.names id) with
  | none => s
  | some row =>
      { desk := s.desk.write sc id dismissal
        dismissed := s.dismissed ++ [id]
        ruleIds := addRef s.ruleIds row.ref }

/- `bulk_dismiss_alerts`. -/
def bulkDismiss
    (sc : Scope)
    (o : SetOrder)
    (ids : List Str)
    (d : Desk R) : Except HttpError (Desk R × BulkAnswer) :=
  let ids := ids.take 200
  if ids = [] then
    .error ⟨400, lit "No alert ids given"⟩
  else
    let s := ids.foldl (bulkStep sc) ⟨d, [], []⟩
    .ok ((o.list s.ruleIds).foldl Desk.bump s.desk,
      ⟨s.dismissed.length,
        ids.filter fun id => !s.dismissed.contains id⟩)

/- The tables after a request; one that fails writes
nothing. -/
def afterRequest
    {α : Type}
    (d : Desk R) : Except HttpError (Desk R × α) → Desk R
| .ok (t, _) => t
| .error _ => d

/- One `PATCH` of an alert as a false positive. -/
def dismissOne
    (sc : Scope)
    (d : Desk R)
    (id : Str) : Desk R :=
  afterRequest d (updateAlert sc id dismissal d)

/- The alerts dismissed one after another. -/
def dismissEach
    (sc : Scope)
    (ids : List Str)
    (d : Desk R) : Desk R :=
  ids.foldl (dismissOne sc) d

/- The rule of the alert that an id names in the scope. -/
def Desk.refAt
    (d : Desk R)
    (sc : Scope)
    (id : Str) : Option RuleRef :=
  (d.alerts.find? (sc.names id)).bind TriagedAlert.ref

/- The references by which the alerts of the ids reach a
rule, one for each id. -/
def Desk.reaching
    (d : Desk R)
    (sc : Scope)
    (ids : List Str)
    (r : FpRule R) : List RuleRef :=
  (ids.filterMap (d.refAt sc)).filter r.hitBy

/- The rate has come to where one more dismissal leaves it,
after so many of them. -/
def FpRule.full (r : FpRule R) (n : Nat) : Prop :=
  bumpRate (bumpRate^[n] r.fpRate) = bumpRate^[n] r.fpRate

/- No rule is reached twice by one reference, or the rate of
a rule that is reached so is full once each reference has
counted. -/
def Desk.Spread
    (d : Desk R)
    (sc : Scope)
    (ids : List Str) : Prop :=
  ∀ r ∈ d.rules,
    (d.reaching sc ids r).Nodup ∨
      r.full (d.reaching sc ids r).dedup.length

end

---- What A Dismissal Writes

section

theorem names_updated
    (sc : Scope) (id key : Str) (body : AlertUpdate)
    (a : TriagedAlert) :
    sc.names key (a.updated sc id body) = sc.names key a := by
  unfold TriagedAlert.updated
  split
  · rfl
  · rfl

theorem ref_updated
    (sc : Scope) (id : Str) (body : AlertUpdate)
    (a : TriagedAlert) :
    (a.updated sc id body).ref = a.ref := by
  unfold TriagedAlert.updated
  split
  · rfl
  · rfl

variable {R : Type} [FpRates R]

omit [FpRates R] in
/- A write keeps which rule each id stands for. -/
theorem refAt_map
    {d t : Desk R} {sc : Scope} {id : Str} {body : AlertUpdate}
    (hAlerts :
      t.alerts = d.alerts.map (TriagedAlert.updated sc id body)) :
    t.refAt sc = d.refAt sc := by
  funext key
  unfold Desk.refAt
  have hNames :
      sc.names key ∘ TriagedAlert.updated sc id body =
        sc.names key :=
    funext fun a => names_updated sc id key body a
  rw [hAlerts, List.find?_map, hNames]
  cases d.alerts.find? (sc.names key) with
  | none => rfl
  | some a => exact ref_updated sc id body a

omit [FpRates R] in
/- An id that names no alert writes none. -/
theorem write_of_none
    {d : Desk R} {sc : Scope} {id : Str}
    (body : AlertUpdate)
    (hNone : d.alerts.find? (sc.names id) = none) :
    d.alerts.map (TriagedAlert.updated sc id body) =
      d.alerts := by
  rw [List.find?_eq_none] at hNone
  have hSame :
      d.alerts.map (TriagedAlert.updated sc id body) =
        d.alerts.map fun a => a := by
    apply List.map_congr_left
    intro a hMem
    exact if_neg (hNone a hMem)
  rw [hSame, List.map_id']

omit [FpRates R] in
/- An id names one alert. -/
theorem find_of_names
    {d : Desk R} {sc : Scope} {id : Str} {a : TriagedAlert}
    (hFound : d.alerts.find? (sc.names id) = some a) :
    (d.alerts.find? fun b => b.id == id) = some a := by
  have hMem := List.mem_of_find?_eq_some hFound
  have hNames := List.find?_some hFound
  unfold Scope.names at hNames
  simp only [Bool.and_eq_true, beq_iff_eq] at hNames
  cases hOther : d.alerts.find? fun b => b.id == id with
  | none =>
      rw [List.find?_eq_none] at hOther
      exact absurd hNames.1 (by simpa using hOther a hMem)
  | some b =>
      have hId : b.id = id := by
        simpa using List.find?_some hOther
      have hSame := List.inj_on_of_nodup_map d.nodup
        (List.mem_of_find?_eq_some hOther) hMem
        (hId.trans hNames.1.symm)
      rw [hSame]

/- The rules after a reference, if there is one. -/
def bumpOption
    (rules : List (FpRule R)) :
    Option RuleRef → List (FpRule R)
| none => rules
| some p => bumpRules rules p

/- One call writes the alert and feeds its rule. -/
theorem dismissOne_tables
    (sc : Scope) (d : Desk R) (id : Str) :
    (dismissOne sc d id).alerts =
        d.alerts.map (TriagedAlert.updated sc id dismissal) ∧
      (dismissOne sc d id).rules =
        bumpOption d.rules (d.refAt sc id) := by
  unfold dismissOne updateAlert
  rw [if_neg (by decide)]
  cases hFound : d.alerts.find? (sc.names id) with
  | none =>
      have hNone := List.find?_eq_none.mp hFound
      rw [if_pos (by simpa using hNone), write_of_none _ hFound]
      unfold Desk.refAt
      rw [hFound]
      exact ⟨rfl, rfl⟩
  | some a =>
      have hSome : ¬ (d.alerts.all fun a => !sc.names id a) = true := by
        intro hAll
        have hNot := List.all_eq_true.mp hAll a
          (List.mem_of_find?_eq_some hFound)
        rw [List.find?_some hFound] at hNot
        cases hNot
      have hAfter :
          ((d.write sc id dismissal).alerts.find?
              fun b => b.id == id).bind TriagedAlert.ref =
            d.refAt sc id := by
        have hKept := congrFun (refAt_map (d := d)
          (t := d.write sc id dismissal) rfl) id
        rw [← hKept]
        unfold Desk.refAt
        have hThere :
            (d.write sc id dismissal).alerts.find?
                (sc.names id) =
              some (a.updated sc id dismissal) := by
          have hNames :
              sc.names id ∘
                  TriagedAlert.updated sc id dismissal =
                sc.names id :=
            funext fun b => names_updated sc id id dismissal b
          change (d.alerts.map _).find? _ = _
          rw [List.find?_map, hNames, hFound]
          rfl
        rw [find_of_names hThere, hThere]
      have hFalse :
          dismissal.disposition = some falsePositive := rfl
      rw [if_neg hSome]
      simp only [hFalse, if_true, afterRequest]
      unfold Desk.feedback
      rw [hAfter]
      cases d.refAt sc id with
      | none => exact ⟨rfl, rfl⟩
      | some p => exact ⟨rfl, rfl⟩

/- The alerts after a list of dismissals. -/
def dismissedAlerts
    (sc : Scope)
    (ids : List Str)
    (alerts : List TriagedAlert) : List TriagedAlert :=
  ids.foldl
    (fun rows id =>
      rows.map (TriagedAlert.updated sc id dismissal))
    alerts

/- One at a time, every id that has a rule counts. -/
theorem each_tables
    (sc : Scope) (ids : List Str) (d : Desk R) :
    (dismissEach sc ids d).alerts =
        dismissedAlerts sc ids d.alerts ∧
      (dismissEach sc ids d).rules =
        (ids.filterMap (d.refAt sc)).foldl bumpRules
          d.rules := by
  induction ids generalizing d with
  | nil => exact ⟨rfl, rfl⟩
  | cons id rest ih =>
      have hOne := dismissOne_tables sc d id
      have hRest := ih (dismissOne sc d id)
      rw [refAt_map hOne.1, hOne.1, hOne.2] at hRest
      refine ⟨hRest.1, ?_⟩
      change (dismissEach sc rest (dismissOne sc d id)).rules = _
      rw [hRest.2, List.filterMap_cons]
      cases d.refAt sc id with
      | none => rfl
      | some p => rfl

end

---- What The Bulk Loop Carries

section

variable {R : Type}

/- One id in bulk: the alert is written, the rules are not,
and the reference is noted. -/
theorem bulkStep_fields
    (sc : Scope) (s : BulkState R) (id : Str) :
    (bulkStep sc s id).desk.alerts =
        s.desk.alerts.map
          (TriagedAlert.updated sc id dismissal) ∧
      (bulkStep sc s id).desk.rules = s.desk.rules ∧
      (bulkStep sc s id).ruleIds =
        addRef s.ruleIds (s.desk.refAt sc id) := by
  unfold bulkStep Desk.refAt
  cases hFound : s.desk.alerts.find? (sc.names id) with
  | none => exact ⟨(write_of_none _ hFound).symm, rfl, rfl⟩
  | some a => exact ⟨rfl, rfl, rfl⟩

theorem bulk_fields
    (sc : Scope) (ids : List Str) (s : BulkState R) :
    (ids.foldl (bulkStep sc) s).desk.alerts =
        dismissedAlerts sc ids s.desk.alerts ∧
      (ids.foldl (bulkStep sc) s).desk.rules = s.desk.rules ∧
      (ids.foldl (bulkStep sc) s).ruleIds =
        (ids.filterMap (s.desk.refAt sc)).foldl
          (fun refs p => addRef refs (some p)) s.ruleIds := by
  induction ids generalizing s with
  | nil => exact ⟨rfl, rfl, rfl⟩
  | cons id rest ih =>
      have hOne := bulkStep_fields sc s id
      have hRest := ih (bulkStep sc s id)
      rw [refAt_map hOne.1, hOne.1, hOne.2.1, hOne.2.2] at hRest
      refine ⟨hRest.1, hRest.2.1, ?_⟩
      rw [List.foldl_cons, hRest.2.2, List.filterMap_cons]
      cases s.desk.refAt sc id with
      | none => rfl
      | some p => rfl

/- The references that are noted, each once. -/
theorem addRefs_dedup (refs : List RuleRef) :
    (refs.foldl (fun seen p => addRef seen (some p)) []).Perm
      refs.dedup := by
  have hFold :
      ∀ seen : List RuleRef, seen.Nodup →
        (refs.foldl (fun seen p => addRef seen (some p))
            seen).Nodup ∧
          ∀ q, q ∈ refs.foldl
              (fun seen p => addRef seen (some p)) seen ↔
            q ∈ seen ∨ q ∈ refs := by
    induction refs with
    | nil => exact fun seen hSeen => ⟨hSeen, by simp⟩
    | cons p rest ih =>
        intro seen hSeen
        rw [List.foldl_cons]
        by_cases hIn : p ∈ seen
        · have hAdd : addRef seen (some p) = seen := if_pos hIn
          rw [hAdd]
          refine ⟨(ih seen hSeen).1, fun q => ?_⟩
          rw [(ih seen hSeen).2, List.mem_cons]
          constructor
          · rintro (hQ | hQ)
            · exact .inl hQ
            · exact .inr (.inr hQ)
          · rintro (hQ | rfl | hQ)
            · exact .inl hQ
            · exact .inl hIn
            · exact .inr hQ
        · have hAdd : addRef seen (some p) = seen ++ [p] :=
            if_neg hIn
          have hMore : (seen ++ [p]).Nodup := by
            rw [List.nodup_append]
            refine ⟨hSeen, List.nodup_singleton p, ?_⟩
            intro a hA b hB hSame
            rw [List.mem_singleton] at hB
            exact hIn (hB ▸ hSame ▸ hA)
          rw [hAdd]
          refine ⟨(ih _ hMore).1, fun q => ?_⟩
          rw [(ih _ hMore).2, List.mem_append,
            List.mem_singleton, List.mem_cons, or_assoc]
  have hEmpty := hFold [] List.nodup_nil
  rw [List.perm_ext_iff_of_nodup hEmpty.1 (List.nodup_dedup _)]
  intro q
  rw [hEmpty.2, List.mem_dedup]
  simp

/- The ids that name an alert, in the order given. -/
theorem bulk_dismissed
    (sc : Scope) (ids : List Str) (s : BulkState R) :
    (ids.foldl (bulkStep sc) s).dismissed =
      s.dismissed ++ ids.filter fun id =>
        (s.desk.alerts.find? (sc.names id)).isSome := by
  induction ids generalizing s with
  | nil => simp
  | cons id rest ih =>
      have hFind :
          ∀ key,
            ((bulkStep sc s id).desk.alerts.find?
                (sc.names key)).isSome =
              (s.desk.alerts.find? (sc.names key)).isSome := by
        intro key
        have hNames :
            sc.names key ∘ TriagedAlert.updated sc id dismissal =
              sc.names key :=
          funext fun a => names_updated sc id key dismissal a
        rw [(bulkStep_fields sc s id).1, List.find?_map, hNames,
          Option.isSome_map]
      rw [List.foldl_cons, ih]
      simp only [hFind]
      unfold bulkStep
      cases hFound : s.desk.alerts.find? (sc.names id) with
      | none => simp [hFound]
      | some a => simp [hFound]

end

---- How Often A Rule Counts

section

variable {R : Type} [FpRates R]

/- A rule after a list of references. -/
def FpRule.after
    (refs : List RuleRef)
    (r : FpRule R) : FpRule R :=
  { r with fpRate := bumpRate^[refs.countP r.hitBy] r.fpRate }

theorem foldl_bumpRules
    (refs : List RuleRef) (rules : List (FpRule R)) :
    refs.foldl bumpRules rules = rules.map (FpRule.after refs) := by
  induction refs generalizing rules with
  | nil =>
      symm
      exact List.map_id _
  | cons p rest ih =>
      rw [List.foldl_cons, ih, bumpRules, List.map_map]
      apply List.map_congr_left
      intro r _
      unfold FpRule.after FpRule.bumped
      by_cases hHit : r.hitBy p = true
      · simp only [Function.comp_apply, hHit, if_true,
          List.countP_cons_of_pos]
        rfl
      · simp only [Function.comp_apply, if_neg hHit,
          List.countP_cons_of_neg hHit]

/- A bumped rate is at most the cap, and a bump does not
lower it. -/
theorem bumpRate_le (x : R) : bumpRate x ≤ FpRates.hundred :=
  min_le_left _ _

theorem le_bumpRate
    {x : R}
    (hCap : x ≤ FpRates.hundred) :
    x ≤ bumpRate x :=
  le_min hCap (FpRates.le_plusTwo x)

theorem le_iterate_bumpRate
    {x : R}
    (hCap : x ≤ FpRates.hundred) (n : Nat) :
    x ≤ bumpRate^[n] x ∧ bumpRate^[n] x ≤ FpRates.hundred := by
  induction n with
  | zero => exact ⟨le_refl x, hCap⟩
  | succ n ih =>
      rw [Function.iterate_succ_apply']
      exact ⟨le_trans ih.1 (le_bumpRate ih.2), bumpRate_le _⟩

/- More bumps change nothing exactly where one more changes
nothing. -/
theorem iterate_bumpRate_eq_iff
    {x : R} {k m : Nat}
    (hFirst : k = 0 → m = 0) (hLe : k ≤ m) :
    bumpRate^[m] x = bumpRate^[k] x ↔
      k = m ∨
        bumpRate (bumpRate^[k] x) = bumpRate^[k] x := by
  constructor
  · intro hSame
    rcases Nat.eq_or_lt_of_le hLe with hEq | hLt
    · exact .inl hEq
    · have hPos : k ≠ 0 := fun hZero => by
        have := hFirst hZero
        omega
      rcases Nat.exists_eq_succ_of_ne_zero hPos with ⟨j, rfl⟩
      have hCap : bumpRate^[j + 1] x ≤ FpRates.hundred := by
        rw [Function.iterate_succ_apply']
        exact bumpRate_le _
      have hSplit : m = (m - (j + 1) - 1) + 1 + (j + 1) := by
        omega
      rw [hSplit, Function.iterate_add_apply,
        Function.iterate_succ_apply] at hSame
      have hUp := (le_iterate_bumpRate
        (bumpRate_le (bumpRate^[j + 1] x))
        (m - (j + 1) - 1)).1
      rw [hSame] at hUp
      exact .inr (le_antisymm hUp (le_bumpRate hCap))
  · rintro (rfl | hFull)
    · rfl
    · have hSplit : m = (m - k) + k := by omega
      rw [hSplit, Function.iterate_add_apply,
        Function.iterate_fixed hFull]

end

---- Bulk And Singles

section

variable {R : Type} [FpRates R]

/- What dismissing one by one makes of the rules. -/
theorem each_rules
    (sc : Scope) (ids : List Str) (d : Desk R) :
    (dismissEach sc ids d).rules =
      d.rules.map
        (FpRule.after (ids.filterMap (d.refAt sc))) := by
  rw [(each_tables sc ids d).2, foldl_bumpRules]

theorem foldl_bump
    (refs : List RuleRef) (d : Desk R) :
    (refs.foldl Desk.bump d).alerts = d.alerts ∧
      (refs.foldl Desk.bump d).rules =
        refs.foldl bumpRules d.rules := by
  induction refs generalizing d with
  | nil => exact ⟨rfl, rfl⟩
  | cons p rest ih => exact ih (d.bump p)

/- What the bulk request makes of the tables: each reference
counts once. -/
theorem bulk_tables
    (sc : Scope) (o : SetOrder) {ids : List Str}
    (hLen : ids.length ≤ 200) (d : Desk R) :
    (afterRequest d (bulkDismiss sc o ids d)).alerts =
        dismissedAlerts sc ids d.alerts ∧
      (afterRequest d (bulkDismiss sc o ids d)).rules =
        d.rules.map
          (FpRule.after
            (ids.filterMap (d.refAt sc)).dedup) := by
  unfold bulkDismiss
  rw [List.take_of_length_le hLen]
  by_cases hNone : ids = []
  · subst hNone
    refine ⟨rfl, ?_⟩
    symm
    exact List.map_id _
  · simp only [if_neg hNone, afterRequest]
    have hBulk := bulk_fields sc ids (⟨d, [], []⟩ : BulkState R)
    rw [(foldl_bump _ _).1, (foldl_bump _ _).2, hBulk.1,
      hBulk.2.1, hBulk.2.2, foldl_bumpRules]
    refine ⟨rfl, ?_⟩
    apply List.map_congr_left
    intro r _
    unfold FpRule.after
    rw [((o.perm _).trans (addRefs_dedup _)).countP_eq]

/- The answer counts each id once. -/
theorem bulk_answer
    {sc : Scope} {o : SetOrder} {ids : List Str}
    (hLen : ids.length ≤ 200) {d t : Desk R} {answer : BulkAnswer}
    (hOk : bulkDismiss sc o ids d = .ok (t, answer)) :
    answer.dismissed + answer.notFound.length = ids.length := by
  unfold bulkDismiss at hOk
  rw [List.take_of_length_le hLen] at hOk
  by_cases hNone : ids = []
  · simp [hNone] at hOk
  · simp only [if_neg hNone, Except.ok.injEq,
      Prod.mk.injEq] at hOk
    rw [← hOk.2]
    simp only [bulk_dismissed, List.nil_append]
    have hNot :
        (ids.filter fun id =>
          !(ids.filter fun id =>
            (d.alerts.find? (sc.names id)).isSome).contains id) =
        ids.filter fun id =>
          !(d.alerts.find? (sc.names id)).isSome := by
      apply List.filter_congr
      intro id hMem
      cases hFound : (d.alerts.find? (sc.names id)).isSome with
      | true => simp [hMem, hFound]
      | false => simp [hFound]
    rw [hNot, ← List.countP_eq_length_filter,
      ← List.countP_eq_length_filter]
    have hSplit := List.length_eq_countP_add_countP
      (fun id => (d.alerts.find? (sc.names id)).isSome)
      (l := ids)
    rw [hSplit]
    simp only [Bool.decide_eq_false, Bool.not_eq_true]

/- The rates agree where the references are spread. -/
theorem after_dedup_iff
    (refs : List RuleRef) (r : FpRule R) :
    FpRule.after refs.dedup r = FpRule.after refs r ↔
      (refs.filter r.hitBy).Nodup ∨
        r.full (refs.filter r.hitBy).dedup.length := by
  have hCount :
      refs.dedup.countP r.hitBy =
        (refs.filter r.hitBy).dedup.length := by
    rw [List.countP_eq_length_filter]
    apply List.Perm.length_eq
    rw [List.perm_ext_iff_of_nodup
      ((List.nodup_dedup refs).filter _) (List.nodup_dedup _)]
    intro p
    simp
  have hLe :
      (refs.filter r.hitBy).dedup.length ≤
        (refs.filter r.hitBy).length :=
    (List.dedup_sublist _).length_le
  have hZero :
      (refs.filter r.hitBy).dedup.length = 0 →
        (refs.filter r.hitBy).length = 0 := by
    intro hNil
    have hEmpty := List.length_eq_zero_iff.mp hNil
    rw [List.dedup_eq_nil] at hEmpty
    rw [hEmpty, List.length_nil]
  have hOnce :
      (refs.filter r.hitBy).dedup.length =
          (refs.filter r.hitBy).length ↔
        (refs.filter r.hitBy).Nodup := by
    rw [← List.dedup_eq_self]
    constructor
    · exact (List.dedup_sublist _).eq_of_length
    · intro hSelf
      rw [hSelf]
  unfold FpRule.after FpRule.full
  rw [hCount, List.countP_eq_length_filter, FpRule.mk.injEq,
    eq_comm (a := bumpRate^[_] _),
    iterate_bumpRate_eq_iff hZero hLe, hOnce]
  simp

theorem Desk.eq_iff
    {R : Type} {d t : Desk R} :
    d = t ↔ d.alerts = t.alerts ∧ d.rules = t.rules := by
  cases d
  cases t
  simp

/- Dismissing in bulk leaves the tables as dismissing one by
one does exactly where the references are spread. The
answer accounts for every id either way. -/
theorem bulk_as_singles_iff
    (sc : Scope)
    (o : SetOrder)
    {ids : List Str}
    (hLen : ids.length ≤ 200)
    (d : Desk R) :
    (afterRequest d (bulkDismiss sc o ids d) =
        dismissEach sc ids d ∧
      ∀ t answer,
        bulkDismiss sc o ids d = .ok (t, answer) →
          answer.dismissed + answer.notFound.length =
            ids.length) ↔
      d.Spread sc ids := by
  have hBulk := bulk_tables sc o hLen d
  have hEach := each_tables sc ids d
  have hRules :
      (afterRequest d (bulkDismiss sc o ids d)).rules =
          (dismissEach sc ids d).rules ↔
        d.Spread sc ids := by
    rw [hBulk.2, each_rules, List.map_inj_left]
    unfold Desk.Spread Desk.reaching
    simp only [after_dedup_iff]
  rw [Desk.eq_iff, hBulk.1, hEach.1, hRules]
  constructor
  · rintro ⟨⟨_, hSpread⟩, _⟩
    exact hSpread
  · intro hSpread
    exact ⟨⟨rfl, hSpread⟩, fun t answer hOk =>
      bulk_answer hLen hOk⟩

end

---- Two Alerts Of One Rule

/- Whole rates, which need no rounding. -/
local instance : FpRates Int where
  plusTwo x := x + 2
  hundred := 100
  le_plusTwo x := by omega

def walkInOrder : SetOrder where
  list refs := refs
  perm refs := List.Perm.refl refs

def alertOf (id ruleId : Str) : TriagedAlert where
  id := id
  status := lit "new"
  disposition := lit "undetermined"
  owner := none
  ruleId := some ruleId
  ruleName := some (lit "Brute force")
  orgId := lit "org-default"

/- Two alerts of one rule, whose rate is 0. -/
def noisyDesk : Desk Int where
  alerts :=
    [alertOf (lit "a1") (lit "r1"),
      alertOf (lit "a2") (lit "r1")]
  rules := [⟨lit "r1", lit "Brute force", 0⟩]
  nodup := by decide

def everyOrg : Scope where
  enforced := false
  org := lit "org-default"

/- In bulk the two count once. -/
theorem bulk_counts_once :
    ¬ (afterRequest noisyDesk
          (bulkDismiss everyOrg walkInOrder
            [lit "a1", lit "a2"] noisyDesk) =
        dismissEach everyOrg [lit "a1", lit "a2"] noisyDesk ∧
      ∀ t answer,
        bulkDismiss everyOrg walkInOrder
            [lit "a1", lit "a2"] noisyDesk = .ok (t, answer) →
          answer.dismissed + answer.notFound.length =
            ([lit "a1", lit "a2"] : List Str).length) := by
  rintro ⟨hSame, _⟩
  have hRates := congrArg
    (fun d => d.rules.map FpRule.fpRate) hSame
  have hLen : [lit "a1", lit "a2"].length ≤ 200 := by decide
  simp only [(bulk_tables everyOrg walkInOrder hLen noisyDesk).2,
    each_rules] at hRates
  revert hRates
  decide

/- One alert and an unknown id do not. -/
theorem one_alert_agrees :
    (afterRequest noisyDesk
          (bulkDismiss everyOrg walkInOrder
            [lit "a1", lit "a9"] noisyDesk) =
        dismissEach everyOrg [lit "a1", lit "a9"] noisyDesk ∧
      ∀ t answer,
        bulkDismiss everyOrg walkInOrder
            [lit "a1", lit "a9"] noisyDesk = .ok (t, answer) →
          answer.dismissed + answer.notFound.length =
            ([lit "a1", lit "a9"] : List Str).length) :=
  (bulk_as_singles_iff everyOrg walkInOrder (by decide)
    noisyDesk).mpr (by
      intro r hMem
      rw [List.mem_singleton.mp hMem]
      exact .inl (by decide))

end ThreatOrbit.Siem
