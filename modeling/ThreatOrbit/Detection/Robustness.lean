import ThreatOrbit.Detection.Rules
import ThreatOrbit.Lib.Grouping
import ThreatOrbit.Lib.Returns

/-
  The evaluation of a rule whose definition may be any JSON
  value, over rows whose fields may hold anything: what it
  raises, and on what.
-/

---- Values

namespace ThreatOrbit.RawRules

open Lib

/- What an evaluation may raise. -/
inductive RuleError where
| attributeError
| builtin (e : PyError)
deriving DecidableEq, Repr

/- A row of `events`, or the items of a JSON object. -/
abbrev Row := List (Str × PyVal)

/- A `datetime`, with an offset or without. -/
inductive Stamp where
| aware (utc : Int)
| naive (clock : Int)
deriving DecidableEq, Repr

/- `datetime.fromisoformat`, `none` where it raises
`ValueError`. -/
class Timestamps where
  fromIso : Str → Option Stamp

/- `re.compile`: the search of a pattern, `none` where it
raises `re.error`, or another exception. -/
class RegexCompiler where
  compile : Str → Except PyError (Option (Str → Bool))

/- `obj.get(key)`. -/
def get (key : String) (obj : Row) : PyVal :=
  (lookup (lit key) obj).getD .none

/- Whether a value can be the key of a mapping. -/
def hashable : PyVal → Bool
| .list _ => false
| .dict _ => false
| _ => true

/- What a row has under a key that is hashable. -/
def valueAt (e : Row) : PyVal → PyVal
| .str s => (lookup s e).getD .none
| _ => .none

/- `event.get(key)`. -/
def rowGet
    (e : Row)
    (key : PyVal) : Except RuleError PyVal :=
  if hashable key then .ok (valueAt e key)
  else .error (.builtin .typeError)

/- The native field of a name that is hashable. -/
def nativeOf : PyVal → PyVal
| .str s => .str (Detection.canonicalField s)
| field => field

def canonicalField (field : PyVal) : Except RuleError PyVal :=
  if hashable field then .ok (nativeOf field)
  else .error (.builtin .typeError)

def coerceNum (v : PyVal) : Except RuleError (Option Float) :=
  (Detection.coerceNum v).mapError .builtin

/- A text, or no word of the rule language. -/
def word : PyVal → Str
| .str s => s
| _ => []

def isNone : PyVal → Bool
| .none => true
| _ => false

---- Conditions

open Detection (orVal Op)

section

/- The operators that compare numbers. -/
def numericOps : List (Str × Op) :=
  [(lit "gt", .gt), (lit "lt", .lt), (lit "gte", .gte),
    (lit "lte", .lte)]

variable [Unicode] [RegexCompiler]

/- `is_safe_regex`, with the search of the pattern where it
is safe. -/
def safeRegex
    (pattern : Str) : Except PyError (Option (Str → Bool)) :=
  if Detection.regexMaxPattern < pattern.length then .ok none
  else if Detection.nestedQuant.found pattern then .ok none
  else RegexCompiler.compile pattern

/- A condition of a field, of an operator that raises on no
value. -/
def plainTest (op : Str) (actual expected : PyVal) : Bool :=
  if op = lit "equals" then pyStr actual == pyStr expected
  else if op = lit "not_equals" then
    pyStr actual != pyStr expected
  else if op = lit "contains" then
    !isNone actual &&
      contains (Unicode.lower (pyStr expected))
        (Unicode.lower (pyStr actual))
  else if op = lit "in" then
    (Detection.inOptions expected).contains (pyStr actual)
  else if op = lit "cidr" then
    !isNone actual &&
      match ipAddress (pyStr actual),
        ipNetwork (pyStr expected) with
      | some ip, some net => net.contains ip
      | _, _ => false
  else false

/- A condition that compares numbers. -/
def numericTest
    (op : Op)
    (actual expected : PyVal) : Except RuleError Bool := do
  let a ← coerceNum actual
  let e ← coerceNum expected
  match a, e with
  | some a, some e => .ok (Detection.compareNum op a e)
  | _, _ => .ok false

/- A condition of a pattern. -/
def regexTest
    (actual expected : PyVal) : Except RuleError Bool := do
  let search ← (safeRegex (pyStr expected)).mapError .builtin
  match search with
  | some search =>
      .ok (!isNone actual && search
        ((pyStr actual).take Detection.regexInputCap))
  | none => .ok false

/- A condition, after its field was read. -/
def test
    (op : Str)
    (actual expected : PyVal) : Except RuleError Bool :=
  match lookup op numericOps with
  | some op => numericTest op actual expected
  | none =>
      if op = lit "regex" then regexTest actual expected
      else .ok (plainTest op actual expected)

def matchCondition (e : Row) : PyVal → Except RuleError Bool
| .dict cond => do
    let field ← canonicalField (get "field" cond)
    let actual ← rowGet e field
    test (word (get "op" cond)) actual (get "value" cond)
| _ => .error .attributeError

/- `[_match_condition(event, c) for c in conds]`. -/
def matchConditions
    (e : Row) :
    List PyVal → Except RuleError (List Bool)
| [] => .ok []
| c :: rest => do
    let hit ← matchCondition e c
    let more ← matchConditions e rest
    .ok (hit :: more)

/- `(definition.get("logic") or "and").lower()`. -/
def logicWord (logic : PyVal) : Except RuleError Str :=
  match orVal logic (.str (lit "and")) with
  | .str s => .ok (Unicode.lower s)
  | _ => .error .attributeError

/- The conditions that are iterated over, where there are
some. -/
def eachCondition
    (e : Row) : PyVal → Except RuleError (List Bool)
| .list conds => matchConditions e conds
| .dict _ => .error .attributeError
| .str _ => .error .attributeError
| _ => .error (.builtin .typeError)

def matchesEvent
    (e : Row) : PyVal → Except RuleError Bool
| .dict d =>
    if !truthy (get "conditions" d) then .ok false
    else do
      let logic ← logicWord (get "logic" d)
      let results ← eachCondition e (get "conditions" d)
      .ok (if logic = lit "and" then results.all id
        else results.any id)
| _ => .error .attributeError

end

---- Evaluation

open Detection (orVal intOfFloat timedeltaMinutes)

section

structure Match where
  entity : PyVal
  count : Nat
  event : Row

/- The match of one event. -/
def single (e : Row) : Match :=
  ⟨orVal (get "src_ip" e) (orVal (get "hostname" e)
    (orVal (get "username" e) (.str (lit "-")))), 1, e⟩

/- `now - ts`. -/
def since : Stamp → Stamp → Except RuleError Int
| .aware now, .aware ts => .ok (now - ts)
| .naive now, .naive ts => .ok (now - ts)
| _, _ => .error (.builtin .typeError)

/- The window, 60 minutes by default. -/
def windowOf (minutes : PyVal) : Except RuleError Int := do
  match ← coerceNum minutes with
  | some x =>
      if 0 < x then
        (intOfFloat x >>= timedeltaMinutes).mapError .builtin
      else .ok (60 * 60000000)
  | none => .ok (60 * 60000000)

/- The groups that reach the threshold. -/
def reached
    (threshold : Int)
    (groups : List (Str × List Row)) : List Match :=
  groups.filterMap fun g =>
    if threshold ≤ (g.2.length : Int) then
      g.2.getLast?.map fun last => ⟨.str g.1, g.2.length, last⟩
    else none

variable [Timestamps]

/- `datetime.fromisoformat(e["ts"])`, `none` where the row is
passed over. -/
def stampOf (e : Row) : Except RuleError (Option Stamp) :=
  match lookup (lit "ts") e with
  | none => .ok none
  | some (.str s) => .ok (Timestamps.fromIso s)
  | some _ => .error (.builtin .typeError)

variable [Unicode]

/- The group that a row belongs to, or `none` where the row
is passed over. -/
def groupOf
    (groupBy : PyVal)
    (now : Stamp)
    (window : Int)
    (e : Row) : Except RuleError (Option Str) := do
  match ← stampOf e with
  | none => .ok none
  | some ts => do
      let age ← since now ts
      if window < age then .ok none
      else do
        let v ← rowGet e groupBy
        .ok (some (pyStr (orVal v (.str (lit "-")))))

/- One round of the loop over the matching rows. -/
def groupEvent
    (groupBy : PyVal)
    (now : Stamp)
    (window : Int)
    (groups : List (Str × List Row))
    (e : Row) : Except RuleError (List (Str × List Row)) := do
  match ← groupOf groupBy now window e with
  | some key => .ok (collectInto groups (key, e))
  | none => .ok groups

/- The part of `evaluate` that counts over a window. -/
def evaluateGroups
    (agg : Row)
    (now : Stamp)
    (found : List Row) : Except RuleError (List Match) := do
  match ← coerceNum (get "threshold" agg) with
  | none => .ok []
  | some threshold =>
      if threshold < 1 then .ok []
      else do
        let threshold ←
          (intOfFloat threshold).mapError RuleError.builtin
        let window ← windowOf (get "windowMinutes" agg)
        let groupBy :=
          orVal (get "groupBy" agg) (.str (lit "src_ip"))
        let groups ←
          found.foldlM (groupEvent groupBy now window) []
        .ok (reached threshold groups)

/- What becomes of the matching rows. -/
def aggregate
    (agg : PyVal)
    (now : Stamp)
    (found : List Row) : Except RuleError (List Match) :=
  if !truthy agg then .ok (found.map single)
  else
    match agg with
    | .dict agg =>
        if !truthy (get "threshold" agg) then
          .ok (found.map single)
        else evaluateGroups agg now found
    | _ => .error .attributeError

variable [RegexCompiler]

/- `[e for e in events if matches_event(e, definition)]`. -/
def matching
    (definition : PyVal) :
    List Row → Except RuleError (List Row)
| [] => .ok []
| e :: rest => do
    let hit ← matchesEvent e definition
    let more ← matching definition rest
    .ok (if hit then e :: more else more)

/- `definition.get("aggregation")`, of a definition that has
matched. -/
def aggregationOf : PyVal → PyVal
| .dict d => get "aggregation" d
| _ => .none

/- `rule.get("definition") or {}`. -/
def effective (definition : PyVal) : PyVal :=
  orVal definition (.dict [])

/- `evaluate`, of what the rule has under `definition`. -/
def evaluate
    (definition : PyVal)
    (events : List Row)
    (now : Stamp) : Except RuleError (List Match) := do
  let found ← matching (effective definition) events
  if found.isEmpty then .ok []
  else aggregate (aggregationOf (effective definition)) now found

end

---- Conditions That Can Be Tested

open Detection (orVal)

section

/- An integer that is too large for a double. -/
def overflows : PyVal → Bool
| .int n => (floatOfInt n).isNone
| _ => false

theorem coerceNum_returns_iff (v : PyVal) :
    (∃ x, coerceNum v = .ok x) ↔ overflows v = false := by
  rw [coerceNum, mapError_returns_iff]
  cases v with
  | int n =>
      rw [Detection.coerceNum_int, overflows]
      cases floatOfInt n with
      | none => exact iff_of_false (by simp) (by simp)
      | some x => exact iff_of_true ⟨some x, rfl⟩ rfl
  | _ => exact iff_of_true ⟨_, rfl⟩ rfl

variable [Unicode] [RegexCompiler]

/- A pattern that is not run, or that compiles or is no
pattern at all. -/
def Compiles (pattern : Str) : Prop :=
  pattern.length ≤ Detection.regexMaxPattern →
    Detection.nestedQuant.found pattern = false →
      ∃ search, RegexCompiler.compile pattern = .ok search

omit [Unicode] in
theorem safeRegex_returns_iff (pattern : Str) :
    (∃ search, safeRegex pattern = .ok search) ↔
      Compiles pattern := by
  unfold safeRegex Compiles
  split
  · rename_i hLong
    exact iff_of_true ⟨none, rfl⟩
      fun hShort => absurd hShort (by omega)
  · rename_i hShort
    split
    · rename_i hNested
      refine iff_of_true ⟨none, rfl⟩ fun _ hNot => ?_
      rw [hNested] at hNot
      cases hNot
    · rename_i hNot
      exact ⟨fun hCompiles _ _ => hCompiles, fun hAll =>
        hAll (by omega) (Bool.eq_false_iff.mpr hNot)⟩

theorem regexTest_returns_iff (actual expected : PyVal) :
    (∃ b, regexTest actual expected = .ok b) ↔
      Compiles (pyStr expected) := by
  rw [regexTest, bind_returns_iff, ← safeRegex_returns_iff,
    ← mapError_returns_iff (g := RuleError.builtin)]
  refine exists_congr fun search => and_iff_left ?_
  cases search with
  | none => exact ⟨false, rfl⟩
  | some search => exact ⟨_, rfl⟩

omit [Unicode] [RegexCompiler] in
theorem numericTest_returns_iff
    (op : Detection.Op) (actual expected : PyVal) :
    (∃ b, numericTest op actual expected = .ok b) ↔
      overflows actual = false ∧ overflows expected = false := by
  rw [← coerceNum_returns_iff, ← coerceNum_returns_iff]
  unfold numericTest
  rw [bind_returns_iff]
  have hRest (a : Option Float) :
      (∃ b, (do
        let e ← coerceNum expected
        match a, e with
        | some a, some e =>
            .ok (Detection.compareNum op a e)
        | _, _ => .ok false : Except RuleError Bool) = .ok b) ↔
        ∃ x, coerceNum expected = .ok x := by
    rw [bind_returns_iff]
    refine exists_congr fun e => and_iff_left ?_
    cases a with
    | none => exact ⟨false, rfl⟩
    | some a =>
        cases e with
        | none => exact ⟨false, rfl⟩
        | some e => exact ⟨_, rfl⟩
  simp only [hRest]
  rw [exists_and_right]

/- A comparison of numbers that are no integers too large
for a double, and a pattern that compiles or is refused. -/
def Comparable (op : Str) (actual expected : PyVal) : Prop :=
  ((lookup op numericOps).isSome = true →
      overflows actual = false ∧ overflows expected = false) ∧
    (op = lit "regex" → Compiles (pyStr expected))

theorem test_returns_iff
    (op : Str) (actual expected : PyVal) :
    (∃ b, test op actual expected = .ok b) ↔
      Comparable op actual expected := by
  unfold test Comparable
  cases hOp : lookup op numericOps with
  | some numeric =>
      have hNotRegex : op ≠ lit "regex" := by
        rintro rfl
        cases hOp
      simp only [numericTest_returns_iff, Option.isSome_some,
        true_implies, hNotRegex, false_implies, and_true]
  | none =>
      by_cases hRegex : op = lit "regex"
      · simp only [hRegex, if_true, Option.isSome_none,
          Bool.false_eq_true, false_implies, true_implies,
          true_and, regexTest_returns_iff]
      · simp [hRegex]

/- A condition that a row can be tested on: the name of its
field can be a key, and what it compares is comparable. -/
def Testable (e : Row) : PyVal → Prop
| .dict cond =>
    hashable (get "field" cond) = true ∧
      Comparable (word (get "op" cond))
        (valueAt e (nativeOf (get "field" cond)))
        (get "value" cond)
| _ => False

omit [Unicode] [RegexCompiler] in
/- A native field can be a key where its name can. -/
theorem hashable_nativeOf (field : PyVal) :
    hashable (nativeOf field) = hashable field := by
  cases field <;> rfl

theorem matchCondition_returns_iff (e : Row) (c : PyVal) :
    (∃ b, matchCondition e c = .ok b) ↔ Testable e c := by
  cases c with
  | dict cond =>
      rw [matchCondition, Testable, canonicalField]
      cases hKey : hashable (get "field" cond) with
      | false =>
          refine iff_of_false ?_ (by simp)
          rintro ⟨b, hB⟩
          cases hB
      | true =>
          have hGet :
              rowGet e (nativeOf (get "field" cond)) =
                .ok (valueAt e
                  (nativeOf (get "field" cond))) := by
            rw [rowGet, hashable_nativeOf, hKey, if_pos rfl]
          rw [if_pos rfl, ← test_returns_iff]
          simp only [bind, Except.bind, hGet, true_and]
  | _ =>
      refine iff_of_false ?_ id
      rintro ⟨b, hB⟩
      cases hB

theorem matchConditions_returns_iff
    (e : Row) (conds : List PyVal) :
    (∃ results, matchConditions e conds = .ok results) ↔
      ∀ c ∈ conds, Testable e c := by
  induction conds with
  | nil => exact iff_of_true ⟨[], rfl⟩ (by simp)
  | cons c rest ih =>
      rw [matchConditions, bind_returns_iff,
        List.forall_mem_cons, ← matchCondition_returns_iff, ← ih]
      simp only [bind_returns_iff, ok_returns, and_true]
      rw [exists_and_right]

/- A definition that a row can be matched against: it has no
conditions, or a list of conditions that can be tested, and a
text for its logic, if anything. -/
def Evaluable (e : Row) : PyVal → Prop
| .dict d =>
    truthy (get "conditions" d) = true →
      (∃ s, orVal (get "logic" d) (.str (lit "and")) =
          .str s) ∧
        ∃ conds, get "conditions" d = .list conds ∧
          ∀ c ∈ conds, Testable e c
| _ => False

theorem matchesEvent_returns_iff
    (e : Row) (definition : PyVal) :
    (∃ b, matchesEvent e definition = .ok b) ↔
      Evaluable e definition := by
  cases definition with
  | dict d =>
      have hLogic :
          (∃ s, logicWord (get "logic" d) = .ok s) ↔
            ∃ s, orVal (get "logic" d) (.str (lit "and")) =
              .str s := by
        unfold logicWord
        cases orVal (get "logic" d) (.str (lit "and")) with
        | str s => exact iff_of_true ⟨_, rfl⟩ ⟨s, rfl⟩
        | _ =>
            refine iff_of_false ?_ (by simp)
            rintro ⟨s, hS⟩
            cases hS
      have hEach :
          (∃ results,
              eachCondition e (get "conditions" d) =
                .ok results) ↔
            ∃ conds, get "conditions" d = .list conds ∧
              ∀ c ∈ conds, Testable e c := by
        cases get "conditions" d with
        | list conds =>
            rw [eachCondition, matchConditions_returns_iff]
            simp
        | _ =>
            refine iff_of_false ?_ (by simp)
            rintro ⟨results, hResults⟩
            cases hResults
      rw [matchesEvent, Evaluable]
      cases truthy (get "conditions" d) with
      | false => exact iff_of_true ⟨false, rfl⟩ (by simp)
      | true =>
          rw [← hLogic, ← hEach]
          simp only [true_implies, Bool.not_true,
            Bool.false_eq_true, if_false,
            bind_returns_iff, ok_returns, and_true]
          rw [exists_and_right]
  | _ =>
      refine iff_of_false ?_ id
      rintro ⟨b, hB⟩
      cases hB

end

---- Rows That Can Be Counted

open Detection (orVal intOfFloat timedeltaMinutes maxDays)

section

/- A window that is a number of minutes which a `timedelta`
can hold, or the default. -/
def WindowOk (minutes : PyVal) : Prop :=
  overflows minutes = false ∧
    ∀ x, coerceNum minutes = .ok (some x) → 0 < x →
      ∃ n, truncFloat x = some n ∧ n / 1440 ≤ maxDays ∧
        -maxDays ≤ n / 1440

theorem intOfFloat_eq_ok_iff (x : Float) (n : Int) :
    intOfFloat x = .ok n ↔ truncFloat x = some n := by
  unfold intOfFloat
  cases truncFloat x with
  | some m => simp
  | none =>
      refine iff_of_false ?_ (by simp)
      intro hN
      dsimp only at hN
      split at hN
      · cases hN
      · cases hN

/- A number of minutes that a `timedelta` can hold. -/
theorem minutes_returns_iff (x : Float) :
    (∃ window,
        (intOfFloat x >>= timedeltaMinutes) = .ok window) ↔
      ∃ n, truncFloat x = some n ∧ n / 1440 ≤ maxDays ∧
        -maxDays ≤ n / 1440 := by
  rw [bind_returns_iff]
  refine exists_congr fun n => ?_
  rw [intOfFloat_eq_ok_iff]
  refine and_congr_right fun _ => ?_
  unfold timedeltaMinutes
  split
  · rename_i hHolds
    exact iff_of_true ⟨_, rfl⟩ hHolds
  · rename_i hNot
    refine iff_of_false ?_ hNot
    rintro ⟨window, hWindow⟩
    cases hWindow

theorem windowOf_returns_iff (minutes : PyVal) :
    (∃ window, windowOf minutes = .ok window) ↔
      WindowOk minutes := by
  unfold windowOf WindowOk
  rw [bind_returns_iff, ← coerceNum_returns_iff]
  cases hNumber : coerceNum minutes with
  | error e => simp
  | ok number =>
      cases number with
      | none => simp
      | some x =>
          by_cases hPositive : 0 < x
          · simp only [Except.ok.injEq, Option.some.injEq,
              exists_eq_left', forall_eq', if_true,
              mapError_returns_iff, minutes_returns_iff,
              exists_eq', true_and, hPositive, true_implies]
          · simp [hPositive]

variable [Timestamps]

/- A row whose time can be compared with the clock: it has
none, or a text that is no time, or a time with an offset if
the clock has one; and where it is inside the window, the
name of the group can be a key. -/
def Timed
    (groupBy : PyVal)
    (now : Stamp)
    (window : Int)
    (e : Row) : Prop :=
  ∀ v, lookup (lit "ts") e = some v →
    ∃ s, v = .str s ∧
      ∀ ts, Timestamps.fromIso s = some ts →
        ∃ age, since now ts = .ok age ∧
          (age ≤ window → hashable groupBy = true)

variable [Unicode]

theorem groupOf_returns_iff
    (groupBy : PyVal) (now : Stamp) (window : Int) (e : Row) :
    (∃ key, groupOf groupBy now window e = .ok key) ↔
      Timed groupBy now window e := by
  unfold groupOf Timed stampOf
  cases hTs : lookup (lit "ts") e with
  | none => exact iff_of_true ⟨none, rfl⟩ (by simp)
  | some v =>
      cases v with
      | str s =>
          simp only [Option.some.injEq, forall_eq',
            PyVal.str.injEq, exists_eq_left', bind, Except.bind]
          cases hIso : Timestamps.fromIso s with
          | none => exact iff_of_true ⟨none, rfl⟩ (by simp)
          | some ts =>
              simp only [Option.some.injEq, forall_eq']
              cases hAge : since now ts with
              | error e => simp
              | ok age =>
                  simp only [Except.ok.injEq, exists_eq_left']
                  by_cases hOut : window < age
                  · rw [if_pos hOut]
                    exact iff_of_true ⟨none, rfl⟩
                      fun hIn => absurd hIn (by omega)
                  · rw [if_neg hOut, rowGet]
                    cases hashable groupBy with
                    | true =>
                        exact iff_of_true ⟨_, rfl⟩ fun _ => rfl
                    | false =>
                        refine iff_of_false ?_
                          fun hAll => by simpa using hAll (by omega)
                        rintro ⟨key, hKey⟩
                        cases hKey
      | _ =>
          refine iff_of_false ?_ (by simp)
          rintro ⟨key, hKey⟩
          cases hKey

theorem groupEvent_returns_iff
    (groupBy : PyVal) (now : Stamp) (window : Int)
    (groups : List (Str × List Row)) (e : Row) :
    (∃ groups',
        groupEvent groupBy now window groups e =
          .ok groups') ↔
      Timed groupBy now window e := by
  rw [groupEvent, bind_returns_iff, ← groupOf_returns_iff]
  refine exists_congr fun key => and_iff_left ?_
  cases key with
  | none => exact ⟨groups, rfl⟩
  | some key => exact ⟨_, rfl⟩

/- An aggregation that can be counted over rows: its threshold
is no integer too large for a double, and where it is a number
of at least one it is finite, the window can be held, and each
of the rows has a time that can be compared. -/
def Countable
    (agg : Row)
    (now : Stamp)
    (rows : List Row) : Prop :=
  overflows (get "threshold" agg) = false ∧
    ∀ x, coerceNum (get "threshold" agg) = .ok (some x) →
      ¬x < 1 →
        (∃ n, truncFloat x = some n) ∧
          WindowOk (get "windowMinutes" agg) ∧
          ∀ window,
            windowOf (get "windowMinutes" agg) = .ok window →
              ∀ e ∈ rows,
                Timed (orVal (get "groupBy" agg)
                  (.str (lit "src_ip"))) now window e

theorem evaluateGroups_returns_iff
    (agg : Row) (now : Stamp) (rows : List Row) :
    (∃ found, evaluateGroups agg now rows = .ok found) ↔
      Countable agg now rows := by
  unfold evaluateGroups Countable
  rw [bind_returns_iff, ← coerceNum_returns_iff]
  cases hNumber : coerceNum (get "threshold" agg) with
  | error e => simp
  | ok number =>
      cases number with
      | none => simp
      | some x =>
          by_cases hBelow : x < 1
          · simp [hBelow]
          · have hRows (window : Int) :=
              foldlM_returns_iff
                (groupEvent_returns_iff
                  (orVal (get "groupBy" agg)
                    (.str (lit "src_ip"))) now window)
                rows []
            simp only [Except.ok.injEq, Option.some.injEq,
              exists_eq_left', forall_eq', if_false,
              exists_eq', true_and, hBelow, not_false_eq_true,
              true_implies, bind_returns_iff, and_true, hRows,
              ← windowOf_returns_iff]
            rw [exists_and_right, mapError_returns_iff,
              returns_with_iff]
            simp only [intOfFloat_eq_ok_iff]

end

---- Rules That Can Be Evaluated

section

variable [Unicode] [RegexCompiler]

theorem matching_returns_iff
    (definition : PyVal) (events : List Row) :
    (∃ found, matching definition events = .ok found) ↔
      ∀ e ∈ events, Evaluable e definition := by
  induction events with
  | nil => exact iff_of_true ⟨[], rfl⟩ (by simp)
  | cons e rest ih =>
      rw [matching, bind_returns_iff, List.forall_mem_cons,
        ← matchesEvent_returns_iff, ← ih]
      simp only [bind_returns_iff, ok_returns, and_true]
      rw [exists_and_right]

/- The rows that a definition matches. -/
def matched (definition : PyVal) (events : List Row) : List Row :=
  events.filter fun e =>
    match matchesEvent e definition with
    | .ok hit => hit
    | .error _ => false

theorem matching_eq
    {definition : PyVal} {events found : List Row}
    (hFound : matching definition events = .ok found) :
    found = matched definition events := by
  induction events generalizing found with
  | nil =>
      cases hFound
      rfl
  | cons e rest ih =>
      rw [matching] at hFound
      cases hHit : matchesEvent e definition with
      | error err =>
          rw [hHit] at hFound
          cases hFound
      | ok hit =>
          rw [hHit] at hFound
          dsimp only [bind, Except.bind] at hFound
          cases hMore : matching definition rest with
          | error err =>
              rw [hMore] at hFound
              cases hFound
          | ok more =>
              rw [hMore] at hFound
              cases hFound
              rw [ih hMore, matched, matched, List.filter_cons,
                hHit]

variable [Timestamps]

/- An aggregation that can be counted over rows, if there is
one with a threshold. -/
def Aggregable
    (agg : PyVal)
    (now : Stamp)
    (rows : List Row) : Prop :=
  truthy agg = true →
    ∃ items, agg = .dict items ∧
      (truthy (get "threshold" items) = true →
        Countable items now rows)

omit [RegexCompiler] in
theorem aggregate_returns_iff
    (agg : PyVal) (now : Stamp) (rows : List Row) :
    (∃ found, aggregate agg now rows = .ok found) ↔
      Aggregable agg now rows := by
  unfold aggregate Aggregable
  cases hAgg : truthy agg with
  | false => exact iff_of_true ⟨_, rfl⟩ (by simp)
  | true =>
      cases agg with
      | dict items =>
          simp only [Bool.not_true, Bool.false_eq_true, if_false,
            true_implies, PyVal.dict.injEq, exists_eq_left']
          cases truthy (get "threshold" items) with
          | false => exact iff_of_true ⟨_, rfl⟩ (by simp)
          | true =>
              simp only [Bool.not_true, Bool.false_eq_true,
                if_false, true_implies,
                evaluateGroups_returns_iff]
      | _ =>
          refine iff_of_false ?_ (by simp)
          rintro ⟨found, hFound⟩
          cases hFound

/- A rule that can be evaluated over a batch: every row can be
matched against it, and the rows that match, if any, can be
counted. -/
def Sound
    (definition : PyVal)
    (events : List Row)
    (now : Stamp) : Prop :=
  (∀ e ∈ events, Evaluable e (effective definition)) ∧
    (matched (effective definition) events ≠ [] →
      Aggregable (aggregationOf (effective definition)) now
        (matched (effective definition) events))

/- A definition that has nothing to evaluate: no conditions,
or a threshold that is no number, or less than one. -/
def Hollow (definition : PyVal) : Prop :=
  ∀ d, effective definition = .dict d →
    truthy (get "conditions" d) = true →
      ∃ agg, get "aggregation" d = .dict agg ∧
        truthy (get "threshold" agg) = true ∧
        ∀ x, coerceNum (get "threshold" agg) = .ok (some x) →
          x < 1

omit [Unicode] [RegexCompiler] [Timestamps] in
theorem truthy_of_get
    {key : String} {items : Row}
    (hTrue : truthy (get key items) = true) :
    truthy (.dict items) = true := by
  cases items with
  | nil => cases hTrue
  | cons first rest => rfl

omit [Timestamps] in
/- Where a row matches there are conditions. -/
theorem conditions_of_matched
    {definition : PyVal} {events : List Row}
    (hSome : matched definition events ≠ []) :
    ∃ d, definition = .dict d ∧
      truthy (get "conditions" d) = true := by
  rcases List.exists_mem_of_ne_nil _ hSome with ⟨e, hE⟩
  have hHit := (List.mem_filter.mp hE).2
  cases definition with
  | dict d =>
      refine ⟨d, rfl, ?_⟩
      by_contra hNone
      rw [matchesEvent, if_pos (by simpa using hNone)] at hHit
      cases hHit
  | _ => cases hHit

/- A definition that has nothing to evaluate matches
nothing. -/
theorem evaluate_hollow
    {definition : PyVal} {events : List Row} {now : Stamp}
    {found : List Match}
    (hHollow : Hollow definition)
    (hFound : evaluate definition events now = .ok found) :
    found = [] := by
  rw [evaluate] at hFound
  cases hRows : matching (effective definition) events with
  | error e =>
      rw [hRows] at hFound
      cases hFound
  | ok rows =>
      have hSame := matching_eq hRows
      rw [hRows] at hFound
      dsimp only [bind, Except.bind] at hFound
      by_cases hNone : rows = []
      · rw [hNone] at hFound
        cases hFound
        rfl
      · rw [hSame] at hNone
        rcases conditions_of_matched hNone with ⟨d, hD, hConds⟩
        rcases hHollow d hD hConds with
          ⟨agg, hAgg, hThreshold, hBelow⟩
        rw [← hSame] at hNone
        rw [hD, aggregationOf, hAgg, aggregate,
          truthy_of_get hThreshold] at hFound
        simp only [List.isEmpty_iff, hNone, if_false,
          Bool.not_true, Bool.false_eq_true, hThreshold,
          evaluateGroups] at hFound
        cases hNumber : coerceNum (get "threshold" agg) with
        | error e =>
            rw [hNumber] at hFound
            cases hFound
        | ok number =>
            rw [hNumber] at hFound
            cases number with
            | none =>
                cases hFound
                rfl
            | some x =>
                dsimp only [bind, Except.bind] at hFound
                rw [if_pos (hBelow x hNumber)] at hFound
                cases hFound
                rfl

/- A rule is evaluated without an exception, and to nothing
where it has nothing to evaluate, if and only if its
definition and the rows are sound. -/
theorem evaluate_returns_iff
    (definition : PyVal)
    (events : List Row)
    (now : Stamp) :
    (∃ found, evaluate definition events now = .ok found ∧
        (Hollow definition → found = [])) ↔
      Sound definition events now := by
  have hOnly :
      (∃ found, evaluate definition events now = .ok found ∧
        (Hollow definition → found = [])) ↔
      ∃ found, evaluate definition events now = .ok found := by
    rw [returns_with_iff]
    exact and_iff_left fun found hFound hHollow =>
      evaluate_hollow hHollow hFound
  rw [hOnly, Sound, ← matching_returns_iff, evaluate,
    bind_returns_iff, returns_with_iff]
  refine and_congr_right fun hReturns => ?_
  constructor
  · intro hAll hSome
    rcases hReturns with ⟨rows, hRows⟩
    have hRest := hAll rows hRows
    rw [matching_eq hRows, if_neg (by simpa using hSome)]
      at hRest
    exact (aggregate_returns_iff _ _ _).mp hRest
  · intro hSound rows hRows
    rw [matching_eq hRows]
    by_cases hNone : matched (effective definition) events = []
    · rw [hNone]
      exact ⟨[], rfl⟩
    · rw [if_neg (by simpa using hNone)]
      exact (aggregate_returns_iff _ _ _).mpr (hSound hNone)

end

---- A Threshold Too Large

local instance rawUnicode : Unicode := asciiTables

/- No text is a time, and no text a pattern. -/
local instance rawTimestamps : Timestamps := ⟨fun _ => none⟩

local instance rawCompiler : RegexCompiler := ⟨fun _ => .ok none⟩

/- Failed logins, counted to a threshold. -/
def countedTo (n : Int) : PyVal :=
  .dict
    [(lit "conditions", .list
        [.dict
          [(lit "field", .str (lit "event_type")),
            (lit "op", .str (lit "equals")),
            (lit "value", .str (lit "failed_login"))]]),
      (lit "aggregation", .dict [(lit "threshold", .int n)])]

def failedLogin : Row :=
  [(lit "event_type", .str (lit "failed_login")),
    (lit "ts", .str (lit "2026-01-05T10:00:00+00:00"))]

theorem countedTo_raises
    {n : Int}
    (hLarge : floatOfInt n = none) (hSome : n ≠ 0) :
    evaluate (countedTo n) [failedLogin] (.aware 0) =
      .error (.builtin .overflowError) := by
  have hFound :
      matching (effective (countedTo n)) [failedLogin] =
        .ok [failedLogin] :=
    rfl
  have hAgg :
      aggregationOf (effective (countedTo n)) =
        .dict [(lit "threshold", .int n)] :=
    rfl
  have hThreshold :
      get "threshold" [(lit "threshold", .int n)] = .int n :=
    rfl
  have hTrue : truthy (.int n) = true := by
    simpa [truthy] using hSome
  have hNumber :
      coerceNum (.int n) = .error (.builtin .overflowError) := by
    rw [coerceNum, Detection.coerceNum_int, hLarge]
    rfl
  have hAggTrue : truthy (.dict [(lit "threshold", .int n)]) = true :=
    rfl
  rw [evaluate, hFound, hAgg]
  dsimp only [bind, Except.bind]
  rw [if_neg (by simp), aggregate, if_neg (by simp [hAggTrue])]
  rw [hThreshold, if_neg (by simp [hTrue]), evaluateGroups,
    hThreshold, hNumber]
  rfl

/- The least integer that is too large for a double, as a
threshold: the exception is not caught. -/
theorem huge_threshold_raises :
    evaluate (countedTo floatIntBound) [failedLogin]
        (.aware 0) =
      .error (.builtin .overflowError) := by
  apply countedTo_raises
  · rw [floatOfInt, if_neg]
    rw [Int.natAbs_natCast]
    exact lt_irrefl _
  · have hPow {m n : Nat} (hLess : m < n) : 2 ^ m < 2 ^ n :=
      Nat.pow_lt_pow_right Nat.one_lt_two hLess
    rw [Int.natCast_ne_zero, floatIntBound]
    exact Nat.sub_ne_zero_of_lt (hPow (by decide))

end ThreatOrbit.RawRules
