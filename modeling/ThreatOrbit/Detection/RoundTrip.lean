import ThreatOrbit.Detection.Groups
import ThreatOrbit.Detection.Sigma

/-
  A definition that is exported to Sigma and imported again.

  The export puts the conditions in one selection, keyed by
  field and modifier; the import reads the selection back as
  a list of conditions under `and`.
-/

---- Options

namespace ThreatOrbit.Detection

open Lib

/- The options of an `in` condition survive being joined. -/
theorem inOptions_join
    [Unicode]
    (s : Str) :
    inOptions
        (.str (joinWith [cp ',']
          ((inOptions (.str s)).map fun o => pyStr (.str o)))) =
      inOptions (.str s) := by
  have hText : ∀ o : Str, pyStr (.str o) = o := fun _ => rfl
  simp only [hText, List.map_id']
  have hOptions : inOptions (.str s) = (splitOn (cp ',') s).map strip :=
    rfl
  have hJoin :
      splitOn (cp ',')
          (joinWith [cp ','] (inOptions (.str s))) =
        inOptions (.str s) := by
    apply splitOn_joinWith
    · rw [hOptions]
      intro hNil
      exact splitOn_ne_nil _ _ (List.map_eq_nil_iff.mp hNil)
    · rw [hOptions]
      intro o hO hComma
      rcases List.mem_map.mp hO with ⟨part, hPart, hStrip⟩
      rw [← hStrip] at hComma
      exact not_mem_of_splitOn hPart (strip_subset part hComma)
  calc inOptions (.str (joinWith [cp ','] (inOptions (.str s))))
      = (splitOn (cp ',')
          (joinWith [cp ','] (inOptions (.str s)))).map strip :=
        rfl
    _ = (inOptions (.str s)).map strip := by rw [hJoin]
    _ = inOptions (.str s) := by
        rw [hOptions, List.map_map]
        exact List.map_congr_left fun part _ => strip_strip part

---- One Condition

section

/- The operators of a native condition. -/
def nativeOps : List Op :=
  [.equals, .notEquals, .contains, .isIn, .gt, .lt, .gte, .lte,
    .regex, .cidr]

/- A definition over the native fields and operators. -/
structure NativeDefinition (d : Definition) : Prop where
  conditions :
    ∀ c ∈ d.conditions,
      (∃ field ∈ fields, c.field = some field) ∧
        ∃ op ∈ nativeOps, c.op = some op
  logic : d.logic = some (lit "and") ∨ d.logic = some (lit "or")
  aggregation :
    ∀ agg, d.aggregation = some agg →
      (∃ n : Int, 1 ≤ n ∧ agg.threshold = .int n) ∧
        ∃ field ∈ fields, agg.groupBy = some field

/- The name a field is exported under. -/
def exportName (field : Str) : Str :=
  (nativeToEcs field).getD field

/- The modifiers an operator is exported under. -/
def exportMods (op : Op) : List Str :=
  if opToMod op = [] then [] else [(opToMod op).tail]

variable [Unicode]

/- The exported names are read back as their fields. -/
theorem resolveField_export
    {field : Str}
    (hField : field ∈ fields) :
    resolveField (exportName field) = some field := by
  have hNames :
      ∀ f ∈ fields,
        (fields.contains (exportName f) = true ∧
            exportName f = f) ∨
          (fields.contains (exportName f) = false ∧
            canonicalField (exportName f) = f ∧
            fields.contains f = true) := by
    decide +kernel
  unfold resolveField
  rcases hNames field hField with
    ⟨hIn, hSame⟩ | ⟨hOut, hEcs, hIn⟩
  · rw [if_pos hIn, hSame]
  · rw [hOut, hEcs]
    simp only [hIn, if_true]
    rfl

omit [Unicode] in
theorem splitOn_export
    {field : Str}
    (hField : field ∈ fields) {op : Op} (hOp : op ∈ nativeOps) :
    splitOn (cp '|') (exportName field ++ opToMod op) =
      exportName field :: exportMods op := by
  have hAll :
      ∀ f ∈ fields, ∀ o ∈ nativeOps,
        splitOn (cp '|') (exportName f ++ opToMod o) =
          exportName f :: exportMods o := by
    decide +kernel
  exact hAll field hField op hOp

theorem lower_exportMods
    {op : Op}
    (hOp : op ∈ nativeOps) :
    (exportMods op).map Unicode.lower = exportMods op := by
  have hAll :
      ∀ o ∈ nativeOps, ∀ m ∈ exportMods o,
        (∀ c ∈ m, c < 128) ∧ asciiLowerStr m = m := by
    decide +kernel
  conv_rhs => rw [← List.map_id (exportMods op)]
  apply List.map_congr_left
  intro m hM
  rcases hAll op hOp m hM with ⟨hAscii, hLower⟩
  exact (Unicode.lower_ascii m hAscii).trans hLower

/- The modifiers are read back as the operator, where it has
one of its own. -/
theorem foldl_exportMods
    {op : Op}
    (hOp : op ∈ nativeOps) (hNot : op ≠ .notEquals)
    (hIn : op ≠ .isIn) (value : PyVal) :
    (exportMods op).foldl applyModifier (.equals, value) =
      (op, value) := by
  have hAll :
      ∀ o ∈ nativeOps, o ≠ .notEquals → o ≠ .isIn →
        (exportMods o = [] ∧ o = .equals) ∨
          ∃ m ∈ exportMods o,
            exportMods o = [m] ∧ lookup m modOps = some o := by
    decide +kernel
  rcases hAll op hOp hNot hIn with
    ⟨hNone, hEquals⟩ | ⟨m, _, hOne, hLookup⟩
  · rw [hNone, hEquals]
    rfl
  · rw [hOne, List.foldl_cons, List.foldl_nil]
    unfold applyModifier
    rw [hLookup]

/- An entry whose value is no list is one condition. -/
theorem conditionsOfEntry_scalar
    {key name field : Str} {mods : List Str} {value : PyVal}
    {op : Op}
    (hSplit : splitOn (cp '|') key = name :: mods)
    (hLower : mods.map Unicode.lower = mods)
    (hField : resolveField name = some field)
    (hFold :
      mods.foldl applyModifier (.equals, value) = (op, value))
    (hScalar : ∀ items, value ≠ .list items) :
    conditionsOfEntry key value =
      ⟨[⟨some field, some op, value⟩], []⟩ := by
  unfold conditionsOfEntry
  simp only [hSplit, List.headD_cons, List.tail_cons, hLower,
    hField, hFold]
  cases value with
  | list items => exact absurd rfl (hScalar items)
  | _ => rfl

/- A list under no modifier is one `in` condition. -/
theorem conditionsOfEntry_list
    {key name field : Str} {items : List PyVal}
    (hSplit : splitOn (cp '|') key = [name])
    (hField : resolveField name = some field) :
    conditionsOfEntry key (.list items) =
      ⟨[⟨some field, some .isIn,
        .str (joinWith [cp ','] (items.map pyStr))⟩], []⟩ := by
  unfold conditionsOfEntry
  simp only [hSplit, List.headD_cons, List.tail_cons,
    List.map_nil, hField, List.foldl_nil]
  rfl

theorem inOptions_text
    {value : PyVal}
    (hScalar : ∀ items, value ≠ .list items) :
    inOptions (.str (pyStr value)) = inOptions value := by
  cases value with
  | list items => exact absurd rfl (hScalar items)
  | _ => rfl

/- A condition that is exported is read back as one that
matches the same events. -/
theorem conditionsOfEntry_export
    {c : Condition} {field : Str} {op : Op}
    (hField : field ∈ fields) (hOp : op ∈ nativeOps)
    (hC : c.field = some field ∧ c.op = some op)
    (hNot : op ≠ .notEquals)
    (hScalar : ∀ items, c.value ≠ .list items) :
    ∃ c',
      conditionsOfEntry (exportEntry c).1 (exportEntry c).2 =
        ⟨[c'], []⟩ ∧
      ∀ [RegexEngine] (e : Event),
        matchCondition e c' = matchCondition e c := by
  rcases c with ⟨field', op', value⟩
  rcases hC with ⟨hF, hO⟩
  simp only at hF hO hScalar
  subst hF
  subst hO
  by_cases hIn : op = .isIn
  · subst hIn
    have hEntry :
        exportEntry ⟨some field, some .isIn, value⟩ =
          (exportName field,
            .list ((inOptions (.str (pyStr value))).map
              PyVal.str)) :=
      rfl
    have hSplit := splitOn_export hField hOp
    have hNone : exportName field ++ opToMod .isIn =
        exportName field :=
      List.append_nil _
    rw [hNone] at hSplit
    rw [hEntry]
    refine ⟨_, conditionsOfEntry_list hSplit
      (resolveField_export hField), ?_⟩
    intro _ e
    have hOptions := inOptions_join (pyStr value)
    rw [inOptions_text hScalar] at hOptions
    simp only [matchCondition, Event.actual, List.map_map,
      Function.comp_def, inOptions_text hScalar]
    rw [hOptions]
  · have hEntry :
        exportEntry ⟨some field, some op, value⟩ =
          (exportName field ++ opToMod op, value) := by
      cases op with
      | isIn => exact absurd rfl hIn
      | notEquals => exact absurd rfl hNot
      | _ => rfl
    rw [hEntry]
    exact ⟨⟨some field, some op, value⟩,
      conditionsOfEntry_scalar (splitOn_export hField hOp)
        (lower_exportMods hOp) (resolveField_export hField)
        (foldl_exportMods hOp hNot hIn value) hScalar,
      fun _ => rfl⟩

end

---- Lists Of Conditions

section

variable [Unicode] [RegexEngine]

/- A condition raises nothing but an overflow. -/
theorem matchCondition_error
    {e : Event} {c : Condition} {x : PyError}
    (hError : matchCondition e c = .error x) :
    x = .overflowError := by
  cases hBroken : c.broken with
  | true =>
      rw [matchCondition_of_broken hBroken e] at hError
      exact (Except.error.inj hError).symm
  | false =>
      rcases matchCondition_of_not_broken hBroken e with
        ⟨hit, hHit⟩
      rw [hHit] at hError
      cases hError

/- The conditions raise when one of them does. -/
theorem matchConditions_error
    {e : Event} {conds : List Condition} {c : Condition}
    {x : PyError}
    (hMem : c ∈ conds) (hError : matchCondition e c = .error x) :
    matchConditions e conds = .error .overflowError := by
  induction conds with
  | nil => cases hMem
  | cons first rest ih =>
      rw [matchConditions]
      cases hFirst : matchCondition e first with
      | error y =>
          rw [matchCondition_error hFirst]
          rfl
      | ok hit =>
          rcases List.mem_cons.mp hMem with hHere | hLater
          · rw [hHere, hFirst] at hError
            cases hError
          · rw [ih hLater]
            rfl

/- Otherwise they give the results of each. -/
theorem matchConditions_ok
    {e : Event} {conds : List Condition}
    (hOk : ∀ c ∈ conds, ∃ b, matchCondition e c = .ok b) :
    ∃ bs,
      matchConditions e conds = .ok bs ∧
      ∀ b, b ∈ bs ↔ ∃ c ∈ conds, matchCondition e c = .ok b := by
  induction conds with
  | nil => exact ⟨[], rfl, by simp⟩
  | cons first rest ih =>
      rw [List.forall_mem_cons] at hOk
      rcases hOk.1 with ⟨hit, hFirst⟩
      rcases ih hOk.2 with ⟨bs, hRest, hMem⟩
      refine ⟨hit :: bs, ?_, ?_⟩
      · rw [matchConditions, hFirst, hRest]
        rfl
      · intro b
        rw [List.mem_cons, hMem]
        constructor
        · rintro (hHere | ⟨c, hC, hB⟩)
          · exact ⟨first, List.mem_cons_self, hHere ▸ hFirst⟩
          · exact ⟨c, List.mem_cons_of_mem _ hC, hB⟩
        · rintro ⟨c, hC, hB⟩
          rcases List.mem_cons.mp hC with hHere | hLater
          · rw [hHere, hFirst] at hB
            cases hB
            exact Or.inl rfl
          · exact Or.inr ⟨c, hLater, hB⟩

/- The results that a list of conditions has on an event. -/
def ResultOf
    (e : Event)
    (conds : List Condition)
    (r : Except PyError Bool) : Prop :=
  ∃ c ∈ conds, matchCondition e c = r

/- All and any of the same booleans, in any number. -/
omit [Unicode] [RegexEngine] in
theorem all_any_congr
    {bs bs' : List Bool}
    (hSame : ∀ b, b ∈ bs ↔ b ∈ bs') (hSome : bs ≠ [])
    {p q : Prop} [Decidable p] [Decidable q]
    (hLogic : (p ↔ q) ∨ ∀ b ∈ bs, ∀ b' ∈ bs, b = b') :
    (if p then bs.all id else bs.any id) =
      if q then bs'.all id else bs'.any id := by
  have hAll : bs.all id = bs'.all id := by
    rw [Bool.eq_iff_iff]
    simp only [List.all_eq_true, hSame]
  have hAny : bs.any id = bs'.any id := by
    rw [Bool.eq_iff_iff]
    simp only [List.any_eq_true, hSame]
  rcases hLogic with hIff | hUniform
  · by_cases hP : p
    · rw [if_pos hP, if_pos (hIff.mp hP), hAll]
    · rw [if_neg hP, if_neg (fun hQ => hP (hIff.mpr hQ)), hAny]
  · have hBoth : bs.all id = bs.any id := by
      rcases List.exists_cons_of_ne_nil hSome with
        ⟨b, rest, hBs⟩
      rw [Bool.eq_iff_iff, List.all_eq_true, List.any_eq_true]
      constructor
      · intro hEvery
        have hB : b ∈ bs := hBs ▸ List.mem_cons_self
        exact ⟨b, hB, hEvery b hB⟩
      · rintro ⟨b', hB', hTrue⟩ b'' hB''
        rw [hUniform b'' hB'' b' hB']
        exact hTrue
    by_cases hP : p
    · by_cases hQ : q
      · rw [if_pos hP, if_pos hQ, hAll]
      · rw [if_pos hP, if_neg hQ, hBoth, hAny]
    · by_cases hQ : q
      · rw [if_neg hP, if_pos hQ, ← hBoth, hAll]
      · rw [if_neg hP, if_neg hQ, hAny]

/- A definition is known by the results of its conditions. -/
theorem matchesEvent_congr
    {e : Event} {d d' : Definition}
    (hResults :
      ∀ r, ResultOf e d.conditions r ↔
        ResultOf e d'.conditions r)
    (hLogic :
      (d.logicWord = lit "and" ↔ d'.logicWord = lit "and") ∨
        ∀ r r', ResultOf e d.conditions r →
          ResultOf e d.conditions r' → r = r') :
    matchesEvent e d = matchesEvent e d' := by
  have hEmpty : d.conditions = [] ↔ d'.conditions = [] := by
    constructor
    · intro hNil
      by_contra hSome
      rcases List.exists_mem_of_ne_nil _ hSome with ⟨c, hC⟩
      rcases (hResults _).mpr ⟨c, hC, rfl⟩ with ⟨c', hC', _⟩
      rw [hNil] at hC'
      cases hC'
    · intro hNil
      by_contra hSome
      rcases List.exists_mem_of_ne_nil _ hSome with ⟨c, hC⟩
      rcases (hResults _).mp ⟨c, hC, rfl⟩ with ⟨c', hC', _⟩
      rw [hNil] at hC'
      cases hC'
  unfold matchesEvent
  by_cases hNil : d.conditions = []
  · rw [if_pos (List.isEmpty_iff.mpr hNil),
      if_pos (List.isEmpty_iff.mpr (hEmpty.mp hNil))]
  · rw [if_neg (fun h => hNil (List.isEmpty_iff.mp h)),
      if_neg (fun h =>
        hNil (hEmpty.mpr (List.isEmpty_iff.mp h)))]
    by_cases hError : ∃ x, ResultOf e d.conditions (.error x)
    · rcases hError with ⟨x, hX⟩
      rcases (hResults _).mp hX with ⟨c', hC', hX'⟩
      rcases hX with ⟨c, hC, hX⟩
      rw [matchConditions_error hC hX,
        matchConditions_error hC' hX']
      rfl
    · have hOk :
          ∀ c ∈ d.conditions, ∃ b,
            matchCondition e c = .ok b := by
        intro c hC
        cases hC' : matchCondition e c with
        | error x => exact absurd ⟨x, c, hC, hC'⟩ hError
        | ok b => exact ⟨b, rfl⟩
      have hOk' :
          ∀ c ∈ d'.conditions, ∃ b,
            matchCondition e c = .ok b := by
        intro c hC
        cases hC' : matchCondition e c with
        | error x =>
            exact absurd ⟨x, (hResults _).mpr ⟨c, hC, hC'⟩⟩
              hError
        | ok b => exact ⟨b, rfl⟩
      rcases matchConditions_ok hOk with ⟨bs, hBs, hMem⟩
      rcases matchConditions_ok hOk' with ⟨bs', hBs', hMem'⟩
      have hSome : bs ≠ [] := by
        rcases List.exists_mem_of_ne_nil _ hNil with ⟨c, hC⟩
        rcases hOk c hC with ⟨b, hB⟩
        intro hNone
        have hIn := (hMem b).mpr ⟨c, hC, hB⟩
        rw [hNone] at hIn
        cases hIn
      have hSame : ∀ b, b ∈ bs ↔ b ∈ bs' := by
        intro b
        rw [hMem, hMem']
        exact hResults (.ok b)
      rw [hBs, hBs']
      apply congrArg Except.ok
      apply all_any_congr hSame hSome
      rcases hLogic with hIff | hUniform
      · exact Or.inl hIff
      · right
        intro b hB b' hB'
        have hR := hUniform _ _ ((hMem b).mp hB)
          ((hMem b').mp hB')
        exact Except.ok.inj hR

end

---- The Exported Document

section

variable [Unicode]

theorem run_wholeWord_nil
    {word : String} {c : Cursor}
    (hNone : (Regex.word word).run c = []) :
    (wholeWord word).run c = [] := by
  unfold wholeWord Regex.cat Regex.wordBoundary
  rw [Regex.run, Regex.run]
  split
  · rw [List.flatMap_singleton]
    exact Regex.run_seq_nil hNone
  · rfl

omit [Unicode] in
theorem selection_places :
    ∀ i ≤ (lit "selection").length,
      (Regex.chr '|').run (Regex.placeAt (lit "selection") i) = [] ∧
      (Regex.word "not").run (Regex.placeAt (lit "selection") i) =
        [] ∧
      (Regex.word "1 of").run (Regex.placeAt (lit "selection") i) =
        [] ∧
      (Regex.word "all of").run (Regex.placeAt (lit "selection") i) =
        [] ∧
      (Regex.chr '(').run (Regex.placeAt (lit "selection") i) = [] ∧
      (Regex.cls isSpace).run (Regex.placeAt (lit "selection") i) =
        [] := by
  decide

theorem parseCondition_selection :
    parseCondition (lit "selection") =
      .ok ⟨[lit "selection"], lit "and", none⟩ := by
  have hAgg : aggRe.search (lit "selection") = none := by
    apply Regex.search_none
    intro i hI
    exact Regex.run_seq_nil (selection_places i hI).1
  have hUnsupported :
      unsupportedRe.found (lit "selection") = false := by
    unfold Regex.found
    rw [Regex.search_none]
    · rfl
    intro i hI
    rcases selection_places i hI with
      ⟨_, hNot, hOne, hAll, hParen, _⟩
    unfold unsupportedRe
    rw [Regex.run, Regex.run, Regex.run,
      run_wholeWord_nil hNot, run_wholeWord_nil hOne,
      run_wholeWord_nil hAll, hParen]
    rfl
  have hJoin : joinRe.split (lit "selection") = [lit "selection"] := by
    apply Regex.split_none
    intro i hI
    exact Regex.run_seq_nil
      (Regex.run_seq_nil (selection_places i hI).2.2.2.2.2)
  have hLower : Unicode.lower (lit "selection") = lit "selection" :=
    (Unicode.lower_ascii _ (by decide)).trans (by decide)
  have hOr : contains (lit " or ") (lit "selection") = false := by
    decide
  unfold parseCondition parseAggregation
  rw [hAgg]
  show (if unsupportedRe.found
      (Unicode.lower (lit "selection")) = true then _ else _) = _
  rw [hLower, hUnsupported, hJoin, hOr]
  rfl

/- What the import makes of an exported detection block. -/
theorem definitionOf_selection
    {sel : List (Str × PyVal)} {d : Definition} {notes : List Str}
    (hImport :
      definitionOf
        [(lit "selection", .dict sel),
          (lit "condition", .str (lit "selection"))] =
        .ok (d, notes)) :
    d = ⟨(conditionsFromSelection sel).conditions,
      some (lit "and"), none⟩ := by
  have hCondition :
      strip (textOr
        ((lookup (lit "condition")
          [(lit "selection", PyVal.dict sel),
            (lit "condition", .str (lit "selection"))]).getD
              .none)
        (lit "selection")) = lit "selection" := by
    rfl
  unfold definitionOf at hImport
  simp only [hCondition, parseCondition_selection] at hImport
  have hCollect :
      collect
          [(lit "selection", PyVal.dict sel),
            (lit "condition", .str (lit "selection"))]
          ⟨[], lit "and", []⟩ [lit "selection"] =
        .ok ⟨(conditionsFromSelection sel).conditions,
          lit "and", (conditionsFromSelection sel).notes⟩ := by
    rfl
  simp only [bind, Except.bind, hCollect] at hImport
  split at hImport
  · cases hImport
  · cases hImport
    rfl

/- An import has the definition of its detection block. -/
theorem definition_of_import
    {doc detection : List (Str × PyVal)} {r : SigmaRule}
    (hDetection :
      (lookup (lit "detection") doc).getD .none =
        .dict detection)
    (hImport : sigmaToRule (.dict doc) = .ok r) :
    ∃ notes, definitionOf detection = .ok (r.definition, notes) := by
  unfold sigmaToRule at hImport
  simp only [hDetection, bind, Except.bind] at hImport
  split at hImport
  · cases hImport
  · cases hDefinition : definitionOf detection with
    | error x =>
        rw [hDefinition] at hImport
        cases hImport
    | ok found =>
        rcases found with ⟨d, notes⟩
        rw [hDefinition] at hImport
        simp only at hImport
        repeat' split at hImport
        all_goals cases hImport
        · exact ⟨notes, rfl⟩
        · exact ⟨notes, rfl⟩

end

---- The Round Trip

section

variable [Unicode]

/- What the export keeps of a definition: there is no
aggregation, no `not_equals` and no list of values; two
conditions on one field under one modifier, as `equals` and
`in` are, have one value; and under `or` all have. -/
structure Survives (d : Definition) : Prop where
  aggregation : d.aggregation = none
  positive : ∀ c ∈ d.conditions, c.op ≠ some .notEquals
  scalar : ∀ c ∈ d.conditions, ∀ items, c.value ≠ .list items
  apart :
    ∀ c ∈ d.conditions, ∀ c' ∈ d.conditions,
      (exportEntry c).1 = (exportEntry c').1 →
        exportEntry c = exportEntry c'
  logic :
    d.logic = some (lit "or") →
      ∀ c ∈ d.conditions, ∀ c' ∈ d.conditions,
        exportEntry c = exportEntry c'

/- A surviving condition and what it is read back as. -/
theorem Survives.entry
    {d : Definition}
    (hNative : NativeDefinition d) (hSurvives : Survives d)
    {c : Condition}
    (hC : c ∈ d.conditions) :
    ∃ c',
      conditionsOfEntry (exportEntry c).1 (exportEntry c).2 =
        ⟨[c'], []⟩ ∧
      ∀ [RegexEngine] (e : Event),
        matchCondition e c' = matchCondition e c := by
  rcases hNative.conditions c hC with
    ⟨⟨field, hField, hF⟩, op, hOp, hO⟩
  apply conditionsOfEntry_export hField hOp ⟨hF, hO⟩
  · intro hNot
    rw [hNot] at hO
    exact hSurvives.positive c hC hO
  · exact hSurvives.scalar c hC

/- The conditions that are read back have the results of
those that were exported. -/
theorem Survives.results
    [RegexEngine] {d : Definition}
    (hNative : NativeDefinition d) (hSurvives : Survives d)
    (e : Event) (r : Except PyError Bool) :
    ResultOf e
        (conditionsFromSelection
          (dictOf (d.conditions.map exportEntry))).conditions r ↔
      ResultOf e d.conditions r := by
  have hApart :
      ∀ x ∈ d.conditions.map exportEntry,
        ∀ y ∈ d.conditions.map exportEntry, x.1 = y.1 → x = y := by
    intro x hX y hY hKey
    rcases List.mem_map.mp hX with ⟨c, hC, hCX⟩
    rcases List.mem_map.mp hY with ⟨c', hC', hCY⟩
    rw [← hCX, ← hCY] at hKey ⊢
    exact hSurvives.apart c hC c' hC' hKey
  unfold ResultOf conditionsFromSelection
  simp only [List.flatMap_map, List.mem_flatMap]
  constructor
  · rintro ⟨c', ⟨x, hX, hC'⟩, hResult⟩
    rw [mem_dictOf_iff hApart] at hX
    rcases List.mem_map.mp hX with ⟨c, hC, hEntry⟩
    rcases hSurvives.entry hNative hC with ⟨c'', hOne, hMatch⟩
    rw [← hEntry, hOne] at hC'
    rw [List.mem_singleton.mp hC', hMatch e] at hResult
    exact ⟨c, hC, hResult⟩
  · rintro ⟨c, hC, hResult⟩
    rcases hSurvives.entry hNative hC with ⟨c', hOne, hMatch⟩
    refine ⟨c', ⟨exportEntry c, ?_, ?_⟩, ?_⟩
    · rw [mem_dictOf_iff hApart]
      exact List.mem_map_of_mem hC
    · rw [hOne]
      exact List.mem_singleton_self _
    · rw [hMatch e]
      exact hResult

/- Conditions that are exported as one entry have one
result. -/
theorem Survives.uniform
    [RegexEngine] {d : Definition}
    (hNative : NativeDefinition d) (hSurvives : Survives d)
    (hOr : d.logic = some (lit "or")) (e : Event)
    {r r' : Except PyError Bool}
    (hR : ResultOf e d.conditions r)
    (hR' : ResultOf e d.conditions r') :
    r = r' := by
  rcases hR with ⟨c, hC, hResult⟩
  rcases hR' with ⟨c', hC', hResult'⟩
  rcases hSurvives.entry hNative hC with ⟨i, hOne, hMatch⟩
  rcases hSurvives.entry hNative hC' with ⟨i', hOne', hMatch'⟩
  rw [hSurvives.logic hOr c hC c' hC', hOne'] at hOne
  cases hOne
  rw [← hResult, ← hResult', ← hMatch e, ← hMatch' e]

theorem logicWord_native
    {d : Definition} {word : Str}
    (hWord : word = lit "and" ∨ word = lit "or")
    (hLogic : d.logic = some word) :
    d.logicWord = word := by
  have hSome : orStr (some word) (lit "and") = word := by
    rcases hWord with hAnd | hOr
    · rw [hAnd]
      rfl
    · rw [hOr]
      rfl
  unfold Definition.logicWord
  rw [hLogic, hSome]
  rcases hWord with hAnd | hOr
  · rw [hAnd]
    exact (Unicode.lower_ascii _ (by decide)).trans (by decide)
  · rw [hOr]
    exact (Unicode.lower_ascii _ (by decide)).trans (by decide)

/- The definition that comes back. -/
theorem definition_of_round_trip
    {rule rule' : SigmaRule} {doc : PyVal}
    (hNone : rule.definition.aggregation = none)
    (hExport : ruleToSigma rule = .ok doc)
    (hImport : sigmaToRule doc = .ok rule') :
    rule'.definition =
      ⟨(conditionsFromSelection
          (dictOf (rule.definition.conditions.map
            exportEntry))).conditions,
        some (lit "and"), none⟩ := by
  have hCondition :
      exportCondition rule.definition.aggregation =
        .ok (lit "selection") := by
    rw [hNone]
    rfl
  unfold ruleToSigma at hExport
  simp only [hCondition, bind, Except.bind] at hExport
  cases hExport
  rcases definition_of_import rfl hImport with ⟨notes, hBlock⟩
  exact definitionOf_selection hBlock

theorem evaluate_congr
    [RegexEngine] [IsoDates] {d d' : Definition}
    (hEvents : ∀ e, matchesEvent e d = matchesEvent e d')
    (hAggregation : d.aggregation = d'.aggregation)
    (events : List Event) (now : Int) :
    evaluate d events now = evaluate d' events now := by
  have hMatching : matching d events = matching d' events := by
    induction events with
    | nil => rfl
    | cons e rest ih => rw [matching, matching, hEvents e, ih]
  unfold evaluate
  rw [hMatching, hAggregation]

/- A native definition that survives the export matches the
same events, after the import, as before. -/
theorem round_trip_preserves
    [RegexEngine]
    [IsoDates]
    {rule rule' : SigmaRule}
    {doc : PyVal}
    (hNative : NativeDefinition rule.definition)
    (hSurvives : Survives rule.definition)
    (hExport : ruleToSigma rule = .ok doc)
    (hImport : sigmaToRule doc = .ok rule')
    (events : List Event)
    (now : Int) :
    evaluate rule'.definition events now =
      evaluate rule.definition events now := by
  have hBack :=
    definition_of_round_trip hSurvives.aggregation hExport
      hImport
  symm
  apply evaluate_congr
  · intro e
    apply matchesEvent_congr
    · intro r
      rw [hBack]
      exact (hSurvives.results hNative e r).symm
    · have hAnd : rule'.definition.logicWord = lit "and" := by
        apply logicWord_native (Or.inl rfl)
        rw [hBack]
      rcases hNative.logic with hLogic | hLogic
      · left
        rw [hAnd, logicWord_native (Or.inl rfl) hLogic]
      · right
        intro r r' hR hR'
        exact hSurvives.uniform hNative hLogic e hR hR'
  · rw [hBack]
    exact hSurvives.aggregation

end

---- Two Conditions On One Field

local instance roundTripUnicode : Unicode := asciiTables
local instance roundTripRegexEngine : RegexEngine := noPatterns
local instance roundTripIsoDates : IsoDates := newYearDates

/- A rule for the lines that hold some texts. -/
def rawRule (texts : List Str) : SigmaRule :=
  { name := some (lit "Download by root")
    severity := some (lit "high")
    description := none
    definition :=
      ⟨texts.map fun t =>
          ⟨some (lit "raw"), some .contains, .str t⟩,
        some (lit "and"), none⟩
    mitreTechId := none
    mitreTactic := none
    mitreTacticId := none
    category := none
    tags := []
    notes := [] }

theorem rawRule_native
    (texts : List Str) :
    NativeDefinition (rawRule texts).definition := by
  constructor
  · intro c hC
    rcases List.mem_map.mp hC with ⟨t, _, hSame⟩
    rw [← hSame]
    exact ⟨⟨lit "raw", by decide, rfl⟩, .contains, by decide,
      rfl⟩
  · exact Or.inl rfl
  · intro agg hAgg
    cases hAgg

def rawEvent (text : Str) : Event :=
  ⟨lit "2026-01-01T00:00:00", [(lit "raw", .text text)]⟩

/- What a rule is read back as. -/
def roundTrip (rule : SigmaRule) : Except SigmaError SigmaRule :=
  ruleToSigma rule >>= sigmaToRule

theorem roundTrip_ok
    (rule : SigmaRule)
    (hOk : (roundTrip rule).toOption.isSome = true) :
    ∃ doc rule',
      ruleToSigma rule = .ok doc ∧ sigmaToRule doc = .ok rule' := by
  unfold roundTrip at hOk
  cases hDoc : ruleToSigma rule with
  | error x =>
      rw [hDoc] at hOk
      cases hOk
  | ok doc =>
      rw [hDoc] at hOk
      cases hRule : sigmaToRule doc with
      | error x =>
          have hBind :
              (Except.ok doc >>= sigmaToRule) =
                sigmaToRule doc :=
            rfl
          rw [hBind, hRule] at hOk
          cases hOk
      | ok rule' => exact ⟨doc, rule', rfl, hRule⟩

theorem single_condition_survives :
    ∃ doc rule',
      ruleToSigma (rawRule [lit "curl"]) = .ok doc ∧
      sigmaToRule doc = .ok rule' ∧
      evaluate rule'.definition [rawEvent (lit "curl x")] 0 =
        evaluate (rawRule [lit "curl"]).definition
          [rawEvent (lit "curl x")] 0 := by
  rcases roundTrip_ok (rawRule [lit "curl"])
    (by decide) with ⟨doc, rule', hExport, hImport⟩
  have hSurvives :
      Survives (rawRule [lit "curl"]).definition := by
    have hOne :
        ∀ c ∈ (rawRule [lit "curl"]).definition.conditions,
          c = ⟨some (lit "raw"), some .contains,
            .str (lit "curl")⟩ :=
      fun c hC => List.mem_singleton.mp hC
    constructor
    · rfl
    · intro c hC
      rw [hOne c hC]
      decide
    · intro c hC items
      rw [hOne c hC]
      nofun
    · intro c hC c' hC' _
      rw [hOne c hC, hOne c' hC']
    · intro _ c hC c' hC'
      rw [hOne c hC, hOne c' hC']
  exact ⟨doc, rule', hExport, hImport,
    round_trip_preserves (rawRule_native _) hSurvives hExport
      hImport _ _⟩

/- The second condition takes the place of the first. -/
theorem round_trip_drops_condition :
    ∃ rule doc rule' events now,
      NativeDefinition rule.definition ∧
      ruleToSigma rule = .ok doc ∧
      sigmaToRule doc = .ok rule' ∧
      evaluate rule'.definition events now ≠
        evaluate rule.definition events now := by
  rcases roundTrip_ok (rawRule [lit "sudo", lit "curl"])
    (by decide) with ⟨doc, rule', hExport, hImport⟩
  refine ⟨rawRule [lit "sudo", lit "curl"], doc, rule',
    [rawEvent (lit "curl x")], 0, rawRule_native _, hExport,
    hImport, ?_⟩
  rw [definition_of_round_trip rfl hExport hImport]
  intro hSame
  have hLength :=
    congrArg (fun r => r.toOption.map List.length) hSame
  revert hLength
  decide +kernel

end ThreatOrbit.Detection
