import ThreatOrbit.Detection.Rules
import ThreatOrbit.Lib.Caseless
import ThreatOrbit.Lib.Lists
import ThreatOrbit.Lib.Shell
import ThreatOrbit.Lib.Substitute

/-
  The hunt query language: conditions on fields, free text,
  a join with a second search and a count by field.
-/

---- Patterns

namespace ThreatOrbit.Hunting

open Lib Regex Detection

/- `ALL_FIELDS`: the native names, and the others in
order. -/
def allFields : List Str :=
  fields ++
    (ecsAliases.map Prod.fst).mergeSort fun a b =>
      decide (a ≤ b)

/- `.`. -/
def notNewline (c : Nat) : Bool :=
  c != 10

/- `^`. -/
def atStart : Regex :=
  .assert fun before _ => before == []

/- `_FIELD_ALT`: the longest names first. -/
def fieldAlt : Regex :=
  oneOf ((allFields.mergeSort fun a b =>
    decide (b.length ≤ a.length)).map textI)

/- `_SYM_OP`. -/
def symOp : List (Str × Op) :=
  [(lit ">=", .gte), (lit "<=", .lte), (lit "!=", .notEquals),
    (lit "=", .equals), (lit ">", .gt), (lit "<", .lt),
    (lit "~", .regex), (lit ":", .contains)]

/- The operators of a term, in the order of its pattern. -/
def opAlt : Regex :=
  oneOf [word ">=", word "<=", word "!=", word "=", word ">",
    word "<", word "~", word ":"]

/- `_TERM_RE`. -/
def termRe : Regex :=
  cat [atStart, .group 1 fieldAlt, .group 2 opAlt,
    .group 3 (.star true (.cls notNewline)), atEnd]

/- `[a-z_.]+`, in either case. -/
def nameI : Regex :=
  plus (.cls fun c => letterI c || c == cp '_' || c == cp '.')

/- `\s+`. -/
def spaces : Regex :=
  plus (.cls isSpace)

/- `_IN_RE`. -/
def inRe [Unicode] : Regex :=
  cat [wordBoundary, .group 1 nameI, spaces, wordI "in", spaces,
    .group 2 (plus (.cls fun c => !isSpace c && c != cp '|'))]

/- `_STATS_RE`. -/
def statsRe : Regex :=
  cat [wordI "stats", spaces, wordI "count", spaces,
    wordI "by", spaces, .group 1 nameI]

/- `_JOIN_RE`. -/
def joinRe : Regex :=
  cat [atStart, wordI "join", spaces, .group 1 nameI, spaces,
    .group 2 (plus (.cls notNewline)), atEnd]

---- Parsing

section

variable [Unicode]

/- The result of a parse: `stats` is the field it counts by,
`join` a field and the second search. -/
structure ParsedQuery where
  conditions : List Condition
  freetext : List Str
  stats : Option Str
  join : Option (Str × Str)

/- A name that a match has as its first group, if it is a
field. -/
def recognised (m : Regex.Match) : Option Str :=
  let name := Unicode.lower ((m.group 1).getD [])
  if allFields.contains name then some name else none

def joinOf (segment : Str) : Option (Str × Str) :=
  (joinRe.matchAt (.start segment)).bind fun m =>
    (recognised m).map fun name =>
      (canonicalField name, strip ((m.group 2).getD []))

/- The grouping of a segment. -/
def statsOf (segment : Str) : Option Str :=
  (statsRe.search segment).bind fun m =>
    (recognised m).map canonicalField

/- A segment after the first: the last join and the last
grouping count. -/
def readSegment
    (found : Option Str × Option (Str × Str))
    (segment : Str) : Option Str × Option (Str × Str) :=
  match joinOf segment with
  | some join => (found.1, some join)
  | none =>
      match statsOf segment with
      | some name => (some name, found.2)
      | none => found

/- `field in a,b,c`. -/
def membership (m : Regex.Match) : Option Condition :=
  (recognised m).map fun name =>
    { field := some name
      op := some .isIn
      value := .str ((m.group 2).getD []) }

def memberships (search : Str) : List Condition :=
  (inRe.findIter search).filterMap membership

/- `_in_sub`: a membership becomes a space. -/
def inSub (m : Regex.Match) : Str :=
  if (recognised m).isSome then lit " " else m.text

/- A term: a field, an operator and a value. -/
def parseTerm (token : Str) : Option Condition :=
  (termRe.matchAt (.start token)).map fun m =>
    { field := some (Unicode.lower ((m.group 1).getD []))
      op := lookup ((m.group 2).getD []) symOp
      value := .str ((m.group 3).getD []) }

/- The words of a search, in quotes or, where the quotes do
not close, between spaces. -/
def tokensOf (search : Str) : List Str :=
  (shellSplit search).getD (spaceSplit search)

def parseQuery (q : Str) : ParsedQuery :=
  let segments := (splitOn (cp '|') q).map strip
  let found := segments.tail.foldl readSegment (none, none)
  let search := segments.headD []
  let tokens := tokensOf (inRe.sub inSub search)
  { conditions :=
      memberships search ++ tokens.filterMap parseTerm
    freetext := tokens.filter fun token =>
      (parseTerm token).isNone && !(strip token).isEmpty
    stats := found.1
    join := found.2 }

end

---- Printing

/- A condition as it is written: a field, the symbol of an
operator, and a value. -/
structure HuntTerm where
  field : Str
  symbol : Str
  value : Str
deriving DecidableEq, Repr

def HuntTerm.text (t : HuntTerm) : Str :=
  t.field ++ t.symbol ++ t.value

def HuntTerm.condition (t : HuntTerm) : Condition where
  field := some t.field
  op := lookup t.symbol symOp
  value := .str t.value

/- The terms, each quoted, with a space between. -/
def printQuery (terms : List HuntTerm) : Str :=
  joinWith (lit " ") (terms.map fun t => shellQuote t.text)

/- A term over the known fields and operators whose value
does not turn `>` or `<` into another operator. -/
structure HuntTerm.Printable (t : HuntTerm) : Prop where
  field_mem : t.field ∈ allFields
  symbol_mem : t.symbol ∈ symOp.map Prod.fst
  value_head :
    t.symbol = lit ">" ∨ t.symbol = lit "<" →
      t.value.head? ≠ some (cp '=')

---- Fields And Operators

def isFieldChar (c : Nat) : Bool :=
  (cp 'a' ≤ c && c ≤ cp 'z') || c == cp '_' || c == cp '.'

theorem mem_allFields {f : Str} :
    f ∈ allFields ↔
      f ∈ fields ++ ecsAliases.map Prod.fst := by
  unfold allFields
  rw [List.mem_append, List.mem_append, List.mem_mergeSort]

theorem isFieldChar_of_mem
    {f : Str}
    (hField : f ∈ allFields) :
    ∀ c ∈ f, isFieldChar c = true := by
  rw [mem_allFields] at hField
  revert f
  decide +kernel

theorem isFieldChar_low
    {c : Nat}
    (hChar : isFieldChar c = true) :
    c < 128 ∧ asciiLower c = c := by
  have hZ : cp 'z' = 122 := rfl
  have hLine : cp '_' = 95 := rfl
  have hDot : cp '.' = 46 := rfl
  have hLow : c < 128 := by
    simp only [isFieldChar, Bool.or_eq_true, Bool.and_eq_true,
      decide_eq_true_eq, beq_iff_eq] at hChar
    omega
  have hAll : ∀ c < 128, isFieldChar c = true → asciiLower c = c := by
    decide
  exact ⟨hLow, hAll c hLow hChar⟩

theorem lower_field [Unicode]
    {f : Str}
    (hField : f ∈ allFields) :
    Unicode.lower f = f := by
  have hChars := isFieldChar_of_mem hField
  have hAscii : ∀ c ∈ f, c < 128 := fun c hC =>
    (isFieldChar_low (hChars c hC)).1
  rw [Unicode.lower_ascii f hAscii]
  have hLower : ∀ c ∈ f, asciiLower c = id c := fun c hC =>
    (isFieldChar_low (hChars c hC)).2
  unfold asciiLowerStr
  rw [List.map_congr_left hLower, List.map_id]

/- The first characters of the operators. -/
def isOpChar (c : Nat) : Bool :=
  (lit "=!><~:").contains c

theorem isOpChar_low
    {c : Nat}
    (hChar : isOpChar c = true) :
    c < 128 ∧ asciiLower c = c ∧ isFieldChar c = false := by
  have hAll :
      ∀ c ∈ lit "=!><~:",
        c < 128 ∧ asciiLower c = c ∧ isFieldChar c = false := by
    decide
  exact hAll c (List.contains_iff_mem.mp hChar)

/- No operator begins with a character of a field. -/
theorem run_opAlt_nil
    {x : Nat}
    (hChar : isFieldChar x = true) (before after : Str)
    (groups : List (Nat × Str)) :
    opAlt.run ⟨before, x :: after, groups⟩ = [] := by
  have hOther (c : Char) (hC : isFieldChar (cp c) = false) :
      x ≠ cp c := by
    intro hSame
    rw [hSame, hC] at hChar
    cases hChar
  unfold opAlt
  rw [run_oneOf, List.flatMap_eq_nil_iff]
  simp only [List.forall_mem_cons, List.not_mem_nil,
    false_implies, implies_true, and_true]
  refine ⟨?_, ?_, ?_, ?_, ?_, ?_, ?_, ?_⟩
  · exact run_word_nil rfl (hOther '>' (by decide)) _ _ _
  · exact run_word_nil rfl (hOther '<' (by decide)) _ _ _
  · exact run_word_nil rfl (hOther '!' (by decide)) _ _ _
  · exact run_word_nil rfl (hOther '=' (by decide)) _ _ _
  · exact run_word_nil rfl (hOther '>' (by decide)) _ _ _
  · exact run_word_nil rfl (hOther '<' (by decide)) _ _ _
  · exact run_word_nil rfl (hOther '~' (by decide)) _ _ _
  · exact run_word_nil rfl (hOther ':' (by decide)) _ _ _

/- The operator of a term is found whole. -/
theorem run_opAlt_symbol
    {t : HuntTerm}
    (hTerm : t.Printable) (before : Str)
    (groups : List (Nat × Str)) :
    ∃ more,
      opAlt.run ⟨before, t.symbol ++ t.value, groups⟩ =
        ⟨t.symbol.reverse ++ before, t.value, groups⟩ ::
          more := by
  rcases t with ⟨field, symbol, value⟩
  have hSymbol := hTerm.symbol_mem
  have hHead := hTerm.value_head
  simp only [symOp, List.map_cons, List.map_nil, List.mem_cons,
    List.not_mem_nil, or_false] at hSymbol hHead ⊢
  rcases hSymbol with
    rfl | rfl | rfl | rfl | rfl | rfl | rfl | rfl
  · exact ⟨_, rfl⟩
  · exact ⟨_, rfl⟩
  · exact ⟨_, rfl⟩
  · exact ⟨_, rfl⟩
  · have hNot := hHead (Or.inl rfl)
    cases value with
    | nil => exact ⟨_, rfl⟩
    | cons y value =>
        have hY : y ≠ cp '=' := fun hIs => hNot (by rw [hIs]; rfl)
        have hSkip :
            (word ">=").run
              ⟨before, lit ">" ++ y :: value, groups⟩ = [] := by
          simp [word, chr, run, lit, hY]
        refine ⟨[], ?_⟩
        unfold opAlt
        rw [run_oneOf, List.flatMap_cons, hSkip]
        rfl
  · have hNot := hHead (Or.inr rfl)
    cases value with
    | nil => exact ⟨_, rfl⟩
    | cons y value =>
        have hY : y ≠ cp '=' := fun hIs => hNot (by rw [hIs]; rfl)
        have hSkip :
            (word "<=").run
              ⟨before, lit "<" ++ y :: value, groups⟩ = [] := by
          simp [word, chr, run, lit, hY]
        refine ⟨[], ?_⟩
        unfold opAlt
        rw [run_oneOf, List.flatMap_cons, List.flatMap_cons,
          hSkip]
        rfl
  · exact ⟨_, rfl⟩
  · exact ⟨_, rfl⟩

/- A symbol begins with a character of the operators. -/
theorem symbol_cons
    {t : HuntTerm}
    (hTerm : t.Printable) :
    ∃ x rest, t.symbol = x :: rest ∧ isOpChar x = true := by
  have hAll :
      ∀ symbol ∈ symOp.map Prod.fst,
        ∃ x rest, symbol = x :: rest ∧ isOpChar x = true := by
    intro symbol hSymbol
    simp only [symOp, List.map_cons, List.map_nil,
      List.mem_cons, List.not_mem_nil, or_false] at hSymbol
    rcases hSymbol with
      rfl | rfl | rfl | rfl | rfl | rfl | rfl | rfl
    · exact ⟨_, _, rfl, by decide⟩
    · exact ⟨_, _, rfl, by decide⟩
    · exact ⟨_, _, rfl, by decide⟩
    · exact ⟨_, _, rfl, by decide⟩
    · exact ⟨_, _, rfl, by decide⟩
    · exact ⟨_, _, rfl, by decide⟩
    · exact ⟨_, _, rfl, by decide⟩
    · exact ⟨_, _, rfl, by decide⟩
  exact hAll t.symbol hTerm.symbol_mem

---- Terms

section

/- Before an operator the one name that is found is the whole
one: a shorter one ends before a character of a name, where
no operator begins. -/
theorem head?_fieldAlt
    {β : Type} {f : Str} {x : Nat} {F : Cursor → List β}
    (hField : f ∈ allFields) (hOp : isOpChar x = true)
    (hStop :
      ∀ before y after,
        isFieldChar y = true →
        F ⟨before, y :: after, []⟩ = [])
    (before after : Str) :
    ((fieldAlt.run ⟨before, f ++ x :: after, []⟩).flatMap
        F).head? =
      (F ⟨f.reverse ++ before, x :: after, []⟩).head? := by
  have hPairs
      {g : Str} (hG : g ∈ allFields) :
      ∀ a ∈ g, ∀ b ∈ f, sameLetter a b = true → b = a := by
    intro a hA b hB
    have hLowA := isFieldChar_low (isFieldChar_of_mem hG a hA)
    have hLowB :=
      isFieldChar_low (isFieldChar_of_mem hField b hB)
    exact sameLetter_low hLowA.2 hLowB.2 hLowB.1
  have hNone
      {g : Str} (hG : g ∈ allFields) :
      ∀ a ∈ g, sameLetter a x = false := by
    intro a hA
    have hChar := isFieldChar_of_mem hG a hA
    have hLowX := isOpChar_low hOp
    rw [Bool.eq_false_iff]
    intro hSame
    have hIs := sameLetter_low (isFieldChar_low hChar).2
      hLowX.2.1 hLowX.1 hSame
    rw [hIs, hChar] at hLowX
    cases hLowX.2.2
  have hMem :
      f ∈ allFields.mergeSort fun a b =>
        decide (b.length ≤ a.length) :=
    List.mem_mergeSort.mpr hField
  unfold fieldAlt
  rw [run_oneOf, List.flatMap_map, List.flatMap_assoc,
    head?_flatMap_of_unique hMem]
  · rw [run_textI_self, List.flatMap_cons, List.flatMap_nil,
      List.append_nil]
  · intro g hG hNe
    rw [List.mem_mergeSort] at hG
    rw [run_textI_of_distinct (hPairs hG) (hNone hG)]
    split
    · rename_i hPrefix
      rcases hPrefix with ⟨more, hMore⟩
      rw [← hMore, List.drop_left, List.flatMap_cons,
        List.flatMap_nil, List.append_nil]
      cases more with
      | nil =>
          rw [List.append_nil] at hMore
          exact absurd hMore hNe
      | cons y more =>
          apply hStop
          apply isFieldChar_of_mem hField
          rw [← hMore]
          simp
    · rfl

/- The end of a term, past its field. -/
def termTail : Regex :=
  cat [.group 2 opAlt,
    .group 3 (.star true (.cls notNewline)), atEnd]

theorem run_termTail_nil
    {x : Nat}
    (hChar : isFieldChar x = true) (before after : Str)
    (groups : List (Nat × Str)) :
    termTail.run ⟨before, x :: after, groups⟩ = [] := by
  unfold termTail cat
  apply run_seq_nil
  rw [run, run_opAlt_nil hChar]
  rfl

/- A value without a newline is read to its end. -/
theorem head?_termTail
    {t : HuntTerm}
    (hTerm : t.Printable) (hValue : 10 ∉ t.value) (before : Str)
    (groups : List (Nat × Str)) :
    ∃ stop : Cursor,
      (termTail.run
        ⟨before, t.symbol ++ t.value, groups⟩).head? =
          some stop ∧
      stop.groups =
        (3, t.value) :: (2, t.symbol) :: groups := by
  rcases run_opAlt_symbol hTerm before groups with
    ⟨others, hOthers⟩
  have hSymbol := Cursor.upto_append
    ⟨before, t.symbol ++ t.value, groups⟩
    ⟨t.symbol.reverse ++ before, t.value, groups⟩ t.symbol rfl
  rcases run_star_greedy_cons notNewline
    ⟨t.symbol.reverse ++ before, t.value,
      (2, t.symbol) :: groups⟩ with ⟨more, hMore⟩
  have hAll : ∀ c ∈ t.value, notNewline c = true := by
    intro c hC
    have hNe : c ≠ 10 := fun hIs => hValue (hIs ▸ hC)
    simpa [notNewline] using hNe
  have hSkip :
      Cursor.skip notNewline
          ⟨t.symbol.reverse ++ before, t.value,
            (2, t.symbol) :: groups⟩ =
        ⟨t.value.reverse ++ (t.symbol.reverse ++ before), [],
          (2, t.symbol) :: groups⟩ := by
    unfold Cursor.skip
    rw [List.takeWhile_eq_self_iff.mpr hAll,
      List.dropWhile_eq_nil_iff.mpr hAll]
  have hUpto := Cursor.upto_append
    ⟨t.symbol.reverse ++ before, t.value,
      (2, t.symbol) :: groups⟩
    ⟨t.value.reverse ++ (t.symbol.reverse ++ before), [],
      (2, t.symbol) :: groups⟩ t.value
    (List.append_nil _).symm
  refine ⟨⟨t.value.reverse ++ (t.symbol.reverse ++ before), [],
    (3, t.value) :: (2, t.symbol) :: groups⟩, ?_, rfl⟩
  unfold termTail
  rw [cat, run, run, hOthers, List.map_cons, hSymbol]
  apply head?_flatMap_of_first
  rw [cat, run, run, hMore, List.map_cons, hSkip, hUpto]
  apply head?_flatMap_of_first
  rfl

variable [Unicode]

/- A printed term is read back as its condition. -/
theorem parseTerm_text
    {t : HuntTerm}
    (hTerm : t.Printable) (hValue : 10 ∉ t.value) :
    parseTerm t.text = some t.condition := by
  rcases symbol_cons hTerm with ⟨x, rest, hSymbol, hOp⟩
  rcases head?_termTail hTerm hValue t.field.reverse
    [(1, t.field)] with ⟨stop, hStop, hGroups⟩
  have hText : t.symbol ++ t.value = x :: (rest ++ t.value) := by
    rw [hSymbol]
    rfl
  have hStart :
      Cursor.start t.text =
        ⟨[], t.field ++ (t.symbol ++ t.value), []⟩ := by
    unfold Cursor.start HuntTerm.text
    rw [List.append_assoc]
  have hRun :
      termRe.run (.start t.text) =
        (fieldAlt.run (.start t.text)).flatMap fun d =>
          termTail.run
            { d with
              groups := (1, Cursor.upto (.start t.text) d) ::
                d.groups } := by
    have hOnce :
        termRe.run (.start t.text) =
          (Regex.seq (.group 1 fieldAlt) termTail).run
            (.start t.text) ++ [] :=
      rfl
    rw [hOnce, List.append_nil, run, run, List.flatMap_map]
  have hHead : (termRe.run (.start t.text)).head? = some stop := by
    rw [hRun, hStart, hText,
      head?_fieldAlt hTerm.field_mem hOp, ← hText]
    · have hField :
          Cursor.upto
              ⟨[], t.field ++ (t.symbol ++ t.value), []⟩
              ⟨t.field.reverse ++ [], t.symbol ++ t.value,
                []⟩ =
            t.field :=
        Cursor.upto_append _ _ _ rfl
      dsimp only
      rw [hField, List.append_nil]
      exact hStop
    · intro before y after hChar
      exact run_termTail_nil hChar _ _ _
  unfold parseTerm matchAt
  rw [hHead]
  simp only [Option.map_some, Regex.Match.group, hGroups]
  simp [HuntTerm.condition, lower_field hTerm.field_mem]

/- The value of a term is a part of the token without a
newline. -/
theorem parseTerm_value
    {token : Str} {cond : Condition}
    (hParse : parseTerm token = some cond) :
    ∃ value,
      cond.value = .str value ∧ value ⊆ token ∧
      10 ∉ value := by
  unfold parseTerm matchAt at hParse
  rw [Option.map_map, Option.map_eq_some_iff] at hParse
  rcases hParse with ⟨stop, hStop, rfl⟩
  have hMem := List.mem_of_head? hStop
  have hOnward := run_onward _ _ stop hMem
  rcases List.mem_flatMap.mp hMem with ⟨c1, _, hMem1⟩
  rcases List.mem_flatMap.mp hMem1 with ⟨c2, _, hMem2⟩
  rcases List.mem_flatMap.mp hMem2 with ⟨c3, _, hMem3⟩
  rcases List.mem_flatMap.mp hMem3 with ⟨c4, hValue, hMem4⟩
  rcases List.mem_flatMap.mp hMem4 with ⟨c5, hEnd, hMem5⟩
  rcases List.mem_map.mp hValue with ⟨d, hD, rfl⟩
  have hLast : stop = c5 := List.mem_singleton.mp hMem5
  have hSame :
      c5 = { d with groups := (3, c3.upto d) :: d.groups } := by
    unfold atEnd at hEnd
    rw [run] at hEnd
    split at hEnd
    · exact List.mem_singleton.mp hEnd
    · cases hEnd
  rw [hLast, hSame] at hOnward ⊢
  have hInfix :=
    hOnward.groups_mem (3, c3.upto d) List.mem_cons_self
  refine ⟨c3.upto d, rfl, ?_, ?_⟩
  · rcases hInfix with hNone | hInfix
    · cases hNone
    · exact hInfix.subset
  · intro hNewline
    have hClass := upto_star_cls c3 d hD 10 hNewline
    cases hClass

end

---- Round Trip

section

theorem strip_printQuery (terms : List HuntTerm) :
    strip (printQuery terms) = printQuery terms := by
  unfold printQuery
  cases terms with
  | nil => rfl
  | cons t terms =>
      apply strip_of_tight
      apply tight_joinWith
      · simp
      · intro word hWord
        rcases List.mem_map.mp hWord with ⟨t, _, rfl⟩
        exact tight_shellQuote t.text

/- A pipe in a printed query is one in a value. -/
theorem bar_not_mem_printQuery
    {terms : List HuntTerm}
    (hTerms : ∀ t ∈ terms, t.Printable)
    (hValues : ∀ t ∈ terms, cp '|' ∉ t.value) :
    cp '|' ∉ printQuery terms := by
  intro hBar
  rcases mem_joinWith hBar with hSep | ⟨word, hWord, hIn⟩
  · revert hSep
    decide
  · rcases List.mem_map.mp hWord with ⟨t, hT, rfl⟩
    rcases mem_shellQuote hIn with hText | hQuote
    · have hTerm := hTerms t hT
      rcases List.mem_append.mp hText with hName | hValue
      · rcases List.mem_append.mp hName with hField | hSymbol
        · have hChar :=
            isFieldChar_of_mem hTerm.field_mem _ hField
          revert hChar
          decide
        · have hSymbols :
              ∀ symbol ∈ symOp.map Prod.fst,
                cp '|' ∉ symbol := by
            decide
          exact hSymbols _ hTerm.symbol_mem hSymbol
      · exact hValues t hT hValue
    · revert hQuote
      decide

variable [Unicode]

/- No membership is found: nothing is rewritten. -/
theorem sub_of_memberships_nil
    {search : Str}
    (hNone : memberships search = []) :
    inRe.sub inSub search = search := by
  apply sub_text
  intro m hM
  have hMember := List.filterMap_eq_nil_iff.mp hNone m hM
  unfold membership at hMember
  rw [Option.map_eq_none_iff] at hMember
  unfold inSub
  rw [hMember]
  rfl

theorem op_of_mem_memberships
    {search : Str} {cond : Condition}
    (hCond : cond ∈ memberships search) :
    cond.op = some .isIn := by
  rcases List.mem_filterMap.mp hCond with ⟨m, _, hMember⟩
  rcases Option.map_eq_some_iff.mp hMember with ⟨_, _, rfl⟩
  rfl

omit [Unicode] in
theorem tokensOf_printQuery (terms : List HuntTerm) :
    tokensOf (printQuery terms) = terms.map HuntTerm.text := by
  have hSplit := shellSplit_joinWith (terms.map HuntTerm.text)
  rw [List.map_map] at hSplit
  unfold tokensOf printQuery
  rw [show (fun t : HuntTerm => shellQuote t.text) =
    shellQuote ∘ HuntTerm.text from rfl, hSplit]
  rfl

omit [Unicode] in
theorem condition_op_ne_isIn
    {t : HuntTerm}
    (hTerm : t.Printable) :
    t.condition.op ≠ some .isIn := by
  have hSymbols :
      ∀ symbol ∈ symOp.map Prod.fst,
        lookup symbol symOp ≠ some .isIn := by
    decide
  exact hSymbols t.symbol hTerm.symbol_mem

/- The search of a query: what is before its first pipe. -/
def searchOf (q : Str) : Str :=
  ((splitOn (cp '|') q).map strip).headD []

omit [Unicode] in
theorem bar_not_mem_searchOf (q : Str) :
    cp '|' ∉ searchOf q := by
  unfold searchOf
  cases hSplit : splitOn (cp '|') q with
  | nil => exact List.not_mem_nil
  | cons segment rest =>
      have hSegment : cp '|' ∉ segment := by
        apply @not_mem_of_splitOn (cp '|') q
        rw [hSplit]
        exact List.mem_cons_self
      intro hBar
      exact hSegment (strip_subset segment hBar)

omit [Unicode] in
theorem tokensOf_forall
    {p : Nat → Prop}
    (hSlash : p (cp '\\')) {search : Str}
    (hText : ∀ c ∈ search, p c) :
    ∀ token ∈ tokensOf search, ∀ c ∈ token, p c := by
  unfold tokensOf
  cases hSplit : shellSplit search with
  | none => exact spaceSplit_forall hText
  | some words => exact shellSplit_forall hSlash hText hSplit

/- The conditions of a parse without memberships have values
without a pipe, since the search ends at the first, and
without a newline. -/
theorem value_of_parse
    {q : Str} {cond : Condition}
    (hNone : memberships (searchOf q) = [])
    (hCond : cond ∈ (parseQuery q).conditions) :
    ∃ value,
      cond.value = .str value ∧ cp '|' ∉ value ∧
      10 ∉ value := by
  have hConditions :
      (parseQuery q).conditions =
        memberships (searchOf q) ++
          (tokensOf (inRe.sub inSub (searchOf q))).filterMap
            parseTerm :=
    rfl
  rw [hConditions, hNone, List.nil_append,
    sub_of_memberships_nil hNone, List.mem_filterMap] at hCond
  rcases hCond with ⟨token, hToken, hParse⟩
  rcases parseTerm_value hParse with
    ⟨value, hValue, hSubset, hNewline⟩
  refine ⟨value, hValue, ?_, hNewline⟩
  intro hBar
  have hChars : ∀ c ∈ token, c ≠ cp '|' := by
    refine tokensOf_forall (by decide) ?_ token hToken
    intro c hC hIs
    exact bar_not_mem_searchOf q (hIs ▸ hC)
  exact hChars _ (hSubset hBar) rfl

/- The query gives back the conditions, and nothing else. -/
def ParsesBack (terms : List HuntTerm) : Prop :=
  parseQuery (printQuery terms) =
    { conditions := terms.map HuntTerm.condition
      freetext := []
      stats := none
      join := none }

/- No value has a pipe or a newline, and no text between
quotes reads as a membership. -/
def ReadAsPrinted (terms : List HuntTerm) : Prop :=
  (∀ t ∈ terms, cp '|' ∉ t.value ∧ 10 ∉ t.value) ∧
    memberships (printQuery terms) = []

/- Without pipes the whole query is the search. -/
theorem parseQuery_of_bar_not_mem
    {terms : List HuntTerm}
    (hBar : cp '|' ∉ printQuery terms)
    (hNone : memberships (printQuery terms) = []) :
    parseQuery (printQuery terms) =
      { conditions :=
          (terms.map HuntTerm.text).filterMap parseTerm
        freetext :=
          (terms.map HuntTerm.text).filter fun token =>
            (parseTerm token).isNone && !(strip token).isEmpty
        stats := none
        join := none } := by
  unfold parseQuery
  rw [splitOn_of_not_mem hBar]
  simp only [List.map_cons, List.map_nil, List.tail_cons,
    List.foldl_nil, List.headD_cons, strip_printQuery, hNone,
    sub_of_memberships_nil hNone, tokensOf_printQuery,
    List.nil_append]

/- Where a query gives back its conditions, it can be read as
it is printed. -/
theorem readAsPrinted_of_parsesBack
    {terms : List HuntTerm}
    (hTerms : ∀ t ∈ terms, t.Printable) (hBack : ParsesBack terms) :
    ReadAsPrinted terms := by
  have hConditions :
      (parseQuery (printQuery terms)).conditions =
        terms.map HuntTerm.condition :=
    congrArg ParsedQuery.conditions hBack
  have hSearch : memberships (searchOf (printQuery terms)) = [] := by
    rw [List.eq_nil_iff_forall_not_mem]
    intro cond hCond
    have hIn : cond ∈ (parseQuery (printQuery terms)).conditions :=
      List.mem_append_left _ hCond
    rw [hConditions] at hIn
    rcases List.mem_map.mp hIn with ⟨t, hT, rfl⟩
    exact condition_op_ne_isIn (hTerms t hT)
      (op_of_mem_memberships hCond)
  have hValues : ∀ t ∈ terms, cp '|' ∉ t.value ∧ 10 ∉ t.value := by
    intro t hT
    have hIn :
        t.condition ∈
          (parseQuery (printQuery terms)).conditions := by
      rw [hConditions]
      exact List.mem_map_of_mem hT
    rcases value_of_parse hSearch hIn with
      ⟨value, hValue, hPlain⟩
    cases hValue
    exact hPlain
  have hBar := bar_not_mem_printQuery hTerms
    fun t hT => (hValues t hT).1
  refine ⟨hValues, ?_⟩
  unfold searchOf at hSearch
  rw [splitOn_of_not_mem hBar] at hSearch
  rw [← strip_printQuery]
  exact hSearch

/- A printed query is read back exactly where no value has a
pipe or a newline and no quoted text reads as a membership. -/
theorem parseQuery_printQuery_iff
    (terms : List HuntTerm)
    (hTerms : ∀ t ∈ terms, t.Printable) :
    ParsesBack terms ↔ ReadAsPrinted terms := by
  constructor
  · exact readAsPrinted_of_parsesBack hTerms
  · rintro ⟨hValues, hNone⟩
    have hBar := bar_not_mem_printQuery hTerms
      fun t hT => (hValues t hT).1
    have hEach :
        ∀ t ∈ terms, parseTerm t.text = some t.condition :=
      fun t hT => parseTerm_text (hTerms t hT) (hValues t hT).2
    unfold ParsesBack
    rw [parseQuery_of_bar_not_mem hBar hNone]
    have hConditions :
        (terms.map HuntTerm.text).filterMap parseTerm =
          terms.map HuntTerm.condition := by
      rw [List.filterMap_map]
      exact (filterMap_eq_map_iff terms).mpr hEach
    have hFree :
        (terms.map HuntTerm.text).filter (fun token =>
          (parseTerm token).isNone &&
            !(strip token).isEmpty) = [] := by
      rw [List.filter_eq_nil_iff]
      intro token hToken
      rcases List.mem_map.mp hToken with ⟨t, hT, rfl⟩
      rw [hEach t hT]
      simp
    rw [hConditions, hFree]

end

---- Two Queries

local instance queryUnicode : Unicode := asciiTables

/- A regular expression over the raw line. -/
def rawTerm (pattern : Str) : HuntTerm where
  field := lit "raw"
  symbol := lit "~"
  value := pattern

theorem rawTerm_printable (pattern : Str) :
    (rawTerm pattern).Printable := by
  have hField : lit "raw" ∈ allFields := by
    rw [mem_allFields]
    decide
  have hSymbol : lit "~" ∈ symOp.map Prod.fst := by
    decide
  have hOther : ¬ (lit "~" = lit ">" ∨ lit "~" = lit "<") := by
    decide
  exact ⟨hField, hSymbol, fun hIs => absurd hIs hOther⟩

/- A pattern with a space and quotes is read back. -/
theorem quotes_read_back :
    ParsesBack [rawTerm (lit "OR '1'='1")] := by
  refine (parseQuery_printQuery_iff _ ?_).mpr ⟨?_, ?_⟩
  · intro t hT
    rw [List.mem_singleton.mp hT]
    exact rawTerm_printable _
  · decide
  · rfl

/- One with a pipe is cut at the pipe. -/
theorem pipe_cut :
    (rawTerm (lit "failed|denied")).Printable ∧
      ¬ ParsesBack [rawTerm (lit "failed|denied")] := by
  refine ⟨rawTerm_printable _, ?_⟩
  intro hBack
  have hTerms :
      ∀ t ∈ [rawTerm (lit "failed|denied")], t.Printable := by
    intro t hT
    rw [List.mem_singleton.mp hT]
    exact rawTerm_printable _
  have hRead := readAsPrinted_of_parsesBack hTerms hBack
  exact (hRead.1 _ List.mem_cons_self).1 (by decide)

end ThreatOrbit.Hunting
