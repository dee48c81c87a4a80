import ThreatOrbit.Lib.Caseless
import ThreatOrbit.Lib.Scanning

/-
  The redaction of raw log text before it is stored: secrets,
  e-mail addresses, card numbers and social security numbers
  are replaced, one category after another.
-/

---- Patterns

namespace ThreatOrbit.Redaction

open Lib
open Lib.Regex

section

/- `CATEGORIES`. -/
def categories : List Str :=
  [lit "email", lit "secret", lit "cc", lit "ssn"]

/- `[A-Za-z0-9]`. -/
def isAsciiAlnum (c : Nat) : Bool :=
  isAsciiLetter c || isDigit c

/- `[A-Za-z0-9._%+-]`. -/
def isLocal (c : Nat) : Bool :=
  isAsciiAlnum c || (lit "._%+-").contains c

/- `[A-Za-z0-9.-]`. -/
def isDomain (c : Nat) : Bool :=
  isAsciiAlnum c || (lit ".-").contains c

/- `[0-9A-Z]`. -/
def isKeyChar (c : Nat) : Bool :=
  isDigit c || (cp 'A' ≤ c && c ≤ cp 'Z')

/- `[^\s&,;"']`. -/
def isValueChar (c : Nat) : Bool :=
  !isSpace c && !(lit "&,;\"'").contains c

/- `[ -]`. -/
def isLink (c : Nat) : Bool :=
  c == cp ' ' || c == cp '-'

/- `[_-]?`. -/
def dashes : Regex :=
  opt (cls fun c => c == cp '_' || c == cp '-')

/- The credential-ish keys of `_SECRET`. -/
def keys : List Regex :=
  [wordI "password", wordI "passwd", wordI "pwd",
    wordI "secret", wordI "token",
    cat [wordI "api", dashes, wordI "key"], wordI "apikey",
    cat [wordI "access", dashes, wordI "key"],
    wordI "authorization", wordI "auth"]

/- `\s*[:=]\s*`. -/
def separator : Regex :=
  cat [star true (cls isSpace),
    cls fun c => c == cp ':' || c == cp '=',
    star true (cls isSpace)]

/- `(?:Bearer|Basic)\s+`. -/
def scheme : Regex :=
  cat [oneOf [wordI "Bearer", wordI "Basic"],
    plus (cls isSpace)]

variable [Unicode]

/- `_EMAIL`. -/
def email : Regex :=
  cat [wordBoundary, plus (cls isLocal), chr '@',
    group 1 (cat [plus (cls isDomain), chr '.',
      cls isAsciiLetter, plus (cls isAsciiLetter)]),
    wordBoundary]

/- `_SECRET`. -/
def secret : Regex :=
  cat [wordBoundary, group 1 (oneOf keys),
    group 2 separator, opt (group 3 scheme),
    group 4 (plus (cls isValueChar))]

/- `_AWS_KEY`. -/
def awsKey : Regex :=
  cat [wordBoundary, word "AKIA", times 16 (cls isKeyChar),
    wordBoundary]

/- `\d[ -]?`. -/
def digit : Regex :=
  .seq (cls isDecimal) (opt (cls isLink))

/- `_CC`. -/
def cc : Regex :=
  cat [wordBoundary, within digit 12 18, cls isDecimal,
    wordBoundary]

/- `_SSN`. -/
def ssn : Regex :=
  cat [wordBoundary, times 3 (cls isDecimal), chr '-',
    times 2 (cls isDecimal), chr '-',
    times 4 (cls isDecimal), wordBoundary]

end

---- Redaction

section

/- `_enabled_categories`, from the configured list. -/
def enabledCategories (logRedact : List Str) : List Str :=
  logRedact.filter categories.contains

/- One step of the sum of `_luhn_ok`. -/
def luhnAdd (total : Nat) (x : Nat × Nat) : Nat :=
  let n := (decimal x.1).getD 0
  let n :=
    if x.2 % 2 = 1 then
      if n * 2 > 9 then n * 2 - 9 else n * 2
    else n
  total + n

def luhnOk (digits : Str) : Bool :=
  digits.reverse.zipIdx.foldl luhnAdd 0 % 10 == 0

/- `re.sub(r"[ -]", "", text)`. -/
def digitsOf (text : Str) : Str :=
  text.filter fun c => !isLink c

/- Whether the digits of a match are a card number. -/
def cardDigits (digits : Str) : Bool :=
  13 ≤ digits.length && digits.length ≤ 19 && luhnOk digits

def redactCc (m : Match) : Str :=
  if cardDigits (digitsOf m.text) then lit "[CC-REDACTED]"
  else m.text

/- What the other patterns are replaced by. -/
def redactSecret (m : Match) : Str :=
  (m.group 1).getD [] ++ (m.group 2).getD [] ++
    lit "[REDACTED]"

def redactEmail (m : Match) : Str :=
  lit "[redacted]@" ++ (m.group 1).getD []

variable [Unicode]

/- `redact`, with the list that the configuration names. -/
def redact
    (logRedact : List Str)
    (text : Option Str)
    (chosen : Option (List Str)) : Option Str :=
  match text with
  | none => none
  | some [] => some []
  | some text =>
      let cats := chosen.getD (enabledCategories logRedact)
      if cats = [] then some text
      else
        let text :=
          if cats.contains (lit "secret") then
            awsKey.sub (fun _ => lit "[AWS-KEY-REDACTED]")
              (secret.sub redactSecret text)
          else text
        let text :=
          if cats.contains (lit "email") then
            email.sub redactEmail text
          else text
        let text :=
          if cats.contains (lit "cc") then
            cc.sub redactCc text
          else text
        let text :=
          if cats.contains (lit "ssn") then
            ssn.sub (fun _ => lit "[SSN-REDACTED]") text
          else text
        some text

end

---- Card Texts

section

/- Digits with at most a space or dash between two. -/
def linked : Str → Bool
| [] => false
| [x] => isDecimal x
| x :: y :: rest =>
    isDecimal x &&
      (linked (y :: rest) || (isLink y && linked rest))

/- The texts that `_CC` matches, but for what is around them. -/
def CardText (w : Str) : Prop :=
  linked w = true ∧ 13 ≤ (digitsOf w).length ∧
    (digitsOf w).length ≤ 19

variable [Unicode]

/- Whether a text begins with a word character. -/
def wordAt (s : Str) : Bool :=
  (s.head?.map isWord).getD false

/- What `_CC` takes at a place: the longest card text there
that no word character touches. -/
def TakesCard (before w rest : Str) : Prop :=
  (CardText w ∧ wordAt before = false ∧
      wordAt rest = false) ∧
    ∀ v after, w ++ rest = v ++ after → CardText v →
      wordAt after = false → v.length ≤ w.length

end

---- The Matches Of A Card

section

/- `str.isalnum` holds of the decimal digits. -/
class DecimalsAlnum [Unicode] : Prop where
  isAlnum_decimal :
    ∀ c, isDecimal c = true → Unicode.isAlnum c = true

theorem not_link_of_decimal
    {x : Nat}
    (hX : isDecimal x = true) :
    isLink x = false := by
  unfold isLink
  rw [Bool.or_eq_false_iff, beq_eq_false_iff_ne,
    beq_eq_false_iff_ne]
  constructor
  · rintro rfl
    exact absurd hX (by decide)
  · rintro rfl
    exact absurd hX (by decide)

theorem linked_cons
    (x : Nat) (w : Str) :
    linked (x :: w) = true ↔
      isDecimal x = true ∧
        (w = [] ∨ linked w = true ∨
          ∃ y v, w = y :: v ∧ isLink y = true ∧
            linked v = true) := by
  cases w with
  | nil => simp [linked]
  | cons y v => simp [linked]

theorem digitsOf_digit
    {x : Nat}
    (hX : isDecimal x = true) (w : Str) :
    digitsOf (x :: w) = x :: digitsOf w := by
  unfold digitsOf
  rw [List.filter_cons_of_pos]
  simp [not_link_of_decimal hX]

theorem digitsOf_link
    {x : Nat}
    (hX : isLink x = true) (w : Str) :
    digitsOf (x :: w) = digitsOf w := by
  unfold digitsOf
  rw [List.filter_cons_of_neg]
  simp [hX]

/- A text begins with a digit, or with none. -/
theorem digit_or_none (s : Str) :
    (∃ x rest, s = x :: rest ∧ isDecimal x = true) ∨
      ∀ x rest, s = x :: rest → isDecimal x = false := by
  cases s with
  | nil => exact .inr (by simp)
  | cons x rest =>
      cases hX : isDecimal x with
      | false =>
          refine .inr ?_
          intro y more hSplit
          cases hSplit
          exact hX
      | true => exact .inl ⟨x, rest, rfl, hX⟩

/- Linked digits begin with one. -/
theorem digit_of_linked
    {w : Str}
    (hLinked : linked w = true) :
    ∃ x v, w = x :: v ∧ isDecimal x = true ∧
      digitsOf w = x :: digitsOf v := by
  cases w with
  | nil => cases hLinked
  | cons x v =>
      have hX := ((linked_cons x v).mp hLinked).1
      exact ⟨x, v, rfl, hX, digitsOf_digit hX v⟩

variable [Unicode]

/- `\d\b`. -/
def cardEnd : Regex :=
  cat [cls isDecimal, wordBoundary]

/- `(?:\d[ -]?){lo,hi}\d\b`. -/
def reach (lo hi : Nat) (c : Cursor) : List Cursor :=
  ((within digit lo hi).run c).flatMap cardEnd.run

theorem run_cc (c : Cursor) :
    cc.run c = (wordBoundary.run c).flatMap (reach 12 18) :=
  rfl

theorem reach_zero
    (lo : Nat) (c : Cursor) :
    reach lo 0 c = cardEnd.run c := by
  cases lo with
  | zero => exact List.flatMap_singleton _ _
  | succ lo => exact List.flatMap_singleton _ _

theorem reach_more
    (lo hi : Nat) (c : Cursor) :
    reach (lo + 1) (hi + 1) c =
      (digit.run c).flatMap (reach lo hi) := by
  unfold reach
  rw [within, run, List.flatMap_assoc]

theorem reach_enough
    (hi : Nat) (c : Cursor) :
    reach 0 (hi + 1) c =
      (digit.run c).flatMap (reach 0 hi) ++
        cardEnd.run c := by
  simp only [reach, within, opt, run, List.flatMap_append,
    List.flatMap_assoc, List.flatMap_singleton]
  rfl

/- Where no digit is, no card goes on. -/
theorem reach_nil
    (lo hi : Nat) {before after : Str} {groups : List (Nat × Str)}
    (hNone : ∀ x rest, after = x :: rest → isDecimal x = false) :
    reach lo hi ⟨before, after, groups⟩ = [] := by
  have hCls : (cls isDecimal).run ⟨before, after, groups⟩ = [] := by
    cases after with
    | nil => rfl
    | cons x rest =>
        rw [run]
        dsimp only
        rw [hNone x rest rfl]
        rfl
  have hDigit : digit.run ⟨before, after, groups⟩ = [] :=
    run_seq_nil hCls
  have hEnd : cardEnd.run ⟨before, after, groups⟩ = [] :=
    run_seq_nil hCls
  cases hi with
  | zero => rw [reach_zero, hEnd]
  | succ hi =>
      cases lo with
      | zero => rw [reach_enough, hDigit, hEnd]; rfl
      | succ lo => rw [reach_more, hDigit]; rfl

/- A digit, and a link if there is one. -/
theorem flatMap_digit
    (lo hi : Nat)
    {before after : Str} {x : Nat} {groups : List (Nat × Str)}
    (hX : isDecimal x = true) :
    (digit.run ⟨before, x :: after, groups⟩).flatMap
        (reach lo hi) =
      match after with
      | [] => []
      | y :: rest =>
          if isLink y then
            reach lo hi ⟨y :: x :: before, rest, groups⟩
          else
            reach lo hi ⟨x :: before, y :: rest, groups⟩ := by
  unfold digit opt
  rw [run, run]
  dsimp only
  rw [if_pos hX, List.flatMap_singleton, run, run, run]
  cases after with
  | nil =>
      dsimp only
      rw [List.nil_append, List.flatMap_singleton]
      exact reach_nil lo hi (by simp)
  | cons y rest =>
      dsimp only
      cases hY : isLink y with
      | false =>
          rw [if_neg (by simp), if_neg (by simp),
            List.nil_append, List.flatMap_singleton]
      | true =>
          have hDead :
              reach lo hi
                  ⟨x :: before, y :: rest, groups⟩ = [] := by
            apply reach_nil
            intro z more hSplit
            cases hSplit
            cases hZ : isDecimal y with
            | false => rfl
            | true =>
                rw [not_link_of_decimal hZ] at hY
                cases hY
          simp [hDead]

/- A step to the next digit, over a link if there is one. -/
theorem mem_flatMap_digit
    {lo hi : Nat} {before after : Str} {x : Nat}
    {groups : List (Nat × Str)} {stop : Cursor}
    (hX : isDecimal x = true) :
    stop ∈ (digit.run ⟨before, x :: after, groups⟩).flatMap
        (reach lo hi) ↔
      (∃ y rest, after = y :: rest ∧ isLink y = true ∧
          stop ∈
            reach lo hi ⟨y :: x :: before, rest, groups⟩) ∨
        stop ∈ reach lo hi ⟨x :: before, after, groups⟩ := by
  rw [flatMap_digit lo hi hX]
  cases after with
  | nil =>
      rw [reach_nil lo hi (by simp)]
      simp
  | cons y rest =>
      dsimp only
      cases hY : isLink y with
      | false =>
          rw [if_neg (by simp)]
          constructor
          · exact .inr
          · rintro (⟨z, more, hSplit, hZ, _⟩ | hHere)
            · cases hSplit
              rw [hY] at hZ
              cases hZ
            · exact hHere
      | true =>
          rw [if_pos rfl]
          constructor
          · exact fun hNext => .inl ⟨y, rest, rfl, hY, hNext⟩
          · rintro (⟨z, more, hSplit, _, hNext⟩ | hHere)
            · cases hSplit
              exact hNext
            · rw [reach_nil] at hHere
              · cases hHere
              · intro z more hSplit
                cases hSplit
                cases hZ : isDecimal y with
                | false => rfl
                | true =>
                    rw [not_link_of_decimal hZ] at hY
                    cases hY

/- Where the texts of a number of digits end. -/
def CardStop
    (lo hi : Nat)
    (c stop : Cursor) : Prop :=
  ∃ w rest, c.after = w ++ rest ∧
    stop = ⟨w.reverse ++ c.before, rest, c.groups⟩ ∧
    linked w = true ∧ lo < (digitsOf w).length ∧
    (digitsOf w).length ≤ hi ∧ wordAt rest = false

theorem not_cardStop
    {lo hi : Nat} {before after : Str} {groups : List (Nat × Str)}
    {stop : Cursor}
    (hNone : ∀ x rest, after = x :: rest → isDecimal x = false) :
    ¬ CardStop lo hi ⟨before, after, groups⟩ stop := by
  rintro ⟨w, rest, hSplit, _, hLinked, _⟩
  rcases digit_of_linked hLinked with ⟨x, v, rfl, hX, _⟩
  rw [hNone x (v ++ rest) hSplit] at hX
  cases hX

/- The first digit of such a text, and what comes after it. -/
theorem cardStop_cons
    {lo hi : Nat} {before after : Str} {x : Nat}
    {groups : List (Nat × Str)} {stop : Cursor}
    (hX : isDecimal x = true) :
    CardStop lo (hi + 1) ⟨before, x :: after, groups⟩ stop ↔
      (lo = 0 ∧ wordAt after = false ∧
          stop = ⟨x :: before, after, groups⟩) ∨
        (∃ y rest, after = y :: rest ∧ isLink y = true ∧
          CardStop (lo - 1) hi
            ⟨y :: x :: before, rest, groups⟩ stop) ∨
        CardStop (lo - 1) hi ⟨x :: before, after, groups⟩
          stop := by
  constructor
  · rintro ⟨w, rest, hSplit, rfl, hLinked, hLow, hHigh, hEnd⟩
    dsimp only at hSplit
    cases w with
    | nil => cases hLinked
    | cons x' w =>
        rw [List.cons_append, List.cons.injEq] at hSplit
        rcases hSplit with ⟨rfl, rfl⟩
        rw [digitsOf_digit hX, List.length_cons] at hLow hHigh
        rcases ((linked_cons x w).mp hLinked).2 with
          rfl | hMore | ⟨y, v, rfl, hY, hMore⟩
        · have hZero : lo = 0 := by
            rw [show digitsOf [] = [] from rfl,
              List.length_nil] at hLow
            omega
          exact .inl ⟨hZero, hEnd, rfl⟩
        · rcases digit_of_linked hMore with ⟨_, _, _, _, hOne⟩
          refine .inr (.inr ⟨w, rest, rfl, ?_, hMore, ?_,
            by omega, hEnd⟩)
          · rw [List.reverse_cons, List.append_assoc]
            rfl
          · rw [hOne, List.length_cons] at hLow ⊢
            omega
        · rcases digit_of_linked hMore with ⟨_, _, _, _, hOne⟩
          rw [digitsOf_link hY] at hLow hHigh
          refine .inr (.inl ⟨y, v ++ rest, rfl, hY, v, rest,
            rfl, ?_, hMore, ?_, by omega, hEnd⟩)
          · simp
          · rw [hOne, List.length_cons] at hLow ⊢
            omega
  · rintro (⟨rfl, hEnd, rfl⟩ | ⟨y, rest, rfl, hY, hNext⟩ |
      hNext)
    · refine ⟨[x], after, rfl, rfl, hX, ?_, ?_, hEnd⟩
      · rw [digitsOf_digit hX, List.length_cons]
        omega
      · rw [digitsOf_digit hX]
        simp [digitsOf]
    · rcases hNext with
        ⟨w, rest', rfl, rfl, hLinked, hLow, hHigh, hEnd⟩
      refine ⟨x :: y :: w, rest', rfl, ?_, ?_, ?_, ?_, hEnd⟩
      · simp
      · exact (linked_cons x (y :: w)).mpr
          ⟨hX, .inr (.inr ⟨y, w, rfl, hY, hLinked⟩)⟩
      · rw [digitsOf_digit hX, digitsOf_link hY,
          List.length_cons]
        omega
      · rw [digitsOf_digit hX, digitsOf_link hY,
          List.length_cons]
        omega
    · rcases hNext with
        ⟨w, rest', hSplit, rfl, hLinked, hLow, hHigh, hEnd⟩
      dsimp only at hSplit
      subst hSplit
      refine ⟨x :: w, rest', rfl, ?_, ?_, ?_, ?_, hEnd⟩
      · simp
      · exact (linked_cons x w).mpr ⟨hX, .inr (.inl hLinked)⟩
      · rw [digitsOf_digit hX, List.length_cons]
        omega
      · rw [digitsOf_digit hX, List.length_cons]
        omega

variable [DecimalsAlnum]

theorem isWord_of_decimal
    {x : Nat}
    (hX : isDecimal x = true) :
    isWord x = true := by
  unfold isWord
  rw [DecimalsAlnum.isAlnum_decimal x hX]
  rfl

theorem run_cardEnd
    {before after : Str} {x : Nat} {groups : List (Nat × Str)}
    (hX : isDecimal x = true) :
    cardEnd.run ⟨before, x :: after, groups⟩ =
      if wordAt after then []
      else [⟨x :: before, after, groups⟩] := by
  have hWord := isWord_of_decimal hX
  unfold cardEnd
  rw [cat, run, run]
  dsimp only
  rw [if_pos hX, List.flatMap_singleton, cat, run,
    wordBoundary, run]
  dsimp only
  rw [List.head?_cons, Option.map_some, Option.getD_some,
    hWord]
  unfold wordAt
  cases (after.head?.map isWord).getD false with
  | false => rfl
  | true => rfl

/- The texts that a number of digits take at a place. -/
theorem mem_reach
    {lo hi : Nat}
    (hLe : lo ≤ hi) {c stop : Cursor} :
    stop ∈ reach lo hi c ↔ CardStop lo (hi + 1) c stop := by
  induction hi generalizing lo c with
  | zero =>
      rcases c with ⟨before, after, groups⟩
      cases Nat.le_zero.mp hLe
      rcases digit_or_none after with
        ⟨x, rest, rfl, hX⟩ | hNone
      · have hNoMore (d : Cursor) :
            ¬ CardStop 0 0 d stop := by
          rintro ⟨w, _, _, _, _, hLow, hHigh, _⟩
          omega
        rw [reach_zero, run_cardEnd hX, cardStop_cons hX]
        cases wordAt rest with
        | false => simp [hNoMore]
        | true => simp [hNoMore]
      · rw [reach_nil 0 0 hNone]
        exact iff_of_false (by simp) (not_cardStop hNone)
  | succ hi ih =>
      rcases c with ⟨before, after, groups⟩
      rcases digit_or_none after with
        ⟨x, rest, rfl, hX⟩ | hNone
      · cases lo with
        | zero =>
            rw [reach_enough, List.mem_append,
              mem_flatMap_digit hX, run_cardEnd hX,
              cardStop_cons hX]
            simp only [ih (Nat.zero_le hi)]
            cases wordAt rest with
            | false => simp [or_comm]
            | true => simp
        | succ lo =>
            rw [reach_more, mem_flatMap_digit hX,
              cardStop_cons hX]
            simp only [ih (Nat.le_of_succ_le_succ hLe)]
            simp
      · rw [reach_nil lo (hi + 1) hNone]
        exact iff_of_false (by simp) (not_cardStop hNone)

theorem after_lt_of_mem_reach
    {lo hi : Nat}
    (hLe : lo ≤ hi) {c stop : Cursor}
    (hMem : stop ∈ reach lo hi c) :
    stop.after.length < c.after.length := by
  rcases (mem_reach hLe).mp hMem with
    ⟨w, rest, hSplit, rfl, hLinked, _⟩
  rcases digit_of_linked hLinked with ⟨x, v, rfl, _⟩
  rw [hSplit, List.length_append, List.length_cons]
  dsimp only
  omega

/- The longer texts are tried first. -/
theorem reach_sorted
    {lo hi : Nat}
    (hLe : lo ≤ hi) (c : Cursor) :
    (reach lo hi c).Pairwise fun d e =>
      d.after.length < e.after.length := by
  have hEnd (c : Cursor) :
      (cardEnd.run c).Pairwise fun d e =>
        d.after.length < e.after.length := by
    rcases c with ⟨before, after, groups⟩
    rw [← reach_zero 0]
    rcases digit_or_none after with
      ⟨x, rest, rfl, hX⟩ | hNone
    · rw [reach_zero, run_cardEnd hX]
      split
      · exact .nil
      · exact List.pairwise_singleton _ _
    · rw [reach_nil 0 0 hNone]
      exact .nil
  induction hi generalizing lo c with
  | zero =>
      rw [reach_zero]
      exact hEnd c
  | succ hi ih =>
      rcases c with ⟨before, after, groups⟩
      rcases digit_or_none after with
        ⟨x, rest, rfl, hX⟩ | hNone
      · have hStep (lo : Nat) (hLo : lo ≤ hi) :
            ((digit.run ⟨before, x :: rest, groups⟩).flatMap
                (reach lo hi)).Pairwise fun d e =>
              d.after.length < e.after.length := by
          rw [flatMap_digit lo hi hX]
          cases rest with
          | nil => exact .nil
          | cons y rest =>
              dsimp only
              split
              · exact ih hLo _
              · exact ih hLo _
        cases lo with
        | zero =>
            rw [reach_enough, List.pairwise_append]
            refine ⟨hStep 0 (Nat.zero_le hi), hEnd _, ?_⟩
            intro d hD e hE
            rw [run_cardEnd hX] at hE
            have hLess : d.after.length < rest.length := by
              rcases (mem_flatMap_digit hX).mp hD with
                ⟨y, more, rfl, _, hNext⟩ | hNext
              · have hShort := after_lt_of_mem_reach
                  (Nat.zero_le hi) hNext
                rw [List.length_cons]
                dsimp only at hShort
                omega
              · exact after_lt_of_mem_reach
                  (Nat.zero_le hi) hNext
            split at hE
            · cases hE
            · rw [List.mem_singleton.mp hE]
              exact hLess
        | succ lo =>
            rw [reach_more]
            exact hStep lo (Nat.le_of_succ_le_succ hLe)
      · rw [reach_nil lo (hi + 1) hNone]
        exact .nil

end

---- What The Card Pattern Takes

section

variable [Unicode]
variable [DecimalsAlnum]

/- The boundary before a card. -/
theorem run_cc_of_not_word
    {before after : Str}
    (hBefore : wordAt before = false) :
    cc.run ⟨before, after, []⟩ =
      reach 12 18 ⟨before, after, []⟩ := by
  rw [run_cc, wordBoundary, run]
  dsimp only
  rcases digit_or_none after with ⟨x, rest, rfl, hX⟩ | hNone
  · have hWord : wordAt (x :: rest) = true :=
      isWord_of_decimal hX
    unfold wordAt at hBefore hWord
    rw [hBefore, hWord]
    exact List.flatMap_singleton _ _
  · rw [reach_nil 12 18 hNone]
    split
    · rw [List.flatMap_singleton, reach_nil 12 18 hNone]
    · rfl

theorem run_cc_of_word
    {before after : Str}
    (hBefore : wordAt before = true) :
    cc.run ⟨before, after, []⟩ = [] := by
  rw [run_cc, wordBoundary, run]
  dsimp only
  rcases digit_or_none after with ⟨x, rest, rfl, hX⟩ | hNone
  · have hWord : wordAt (x :: rest) = true :=
      isWord_of_decimal hX
    unfold wordAt at hBefore hWord
    rw [hBefore, hWord]
    rfl
  · split
    · rw [List.flatMap_singleton, reach_nil 12 18 hNone]
    · rfl

/- The pattern takes the longest card text at a place. -/
theorem takes_cc : cc.Takes TakesCard := by
  have hLe : 12 ≤ 18 := by decide
  constructor
  · intro before after stop hHead
    cases hBefore : wordAt before with
    | true =>
        rw [run_cc_of_word hBefore] at hHead
        cases hHead
    | false =>
        rw [run_cc_of_not_word hBefore] at hHead
        have hLeast := least_of_head? (reach_sorted hLe _) hHead
        rcases (mem_reach hLe).mp (List.mem_of_head? hHead)
          with ⟨w, rest, rfl, rfl, hLinked, hLow, hHigh, hEnd⟩
        refine ⟨w, ?_, rfl, rfl,
          ⟨⟨⟨hLinked, hLow, hHigh⟩, hBefore, hEnd⟩, ?_⟩⟩
        · rintro rfl
          cases hLinked
        · intro v after hSplit hCard hAfter
          have hShort : rest.length ≤ after.length :=
            hLeast _ ((mem_reach hLe).mpr
              ⟨v, after, hSplit, rfl, hCard.1, hCard.2.1,
                hCard.2.2, hAfter⟩)
          have hLengths := congrArg List.length hSplit
          simp only [List.length_append] at hLengths
          omega
  · rintro before w rest ⟨⟨hCard, hBefore, hEnd⟩, hLongest⟩
    refine ⟨⟨w.reverse ++ before, rest, []⟩, ?_, rfl⟩
    rw [run_cc_of_not_word hBefore]
    apply head?_of_sorted (reach_sorted hLe _)
    · exact (mem_reach hLe).mpr ⟨w, rest, rfl, rfl, hCard.1,
        hCard.2.1, hCard.2.2, hEnd⟩
    · intro stop hStop
      rcases (mem_reach hLe).mp hStop with
        ⟨v, after, hSplit, rfl, hLinked, hLow, hHigh, hAfter⟩
      have hLength := hLongest v after hSplit
        ⟨hLinked, hLow, hHigh⟩ hAfter
      have hLengths : w.length + rest.length =
          v.length + after.length := by
        rw [← List.length_append, ← List.length_append]
        exact congrArg List.length hSplit
      show rest.length ≤ after.length
      omega

end

---- Card Numbers

section

/- A card number, written without gaps. -/
structure CardNumber (d : Str) : Prop where
  decimals : ∀ x ∈ d, isDecimal x = true
  length_ge : 13 ≤ d.length
  length_le : d.length ≤ 19
  luhn : luhnOk d = true

/- What a match of `_CC` is replaced by, if it is. -/
def cardMask (m : Match) : Option Str :=
  if cardDigits (digitsOf m.text) then
    some (lit "[CC-REDACTED]")
  else none

theorem redactCc_eq (m : Match) :
    redactCc m = (cardMask m).getD m.text := by
  unfold redactCc cardMask
  split
  · rfl
  · rfl

theorem linked_of_decimals
    {d : Str}
    (hDigits : ∀ x ∈ d, isDecimal x = true) (hMore : d ≠ []) :
    linked d = true := by
  induction d with
  | nil => exact absurd rfl hMore
  | cons x rest ih =>
      rw [List.forall_mem_cons] at hDigits
      refine (linked_cons x rest).mpr ⟨hDigits.1, ?_⟩
      cases rest with
      | nil => exact .inl rfl
      | cons y rest =>
          exact .inr (.inl (ih hDigits.2 (by simp)))

theorem digitsOf_decimals
    {d : Str}
    (hDigits : ∀ x ∈ d, isDecimal x = true) :
    digitsOf d = d := by
  unfold digitsOf
  rw [List.filter_eq_self]
  intro x hX
  rw [not_link_of_decimal (hDigits x hX)]
  rfl

theorem CardNumber.cardText
    {d : Str}
    (hCard : CardNumber d) :
    CardText d := by
  have hMore : d ≠ [] := by
    rintro rfl
    exact absurd hCard.length_ge (by decide)
  refine ⟨linked_of_decimals hCard.decimals hMore, ?_, ?_⟩
  · rw [digitsOf_decimals hCard.decimals]
    exact hCard.length_ge
  · rw [digitsOf_decimals hCard.decimals]
    exact hCard.length_le

variable [Unicode]

/- The text with its card numbers masked, each character
with the place it is copied from. -/
def maskedCards (text : Str) : List (Nat × Option Nat) :=
  cc.subOrigins cardMask text

/- No digit of a word between two texts comes through. -/
def DigitsGone (p d q : Str) : Prop :=
  ∀ i, p.length ≤ i → i < p.length + d.length →
    ∀ c, (c, some i) ∉ maskedCards (p ++ (d ++ q))

/- The stretch of linked digits around a word, as the text is
read from left to right, is a card number as a whole. -/
def StretchPasses (p d q : Str) : Prop :=
  ∃ before w rest,
    Arrives TakesCard (p ++ (d ++ q)) before (w ++ rest) ∧
      TakesCard before w rest ∧
      before.length ≤ p.length ∧
      p.length + d.length ≤ before.length + w.length ∧
      luhnOk (digitsOf w) = true

theorem redact_cc
    (logRedact : List Str) {text : Str} (hText : text ≠ []) :
    redact logRedact (some text) (some [lit "cc"]) =
      some ((maskedCards text).map Prod.fst) := by
  have hSub :
      (maskedCards text).map Prod.fst =
        cc.sub redactCc text := by
    unfold maskedCards
    rw [subOrigins_text, ← funext redactCc_eq]
  rw [hSub]
  cases text with
  | nil => exact absurd rfl hText
  | cons x rest => rfl

variable [DecimalsAlnum]

/- A text that is taken around the first digit of a word
holds the whole word. -/
theorem holds_word
    {p d q before w rest : Str}
    (hDigits : ∀ x ∈ d, isDecimal x = true)
    (hText : before.reverse ++ (w ++ rest) = p ++ (d ++ q))
    (hTake : TakesCard before w rest)
    (hInside : p.length < before.length + w.length) :
    p.length + d.length ≤ before.length + w.length := by
  by_contra hNot
  have hAt :
      (p ++ (d ++ q)).drop (before.length + w.length) =
        rest := by
    rw [← hText, ← List.append_assoc]
    apply List.drop_left'
    simp
  rw [← List.append_assoc, List.drop_append_of_le_length
    (by rw [List.length_append]; omega),
    List.drop_append, List.drop_eq_nil_of_le (by omega),
    List.nil_append] at hAt
  have hEnd := hTake.1.2.2
  rw [← hAt] at hEnd
  cases hDrop : d.drop (before.length + w.length - p.length)
    with
  | nil =>
      have := List.drop_eq_nil_iff.mp hDrop
      omega
  | cons x more =>
      have hX : x ∈ d := by
        apply List.mem_of_mem_drop
        rw [hDrop]
        exact List.mem_cons_self
      rw [hDrop] at hEnd
      have hWord : wordAt (x :: more ++ q) = true :=
        isWord_of_decimal (hDigits x hX)
      rw [hWord] at hEnd
      cases hEnd

end

---- Redaction Of Card Numbers

section

variable [Unicode]
variable [DecimalsAlnum]

/- Every card number lies in a stretch that is read. -/
theorem card_in_stretch
    {p d q : Str}
    (hCard : CardNumber d) (hBefore : wordAt p.reverse = false)
    (hAfter : wordAt q = false) :
    ∃ before w rest,
      Arrives TakesCard (p ++ (d ++ q)) before (w ++ rest) ∧
        TakesCard before w rest ∧
        before.length ≤ p.length ∧
        p.length + d.length ≤ before.length + w.length := by
  have hAt :
      CardStop 12 19 ⟨p.reverse, d ++ q, []⟩
        ⟨d.reverse ++ p.reverse, q, []⟩ :=
    ⟨d, q, rfl, rfl, hCard.cardText.1, hCard.cardText.2.1,
      hCard.cardText.2.2, hAfter⟩
  have hMem := (mem_reach (by decide)).mpr hAt
  rw [← run_cc_of_not_word hBefore] at hMem
  cases hHead :
      (cc.run ⟨p.reverse, d ++ q, []⟩).head? with
  | none =>
      rw [List.head?_eq_none_iff.mp hHead] at hMem
      cases hMem
  | some stop =>
      rcases takes_cc.sound _ _ _ hHead with
        ⟨v, _, hSplit, _, hTake⟩
      have hNonempty : ∀ b v a, TakesCard b v a → v ≠ [] := by
        rintro b v a hT rfl
        exact absurd hT.1.1.1 (by decide)
      rcases exists_cover hNonempty hTake with
        ⟨before, w, rest, hHere, hT, hLow, hHigh⟩
      rw [List.reverse_reverse, ← hSplit] at hHere
      rw [List.length_reverse] at hLow hHigh
      exact ⟨before, w, rest, hHere, hT, hLow,
        holds_word hCard.decimals hHere.text hT hHigh⟩

/- The digits of a card number are gone exactly where the
stretch around it is a card number as a whole. -/
theorem digitsGone_iff
    {p d q : Str}
    (hCard : CardNumber d) :
    DigitsGone p d q ↔ StretchPasses p d q := by
  have hPos : 13 ≤ d.length := hCard.length_ge
  constructor
  · intro hGone
    have hFirst :
        ¬ ∃ c, (c, some p.length) ∈
          maskedCards (p ++ (d ++ q)) := by
      rintro ⟨c, hC⟩
      exact hGone p.length (le_refl _) (by omega) c hC
    unfold maskedCards at hFirst
    rw [mem_subOrigins] at hFirst
    push Not at hFirst
    rcases hFirst (by simp; omega) with
      ⟨m, hM, hMask, hStart, hStop⟩
    rcases arrives_of_mem_findIter takes_cc hM with
      ⟨before, w, hHere, hTake, hFrom⟩
    have hText := hHere.text
    have hLengths := congrArg List.length hText
    rw [hFrom] at hStart
    simp only [List.length_append, List.length_reverse]
      at hLengths hStart hStop
    have hHolds := holds_word hCard.decimals hText hTake
      (by omega)
    refine ⟨before, w, m.stop.after, hHere, hTake, by omega,
      hHolds, ?_⟩
    have hWord : m.text = w := by
      unfold Match.text
      apply Cursor.upto_append
      rw [hFrom]
    unfold cardMask at hMask
    rw [hWord] at hMask
    cases hDigits : cardDigits (digitsOf w) with
    | false =>
        rw [hDigits] at hMask
        cases hMask
    | true =>
        unfold cardDigits at hDigits
        rw [Bool.and_eq_true] at hDigits
        exact hDigits.2
  · rintro ⟨before, w, rest, hHere, hTake, hLow, hHigh, hLuhn⟩
    rcases mem_findIter_of_arrives takes_cc hHere hTake with
      ⟨m, hM, hStart, hStop⟩
    have hLengths := congrArg List.length hHere.text
    have hWord : m.text = w := by
      unfold Match.text
      apply Cursor.upto_append
      rw [hStart, hStop]
    have hMask : (cardMask m).isSome := by
      unfold cardMask cardDigits
      rw [hWord, hLuhn]
      have hMin := hTake.1.1.2.1
      have hMax := hTake.1.1.2.2
      simp [hMin, hMax]
    intro i hFrom hTo c hC
    have hKept := (mem_subOrigins.mp ⟨c, hC⟩).2 m hM hMask
    rw [hStart, hStop] at hKept
    simp only [List.length_append, List.length_reverse]
      at hLengths hKept
    omega

/- With the category `cc` alone the characters that come
through are the result, and the digits of a card number are
gone exactly where the stretch of digits around it, which
spaces and dashes may link to it, passes the test as a
whole. -/
theorem redact_cc_iff
    (logRedact : List Str)
    (p q : Str)
    {d : Str}
    (hCard : CardNumber d) :
    redact logRedact (some (p ++ (d ++ q)))
        (some [lit "cc"]) =
      some ((maskedCards (p ++ (d ++ q))).map Prod.fst) ∧
    (DigitsGone p d q ↔ StretchPasses p d q) := by
  refine ⟨redact_cc logRedact ?_, digitsGone_iff hCard⟩
  intro hNil
  have hPos := hCard.length_ge
  have hLength := congrArg List.length hNil
  simp only [List.length_append, List.length_nil] at hLength
  omega

omit [Unicode] [DecimalsAlnum] in
/- What a character of linked digits has around it. -/
theorem around_of_linked
    {a b : Str} {x : Nat}
    (hLinked : linked (a ++ x :: b) = true)
    (hX : isDecimal x = false) :
    (∃ a' y, a = a' ++ [y] ∧ isDecimal y = true) ∧
      isLink x = true ∧
      ∃ z b', b = z :: b' ∧ isDecimal z = true := by
  cases a with
  | nil =>
      rw [List.nil_append, linked_cons, hX] at hLinked
      cases hLinked.1
  | cons u a =>
      rw [List.cons_append, linked_cons] at hLinked
      rcases hLinked with ⟨hU, hNil | hMore |
        ⟨y, v, hSplit, hY, hMore⟩⟩
      · exact absurd hNil (by simp)
      · rcases around_of_linked hMore hX with
          ⟨⟨a', y, rfl, hY⟩, hRest⟩
        exact ⟨⟨u :: a', y, rfl, hY⟩, hRest⟩
      · cases a with
        | nil =>
            cases hSplit
            rcases digit_of_linked hMore with ⟨z, b', rfl, hZ, _⟩
            exact ⟨⟨[], u, rfl, hU⟩, hY, z, b', rfl, hZ⟩
        | cons s a =>
            rw [List.cons_append, List.cons.injEq] at hSplit
            rcases hSplit with ⟨rfl, rfl⟩
            rcases around_of_linked hMore hX with
              ⟨⟨a', y, rfl, hY⟩, hRest⟩
            exact ⟨⟨u :: s :: a', y, rfl, hY⟩, hRest⟩
termination_by a.length

/- A card number with no digit group linked to it is gone. -/
theorem isolated_card_gone
    {p d q : Str}
    (hCard : CardNumber d) (hBefore : wordAt p.reverse = false)
    (hAfter : wordAt q = false)
    (hFirst :
      ∀ p' y x, p = p' ++ [y, x] → isDecimal y = true →
        isLink x = false)
    (hLast :
      ∀ x z q', q = x :: z :: q' → isLink x = true →
        isDecimal z = false) :
    DigitsGone p d q := by
  rw [digitsGone_iff hCard]
  rcases card_in_stretch hCard hBefore hAfter with
    ⟨before, w, rest, hHere, hTake, hLow, hHigh⟩
  refine ⟨before, w, rest, hHere, hTake, hLow, hHigh, ?_⟩
  have hNotWord
      {x : Nat}
      (hX : isWord x = false) :
      isDecimal x = false := by
    cases hDigit : isDecimal x with
    | false => rfl
    | true =>
        rw [isWord_of_decimal hDigit] at hX
        cases hX
  -- the stretch is the word between two texts
  have hText := hHere.text
  rcases List.prefix_of_prefix_length_le ⟨w ++ rest, hText⟩
    ⟨d ++ q, rfl⟩ (by rw [List.length_reverse]; exact hLow)
    with ⟨u, rfl⟩
  rw [List.append_assoc, List.append_cancel_left_eq] at hText
  rw [List.length_append, List.length_reverse] at hHigh
  have hPrefix : u ++ d <+: w :=
    List.prefix_of_prefix_length_le
      ⟨q, by rw [hText, List.append_assoc]⟩ ⟨rest, rfl⟩
      (by rw [List.length_append]; omega)
  rcases hPrefix with ⟨v, rfl⟩
  rw [List.append_assoc, List.append_assoc,
    List.append_cancel_left_eq, List.append_cancel_left_eq]
    at hText
  have hLinked := hTake.1.1.1
  have hFront : u = [] := by
    rcases List.eq_nil_or_concat' u with hNil | ⟨a, x, rfl⟩
    · exact hNil
    · rw [List.append_assoc, List.append_assoc,
        List.cons_append] at hLinked
      have hX : isDecimal x = false := by
        apply hNotWord
        simpa [wordAt] using hBefore
      rcases around_of_linked hLinked hX with
        ⟨⟨a', y, rfl, hY⟩, hLink, _⟩
      rw [hFirst (before.reverse ++ a') y x (by simp) hY]
        at hLink
      cases hLink
  have hBack : v = [] := by
    cases v with
    | nil => rfl
    | cons x v =>
        rw [← hText] at hAfter
        have hX : isDecimal x = false := by
          apply hNotWord
          simpa [wordAt] using hAfter
        rcases around_of_linked hLinked hX with
          ⟨_, hLink, z, b, rfl, hZ⟩
        rw [hLast x z (b ++ rest) (by rw [← hText]; rfl)
          hLink] at hZ
        cases hZ
  rw [hFront, hBack, List.nil_append, List.append_nil,
    digitsOf_decimals hCard.decimals]
  exact hCard.luhn

end

---- Witnesses

/- Tables that know the decimal digits beyond ASCII too. -/
@[reducible] def decimalTables : Unicode :=
  { asciiTables with
    isAlnum := fun c =>
      isDigit c || isAsciiLetter c || isDecimal c
    isAlnum_ascii := by decide }

local instance redactionUnicode : Unicode := decimalTables

local instance redactionDecimals : DecimalsAlnum where
  isAlnum_decimal c hC := by
    show (isDigit c || isAsciiLetter c || isDecimal c) = true
    rw [hC, Bool.or_true]

/- A card number. -/
def testCard : Str :=
  lit "4111111111111111"

theorem testCard_number : CardNumber testCard where
  decimals := by decide
  length_ge := by decide
  length_le := by decide
  luhn := by decide

/- A security code after a comma is not linked to it. -/
theorem comma_keeps_apart :
    redact [] (some ([] ++ (testCard ++ lit ", 123")))
        (some [lit "cc"]) =
      some (lit "[CC-REDACTED], 123") ∧
    StretchPasses [] testCard (lit ", 123") := by
  have hIff := redact_cc_iff [] [] (lit ", 123") testCard_number
  constructor
  · rw [hIff.1]
    decide
  · apply hIff.2.mp
    apply isolated_card_gone testCard_number rfl (by decide)
    · intro p y x hSplit
      exact absurd hSplit (by simp)
    · intro x z q hSplit hLink
      cases hSplit
      exact absurd hLink (by decide)

/- A security code after a space is taken with the card, and
all of it comes through. -/
theorem spaced_code_keeps_card :
    CardNumber testCard ∧ wordAt (lit " 123") = false ∧
    redact [] (some (testCard ++ lit " 123"))
        (some [lit "cc"]) =
      some (testCard ++ lit " 123") ∧
    ¬ DigitsGone [] testCard (lit " 123") := by
  refine ⟨testCard_number, by decide, by decide, ?_⟩
  intro hGone
  exact hGone 0 (le_refl _) (by decide) (cp '4')
    (by decide)

end ThreatOrbit.Redaction
