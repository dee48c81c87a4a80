import ThreatOrbit.Lib.Python

/-
  The `LIKE` operator of the database: `%` stands for any
  text, `_` for one character, and ASCII letters match in
  either case. Texts end at a zero character, and a pattern
  has a largest size.

  Key definitions:
    * `likeMatch`, `like`
    * `likeTooLong`
-/

---- Matching

namespace Lib

/- The patterns against a text, character by character. -/
def likeMatch : Str → Str → Bool
| [], text => text == []
| p :: pattern, text =>
    if p = cp '%' then
      text.tails.any (likeMatch pattern)
    else
      match text with
      | [] => false
      | c :: rest =>
          (p = cp '_' || asciiLower p = asciiLower c) &&
            likeMatch pattern rest

/- The text a C string holds. -/
def cString (s : Str) : Str :=
  s.takeWhile (· != 0)

/- `text LIKE pattern`. -/
def like (pattern text : Str) : Bool :=
  likeMatch (cString pattern) (cString text)

/- The number of bytes of a character in UTF-8. -/
def utf8Width (c : Nat) : Nat :=
  if c < 0x80 then 1
  else if c < 0x800 then 2
  else if c < 0x10000 then 3
  else 4

/- The number of bytes of a text in UTF-8. -/
def utf8Size (s : Str) : Nat :=
  (s.map utf8Width).sum

/- `SQLITE_MAX_LIKE_PATTERN_LENGTH`. -/
def maxLikePattern : Nat := 50000

/- A pattern the operator refuses. -/
def likeTooLong (pattern : Str) : Bool :=
  maxLikePattern < utf8Size pattern

---- Patterns That Match

/- Every pattern matches the text it spells. -/
theorem likeMatch_self
    (pattern rest text : Str) (hRest : likeMatch rest text = true) :
    likeMatch (pattern ++ rest) (pattern ++ text) = true := by
  induction pattern with
  | nil => exact hRest
  | cons p pattern ih =>
      simp only [List.cons_append, likeMatch]
      split
      · rw [List.any_eq_true]
        refine ⟨pattern ++ text, ?_, ih⟩
        rw [List.mem_tails]
        exact List.suffix_cons _ _
      · simp [ih]

theorem cString_of_nonzero
    {s : Str}
    (hNonzero : ∀ c ∈ s, c ≠ 0) :
    cString s = s := by
  unfold cString
  rw [List.takeWhile_eq_self_iff]
  intro c hc
  simpa using hNonzero c hc

/- `%pattern%` matches every text that holds the pattern. -/
theorem likeMatch_within
    (before pattern after : Str) :
    likeMatch (cp '%' :: pattern ++ [cp '%'])
      (before ++ pattern ++ after) = true := by
  have hTail : likeMatch [cp '%'] after = true := by
    simp only [likeMatch, if_true, List.any_eq_true]
    exact ⟨[], by simp, rfl⟩
  have hHere := likeMatch_self pattern [cp '%'] after hTail
  simp only [List.cons_append, likeMatch, if_true,
    List.any_eq_true]
  refine ⟨pattern ++ after, ?_, hHere⟩
  rw [List.mem_tails, List.append_assoc]
  exact List.suffix_append _ _

end Lib
