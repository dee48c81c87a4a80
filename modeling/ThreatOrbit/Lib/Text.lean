import Mathlib

/-
  Text as a sequence of code points.

  A text is a list of code points, surrogates included, so
  that a decoder may yield an unpaired surrogate and an
  encoder may refuse one. Lean's `String` is the notation
  for literals only.

  Key definitions:
    * `Str`
    * `lit`
    * `natStr`
-/

---- Code-Point Strings

namespace Lib

/- A text, as its code points in order. -/
abbrev Str := List Nat

/- The text of a string literal. -/
def lit (s : String) : Str :=
  s.toList.map Char.toNat

/- The code point of a character. -/
abbrev cp (c : Char) : Nat :=
  c.toNat

/- The decimal numeral of a natural number. -/
def natStr (n : Nat) : Str :=
  if n = 0 then
    [cp '0']
  else
    ((Nat.digits 10 n).map (fun d => d + cp '0')).reverse

/- The first of two texts that is not empty. -/
def orStr : Option Str → Str → Str
| some [], fallback => fallback
| some text, _ => text
| none, fallback => fallback

theorem orStr_of_ne_nil
    {text fallback : Str}
    (hSome : text ≠ []) :
    orStr (some text) fallback = text := by
  cases text with
  | nil => exact absurd rfl hSome
  | cons c rest => rfl

end Lib
