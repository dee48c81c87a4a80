import ThreatOrbit.Lib.Python

/-
  JSON texts as `json.dumps` writes them: ASCII only, and
  without blanks between the items.

  Key definitions:
    * `jsonChar`, `jsonStr`
    * `dumps`
-/

---- Writing

namespace Lib

/- `\uXXXX`. -/
def unicodeEscape (n : Nat) : Str :=
  lit "\\u" ++ hexStr 4 n

/- A character of a JSON text. -/
def jsonChar (c : Nat) : Str :=
  if c = cp '"' then lit "\\\""
  else if c = cp '\\' then lit "\\\\"
  else if c = 10 then lit "\\n"
  else if c = 13 then lit "\\r"
  else if c = 9 then lit "\\t"
  else if c = 12 then lit "\\f"
  else if c = 8 then lit "\\b"
  else if 32 ≤ c && c ≤ 126 then [c]
  else if c < 65536 then unicodeEscape c
  else
    unicodeEscape (0xd800 + (c - 65536) / 1024) ++
      unicodeEscape (0xdc00 + (c - 65536) % 1024)

/- A quoted JSON text. -/
def jsonStr (s : Str) : Str :=
  cp '"' :: s.flatMap jsonChar ++ [cp '"']

/- A double. -/
def jsonFloat (x : Float) : Str :=
  if x.isNaN then lit "NaN"
  else if x.isInf then
    if floatNegative x then lit "-Infinity"
    else lit "Infinity"
  else floatRepr x

mutual

/- `json.dumps(value, separators=(",", ":"))`. -/
def dumps : PyVal → Str
| .none => lit "null"
| .bool true => lit "true"
| .bool false => lit "false"
| .int n => intStr n
| .float x => jsonFloat x
| .str s => jsonStr s
| .list items =>
    cp '[' :: joinWith [cp ','] (dumpsItems items) ++ [cp ']']
| .dict items =>
    123 :: joinWith [cp ','] (dumpsEntries items) ++ [125]

/- The items of a list. -/
def dumpsItems : List PyVal → List Str
| [] => []
| v :: rest => dumps v :: dumpsItems rest

/- The entries of a mapping. -/
def dumpsEntries : List (Str × PyVal) → List Str
| [] => []
| (k, v) :: rest =>
    (jsonStr k ++ cp ':' :: dumps v) :: dumpsEntries rest

end

/- The characters a JSON text carries as they are. -/
def isPlainChar (c : Nat) : Bool :=
  32 ≤ c && c ≤ 126 && c != cp '"' && c != cp '\\'

theorem jsonChar_of_plain
    {c : Nat}
    (hPlain : isPlainChar c = true) :
    jsonChar c = [c] := by
  simp only [isPlainChar, Bool.and_eq_true, decide_eq_true_eq,
    bne_iff_ne] at hPlain
  rcases hPlain with ⟨⟨⟨hLow, hHigh⟩, hQuote⟩, hSlash⟩
  unfold jsonChar
  rw [if_neg hQuote, if_neg hSlash, if_neg (by omega),
    if_neg (by omega), if_neg (by omega), if_neg (by omega),
    if_neg (by omega), if_pos (by simp [hLow, hHigh])]

/- A plain text is quoted as it is. -/
theorem jsonStr_of_plain
    {s : Str}
    (hPlain : s.all isPlainChar = true) :
    jsonStr s = cp '"' :: s ++ [cp '"'] := by
  have hSame : s.flatMap jsonChar = s := by
    induction s with
    | nil => rfl
    | cons c rest ih =>
        rw [List.all_cons, Bool.and_eq_true] at hPlain
        rw [List.flatMap_cons, jsonChar_of_plain hPlain.1,
          ih hPlain.2]
        rfl
  unfold jsonStr
  rw [hSame]

end Lib
