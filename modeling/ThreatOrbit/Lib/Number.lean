import ThreatOrbit.Lib.Text

/-
  Numerals: the text of an integer and of a double, and the
  numbers a text denotes.

  `float` and `int` read what Python's constructors of the
  same names read; `floatRepr` is the shortest decimal that
  reads back as the same double.

  Key definitions:
    * `isSpace`, `decimal`, `asciiNumeral`
    * `intStr`, `floatRepr`
    * `readInt`, `readFloat`
-/

---- Character Classes

namespace Lib

/- The white space of `str.strip` and `str.split`. -/
def isSpace (c : Nat) : Bool :=
  (9 ≤ c && c ≤ 13) || (28 ≤ c && c ≤ 32) || c == 0x85 ||
    c == 0xa0 || c == 0x1680 || (0x2000 ≤ c && c ≤ 0x200a) ||
    c == 0x2028 || c == 0x2029 || c == 0x202f ||
    c == 0x205f || c == 0x3000

/- The zeros of the decimal digits, ten code points each. -/
def decimalZeros : List Nat :=
  [0x30, 0x660, 0x6f0, 0x7c0, 0x966, 0x9e6, 0xa66, 0xae6,
    0xb66, 0xbe6, 0xc66, 0xce6, 0xd66, 0xde6, 0xe50, 0xed0,
    0xf20, 0x1040, 0x1090, 0x17e0, 0x1810, 0x1946, 0x19d0,
    0x1a80, 0x1a90, 0x1b50, 0x1bb0, 0x1c40, 0x1c50, 0xa620,
    0xa8d0, 0xa900, 0xa9d0, 0xa9f0, 0xaa50, 0xabf0, 0xff10,
    0x104a0, 0x10d30, 0x11066, 0x110f0, 0x11136, 0x111d0,
    0x112f0, 0x11450, 0x114d0, 0x11650, 0x116c0, 0x11730,
    0x118e0, 0x11950, 0x11c50, 0x11d50, 0x11da0, 0x16a60,
    0x16ac0, 0x16b50, 0x1d7ce, 0x1d7d8, 0x1d7e2, 0x1d7ec,
    0x1d7f6, 0x1e140, 0x1e2f0, 0x1e950, 0x1fbf0]

/- The value of a decimal digit. -/
def decimal (c : Nat) : Option Nat :=
  (decimalZeros.find? (fun z => z ≤ c && c < z + 10)).map
    (c - ·)

/- The digits of `str.isdigit` that are no decimal digits. -/
def otherDigits : List (Nat × Nat) :=
  [(0xb2, 0xb3), (0xb9, 0xb9), (0x1369, 0x1371),
    (0x19da, 0x19da), (0x2070, 0x2070), (0x2074, 0x2079),
    (0x2080, 0x2089), (0x2460, 0x2468), (0x2474, 0x247c),
    (0x2488, 0x2490), (0x24ea, 0x24ea), (0x24f5, 0x24fd),
    (0x24ff, 0x24ff), (0x2776, 0x277e), (0x2780, 0x2788),
    (0x278a, 0x2792), (0x10a40, 0x10a43), (0x10e60, 0x10e68),
    (0x11052, 0x1105a), (0x1f100, 0x1f10a)]

/- `s.isdigit()`. -/
def strIsDigit (s : Str) : Bool :=
  !s.isEmpty && s.all (fun c =>
    (decimal c).isSome ||
      otherDigits.any (fun r => r.1 ≤ c && c ≤ r.2))

/- The digits 0 to 9. -/
def isDigit (c : Nat) : Bool :=
  cp '0' ≤ c && c ≤ cp '9'

/- The letters a to z and A to Z. -/
def isAsciiLetter (c : Nat) : Bool :=
  (cp 'a' ≤ c && c ≤ cp 'z') || (cp 'A' ≤ c && c ≤ cp 'Z')

/- The small letter of an ASCII capital. -/
def asciiLower (c : Nat) : Nat :=
  if cp 'A' ≤ c && c ≤ cp 'Z' then c + 32 else c

/- Strip the characters of a class from both ends. -/
def stripBy (p : Nat → Bool) (s : Str) : Str :=
  ((s.dropWhile p).reverse.dropWhile p).reverse

/- `str.strip()`. -/
def strip (s : Str) : Str :=
  stripBy isSpace s

/- A stripped text does not end in the class. -/
theorem getLast_of_stripBy
    {p : Nat → Bool} {s : Str}
    (hStrip : stripBy p s = s) (hSome : s ≠ []) :
    p (s.getLast hSome) = false := by
  have hDrop : s.dropWhile p = s := by
    apply (List.dropWhile_suffix p).eq_of_length_le
    have hBoth : s.length ≤ (s.dropWhile p).length := by
      conv_lhs => rw [← hStrip]
      exact (List.rdropWhile_prefix p _).length_le
    exact hBoth
  have hLast : List.rdropWhile p s = s := by
    conv_rhs => rw [← hStrip]
    unfold stripBy List.rdropWhile
    rw [hDrop]
  simpa using List.rdropWhile_eq_self_iff.mp hLast hSome

/- The text a numeral is read from: spaces and decimal digits
become ASCII, and reading stops at anything else. -/
def asciiNumeral (s : Str) : Str :=
  if s.all (· < 128) then
    s
  else
    s.map fun c =>
      if c < 127 then c
      else if isSpace c then cp ' '
      else (decimal c).elim (cp '?') (cp '0' + ·)

/- The space of the C locale. -/
def isCSpace (c : Nat) : Bool :=
  (9 ≤ c && c ≤ 13) || c == 32

---- Writing Numbers

/- The decimal numeral of an integer. -/
def intStr : Int → Str
| .ofNat n => natStr n
| .negSucc n => cp '-' :: natStr (n + 1)

/- Whether the sign of a double is set. -/
def floatNegative (x : Float) : Bool :=
  x.toBits >>> 63 == 1

/- The magnitude of a finite double, in units of the least
positive one. -/
def floatScaled (x : Float) : Nat :=
  let bits := x.toBits.toNat
  let exponent := bits / 2 ^ 52 % 2 ^ 11
  let fraction := bits % 2 ^ 52
  if exponent = 0 then
    fraction
  else
    (2 ^ 52 + fraction) * 2 ^ (exponent - 1)

/- The double nearest to `m * 10 ^ e`. -/
def floatOfDecimal (m : Nat) (e : Int) : Float :=
  Float.ofScientific m (e < 0) e.natAbs

/- The power of ten of the first digit of `scaled` units. -/
def decimalExponent (scaled : Nat) : Int :=
  if 2 ^ 1074 ≤ scaled then
    (Nat.log 10 (scaled / 2 ^ 1074) : Nat)
  else
    -((Nat.clog 10 ((2 ^ 1074 + scaled - 1) / scaled) : Nat) :
      Int)

/- The digits of the closest decimal of `n` digits that reads
back as the double, if there is one. -/
def closestDigits
    (scaled : Nat)
    (first : Int)
    (n : Nat) : Option Nat :=
  let unit : Int := first - (n - 1 : Nat)
  let num := scaled * 10 ^ (-unit).toNat
  let den := 2 ^ 1074 * 10 ^ unit.toNat
  let low := num / den
  let rest := num % den
  let order :=
    if 2 * rest < den then [low, low + 1]
    else if 2 * rest = den && low % 2 == 0 then [low, low + 1]
    else [low + 1, low]
  order.find?
    (fun m => floatScaled (floatOfDecimal m unit) == scaled)

/- The shortest digits that read back as the double, and the
power of ten of the first of them. Digits rounded up to a
power of ten have one place more. -/
def shortestDigits
    (scaled : Nat)
    (first : Int) : Str × Int :=
  let found := (List.range 17).findSome? (fun i =>
    (closestDigits scaled first (i + 1)).map (·, i + 1))
  match found with
  | some (m, n) =>
      if m = 10 ^ n then ([cp '1'], first + 1)
      else (natStr m, first)
  | none => ([], first)

/- The zeros that fill a numeral up. -/
def zeros (n : Nat) : Str :=
  List.replicate n (cp '0')

/- Digits with the decimal point after the first `point`. -/
def fixedPoint (digits : Str) (point : Int) : Str :=
  if point ≤ 0 then
    lit "0." ++ zeros (-point).toNat ++ digits
  else if digits.length ≤ point.toNat then
    digits ++ zeros (point.toNat - digits.length) ++ lit ".0"
  else
    digits.take point.toNat ++ lit "." ++
      digits.drop point.toNat

/- An exponent with its sign and at least two digits. -/
def exponentStr (e : Int) : Str :=
  let digits := natStr e.natAbs
  (if e < 0 then [cp '-'] else [cp '+']) ++
    zeros (2 - digits.length) ++ digits

/- `repr` of a double. -/
def floatRepr (x : Float) : Str :=
  let sign := if floatNegative x then [cp '-'] else []
  if x.isNaN then
    lit "nan"
  else if x.isInf then
    sign ++ lit "inf"
  else
    let scaled := floatScaled x
    if scaled = 0 then
      sign ++ lit "0.0"
    else
      let (digits, first) :=
        shortestDigits scaled (decimalExponent scaled)
      if -4 ≤ first && first < 16 then
        sign ++ fixedPoint digits (first + 1)
      else
        sign ++ digits.take 1 ++
          (if digits.length = 1 then []
            else cp '.' :: digits.drop 1) ++
          cp 'e' :: exponentStr first

---- Reading Numbers

/- The number a run of ASCII digits denotes. -/
def digitsNat (digits : Str) : Nat :=
  digits.foldl (fun n c => 10 * n + (c - cp '0')) 0

/- A numeral denotes the number it is of. -/
theorem digitsNat_natStr (n : Nat) :
    digitsNat (natStr n) = n := by
  unfold natStr
  split
  · rename_i hZero
    rw [hZero]
    rfl
  · have hFold : ∀ digits : List Nat,
        digitsNat ((digits.map (· + cp '0')).reverse) =
          Nat.ofDigits 10 digits := by
      intro digits
      unfold digitsNat
      rw [List.foldl_reverse]
      induction digits with
      | nil => rfl
      | cons d digits ih =>
          rw [List.map_cons, List.foldr_cons, ih,
            Nat.ofDigits_cons]
          simp
          omega
    rw [hFold, Nat.ofDigits_digits]

/- A numeral has digits only. -/
theorem isDigit_of_mem_natStr
    {n c : Nat}
    (hMem : c ∈ natStr n) :
    isDigit c = true := by
  unfold natStr at hMem
  split at hMem
  · rw [List.mem_singleton] at hMem
    rw [hMem]
    rfl
  · rw [List.mem_reverse, List.mem_map] at hMem
    rcases hMem with ⟨d, hD, rfl⟩
    have hSmall := Nat.digits_lt_base (by omega) hD
    simp [isDigit, cp]
    omega

theorem natStr_ne_nil (n : Nat) :
    natStr n ≠ [] := by
  unfold natStr
  split
  · exact List.cons_ne_nil _ _
  · rename_i hPos
    simpa [Nat.digits_eq_nil_iff_eq_zero] using hPos

/- A numeral has as many digits as the number needs. -/
theorem length_natStr_le
    {n k : Nat}
    (hPos : 0 < k) (hSmall : n < 10 ^ k) :
    (natStr n).length ≤ k := by
  unfold natStr
  split
  · exact hPos
  · rw [List.length_reverse, List.length_map]
    exact (Nat.digits_length_le_iff (by omega) n).mpr hSmall

/- A numeral without its underscores, each of which must
stand between two digits. -/
def dropUnderscores : Bool → Str → Option Str
| _, [] => some []
| afterDigit, c :: rest =>
    if c = cp '_' then
      if afterDigit && (rest.head?.map isDigit).getD false then
        dropUnderscores false rest
      else
        none
    else
      (dropUnderscores (isDigit c) rest).map (c :: ·)

/- A sign and what follows it. -/
def readSign : Str → Bool × Str
| [] => (false, [])
| c :: rest =>
    if c = cp '-' then (true, rest)
    else if c = cp '+' then (false, rest)
    else (false, c :: rest)

/- The most digits `int` reads from a text. -/
def maxStrDigits : Nat := 4300

/- `int(text)`, or `none` where it raises `ValueError`. -/
def readInt (s : Str) : Option Int :=
  let body := stripBy isCSpace (asciiNumeral s)
  let (negative, digits) := readSign body
  match dropUnderscores false digits with
  | none => none
  | some plain =>
      if plain = [] || !plain.all isDigit then
        none
      else if maxStrDigits < plain.length then
        none
      else if negative then
        some (-(digitsNat plain))
      else
        some (digitsNat plain)

theorem dropUnderscores_digits
    {s : Str}
    (hDigits : ∀ c ∈ s, isDigit c = true) (after : Bool) :
    dropUnderscores after s = some s := by
  induction s generalizing after with
  | nil => rfl
  | cons c rest ih =>
      rw [List.forall_mem_cons] at hDigits
      have hNot : c ≠ cp '_' := by
        rintro rfl
        exact absurd hDigits.1 (by decide)
      rw [dropUnderscores, if_neg hNot, ih hDigits.2]
      rfl

/- Digits are their own numeral. -/
theorem readInt_of_digits
    {s t : Str}
    (hNumeral : asciiNumeral s = t) (hSome : t ≠ [])
    (hDigits : ∀ c ∈ t, isDigit c = true)
    (hLength : t.length ≤ maxStrDigits) :
    ∃ n, readInt s = some n := by
  have hClass (c : Nat) (hC : isDigit c = true) :
      isCSpace c = false := by
    unfold isDigit at hC
    unfold isCSpace
    simp only [Bool.and_eq_true, decide_eq_true_eq] at hC
    have hLow : 48 ≤ c := hC.1
    simp only [Bool.or_eq_false_iff, Bool.and_eq_false_iff,
      decide_eq_false_iff_not, beq_eq_false_iff_ne]
    omega
  have hDrop (u : Str) (hU : ∀ c ∈ u, isDigit c = true) :
      u.dropWhile isCSpace = u := by
    cases u with
    | nil => rfl
    | cons c rest =>
        rw [List.dropWhile_cons, hClass c (hU c (by simp))]
        rfl
  have hStrip : stripBy isCSpace t = t := by
    unfold stripBy
    rw [hDrop t hDigits, hDrop t.reverse, List.reverse_reverse]
    intro c hC
    exact hDigits c (List.mem_reverse.mp hC)
  have hSign : readSign t = (false, t) := by
    cases t with
    | nil => rfl
    | cons c rest =>
        have hC := hDigits c (by simp)
        have hMinus : c ≠ cp '-' := by
          rintro rfl
          exact absurd hC (by decide)
        have hPlus : c ≠ cp '+' := by
          rintro rfl
          exact absurd hC (by decide)
        rw [readSign, if_neg hMinus, if_neg hPlus]
  have hPlain : (t = [] || !t.all isDigit) = false := by
    have hAll : t.all isDigit = true := by
      rw [List.all_eq_true]
      exact hDigits
    simp [hSome, hAll]
  refine ⟨digitsNat t, ?_⟩
  unfold readInt
  rw [hNumeral, hStrip]
  dsimp only
  rw [hSign]
  dsimp only
  rw [dropUnderscores_digits hDigits]
  dsimp only
  rw [hPlain, if_neg Bool.false_ne_true,
    if_neg (Nat.not_lt.mpr hLength)]
  rfl

/- A decimal digit becomes an ASCII one. -/
theorem asciiNumeral_decimals
    {s : Str}
    (hDecimal : ∀ c ∈ s, (decimal c).isSome) :
    ∀ d ∈ asciiNumeral s, isDigit d = true := by
  have hTables :
      ∀ z ∈ decimalZeros, ∀ k < 10,
        isSpace (z + k) = false ∧
          (z + k < 128 → isDigit (z + k) = true) := by
    decide
  have hDigit (c : Nat) (hC : (decimal c).isSome) :
      isSpace c = false ∧ (c < 128 → isDigit c = true) ∧
        ∃ k < 10, decimal c = some k := by
    rcases Option.isSome_iff_exists.mp hC with ⟨k, hK⟩
    rcases Option.map_eq_some_iff.mp hK with ⟨z, hZ, rfl⟩
    have hIn := List.find?_some hZ
    have hMem := List.mem_of_find?_eq_some hZ
    simp only [Bool.and_eq_true, decide_eq_true_eq] at hIn
    have hTable := hTables z hMem (c - z) (by omega)
    rw [show z + (c - z) = c by omega] at hTable
    exact ⟨hTable.1, hTable.2, c - z, by omega, hK⟩
  intro d hD
  unfold asciiNumeral at hD
  split at hD
  · rename_i hAscii
    rw [List.all_eq_true] at hAscii
    exact (hDigit d (hDecimal d hD)).2.1
      (by simpa using hAscii d hD)
  · rcases List.mem_map.mp hD with ⟨c, hC, rfl⟩
    rcases hDigit c (hDecimal c hC) with
      ⟨hSpace, hLow, k, hK, hIs⟩
    split
    · exact hLow (by omega)
    · rw [if_neg (by simp [hSpace]), hIs]
      have hRange : cp '0' ≤ cp '0' + k ∧ cp '0' + k ≤ cp '9' := by
        change 48 ≤ 48 + k ∧ 48 + k ≤ 57
        omega
      unfold isDigit
      rw [Option.elim_some, decide_eq_true hRange.1,
        decide_eq_true hRange.2]
      rfl

theorem length_asciiNumeral (s : Str) :
    (asciiNumeral s).length = s.length := by
  unfold asciiNumeral
  split
  · rfl
  · exact List.length_map _

/- A few decimal digits are read. -/
theorem readInt_of_decimals
    {s : Str}
    (hSome : s ≠ []) (hDecimal : ∀ c ∈ s, (decimal c).isSome)
    (hLength : s.length ≤ maxStrDigits) :
    ∃ n, readInt s = some n := by
  refine readInt_of_digits rfl ?_
    (asciiNumeral_decimals hDecimal) ?_
  · rw [← List.length_pos_iff, length_asciiNumeral]
    exact List.length_pos_iff.mpr hSome
  · rw [length_asciiNumeral]
    exact hLength

/- The exponent part of a decimal, to the end of the text. -/
def readExponent : Str → Option Int
| [] => some 0
| c :: rest =>
    if c = cp 'e' || c = cp 'E' then
      let (negative, digits) := readSign rest
      if digits = [] || !digits.all isDigit then
        none
      else if negative then
        some (-(digitsNat digits))
      else
        some (digitsNat digits)
    else
      none

/- An unsigned decimal. -/
def readDecimal (s : Str) : Option Float :=
  let whole := s.takeWhile isDigit
  let rest := s.dropWhile isDigit
  let (part, tail) :=
    match rest with
    | c :: more =>
        if c = cp '.' then
          (more.takeWhile isDigit, more.dropWhile isDigit)
        else
          ([], rest)
    | [] => ([], [])
  if whole ++ part = [] then
    none
  else
    (readExponent tail).map fun e =>
      floatOfDecimal (digitsNat (whole ++ part))
        (e - part.length)

/- `float(text)`, or `none` where it raises `ValueError`. -/
def readFloat (s : Str) : Option Float :=
  let body := stripBy isCSpace (asciiNumeral s)
  match dropUnderscores false body with
  | none => none
  | some plain =>
      let (negative, rest) := readSign plain
      let word := rest.map asciiLower
      let value :=
        if word = lit "inf" || word = lit "infinity" then
          some (floatOfDecimal 1 400)
        else if word = lit "nan" then
          some (Float.ofBits 0x7ff8000000000000)
        else
          readDecimal rest
      value.map (fun x => if negative then -x else x)

/- The least integer too large to round to a double. -/
def floatIntBound : Nat := 2 ^ 1024 - 2 ^ 970

/- `float(n)`, or `none` where it raises `OverflowError`. -/
def floatOfInt (n : Int) : Option Float :=
  if n.natAbs < floatIntBound then
    some (if n < 0 then -floatOfDecimal n.natAbs 0
      else floatOfDecimal n.natAbs 0)
  else
    none

/- `int(x)` of a double, toward zero. -/
def truncFloat (x : Float) : Option Int :=
  if x.isNaN || x.isInf then
    none
  else
    let whole : Int := (floatScaled x / 2 ^ 1074 : Nat)
    some (if floatNegative x then -whole else whole)

theorem two_pow_add_lt
    {a b c : Nat}
    (hAb : a ≤ b) (hBc : b + 1 < c) :
    2 ^ a + 2 ^ b < 2 ^ c := by
  have hLow : 2 ^ a ≤ 2 ^ b :=
    Nat.pow_le_pow_right (by omega) hAb
  have hHigh : 2 ^ (b + 1) < 2 ^ c :=
    Nat.pow_lt_pow_right (by omega) hBc
  rw [Nat.pow_succ] at hHigh
  omega

/- The integers of 64 bits convert to doubles. -/
theorem floatOfInt_of_le
    {n : Int}
    (hBound : n.natAbs ≤ 2 ^ 63) :
    (floatOfInt n).isSome := by
  have hLess : n.natAbs < floatIntBound :=
    lt_of_le_of_lt hBound
      (Nat.lt_sub_of_add_lt
        (two_pow_add_lt (by omega) (by omega)))
  unfold floatOfInt
  rw [if_pos hLess]
  rfl

end Lib
