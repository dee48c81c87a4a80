import ThreatOrbit.Lib.Python

/-
  Bytes, and the text they stand for in UTF-8.

  `bytes.decode("utf-8", errors="replace")` puts one
  replacement character for each longest ill-formed piece
  that begins a sequence; `str.encode` refuses surrogates.

  Key definitions:
    * `Bytes`
    * `decodeReplace`, `encodeUtf8`
-/

---- Bytes

namespace Lib

abbrev Bytes := List UInt8

/- The byte of a character. -/
abbrev byte (c : Char) : UInt8 :=
  UInt8.ofNat c.toNat

/- The line feed. -/
abbrev newline : UInt8 := 10

/- The bytes of a text of ASCII characters. -/
def asciiBytes (s : Str) : Bytes :=
  s.map UInt8.ofNat

---- Decoding

/- The replacement character. -/
def replacement : Nat := 0xfffd

/- How many bytes follow a first byte, and the bounds of the
first of them; `none` where no sequence starts. -/
def continuation (b : UInt8) : Option (Nat × Nat × Nat) :=
  let n := b.toNat
  if 0xc2 ≤ n && n ≤ 0xdf then some (1, 0x80, 0xbf)
  else if n = 0xe0 then some (2, 0xa0, 0xbf)
  else if n = 0xed then some (2, 0x80, 0x9f)
  else if 0xe1 ≤ n && n ≤ 0xef then some (2, 0x80, 0xbf)
  else if n = 0xf0 then some (3, 0x90, 0xbf)
  else if 0xf1 ≤ n && n ≤ 0xf3 then some (3, 0x80, 0xbf)
  else if n = 0xf4 then some (3, 0x80, 0x8f)
  else none

/- The bytes of a sequence after its first, as far as they
are well formed. -/
@[grind =]
def continuing : Nat → Nat → Nat → Bytes → Bytes
| 0, _, _, _ => []
| _ + 1, _, _, [] => []
| n + 1, low, high, b :: rest =>
    if low ≤ b.toNat && b.toNat ≤ high then
      b :: continuing n 0x80 0xbf rest
    else
      []

/- The value of the bits of a sequence. -/
def sequenceValue (first : Nat) (more : Bytes) : Nat :=
  more.foldl (fun n b => n * 64 + b.toNat % 64) first

/- The first character of a text, and how many bytes it takes
after its first. -/
def decodeOne (b : UInt8) (rest : Bytes) : Nat × Nat :=
  if b.toNat < 0x80 then
    (b.toNat, 0)
  else
    match continuation b with
    | none => (replacement, 0)
    | some (n, low, high) =>
        let more := continuing n low high rest
        if more.length = n then
          (sequenceValue (b.toNat % 2 ^ (6 - n)) more, n)
        else
          (replacement, more.length)

/- The text of the bytes after the given number of them. -/
@[grind =]
def decodeFrom : Nat → Bytes → Str
| _, [] => []
| n + 1, _ :: rest => decodeFrom n rest
| 0, b :: rest =>
    let (c, more) := decodeOne b rest
    c :: decodeFrom more rest

/- `data.decode("utf-8", errors="replace")`. -/
def decodeReplace (data : Bytes) : Str :=
  decodeFrom 0 data

---- Decoding In Parts

theorem continuation_low
    {b : UInt8} {n low high : Nat}
    (hNext : continuation b = some (n, low, high)) :
    0x80 ≤ low := by
  simp only [continuation] at hNext
  repeat' split at hNext
  all_goals
    simp only [Option.some.injEq, Prod.mk.injEq,
      reduceCtorEq] at hNext <;>
    omega

/- An ASCII byte continues no sequence. -/
theorem continuing_append
    {c : UInt8}
    (hAscii : c.toNat < 0x80) {low : Nat} (hLow : 0x80 ≤ low)
    (n high : Nat) (a b : Bytes) :
    continuing n low high (a ++ c :: b) =
      continuing n low high a := by
  induction n generalizing low high a with
  | zero => rfl
  | succ n ih =>
      cases a with
      | nil =>
          have hStop : ¬ low ≤ c.toNat := by
            omega
          simp [continuing, hStop]
      | cons x a =>
          simp only [List.cons_append, continuing]
          rw [ih (le_refl _)]

theorem continuing_length_le
    (n low high : Nat) (a : Bytes) :
    (continuing n low high a).length ≤ a.length := by
  induction n generalizing low high a with
  | zero => exact Nat.zero_le _
  | succ n ih =>
      cases a with
      | nil => exact Nat.zero_le _
      | cons x a =>
          simp only [continuing]
          split
          · exact Nat.succ_le_succ (ih 0x80 0xbf a)
          · exact Nat.zero_le _

theorem decodeOne_append
    {c : UInt8}
    (hAscii : c.toNat < 0x80) (x : UInt8) (a b : Bytes) :
    decodeOne x (a ++ c :: b) = decodeOne x a := by
  unfold decodeOne
  split
  · rfl
  · cases hNext : continuation x with
    | none => rfl
    | some bounds =>
        rcases bounds with ⟨n, low, high⟩
        have hLow := continuation_low hNext
        simp only [continuing_append hAscii hLow]

theorem decodeOne_le
    (x : UInt8) (a : Bytes) :
    (decodeOne x a).2 ≤ a.length := by
  unfold decodeOne
  split
  · exact Nat.zero_le _
  · cases continuation x with
    | none => exact Nat.zero_le _
    | some bounds =>
        rcases bounds with ⟨n, low, high⟩
        have hLe := continuing_length_le n low high a
        simp only
        split
        · rename_i hAll
          exact hAll ▸ hLe
        · exact hLe

theorem decodeFrom_append
    {c : UInt8}
    (hAscii : c.toNat < 0x80) {k : Nat} {a : Bytes}
    (hSkip : k ≤ a.length) (b : Bytes) :
    decodeFrom k (a ++ c :: b) =
      decodeFrom k a ++ c.toNat :: decodeReplace b := by
  induction a generalizing k with
  | nil =>
      rw [List.length_nil, Nat.le_zero] at hSkip
      have hOne : decodeOne c b = (c.toNat, 0) := by
        unfold decodeOne
        rw [if_pos hAscii]
      simp [hSkip, decodeFrom, hOne, decodeReplace]
  | cons x a ih =>
      cases k with
      | succ k => exact ih (Nat.le_of_succ_le_succ hSkip)
      | zero =>
          simp only [List.cons_append, decodeFrom,
            decodeOne_append hAscii]
          rw [ih (decodeOne_le x a)]

/- The text is cut at an ASCII byte. -/
theorem decodeReplace_append
    {c : UInt8}
    (hAscii : c.toNat < 0x80) (a b : Bytes) :
    decodeReplace (a ++ c :: b) =
      decodeReplace a ++ c.toNat :: decodeReplace b :=
  decodeFrom_append hAscii (Nat.zero_le _) b

---- Encoding

/- Half of a surrogate pair. -/
def isSurrogate (c : Nat) : Bool :=
  0xd800 ≤ c && c ≤ 0xdfff

/- The bytes of a character. -/
def encodeChar (c : Nat) : Bytes :=
  let tail (shift : Nat) : UInt8 :=
    UInt8.ofNat (0x80 + c / 2 ^ shift % 64)
  if c < 0x80 then
    [UInt8.ofNat c]
  else if c < 0x800 then
    [UInt8.ofNat (0xc0 + c / 64), tail 0]
  else if c < 0x10000 then
    [UInt8.ofNat (0xe0 + c / 4096), tail 6, tail 0]
  else
    [UInt8.ofNat (0xf0 + c / 262144), tail 12, tail 6, tail 0]

/- `text.encode()`, `none` where it raises. -/
def encodeUtf8 (s : Str) : Option Bytes :=
  if s.any isSurrogate then none
  else some (s.flatMap encodeChar)

end Lib
