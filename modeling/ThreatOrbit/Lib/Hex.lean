import ThreatOrbit.Lib.Ip
import ThreatOrbit.Lib.Iso

/-
  Numerals in hexadecimal to a width, compared as texts: of
  one width they compare as the numbers do, and a longer one
  compares with a shorter one by its first digits.

  Key definitions:
    * `hexStr` of `Lib.Python`, `hexNat` of `Lib.Ip`
-/

---- Digits

namespace Lib

theorem hexDigit_lt_iff
    {a b : Nat}
    (hA : a < 16) (hB : b < 16) :
    hexDigit a < hexDigit b ↔ a < b := by
  have hZero : cp '0' = 48 := rfl
  have hLetter : cp 'a' = 97 := rfl
  unfold hexDigit
  rw [hZero, hLetter]
  split
  · split
    · omega
    · omega
  · split
    · omega
    · omega

@[simp]
theorem length_hexStr (width n : Nat) :
    (hexStr width n).length = width := by
  unfold hexStr
  simp

theorem hexStr_zero (n : Nat) :
    hexStr 0 n = [] :=
  rfl

/- The last digit of a numeral. -/
theorem hexStr_succ (width n : Nat) :
    hexStr (width + 1) n =
      hexStr width (n / 16) ++ [hexDigit (n % 16)] := by
  unfold hexStr
  rw [List.range_succ_eq_map, List.map_cons, List.reverse_cons,
    pow_zero, Nat.div_one, List.map_map]
  congr 2
  apply List.map_congr_left
  intro i _
  dsimp only [Function.comp]
  rw [pow_succ', Nat.div_div_eq_div_mul]

/- The first digits of a numeral, and the others. -/
theorem hexStr_append (first last n : Nat) :
    hexStr (first + last) n =
      hexStr first (n / 16 ^ last) ++ hexStr last n := by
  induction last generalizing n with
  | zero => simp [hexStr_zero]
  | succ last ih =>
      rw [← Nat.add_assoc, hexStr_succ, ih, hexStr_succ,
        Nat.div_div_eq_div_mul, ← pow_succ', List.append_assoc]

---- Comparisons

theorem hexStr_lt_hexStr
    {width a b : Nat}
    (hLess : a < b) (hBound : b < 16 ^ width) :
    hexStr width a < hexStr width b := by
  induction width generalizing a b with
  | zero =>
      rw [pow_zero] at hBound
      omega
  | succ width ih =>
      rw [hexStr_succ, hexStr_succ]
      by_cases hTens : a / 16 < b / 16
      · have hTensBound : b / 16 < 16 ^ width := by
          rw [pow_succ] at hBound
          omega
        refine append_lt_append (ih hTens hTensBound) ?_ _ _
        rw [length_hexStr, length_hexStr]
      · have hSame : a / 16 = b / 16 := by omega
        rw [hSame]
        apply append_lt_append_left
        rw [List.cons_lt_cons_iff]
        left
        rw [hexDigit_lt_iff (Nat.mod_lt _ (by decide))
          (Nat.mod_lt _ (by decide))]
        omega

theorem hexStr_lt_iff
    {width a b : Nat}
    (hA : a < 16 ^ width) (hB : b < 16 ^ width) :
    hexStr width a < hexStr width b ↔ a < b := by
  constructor
  · intro hLess
    by_contra hNot
    rcases Nat.lt_or_eq_of_le (not_lt.mp hNot) with
      hMore | hSame
    · exact lt_asymm hLess (hexStr_lt_hexStr hMore hA)
    · rw [hSame] at hLess
      exact lt_irrefl _ hLess
  · intro hLess
    exact hexStr_lt_hexStr hLess hB

/- Numerals of one width compare as the numbers do. -/
theorem hexStr_le_iff
    {width a b : Nat}
    (hA : a < 16 ^ width) (hB : b < 16 ^ width) :
    hexStr width a ≤ hexStr width b ↔ a ≤ b := by
  rw [← not_lt, ← not_lt, hexStr_lt_iff hB hA]

theorem hexStr_inj
    {width a b : Nat}
    (hA : a < 16 ^ width) (hB : b < 16 ^ width)
    (hSame : hexStr width a = hexStr width b) :
    a = b := by
  apply le_antisymm
  · exact (hexStr_le_iff hA hB).mp (le_of_eq hSame)
  · exact (hexStr_le_iff hB hA).mp (le_of_eq hSame.symm)

/- A numeral and a longer one that begins with it. -/
theorem lt_append
    (s : Str) {t : Str} (hMore : t ≠ []) :
    s < s ++ t := by
  cases t with
  | nil => exact absurd rfl hMore
  | cons c t =>
      have hNil : ([] : Str) < c :: t := List.nil_lt_cons c t
      have hLess := append_lt_append_left hNil s
      rwa [List.append_nil] at hLess

/- A short numeral is at most a long one where it is at most
the first digits of that. -/
theorem hexStr_le_longer_iff
    (width more : Nat) {a b : Nat} (hMore : 0 < more)
    (hA : a < 16 ^ width) (hB : b < 16 ^ (width + more)) :
    hexStr width a ≤ hexStr (width + more) b ↔
      a ≤ b / 16 ^ more := by
  have hFirst : b / 16 ^ more < 16 ^ width := by
    rw [Nat.div_lt_iff_lt_mul (Nat.pow_pos (by decide)),
      ← pow_add]
    exact hB
  have hTail : hexStr more b ≠ [] := by
    intro hNil
    have hLength := congrArg List.length hNil
    rw [length_hexStr] at hLength
    exact absurd hLength (Nat.ne_of_gt hMore)
  rw [hexStr_append]
  constructor
  · intro hLe
    by_contra hNot
    have hLess := hexStr_lt_hexStr (not_le.mp hNot) hA
    have hAll :=
      append_lt_append hLess (by simp) (hexStr more b) []
    rw [List.append_nil] at hAll
    exact absurd hLe (not_le.mpr hAll)
  · intro hLe
    have hShort := (hexStr_le_iff hA hFirst).mpr hLe
    exact le_trans hShort (le_of_lt (lt_append _ hTail))

/- A long numeral is at most a short one where its first
digits are less than that. -/
theorem hexStr_longer_le_iff
    (width more : Nat) {a b : Nat} (hMore : 0 < more)
    (hA : a < 16 ^ width) (hB : b < 16 ^ (width + more)) :
    hexStr (width + more) b ≤ hexStr width a ↔
      b / 16 ^ more < a := by
  have hFirst : b / 16 ^ more < 16 ^ width := by
    rw [Nat.div_lt_iff_lt_mul (Nat.pow_pos (by decide)),
      ← pow_add]
    exact hB
  have hTail : hexStr more b ≠ [] := by
    intro hNil
    have hLength := congrArg List.length hNil
    rw [length_hexStr] at hLength
    exact absurd hLength (Nat.ne_of_gt hMore)
  rw [hexStr_append]
  constructor
  · intro hLe
    by_contra hNot
    have hShort := (hexStr_le_iff hA hFirst).mpr (not_lt.mp hNot)
    have hMoreThan :=
      lt_of_le_of_lt hShort
        (lt_append (hexStr width (b / 16 ^ more)) hTail)
    exact absurd hLe (not_le.mpr hMoreThan)
  · intro hLess
    have hShort := hexStr_lt_hexStr hLess hA
    have hAll :=
      append_lt_append hShort (by simp) (hexStr more b) []
    rw [List.append_nil] at hAll
    exact le_of_lt hAll

---- Blocks

/- The last digits of a multiple. -/
theorem hexStr_mul_pow (width n : Nat) :
    hexStr width (n * 16 ^ width) =
      List.replicate width (cp '0') := by
  induction width with
  | zero => rfl
  | succ width ih =>
      have hDigit : n * 16 ^ (width + 1) % 16 = 0 := by
        rw [pow_succ, ← Nat.mul_assoc, Nat.mul_mod_left]
      have hRest : n * 16 ^ (width + 1) / 16 = n * 16 ^ width := by
        rw [pow_succ, ← Nat.mul_assoc,
          Nat.mul_div_cancel _ (by decide)]
      rw [hexStr_succ, hDigit, hRest, ih, List.replicate_succ']
      rfl

/- The last digits of the number before a multiple. -/
theorem hexStr_pred_pow (width n : Nat) :
    hexStr width (n * 16 ^ width + (16 ^ width - 1)) =
      List.replicate width (cp 'f') := by
  induction width with
  | zero => rfl
  | succ width ih =>
      have hPos : 0 < 16 ^ width := Nat.pow_pos (by decide)
      have hSplit :
          n * 16 ^ (width + 1) + (16 ^ (width + 1) - 1) =
            15 + 16 * (n * 16 ^ width + (16 ^ width - 1)) := by
        rw [pow_succ, ← Nat.mul_assoc]
        omega
      rw [hexStr_succ, hSplit,
        Nat.add_mul_div_left _ _ (by decide),
        Nat.add_mul_mod_self_left, Nat.div_eq_of_lt (by decide),
        Nat.zero_add, ih, List.replicate_succ']
      rfl

---- Reading

theorem hexDigitVal_hexDigit
    {d : Nat}
    (hDigit : d < 16) :
    hexDigitVal (hexDigit d) = some d := by
  interval_cases d <;> rfl

theorem hexNat_append_singleton
    (s : Str) (c : Nat) :
    hexNat (s ++ [c]) =
      (hexNat s).bind fun n =>
        (hexDigitVal c).map (16 * n + ·) := by
  unfold hexNat
  simp [List.foldlM_append]

/- A numeral is read as its number, up to the width. -/
theorem hexNat_hexStr (width n : Nat) :
    hexNat (hexStr width n) = some (n % 16 ^ width) := by
  induction width generalizing n with
  | zero =>
      rw [pow_zero, Nat.mod_one]
      rfl
  | succ width ih =>
      have hMod := Nat.mod_mul (x := n) (a := 16) (b := 16 ^ width)
      rw [hexStr_succ, hexNat_append_singleton, ih,
        Option.bind_some,
        hexDigitVal_hexDigit (Nat.mod_lt n (by decide)),
        Option.map_some, pow_succ', hMod, Nat.add_comm]

end Lib
