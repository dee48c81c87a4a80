import ThreatOrbit.Lib.Doubles

/-
  Floating-point numbers whose sums and products are the exact
  ones, rounded. Rounding keeps the order, and so do they.

  Key definitions:
    * `RoundedDoubles`
    * `exactRounding`
-/

---- Rounding

namespace Lib

/- What is known of floating-point numbers beyond the size of
their errors: conversions, quotients of integers and
products are rounded to the nearest number, powers are not
negative, and `round` keeps the order. The ranges leave out
overflow. -/
class RoundedDoubles (F : Type) extends Doubles F where
  nearest : ℝ → ℝ
  nearest_mono : Monotone nearest
  nearest_near :
    ∀ x, |x| ≤ 2 ^ 200 → Near (nearest x) x
  ofInt_nearest :
    ∀ n : Int, |n| ≤ 2 ^ 200 → val (ofInt n) = nearest n
  ratio_nearest :
    ∀ m n : Int, |m| ≤ 2 ^ 53 → 0 < n → n ≤ 2 ^ 53 →
      val (ratio m n) = nearest (m / n)
  mul_nearest :
    ∀ a b, |val a * val b| ≤ 2 ^ 200 →
      val (mul a b) = nearest (val a * val b)
  halfPow_nonneg :
    ∀ a, -1 ≤ val a → 0 ≤ val (halfPow a)
  round_mono : ∀ a b, val a ≤ val b → round a ≤ round b

theorem halfPow_exact_nonneg
    (a : ℝ) (_ : -1 ≤ a) :
    0 ≤ ((1 : ℝ) / 2) ^ a :=
  Real.rpow_nonneg (by norm_num) a

theorem round_exact_mono
    (a b : ℝ) (hLe : a ≤ b) :
    round a ≤ round b := by
  rw [round_eq, round_eq]
  exact Int.floor_le_floor (add_le_add_left hLe _)

theorem exact_near
    (x : ℝ) (_ : |x| ≤ 2 ^ 200) :
    Near x x :=
  near_self x

theorem exact_ofInt
    (n : Int) (_ : |n| ≤ 2 ^ 200) :
    (n : ℝ) = n :=
  rfl

theorem exact_ratio
    (m n : Int) (_ : |m| ≤ 2 ^ 53) (_ : 0 < n) (_ : n ≤ 2 ^ 53) :
    (m : ℝ) / n = m / n :=
  rfl

theorem exact_mul
    (a b : ℝ) (_ : |a * b| ≤ 2 ^ 200) :
    a * b = a * b :=
  rfl

/- Numbers without rounding are rounded to themselves. -/
@[reducible] noncomputable def exactRounding :
    RoundedDoubles ℝ where
  toDoubles := exactDoubles
  nearest x := x
  nearest_mono := monotone_id
  nearest_near := exact_near
  ofInt_nearest := exact_ofInt
  ratio_nearest := exact_ratio
  mul_nearest := exact_mul
  halfPow_nonneg := halfPow_exact_nonneg
  round_mono := round_exact_mono

end Lib

---- Order

namespace Lib

namespace RoundedDoubles

variable {F : Type} [RoundedDoubles F]

/- A rounded number is at most twice as far from zero, up to
a unit. -/
theorem abs_nearest_le
    {x bound : ℝ}
    (hX : |x| ≤ bound) (hBound : bound ≤ 2 ^ 200) :
    |nearest F x| ≤ 2 * bound + 1 := by
  have hNear := abs_le.mp
    ((nearest_near (F := F) x (hX.trans hBound)).le hX)
  have hs := abs_le.mp hX
  have hPos : 0 ≤ bound := le_trans (abs_nonneg x) hX
  have hSmall : (bound + 1) / 2 ^ 45 ≤ bound + 1 :=
    div_le_self (by linarith) (by norm_num)
  rw [abs_le]
  constructor
  · linarith
  · linarith

theorem ofInt_mono
    {m n : Int}
    (hM : |m| ≤ 2 ^ 200) (hN : |n| ≤ 2 ^ 200) (hLe : m ≤ n) :
    Doubles.val (Doubles.ofInt m : F) ≤
      Doubles.val (Doubles.ofInt n : F) := by
  rw [ofInt_nearest m hM, ofInt_nearest n hN]
  exact nearest_mono (by exact_mod_cast hLe)

/- A number that is not negative stays so. -/
theorem ofInt_nonneg
    {n : Int}
    (hN : |n| ≤ 2 ^ 200) (hPos : 0 ≤ n) :
    0 ≤ Doubles.val (Doubles.ofInt n : F) := by
  have hZero : Doubles.val (Doubles.ofInt 0 : F) = 0 := by
    rw [Doubles.ofInt_exact _ (by norm_num), Int.cast_zero]
  rw [← hZero]
  exact ofInt_mono (by norm_num) hN hPos

theorem ofInt_abs_le
    {n : Int} {bound : ℝ}
    (hN : |(n : ℝ)| ≤ bound) (hBound : bound ≤ 2 ^ 200) :
    |Doubles.val (Doubles.ofInt n : F)| ≤ 2 * bound + 1 := by
  have hInt : |n| ≤ 2 ^ 200 := by
    have hReal := hN.trans hBound
    exact_mod_cast hReal
  rw [ofInt_nearest n hInt]
  exact abs_nearest_le hN hBound

/- Products keep the order of their first factors, -/
theorem mul_mono_left
    {a b c : F}
    (hA : |Doubles.val a * Doubles.val c| ≤ 2 ^ 200)
    (hB : |Doubles.val b * Doubles.val c| ≤ 2 ^ 200)
    (hC : 0 ≤ Doubles.val c) (hLe : Doubles.val a ≤ Doubles.val b) :
    Doubles.val (Doubles.mul a c) ≤
      Doubles.val (Doubles.mul b c) := by
  rw [mul_nearest a c hA, mul_nearest b c hB]
  exact nearest_mono (mul_le_mul_of_nonneg_right hLe hC)

/- and of their second ones. -/
theorem mul_mono_right
    {a b c : F}
    (hB : |Doubles.val a * Doubles.val b| ≤ 2 ^ 200)
    (hC : |Doubles.val a * Doubles.val c| ≤ 2 ^ 200)
    (hA : 0 ≤ Doubles.val a) (hLe : Doubles.val b ≤ Doubles.val c) :
    Doubles.val (Doubles.mul a b) ≤
      Doubles.val (Doubles.mul a c) := by
  rw [mul_nearest a b hB, mul_nearest a c hC]
  exact nearest_mono (mul_le_mul_of_nonneg_left hLe hA)

/- A power of a half with an exponent that is not far below
zero is not large. -/
theorem halfPow_le
    {a : F}
    (hA : -1 ≤ Doubles.val a) :
    Doubles.val (Doubles.halfPow a) ≤ 3 := by
  have hPower : |((1 : ℝ) / 2) ^ Doubles.val a| ≤ 2 := by
    have hMono : (1 / 2 : ℝ) ^ Doubles.val a ≤
        (1 / 2) ^ (-1 : ℝ) :=
      Real.rpow_le_rpow_of_exponent_ge (by norm_num)
        (by norm_num) hA
    rw [Real.rpow_neg_one] at hMono
    rw [abs_of_nonneg (Real.rpow_nonneg (by norm_num) _)]
    linarith
  have hNear := abs_le.mp
    ((Doubles.halfPow_near a hA).le hPower)
  have hUpper := abs_le.mp hPower
  linarith

end RoundedDoubles

end Lib
