import Mathlib

/-
  Floating-point numbers by what they stand for: operations
  whose results are near the exact ones.

  Key definitions:
    * `Near`, `Doubles`, `halved`
    * `exactDoubles`
-/

---- Operations

namespace Lib

/- A result is near the exact one: a few times the unit
roundoff away, also where it underflows. -/
def Near (approx exact : ℝ) : Prop :=
  |approx - exact| ≤ (|exact| + 1) / 2 ^ 45

/- Finite floating-point numbers, as far as scores and dates
use them: `halfPow x` is `0.5 ** x`, `ratio m n` is `m / n` of
integers, `exceeds x n` is `x > n`, `round` rounds to an
integer, and `dayMicros x` are the microseconds of
`timedelta(days=x)`, `none` where it raises. The ranges
leave out overflow. -/
class Doubles (F : Type) where
  val : F → ℝ
  ofInt : Int → F
  ratio : Int → Int → F
  div : F → F → F
  mul : F → F → F
  halfPow : F → F
  log2 : F → F
  exceeds : F → Int → Bool
  round : F → Int
  dayMicros : F → Option Int
  ofInt_exact : ∀ n : Int, |n| ≤ 2 ^ 53 → val (ofInt n) = n
  ofInt_near :
    ∀ n : Int, |n| ≤ 2 ^ 63 →
      |val (ofInt n) - n| ≤ |(n : ℝ)| / 2 ^ 45
  ratio_near :
    ∀ m n : Int, |m| ≤ 2 ^ 63 → 0 < n → n ≤ 2 ^ 53 →
      Near (val (ratio m n)) (m / n)
  div_near :
    ∀ a b, |val a| ≤ 2 ^ 100 → 1 / 2 ≤ val b →
      Near (val (div a b)) (val a / val b)
  mul_near :
    ∀ a b, |val a * val b| ≤ 2 ^ 100 →
      Near (val (mul a b)) (val a * val b)
  halfPow_near :
    ∀ a, -1 ≤ val a →
      Near (val (halfPow a)) ((1 / 2) ^ val a)
  log2_near :
    ∀ a, 1 / 2 ≤ val a → val a ≤ 2 ^ 100 →
      Near (val (log2 a)) (Real.logb 2 (val a))
  exceeds_iff : ∀ a n, exceeds a n = true ↔ (n : ℝ) < val a
  round_near : ∀ a, |(round a : ℝ) - val a| ≤ 1 / 2
  dayMicros_near :
    ∀ a m, dayMicros a = some m →
      |(m : ℝ) - val a * 86400000000| ≤ 1

/- What is left of one when it is halved `x` times. -/
noncomputable def halved (x : ℝ) : ℝ :=
  (1 / 2) ^ x

theorem near_self (x : ℝ) : Near x x := by
  unfold Near
  rw [sub_self, abs_zero]
  positivity

/- Numbers without rounding. -/
@[reducible] noncomputable def exactDoubles : Doubles ℝ where
  val x := x
  ofInt n := n
  ratio m n := m / n
  div a b := a / b
  mul a b := a * b
  halfPow a := (1 / 2) ^ a
  log2 a := Real.logb 2 a
  exceeds a n := decide ((n : ℝ) < a)
  round a := round a
  dayMicros a := some (round (a * 86400000000))
  ofInt_exact _ _ := rfl
  ofInt_near n _ := by
    rw [sub_self, abs_zero]
    positivity
  ratio_near _ _ _ _ _ := near_self _
  div_near _ _ _ _ := near_self _
  mul_near _ _ _ := near_self _
  halfPow_near _ _ := near_self _
  log2_near _ _ _ := near_self _
  exceeds_iff _ _ := decide_eq_true_iff
  round_near a := by
    rw [abs_sub_comm]
    exact abs_sub_round a
  dayMicros_near a m hM := by
    have hClose := abs_sub_round (a * 86400000000)
    rw [Option.some.injEq] at hM
    rw [← hM, abs_sub_comm]
    linarith

/- A near result of a bounded exact one, by its error. -/
theorem Near.le
    {approx exact bound : ℝ}
    (hNear : Near approx exact) (hBound : |exact| ≤ bound) :
    |approx - exact| ≤ (bound + 1) / 2 ^ 45 := by
  unfold Near at hNear
  apply le_trans hNear
  gcongr

/- The quotient of two numbers that are known up to an
error. -/
theorem quotient_close
    {p q h k e : ℝ}
    (hPos : 1 ≤ h) (hTop : |q - p| ≤ e)
    (hBottom : |k - h| ≤ h / 2 ^ 45) :
    |q / k - p / h| ≤ 2 * e + 2 * |p| / 2 ^ 45 := by
  have hHalf : h / 2 ≤ k := by
    have hBounds := abs_le.mp hBottom
    have hSmall : h / 2 ^ 45 ≤ h / 2 := by
      gcongr
      norm_num
    linarith
  have hK : 0 < k := by linarith
  have hH : 0 < h := by linarith
  have hSplit :
      q / k - p / h = (q - p) / k + p / h * ((h - k) / k) := by
    field_simp
    ring
  have hFirst : |(q - p) / k| ≤ 2 * e := by
    rw [abs_div, abs_of_pos hK, div_le_iff₀ hK]
    have hE : 0 ≤ e := le_trans (abs_nonneg _) hTop
    nlinarith
  have hRate : |(h - k) / k| ≤ 2 / 2 ^ 45 := by
    rw [abs_div, abs_of_pos hK, div_le_iff₀ hK, abs_sub_comm]
    apply le_trans hBottom
    linarith
  have hWhole : |p / h| ≤ |p| := by
    rw [abs_div, abs_of_pos hH]
    exact div_le_self (abs_nonneg p) hPos
  have hSecond : |p / h * ((h - k) / k)| ≤ |p| * (2 / 2 ^ 45) := by
    rw [abs_mul]
    exact mul_le_mul hWhole hRate (abs_nonneg _) (abs_nonneg p)
  rw [hSplit]
  apply le_trans (abs_add_le _ _)
  linarith

/- A product of two numbers that are known up to an error,
over the one. -/
theorem product_close
    {p h k l s e : ℝ}
    (hPos : 1 ≤ h) (hFirst : |k - h| ≤ h / 2 ^ 45)
    (hSecond : |l - s| ≤ e) (hLe : |l| ≤ 8)
    (hNear : Near p (k * l)) :
    |p / h - s| ≤ e + 1 / 10 ^ 11 := by
  have hH : 0 < h := by linarith
  have hSplit : |k * l - h * l| ≤ h / 2 ^ 45 * 8 := by
    rw [← sub_mul, abs_mul]
    exact mul_le_mul hFirst hLe (abs_nonneg _) (by positivity)
  have hWhole : |h * l| ≤ h * 8 := by
    rw [abs_mul, abs_of_pos hH]
    gcongr
  have hSplits := abs_le.mp hSplit
  have hWholes := abs_le.mp hWhole
  have hProduct : |k * l| ≤ 16 * h := by
    rw [abs_le]
    constructor
    · linarith
    · linarith
  have hNears := abs_le.mp (hNear.le hProduct)
  have hExact : |h * l - h * s| ≤ h * e := by
    rw [← mul_sub, abs_mul, abs_of_pos hH]
    gcongr
  have hExacts := abs_le.mp hExact
  rw [abs_le]
  constructor
  · rw [le_sub_iff_add_le, le_div_iff₀ hH]
    linarith
  · rw [sub_le_iff_le_add, div_le_iff₀ hH]
    linarith

---- Halving

theorem one_sub_half_le
    {d : ℝ}
    (hD : 0 ≤ d) :
    1 - (1 / 2 : ℝ) ^ d ≤ d := by
  have hExp : (1 / 2 : ℝ) ^ d = Real.exp (-(Real.log 2 * d)) := by
    rw [Real.rpow_def_of_pos (by norm_num), one_div,
      Real.log_inv]
    ring_nf
  have hBelow := Real.add_one_le_exp (-(Real.log 2 * d))
  have hLog : Real.log 2 ≤ 1 := by
    have hTwo := Real.log_two_lt_d9
    linarith
  have hProduct : Real.log 2 * d ≤ d := by
    nlinarith
  rw [hExp]
  linarith

/- Halving changes slowly. -/
theorem half_lipschitz
    {p q : ℝ}
    (hP : -1 ≤ p) (hQ : -1 ≤ q) :
    |(1 / 2 : ℝ) ^ p - (1 / 2 : ℝ) ^ q| ≤ 2 * |p - q| := by
  wlog hLe : p ≤ q generalizing p q with hOther
  · rw [abs_sub_comm, abs_sub_comm p q]
    exact hOther hQ hP (le_of_lt (not_le.mp hLe))
  have hSplit : (1 / 2 : ℝ) ^ q = (1 / 2) ^ p * (1 / 2) ^ (q - p) := by
    rw [← Real.rpow_add (by norm_num)]
    ring_nf
  have hTwo : (1 / 2 : ℝ) ^ p ≤ 2 := by
    have hMono : (1 / 2 : ℝ) ^ p ≤ (1 / 2) ^ (-1 : ℝ) :=
      Real.rpow_le_rpow_of_exponent_ge (by norm_num)
        (by norm_num) hP
    rw [Real.rpow_neg_one] at hMono
    linarith
  have hPos : 0 < (1 / 2 : ℝ) ^ p := by positivity
  have hDrop := one_sub_half_le (sub_nonneg.mpr hLe)
  have hSmall : (1 / 2 : ℝ) ^ (q - p) ≤ 1 :=
    Real.rpow_le_one (by norm_num) (by norm_num)
      (sub_nonneg.mpr hLe)
  have hDiff : |p - q| = q - p := by
    rw [abs_sub_comm, abs_of_nonneg (sub_nonneg.mpr hLe)]
  rw [hSplit, hDiff, abs_le]
  constructor
  · nlinarith
  · nlinarith

/- So does the logarithm, away from zero. -/
theorem logb_close
    {p q : ℝ}
    (hP : 1 / 2 ≤ p) (hQ : 1 / 2 ≤ q) :
    |Real.logb 2 p - Real.logb 2 q| ≤ 4 * |p - q| := by
  wlog hLe : p ≤ q generalizing p q with hOther
  · rw [abs_sub_comm, abs_sub_comm p q]
    exact hOther hQ hP (le_of_lt (not_le.mp hLe))
  have hPPos : 0 < p := by linarith
  have hQPos : 0 < q := by linarith
  have hLog : 1 / 2 ≤ Real.log 2 := by
    have hTwo := Real.log_two_gt_d9
    linarith
  have hMono : Real.logb 2 p ≤ Real.logb 2 q :=
    Real.logb_le_logb_of_le (by norm_num) hPPos hLe
  have hRatio : Real.log (q / p) ≤ 2 * (q - p) := by
    have hBelow := Real.log_le_sub_one_of_pos (div_pos hQPos hPPos)
    have hDiff : q / p - 1 = (q - p) / p := by
      field_simp
    have hDouble : (q - p) / p ≤ 2 * (q - p) := by
      rw [div_le_iff₀ hPPos]
      nlinarith
    linarith
  have hQuotient : Real.logb 2 q - Real.logb 2 p ≤ 4 * (q - p) := by
    rw [← Real.logb_div hQPos.ne' hPPos.ne']
    unfold Real.logb
    rw [div_le_iff₀ (by linarith)]
    nlinarith
  rw [abs_sub_comm, abs_sub_comm p, abs_of_nonneg (by linarith),
    abs_of_nonneg (by linarith)]
  exact hQuotient

/- As many halvings as the logarithm of their ratio bring a
number down to another. -/
theorem mul_half_logb
    {c r : ℝ}
    (hC : 0 < c) (hR : 0 < r) :
    c * (1 / 2) ^ Real.logb 2 (c / r) = r := by
  have hRatio : 0 < c / r := div_pos hC hR
  rw [one_div, Real.inv_rpow (by norm_num),
    Real.rpow_logb (by norm_num) (by norm_num) hRatio]
  field_simp

/- Until then it stays above the other, -/
theorem mul_half_ge
    {c r y e : ℝ}
    (hR : 0 < r) (hLe : r ≤ c) (hE : 0 ≤ e)
    (hY : y ≤ Real.logb 2 (c / r) + e) :
    r - 2 * c * e ≤ c * (1 / 2) ^ y := by
  have hC : 0 < c := by linarith
  have hLog : 0 ≤ Real.logb 2 (c / r) :=
    Real.logb_nonneg (by norm_num) ((one_le_div hR).mpr hLe)
  have hExact := mul_half_logb hC hR
  have hMono : (1 / 2 : ℝ) ^ (Real.logb 2 (c / r) + e) ≤ (1 / 2) ^ y :=
    Real.rpow_le_rpow_of_exponent_ge (by norm_num)
      (by norm_num) hY
  generalize Real.logb 2 (c / r) = stop at *
  have hSlow :=
    half_lipschitz (by linarith : -1 ≤ stop)
      (by linarith : -1 ≤ stop + e)
  rw [sub_add_cancel_left, abs_neg, abs_of_nonneg hE] at hSlow
  have hSlows := (abs_le.mp hSlow).2
  nlinarith

/- and from then on below it. -/
theorem mul_half_le
    {c r y e : ℝ}
    (hR : 0 < r) (hLe : r ≤ c) (hE : 0 ≤ e) (hOne : e ≤ 1)
    (hY : Real.logb 2 (c / r) - e ≤ y) :
    c * (1 / 2) ^ y ≤ r + 2 * c * e := by
  have hC : 0 < c := by linarith
  have hLog : 0 ≤ Real.logb 2 (c / r) :=
    Real.logb_nonneg (by norm_num) ((one_le_div hR).mpr hLe)
  have hExact := mul_half_logb hC hR
  have hMono : (1 / 2 : ℝ) ^ y ≤ (1 / 2) ^ (Real.logb 2 (c / r) - e) :=
    Real.rpow_le_rpow_of_exponent_ge (by norm_num)
      (by norm_num) hY
  generalize Real.logb 2 (c / r) = stop at *
  have hSlow :=
    half_lipschitz (by linarith : -1 ≤ stop - e)
      (by linarith : -1 ≤ stop)
  rw [sub_sub_cancel_left, abs_neg, abs_of_nonneg hE] at hSlow
  have hSlows := (abs_le.mp hSlow).2
  nlinarith

end Lib
