import Mathlib

/-
  Running means of outcomes, as exact rationals.

  Key definitions:
    * `mean`
    * `Unanimous`
-/

---- Running Means

namespace Lib

/- The running mean of `f` outcomes, `w` of them wins. -/
def mean (w f : Nat) : Rat :=
  (w : Rat) / (f : Rat)

/- One more outcome, as a number. -/
def outcome (ok : Bool) : Nat :=
  if ok then 1 else 0

/- The outcomes so far are those of the next one. -/
def Unanimous (w f : Nat) (ok : Bool) : Prop :=
  if ok then 0 < f ∧ w = f else w = 0

theorem mean_nonneg
    (w f : Nat) :
    0 ≤ mean w f := by
  unfold mean
  positivity

theorem mean_le_one
    {w f : Nat}
    (hWins : w ≤ f) :
    mean w f ≤ 1 := by
  unfold mean
  apply div_le_one_of_le₀
  · exact_mod_cast hWins
  · positivity

/- An outcome that is folded in as if `n` had been averaged
before gives the mean of one more exactly when `n` were,
or when all agree. -/
theorem mean_iff
    {w f n : Nat}
    (hWins : w ≤ f) (ok : Bool) :
    (mean w f * n + outcome ok) / ((n : Rat) + 1) =
        mean (w + outcome ok) (f + 1) ↔
      f = n ∨ Unanimous w f ok := by
  have hN : ((n : Rat) + 1) ≠ 0 := by positivity
  have hF : ((f : Rat) + 1) ≠ 0 := by positivity
  -- the mean times the number is the number of wins
  have hTotal : mean w f * f = w := by
    unfold mean
    rcases Nat.eq_zero_or_pos f with hZero | hPos
    · have hNone : w = 0 := by omega
      rw [hZero, hNone]
      simp
    · have hSome : (f : Rat) ≠ 0 := by positivity
      field_simp
  have hCross :
      (mean w f * n + outcome ok) / ((n : Rat) + 1) =
          mean (w + outcome ok) (f + 1) ↔
        (mean w f - outcome ok) * ((n : Rat) - f) = 0 := by
    unfold mean at hTotal ⊢
    rw [Nat.cast_add, Nat.cast_add, Nat.cast_one,
      div_eq_div_iff hN hF]
    constructor
    · intro hSame
      linear_combination hSame - hTotal * (n + 1)
    · intro hZero
      linear_combination hZero + hTotal * (n + 1)
  rw [hCross, mul_eq_zero, sub_eq_zero, sub_eq_zero, or_comm]
  have hCount : (n : Rat) = f ↔ f = n := by
    rw [Nat.cast_inj]
    exact eq_comm
  rw [hCount]
  apply or_congr_right'
  intro hLess
  unfold Unanimous mean outcome
  rcases Nat.eq_zero_or_pos f with hZero | hPos
  · have hNone : w = 0 := by omega
    rw [hZero, hNone]
    cases ok
    · simp
    · simp
  · have hSome : (f : Rat) ≠ 0 := by positivity
    rw [div_eq_iff hSome]
    cases ok
    · simp
    · simp only [if_true, Nat.cast_one, one_mul, Nat.cast_inj]
      exact ⟨fun h => ⟨hPos, h⟩, fun h => h.2⟩

/- A loss that is folded in and not counted keeps the mean
exactly when there is no win. -/
theorem mean_again_iff
    {w f n : Nat}
    (hWins : w ≤ f) :
    (mean w f * n + outcome false) / ((n : Rat) + 1) =
        mean w f ↔
      w = 0 := by
  have hN : ((n : Rat) + 1) ≠ 0 := by positivity
  have hZero : mean w f = 0 ↔ w = 0 := by
    unfold mean
    rw [div_eq_zero_iff, Nat.cast_eq_zero, Nat.cast_eq_zero]
    omega
  rw [div_eq_iff hN, ← hZero]
  unfold outcome
  simp only [Bool.false_eq_true, if_false, Nat.cast_zero]
  constructor
  · intro hSame
    linear_combination -hSame
  · intro hNone
    rw [hNone]
    ring

---- Counting Over An Update

variable {ι β : Type}
variable [DecidableEq ι]

theorem countP_update_of_not_mem
    {ids : List ι} {id : ι}
    (hNone : id ∉ ids) (f : ι → β) (v : β) (p : β → Bool) :
    ids.countP (fun i => p (Function.update f id v i)) =
      ids.countP (fun i => p (f i)) := by
  apply List.countP_congr
  intro i hI
  have hOther : i ≠ id := fun h => hNone (h ▸ hI)
  rw [Function.update_of_ne hOther]

/- An update of one of the places moves the count by what
it changes there. -/
theorem countP_update
    {ids : List ι} {id : ι}
    (hNodup : ids.Nodup) (hMem : id ∈ ids) (f : ι → β) (v : β)
    (p : β → Bool) :
    ids.countP (fun i => p (Function.update f id v i)) +
        (p (f id)).toNat =
      ids.countP (fun i => p (f i)) + (p v).toNat := by
  induction ids with
  | nil => cases hMem
  | cons i ids ih =>
      rw [List.nodup_cons] at hNodup
      rw [List.countP_cons, List.countP_cons]
      by_cases hHere : i = id
      · subst hHere
        rw [countP_update_of_not_mem hNodup.1,
          Function.update_self]
        cases p v
        · cases p (f i) <;> simp
        · cases p (f i) <;> simp
      · have hLater : id ∈ ids :=
          (List.mem_cons.mp hMem).resolve_left
            (fun h => hHere h.symm)
        have hRest := ih hNodup.2 hLater
        rw [Function.update_of_ne hHere]
        omega

end Lib
