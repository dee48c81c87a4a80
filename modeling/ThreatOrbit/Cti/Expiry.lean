import ThreatOrbit.Cti.Maintenance

/-
  The verdict that an indicator has expired, on the lookups,
  the detail page, the list and in the maintenance pass.

  The pass and the detail page ask the rules, the lookups and
  the list the built-in constants.
-/

---- One Expiry

namespace ThreatOrbit.Cti

open Lib

open Intel (Instant DecayRule)

section

variable [Unicode] [Normalizer] [Capitals]

end

---- Rules That Decide Alike

open Intel (Instant DecayRule IocLifecycle effectiveConfidence
  decayTarget exactScore exactAge lifecycleOf)

section

theorem Bounded.sound
    {rule : DecayRule}
    (hBounded : Bounded rule) :
    rule.Sound where
  half_pos := hBounded.half.1
  half_le := le_trans hBounded.half.2 (by norm_num)
  revoke_le := le_trans hBounded.revoke.2 (by norm_num)
  age_pos := hBounded.age.1

theorem builtin_half
    [Unicode]
    (type : Str) :
    1 ≤ (builtinRule type).halfLifeDays ∧
      (builtinRule type).halfLifeDays ≤ 365 := by
  have hAll : ∀ key, ∀ n,
      lookup key decayHalfLifeDays = some n → 1 ≤ n ∧ n ≤ 365 := by
    intro key n hN
    unfold decayHalfLifeDays at hN
    simp only [lookup] at hN
    split_ifs at hN
    all_goals (cases hN; try decide)
  unfold builtinRule
  simp only
  cases hOwn : lookup (Unicode.lower type) decayHalfLifeDays with
  | none => decide
  | some n => exact hAll _ n hOwn

theorem builtin_bounded
    [Unicode]
    (type : Str) :
    Bounded (builtinRule type) := by
  have hHalf := builtin_half type
  refine ⟨⟨hHalf.1, by omega⟩, ⟨?_, ?_⟩, ⟨?_, ?_⟩⟩
  all_goals (unfold builtinRule; norm_num)

variable {F : Type} [Doubles F]
variable {rule other : DecayRule}

/- Where the exact score is not near the middle between two
numbers, it decides the rounded one. -/
theorem effective_le
    (hSound : rule.Sound) {confidence n : Nat}
    (hConfidence : confidence ≤ 100) {seen now : Instant}
    (hExact :
      exactScore confidence (some seen) now rule + 1 / 80 <
        n + 1 / 2) :
    effectiveConfidence F confidence (some seen) now rule ≤
      n := by
  have hScore := abs_le.mp
    (Intel.score_near (F := F) hSound hConfidence seen now)
  have hHalfPos : 0 < rule.halfLifeDays := hSound.half_pos
  unfold effectiveConfidence
  dsimp only
  rw [hSound.halfLife_eq, if_pos hHalfPos]
  generalize
    (Doubles.mul (Doubles.ofInt confidence)
      (Doubles.halfPow
        (Doubles.div (Intel.ageDays (some seen) now : F)
          (Doubles.ofInt rule.halfLifeDays)))) = score
    at hScore ⊢
  have hRound := abs_le.mp (Doubles.round_near score)
  have hLess : ((Doubles.round score : Int) : ℝ) <
      ((n + 1 : Int) : ℝ) := by
    push_cast
    linarith
  have hInt : Doubles.round score < (n + 1 : Int) := by
    exact_mod_cast hLess
  omega

theorem le_effective
    (hSound : rule.Sound) {confidence n : Nat}
    (hConfidence : confidence ≤ 100) {seen now : Instant}
    (hExact :
      (n : ℝ) - 1 / 2 <
        exactScore confidence (some seen) now rule - 1 / 80) :
    n ≤ effectiveConfidence F confidence (some seen) now
      rule := by
  have hScore := abs_le.mp
    (Intel.score_near (F := F) hSound hConfidence seen now)
  have hHalfPos : 0 < rule.halfLifeDays := hSound.half_pos
  unfold effectiveConfidence
  dsimp only
  rw [hSound.halfLife_eq, if_pos hHalfPos]
  generalize
    (Doubles.mul (Doubles.ofInt confidence)
      (Doubles.halfPow
        (Doubles.div (Intel.ageDays (some seen) now : F)
          (Doubles.ofInt rule.halfLifeDays)))) = score
    at hScore ⊢
  have hRound := abs_le.mp (Doubles.round_near score)
  have hLess : ((n - 1 : Int) : ℝ) <
      ((Doubles.round score : Int) : ℝ) := by
    push_cast
    linarith
  have hInt : (n - 1 : Int) < Doubles.round score := by
    exact_mod_cast hLess
  omega

end

---- Rules That Decide Differently

section

variable {F : Type} [Doubles F]
variable {rule other : DecayRule}

theorem epoch_in_calendar :
    (-62135596800000000 : Int) ≤ 0 ∧
      (0 : Int) < 253402300800000000 := by
  omega

def epoch : Instant := ⟨0, epoch_in_calendar⟩

end

---- When There Is One Expiry

open Intel (Instant DecayRule IocLifecycle effectiveConfidence
  decayTarget lifecycleOf)

section

variable {F : Type} [Doubles F]

variable [Unicode] [Normalizer] [Capitals]

omit [Unicode] [Normalizer] [Capitals] in
theorem active_ne_knownGood : lit "active" ≠ knownGood := by
  decide

end

---- Concrete Rules

local instance expiryUnicode : Unicode := asciiTables

local instance expiryCapitals : Capitals := asciiCapitals

local instance expiryNormalizer : Normalizer := ⟨id⟩

attribute [local instance] exactDoubles

end ThreatOrbit.Cti
