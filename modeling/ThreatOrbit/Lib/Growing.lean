import Mathlib.Data.Set.Lattice

/-
  Folds that only add to what is known, so that neither the
  order nor the number of times that something is taken in
  makes a difference.
-/

namespace Lib

variable {S E F : Type*}

/- Every step from a state of the invariant keeps it, and adds
what its input says to the facts. -/
structure Grows
    (step : S → E → S)
    (inv : S → Prop)
    (facts : S → F → Prop)
    (tells : E → F → Prop) : Prop where
  keeps : ∀ s e, inv s → inv (step s e)
  adds : ∀ s e f, inv s → (facts (step s e) f ↔ facts s f ∨ tells e f)

namespace Grows

variable {step : S → E → S} {inv : S → Prop}
variable {facts : S → F → Prop} {tells : E → F → Prop}

theorem foldl
    (h : Grows step inv facts tells) (es : List E) {s : S}
    (hInv : inv s) :
    inv (es.foldl step s) ∧
      ∀ f, facts (es.foldl step s) f ↔
        facts s f ∨ ∃ e ∈ es, tells e f := by
  induction es generalizing s with
  | nil => exact ⟨hInv, by simp⟩
  | cons e es ih =>
      obtain ⟨hKept, hFacts⟩ := ih (h.keeps s e hInv)
      refine ⟨hKept, fun f => ?_⟩
      rw [List.foldl_cons, hFacts, h.adds s e f hInv, or_assoc]
      simp only [List.mem_cons, exists_eq_or_imp]

/- Inputs that say the same add the same. -/
theorem of_same
    (h : Grows step inv facts tells) {es es' : List E}
    (hSame : ∀ f, (∃ e ∈ es, tells e f) ↔ ∃ e ∈ es', tells e f)
    {s : S}
    (hInv : inv s) (f : F) :
    facts (es.foldl step s) f ↔ facts (es'.foldl step s) f := by
  rw [(h.foldl es hInv).2, (h.foldl es' hInv).2, hSame]

end Grows

end Lib
