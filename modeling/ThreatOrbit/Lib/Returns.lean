import Mathlib.Tactic

/-
  Computations that return or raise, put together from
  others.
-/

---- Returning

namespace Lib

variable {α β ε ε' σ : Type}

@[simp]
theorem ok_returns (a : α) :
    ∃ b, (Except.ok a : Except ε α) = .ok b :=
  ⟨a, rfl⟩

@[simp]
theorem error_returns_iff (e : ε) :
    (∃ a, (Except.error e : Except ε α) = .ok a) ↔ False := by
  constructor
  · rintro ⟨a, hA⟩
    cases hA
  · exact False.elim

/- A result whose exception is renamed. -/
theorem mapError_returns_iff
    {x : Except ε α} {g : ε → ε'} :
    (∃ a, x.mapError g = .ok a) ↔ ∃ a, x = .ok a := by
  cases x with
  | error e =>
      exact (error_returns_iff (g e)).trans
        (error_returns_iff e).symm
  | ok a => exact iff_of_true ⟨a, rfl⟩ ⟨a, rfl⟩

theorem bind_returns_iff
    {x : Except ε α} {f : α → Except ε β} :
    (∃ b, (x >>= f) = .ok b) ↔
      ∃ a, x = .ok a ∧ ∃ b, f a = .ok b := by
  cases x with
  | error e =>
      constructor
      · rintro ⟨b, hB⟩
        cases hB
      · rintro ⟨a, hA, _⟩
        cases hA
  | ok a =>
      constructor
      · rintro ⟨b, hB⟩
        exact ⟨a, rfl, b, hB⟩
      · rintro ⟨a', hA, b, hB⟩
        cases hA
        exact ⟨b, hB⟩

/- To return what has a property is to return, and only what
has it. -/
theorem returns_with_iff
    {x : Except ε α} {P : α → Prop} :
    (∃ a, x = .ok a ∧ P a) ↔
      (∃ a, x = .ok a) ∧ ∀ a, x = .ok a → P a := by
  constructor
  · rintro ⟨a, hA, hP⟩
    refine ⟨⟨a, hA⟩, ?_⟩
    intro b hB
    rw [hA] at hB
    cases hB
    exact hP
  · rintro ⟨⟨a, hA⟩, hAll⟩
    exact ⟨a, hA, hAll a hA⟩

/- Steps of which each raises or not, whatever they start
from, raise together where one does. -/
theorem foldlM_returns_iff
    {step : σ → β → Except ε σ} {returns : β → Prop}
    (hStep : ∀ d b, (∃ d', step d b = .ok d') ↔ returns b)
    (items : List β) (d : σ) :
    (∃ d', items.foldlM step d = .ok d') ↔
      ∀ b ∈ items, returns b := by
  induction items generalizing d with
  | nil => exact ⟨fun _ _ hB => (List.not_mem_nil hB).elim,
      fun _ => ⟨d, rfl⟩⟩
  | cons b rest ih =>
      rw [List.foldlM_cons, List.forall_mem_cons, ← hStep d b]
      cases hOne : step d b with
      | error e =>
          constructor
          · rintro ⟨d', hD⟩
            cases hD
          · rintro ⟨⟨d', hD⟩, _⟩
            cases hD
      | ok one =>
          refine (ih one).trans ⟨fun hRest => ?_, And.right⟩
          exact ⟨⟨one, rfl⟩, hRest⟩

end Lib
