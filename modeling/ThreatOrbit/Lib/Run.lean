import Mathlib

/-
  Runs of a labelled step relation.

  A run records every transition it takes, with the state
  before and the state after, so a condition on the steps
  of a run and a property of the states it reaches are both
  statements about one list.

  Key definitions:
    * `Transition`
    * `Run`
    * `Chained`
-/

---- Runs

namespace Lib

/- One step of a run, with the states it leads between. -/
structure Transition (σ α : Type*) where
  pre : σ
  label : α
  post : σ

/- The run from a state to a state along its transitions. -/
inductive Run
    {σ α : Type*}
    (step : σ → α → σ → Prop) :
    σ → List (Transition σ α) → σ → Prop
| nil (s : σ) : Run step s [] s
| cons
    {s t u : σ}
    {a : α}
    {rest : List (Transition σ α)}
    (hStep : step s a t)
    (hRest : Run step t rest u) :
    Run step s (⟨s, a, t⟩ :: rest) u

end Lib

---- Rules

namespace Lib

namespace Run

variable {σ α : Type*}
variable {step : σ → α → σ → Prop}

/- Two runs that meet are one run. -/
theorem append
    {s t u : σ} {first second : List (Transition σ α)}
    (hFirst : Run step s first t) (hSecond : Run step t second u) :
    Run step s (first ++ second) u := by
  induction hFirst with
  | nil s => exact hSecond
  | cons hStep _ ih => exact .cons hStep (ih hSecond)

/- The invariant rule: what holds at the start and is kept by
every step of the run holds at the end. -/
theorem invariant
    {I : σ → Prop}
    (hKeep : ∀ s a t, I s → step s a t → I t)
    {s t : σ} {trace : List (Transition σ α)}
    (hRun : Run step s trace t) (hStart : I s) :
    I t := by
  induction hRun with
  | nil s => exact hStart
  | cons hStep _ ih => exact ih (hKeep _ _ _ hStart hStep)

/- A run whose steps meet a condition is a run of the steps
that meet it. -/
theorem restrict
    {C : Transition σ α → Prop} {s t : σ}
    {trace : List (Transition σ α)}
    (hRun : Run step s trace t) (hCond : ∀ e ∈ trace, C e) :
    Run (fun s a t => step s a t ∧ C ⟨s, a, t⟩) s trace t := by
  induction hRun with
  | nil s => exact .nil s
  | cons hStep _ ih =>
      rw [List.forall_mem_cons] at hCond
      exact .cons ⟨hStep, hCond.1⟩ (ih hCond.2)

/- Every transition of a run is a step, from a state with
the invariant. -/
theorem forall_step
    {I : σ → Prop}
    (hKeep : ∀ s a t, I s → step s a t → I t)
    {s t : σ} {trace : List (Transition σ α)}
    (hRun : Run step s trace t) (hStart : I s) :
    ∀ e ∈ trace, I e.pre ∧ step e.pre e.label e.post := by
  induction hRun with
  | nil s => simp
  | cons hStep _ ih =>
      rw [List.forall_mem_cons]
      exact ⟨⟨hStart, hStep⟩, ih (hKeep _ _ _ hStart hStep)⟩

/- The invariant rule with an exact condition on the steps.
A step from a state with the invariant keeps it when it
meets the condition, and breaks the property otherwise.
Then every state a run reaches has the property exactly
when every step of the run meets the condition. -/
theorem forall_post_iff
    {I J : σ → Prop} {C : Transition σ α → Prop}
    (hImp : ∀ s, I s → J s)
    (hKeep :
      ∀ s a t, I s → step s a t → C ⟨s, a, t⟩ → I t)
    (hNeed :
      ∀ s a t, I s → step s a t → J t → C ⟨s, a, t⟩)
    {s t : σ} {trace : List (Transition σ α)}
    (hRun : Run step s trace t)
    (hStart : I s) :
    (∀ e ∈ trace, J e.post) ↔ ∀ e ∈ trace, C e := by
  induction hRun with
  | nil s => simp
  | @cons s t u a rest hStep hRest ih =>
      simp only [List.forall_mem_cons]
      constructor
      · rintro ⟨hPost, hLater⟩
        have hCond := hNeed s a t hStart hStep hPost
        have hNext := hKeep s a t hStart hStep hCond
        exact ⟨hCond, (ih hNext).mp hLater⟩
      · rintro ⟨hCond, hLater⟩
        have hNext := hKeep s a t hStart hStep hCond
        exact ⟨hImp t hNext, (ih hNext).mpr hLater⟩

end Run

end Lib

---- Logs That Replay

namespace Lib

section

variable {π ε : Type*}

/- A log leads from one position to another: every event was
recorded in the position the events before it lead to, and
the last one leads to the end. -/
def Chained
    (apply : π → ε → π)
    (before : ε → π) :
    π → List ε → π → Prop
| p, [], q => p = q
| p, e :: rest, q =>
    before e = p ∧ Chained apply before (apply p e) rest q

theorem chained_nil_iff
    {apply : π → ε → π} {before : ε → π} {p q : π} :
    Chained apply before p [] q ↔ p = q :=
  Iff.rfl

theorem chained_cons_iff
    {apply : π → ε → π} {before : ε → π} {p q : π} {e : ε}
    {rest : List ε} :
    Chained apply before p (e :: rest) q ↔
      before e = p ∧
        Chained apply before (apply p e) rest q :=
  Iff.rfl

/- The end of a log that replays is what its events make of
the start. -/
theorem Chained.foldl
    {apply : π → ε → π} {before : ε → π} {p q : π} {log : List ε}
    (hLog : Chained apply before p log q) :
    log.foldl apply p = q := by
  induction log generalizing p with
  | nil => exact hLog
  | cons e rest ih => exact ih hLog.2

end

---- Requests On Their Way

/- What holds of all that is on its way, after one of them
has gone on or ended. -/
theorem forall_update
    {κ α : Type*} [DecidableEq κ] {P : α → Prop}
    {calls : κ → Option α} {k : κ} {next : Option α}
    (hAll : ∀ i a, calls i = some a → P a)
    (hNext : ∀ a, next = some a → P a) :
    ∀ i a, Function.update calls k next i = some a → P a := by
  intro i a hCall
  by_cases hSame : i = k
  · rw [hSame, Function.update_self] at hCall
    exact hNext a hCall
  · rw [Function.update_of_ne hSame] at hCall
    exact hAll i a hCall

end Lib
