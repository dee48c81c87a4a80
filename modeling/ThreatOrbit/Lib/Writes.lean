import Mathlib

/-
  Writes to a table, one after another: what is under a key in
  the end is the last that was written there.

  Key definitions:
    * `lastWrite`, `write`
-/

---- Writes

namespace Lib

variable {κ α : Type*} [DecidableEq κ]

/- The last value that is written under a key. -/
def lastWrite (key : κ) : List (κ × α) → Option α
| [] => none
| w :: rest =>
    (lastWrite key rest).or (if w.1 = key then some w.2 else none)

/- A table after some writes. -/
def write (table : κ → α) (writes : List (κ × α)) : κ → α :=
  fun key => (lastWrite key writes).getD (table key)

@[simp] theorem write_nil (table : κ → α) :
    write table [] = table :=
  rfl

theorem lastWrite_append
    (key : κ) (first second : List (κ × α)) :
    lastWrite key (first ++ second) =
      (lastWrite key second).or (lastWrite key first) := by
  induction first with
  | nil => simp [lastWrite]
  | cons w rest ih => simp only [List.cons_append, lastWrite, ih,
      Option.or_assoc]

theorem write_append
    (table : κ → α) (first second : List (κ × α)) :
    write table (first ++ second) =
      write (write table first) second := by
  funext key
  rw [write, write, lastWrite_append]
  cases lastWrite key second with
  | none => rfl
  | some value => rfl

/- A single write. -/
theorem write_singleton
    (table : κ → α) (key : κ) (value : α) :
    write table [(key, value)] = Function.update table key value := by
  funext other
  rw [write, lastWrite, Function.update_apply]
  by_cases hKey : key = other
  · simp [lastWrite, hKey]
  · simp [lastWrite, hKey, Ne.symm hKey]

/- A key that is written has a last write. -/
theorem exists_lastWrite
    {writes : List (κ × α)} {w : κ × α}
    (hW : w ∈ writes) :
    ∃ value, lastWrite w.1 writes = some value := by
  induction writes with
  | nil => exact absurd hW List.not_mem_nil
  | cons v rest ih =>
      rw [lastWrite]
      rcases List.mem_cons.mp hW with hHere | hLater
      · rw [← hHere, if_pos rfl]
        cases lastWrite w.1 rest with
        | none => exact ⟨_, rfl⟩
        | some value => exact ⟨_, rfl⟩
      · rcases ih hLater with ⟨value, hValue⟩
        rw [hValue]
        exact ⟨_, rfl⟩

/- A key has some value in the end exactly if the last write
there, if any, wrote it, and otherwise it had it before. -/
theorem write_eq_iff
    {table : κ → α} {writes : List (κ × α)} {key : κ} :
    write table writes key = table key ↔
      ∀ value, lastWrite key writes = some value →
        value = table key := by
  rw [write]
  cases lastWrite key writes with
  | none => simp
  | some value => simp

end Lib
