import ThreatOrbit.Lib.Iso

/-
  Moments in UTC as texts, with the microseconds where there
  are any, compared with the text of a whole second.

  Key definitions:
    * `UtcTime`, `UtcTime.text`
-/

---- Moments

namespace Lib

/- A moment of the calendar, in UTC. -/
structure UtcTime where
  second : Nat
  micro : Nat
  second_lt : second < calendarSeconds
  micro_lt : micro < 1000000
deriving DecidableEq

/- The microseconds from the start of year 1. -/
def UtcTime.micros (t : UtcTime) : Nat :=
  t.second * 1000000 + t.micro

/- The date and the time of a second, without an offset. -/
def isoLocal (second : Nat) : Str :=
  let date := yearAndDay (second / 86400)
  let day := monthAndDay date.1 date.2
  let clock := second % 86400
  pad 4 date.1 ++ lit "-" ++ pad 2 day.1 ++ lit "-" ++
    pad 2 (day.2 + 1) ++ lit "T" ++ pad 2 (clock / 3600) ++
    lit ":" ++ pad 2 (clock / 60 % 60) ++ lit ":" ++
    pad 2 (clock % 60)

/- `isoformat`. -/
def UtcTime.text (t : UtcTime) : Str :=
  if t.micro = 0 then isoSecond t.second
  else
    isoLocal t.second ++
      (lit "." ++ (pad 6 t.micro ++ lit "+00:00"))

theorem isoSecond_split (second : Nat) :
    isoSecond second = isoLocal second ++ lit "+00:00" := by
  unfold isoSecond dayText clockText isoLocal
  simp only [List.append_assoc]

theorem length_isoLocal (a b : Nat) :
    (isoLocal a).length = (isoLocal b).length := by
  unfold isoLocal
  simp only [List.length_append, length_pad]

/- Texts of seconds are ordered by their dates and times. -/
theorem isoLocal_lt
    {a b : Nat}
    (hLess : a < b) (hBound : b < calendarSeconds) :
    isoLocal a < isoLocal b := by
  have hText := isoSecond_lt hLess hBound
  by_contra hNot
  rw [isoSecond_split, isoSecond_split] at hText
  rcases (not_lt.mp hNot).lt_or_eq with hMore | hSame
  · exact lt_asymm hText
      (append_lt_append hMore (length_isoLocal b a) _ _)
  · rw [hSame] at hText
    exact lt_irrefl _ hText

/- The text of a moment is before that of a whole second if and
only if the moment is: a fraction of a second is written
after the second, and `.` comes after `+`. -/
theorem UtcTime.text_lt_iff
    (t : UtcTime) {second : Nat}
    (hBound : second < calendarSeconds) :
    t.text < isoSecond second ↔ t.second < second := by
  unfold UtcTime.text
  split
  · exact isoSecond_lt_iff t.second_lt hBound
  · constructor
    · intro hLess
      by_contra hNot
      rw [isoSecond_split] at hLess
      rcases Nat.eq_or_lt_of_le (not_lt.mp hNot) with
        rfl | hMore
      · have hTail :
            lit "+00:00" <
              lit "." ++ (pad 6 t.micro ++ lit "+00:00") :=
          List.cons_lt_cons_iff.mpr (Or.inl (by decide))
        exact lt_asymm hLess (append_lt_append_left hTail _)
      · exact lt_asymm hLess
          (append_lt_append (isoLocal_lt hMore t.second_lt)
            (length_isoLocal _ _) _ _)
    · intro hLess
      rw [isoSecond_split]
      exact append_lt_append (isoLocal_lt hLess hBound)
        (length_isoLocal _ _) _ _

end Lib
