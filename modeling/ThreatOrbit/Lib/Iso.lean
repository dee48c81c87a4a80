import ThreatOrbit.Lib.Text

/-
  Dates of the calendar, and the texts of whole seconds.

  A moment is counted in seconds from the start of year 1.
  The texts of two moments, compared as texts, stand as the
  moments do.

  Key definitions:
    * `place`, `isoSecond`
    * `calendarSeconds`
-/

---- Numerals Of A Width

namespace Lib

/- A number in decimal digits, to a width. -/
@[grind =]
def pad : Nat → Nat → Str
| 0, _ => []
| width + 1, n => pad width (n / 10) ++ [cp '0' + n % 10]

theorem length_pad (width n : Nat) :
    (pad width n).length = width := by
  induction width generalizing n with
  | zero => rfl
  | succ width ih => simp [pad, ih]

/- Of two texts of one length, the first that differ decide,
whatever follows. -/
theorem append_lt_append
    {s t : Str}
    (hLess : s < t) (hLength : s.length = t.length) (u v : Str) :
    s ++ u < t ++ v := by
  induction s generalizing t with
  | nil =>
      cases t with
      | nil => exact absurd hLess (lt_irrefl _)
      | cons d t => cases hLength
  | cons c s ih =>
      cases t with
      | nil => cases hLength
      | cons d t =>
          rw [List.cons_append, List.cons_append,
            List.cons_lt_cons_iff]
          rcases List.cons_lt_cons_iff.mp hLess with
            hFirst | ⟨hSame, hRest⟩
          · exact Or.inl hFirst
          · exact Or.inr ⟨hSame, ih hRest (by simpa using hLength)⟩

theorem append_lt_append_left
    {u v : Str}
    (hLess : u < v) (s : Str) :
    s ++ u < s ++ v := by
  induction s with
  | nil => exact hLess
  | cons c s ih =>
      rw [List.cons_append, List.cons_append,
        List.cons_lt_cons_iff]
      exact Or.inr ⟨rfl, ih⟩

theorem pad_lt_pad
    {width a b : Nat}
    (hLess : a < b) (hBound : b < 10 ^ width) :
    pad width a < pad width b := by
  induction width generalizing a b with
  | zero => simp at hBound; omega
  | succ width ih =>
      rw [pad, pad]
      by_cases hTens : a / 10 < b / 10
      · have hTensBound : b / 10 < 10 ^ width := by
          rw [pow_succ] at hBound
          omega
        refine append_lt_append (ih hTens hTensBound) ?_ _ _
        rw [length_pad, length_pad]
      · have hSame : a / 10 = b / 10 := by omega
        rw [hSame]
        apply append_lt_append_left
        rw [List.cons_lt_cons_iff]
        left
        omega

---- Places

/- The place of a number in blocks of the given lengths: the
index of its block, from the first on, and the number
inside it. The last block takes what is left. -/
@[grind =]
def place (len : Nat → Nat) : Nat → Nat → Nat → Nat × Nat
| 0, i, n => (i, n)
| more + 1, i, n =>
    if n < len i then (i, n)
    else place len more (i + 1) (n - len i)

theorem le_place
    (len : Nat → Nat) (more i n : Nat) :
    i ≤ (place len more i n).1 ∧
      (place len more i n).1 ≤ i + more := by
  induction more generalizing i n with
  | zero => simp [place]
  | succ more ih =>
      rw [place]
      split
      · simp
      · have hLater := ih (i + 1) (n - len i)
        omega

/- The number inside a block is below its length. -/
theorem place_snd_lt
    {len : Nat → Nat} {more i n : Nat}
    (hTotal :
      n < ((List.range (more + 1)).map
        fun j => len (i + j)).sum) :
    (place len more i n).2 <
      len (place len more i n).1 := by
  induction more generalizing i n with
  | zero =>
      simpa [place] using hTotal
  | succ more ih =>
      rw [place]
      split
      · rename_i hHere
        exact hHere
      · rename_i hLater
        apply ih
        rw [List.range_succ_eq_map, List.map_cons,
          List.sum_cons, List.map_map] at hTotal
        have hShift :
            ((fun j => len (i + j)) ∘ Nat.succ) =
              fun j => len (i + 1 + j) := by
          funext j
          simp only [Function.comp_apply]
          congr 1
          omega
        rw [hShift] at hTotal
        simp only [Nat.add_zero] at hTotal
        omega

/- Places stand as the numbers do. -/
theorem place_lt_place
    (len : Nat → Nat) (more i : Nat) {a b : Nat} (hLess : a < b) :
    (place len more i a).1 < (place len more i b).1 ∨
      (place len more i a).1 = (place len more i b).1 ∧
        (place len more i a).2 < (place len more i b).2 := by
  induction more generalizing i a b with
  | zero => exact Or.inr ⟨rfl, hLess⟩
  | succ more ih =>
      rw [place, place]
      by_cases hB : b < len i
      · rw [if_pos (hLess.trans hB), if_pos hB]
        exact Or.inr ⟨rfl, hLess⟩
      · rw [if_neg hB]
        by_cases hA : a < len i
        · rw [if_pos hA]
          have hLater := (le_place len more (i + 1)
            (b - len i)).1
          left
          dsimp only
          omega
        · rw [if_neg hA]
          exact ih (i + 1) (by omega)

---- The Calendar

def isLeapYear (year : Nat) : Bool :=
  year % 4 == 0 && (year % 100 != 0 || year % 400 == 0)

def daysInYear (year : Nat) : Nat :=
  if isLeapYear year then 366 else 365

def daysInMonth (year month : Nat) : Nat :=
  match month with
  | 2 => if isLeapYear year then 29 else 28
  | 4 | 6 | 9 | 11 => 30
  | _ => 31

/- The year of a day counted from the start of year 1, and
the day of the year, from 0 on. -/
def yearAndDay (day : Nat) : Nat × Nat :=
  place daysInYear 9998 1 day

/- The month of a day of a year, and the day of the month,
from 0 on. -/
def monthAndDay (year day : Nat) : Nat × Nat :=
  place (daysInMonth year) 11 1 day

/- The days of the years 1 to 9999. -/
def calendarDays : Nat := 3652059

/- The time of a day, from its second on. -/
def clockText (clock : Nat) : Str :=
  pad 2 (clock / 3600) ++ (lit ":" ++
    (pad 2 (clock / 60 % 60) ++ (lit ":" ++
      (pad 2 (clock % 60) ++ lit "+00:00"))))

/- The month and the day of a day of a year, and the time. -/
def dayText (year yearDay clock : Nat) : Str :=
  let date := monthAndDay year yearDay
  pad 2 date.1 ++ (lit "-" ++
    (pad 2 (date.2 + 1) ++ (lit "T" ++ clockText clock)))

/- `isoformat` of a whole second in UTC. -/
def isoSecond (second : Nat) : Str :=
  let date := yearAndDay (second / 86400)
  pad 4 date.1 ++ (lit "-" ++
    dayText date.1 date.2 (second % 86400))

/- The seconds of the years 1 to 9999. -/
def calendarSeconds : Nat :=
  86400 * calendarDays

theorem daysInMonth_le (year month : Nat) :
    daysInMonth year month ≤ 31 := by
  unfold daysInMonth
  split
  · split <;> omega
  all_goals omega

theorem sum_daysInMonth (year : Nat) :
    ((List.range 12).map
      fun j => daysInMonth year (1 + j)).sum =
        daysInYear year := by
  unfold daysInYear daysInMonth
  cases isLeapYear year <;> rfl

theorem day_lt
    {second : Nat}
    (hBound : second < calendarSeconds) :
    (monthAndDay (yearAndDay (second / 86400)).1
      (yearAndDay (second / 86400)).2).2 < 31 := by
  have hDays :
      ((List.range 9999).map
        fun j => daysInYear (1 + j)).sum = calendarDays := by
    decide +kernel
  have hDay : second / 86400 < calendarDays := by
    unfold calendarSeconds at hBound
    omega
  rw [← hDays] at hDay
  have hYear := place_snd_lt hDay
  rw [← sum_daysInMonth] at hYear
  exact lt_of_lt_of_le (place_snd_lt hYear)
    (daysInMonth_le _ _)

/- A numeral and what follows it, compared. -/
theorem pad_append_lt
    {width a b : Nat} {u v : Str}
    (hBound : b < 10 ^ width) (hLess : a < b ∨ a = b ∧ u < v) :
    pad width a ++ u < pad width b ++ v := by
  rcases hLess with hFirst | ⟨rfl, hRest⟩
  · refine append_lt_append (pad_lt_pad hFirst hBound) ?_ _ _
    rw [length_pad, length_pad]
  · exact append_lt_append_left hRest _

theorem clockText_lt
    {a b : Nat}
    (hLess : a < b) (hBound : b < 86400) :
    clockText a < clockText b := by
  unfold clockText
  apply pad_append_lt (by omega)
  by_cases hHour : a / 3600 < b / 3600
  · exact Or.inl hHour
  · right
    refine ⟨by omega, ?_⟩
    apply append_lt_append_left
    apply pad_append_lt (by omega)
    by_cases hMinute : a / 60 % 60 < b / 60 % 60
    · exact Or.inl hMinute
    · right
      refine ⟨by omega, ?_⟩
      apply append_lt_append_left
      apply pad_append_lt (by omega)
      exact Or.inl (by omega)

theorem dayText_lt
    {year a b clockA clockB : Nat}
    (hBound : (monthAndDay year b).2 < 31)
    (hLess :
      a < b ∨ a = b ∧ clockText clockA < clockText clockB) :
    dayText year a clockA < dayText year b clockB := by
  have hMonth :=
    (le_place (daysInMonth year) 11 1 b).2
  unfold dayText monthAndDay at *
  apply pad_append_lt (by omega)
  rcases hLess with hDay | ⟨rfl, hClock⟩
  · rcases place_lt_place (daysInMonth year) 11 1 hDay with
      hFirst | ⟨hSame, hRest⟩
    · exact Or.inl hFirst
    · right
      refine ⟨hSame, ?_⟩
      apply append_lt_append_left
      apply pad_append_lt (by omega)
      exact Or.inl (by omega)
  · right
    refine ⟨rfl, ?_⟩
    apply append_lt_append_left
    apply pad_append_lt (by omega)
    right
    exact ⟨rfl, append_lt_append_left hClock _⟩

theorem isoSecond_lt
    {a b : Nat}
    (hLess : a < b) (hBound : b < calendarSeconds) :
    isoSecond a < isoSecond b := by
  have hDay := day_lt hBound
  have hYear :=
    (le_place daysInYear 9998 1 (b / 86400)).2
  unfold isoSecond yearAndDay at *
  apply pad_append_lt (by omega)
  by_cases hEarlier : a / 86400 < b / 86400
  · rcases place_lt_place daysInYear 9998 1 hEarlier with
      hFirst | ⟨hSame, hRest⟩
    · exact Or.inl hFirst
    · right
      refine ⟨hSame, ?_⟩
      apply append_lt_append_left
      rw [hSame]
      exact dayText_lt hDay (Or.inl hRest)
  · have hSame : a / 86400 = b / 86400 := by omega
    right
    rw [hSame]
    refine ⟨rfl, ?_⟩
    apply append_lt_append_left
    refine dayText_lt hDay (Or.inr ⟨rfl, ?_⟩)
    exact clockText_lt (by omega) (by omega)

/- Texts of seconds stand as the seconds do. -/
theorem isoSecond_lt_iff
    {a b : Nat}
    (hA : a < calendarSeconds) (hB : b < calendarSeconds) :
    isoSecond a < isoSecond b ↔ a < b := by
  constructor
  · intro hLess
    by_contra hNot
    rcases Nat.eq_or_lt_of_le (Nat.le_of_not_lt hNot) with
      hSame | hMore
    · rw [hSame] at hLess
      exact lt_irrefl _ hLess
    · exact lt_asymm hLess (isoSecond_lt hMore hA)
  · intro hLess
    exact isoSecond_lt hLess hB

/- The start of a year. -/
example :
    isoSecond 63902822400 =
      lit "2026-01-01T00:00:00+00:00" := by
  decide +kernel

end Lib
