/-!
# Calendar days

Days of the proleptic Gregorian calendar, named by year, month and day of the month.

## Main definitions

- `Date` — a day that exists, within the years the calendar covers
- `Date.next?`, `Date.previous?` — the neighbouring days
-/

namespace Warrant

/-- A year is a leap year when four divides it, except for centuries that 400 does not divide. -/
def isLeapYear (year : Int) : Bool :=
  year % 4 = 0 && (year % 100 != 0 || year % 400 = 0)

/-- The number of days of a month; a month that does not exist has none. -/
def daysInMonth (year : Int) (month : Nat) : Nat :=
  if month = 2 then (if isLeapYear year then 29 else 28)
  else if month = 4 || month = 6 || month = 9 || month = 11 then 30
  else if 1 ≤ month && month ≤ 12 then 31
  else 0

/-- A day of the calendar. -/
structure Date where
  year : Int
  month : Nat
  day : Nat
  year_in_range : -262143 ≤ year ∧ year ≤ 262142
  day_exists : 1 ≤ day ∧ day ≤ daysInMonth year month
deriving DecidableEq

namespace Date

/-- The day with this name, if there is one. -/
def of? (year : Int) (month day : Nat) : Option Date :=
  if hy : -262143 ≤ year ∧ year ≤ 262142 then
    if hd : 1 ≤ day ∧ day ≤ daysInMonth year month then some ⟨year, month, day, hy, hd⟩ else none
  else
    none

/-- The day after, if the calendar covers it. -/
def next? (d : Date) : Option Date :=
  if d.day < daysInMonth d.year d.month then of? d.year d.month (d.day + 1)
  else if d.month < 12 then of? d.year (d.month + 1) 1
  else of? (d.year + 1) 1 1

/-- The day before, if the calendar covers it. -/
def previous? (d : Date) : Option Date :=
  if 1 < d.day then of? d.year d.month (d.day - 1)
  else if 1 < d.month then of? d.year (d.month - 1) (daysInMonth d.year (d.month - 1))
  else of? (d.year - 1) 12 31

/-- Naming a day by its own parts gives the day. -/
@[simp]
theorem of?_self (d : Date) : of? d.year d.month d.day = some d := by
  simp [of?, d.year_in_range, d.day_exists]

end Date

end Warrant
