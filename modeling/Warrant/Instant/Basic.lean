import Warrant.Instant.Calendar

/-!
# Instants

A point in time in UTC, to the nanosecond. A leap second is the last second of a minute with a
second billion of nanoseconds on top, so that it follows the second it extends.

## Main definitions

- `Instant` — a day, a second of that day and a number of nanoseconds
- `Instant.ofLocal?` — the instant that a wall clock with a given offset shows
-/

namespace Warrant

/-- A point in time in UTC. -/
structure Instant where
  date : Date
  /-- Whole seconds since midnight, a leap second counting as the second before it. -/
  second : Nat
  /-- Nanoseconds within the second; from one billion on they lie in a leap second. -/
  nano : Nat
  second_lt : second < 86400
  nano_lt : nano < 2000000000
  /-- Leap seconds end minutes. -/
  leap_ends_minute : 1000000000 ≤ nano → second % 60 = 59
deriving DecidableEq

namespace Instant

/-- The instant with these parts, if the time of day exists. -/
def of? (date : Date) (second nano : Nat) : Option Instant :=
  if hs : second < 86400 then
    if hn : nano < 2000000000 then
      if hl : 1000000000 ≤ nano → second % 60 = 59 then some ⟨date, second, nano, hs, hn, hl⟩
      else none
    else none
  else
    none

/-- The instant at which a clock that is `offset` seconds ahead of UTC shows the given time. The
    offset is less than a day, so at most the neighbouring day is reached. -/
def ofLocal? (date : Date) (second nano : Nat) (offset : Int) : Option Instant := do
  let s : Int := second - offset
  if s < 0 then of? (← date.previous?) (s + 86400).toNat nano
  else if 86400 ≤ s then of? (← date.next?) (s - 86400).toNat nano
  else of? date s.toNat nano

/-- Whether the instant lies in a leap second. -/
def inLeapSecond (t : Instant) : Bool :=
  1000000000 ≤ t.nano

/-- Nanoseconds within the second, a leap second being a second of its own. -/
def fraction (t : Instant) : Nat :=
  t.nano % 1000000000

/-- The second of the minute as clocks show it: 60 in a leap second. -/
def secondOfMinute (t : Instant) : Nat :=
  t.second % 60 + if t.inLeapSecond then 1 else 0

@[simp]
theorem of?_self (t : Instant) : of? t.date t.second t.nano = some t := by
  simp only [of?, t.second_lt, t.nano_lt, ↓reduceDIte, dif_pos t.leap_ends_minute]

/-- A clock without an offset shows the instant itself. -/
@[simp]
theorem ofLocal?_self (t : Instant) : ofLocal? t.date t.second t.nano 0 = some t := by
  have h := t.second_lt
  have h1 : ¬ ((t.second : Int) < 0) := by omega
  have h2 : ¬ (86400 ≤ (t.second : Int)) := by omega
  simp [ofLocal?, h1, h2]

end Instant

end Warrant
