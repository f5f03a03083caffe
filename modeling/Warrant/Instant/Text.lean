import Warrant.Instant.Basic
import Warrant.Text.Classes
import Warrant.Text.Digits

/-!
# Instants as text

Date, time of day and offset in one line, as in `2024-05-01T12:30:00.250Z`. Instants are written
in one form only, and are read in two: strictly in statements, and with some freedom of layout
in stored documents.

## Main definitions

- `Instant.write` — the text of an instant, in UTC
- `Instant.read?` — the strict reader: four-digit years, two-digit fields and no blanks
- `Instant.readRelaxed?` — the reader that allows blanks between the parts, short fields, signed
  years and the word `UTC`
-/

namespace Warrant.Instant

/-! ## Writing -/

/-- How many places of a second are written. -/
inductive Precision
  /-- None, three, six or nine places: the fewest that lose nothing. -/
  | asNeeded
  /-- Three places, whatever follows them being dropped. -/
  | millis
deriving DecidableEq

/-- A year from 0 to 9999 has four digits; other years carry a sign. -/
def writeYear (year : Int) : List Char :=
  let ds := Text.padded 4 (Text.decimal year.natAbs)
  if 0 ≤ year && year ≤ 9999 then ds
  else (if year < 0 then '-' else '+') :: ds

/-- The places after the point, with the point. -/
def writeFraction (precision : Precision) (nanos : Nat) : List Char :=
  match precision with
  | .millis => '.' :: Text.padded 3 (Text.decimal (nanos / 1000000))
  | .asNeeded =>
    if nanos = 0 then []
    else if nanos % 1000000 = 0 then '.' :: Text.padded 3 (Text.decimal (nanos / 1000000))
    else if nanos % 1000 = 0 then '.' :: Text.padded 6 (Text.decimal (nanos / 1000))
    else '.' :: Text.padded 9 (Text.decimal nanos)

/-- A field of two digits. -/
def twoDigits (n : Nat) : List Char :=
  Text.padded 2 (Text.decimal n)

/-- **The text of an instant**: date, `T`, time of day and `Z`. -/
def write (precision : Precision) (t : Instant) : String :=
  String.ofList <|
    writeYear t.date.year ++ '-' :: twoDigits t.date.month ++ '-' :: twoDigits t.date.day ++
    'T' :: twoDigits (t.second / 3600) ++ ':' :: twoDigits (t.second / 60 % 60) ++
    ':' :: twoDigits t.secondOfMinute ++ writeFraction precision t.fraction ++ ['Z']

/-! ## Reading -/

/-- A reader of the front of a text: what it reads and what is left. -/
abbrev Scan := StateT (List Char) Option

namespace Scan

/-- Between `least` and `most` digits, as many as there are. -/
def number (least most : Nat) : Scan Nat := fun cs =>
  let ds := (cs.take most).takeWhile Text.isDigit
  if ds.length < least then none else some (Text.readDecimal ds, cs.drop ds.length)

/-- One of the given characters. -/
def oneOf (allowed : List Char) : Scan Unit
  | c :: cs => if allowed.contains c then some ((), cs) else none
  | [] => none

/-- Drops the blanks at the front. -/
def blanks : Scan Unit := fun cs =>
  some ((), cs.dropWhile Text.isBlank)

/-- Drops colons and blanks at the front, in any number. -/
def colonsOrBlanks : Scan Unit := fun cs =>
  some ((), cs.dropWhile fun c => c == ':' || Text.isBlank c)

/-- The places after a point in nanoseconds. Places beyond the ninth are dropped. -/
def fraction : Scan Nat
  | '.' :: cs =>
    let ds := cs.takeWhile Text.isDigit
    if ds.isEmpty then none
    else
      let kept := ds.take 9
      some (Text.readDecimal kept * Nat.pow 10 (9 - kept.length), cs.drop ds.length)
  | cs => some (0, cs)

/-- The offset from UTC in seconds: `Z`, or a sign, two digits of hours and two of minutes, with
    `separator` between them. -/
def offset (separator : Scan Unit) : Scan Int
  | 'Z' :: cs => some (0, cs)
  | 'z' :: cs => some (0, cs)
  | c :: cs =>
    let amount : Scan Nat := do
      let hours ← number 2 2
      separator
      let minutes ← number 2 2
      if 59 < minutes then failure
      return hours * 3600 + minutes * 60
    if c = '+' then (do let seconds ← amount; return (seconds : Int)) cs
    else if c = '-' || c = '−' then (do let seconds ← amount; return -(seconds : Int)) cs
    else none
  | [] => none

/-- The end of the text. -/
def finish : Scan Unit
  | [] => some ((), [])
  | _ => none

end Scan

/-- The instant with these parts as written, if all of them are in range. Second 60 is the leap
    second after second 59. -/
def ofFields? (year : Int) (month day hour minute second nanos : Nat) (offset : Int) :
    Option Instant := do
  let date ← Date.of? year month day
  if 23 < hour || 59 < minute || 60 < second then none
  else if offset ≤ -86400 || 86400 ≤ offset then none
  else
    let leap := second = 60
    ofLocal? date (hour * 3600 + minute * 60 + if leap then 59 else second)
      (nanos + if leap then 1000000000 else 0) offset

/-- The strict form, up to the end of the text. -/
def strict : Scan Instant := do
  let year ← Scan.number 4 4
  Scan.oneOf ['-']
  let month ← Scan.number 2 2
  Scan.oneOf ['-']
  let day ← Scan.number 2 2
  Scan.oneOf ['T', 't', ' ']
  let hour ← Scan.number 2 2
  Scan.oneOf [':']
  let minute ← Scan.number 2 2
  Scan.oneOf [':']
  let second ← Scan.number 2 2
  let nanos ← Scan.fraction
  let offset ← Scan.offset (Scan.oneOf [':'])
  Scan.finish
  ofFields? year month day hour minute second nanos offset

/-- A year with a sign and any number of digits, or with up to four digits and no sign. -/
def signedYear : Scan Int
  | '-' :: cs => (do let year ← Scan.number 1 cs.length; return -(year : Int)) cs
  | '+' :: cs => (do let year ← Scan.number 1 cs.length; return (year : Int)) cs
  | cs => (do let year ← Scan.number 1 4; return (year : Int)) cs

/-- The offset of the relaxed form, for which the word `UTC` in any case stands too. -/
def relaxedOffset : Scan Int := fun cs =>
  if (cs.take 3).map Char.toUpper = ['U', 'T', 'C'] then some (0, cs.drop 3)
  else Scan.offset Scan.colonsOrBlanks cs

/-- The relaxed form, up to the end of the text. -/
def relaxed : Scan Instant := do
  Scan.blanks
  let year ← signedYear
  Scan.blanks
  Scan.oneOf ['-']
  Scan.blanks
  let month ← Scan.number 1 2
  Scan.blanks
  Scan.oneOf ['-']
  Scan.blanks
  let day ← Scan.number 1 2
  Scan.oneOf ['T', 't', ' ']
  Scan.blanks
  let hour ← Scan.number 1 2
  Scan.blanks
  Scan.oneOf [':']
  Scan.blanks
  let minute ← Scan.number 1 2
  Scan.blanks
  Scan.oneOf [':']
  Scan.blanks
  let second ← Scan.number 1 2
  let nanos ← Scan.fraction
  Scan.blanks
  let offset ← relaxedOffset
  Scan.blanks
  Scan.finish
  ofFields? year month day hour minute second nanos offset

/-- **The instant that a text names in the strict form.** -/
def read? (s : String) : Option Instant :=
  (strict.run s.toList).map Prod.fst

/-- **The instant that a text names in the relaxed form.** -/
def readRelaxed? (s : String) : Option Instant :=
  (relaxed.run s.toList).map Prod.fst

end Warrant.Instant
