/-!
# Digits

Numbers written in a fixed base, with or without leading zeros, and the readers of such texts.

## Main definitions

- `Text.decimal` — a natural number in base ten
- `Text.hexadecimal` — a natural number in base sixteen, in lower case
- `Text.padded` — a text filled up with zeros on the left
- `Text.isDigit` — the ten ASCII digits
- `Text.readDecimal` — the number that a run of digits writes
- `Text.readHex?` — the number that hexadecimal digits in either case write
-/

namespace Warrant.Text

/-- The ten ASCII digits. -/
def isDigit (c : Char) : Bool :=
  '0' ≤ c && c ≤ '9'

/-- A natural number in base ten. -/
def decimal (n : Nat) : List Char :=
  Nat.toDigits 10 n

/-- A natural number in base sixteen, in lower case. -/
def hexadecimal (n : Nat) : List Char :=
  Nat.toDigits 16 n

/-- Zeros on the left until the text has `width` characters; a longer text stays as it is. -/
def padded (width : Nat) (cs : List Char) : List Char :=
  List.replicate (width - cs.length) '0' ++ cs

/-- The number that a run of digits writes in base ten. -/
def readDecimal (cs : List Char) : Nat :=
  Nat.ofDigitChars 10 cs 0

/-- The value of a hexadecimal digit. -/
def hexDigit? (c : Char) : Option Nat :=
  if '0' ≤ c && c ≤ '9' then some (c.toNat - '0'.toNat)
  else if 'a' ≤ c && c ≤ 'f' then some (c.toNat - 'a'.toNat + 10)
  else if 'A' ≤ c && c ≤ 'F' then some (c.toNat - 'A'.toNat + 10)
  else none

/-- The number that hexadecimal digits in either case write in base sixteen. -/
def readHex? (cs : List Char) : Option Nat :=
  cs.foldlM (fun n c => (hexDigit? c).map (16 * n + ·)) 0

/-- A 32-bit word as eight hexadecimal digits. -/
def hexWord (w : UInt32) : String :=
  String.ofList (padded 8 (hexadecimal w.toNat))

/-- Writing a number and reading it again gives the number. -/
@[simp]
theorem readDecimal_decimal (n : Nat) : readDecimal (decimal n) = n :=
  Nat.ofDigitChars_toDigits (by decide) (by decide)

/-- A padded text has the width asked for, or more if it was longer before. -/
@[simp]
theorem length_padded (width : Nat) (cs : List Char) :
    (padded width cs).length = max width cs.length := by
  simp [padded]
  omega

end Warrant.Text
