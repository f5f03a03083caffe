import Warrant.Number.Binary64
import Warrant.Text.Digits

/-!
# The shortest decimal of a binary number

The decimal with the fewest digits that is read back as the number, and of those with that many
digits the nearest one. The digits are found by trying, for one digit, two digits and so on, the
two decimals of that many digits around the exact value, and asking of each whether it reads
back. Nothing here depends on a logarithm or on a bound that would have to be trusted: what is
returned has been read back, or is the exact value itself.

## Main definitions

- `Decimal` — a natural number times a power of ten
- `Binary64.shortest` — the shortest decimal of a finite magnitude
-/

namespace Warrant

/-- The number `digits · 10ᵉˣᵖᵒⁿᵉⁿᵗ`. -/
structure Decimal where
  digits : Nat
  exponent : Int
deriving DecidableEq, Repr

/-- Which of two equally near decimals is taken. -/
inductive HalfwayRule
  | up
  | even
deriving DecidableEq, Repr

namespace Binary64

/-- The exponent of ten of the leading digit of a positive number of units. -/
def leadingExponent (u : Nat) : Int :=
  if unitsPerOne ≤ u then (Text.decimal (u / unitsPerOne)).length - 1
  else -(Text.decimal ((unitsPerOne - 1) / u)).length

/-- Whether a decimal is read as the finite number with magnitude bits `m`. -/
def readsBack (m : Nat) (d : Decimal) : Bool :=
  (ofDecimal false d.digits d.exponent).magnitude = m

/-- The decimals that are whole multiples of `10 ^ step` and lie around `u` units, nearest first.
    An exact multiple has no other neighbour. -/
def neighbours (rule : HalfwayRule) (u : Nat) (step : Int) : List Decimal :=
  let num := if 0 ≤ step then u else u * Nat.pow 10 (-step).toNat
  let den := if 0 ≤ step then unitsPerOne * Nat.pow 10 step.toNat else unitsPerOne
  let q := num / den
  let r := num % den
  let low : Decimal := ⟨q, step⟩
  let high : Decimal := ⟨q + 1, step⟩
  if r = 0 then [low]
  else if 2 * r < den then [low, high]
  else if den < 2 * r then [high, low]
  else match rule with
    | .up => [high, low]
    | .even => if q % 2 = 0 then [low, high] else [high, low]

/-- The exact value of `u` units as a decimal. -/
def exactDecimal (u : Nat) : Decimal :=
  ⟨u * Nat.pow 5 1074, -1074⟩

/-- Tries decimals of `n`, `n + 1`, … digits, `tries` times, and then takes the exact value. -/
def searchDigits (rule : HalfwayRule) (m : Nat) (leading : Int) : Nat → Nat → Decimal
  | 0, _ => exactDecimal (unitsOfMagnitude m)
  | tries + 1, n =>
    match (neighbours rule (unitsOfMagnitude m) (leading + 1 - n)).find? (readsBack m) with
    | some d => d
    | none => searchDigits rule m leading tries (n + 1)

/-- **The shortest decimal** of a finite, non-zero magnitude. Seventeen digits always tell two
    numbers apart, so the search ends before the exact value is needed. -/
def shortest (rule : HalfwayRule) (x : Binary64) : Decimal :=
  searchDigits rule x.magnitude (leadingExponent x.units) 17 1

end Binary64

end Warrant
