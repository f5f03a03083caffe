import Warrant.Json.Basic
import Warrant.Number.Whole
import Warrant.Text.Digits

/-!
# Numbers in JSON documents

A number without fraction and exponent is an integer if it fits into 64 bits. Every other number
is a float, computed from the digits that fit into 64 bits: these are rounded once, and the
result is rounded a second time when the power of ten is applied.

## Main definitions

- `Numeral` — the parts of a number as written
- `Numeral.toJson` — the value of a number
-/

namespace Warrant

/-- A number as written. -/
structure Numeral where
  negative : Bool
  whole : List Char
  /-- The digits after the point; none if there is no point. -/
  fraction : List Char
  exponent : Option Int

namespace Numeral

/-- The largest significand. -/
def significandMax : Nat := UInt64.size - 1

/-- Appends digits to a significand until one does not fit, and returns the digits from there
    on as well. -/
def accumulate (significand : Nat) : List Char → Nat × List Char
  | [] => (significand, [])
  | c :: cs =>
    let next := 10 * significand + (c.toNat - '0'.toNat)
    if next ≤ significandMax then accumulate next cs else (significand, c :: cs)

/-- The number `x · 10ᵉ` for a finite `x`, rounded, or nothing if that is beyond the floats.
    Exponents below the range are taken in steps of 308, of which three lead to zero. -/
def scale : Nat → Binary64 → Int → Option Binary64
  | 0, x, _ => some x
  | steps + 1, x, e =>
    if e.natAbs ≤ 308 then
      let power := Binary64.ofDecimal false 1 e.natAbs
      let y := if 0 ≤ e then x.mul power else x.div power
      if y.isFinite then some y else none
    else if x.magnitude = 0 then some x
    else if 0 ≤ e then none
    else scale steps (x.div (Binary64.ofDecimal false 1 308)) (e + 308)

/-- The float that the number names, if it is in range. -/
def toFloat? (n : Numeral) : Option Binary64 := do
  let (whole, dropped) := accumulate 0 n.whole
  let (significand, rest) := accumulate whole n.fraction
  let places : Int := n.fraction.length - rest.length
  let e := (dropped.length : Int) - places + n.exponent.getD 0
  let x ← scale 3 (Binary64.ofInt significand) e
  return if n.negative then x.neg else x

/-- **The value of a number.** The integer zero with a sign is a float, which alone has a negative
    zero. -/
def toJson (n : Numeral) : Json :=
  let i : Int := Text.readDecimal n.whole
  let isInteger := n.fraction.isEmpty && n.exponent.isNone
  if isInteger && !n.negative && i ≤ significandMax then .int i
  else if isInteger && n.negative && 0 < i && (word64? (-i)).isSome then .int (-i)
  else match n.toFloat? with
    | some x => .float x
    | none => .senseless

end Numeral

end Warrant
