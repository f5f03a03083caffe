/-!
# Binary floating-point numbers

A 64-bit floating-point number is its bit pattern: a sign bit, eleven exponent bits and 52
fraction bits. Every finite number is a whole multiple of `2⁻¹⁰⁷⁴`, so its magnitude is given
exactly by a natural number of such *units*; comparison, conversion to integers and rounding are
all stated on units.

## Main definitions

- `Binary64` — a bit pattern
- `Binary64.units` — the magnitude of a finite number in units of `2⁻¹⁰⁷⁴`
- `Binary64.numEq` — numeric equality: zeros of either sign agree, and a NaN agrees with nothing
- `Binary64.ofRatio` — the nearest number to a quotient, with ties to the even neighbour
- `Binary64.ofDecimal` — the nearest number to `m · 10ᵉ`
-/

namespace Warrant

/-- A 64-bit floating-point number, by its bits. Equality is equality of bits. -/
structure Binary64 where
  /-- Sign, exponent and fraction, from the highest bit down. -/
  bits : UInt64
deriving DecidableEq, Inhabited

namespace Binary64

/-- The sign bit, `2⁶³`. -/
def signBit : Nat := 0x8000000000000000

/-- The first bit above the fraction, `2⁵²`: the lowest bit of the exponent, and the leading one
    of a fraction. -/
def leadingOne : Nat := 0x10000000000000

/-- Whether the sign bit is set. -/
def isNegative (x : Binary64) : Bool :=
  signBit ≤ x.bits.toNat

/-- Exponent and fraction bits as one number. It grows with the magnitude. -/
def magnitude (x : Binary64) : Nat :=
  x.bits.toNat % signBit

/-- The magnitude bits of infinity. -/
def infinityMagnitude : Nat :=
  2047 * leadingOne

/-- Whether the number is neither infinite nor a NaN. -/
def isFinite (x : Binary64) : Bool :=
  x.magnitude < infinityMagnitude

/-- Whether the bits stand for no number at all. -/
def isNaN (x : Binary64) : Bool :=
  infinityMagnitude < x.magnitude

/-- The units that finite magnitude bits stand for: the fraction itself for exponent zero, and
    the fraction with its leading one, shifted by one less than the exponent, otherwise. -/
def unitsOfMagnitude (m : Nat) : Nat :=
  if m < leadingOne then m
  else (m % leadingOne + leadingOne) * Nat.pow 2 (m / leadingOne - 1)

/-- The magnitude of a finite number in units of `2⁻¹⁰⁷⁴`. -/
def units (x : Binary64) : Nat :=
  unitsOfMagnitude x.magnitude

/-- How many units make one. -/
def unitsPerOne : Nat :=
  Nat.pow 2 1074

/-- The number with the given sign and magnitude bits. -/
def ofMagnitude (negative : Bool) (m : Nat) : Binary64 :=
  ⟨UInt64.ofNat (if negative then signBit + m else m)⟩

/-- Infinity with the given sign. -/
def infinity (negative : Bool) : Binary64 :=
  ofMagnitude negative infinityMagnitude

/-- The number with the opposite sign. -/
def neg (x : Binary64) : Binary64 :=
  ofMagnitude (!x.isNegative) x.magnitude

/-- **Numeric equality**: zeros of either sign are equal, a NaN equals nothing, and otherwise
    numbers are equal exactly when their bits are. -/
def numEq (x y : Binary64) : Bool :=
  !x.isNaN && !y.isNaN && (x.bits == y.bits || (x.magnitude == 0 && y.magnitude == 0))

/-- The natural number nearest to `num / den`, a half going to the even neighbour. -/
def roundDiv (num den : Nat) : Nat :=
  let q := num / den
  let r := 2 * (num % den)
  if r < den then q
  else if den < r then q + 1
  else q + q % 2

/-- How far a number of units must be shifted down for at most 53 bits to remain. -/
def excessBits (u : Nat) : Nat :=
  if u < 2 * leadingOne then 0 else Nat.log2 u - 52

/-- The magnitude bits of the number nearest to `num / den` units, infinity included.

    With `s` excess bits the kept significand `q` has its leading one at bit 52 unless `s = 0`,
    so `s · 2⁵² + q` is the bit pattern in both cases, also when rounding carries `q` up to the
    next power of two. -/
def roundUnits (num den : Nat) : Nat :=
  let s := excessBits (num / den)
  min (s * leadingOne + roundDiv num (den * Nat.pow 2 s)) infinityMagnitude

/-- The number nearest to `num / den` with the given sign, ties to even. -/
def ofRatio (negative : Bool) (num den : Nat) : Binary64 :=
  ofMagnitude negative (roundUnits (num * unitsPerOne) den)

/-- Decimal magnitudes from here on round to infinity. -/
def decimalOverflow : Int := 310

/-- Decimal magnitudes up to here round to zero. -/
def decimalUnderflow : Int := -330

/-- The number nearest to `m · 10ᵉ` with the given sign, ties to even. A decimal whose leading
    digit lies far outside the range is decided by that alone, so that no huge power is built. -/
def ofDecimal (negative : Bool) (m : Nat) (e : Int) : Binary64 :=
  let leading : Int := (Nat.toDigits 10 m).length + e
  if m = 0 || leading < decimalUnderflow then ofMagnitude negative 0
  else if decimalOverflow < leading then infinity negative
  else if 0 ≤ e then ofRatio negative (m * Nat.pow 10 e.toNat) 1
  else ofRatio negative m (Nat.pow 10 (-e).toNat)

/-- The number nearest to an integer. -/
def ofInt (i : Int) : Binary64 :=
  ofRatio (i < 0) i.natAbs 1

/-- The number nearest to the product of two finite numbers. -/
def mul (x y : Binary64) : Binary64 :=
  ofRatio (x.isNegative != y.isNegative) (x.units * y.units) (unitsPerOne * unitsPerOne)

/-- The number nearest to the quotient of two finite numbers, the divisor not being zero. -/
def div (x y : Binary64) : Binary64 :=
  ofRatio (x.isNegative != y.isNegative) x.units y.units

end Binary64

end Warrant
