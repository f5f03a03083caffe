import Warrant.Number.Binary64

/-!
# Numbers and integers of 64 bits

Not every integer of 64 bits is a floating-point number, and rounding one to the other would make
neighbours equal. So a number is compared with an integer by asking whether it has a fraction and
whether it lies between the bounds of 64 bits. If it does, its conversion loses nothing.

## Main definitions

- `word64?` — an integer as a signed word of 64 bits
- `Binary64.signedUnits` — the exact value of a finite number in units of `2⁻¹⁰⁷⁴`
- `Binary64.le`, `Binary64.lt` — the order of numbers
- `Binary64.fraction`, `Binary64.toInt64` — a number without its whole part, and without its fraction
- `Binary64.isInt` — whether a number is exactly an integer
-/

namespace Warrant

/-- The signed word of 64 bits that has the value of an integer, if the integer is in range. -/
def word64? (i : Int) : Option Int64 :=
  if Int64.minValue.toInt ≤ i && i ≤ Int64.maxValue.toInt then some (Int64.ofInt i) else none

/-- The value of a word is in range. -/
@[simp]
theorem word64?_toInt (w : Int64) : word64? w.toInt = some w := by
  have low := w.minValue_le_toInt
  have high := w.toInt_le
  simp only [word64?, low, high, decide_true, Bool.and_self, ↓reduceIte, Int64.ofInt_toInt]

namespace Binary64

/-- The exact value of a finite number in units of `2⁻¹⁰⁷⁴`. -/
def signedUnits (x : Binary64) : Int :=
  if x.isNegative then -(x.units : Int) else x.units

/-- The magnitude bits with the sign. They grow with the value. -/
def signedMagnitude (x : Binary64) : Int :=
  if x.isNegative then -(x.magnitude : Int) else x.magnitude

/-- Whether a number is at most another one. A NaN compares with nothing. -/
def le (x y : Binary64) : Bool :=
  !x.isNaN && !y.isNaN && x.signedMagnitude ≤ y.signedMagnitude

/-- Whether a number is less than another one. A NaN compares with nothing. -/
def lt (x y : Binary64) : Bool :=
  !x.isNaN && !y.isNaN && x.signedMagnitude < y.signedMagnitude

def zero : Binary64 := ⟨0⟩

def nan : Binary64 := ⟨0x7FF8000000000000⟩

/-- The number without its whole part. It is positive if it is zero, and it is a NaN if the number
    is not finite. -/
def fraction (x : Binary64) : Binary64 :=
  if x.isFinite then
    let rest := x.units % unitsPerOne
    ofMagnitude (x.isNegative && rest ≠ 0) (roundUnits rest 1)
  else nan

/-- The number without its fraction as an integer of 64 bits. Beyond the bounds of 64 bits it is the
    nearer bound, and for a NaN it is zero. -/
def toInt64 (x : Binary64) : Int64 :=
  if x.isNaN then 0 else .ofIntClamp (x.signedUnits.tdiv unitsPerOne)

/-- The number `2⁶³`, which no integer of 64 bits reaches. -/
def int64Bound : Binary64 := ⟨0x43E0000000000000⟩

/-- **Whether the number is exactly an integer.** A number without a fraction that lies between the
    bounds is converted without loss. -/
def isInt (x : Binary64) (i : Int64) : Bool :=
  x.fraction.numEq zero && int64Bound.neg.le x && x.lt int64Bound && i == x.toInt64

end Binary64

end Warrant
