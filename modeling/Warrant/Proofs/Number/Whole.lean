import Mathlib.Tactic.FieldSimp
import Warrant.Number.Whole
import Warrant.Proofs.Number.Rounding

/-!
# Numbers that are integers

The test whether a number is exactly an integer asks for a fraction, for two bounds and for what is
left of the number in 64 bits. This module says that nothing is lost on the way, whatever the bits
are: neither where neighbouring numbers are further apart than integers, nor at the bounds, of which
only one is an integer of 64 bits, nor for zeros of either sign, infinities and NaNs.

What the bits of a number stand for is said here a second time, as a rational number, and from the
fields of the format alone.

## Main definitions

- `Binary64.toInt?` — the integer that a number is, if it is one
- `Binary64.Reading`, `Binary64.reading` — what the bits of a number stand for

## Main statements

- `Binary64.unitsOfMagnitude_strictMono` — larger magnitude bits stand for larger magnitudes
- `Binary64.lt_iff`, `Binary64.le_iff` — numbers are ordered as their values are
- `Binary64.isInt_iff` — the test finds the integer that a number is
- `Binary64.reading_eq_rational_iff` — finite numbers and no others are read as rational numbers
-/

namespace Warrant.Binary64

variable {x y : Binary64} {i : Int64} {n : Int}

/-- The integer that the number is, if it is finite and has no fraction. -/
def toInt? (x : Binary64) : Option Int :=
  if x.isFinite && x.units % unitsPerOne = 0 then
    let n : Int := x.units / unitsPerOne
    some (if x.isNegative then -n else n)
  else
    none

/-! ## Order -/

/-- Below the magnitude bits of a power of two the magnitude is below it. -/
theorem unitsOfMagnitude_lt_pow {m s : Nat} (h : m < (s + 1) * leadingOne) :
    unitsOfMagnitude m < leadingOne * Nat.pow 2 s := by
  cases s with
  | zero =>
    rw [Nat.zero_add, Nat.one_mul] at h
    rw [unitsOfMagnitude, if_pos h]
    exact h
  | succ s =>
    refine (unitsOfMagnitude_lt h).trans_eq ?_
    rw [Nat.pow_eq, Nat.pow_eq, Nat.pow_succ']
    ring

/-- **Larger magnitude bits stand for larger magnitudes.** -/
theorem unitsOfMagnitude_strictMono : StrictMono unitsOfMagnitude := by
  intro m k h
  by_cases hk : k < leadingOne
  · rw [unitsOfMagnitude, unitsOfMagnitude, if_pos hk, if_pos (h.trans hk)]
    exact h
  have hpos : 0 < Nat.pow 2 (k / leadingOne - 1) := Nat.pow_pos (by decide)
  have hunits : unitsOfMagnitude k =
      (k % leadingOne + leadingOne) * Nat.pow 2 (k / leadingOne - 1) := if_neg hk
  by_cases hsame : m / leadingOne = k / leadingOne
  · -- The exponents are the same, and the fractions decide.
    have hm : ¬ m < leadingOne := by
      rw [leadingOne_eq] at *
      omega
    have hfraction : m % leadingOne < k % leadingOne := by
      rw [leadingOne_eq] at *
      omega
    rw [hunits, unitsOfMagnitude, if_neg hm, hsame]
    exact Nat.mul_lt_mul_of_pos_right (Nat.add_lt_add_right hfraction _) hpos
  · -- The larger number is not below the power of two that its exponent stands for.
    have hexponent : m < (k / leadingOne - 1 + 1) * leadingOne := by
      rw [leadingOne_eq] at *
      omega
    rw [hunits]
    exact (unitsOfMagnitude_lt_pow hexponent).trans_le
      (Nat.mul_le_mul_right _ (Nat.le_add_left _ _))

theorem unitsOfMagnitude_zero : unitsOfMagnitude 0 = 0 := by
  decide

/-- Numbers are larger when their magnitude bits with the sign are. -/
theorem signedUnits_lt_iff : x.signedUnits < y.signedUnits ↔
    x.signedMagnitude < y.signedMagnitude := by
  have hlt := unitsOfMagnitude_strictMono.lt_iff_lt (a := x.magnitude) (b := y.magnitude)
  have hgt := unitsOfMagnitude_strictMono.lt_iff_lt (a := y.magnitude) (b := x.magnitude)
  have hx := unitsOfMagnitude_strictMono.lt_iff_lt (a := 0) (b := x.magnitude)
  have hy := unitsOfMagnitude_strictMono.lt_iff_lt (a := 0) (b := y.magnitude)
  rw [unitsOfMagnitude_zero] at hx hy
  unfold signedUnits signedMagnitude units
  split <;> split <;> omega

/-- **Numbers are ordered as their values are.** -/
theorem lt_iff : x.lt y = true ↔
    x.isNaN = false ∧ y.isNaN = false ∧ x.signedUnits < y.signedUnits := by
  rw [signedUnits_lt_iff]
  simp [lt, and_assoc]

theorem le_iff : x.le y = true ↔
    x.isNaN = false ∧ y.isNaN = false ∧ x.signedUnits ≤ y.signedUnits := by
  rw [← Int.not_lt, signedUnits_lt_iff, Int.not_lt]
  simp [le, and_assoc]

/-! ## The test -/

theorem isNaN_of_isFinite (h : x.isFinite = true) : x.isNaN = false :=
  decide_eq_false (Nat.lt_asymm (of_decide_eq_true h))

theorem natAbs_signedUnits (x : Binary64) : x.signedUnits.natAbs = x.units := by
  unfold signedUnits
  split <;> simp

/-- A number is an integer when its value is a whole multiple of one. -/
theorem toInt?_eq_some_iff :
    x.toInt? = some n ↔ x.isFinite = true ∧ x.signedUnits = n * unitsPerOne := by
  have hone := unitsPerOne_pos
  unfold toInt?
  rw [Option.ite_none_right_eq_some, Bool.and_eq_true, decide_eq_true_iff, and_assoc]
  refine and_congr_right fun _ => ⟨?_, fun h => ?_⟩
  · rintro ⟨hwhole, h⟩
    have hunits := Nat.div_mul_cancel (Nat.dvd_of_mod_eq_zero hwhole)
    rw [← Option.some.inj h, signedUnits]
    generalize unitsPerOne = one at *
    split
    · rw [Int.neg_mul, ← Int.natCast_ediv, ← Int.natCast_mul, hunits]
    · rw [← Int.natCast_ediv, ← Int.natCast_mul, hunits]
  · have hunits : x.units = n.natAbs * unitsPerOne := by
      rw [← natAbs_signedUnits, h, Int.natAbs_mul, Int.natAbs_natCast]
    have hne : (unitsPerOne : Int) ≠ 0 := Int.natCast_ne_zero.2 hone.ne'
    rw [signedUnits, hunits, Int.natCast_mul] at h
    refine ⟨by rw [hunits, Nat.mul_mod_left], congrArg some ?_⟩
    rw [hunits, Int.natCast_mul, Int.mul_ediv_cancel _ hne]
    refine Int.eq_of_mul_eq_mul_right hne ?_
    rw [← h]
    split
    · exact Int.neg_mul _ _
    · rfl

theorem numEq_iff : x.numEq y = true ↔ x.isNaN = false ∧ y.isNaN = false ∧
    (x = y ∨ x.magnitude = 0 ∧ y.magnitude = 0) := by
  have hbits : x.bits = y.bits ↔ x = y := by
    cases x
    cases y
    rw [Binary64.mk.injEq]
  simp only [numEq, Bool.and_eq_true, Bool.or_eq_true, Bool.not_eq_true', beq_iff_eq, and_assoc,
    hbits]

theorem roundUnits_eq_zero_iff (u : Nat) : roundUnits u 1 = 0 ↔ u = 0 := by
  have hinfinity : infinityMagnitude ≠ 0 := by decide
  unfold roundUnits
  rw [Nat.div_one]
  dsimp only
  by_cases hu : u < 2 * leadingOne
  · have hround := roundDiv_mul_self u Nat.one_pos
    rw [Nat.mul_one] at hround
    rw [excessBits, if_pos hu, Nat.pow_eq, Nat.pow_zero, hround]
    omega
  · have hpos : u ≠ 0 := by
      rw [leadingOne_eq] at hu
      omega
    have hlog : 53 ≤ Nat.log2 u := (Nat.le_log2 hpos).2 (Nat.le_of_not_lt hu)
    rw [excessBits, if_neg hu, leadingOne_eq]
    omega

/-- A finite number that is a whole multiple of one has no fraction, and no other number. -/
theorem fraction_numEq_zero_iff :
    x.fraction.numEq zero = true ↔ x.isFinite = true ∧ (unitsPerOne : Int) ∣ x.signedUnits := by
  rw [Int.natCast_dvd, natAbs_signedUnits, Nat.dvd_iff_mod_eq_zero]
  by_cases hx : x.isFinite = true
  · have hfraction : x.fraction = ofMagnitude (x.isNegative && decide (x.units % unitsPerOne ≠ 0))
        (roundUnits (x.units % unitsPerOne) 1) := if_pos hx
    constructor
    · intro h
      refine ⟨hx, (roundUnits_eq_zero_iff _).1 ?_⟩
      rw [← magnitude_ofMagnitude _ (roundUnits_lt _ 1), ← hfraction]
      rcases (numEq_iff.1 h).2.2 with h | ⟨h, -⟩
      · rw [h]
        decide
      · exact h
    · rintro ⟨-, hrest⟩
      have hsign : (x.isNegative && decide ((0 : Nat) ≠ 0)) = false := Bool.and_false _
      rw [hfraction, hrest, (roundUnits_eq_zero_iff 0).2 rfl, hsign]
      decide
  · have hfraction : x.fraction = nan := if_neg hx
    rw [hfraction]
    exact ⟨fun h => absurd h (by decide), fun h => absurd h.1 hx⟩

theorem signedUnits_int64Bound : int64Bound.signedUnits = 2 ^ 63 * unitsPerOne := by
  decide +kernel

theorem signedUnits_neg_int64Bound : int64Bound.neg.signedUnits = -2 ^ 63 * unitsPerOne := by
  decide +kernel

/-- Between the bounds the conversion to an integer loses the fraction and nothing else. -/
theorem toInt64_eq_iff (hx : x.isNaN = false) (hwhole : x.signedUnits = n * unitsPerOne)
    (hlow : -2 ^ 63 ≤ n) (hhigh : n < 2 ^ 63) : i = x.toInt64 ↔ i.toInt = n := by
  have hone : (unitsPerOne : Int) ≠ 0 := Int.natCast_ne_zero.2 unitsPerOne_pos.ne'
  rw [← Int64.toInt_inj, toInt64, hx, if_neg Bool.false_ne_true, hwhole,
    Int.mul_tdiv_cancel n hone, Int64.toInt_ofIntClamp hlow (Int.le_of_lt_add_one hhigh)]

/-- **The test finds the integer that a number is.** -/
theorem isInt_iff : x.isInt i = true ↔ x.toInt? = some i.toInt := by
  have hone : (0 : Int) < unitsPerOne := Int.natCast_pos.2 unitsPerOne_pos
  rw [toInt?_eq_some_iff]
  simp only [isInt, Bool.and_eq_true, beq_iff_eq, fraction_numEq_zero_iff, le_iff, lt_iff,
    signedUnits_int64Bound, signedUnits_neg_int64Bound, and_assoc]
  constructor
  · rintro ⟨hfinite, ⟨n, hn⟩, -, hnan, hlow, -, -, hhigh, hi⟩
    rw [Int.mul_comm] at hn
    rw [hn] at hlow hhigh
    have hlow := Int.le_of_mul_le_mul_right hlow hone
    have hhigh := Int.lt_of_mul_lt_mul_right hhigh hone.le
    refine ⟨hfinite, ?_⟩
    rw [hn, (toInt64_eq_iff hnan hn hlow hhigh).1 hi]
  · rintro ⟨hfinite, hi⟩
    have hnan := isNaN_of_isFinite hfinite
    have hlow := i.le_toInt
    have hhigh := i.toInt_lt
    refine ⟨hfinite, ⟨i.toInt, by rw [hi, Int.mul_comm]⟩, by decide, hnan, ?_, hnan, by decide, ?_,
      (toInt64_eq_iff hnan hi hlow hhigh).2 rfl⟩
    · rw [hi]
      exact Int.mul_le_mul_of_nonneg_right hlow hone.le
    · rw [hi]
      exact Int.mul_lt_mul_of_pos_right hhigh hone

/-! ## Readings -/

/-- What the bits of a number may stand for. -/
inductive Reading
  | nan
  | infinite (negative : Bool)
  | rational (q : ℚ)

def exponentBits (x : Binary64) : Nat :=
  x.bits.toNat / 2 ^ 52 % 2 ^ 11

def fractionBits (x : Binary64) : Nat :=
  x.bits.toNat % 2 ^ 52

/-- **What the bits of a number stand for**: with all exponent bits set, for an infinity or for no
    number, and otherwise for a significand times a power of two, which has a leading one unless the
    exponent bits are zero. Zeros of either sign stand for zero. -/
def reading (x : Binary64) : Reading :=
  let negative : Bool := 2 ^ 63 ≤ x.bits.toNat
  if x.exponentBits = 2047 then
    if x.fractionBits = 0 then .infinite negative else .nan
  else
    let significand : Nat :=
      if x.exponentBits = 0 then x.fractionBits else 2 ^ 52 + x.fractionBits
    let power : Int := (max x.exponentBits 1 : Nat) - 1075
    .rational ((if negative then -1 else 1) * significand * 2 ^ power)

theorem exponentBits_eq (x : Binary64) : x.exponentBits = x.magnitude / leadingOne := by
  have hbits : x.bits.toNat < 2 ^ 64 := x.bits.toNat_lt
  rw [exponentBits, magnitude, signBit_eq, leadingOne_eq]
  omega

theorem fractionBits_eq (x : Binary64) : x.fractionBits = x.magnitude % leadingOne := by
  rw [fractionBits, magnitude, signBit_eq, leadingOne_eq]
  omega

theorem isFinite_iff : x.isFinite = true ↔ x.exponentBits ≠ 2047 := by
  have hmagnitude : x.magnitude < 2 ^ 63 := Nat.mod_lt _ (by decide)
  rw [exponentBits_eq, isFinite, decide_eq_true_iff, infinityMagnitude, leadingOne_eq]
  omega

theorem isNaN_iff : x.isNaN = true ↔ x.exponentBits = 2047 ∧ x.fractionBits ≠ 0 := by
  have hmagnitude : x.magnitude < 2 ^ 63 := Nat.mod_lt _ (by decide)
  rw [exponentBits_eq, fractionBits_eq, isNaN, decide_eq_true_iff, infinityMagnitude, leadingOne_eq]
  omega

/-- The units of a number are its significand shifted by its exponent. -/
theorem units_eq (x : Binary64) : x.units =
    (if x.exponentBits = 0 then x.fractionBits else 2 ^ 52 + x.fractionBits) *
      2 ^ (max x.exponentBits 1 - 1) := by
  rw [exponentBits_eq, fractionBits_eq, units, unitsOfMagnitude, leadingOne_eq, Nat.pow_eq]
  by_cases h : x.magnitude < 2 ^ 52
  · have hexponent : x.magnitude / 2 ^ 52 = 0 := Nat.div_eq_of_lt h
    rw [if_pos h, if_pos hexponent, hexponent, Nat.mod_eq_of_lt h, Nat.max_eq_right (Nat.zero_le 1),
      Nat.sub_self, Nat.pow_zero, Nat.mul_one]
  · have hexponent : 1 ≤ x.magnitude / 2 ^ 52 := (Nat.le_div_iff_mul_le (by decide)).2 (by omega)
    rw [if_neg h, if_neg (by omega), Nat.max_eq_left hexponent, Nat.add_comm]

theorem two_zpow_sub {e k one : Nat} (he : 1 ≤ e) (hone : one = Nat.pow 2 k) :
    (2 : ℚ) ^ ((e : ℤ) - (k + 1 : ℕ)) = 2 ^ (e - 1) / one := by
  obtain ⟨j, rfl⟩ := Nat.exists_eq_add_of_le' he
  have hexponent : ((j + 1 : ℕ) : ℤ) - (k + 1 : ℕ) = j - k := by
    push_cast
    ring
  rw [hexponent, zpow_sub₀ two_ne_zero, zpow_natCast, zpow_natCast, Nat.add_sub_cancel, hone,
    Nat.pow_eq, Nat.cast_pow, Nat.cast_ofNat]

/-- **Finite numbers are read as the rational numbers that are their values.** -/
theorem reading_of_isFinite (h : x.isFinite = true) :
    x.reading = .rational (x.signedUnits / unitsPerOne) := by
  have hpower : (2 : ℚ) ^ (((max x.exponentBits 1 : ℕ) : ℤ) - 1075) =
      2 ^ (max x.exponentBits 1 - 1) / unitsPerOne :=
    two_zpow_sub (k := 1074) (le_max_right x.exponentBits 1) (by decide +kernel)
  have hnegative : decide (2 ^ 63 ≤ x.bits.toNat) = x.isNegative := rfl
  rw [reading, if_neg (isFinite_iff.1 h), signedUnits, units_eq]
  refine congrArg Reading.rational ?_
  simp only [hpower, hnegative]
  generalize (if x.exponentBits = 0 then x.fractionBits else 2 ^ 52 + x.fractionBits) = significand
  generalize max x.exponentBits 1 - 1 = shift
  cases x.isNegative
  · simp only [Bool.false_eq_true, if_false]
    push_cast
    ring
  · simp only [if_true]
    push_cast
    ring

theorem reading_eq_rational_iff {q : ℚ} :
    x.reading = .rational q ↔ x.isFinite = true ∧ (x.signedUnits : ℚ) = q * unitsPerOne := by
  have hone : (unitsPerOne : ℚ) ≠ 0 := Nat.cast_ne_zero.2 unitsPerOne_pos.ne'
  by_cases hx : x.isFinite = true
  · rw [reading_of_isFinite hx, Reading.rational.injEq, div_eq_iff hone]
    exact (and_iff_right hx).symm
  · have hexponent : x.exponentBits = 2047 := by_contra fun h => hx (isFinite_iff.2 h)
    rw [reading, if_pos hexponent]
    refine ⟨fun h => ?_, fun h => absurd h.1 hx⟩
    split at h <;> exact nomatch h

theorem reading_eq_nan_iff : x.reading = .nan ↔ x.isNaN = true := by
  rw [isNaN_iff, reading]
  by_cases hexponent : x.exponentBits = 2047
  · by_cases hfraction : x.fractionBits = 0 <;> simp [hexponent, hfraction]
  · simp [hexponent]

/-- **A number is an integer when it is read as that integer.** -/
theorem toInt?_eq_some_iff_reading : x.toInt? = some n ↔ x.reading = .rational n := by
  rw [toInt?_eq_some_iff, reading_eq_rational_iff]
  exact and_congr_right fun _ => by exact_mod_cast Iff.rfl

end Warrant.Binary64
