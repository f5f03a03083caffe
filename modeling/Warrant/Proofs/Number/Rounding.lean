import Mathlib.Algebra.Order.Ring.Nat
import Mathlib.Data.Nat.Log
import Mathlib.Tactic.Positivity
import Mathlib.Tactic.Ring
import Warrant.Number.Shortest

/-!
# Rounding what is a number already

A number that needs no rounding is not changed by it, and only the value of a decimal counts, not
how many zeros its digits end with. So the shortest decimal of a number is read as that number.

## Main statements

- `Binary64.roundUnits_units` — rounding keeps a representable value
- `Binary64.ofDecimal_mul_pow` — trailing zeros may be counted in the exponent instead
- `Binary64.ofDecimal_shortest` — the shortest decimal of a number is read as the number
-/

namespace Warrant.Binary64

/-! ## Bits -/

theorem signBit_eq : signBit = 2 ^ 63 := rfl

theorem leadingOne_eq : leadingOne = 2 ^ 52 := rfl

theorem unitsPerOne_pos : 0 < unitsPerOne := by decide +kernel

theorem magnitude_ofMagnitude {m : Nat} (negative : Bool) (h : m < signBit) :
    (ofMagnitude negative m).magnitude = m := by
  rw [signBit_eq] at h
  unfold magnitude ofMagnitude
  rw [UInt64.toNat_ofNat', signBit_eq]
  cases negative
  · rw [if_neg Bool.false_ne_true]
    omega
  · rw [if_pos rfl]
    omega

/-- A number is given by its sign and its magnitude. -/
theorem ofMagnitude_magnitude (x : Binary64) : ofMagnitude x.isNegative x.magnitude = x := by
  have hbits : x.bits.toNat < 2 ^ 64 := x.bits.toNat_lt
  have hnat : (if x.isNegative then signBit + x.magnitude else x.magnitude) = x.bits.toNat := by
    unfold isNegative magnitude
    rw [signBit_eq]
    by_cases h : 2 ^ 63 ≤ x.bits.toNat
    · rw [if_pos (decide_eq_true h)]
      omega
    · rw [if_neg (by simpa using h)]
      omega
  unfold ofMagnitude
  rw [hnat, UInt64.ofNat_toNat]

/-! ## Scaling -/

theorem roundDiv_mul_right {c : Nat} (num den : Nat) (hc : 0 < c) :
    roundDiv (num * c) (den * c) = roundDiv num den := by
  unfold roundDiv
  have hrest : 2 * (num * c % (den * c)) = 2 * (num % den) * c := by
    rw [Nat.mul_mod_mul_right, Nat.mul_assoc]
  rw [Nat.mul_div_mul_right num den hc, hrest]
  simp only [Nat.mul_lt_mul_right hc]

theorem roundUnits_mul_right {c : Nat} (num den : Nat) (hc : 0 < c) :
    roundUnits (num * c) (den * c) = roundUnits num den := by
  unfold roundUnits
  have hden (n : Nat) : den * c * n = den * n * c := Nat.mul_right_comm den c n
  rw [Nat.mul_div_mul_right num den hc]
  simp only [hden, roundDiv_mul_right _ _ hc]

/-- A quotient counts, not how it is written as a fraction. -/
theorem ofRatio_mul_right {c : Nat} (negative : Bool) (num den : Nat) (hc : 0 < c) :
    ofRatio negative (num * c) (den * c) = ofRatio negative num den := by
  unfold ofRatio
  rw [Nat.mul_right_comm num c unitsPerOne, roundUnits_mul_right _ _ hc]

theorem decimal_mul_pow {n : Nat} (hn : 0 < n) (k : Nat) :
    Text.decimal (n * 10 ^ k) = Text.decimal n ++ List.replicate k '0' := by
  induction k with
  | zero => simp
  | succ k ih =>
    have hstep : n * 10 ^ (k + 1) = 10 * (n * 10 ^ k) + 0 := by ring
    have hpos : 0 < n * 10 ^ k := by positivity
    unfold Text.decimal at ih ⊢
    rw [hstep, ← Nat.toDigits_append_toDigits (by decide) hpos (by decide), ih,
      Nat.toDigits_zero, List.append_assoc, ← List.replicate_succ']

theorem ofDecimal_zero (negative : Bool) (e : Int) :
    ofDecimal negative 0 e = ofMagnitude negative 0 := by
  simp [ofDecimal]

/-- **Zeros at the end of the digits may be counted in the exponent.** -/
theorem ofDecimal_mul_pow (negative : Bool) (m k : Nat) (e : Int) :
    ofDecimal negative (m * 10 ^ k) e = ofDecimal negative m (e + k) := by
  by_cases hm : m = 0
  · rw [hm, Nat.zero_mul, ofDecimal_zero, ofDecimal_zero]
  have hlength : ((Nat.toDigits 10 (m * 10 ^ k)).length : Int) + e =
      (Nat.toDigits 10 m).length + (e + k) := by
    have h := congrArg List.length (decimal_mul_pow (Nat.pos_of_ne_zero hm) k)
    simp only [Text.decimal, List.length_append, List.length_replicate] at h
    omega
  have hzero : m * 10 ^ k = 0 ↔ m = 0 := by simp
  have hpow (i j : Nat) : 10 ^ i * 10 ^ j = 10 ^ (i + j) := (Nat.pow_add 10 i j).symm
  unfold ofDecimal
  simp only [hlength, hzero, Nat.pow_eq]
  -- Both sides write the same quotient, with tens above or below the line.
  by_cases he : 0 ≤ e
  · have hek : 0 ≤ e + k := by omega
    have hexp : k + e.toNat = (e + k).toNat := by omega
    rw [if_pos he, if_pos hek, Nat.mul_assoc, hpow, hexp]
  · by_cases hek : 0 ≤ e + k
    · have hexp : k = (e + k).toNat + (-e).toNat := by omega
      have hquot := ofRatio_mul_right negative (m * 10 ^ (e + k).toNat) 1
        (Nat.pow_pos (n := (-e).toNat) (by decide : 0 < 10))
      rw [Nat.mul_assoc, hpow, ← hexp, Nat.one_mul] at hquot
      rw [if_neg he, if_pos hek, hquot]
    · have hexp : (-(e + k)).toNat + k = (-e).toNat := by omega
      have hquot := ofRatio_mul_right negative m (10 ^ (-(e + k)).toNat)
        (Nat.pow_pos (n := k) (by decide : 0 < 10))
      rw [hpow, hexp] at hquot
      rw [if_neg he, if_neg hek, hquot]

/-! ## Representable values -/

theorem roundDiv_mul_self {c : Nat} (n : Nat) (hc : 0 < c) : roundDiv (n * c) c = n := by
  unfold roundDiv
  rw [Nat.mul_mod_left, Nat.mul_div_cancel n hc, if_pos (by omega)]

/-- The excess bits of a shifted significand are those by which it was shifted. -/
theorem excessBits_shifted {q : Nat} (s : Nat) (hlow : leadingOne ≤ q)
    (hhigh : q < 2 * leadingOne) : excessBits (q * 2 ^ s) = s := by
  unfold excessBits
  rw [leadingOne_eq] at *
  cases s with
  | zero => rw [Nat.pow_zero, Nat.mul_one, if_pos hhigh]
  | succ s =>
    have hbig : 2 ^ 52 * 2 ≤ q * 2 ^ (s + 1) := by
      refine Nat.mul_le_mul hlow ?_
      rw [Nat.pow_succ]
      exact Nat.le_mul_of_pos_left 2 (by positivity)
    have hlog : Nat.log2 (q * 2 ^ (s + 1)) = 52 + (s + 1) := by
      rw [Nat.log2_eq_iff (by omega)]
      constructor
      · rw [Nat.pow_add]
        exact Nat.mul_le_mul_right _ hlow
      · have hmul := Nat.mul_lt_mul_of_pos_right hhigh (Nat.two_pow_pos (s + 1))
        rwa [← Nat.pow_add_one', ← Nat.pow_add, Nat.add_right_comm] at hmul
    rw [if_neg (by omega), hlog]
    omega

/-- **Rounding keeps a representable value.** -/
theorem roundUnits_units {m : Nat} (h : m ≤ infinityMagnitude) :
    roundUnits (unitsOfMagnitude m) 1 = m := by
  unfold roundUnits unitsOfMagnitude
  simp only [Nat.div_one, Nat.one_mul, Nat.pow_eq]
  by_cases hsub : m < leadingOne
  · -- A fraction without a leading one has no excess bits.
    have hexcess : excessBits m = 0 := if_pos (by omega)
    have hround := roundDiv_mul_self m Nat.one_pos
    rw [Nat.mul_one] at hround
    rw [if_pos hsub, hexcess, Nat.pow_zero, hround, Nat.zero_mul, Nat.zero_add]
    exact Nat.min_eq_left h
  · have hlow : leadingOne ≤ m % leadingOne + leadingOne := Nat.le_add_left _ _
    have hhigh : m % leadingOne + leadingOne < 2 * leadingOne := by
      have hmod := Nat.mod_lt m (y := leadingOne) (by decide)
      omega
    rw [if_neg hsub, excessBits_shifted _ hlow hhigh, roundDiv_mul_self _ (by positivity)]
    have hsum : (m / leadingOne - 1) * leadingOne + (m % leadingOne + leadingOne) = m := by
      rw [leadingOne_eq] at *
      omega
    rw [hsum]
    exact Nat.min_eq_left h

theorem ofRatio_units {m c : Nat} (negative : Bool) (h : m ≤ infinityMagnitude) (hc : 0 < c) :
    ofRatio negative (unitsOfMagnitude m * c) (c * unitsPerOne) = ofMagnitude negative m := by
  have hpos : 0 < c * unitsPerOne := Nat.mul_pos hc unitsPerOne_pos
  have hround := roundUnits_mul_right (unitsOfMagnitude m) 1 hpos
  rw [Nat.one_mul, ← Nat.mul_assoc] at hround
  unfold ofRatio
  rw [hround, roundUnits_units h]

/-! ## The shortest decimal -/

/-- The units of a number are a significand that its exponent shifts. -/
theorem unitsOfMagnitude_lt {m s : Nat} (h : m < (s + 2) * leadingOne) :
    unitsOfMagnitude m < 2 * leadingOne * Nat.pow 2 s := by
  unfold unitsOfMagnitude
  rw [leadingOne_eq, Nat.pow_eq] at *
  by_cases hsub : m < 2 ^ 52
  · rw [if_pos hsub]
    calc m < 2 * 2 ^ 52 * 1 := by omega
      _ ≤ 2 * 2 ^ 52 * 2 ^ s := Nat.mul_le_mul_left _ Nat.one_le_two_pow
  · rw [if_neg hsub]
    have hmod := Nat.mod_lt m (y := 2 ^ 52) (by decide)
    have hexp : m / 2 ^ 52 - 1 ≤ s := by omega
    calc (m % 2 ^ 52 + 2 ^ 52) * 2 ^ (m / 2 ^ 52 - 1)
        < 2 * 2 ^ 52 * 2 ^ (m / 2 ^ 52 - 1) :=
          Nat.mul_lt_mul_of_pos_right (by omega) (by positivity)
      _ ≤ 2 * 2 ^ 52 * 2 ^ s := Nat.mul_le_mul_left _ (Nat.pow_le_pow_right (by decide) hexp)

theorem unitsOfMagnitude_pos {m : Nat} (h : 0 < m) : 0 < unitsOfMagnitude m := by
  unfold unitsOfMagnitude
  split
  · exact h
  · exact Nat.mul_pos (Nat.add_pos_right _ (by decide)) (Nat.pow_pos (by decide))

/-- How many digits a multiple of a number of units has, given powers of ten around it. -/
theorem length_decimal_units_mul {m : Nat} (v s least most : Nat) (hpos : 0 < m)
    (hm : m < (s + 2) * leadingOne) (hleast : 0 < least) (hmost : 0 < most)
    (hlow : Nat.pow 10 least ≤ v) (hhigh : 2 * leadingOne * Nat.pow 2 s * v ≤ Nat.pow 10 most) :
    least < (Text.decimal (unitsOfMagnitude m * v)).length ∧
      (Text.decimal (unitsOfMagnitude m * v)).length ≤ most := by
  have hv : 0 < v := Nat.lt_of_lt_of_le (Nat.pow_pos (by decide)) hlow
  unfold Text.decimal
  constructor
  · by_contra hle
    have hlt := (Nat.length_toDigits_le_iff (by decide) hleast).1 (Nat.le_of_not_lt hle)
    have hmul : v ≤ unitsOfMagnitude m * v := Nat.le_mul_of_pos_left v (unitsOfMagnitude_pos hpos)
    exact absurd (hlt.trans_le hlow) (Nat.not_lt.2 hmul)
  · rw [Nat.length_toDigits_le_iff (by decide) hmost]
    exact (Nat.mul_lt_mul_of_pos_right (unitsOfMagnitude_lt hm) hv).trans_le hhigh

/-- The exact value of a number has its leading digit in range. -/
theorem length_exactDecimal {m : Nat} (hpos : 0 < m) (hfinite : m < infinityMagnitude) :
    750 < (Text.decimal (exactDecimal (unitsOfMagnitude m)).digits).length ∧
    (Text.decimal (exactDecimal (unitsOfMagnitude m)).digits).length ≤ 1383 :=
  length_decimal_units_mul (Nat.pow 5 1074) 2045 750 1383 hpos hfinite (by decide) (by decide)
    (by decide +kernel) (by decide +kernel)

/-- **The exact value of a number is read as the number.** -/
theorem ofDecimal_exactDecimal {m : Nat} (negative : Bool) (hpos : 0 < m)
    (hfinite : m < infinityMagnitude) :
    ofDecimal negative (exactDecimal (unitsOfMagnitude m)).digits
      (exactDecimal (unitsOfMagnitude m)).exponent = ofMagnitude negative m := by
  obtain ⟨hlow, hhigh⟩ := length_exactDecimal hpos hfinite
  have hfive : 0 < Nat.pow 5 1074 := by decide +kernel
  have hten : Nat.pow 10 (- -1074 : Int).toNat = Nat.pow 5 1074 * unitsPerOne := by
    decide +kernel
  have hdigits : unitsOfMagnitude m * Nat.pow 5 1074 ≠ 0 :=
    (Nat.mul_pos (unitsOfMagnitude_pos hpos) hfive).ne'
  unfold ofDecimal decimalOverflow decimalUnderflow
  unfold exactDecimal Text.decimal at *
  generalize Nat.pow 5 1074 = five at *
  simp only at hlow hhigh ⊢
  rw [if_neg (by simp [hdigits]; omega), if_neg (by omega), if_neg (by decide), hten,
    ofRatio_units negative hfinite.le hfive]

theorem roundUnits_lt (num den : Nat) : roundUnits num den < signBit :=
  Nat.lt_of_le_of_lt (Nat.min_le_right _ _) (by decide)

/-- The sign of what is read has nothing to do with its magnitude. -/
theorem exists_ofDecimal_eq (m : Nat) (e : Int) :
    ∃ k < signBit, ∀ negative, ofDecimal negative m e = ofMagnitude negative k := by
  unfold ofDecimal
  simp only
  split
  · exact ⟨0, by decide, fun _ => rfl⟩
  · split
    · exact ⟨infinityMagnitude, by decide, fun _ => rfl⟩
    · split
      · exact ⟨_, roundUnits_lt _ _, fun _ => rfl⟩
      · exact ⟨_, roundUnits_lt _ _, fun _ => rfl⟩

theorem ofDecimal_of_readsBack {m : Nat} {d : Decimal} (negative : Bool)
    (h : readsBack m d = true) : ofDecimal negative d.digits d.exponent = ofMagnitude negative m := by
  obtain ⟨k, hk, heq⟩ := exists_ofDecimal_eq d.digits d.exponent
  have hm : k = m := by
    rw [readsBack, heq, magnitude_ofMagnitude _ hk] at h
    exact of_decide_eq_true h
  rw [heq, hm]

theorem ofDecimal_searchDigits {m : Nat} (negative : Bool) (rule : HalfwayRule) (leading : Int)
    (hpos : 0 < m) (hfinite : m < infinityMagnitude) (tries n : Nat) :
    ofDecimal negative (searchDigits rule m leading tries n).digits
      (searchDigits rule m leading tries n).exponent = ofMagnitude negative m := by
  induction tries generalizing n with
  | zero => exact ofDecimal_exactDecimal negative hpos hfinite
  | succ tries ih =>
    unfold searchDigits
    cases hfound : (neighbours rule (unitsOfMagnitude m) (leading + 1 - n)).find? (readsBack m) with
    | none => exact ih (n + 1)
    | some d => exact ofDecimal_of_readsBack negative (List.find?_some hfound)

/-- **The shortest decimal of a number is read as the number.** -/
theorem ofDecimal_shortest {x : Binary64} (rule : HalfwayRule) (hpos : 0 < x.magnitude)
    (hfinite : x.isFinite = true) :
    ofDecimal x.isNegative (x.shortest rule).digits (x.shortest rule).exponent = x := by
  have hlt : x.magnitude < infinityMagnitude := of_decide_eq_true hfinite
  exact (ofDecimal_searchDigits _ rule _ hpos hlt 17 1).trans (ofMagnitude_magnitude x)

end Warrant.Binary64
