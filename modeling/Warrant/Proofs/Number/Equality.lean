import Warrant.Proofs.Number.Whole
import Warrant.Value

/-!
# Equality of filters

Filters compare values across integers and floats. A float that is a whole number is compared as the
integer that it is, without rounding, so the equality is symmetric and transitive. It is not quite
reflexive: a NaN is equal to nothing.

## Main definitions

- `Value.whole?` — the integer that a value is

## Main statements

- `Binary64.numEq_of_toInt?` — floats that are the same integer are equal
- `Value.agrees_iff` — values are equal as integers or within one type
- `Value.agrees_symm`, `Value.agrees_trans` — the equality of filters is symmetric and transitive
- `Value.agrees_exact` — filters compare numbers exactly
-/

namespace Warrant

namespace Binary64

variable {x y z : Binary64} {i : Int}

/-! ## Floats -/

theorem numEq_symm (h : x.numEq y = true) : y.numEq x = true := by
  obtain ⟨hx, hy, h⟩ := numEq_iff.1 h
  exact numEq_iff.2 ⟨hy, hx, h.imp Eq.symm And.symm⟩

theorem numEq_trans (h : x.numEq y = true) (h' : y.numEq z = true) : x.numEq z = true := by
  rw [numEq_iff] at *
  obtain ⟨hx, -, h⟩ := h
  obtain ⟨-, hz, h'⟩ := h'
  refine ⟨hx, hz, ?_⟩
  rcases h with rfl | ⟨hzero, hzero'⟩
  · exact h'
  · rcases h' with rfl | ⟨-, hzero'⟩
    · exact .inr ⟨hzero, hzero'⟩
    · exact .inr ⟨hzero, hzero'⟩

/-- Numbers of one value have the same magnitude bits with the sign. -/
theorem signedMagnitude_eq (h : x.signedUnits = y.signedUnits) :
    x.signedMagnitude = y.signedMagnitude := by
  have hlt := signedUnits_lt_iff (x := x) (y := y)
  have hgt := signedUnits_lt_iff (x := y) (y := x)
  omega

/-- **Floats that are the same integer are equal.** -/
theorem numEq_of_toInt? (hx : x.toInt? = some i) (hy : y.toInt? = some i) :
    x.numEq y = true := by
  obtain ⟨hx, hxunits⟩ := toInt?_eq_some_iff.1 hx
  obtain ⟨hy, hyunits⟩ := toInt?_eq_some_iff.1 hy
  have hmagnitude := signedMagnitude_eq (hxunits.trans hyunits.symm)
  refine numEq_iff.2 ⟨isNaN_of_isFinite hx, isNaN_of_isFinite hy, ?_⟩
  unfold signedMagnitude at hmagnitude
  by_cases hsign : x.isNegative = y.isNegative
  · refine .inl ?_
    have heq : x.magnitude = y.magnitude := by
      rw [hsign] at hmagnitude
      split at hmagnitude <;> omega
    rw [← ofMagnitude_magnitude x, hsign, heq, ofMagnitude_magnitude]
  · -- zeros may have different signs
    refine .inr ?_
    split at hmagnitude <;> split at hmagnitude <;> grind

theorem toInt?_of_magnitude_eq_zero (h : x.magnitude = 0) : x.toInt? = some 0 := by
  have hunits : x.units = 0 := by
    rw [units, h, unitsOfMagnitude_zero]
  refine toInt?_eq_some_iff.2 ⟨?_, ?_⟩
  · rw [isFinite, h]
    decide
  · rw [signedUnits, hunits, Int.zero_mul]
    exact ite_self _

/-- Equal floats are the same integer, if any. -/
theorem toInt?_eq_of_numEq (h : x.numEq y = true) : x.toInt? = y.toInt? := by
  rcases (numEq_iff.1 h).2.2 with rfl | ⟨hx, hy⟩
  · rfl
  · rw [toInt?_of_magnitude_eq_zero hx, toInt?_of_magnitude_eq_zero hy]

end Binary64

/-! ## Values -/

namespace Value

variable {u v w : Value} {i : Int}

/-- The integer that a value is, if it is one. -/
def whole? : Value → Option Int
  | .integer i => some i.toInt
  | .float x => x.toInt?
  | _ => none

theorem same_iff : v.same w = true ↔
    (∃ x y, v = .float x ∧ w = .float y ∧ x.numEq y = true) ∨ v = w ∧ ∀ x, v ≠ .float x := by
  cases v <;> cases w <;> simp [same]

theorem same_symm (h : v.same w = true) : w.same v = true := by
  rw [same_iff] at *
  rcases h with ⟨x, y, rfl, rfl, h⟩ | ⟨rfl, hne⟩
  · exact .inl ⟨y, x, rfl, rfl, Binary64.numEq_symm h⟩
  · exact .inr ⟨rfl, hne⟩

theorem same_trans (h : u.same v = true) (h' : v.same w = true) : u.same w = true := by
  rcases same_iff.1 h with ⟨x, y, rfl, rfl, h⟩ | ⟨rfl, -⟩
  · rcases same_iff.1 h' with ⟨_, z, hy, rfl, h'⟩ | ⟨-, hne⟩
    · obtain rfl := Value.float.inj hy
      exact same_iff.2 (.inl ⟨x, z, rfl, rfl, Binary64.numEq_trans h h'⟩)
    · exact absurd rfl (hne y)
  · exact h'

theorem whole?_eq_of_same (h : v.same w = true) : v.whole? = w.whole? := by
  rcases same_iff.1 h with ⟨x, y, rfl, rfl, h⟩ | ⟨rfl, -⟩
  · exact Binary64.toInt?_eq_of_numEq h
  · rfl

/-- **Values are equal when they are the same integer**, or when they are equal within one type. -/
theorem agrees_iff : v.agrees w = true ↔
    (∃ i, v.whole? = some i ∧ w.whole? = some i) ∨ v.same w = true := by
  cases v with
  | integer i =>
    cases w with
    | integer j => simp [agrees, same, whole?, Int64.toInt_inj, eq_comm]
    | float y => simp [agrees, same, whole?, Binary64.isInt_iff]
    | _ => simp [agrees, same, whole?]
  | float x =>
    cases w with
    | integer j => simp [agrees, same, whole?, Binary64.isInt_iff]
    | float y =>
      refine ⟨.inr, ?_⟩
      rintro (⟨i, hx, hy⟩ | h)
      · exact Binary64.numEq_of_toInt? hx hy
      · exact h
    | _ => simp [agrees, same, whole?]
  | _ => simp [agrees, whole?]

/-- Nothing but null is equal to null. -/
theorem agrees_null_left_iff : Value.null.agrees v = true ↔ v = .null := by
  cases v <;> simp [agrees, same]

/-- The equality of filters is symmetric. -/
theorem agrees_symm (h : v.agrees w = true) : w.agrees v = true := by
  rw [agrees_iff] at *
  exact h.imp (fun ⟨i, hv, hw⟩ => ⟨i, hw, hv⟩) same_symm

/-- **The equality of filters is transitive.** -/
theorem agrees_trans (h : u.agrees v = true) (h' : v.agrees w = true) : u.agrees w = true := by
  rw [agrees_iff] at *
  rcases h with ⟨i, hu, hv⟩ | hsame
  · rcases h' with ⟨j, hv', hw⟩ | hsame'
    · exact .inl ⟨j, hu.trans (hv.symm.trans hv'), hw⟩
    · exact .inl ⟨i, hu, (whole?_eq_of_same hsame').symm.trans hv⟩
  · rcases h' with ⟨i, hv, hw⟩ | hsame'
    · exact .inl ⟨i, (whole?_eq_of_same hsame).trans hv, hw⟩
    · exact .inr (same_trans hsame hsame')

/-- A value is equal to itself unless it is a NaN. -/
theorem agrees_self_iff : v.agrees v = true ↔ ∀ x, v = .float x → x.reading ≠ .nan := by
  cases v with
  | float x =>
    have hself : (Value.float x).agrees (.float x) = true ↔ x.isNaN = false :=
      Binary64.numEq_iff.trans ⟨fun h => h.1, fun h => ⟨h, h, .inl rfl⟩⟩
    rw [hself, ← Bool.not_eq_true, ← Binary64.reading_eq_nan_iff]
    refine ⟨fun h y hy => ?_, fun h => h x rfl⟩
    rwa [← Value.float.inj hy]
  | _ => exact ⟨fun _ => nofun, fun _ => by simp [agrees, same]⟩

/-- **Filters compare numbers exactly.** An integer and a float are equal when the float is read as the
    rational number that the integer is, on whichever side they stand. So the equality of filters is
    symmetric and transitive, and reflexive but for NaNs. -/
theorem agrees_exact :
    (∀ (i : Int64) (x : Binary64),
      (Value.integer i).agrees (.float x) = true ↔ x.reading = .rational i.toInt) ∧
    (∀ (i : Int64) (x : Binary64),
      (Value.float x).agrees (.integer i) = true ↔ x.reading = .rational i.toInt) ∧
    (∀ v w : Value, v.agrees w = w.agrees v) ∧
    (∀ u v w : Value, u.agrees v = true → v.agrees w = true → u.agrees w = true) ∧
    ∀ v : Value, v.agrees v = true ↔ ∀ x, v = .float x → x.reading ≠ .nan := by
  have hexact (i : Int64) (x : Binary64) : x.isInt i = true ↔ x.reading = .rational i.toInt :=
    Binary64.isInt_iff.trans Binary64.toInt?_eq_some_iff_reading
  refine ⟨hexact, hexact, fun v w => ?_, fun u v w => agrees_trans, fun v => agrees_self_iff⟩
  rw [Bool.eq_iff_iff]
  exact ⟨agrees_symm, agrees_symm⟩

/-- `2⁵³ + 1` is no float. The float that is nearest to it is equal to `2⁵³` and not to it. -/
example : (Value.float (.ofInt 9007199254740993)).agrees (.integer 9007199254740992) = true ∧
    (Value.float (.ofInt 9007199254740993)).agrees (.integer 9007199254740993) = false := by
  decide +kernel

end Value

end Warrant
