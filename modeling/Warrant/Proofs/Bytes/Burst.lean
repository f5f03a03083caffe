import Warrant.Bytes.Crc32
import Warrant.Proofs.Bytes.Reading

/-!
# What the check of 32 bits tells apart

A step of the register is linear over exclusive or, and no step loses anything, since the highest
bit of the polynomial is set. So the register can be followed backwards through what two texts have
in common, and it remains to look at where they differ. Up to four bytes enter the register as one
word would: they are added to it before it is shifted. Two texts of the same length that differ only
within four consecutive bytes therefore never leave the register in the same state.

The trailer of an envelope is such a word. With its own check behind it, every text leaves the
register in one and the same state.

## Main definitions

- `Bytes.AlikeOutside` — two texts agree outside a window

## Main statements

- `Crc32.shifts_xor`, `Crc32.shifts_inj` — the register is linear and loses nothing
- `Crc32.run_eq_shifts` — up to four bytes as a word
- `Crc32.eq_of_alikeOutside` — bursts of four bytes change the register
- `Crc32.run_append_crc32` — a text before its check
-/

namespace Warrant

/-! ## Windows -/

namespace Bytes

theorem ofLittle_lt (bytes : List UInt8) : ofLittle bytes < 256 ^ bytes.length := by
  induction bytes with
  | nil => decide
  | cons b bytes ih =>
    have hb : b.toNat < 256 := b.toNat_lt
    rw [ofLittle, List.length_cons, Nat.pow_succ']
    omega

theorem little_ofLittle (bytes : List UInt8) : little bytes.length (ofLittle bytes) = bytes := by
  induction bytes with
  | nil => rfl
  | cons b bytes ih =>
    have hb : b.toNat < 256 := b.toNat_lt
    have hbyte : UInt8.ofNat (b.toNat + 256 * ofLittle bytes) = b := by
      apply UInt8.toNat_inj.1
      rw [UInt8.toNat_ofNat']
      omega
    have hrest : (b.toNat + 256 * ofLittle bytes) / 256 = ofLittle bytes := by omega
    rw [ofLittle, List.length_cons, little, hbyte, hrest, ih]

/-- **Texts of the same length agree** outside a window of consecutive bytes. -/
structure AlikeOutside (start width : Nat) (xs ys : List UInt8) : Prop where
  length : xs.length = ys.length
  window : ∀ i, xs[i]? ≠ ys[i]? → start ≤ i ∧ i < start + width

theorem AlikeOutside.exists_window {start width : Nat} {xs ys : List UInt8}
    (h : AlikeOutside start width xs ys) :
    ∃ front w w' back, xs = front ++ w ++ back ∧ ys = front ++ w' ++ back ∧
      w.length = w'.length ∧ w'.length ≤ width := by
  have hsame : ∀ i, ¬ (start ≤ i ∧ i < start + width) → xs[i]? = ys[i]? := by
    intro i hi
    by_contra hne
    exact hi (h.window i hne)
  -- Outside the window the texts have the same bytes, so they share what is before and behind it.
  have hfront : xs.take start = ys.take start := by
    apply List.ext_getElem?
    intro i
    rw [List.getElem?_take, List.getElem?_take]
    by_cases hi : i < start
    · rw [if_pos hi, if_pos hi, hsame i (by omega)]
    · rw [if_neg hi, if_neg hi]
  have hback : xs.drop (start + width) = ys.drop (start + width) := by
    apply List.ext_getElem?
    intro i
    rw [List.getElem?_drop, List.getElem?_drop, hsame _ (by omega)]
  have hsplit : ∀ zs : List UInt8,
      zs = zs.take start ++ (zs.drop start).take width ++ zs.drop (start + width) := by
    intro zs
    rw [List.append_assoc, ← List.drop_drop, List.take_append_drop, List.take_append_drop]
  refine ⟨ys.take start, (xs.drop start).take width, (ys.drop start).take width,
    ys.drop (start + width), ?_, hsplit ys, ?_, ?_⟩
  · rw [← hfront, ← hback]
    exact hsplit xs
  · simp [h.length]
  · rw [List.length_take]
    exact Nat.min_le_left _ _

theorem AlikeOutside.set (bytes : List UInt8) (i : Nat) (b : UInt8) :
    AlikeOutside i 1 bytes (bytes.set i b) := by
  refine ⟨List.length_set.symm, fun j hj => ?_⟩
  by_contra hout
  exact hj (List.getElem?_set_ne (by omega)).symm

theorem AlikeOutside.mono {start width width' : Nat} {xs ys : List UInt8}
    (h : AlikeOutside start width xs ys) (hle : width ≤ width') :
    AlikeOutside start width' xs ys := by
  refine ⟨h.length, fun i hi => ?_⟩
  have hwindow := h.window i hi
  omega

/-- What agrees outside a window still does when the front has been cut off. -/
theorem AlikeOutside.drop {start width : Nat} {xs ys : List UInt8}
    (h : AlikeOutside start width xs ys) (n : Nat) :
    AlikeOutside (start - n) width (xs.drop n) (ys.drop n) := by
  refine ⟨by rw [List.length_drop, List.length_drop, h.length], fun i hi => ?_⟩
  rw [List.getElem?_drop, List.getElem?_drop] at hi
  have hwindow := h.window _ hi
  omega

end Bytes

open Bytes

namespace Crc32

/-! ## The register -/

theorem and_one_eq_one_iff {c : UInt32} : c &&& 1 = 1 ↔ c.toNat % 2 = 1 := by
  rw [← UInt32.toNat_inj, UInt32.toNat_and]
  show c.toNat &&& 1 = 1 ↔ _
  rw [Nat.and_one_is_mod]

/-- A step of the register is a shift to which the polynomial may be added. -/
theorem shift_eq (c : UInt32) :
    shift c = (c >>> 1) ^^^ (if c.toNat % 2 = 1 then polynomial else 0) := by
  rw [shift]
  by_cases h : c.toNat % 2 = 1
  · rw [if_pos (and_one_eq_one_iff.2 h), if_pos h]
  · rw [if_neg (fun h' => h (and_one_eq_one_iff.1 h')), if_neg h, UInt32.xor_zero]

theorem toNat_shiftRight_one (c : UInt32) : (c >>> 1).toNat = c.toNat / 2 := by
  rw [UInt32.toNat_shiftRight]
  show c.toNat >>> 1 = c.toNat / 2
  rw [Nat.shiftRight_eq_div_pow, Nat.pow_one]

theorem shift_xor (a b : UInt32) : shift (a ^^^ b) = shift a ^^^ shift b := by
  have hparity : (a ^^^ b).toNat % 2 = (a.toNat + b.toNat) % 2 := by
    rw [UInt32.toNat_xor, Nat.xor_mod_two_eq]
  rw [shift_eq, shift_eq, shift_eq, UInt32.shiftRight_xor, hparity]
  by_cases ha : a.toNat % 2 = 1
  · by_cases hb : b.toNat % 2 = 1
    · rw [if_neg (by omega), if_pos ha, if_pos hb]
      -- The polynomial is added twice.
      have hcancel : ∀ x y p : UInt32, (x ^^^ p) ^^^ (y ^^^ p) = x ^^^ y := by
        intro x y p
        rw [UInt32.xor_comm y p, ← UInt32.xor_assoc, UInt32.xor_assoc x p p, UInt32.xor_self,
          UInt32.xor_zero]
      rw [hcancel, UInt32.xor_zero]
    · rw [if_pos (by omega), if_pos ha, if_neg hb, UInt32.xor_zero, UInt32.xor_assoc,
        UInt32.xor_comm (b >>> 1), UInt32.xor_assoc]
  · by_cases hb : b.toNat % 2 = 1
    · rw [if_pos (by omega), if_neg ha, if_pos hb, UInt32.xor_zero, UInt32.xor_assoc]
    · rw [if_neg (by omega), if_neg ha, if_neg hb, UInt32.xor_zero, UInt32.xor_zero,
        UInt32.xor_zero]

/-- Only an empty register is empty after a step: the polynomial reaches higher than what is
shifted. -/
theorem eq_zero_of_shift_eq_zero {c : UInt32} (h : shift c = 0) : c = 0 := by
  have hlt : c.toNat < 2 ^ 32 := c.toNat_lt
  have hhalf : (c >>> 1).toNat = c.toNat / 2 := toNat_shiftRight_one c
  rw [shift_eq] at h
  by_cases hodd : c.toNat % 2 = 1
  · rw [if_pos hodd, UInt32.xor_eq_zero_iff] at h
    have hpoly : (c >>> 1).toNat = 0xedb88320 := congrArg UInt32.toNat h
    omega
  · rw [if_neg hodd, UInt32.xor_zero] at h
    have hzero : (c >>> 1).toNat = 0 := congrArg UInt32.toNat h
    apply UInt32.toNat_inj.1
    show c.toNat = 0
    omega

theorem shift_inj {a b : UInt32} (h : shift a = shift b) : a = b := by
  apply UInt32.xor_eq_zero_iff.1
  apply eq_zero_of_shift_eq_zero
  rw [shift_xor, h, UInt32.xor_self]

theorem shifts_xor (n : Nat) (a b : UInt32) :
    shifts n (a ^^^ b) = shifts n a ^^^ shifts n b := by
  induction n generalizing a b with
  | zero => rfl
  | succ n ih => rw [shifts, shifts, shifts, shift_xor, ih]

theorem shifts_inj {n : Nat} {a b : UInt32} (h : shifts n a = shifts n b) : a = b := by
  induction n generalizing a b with
  | zero => exact h
  | succ n ih => exact shift_inj (ih h)

theorem shifts_add (m n : Nat) (c : UInt32) : shifts (m + n) c = shifts n (shifts m c) := by
  induction m generalizing c with
  | zero => rw [Nat.zero_add, shifts]
  | succ m ih => rw [Nat.succ_add, shifts, shifts, ih]

/-- The register only moves down while its lowest bits are clear. -/
theorem shifts_ofNat_mul {n m : Nat} (h : m * 2 ^ n < 2 ^ 32) :
    shifts n (UInt32.ofNat (m * 2 ^ n)) = UInt32.ofNat m := by
  induction n with
  | zero => rw [Nat.pow_zero, Nat.mul_one, shifts]
  | succ n ih =>
    have hhalf : m * 2 ^ (n + 1) = 2 * (m * 2 ^ n) := by
      rw [Nat.pow_succ']
      ring
    rw [hhalf] at h ⊢
    have hnat : (UInt32.ofNat (2 * (m * 2 ^ n))).toNat = 2 * (m * 2 ^ n) :=
      UInt32.toNat_ofNat_of_lt' h
    have hstep : shift (UInt32.ofNat (2 * (m * 2 ^ n))) = UInt32.ofNat (m * 2 ^ n) := by
      rw [shift_eq, if_neg (by omega), UInt32.xor_zero]
      apply UInt32.toNat_inj.1
      rw [toNat_shiftRight_one, hnat, UInt32.toNat_ofNat_of_lt' (by
        show m * 2 ^ n < 2 ^ 32
        omega)]
      omega
    rw [shifts, hstep]
    exact ih (by omega)

/-! ## Texts -/

theorem run_cons (c : UInt32) (b : UInt8) (bytes : List UInt8) :
    run c (b :: bytes) = run (update c b) bytes := rfl

theorem run_append (c : UInt32) (xs ys : List UInt8) : run c (xs ++ ys) = run (run c xs) ys :=
  List.foldl_append

/-- The register can be followed backwards through a text. -/
theorem run_inj {a b : UInt32} {bytes : List UInt8} (h : run a bytes = run b bytes) : a = b := by
  induction bytes generalizing a b with
  | nil => exact h
  | cons x bytes ih =>
    have hupdate : update a x = update b x := ih h
    exact (UInt32.xor_left_inj _).1 (shifts_inj hupdate)

/-- A byte and what stands above it. -/
theorem toUInt32_xor_ofNat (b : UInt8) {m : Nat} (h : 256 * m < 2 ^ 32) :
    b.toUInt32 ^^^ UInt32.ofNat (256 * m) = UInt32.ofNat (b.toNat + 256 * m) := by
  have hb : b.toNat < 256 := b.toNat_lt
  have hlt : b.toNat + 256 * m < UInt32.size := by
    show b.toNat + 256 * m < 2 ^ 32
    omega
  apply UInt32.toNat_inj.1
  rw [UInt32.toNat_xor, UInt8.toNat_toUInt32, UInt32.toNat_ofNat_of_lt' h,
    UInt32.toNat_ofNat_of_lt' hlt]
  apply Nat.eq_of_testBit_eq
  intro i
  have hsum : (256 * m + b.toNat).testBit i = if i < 8 then b.toNat.testBit i
      else m.testBit (i - 8) := Nat.testBit_two_pow_mul_add (i := 8) m hb i
  have habove : (256 * m).testBit i = (decide (8 ≤ i) && m.testBit (i - 8)) :=
    Nat.testBit_two_pow_mul (i := 8)
  rw [Nat.add_comm b.toNat, hsum, Nat.testBit_xor, habove]
  by_cases hi : i < 8
  · have hlow : decide (8 ≤ i) = false := decide_eq_false (Nat.not_le.2 hi)
    rw [if_pos hi, hlow, Bool.false_and, Bool.xor_false]
  · have hle : 2 ^ 8 ≤ 2 ^ i := Nat.pow_le_pow_right (by decide) (Nat.not_lt.1 hi)
    have hhigh : b.toNat.testBit i = false := Nat.testBit_lt_two_pow (Nat.lt_of_lt_of_le hb hle)
    rw [if_neg hi, hhigh, decide_eq_true (Nat.not_lt.1 hi), Bool.true_and, Bool.false_xor]

/-- **Up to four bytes** enter the register as the word that they are. -/
theorem run_eq_shifts (c : UInt32) {bytes : List UInt8} (h : bytes.length ≤ 4) :
    run c bytes = shifts (8 * bytes.length) (c ^^^ UInt32.ofNat (ofLittle bytes)) := by
  induction bytes generalizing c with
  | nil => exact UInt32.xor_zero.symm
  | cons b bytes ih =>
    rw [List.length_cons] at h
    have hshort : ofLittle bytes < 256 ^ 3 :=
      Nat.lt_of_lt_of_le (ofLittle_lt bytes) (Nat.pow_le_pow_right (by decide) (by omega))
    have hlt : 256 * ofLittle bytes < 2 ^ 32 := by omega
    -- What comes later waits above the byte until the byte has left.
    have hlater : shifts 8 (UInt32.ofNat (256 * ofLittle bytes)) =
        UInt32.ofNat (ofLittle bytes) := by
      rw [Nat.mul_comm] at hlt ⊢
      exact shifts_ofNat_mul hlt
    calc run c (b :: bytes)
        = shifts (8 * bytes.length) (shifts 8 (c ^^^ b.toUInt32) ^^^
            UInt32.ofNat (ofLittle bytes)) := by rw [run_cons, ih _ (by omega), update]
      _ = shifts (8 * bytes.length) (shifts 8 (c ^^^ (b.toUInt32 ^^^
            UInt32.ofNat (256 * ofLittle bytes)))) := by
          rw [← hlater, ← shifts_xor, UInt32.xor_assoc]
      _ = shifts (8 * (b :: bytes).length) (c ^^^ UInt32.ofNat (ofLittle (b :: bytes))) := by
          rw [← shifts_add, toUInt32_xor_ofNat b hlt, ofLittle, List.length_cons, Nat.mul_succ,
            Nat.add_comm 8]

/-- Words of up to four bytes that leave the same register are equal. -/
theorem eq_of_run_eq {c : UInt32} {xs ys : List UInt8} (hlength : xs.length = ys.length)
    (hshort : ys.length ≤ 4) (h : run c xs = run c ys) : xs = ys := by
  rw [run_eq_shifts c (hlength ▸ hshort), run_eq_shifts c hshort, hlength] at h
  have hword := congrArg UInt32.toNat ((UInt32.xor_right_inj c).1 (shifts_inj h))
  have hlt : ∀ zs : List UInt8, zs.length ≤ 4 → ofLittle zs < UInt32.size := fun zs hzs =>
    Nat.lt_of_lt_of_le (ofLittle_lt zs) (Nat.pow_le_pow_right (by decide) hzs)
  rw [UInt32.toNat_ofNat_of_lt' (hlt xs (hlength ▸ hshort)),
    UInt32.toNat_ofNat_of_lt' (hlt ys hshort)] at hword
  rw [← little_ofLittle xs, ← little_ofLittle ys, hlength, hword]

/-- **Bursts change the register.** Texts that agree outside a window of four bytes, and leave the
register in the same state, are equal. -/
theorem eq_of_alikeOutside {c : UInt32} {start : Nat} {xs ys : List UInt8}
    (hlike : AlikeOutside start 4 xs ys) (h : run c xs = run c ys) : xs = ys := by
  obtain ⟨front, w, w', back, rfl, rfl, hlength, hshort⟩ := hlike.exists_window
  rw [run_append, run_append, run_append, run_append] at h
  rw [eq_of_run_eq hlength hshort (run_inj h)]

/-- **Every text before its check** leaves the register in the same state. -/
theorem run_append_crc32 (bytes : List UInt8) :
    run 0xffffffff (bytes ++ word (crc32 bytes).toNat) = shifts 32 0xffffffff := by
  have hfull : run 0xffffffff bytes ^^^ crc32 bytes = 0xffffffff := by
    rw [crc32, UInt32.xor_not, UInt32.xor_self]
    rfl
  rw [run_append, run_eq_shifts _ (length_word _).le, length_word,
    ofLittle_word (crc32 bytes).toNat_lt, UInt32.ofNat_toNat, hfull]

end Crc32

/-- Texts that differ in a word of up to four bytes have different checks. -/
theorem crc32_append_ne {front back w w' : List UInt8} (hlength : w.length = w'.length)
    (hshort : w'.length ≤ 4) (hne : w ≠ w') :
    crc32 (front ++ w ++ back) ≠ crc32 (front ++ w' ++ back) := by
  intro h
  have hrun := UInt32.not_inj.1 h
  rw [Crc32.run_append, Crc32.run_append, Crc32.run_append, Crc32.run_append] at hrun
  exact hne (Crc32.eq_of_run_eq hlength hshort (Crc32.run_inj hrun))

end Warrant
