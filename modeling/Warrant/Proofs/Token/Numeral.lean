import Mathlib.Data.List.Basic
import Warrant.Proofs.Number.Rounding
import Warrant.Token.Lexer

/-!
# Numbers as tokens

The text of an integer is read as that integer, and the text of a finite number as that number bit
for bit, whatever the layout: the digits between the parts of the text add up to the same decimal
wherever the point stands.

## Main definitions

- `Lexeme.Stops` — a text that no number goes on with
- `Lexeme.FloatText` — the parts that the text of a floating-point number consists of

## Main statements

- `Lexeme.number_integer`, `Lexeme.number_float` — what the texts of numbers are read as
- `FloatLayout.floatText_magnitude` — the digits of a number in any layout
-/

namespace Warrant

/-! ## Digits -/

namespace Text

/-- One digit at least, and nothing else. -/
structure IsDigits (cs : List Char) : Prop where
  ne_nil : cs ≠ []
  isDigit : ∀ c ∈ cs, isDigit c = true

theorem isDigit_eq_isDigit (c : Char) : isDigit c = c.isDigit := rfl

theorem isDigits_decimal (n : Nat) : IsDigits (decimal n) where
  ne_nil := Nat.toDigits_ne_nil
  isDigit _ hc := Nat.isDigit_of_mem_toDigits (by decide) (by decide) hc

theorem isDigit_replicate_zero (n : Nat) : ∀ c ∈ List.replicate n '0', isDigit c = true := by
  intro c hc
  rw [List.eq_of_mem_replicate hc]
  decide

theorem IsDigits.append {cs ds : List Char} (hc : IsDigits cs)
    (hd : ∀ c ∈ ds, Text.isDigit c = true) : IsDigits (cs ++ ds) where
  ne_nil := List.append_ne_nil_of_left_ne_nil hc.ne_nil ds
  isDigit c h := (List.mem_append.1 h).elim (hc.isDigit c) (hd c)

theorem IsDigits.take {cs : List Char} {n : Nat} (h : IsDigits cs) (hn : 0 < n) :
    IsDigits (cs.take n) where
  ne_nil hnil := by
    rcases List.take_eq_nil_iff.1 hnil with rfl | hcs
    · exact Nat.lt_irrefl 0 hn
    · exact h.ne_nil hcs
  isDigit c hc := h.isDigit c (List.mem_of_mem_take hc)

theorem IsDigits.drop {cs : List Char} {n : Nat} (h : IsDigits cs) (hn : n < cs.length) :
    IsDigits (cs.drop n) where
  ne_nil hnil := Nat.not_le.2 hn (List.drop_eq_nil_iff.1 hnil)
  isDigit c hc := h.isDigit c (List.mem_of_mem_drop hc)

theorem readDecimal_append_zeros (cs : List Char) (n : Nat) :
    readDecimal (cs ++ List.replicate n '0') = readDecimal cs * 10 ^ n := by
  unfold readDecimal
  rw [Nat.ofDigitChars_append, Nat.ofDigitChars_replicate_zero, Nat.mul_comm]

theorem readDecimal_zeros_append (n : Nat) (cs : List Char) :
    readDecimal (List.replicate n '0' ++ cs) = readDecimal cs := by
  unfold readDecimal
  rw [Nat.ofDigitChars_append, Nat.ofDigitChars_replicate_zero, Nat.mul_zero]

theorem isDigits_zero : IsDigits ['0'] where
  ne_nil := List.cons_ne_nil '0' []
  isDigit := isDigit_replicate_zero 1

theorem toList_toString_nat (n : Nat) : (toString n).toList = decimal n := by
  rw [Nat.toString_eq_ofList_toDigits, String.toList_ofList]
  rfl

theorem toList_toString_int (i : Int) :
    (toString i).toList = (if i < 0 then ['-'] else []) ++ decimal i.natAbs := by
  cases i with
  | ofNat n =>
    rw [if_neg (by simp)]
    exact toList_toString_nat n
  | negSucc n =>
    rw [if_pos (Int.negSucc_lt_zero n)]
    calc (toString (Int.negSucc n)).toList
        = ("-" ++ toString (n + 1)).toList := rfl
      _ = ['-'] ++ decimal (n + 1) := by rw [String.toList_append, toList_toString_nat]; rfl

theorem takeWhile_digits {ds rest : List Char} (hds : ∀ c ∈ ds, isDigit c = true)
    (hrest : ∀ c ∈ rest.head?, isDigit c = false) : (ds ++ rest).takeWhile isDigit = ds := by
  rw [List.takeWhile_append_of_pos hds]
  cases rest with
  | nil => simp
  | cons c rest => simp [hrest c rfl]

end Text

/-! ## The parts of a number -/

namespace Lexeme

open Text (IsDigits)

/-- Nothing, or a point and digits. -/
inductive IsFraction : List Char → Prop
  | none : IsFraction []
  | places {ds : List Char} (hds : IsDigits ds) : IsFraction ('.' :: ds)

/-- Nothing, or a letter, perhaps a sign, and digits. -/
inductive IsExponent : List Char → Prop
  | none : IsExponent []
  | plain {letter : Char} {ds : List Char} (hletter : letter = 'e' ∨ letter = 'E')
    (hds : IsDigits ds) : IsExponent (letter :: ds)
  | signed {letter sign : Char} {ds : List Char} (hletter : letter = 'e' ∨ letter = 'E')
    (hsign : sign = '+' ∨ sign = '-') (hds : IsDigits ds) : IsExponent (letter :: sign :: ds)

/-- **A text that no number goes on with.** -/
def Stops (rest : List Char) : Prop :=
  ∀ c ∈ rest.head?, continuesName c = false ∧ c ≠ '.'

theorem continuesName_of_isDigit {c : Char} (h : Text.isDigit c = true) :
    continuesName c = true := by
  rw [Text.isDigit_eq_isDigit] at h
  simp [continuesName, Char.isAlphanum, h]

theorem Stops.isDigit {rest : List Char} (h : Stops rest) :
    ∀ c ∈ rest.head?, Text.isDigit c = false := by
  intro c hc
  by_contra hdigit
  have hcontinues := continuesName_of_isDigit (Bool.eq_true_of_not_eq_false hdigit)
  rw [(h c hc).1] at hcontinues
  exact Bool.false_ne_true hcontinues

theorem fraction_append {cs rest : List Char} (hcs : IsFraction cs)
    (hdigit : ∀ c ∈ rest.head?, Text.isDigit c = false) (hpoint : ∀ c ∈ rest.head?, c ≠ '.') :
    fraction (cs ++ rest) = cs := by
  cases hcs with
  | none =>
    cases rest with
    | nil => rfl
    | cons c rest =>
      have hc : c ≠ '.' := hpoint c rfl
      rw [List.nil_append, fraction.eq_2]
      intro rest' h
      exact hc (List.cons.inj h).1
  | @places ds hds =>
    have htake := Text.takeWhile_digits hds.isDigit hdigit
    simp only [List.cons_append, fraction, htake, List.isEmpty_iff, hds.ne_nil, if_false]

/-- Digits do not start with a sign. -/
theorem isDigits_exists_cons {ds : List Char} (hds : IsDigits ds) :
    ∃ c ds', ds = c :: ds' ∧ c ≠ '+' ∧ c ≠ '-' := by
  obtain ⟨c, ds', rfl⟩ := List.exists_cons_of_ne_nil hds.ne_nil
  have hc : Text.isDigit c = true := hds.isDigit c List.mem_cons_self
  refine ⟨c, ds', rfl, ?_, ?_⟩
  · rintro rfl
    exact absurd hc (by decide)
  · rintro rfl
    exact absurd hc (by decide)

theorem exponentSign_digits {ds : List Char} (hds : IsDigits ds) (rest : List Char) :
    exponentSign (ds ++ rest) = [] := by
  obtain ⟨c, ds, rfl, hplus, hminus⟩ := isDigits_exists_cons hds
  rw [List.cons_append]
  unfold exponentSign
  split
  · next h => exact absurd (List.cons.inj h).1 hplus
  · next h => exact absurd (List.cons.inj h).1 hminus
  · rfl

theorem exponent_append {cs rest : List Char} (hcs : IsExponent cs) (hrest : Stops rest) :
    exponent (cs ++ rest) = cs := by
  cases hcs with
  | none =>
    cases rest with
    | nil => rfl
    | cons c rest =>
      have hc := (hrest c rfl).1
      have he : (c = 'e' || c = 'E') = false := by
        by_contra h
        simp only [Bool.not_eq_false, Bool.or_eq_true, decide_eq_true_eq] at h
        rcases h with rfl | rfl <;> exact absurd hc (by decide)
      simp only [List.nil_append, exponent, he, Bool.false_eq_true, if_false]
  | @plain letter ds hletter hds =>
    have htake := Text.takeWhile_digits hds.isDigit hrest.isDigit
    have he : (letter = 'e' || letter = 'E') = true := by simpa using hletter
    simp only [List.cons_append, exponent, he, if_true, exponentSign_digits hds, List.length_nil,
      List.drop_zero, htake, List.isEmpty_iff, hds.ne_nil, if_false, List.nil_append]
  | @signed letter sign ds hletter hsign hds =>
    have htake := Text.takeWhile_digits hds.isDigit hrest.isDigit
    have he : (letter = 'e' || letter = 'E') = true := by simpa using hletter
    have hsigns : exponentSign (sign :: (ds ++ rest)) = [sign] := by
      rcases hsign with rfl | rfl <;> rfl
    simp only [List.cons_append, exponent, he, if_true, hsigns, List.length_singleton,
      List.drop_succ_cons, List.drop_zero, htake, List.isEmpty_iff, hds.ne_nil, if_false,
      List.nil_append]

theorem exponentValue_plain {ds : List Char} (hds : IsDigits ds) :
    exponentValue ('e' :: ds) = Text.readDecimal ds := by
  obtain ⟨c, ds, rfl, hplus, hminus⟩ := isDigits_exists_cons hds
  unfold exponentValue
  rw [List.drop_succ_cons, List.drop_zero]
  split
  · next h => exact absurd (List.cons.inj h).1 hminus
  · next h => exact absurd (List.cons.inj h).1 hplus
  · rfl

def signText (negative : Bool) : List Char :=
  if negative then ['-'] else []

theorem not_isEmpty_signText (negative : Bool) : (!(signText negative).isEmpty) = negative := by
  cases negative <;> rfl

/-- In front of digits a sign is seen, and none where there is none. -/
theorem signText_of_isDigits {ds : List Char} (hds : IsDigits ds) (negative : Bool)
    (rest : List Char) :
    (if (signText negative ++ (ds ++ rest)).head? = some '-' then ['-'] else []) =
      signText negative := by
  obtain ⟨c, ds, rfl, -, hminus⟩ := isDigits_exists_cons hds
  cases negative with
  | true => rfl
  | false => exact if_neg fun h => hminus (Option.some.inj h)

/-- What the digits, the fraction and the exponent of a number mean. -/
def numberKind? (negative : Bool) (digits fraction exponent : List Char) : Option Token.Kind :=
  if fraction.isEmpty && exponent.isEmpty then (integerValue? negative digits).map .integer
  else (floatValue? negative digits fraction exponent).map .float

/-- **A number is read part by part.** -/
theorem number_append {negative : Bool} {ds fs es rest : List Char} {kind : Token.Kind}
    (hds : IsDigits ds) (hfs : IsFraction fs) (hes : IsExponent es) (hrest : Stops rest)
    (hkind : numberKind? negative ds fs es = some kind) :
    number (signText negative ++ ds ++ fs ++ es ++ rest) =
      .token kind (signText negative ++ ds ++ fs ++ es).length := by
  -- No part goes on with the first character of what follows it.
  have hexp : ∀ c ∈ (es ++ rest).head?, Text.isDigit c = false ∧ c ≠ '.' := by
    cases hes with
    | none => exact fun c hc => ⟨hrest.isDigit c hc, (hrest c hc).2⟩
    | plain hletter | signed hletter =>
      rintro c ⟨⟩
      rcases hletter with rfl | rfl <;> decide
  have hfrac : ∀ c ∈ (fs ++ (es ++ rest)).head?, Text.isDigit c = false := by
    cases hfs with
    | none => exact fun c hc => (hexp c hc).1
    | places _ => exact fun c hc => by cases hc; decide
  have hsign : (if (signText negative ++ ds ++ fs ++ es ++ rest).head? = some '-' then ['-']
      else []) = signText negative := by
    simp only [List.append_assoc]
    exact signText_of_isDigits hds negative _
  unfold number
  simp only [hsign, not_isEmpty_signText]
  simp only [List.append_assoc, List.drop_left, Text.takeWhile_digits hds.isDigit hfrac,
    fraction_append hfs (fun c hc => (hexp c hc).1) (fun c hc => (hexp c hc).2),
    exponent_append hes hrest]
  unfold numberKind? at hkind
  rw [hkind]

theorem toList_integer (i : Int) :
    (toString i).toList = signText (i < 0) ++ Text.decimal i.natAbs := by
  rw [Text.toList_toString_int]
  simp [signText]

/-- **The text of an integer is read as the integer.** -/
theorem number_integer (i : Int64) {rest : List Char} (hrest : Stops rest) :
    number ((toString i.toInt).toList ++ rest) =
      .token (.integer i) (toString i.toInt).toList.length := by
  have htext : (toString i.toInt).toList =
      signText (i.toInt < 0) ++ Text.decimal i.toInt.natAbs ++ [] ++ [] := by
    rw [toList_integer, List.append_nil, List.append_nil]
  have hvalue : (if decide (i.toInt < 0) then -(i.toInt.natAbs : Int) else i.toInt.natAbs) =
      i.toInt := by
    by_cases h : i.toInt < 0
    · rw [if_pos (decide_eq_true h)]
      omega
    · rw [if_neg (by simpa using h)]
      omega
  have hkind : numberKind? (i.toInt < 0) (Text.decimal i.toInt.natAbs) [] [] =
      some (.integer i) := by
    simp only [numberKind?, List.isEmpty_nil, Bool.and_self, if_true, integerValue?,
      Text.readDecimal_decimal, hvalue, word64?_toInt, Option.map_some]
  rw [htext]
  exact number_append (Text.isDigits_decimal _) .none .none hrest hkind

/-! ## Floating-point numbers -/

/-- **The text of a floating-point number without its sign**: digits, and a fraction or an exponent
    after them, that make up a decimal of the number. -/
inductive FloatText (x : Binary64) : List Char → Prop
  | mk {ds fs es : List Char} (hds : IsDigits ds) (hfs : IsFraction fs) (hes : IsExponent es)
    (hparts : (fs.isEmpty && es.isEmpty) = false)
    (hvalue : Binary64.ofDecimal x.isNegative (Text.readDecimal (ds ++ fs.drop 1))
      (exponentValue es - (fs.drop 1).length) = x) : FloatText x (ds ++ fs ++ es)

theorem number_floatText {x : Binary64} {cs rest : List Char} (hx : x.isFinite = true)
    (hcs : FloatText x cs) (hrest : Stops rest) :
    number (signText x.isNegative ++ cs ++ rest) =
      .token (.float x) (signText x.isNegative ++ cs).length := by
  obtain @⟨ds, fs, es, hds, hfs, hes, hparts, hvalue⟩ := hcs
  have hkind : numberKind? x.isNegative ds fs es = some (.float x) := by
    simp only [numberKind?, hparts, Bool.false_eq_true, if_false, floatValue?, hvalue, hx, if_true,
      Option.map_some]
  simp only [← List.append_assoc]
  exact number_append hds hfs hes hrest hkind

end Lexeme

/-! ## Layouts -/

namespace FloatLayout

open Text (IsDigits)
open Lexeme (FloatText IsFraction IsExponent)

/-- What is dropped from the digits of a number are zeros. -/
theorem exists_decimal_eq (n : Nat) :
    ∃ z, Text.decimal n = significant n ++ List.replicate z '0' := by
  have hsplit := List.takeWhile_append_dropWhile (p := (· == '0')) (l := (Text.decimal n).reverse)
  have hzeros : ∀ c ∈ (Text.decimal n).reverse.takeWhile (· == '0'), c = '0' :=
    fun c hc => by simpa using List.all_eq_true.1 List.all_takeWhile c hc
  refine ⟨((Text.decimal n).reverse.takeWhile (· == '0')).length, ?_⟩
  unfold significant
  rw [← List.reverse_inj, List.reverse_append, List.reverse_reverse, List.reverse_replicate,
    ← List.eq_replicate_of_mem hzeros, hsplit]

/-- **The significant digits of a number**, with the exponent that they have. -/
theorem significant_spec {x : Binary64} (rule : HalfwayRule) (hpos : 0 < x.magnitude)
    (hx : x.isFinite = true) :
    IsDigits (significant (x.shortest rule).digits) ∧
    Binary64.ofDecimal x.isNegative (Text.readDecimal (significant (x.shortest rule).digits))
      ((Text.decimal (x.shortest rule).digits).length - 1 + (x.shortest rule).exponent + 1 -
        (significant (x.shortest rule).digits).length) = x := by
  have hread := Binary64.ofDecimal_shortest rule hpos hx
  generalize x.shortest rule = d at hread
  obtain ⟨z, hz⟩ := exists_decimal_eq d.digits
  -- The digits are those of the number with its zeros at the end taken off and counted.
  have hdigits : d.digits = Text.readDecimal (significant d.digits) * 10 ^ z := by
    rw [← Text.readDecimal_append_zeros, ← hz, Text.readDecimal_decimal]
  have hlength : (Text.decimal d.digits).length = (significant d.digits).length + z := by
    rw [hz, List.length_append, List.length_replicate]
  constructor
  · constructor
    · -- Only zero has no significant digit.
      intro hnil
      rw [hnil] at hdigits
      rw [hdigits, Text.readDecimal, Nat.ofDigitChars_nil, Nat.zero_mul, Binary64.ofDecimal_zero]
        at hread
      have hmagnitude := Binary64.magnitude_ofMagnitude x.isNegative (m := 0) (by decide)
      rw [hread] at hmagnitude
      omega
    · intro c hc
      refine (Text.isDigits_decimal d.digits).isDigit c ?_
      rw [hz]
      exact List.mem_append_left _ hc
  · have hexp : ((Text.decimal d.digits).length : Int) - 1 + d.exponent + 1 -
        (significant d.digits).length = d.exponent + z := by omega
    rw [hexp, ← Binary64.ofDecimal_mul_pow, ← hdigits, hread]

variable {x : Binary64} {ds : List Char} {leading : Int}

/-- A number below one with all its places. -/
theorem floatText_positional_of_neg (hds : IsDigits ds) (hneg : leading < 0)
    (hvalue : Binary64.ofDecimal x.isNegative (Text.readDecimal ds) (leading + 1 - ds.length) = x) :
    FloatText x (positional ds leading) := by
  let zeros := List.replicate (-leading - 1).toNat '0'
  have hplaces : IsDigits (zeros ++ ds) :=
    ⟨List.append_ne_nil_of_right_ne_nil _ hds.ne_nil, fun c hc =>
      (List.mem_append.1 hc).elim (Text.isDigit_replicate_zero _ c) (hds.isDigit c)⟩
  have htext : positional ds leading = ['0'] ++ '.' :: (zeros ++ ds) ++ [] := by
    rw [positional, if_pos hneg, List.append_nil]
    rfl
  have hread : Text.readDecimal (['0'] ++ (zeros ++ ds)) = Text.readDecimal ds :=
    (Text.readDecimal_zeros_append 1 _).trans (Text.readDecimal_zeros_append _ ds)
  have hexp : (0 : Int) - ((zeros ++ ds).length : Int) = leading + 1 - ds.length := by
    rw [List.length_append, List.length_replicate]
    omega
  rw [htext]
  refine .mk Text.isDigits_zero (.places hplaces) .none rfl ?_
  change Binary64.ofDecimal _ (Text.readDecimal (['0'] ++ (zeros ++ ds)))
    (0 - ((zeros ++ ds).length : Int)) = x
  rw [hread, hexp, hvalue]

/-- A whole number with all its places. -/
theorem floatText_positional_of_le (hds : IsDigits ds) (hneg : ¬ leading < 0)
    (hle : ds.length ≤ leading.toNat + 1)
    (hvalue : Binary64.ofDecimal x.isNegative (Text.readDecimal ds) (leading + 1 - ds.length) = x) :
    FloatText x (positional ds leading) := by
  let zeros := List.replicate (leading.toNat + 1 - ds.length) '0'
  have htext : positional ds leading = (ds ++ zeros) ++ ['.', '0'] ++ [] := by
    simp only [positional, if_neg hneg, List.take_of_length_le hle, List.drop_of_length_le hle,
      List.isEmpty_nil, if_true, List.append_nil]
    rfl
  have hread : Text.readDecimal (ds ++ zeros ++ ['0']) =
      Text.readDecimal ds * 10 ^ (leading.toNat + 1 - ds.length + 1) := by
    rw [← Text.readDecimal_append_zeros, List.replicate_succ', ← List.append_assoc]
  have hexp : (0 - 1 : Int) + (leading.toNat + 1 - ds.length + 1 : Nat) =
      leading + 1 - ds.length := by omega
  rw [htext]
  refine .mk (hds.append (Text.isDigit_replicate_zero _)) (.places Text.isDigits_zero) .none rfl ?_
  change Binary64.ofDecimal _ (Text.readDecimal (ds ++ zeros ++ ['0'])) (0 - 1) = x
  rw [hread, Binary64.ofDecimal_mul_pow, hexp, hvalue]

/-- A number with all its places, the point standing between its digits. -/
theorem floatText_positional_of_lt (hds : IsDigits ds) (hneg : ¬ leading < 0)
    (hlt : leading.toNat + 1 < ds.length)
    (hvalue : Binary64.ofDecimal x.isNegative (Text.readDecimal ds) (leading + 1 - ds.length) = x) :
    FloatText x (positional ds leading) := by
  have hwhole : IsDigits (ds.take (leading.toNat + 1)) := hds.take (Nat.succ_pos _)
  have hplaces : IsDigits (ds.drop (leading.toNat + 1)) := hds.drop hlt
  have htext : positional ds leading =
      ds.take (leading.toNat + 1) ++ '.' :: ds.drop (leading.toNat + 1) ++ [] := by
    have hzeros : leading.toNat + 1 - ds.length = 0 := by omega
    simp only [positional, if_neg hneg, hzeros, List.replicate_zero, List.append_nil,
      List.isEmpty_iff, hplaces.ne_nil, if_false]
  have hexp : (0 : Int) - ((ds.drop (leading.toNat + 1)).length : Int) =
      leading + 1 - ds.length := by
    rw [List.length_drop]
    omega
  rw [htext]
  refine .mk hwhole (.places hplaces) .none rfl ?_
  change Binary64.ofDecimal _
    (Text.readDecimal (ds.take (leading.toNat + 1) ++ ds.drop (leading.toNat + 1)))
    (0 - ((ds.drop (leading.toNat + 1)).length : Int)) = x
  rw [List.take_append_drop, hexp, hvalue]

theorem floatText_positional (hds : IsDigits ds)
    (hvalue : Binary64.ofDecimal x.isNegative (Text.readDecimal ds) (leading + 1 - ds.length) = x) :
    FloatText x (positional ds leading) := by
  by_cases hneg : leading < 0
  · exact floatText_positional_of_neg hds hneg hvalue
  · by_cases hle : ds.length ≤ leading.toNat + 1
    · exact floatText_positional_of_le hds hneg hle hvalue
    · exact floatText_positional_of_lt hds hneg (by omega) hvalue

/-- An exponent is read as it was written, with a sign or without. -/
theorem exponent_spec (plus : Bool) (leading : Int) :
    let es := 'e' :: ((if plus && 0 ≤ leading then ['+'] else []) ++ (toString leading).toList)
    IsExponent es ∧ Lexeme.exponentValue es = leading := by
  have hds := Text.isDigits_decimal leading.natAbs
  have hread := Text.readDecimal_decimal leading.natAbs
  rw [Text.toList_toString_int]
  by_cases hneg : leading < 0
  · have hplus : (plus && decide (0 ≤ leading)) = false := by simp; omega
    simp only [hplus, Bool.false_eq_true, if_false, if_pos hneg, List.nil_append,
      List.singleton_append]
    refine ⟨.signed (.inl rfl) (.inr rfl) hds, ?_⟩
    change -((Text.readDecimal (Text.decimal leading.natAbs) : Nat) : Int) = leading
    rw [hread]
    omega
  · have hnat : (leading.natAbs : Int) = leading := by omega
    rw [if_neg hneg, List.nil_append]
    by_cases hplus : (plus && decide (0 ≤ leading)) = true
    · rw [if_pos hplus]
      refine ⟨.signed (.inl rfl) (.inl rfl) hds, ?_⟩
      change ((Text.readDecimal (Text.decimal leading.natAbs) : Nat) : Int) = leading
      rw [hread, hnat]
    · rw [if_neg hplus]
      refine ⟨.plain (.inl rfl) hds, ?_⟩
      rw [List.nil_append, Lexeme.exponentValue_plain hds, hread, hnat]

/-- One digit before the point, and an exponent. -/
theorem floatText_scientific (plus : Bool) (hds : IsDigits ds)
    (hvalue : Binary64.ofDecimal x.isNegative (Text.readDecimal ds) (leading + 1 - ds.length) = x) :
    FloatText x (scientific plus ds leading) := by
  obtain ⟨hes, hleading⟩ := exponent_spec plus leading
  have hlength : 0 < ds.length := List.length_pos_of_ne_nil hds.ne_nil
  have hfirst : IsDigits (ds.take 1) := hds.take Nat.one_pos
  have hexp : leading - ((ds.drop 1).length : Int) = leading + 1 - ds.length := by
    rw [List.length_drop]
    omega
  unfold scientific
  by_cases hone : ds.length ≤ 1
  · rw [if_pos hone]
    refine .mk hfirst .none hes rfl ?_
    have hdrop : ds.drop 1 = [] := List.drop_of_length_le hone
    rw [hleading, List.drop_nil, List.append_nil, List.take_of_length_le hone]
    rw [hdrop] at hexp
    rw [hexp, hvalue]
  · rw [if_neg hone]
    have hplaces : IsDigits (ds.drop 1) := hds.drop (Nat.not_le.1 hone)
    refine .mk hfirst (.places hplaces) hes rfl ?_
    rw [hleading, List.drop_succ_cons, List.drop_zero, List.take_append_drop, hexp, hvalue]

/-- **The digits of a number in any layout.** -/
theorem floatText_magnitude (l : FloatLayout) (hx : x.isFinite = true) :
    FloatText x (l.magnitude x) := by
  unfold magnitude
  by_cases hzero : x.magnitude = 0
  · rw [if_pos hzero]
    have hx0 := Binary64.ofMagnitude_magnitude x
    rw [hzero, ← Binary64.ofDecimal_zero x.isNegative (-1)] at hx0
    exact @FloatText.mk x ['0'] ['.', '0'] [] Text.isDigits_zero (.places Text.isDigits_zero) .none
      rfl hx0
  · obtain ⟨hds, hvalue⟩ := significant_spec l.halfway (Nat.pos_of_ne_zero hzero) hx
    rw [if_neg hzero]
    simp only
    split
    · exact floatText_positional hds hvalue
    · exact floatText_scientific l.plus hds hvalue

theorem toList_write (l : FloatLayout) (hx : x.isFinite = true) :
    (l.write x).toList = Lexeme.signText x.isNegative ++ l.magnitude x := by
  have hnan : x.isNaN = false := by
    have hlt : x.magnitude < Binary64.infinityMagnitude := of_decide_eq_true hx
    exact decide_eq_false (Nat.not_lt.2 hlt.le)
  unfold write Lexeme.signText
  simp only [hnan, hx, Bool.false_eq_true, if_false, if_true, String.toList_ofList]
  split <;> rfl

end FloatLayout

/-- **The text of a finite number is read as the number**, bit for bit. -/
theorem Lexeme.number_float (l : FloatLayout) {x : Binary64} {rest : List Char}
    (hx : x.isFinite = true) (hrest : Stops rest) :
    number ((l.write x).toList ++ rest) = .token (.float x) (l.write x).toList.length := by
  rw [l.toList_write hx]
  exact number_floatText hx (l.floatText_magnitude hx) hrest

end Warrant
