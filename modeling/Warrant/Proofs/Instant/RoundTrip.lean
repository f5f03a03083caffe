import Warrant.Instant.Text
import Warrant.Proofs.Bytes.Reading
import Warrant.Proofs.Token.Spelling

/-!
# Instants are read as they are written

Every part of the text of an instant ends where the reader of the part stops: a field has two
digits, a year and a fraction end before a character that is no digit, and no blank stands anywhere.

## Main statements

- `Instant.ofFields?_self` — an instant has the fields that clocks show
- `Instant.readRelaxed?_write` — the text of an instant is read as the instant
-/

namespace Warrant

namespace Text

theorem length_decimal_le {width n : Nat} (hpos : 0 < width) (h : n < 10 ^ width) :
    (decimal n).length ≤ width :=
  (Nat.length_toDigits_le_iff (by decide) hpos).2 h

theorem length_padded_decimal {width n : Nat} (hpos : 0 < width) (h : n < 10 ^ width) :
    (padded width (decimal n)).length = width := by
  rw [length_padded]
  exact Nat.max_eq_left (length_decimal_le hpos h)

@[simp]
theorem readDecimal_padded (width n : Nat) : readDecimal (padded width (decimal n)) = n := by
  rw [padded, readDecimal_zeros_append, readDecimal_decimal]

theorem isDigits_padded (width n : Nat) : IsDigits (padded width (decimal n)) where
  ne_nil := List.append_ne_nil_of_right_ne_nil _ (isDigits_decimal n).ne_nil
  isDigit c hc := (List.mem_append.1 hc).elim (isDigit_replicate_zero _ c)
    ((isDigits_decimal n).isDigit c)

theorem isBlank_of_isDigit {c : Char} (h : isDigit c = true) : isBlank c = false :=
  Trivia.isBlank_of_continuesName (Lexeme.continuesName_of_isDigit h)

theorem IsDigits.isBlank {ds : List Char} (h : IsDigits ds) (rest : List Char) :
    ∀ c ∈ (ds ++ rest).head?, isBlank c = false := by
  obtain ⟨c, ds, rfl⟩ := List.exists_cons_of_ne_nil h.ne_nil
  rintro d ⟨⟩
  exact isBlank_of_isDigit (h.isDigit c List.mem_cons_self)

end Text

theorem Date.fields_lt (d : Date) : d.month < 100 ∧ d.day < 100 := by
  obtain ⟨hlow, hhigh⟩ := d.day_exists
  unfold daysInMonth at hhigh
  split at hhigh
  · split at hhigh <;> omega
  · split at hhigh
    · next h =>
      simp only [Bool.or_eq_true, decide_eq_true_eq] at h
      omega
    · split at hhigh
      · next h =>
        simp only [Bool.and_eq_true, decide_eq_true_eq] at h
        omega
      · omega

namespace Instant

open Text (IsDigits)

/-! ## Fields -/

theorem secondOfMinute_eq_sixty_iff (t : Instant) :
    t.secondOfMinute = 60 ↔ 1000000000 ≤ t.nano := by
  have hlt : t.second % 60 < 60 := Nat.mod_lt _ (by decide)
  have hends := t.leap_ends_minute
  unfold secondOfMinute inLeapSecond
  by_cases h : 1000000000 ≤ t.nano
  · simp [h, hends h]
  · simp [h]
    omega

theorem second_eq (t : Instant) : t.second / 3600 * 3600 + t.second / 60 % 60 * 60 +
    (if t.secondOfMinute = 60 then 59 else t.secondOfMinute) = t.second := by
  have hsixty := t.secondOfMinute_eq_sixty_iff
  by_cases h : 1000000000 ≤ t.nano
  · have hends := t.leap_ends_minute h
    rw [if_pos (hsixty.2 h)]
    omega
  · have hsecond : t.secondOfMinute = t.second % 60 := by simp [secondOfMinute, inLeapSecond, h]
    rw [if_neg (fun heq => h (hsixty.1 heq)), hsecond]
    omega

theorem nano_eq (t : Instant) :
    t.fraction + (if t.secondOfMinute = 60 then 1000000000 else 0) = t.nano := by
  have hlt := t.nano_lt
  have hsixty := t.secondOfMinute_eq_sixty_iff
  unfold fraction
  by_cases h : 1000000000 ≤ t.nano
  · rw [if_pos (hsixty.2 h)]
    omega
  · rw [if_neg (fun heq => h (hsixty.1 heq))]
    omega

theorem secondOfMinute_le (t : Instant) : t.secondOfMinute ≤ 60 := by
  have hlt : t.second % 60 < 60 := Nat.mod_lt _ (by decide)
  unfold secondOfMinute
  split <;> omega

/-- An instant has the fields that clocks show. -/
theorem ofFields?_self (t : Instant) :
    ofFields? t.date.year t.date.month t.date.day (t.second / 3600) (t.second / 60 % 60)
      t.secondOfMinute t.fraction 0 = some t := by
  have hhour : ¬ 23 < t.second / 3600 := by
    have hlt := t.second_lt
    omega
  have hminute : ¬ 59 < t.second / 60 % 60 := by omega
  have hsecond : ¬ 60 < t.secondOfMinute := Nat.not_lt.2 t.secondOfMinute_le
  unfold ofFields?
  simp [hhour, hminute, hsecond, second_eq, nano_eq]

/-! ## Parts of the text -/

namespace Scan

theorem consumes_blanks {rest : List Char} (h : ∀ c ∈ rest.head?, Text.isBlank c = false) :
    Consumes blanks [] () rest := by
  cases rest with
  | nil => rfl
  | cons c rest =>
    have hc := h c rfl
    simp [Consumes, blanks, hc]

theorem consumes_oneOf {allowed : List Char} {c : Char} (h : allowed.contains c = true)
    (rest : List Char) : Consumes (oneOf allowed) [c] () rest :=
  if_pos h

/-- Digits are used up to the last one, or as many as are wanted at most. -/
theorem consumes_number {least most : Nat} {ds rest : List Char} (hds : IsDigits ds)
    (hleast : least ≤ ds.length) (hmost : ds.length ≤ most)
    (hrest : ds.length = most ∨ ∀ c ∈ rest.head?, Text.isDigit c = false) :
    Consumes (number least most) ds (Text.readDecimal ds) rest := by
  have htake : ((ds ++ rest).take most).takeWhile Text.isDigit = ds := by
    rcases hrest with rfl | hrest
    · have hall := @Text.takeWhile_digits ds [] hds.isDigit nofun
      rw [List.append_nil] at hall
      rw [List.take_left, hall]
    · rw [List.take_append, List.take_of_length_le hmost]
      refine Text.takeWhile_digits hds.isDigit fun c hc => ?_
      cases rest with
      | nil => simp at hc
      | cons d rest =>
        cases hcount : most - ds.length with
        | zero => simp [hcount] at hc
        | succ n => exact hrest c (by simpa [hcount] using hc)
  unfold Consumes number
  rw [htake, if_neg (Nat.not_lt.2 hleast), List.drop_left]

theorem consumes_padded (width n : Nat) {most : Nat} {rest : List Char}
    (hmost : (Text.padded width (Text.decimal n)).length ≤ most)
    (hrest : (Text.padded width (Text.decimal n)).length = most ∨
      ∀ c ∈ rest.head?, Text.isDigit c = false) :
    Consumes (number 1 most) (Text.padded width (Text.decimal n)) n rest := by
  have hds := Text.isDigits_padded width n
  have hnumber := consumes_number hds (List.length_pos_iff.2 hds.ne_nil) hmost hrest
  rwa [Text.readDecimal_padded] at hnumber

theorem consumes_twoDigits {n : Nat} (h : n < 100) (rest : List Char) :
    Consumes (number 1 2) (twoDigits n) n rest := by
  have hlength := @Text.length_padded_decimal 2 n (by decide) h
  exact consumes_padded 2 n (Nat.le_of_eq hlength) (.inl hlength)

theorem consumes_signedYear (year : Int) {rest : List Char}
    (hrest : ∀ c ∈ rest.head?, Text.isDigit c = false) :
    Consumes signedYear (writeYear year) year rest := by
  unfold writeYear
  by_cases hshort : (0 ≤ year && year ≤ 9999) = true
  · have hyear : 0 ≤ year ∧ year ≤ 9999 := by simpa using hshort
    have hvalue : (year.natAbs : Int) = year := by omega
    have hlength := @Text.length_padded_decimal 4 year.natAbs (by decide) (by omega)
    have hnumber : Consumes (number 1 4) _ year.natAbs rest :=
      consumes_padded 4 year.natAbs (Nat.le_of_eq hlength) (.inl hlength)
    have hplain := hnumber.map (g := fun n : Nat => (n : Int))
    rw [hvalue] at hplain
    rw [if_pos hshort]
    -- A year without a sign starts with a digit, so no sign is read.
    obtain ⟨c, ds, hcons, hplus, hminus⟩ :=
      Lexeme.isDigits_exists_cons (Text.isDigits_padded 4 year.natAbs)
    rw [hcons] at hplain ⊢
    unfold Consumes signedYear
    split
    · next h => exact absurd (List.cons.inj h).1 hminus
    · next h => exact absurd (List.cons.inj h).1 hplus
    · exact hplain
  · have hlong : Consumes (number 1 (Text.padded 4 (Text.decimal year.natAbs) ++ rest).length)
        (Text.padded 4 (Text.decimal year.natAbs)) year.natAbs rest :=
      consumes_padded 4 year.natAbs (by simp) (.inr hrest)
    rw [if_neg hshort]
    -- With a sign any number of digits are read, so a character that is none must follow.
    by_cases hneg : year < 0
    · have hvalue : -(year.natAbs : Int) = year := by omega
      have hsigned := hlong.map (g := fun n : Nat => -(n : Int))
      rw [hvalue] at hsigned
      rw [if_pos hneg]
      exact hsigned
    · have hvalue : (year.natAbs : Int) = year := by omega
      have hsigned := hlong.map (g := fun n : Nat => (n : Int))
      rw [hvalue] at hsigned
      rw [if_neg hneg]
      exact hsigned

/-- Places that are written for a number of nanoseconds stand for it. -/
theorem consumes_places {n nanos : Nat} {rest : List Char} (width : Nat) (hpos : 0 < width)
    (hwidth : width ≤ 9) (h : n < 10 ^ width) (hnanos : n * 10 ^ (9 - width) = nanos)
    (hrest : ∀ c ∈ rest.head?, Text.isDigit c = false) :
    Consumes fraction ('.' :: Text.padded width (Text.decimal n)) nanos rest := by
  have hds := Text.isDigits_padded width n
  have hlength := Text.length_padded_decimal hpos h
  have htake := Text.takeWhile_digits hds.isDigit hrest
  have hkept : (Text.padded width (Text.decimal n)).take 9 = Text.padded width (Text.decimal n) :=
    List.take_of_length_le (by omega)
  have hdrop : (Text.padded width (Text.decimal n) ++ rest).drop width = rest :=
    List.drop_left' hlength
  unfold Consumes
  rw [List.cons_append, fraction]
  simp only [htake, List.isEmpty_iff, hds.ne_nil, if_false, hkept, Text.readDecimal_padded, hlength,
    hdrop, Nat.pow_eq, hnanos]

theorem consumes_fraction {nanos : Nat} (h : nanos < 1000000000) {rest : List Char}
    (hrest : ∀ c ∈ rest.head?, Text.isDigit c = false ∧ c ≠ '.') :
    Consumes fraction (writeFraction .asNeeded nanos) nanos rest := by
  have hdigit : ∀ c ∈ rest.head?, Text.isDigit c = false := fun c hc => (hrest c hc).1
  simp only [writeFraction]
  by_cases hzero : nanos = 0
  · rw [if_pos hzero, hzero]
    cases rest with
    | nil => rfl
    | cons c rest =>
      have hc := (hrest c rfl).2
      unfold Consumes fraction
      split
      · next heq => exact absurd (List.cons.inj heq).1 hc
      · rfl
  rw [if_neg hzero]
  by_cases hmillis : nanos % 1000000 = 0
  · rw [if_pos hmillis]
    exact consumes_places 3 (by decide) (by decide) (by omega) (by omega) hdigit
  rw [if_neg hmillis]
  by_cases hmicros : nanos % 1000 = 0
  · rw [if_pos hmicros]
    exact consumes_places 6 (by decide) (by decide) (by omega) (by omega) hdigit
  · rw [if_neg hmicros]
    exact consumes_places 9 (by decide) (by decide) (by omega) (by omega) hdigit

section

variable {α : Type} {ys rest : List Char} {a : α}

/-- A sign that is no blank, before which there may be blanks. -/
theorem consumes_mark_bind {c : Char} {f : Unit → Scan α} (hc : Text.isBlank c = false)
    (h : Consumes (f ()) ys a rest) :
    Consumes (blanks >>= fun _ => oneOf [c] >>= f) (c :: ys) a rest := by
  have hblank : ∀ d ∈ (c :: ys ++ rest).head?, Text.isBlank d = false := by
    rintro d ⟨⟩
    exact hc
  have hmark : Consumes (oneOf [c]) [c] () (ys ++ rest) := consumes_oneOf (by simp) _
  exact .skip (consumes_blanks hblank) (.bind_cons hmark h)

/-- Two digits, before which there may be blanks. -/
theorem consumes_twoDigits_bind {n : Nat} {f : Nat → Scan α} (hn : n < 100)
    (h : Consumes (f n) ys a rest) :
    Consumes (blanks >>= fun _ => number 1 2 >>= f) (twoDigits n ++ ys) a rest := by
  have hblank : ∀ d ∈ (twoDigits n ++ ys ++ rest).head?, Text.isBlank d = false := by
    rw [List.append_assoc]
    exact (Text.isDigits_padded 2 n).isBlank _
  exact .skip (consumes_blanks hblank) (.bind (consumes_twoDigits hn _) h)

end

end Scan

theorem isBlank_writeYear (year : Int) (cs : List Char) :
    ∀ c ∈ (writeYear year ++ cs).head?, Text.isBlank c = false := by
  have hdigits := (Text.isDigits_padded 4 year.natAbs).isBlank cs
  unfold writeYear
  split
  · exact hdigits
  · split
    · rintro c ⟨⟩
      decide
    · rintro c ⟨⟩
      decide

theorem consumes_relaxed (t : Instant) : Consumes relaxed (t.write .asNeeded).toList t [] := by
  have hlt : t.second < 86400 := t.second_lt
  have hsecond : t.secondOfMinute < 100 := Nat.lt_of_le_of_lt t.secondOfMinute_le (by decide)
  obtain ⟨hmonth, hday⟩ := t.date.fields_lt
  rw [write, String.toList_ofList]
  simp only [List.append_assoc, List.cons_append]
  open Scan in
  refine .skip (consumes_blanks ?_) (.bind (consumes_signedYear t.date.year ?_) ?_)
  · rw [List.append_nil]
    exact isBlank_writeYear _ _
  · rintro c ⟨⟩
    decide
  refine consumes_mark_bind (by decide) (consumes_twoDigits_bind hmonth ?_)
  refine consumes_mark_bind (by decide) (consumes_twoDigits_bind hday ?_)
  refine .bind_cons (consumes_oneOf rfl _) (consumes_twoDigits_bind (by omega) ?_)
  refine consumes_mark_bind (by decide) (consumes_twoDigits_bind (by omega) ?_)
  refine consumes_mark_bind (by decide) (consumes_twoDigits_bind hsecond ?_)
  refine .bind (consumes_fraction (Nat.mod_lt _ (by decide)) ?_) ?_
  · rintro c ⟨⟩
    decide
  -- No offset is written but the letter for none.
  refine .skip (consumes_blanks ?_) (.bind_cons (a := 0) rfl ?_)
  · rintro c ⟨⟩
    decide
  refine .skip (consumes_blanks nofun) (.skip rfl ?_)
  have hfields := t.ofFields?_self
  unfold fraction at hfields
  rw [hfields]
  rfl

/-- **The text of an instant is read as the instant.** -/
theorem readRelaxed?_write (t : Instant) : readRelaxed? (t.write .asNeeded) = some t := by
  have hrelaxed := t.consumes_relaxed
  unfold Consumes at hrelaxed
  rw [List.append_nil] at hrelaxed
  rw [readRelaxed?, StateT.run, hrelaxed]
  rfl

end Instant

end Warrant
