import Warrant.Proofs.Token.Spelling

/-!
# The grammar of tokens

Which characters are a token, and which token they are, said without an order of reading. What is
scanned at the front of a text is a token of this grammar, and every token of the grammar is
scanned wherever no character follows that could go on with it.

## Main definitions

- `Lexeme.IsQuoted` — the inside of a string
- `Lexeme.IsToken` — the characters of a token

## Main statements

- `Lexeme.scan_of_isToken`, `Lexeme.exists_isToken_of_scan` — scanning is exact
-/

namespace Warrant.Lexeme

open Text (IsDigits)

/-- **The inside of a string**, and the characters that it stands for. -/
inductive IsQuoted : List Char → List Char → Prop
  | nil : IsQuoted [] []
  | plain {c : Char} {cs value : List Char} (hquote : c ≠ '"') (hback : c ≠ '\\')
    (h : IsQuoted cs value) : IsQuoted (c :: cs) (c :: value)
  | escaped {c u : Char} {cs value : List Char} (hu : unescape? c = some u)
    (h : IsQuoted cs value) : IsQuoted ('\\' :: c :: cs) (u :: value)

/-- **The characters of a token.** -/
inductive IsToken : List Char → Token.Kind → Prop
  | sign {c : Char} {s : Sign} (h : sign? c = some s) : IsToken [c] (.sign s)
  | different : IsToken ['!', '='] (.sign .different)
  | string {cs value : List Char} (h : IsQuoted cs value) :
    IsToken ('"' :: (cs ++ ['"'])) (.string (String.ofList value))
  | number {negative : Bool} {ds fs es : List Char} {k : Token.Kind} (hds : IsDigits ds)
    (hfs : IsFraction fs) (hes : IsExponent es) (hk : numberKind? negative ds fs es = some k) :
    IsToken (signText negative ++ ds ++ fs ++ es) k
  | word {cs : List Char} (h : IsWord cs) :
    IsToken cs ((Keyword.ofText? (String.ofList cs)).elim (.name (String.ofList cs)) .keyword)

theorem IsToken.ne_nil {cs : List Char} {k : Token.Kind} (h : IsToken cs k) : cs ≠ [] := by
  cases h with
  | sign | different | string => exact List.cons_ne_nil _ _
  | number hds =>
    rw [List.append_assoc, List.append_assoc]
    exact List.append_ne_nil_of_right_ne_nil _ (List.append_ne_nil_of_left_ne_nil hds.ne_nil _)
  | word h => exact h.ne_nil

theorem numberKind?_ne_finish {negative : Bool} {ds fs es : List Char} :
    numberKind? negative ds fs es ≠ some .finish := by
  unfold numberKind?
  split <;> simp

theorem IsToken.ne_finish {cs : List Char} {k : Token.Kind} (h : IsToken cs k) : k ≠ .finish := by
  rintro rfl
  generalize hk : Token.Kind.finish = k at h
  cases h with
  | sign | different | string => exact nomatch hk
  | number _ _ _ hkind => exact numberKind?_ne_finish (hk ▸ hkind)
  | word h => cases hword : Keyword.ofText? (String.ofList cs) <;> simp [hword] at hk

/-! ## Tokens are scanned -/

theorem string_of_isQuoted {cs value : List Char} (h : IsQuoted cs value) (n : Nat)
    (before rest : List Char) : string n before (cs ++ '"' :: rest) =
      .token (.string (String.ofList (before.reverse ++ value))) (n + cs.length + 1) := by
  induction h generalizing n before with
  | nil => rw [List.nil_append, string.eq_4, if_pos rfl] <;> simp
  | plain hquote hback _ ih =>
    rw [List.cons_append, string_of_ne hback hquote, ih, List.reverse_cons, List.append_assoc,
      List.singleton_append, List.length_cons, Nat.add_assoc n, Nat.add_comm 1]
  | escaped hu _ ih =>
    rw [List.cons_append, List.cons_append, string, hu]
    simp only [ih, List.reverse_cons, List.append_assoc, List.singleton_append, List.length_cons]
    rw [Nat.add_assoc n, Nat.add_comm 2]

theorem startsNumber_of_isDigits {ds : List Char} (hds : IsDigits ds) (negative : Bool) :
    StartsNumber (signText negative ++ ds) := by
  obtain ⟨c, ds, rfl⟩ := List.exists_cons_of_ne_nil hds.ne_nil
  exact ⟨negative, c, ds, hds.isDigit c List.mem_cons_self, rfl⟩

/-- **A token is scanned** wherever nothing follows that could go on with it. -/
theorem scan_of_isToken {cs rest : List Char} {k : Token.Kind} (h : IsToken cs k)
    (hrest : Stops rest) : scan (cs ++ rest) = .token k cs.length := by
  cases h with
  | sign h => simp [scan, h]
  | different => rfl
  | string h =>
    have hstring := string_of_isQuoted h 1 [] rest
    simpa [scan, sign?, Nat.add_comm] using hstring
  | @number negative ds fs es _ hds hfs hes hk =>
    have hstarts := (startsNumber_of_isDigits hds negative).append (fs ++ (es ++ rest))
    simp only [← List.append_assoc] at hstarts
    rw [scan_number hstarts]
    exact number_append hds hfs hes hrest hk
  | word h => exact scan_word h fun c hc => (hrest c hc).1

/-! ## What is scanned are tokens -/

theorem exists_isQuoted_of_string {n m : Nat} {before cs : List Char} {k : Token.Kind}
    (h : string n before cs = .token k m) : ∃ body value rest, cs = body ++ '"' :: rest ∧
      IsQuoted body value ∧ k = .string (String.ofList (before.reverse ++ value)) ∧
      m = n + body.length + 1 := by
  fun_induction string n before cs with
  | case1 | case2 => exact nomatch h
  | case3 n before c rest u hu ih =>
    obtain ⟨body, value, rest, rfl, hbody, rfl, rfl⟩ := ih h
    refine ⟨'\\' :: c :: body, u :: value, rest, rfl, .escaped hu hbody, by simp, ?_⟩
    simp only [List.length_cons]
    omega
  | case4 => exact nomatch h
  | case5 n before rest =>
    obtain ⟨rfl, rfl⟩ := Lexeme.token.inj h
    exact ⟨[], [], rest, rfl, .nil, by simp, rfl⟩
  | case6 n before c rest hone hmany hquote ih =>
    obtain ⟨body, value, rest, rfl, hbody, rfl, rfl⟩ := ih h
    have hback : c ≠ '\\' := by
      rintro rfl
      cases body with
      | nil => exact hmany '"' rest rfl rfl
      | cons d body => exact hmany d (body ++ '"' :: rest) rfl rfl
    refine ⟨c :: body, c :: value, rest, rfl, .plain hquote hback hbody, by simp, ?_⟩
    simp only [List.length_cons]
    omega

theorem isDigits_takeWhile {cs : List Char} (h : (cs.takeWhile Text.isDigit).isEmpty = false) :
    IsDigits (cs.takeWhile Text.isDigit) where
  ne_nil := by simpa [List.isEmpty_iff] using h
  isDigit _ hc := List.mem_takeWhile_imp hc

theorem isFraction_fraction (cs : List Char) :
    IsFraction (fraction cs) ∧ ∃ rest, cs = fraction cs ++ rest := by
  unfold fraction
  split
  · next rest =>
    dsimp only
    split
    · exact ⟨.none, _, rfl⟩
    · next hds =>
      refine ⟨.places (isDigits_takeWhile (Bool.eq_false_iff.2 hds)),
        rest.dropWhile Text.isDigit, ?_⟩
      rw [List.cons_append, List.takeWhile_append_dropWhile]
  · exact ⟨.none, _, rfl⟩

theorem exponentSign_cases (cs : List Char) : exponentSign cs = [] ∨
    ∃ sign rest, cs = sign :: rest ∧ exponentSign cs = [sign] ∧ (sign = '+' ∨ sign = '-') := by
  unfold exponentSign
  split
  · next rest => exact .inr ⟨'+', rest, rfl, rfl, .inl rfl⟩
  · next rest => exact .inr ⟨'-', rest, rfl, rfl, .inr rfl⟩
  · exact .inl rfl

theorem isExponent_exponent (cs : List Char) :
    IsExponent (exponent cs) ∧ ∃ rest, cs = exponent cs ++ rest := by
  unfold exponent
  split
  · exact ⟨.none, _, rfl⟩
  · next c rest =>
    split
    · next hletter =>
      have hletter : c = 'e' ∨ c = 'E' := by simpa using hletter
      dsimp only
      split
      · exact ⟨.none, _, rfl⟩
      · next hds =>
        have hds := isDigits_takeWhile (Bool.eq_false_iff.2 hds)
        rcases exponentSign_cases rest with hsign | ⟨sign, more, rfl, hsign, hcases⟩
        · rw [hsign] at hds ⊢
          refine ⟨.plain hletter hds, rest.dropWhile Text.isDigit, ?_⟩
          exact congrArg (c :: ·) List.takeWhile_append_dropWhile.symm
        · rw [hsign] at hds ⊢
          refine ⟨.signed hletter hcases hds, more.dropWhile Text.isDigit, ?_⟩
          exact congrArg (c :: sign :: ·) List.takeWhile_append_dropWhile.symm
    · exact ⟨.none, _, rfl⟩

theorem drop_length_of_eq_append {l before rest : List Char} (h : l = before ++ rest) :
    l.drop before.length = rest := by
  rw [h, List.drop_left]

/-- **A number that is scanned is taken apart** into its sign, its digits, its fraction and its
    exponent, each as long as can be. -/
theorem exists_isToken_of_number {cs : List Char} {k : Token.Kind} {n : Nat}
    (hstarts : StartsNumber cs) (h : number cs = .token k n) :
    ∃ text rest, cs = text ++ rest ∧ n = text.length ∧ IsToken text k := by
  obtain ⟨negative, c, tail, hc, rfl⟩ := hstarts
  have hds : IsDigits ((c :: tail).takeWhile Text.isDigit) := by
    refine isDigits_takeWhile ?_
    rw [List.takeWhile_cons_of_pos hc]
    rfl
  have hunread : c :: tail = (c :: tail).takeWhile Text.isDigit ++
      (c :: tail).dropWhile Text.isDigit := List.takeWhile_append_dropWhile.symm
  have hsign : (if (signText negative ++ (c :: tail)).head? = some '-' then ['-'] else []) =
      signText negative := by
    rw [hunread]
    exact signText_of_isDigits hds negative _
  unfold number at h
  simp only [hsign, List.drop_left, not_isEmpty_signText] at h
  generalize (c :: tail).takeWhile Text.isDigit = ds at h hds hunread
  generalize (c :: tail).dropWhile Text.isDigit = unread at hunread
  obtain ⟨hfs, afterFraction, hfraction⟩ := isFraction_fraction unread
  obtain ⟨hes, rest, hexponent⟩ := isExponent_exponent afterFraction
  have htext : signText negative ++ c :: tail =
      signText negative ++ ds ++ fraction unread ++ exponent afterFraction ++ rest := by
    rw [hunread, List.append_assoc _ _ rest, ← hexponent, List.append_assoc _ _ afterFraction,
      ← hfraction, List.append_assoc]
  rw [drop_length_of_eq_append hunread, drop_length_of_eq_append hfraction] at h
  split at h
  · next hkind =>
    obtain ⟨rfl, rfl⟩ := Lexeme.token.inj h
    exact ⟨_, rest, htext, rfl, .number hds hfs hes hkind⟩
  · cases h

theorem exists_isToken_of_word {c : Char} {cs : List Char} {k : Token.Kind} {n : Nat}
    (hc : startsName c = true) (h : word (c :: cs) = .token k n) :
    ∃ text rest, c :: cs = text ++ rest ∧ n = text.length ∧ IsToken text k := by
  have hword : IsWord ((c :: cs).takeWhile continuesName) := by
    rw [List.takeWhile_cons_of_pos (continuesName_of_startsName hc)]
    exact isWord_cons hc List.all_takeWhile
  have hsplit := (List.takeWhile_append_dropWhile (p := continuesName) (l := c :: cs)).symm
  unfold word at h
  dsimp only at h
  generalize (c :: cs).takeWhile continuesName = text at h hword hsplit
  refine ⟨text, _, hsplit, ?_⟩
  have htoken := IsToken.word hword
  cases hkeyword : Keyword.ofText? (String.ofList text) with
  | some keyword =>
    rw [hkeyword] at h htoken
    obtain ⟨rfl, rfl⟩ := Lexeme.token.inj h
    exact ⟨rfl, htoken⟩
  | none =>
    rw [hkeyword] at h htoken
    obtain ⟨rfl, rfl⟩ := Lexeme.token.inj h
    exact ⟨rfl, htoken⟩

/-- **What is scanned is a token.** Only at the end of the text is it the end. -/
theorem exists_isToken_of_scan {cs : List Char} {k : Token.Kind} {n : Nat}
    (h : scan cs = .token k n) : (cs = [] ∧ k = .finish) ∨
      ∃ text rest, cs = text ++ rest ∧ n = text.length ∧ IsToken text k := by
  cases cs with
  | nil =>
    obtain ⟨rfl, -⟩ := Lexeme.token.inj h
    exact .inl ⟨rfl, rfl⟩
  | cons c rest =>
    refine .inr ?_
    rw [scan] at h
    split at h
    · next s hs =>
      obtain ⟨rfl, rfl⟩ := Lexeme.token.inj h
      exact ⟨[c], rest, rfl, rfl, .sign hs⟩
    · -- No sign of one character, so the first character decides which sort of token is scanned.
      split_ifs at h with hbang hequal hquote hminus hdigit hletter
      · obtain ⟨rfl, rfl⟩ := Lexeme.token.inj h
        obtain ⟨rest, rfl⟩ := List.head?_eq_some_iff.1 hequal
        exact ⟨['!', '='], rest, by rw [hbang]; rfl, rfl, .different⟩
      · obtain ⟨body, value, rest, rfl, hbody, rfl, rfl⟩ := exists_isQuoted_of_string h
        refine ⟨'"' :: (body ++ ['"']), rest, ?_, ?_, .string hbody⟩
        · rw [hquote, List.cons_append, List.append_assoc]
          rfl
        · simp
          omega
      · rw [Bool.and_eq_true, decide_eq_true_iff, Option.any_eq_true] at hminus
        obtain ⟨rfl, d, hd, hdigit⟩ := hminus
        obtain ⟨ds, rfl⟩ := List.head?_eq_some_iff.1 hd
        exact exists_isToken_of_number ⟨true, d, ds, hdigit, rfl⟩ h
      · exact exists_isToken_of_number ⟨false, c, rest, hdigit, rfl⟩ h
      · exact exists_isToken_of_word hletter h

end Warrant.Lexeme
