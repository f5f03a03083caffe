import Warrant.Proofs.Statement.Grammar
import Warrant.Proofs.Token.Numeral
import Warrant.Schema.Basic
import Warrant.Statement.Printer

/-!
# Tokens are read as they are spelled

Every token has a spelling that makes the token again, provided that no character follows that
could go on with it. A text that is put together of such spellings and blanks is taken apart into
the same tokens.

## Main definitions

- `Token.Kind.spelling` — the canonical text of a token
- `Token.Kind.EndsBefore` — what may follow it
- `Spells` — a text is put together of the spellings of tokens

## Main statements

- `Lexeme.scan_spelling` — one token
- `Spells.exists_tokens` — a whole text
-/

namespace Warrant

open Lexeme (startsName continuesName Stops)

namespace Token.Kind

/-- The canonical text of a token. -/
def spelling : Token.Kind → List Char
  | .keyword k => k.text.toList
  | .name s => s.toList
  | .string s => (Literal.string s).write
  | .integer i => (Literal.integer i).write
  | .float x => (Literal.float x).write
  | .sign s => s.text.toList
  | .finish => []

/-- Whether a token has a spelling of its own. -/
def isSpellable : Token.Kind → Bool
  | .name s => Schema.isName s
  | .float x => x.isFinite
  | .finish => false
  | _ => true

/-- **What may follow a token**: nothing that goes on with its word or its number. -/
def EndsBefore (rest : List Char) : Token.Kind → Prop
  | .keyword _ | .name _ => ∀ c ∈ rest.head?, continuesName c = false
  | .integer _ | .float _ => Stops rest
  | _ => True

theorem endsBefore_of_stops {rest : List Char} (h : Stops rest) (k : Token.Kind) :
    k.EndsBefore rest := by
  cases k with
  | keyword | name => exact fun c hc => (h c hc).1
  | integer | float => exact h
  | _ => trivial

end Token.Kind

namespace Lexeme

theorem continuesName_bounds {c : Char} (h : continuesName c = true) :
    0x30 ≤ c.toNat ∧ c.toNat ≤ 0x7a := by
  simp only [continuesName, Char.isAlphanum, Char.isAlpha, Char.isUpper, Char.isLower,
    Char.isDigit, Bool.or_eq_true, Bool.and_eq_true, decide_eq_true_eq, UInt32.le_iff_toNat_le,
    ge_iff_le] at h
  have hval : c.toNat = c.val.toNat := rfl
  have hA : 'A'.val.toNat = 0x41 := rfl
  have hZ : 'Z'.val.toNat = 0x5a := rfl
  have ha : 'a'.val.toNat = 0x61 := rfl
  have hz : 'z'.val.toNat = 0x7a := rfl
  have h0 : '0'.val.toNat = 0x30 := rfl
  have h9 : '9'.val.toNat = 0x39 := rfl
  rcases h with ((h | h) | h) | rfl
  · omega
  · omega
  · omega
  · decide

theorem ne_of_continuesName {c d : Char} (hc : continuesName c = true)
    (hd : continuesName d = false) : c ≠ d := by
  rintro rfl
  exact Bool.false_ne_true (hd.symm.trans hc)

/-- What words and numbers are made of is no sign, quote or hyphen. -/
theorem sign?_of_continuesName {c : Char} (hc : continuesName c = true) :
    sign? c = none ∧ c ≠ '!' ∧ c ≠ '"' ∧ c ≠ '-' := by
  have hne : ∀ d, continuesName d = false → c ≠ d := fun d => ne_of_continuesName hc
  refine ⟨?_, hne _ (by decide), hne _ (by decide), hne _ (by decide)⟩
  simp [sign?, hne '(' (by decide), hne ')' (by decide), hne ',' (by decide),
    hne '.' (by decide), hne '*' (by decide), hne ':' (by decide), hne '=' (by decide)]

theorem continuesName_of_startsName {c : Char} (h : startsName c = true) :
    continuesName c = true := by
  simp only [startsName, continuesName, Char.isAlphanum, Bool.or_eq_true] at h ⊢
  exact h.imp_left .inl

theorem isDigit_of_startsName {c : Char} (h : startsName c = true) : Text.isDigit c = false := by
  by_contra hdigit
  rw [Bool.not_eq_false, Text.isDigit_eq_isDigit] at hdigit
  simp only [startsName, Char.isAlpha, Char.isUpper, Char.isLower, Char.isDigit, Bool.or_eq_true,
    Bool.and_eq_true, decide_eq_true_eq, UInt32.le_iff_toNat_le, ge_iff_le] at h hdigit
  have hA : 'A'.val.toNat = 0x41 := rfl
  have ha : 'a'.val.toNat = 0x61 := rfl
  have h9 : '9'.val.toNat = 0x39 := rfl
  rcases h with (h | h) | rfl
  · omega
  · omega
  · exact absurd hdigit.2 (by decide)

/-! ## Words -/

structure IsWord (cs : List Char) : Prop where
  starts : ∀ c ∈ cs.head?, startsName c = true
  continues : ∀ c ∈ cs, continuesName c = true
  ne_nil : cs ≠ []

theorem isWord_cons {c : Char} {cs : List Char} (hc : startsName c = true)
    (hcs : cs.all continuesName = true) : IsWord (c :: cs) := by
  refine ⟨?_, ?_, List.cons_ne_nil c cs⟩
  · rintro d ⟨⟩
    exact hc
  · intro d hd
    rcases List.mem_cons.1 hd with rfl | hd
    · exact continuesName_of_startsName hc
    · exact List.all_eq_true.1 hcs d hd

theorem isWord_of_isName {s : String} (h : Schema.isName s = true) :
    IsWord s.toList ∧ Keyword.ofText? s = none := by
  unfold Schema.isName at h
  split at h
  · exact absurd h Bool.false_ne_true
  · next c rest hs =>
    simp only [Bool.and_eq_true, Bool.not_eq_true'] at h
    obtain ⟨⟨hc, hrest⟩, hreserved⟩ := h
    have hstarts : startsName c = true := by simpa [startsName] using hc
    have hcontinues : rest.all continuesName = true := by
      simpa [continuesName, Char.isAlphanum] using hrest
    rw [hs]
    exact ⟨isWord_cons hstarts hcontinues, by simpa [Keyword.isReserved] using hreserved⟩

theorem isWord_keyword (k : Keyword) : IsWord k.text.toList := by
  cases k <;> exact isWord_cons rfl rfl

/-- A character that names start with starts nothing else. -/
theorem scan_of_startsName {c : Char} (hc : startsName c = true) (rest : List Char) :
    scan (c :: rest) = word (c :: rest) := by
  obtain ⟨hsign, hbang, hquote, hhyphen⟩ := sign?_of_continuesName (continuesName_of_startsName hc)
  simp [scan, hsign, hbang, hquote, hhyphen, isDigit_of_startsName hc, hc]

theorem scan_word {cs rest : List Char} (hcs : IsWord cs)
    (hrest : ∀ c ∈ rest.head?, continuesName c = false) :
    scan (cs ++ rest) = .token ((Keyword.ofText? (String.ofList cs)).elim
      (.name (String.ofList cs)) .keyword) cs.length := by
  have htake : (cs ++ rest).takeWhile continuesName = cs := by
    rw [List.takeWhile_append_of_pos hcs.continues]
    cases rest with
    | nil => simp
    | cons c rest => simp [hrest c rfl]
  have hword : scan (cs ++ rest) = word (cs ++ rest) := by
    obtain ⟨c, ds, rfl⟩ := List.exists_cons_of_ne_nil hcs.ne_nil
    exact scan_of_startsName (hcs.starts c rfl) (ds ++ rest)
  rw [hword, word, htake]
  cases Keyword.ofText? (String.ofList cs) <;> rfl

/-! ## Numbers -/

/-- **The texts that are scanned as numbers**: a digit at the front, perhaps after a hyphen. -/
def StartsNumber (cs : List Char) : Prop :=
  ∃ negative c ds, Text.isDigit c = true ∧ cs = signText negative ++ c :: ds

theorem StartsNumber.append {cs : List Char} (h : StartsNumber cs) (rest : List Char) :
    StartsNumber (cs ++ rest) := by
  obtain ⟨negative, c, ds, hc, rfl⟩ := h
  exact ⟨negative, c, ds ++ rest, hc, by rw [List.append_assoc, List.cons_append]⟩

theorem StartsNumber.ne_nil {cs : List Char} (h : StartsNumber cs) : cs ≠ [] := by
  obtain ⟨negative, c, ds, -, rfl⟩ := h
  exact List.append_ne_nil_of_right_ne_nil _ (List.cons_ne_nil c ds)

theorem startsNumber_integer (i : Int) : StartsNumber (toString i).toList := by
  have hds := Text.isDigits_decimal i.natAbs
  obtain ⟨c, ds, hcons⟩ := List.exists_cons_of_ne_nil hds.ne_nil
  have hc : Text.isDigit c = true := hds.isDigit c (hcons ▸ List.mem_cons_self)
  exact ⟨_, c, ds, hc, by rw [toList_integer, hcons]⟩

theorem FloatText.startsNumber {x : Binary64} {cs : List Char} (h : FloatText x cs)
    (negative : Bool) : StartsNumber (signText negative ++ cs) := by
  obtain @⟨ds, fs, es, hds, -, -, -, -⟩ := h
  obtain ⟨c, ds, rfl⟩ := List.exists_cons_of_ne_nil hds.ne_nil
  exact ⟨negative, c, ds ++ fs ++ es, hds.isDigit c List.mem_cons_self, rfl⟩

theorem startsNumber_float (l : FloatLayout) {x : Binary64} (hx : x.isFinite = true) :
    StartsNumber (l.write x).toList := by
  rw [l.toList_write hx]
  exact (l.floatText_magnitude hx).startsNumber _

theorem scan_number {cs : List Char} (h : StartsNumber cs) : scan cs = number cs := by
  obtain ⟨negative, c, ds, hc, rfl⟩ := h
  cases negative with
  | true => simp [signText, scan, sign?, hc]
  | false =>
    obtain ⟨hsign, hbang, hquote, hhyphen⟩ := sign?_of_continuesName (continuesName_of_isDigit hc)
    simp [signText, scan, hsign, hbang, hquote, hc]

/-! ## Strings -/

theorem string_of_ne {c : Char} (hc : c ≠ '\\') (hquote : c ≠ '"') (n : Nat)
    (value rest : List Char) : string n value (c :: rest) = string (n + 1) (c :: value) rest := by
  rw [string.eq_4, if_neg hquote]
  · rintro rfl - 
    exact hc rfl
  · rintro d ds rfl - 
    exact hc rfl

theorem string_escape (c : Char) (n : Nat) (value rest : List Char) :
    string n value (Literal.escape c ++ rest) =
      string (n + (Literal.escape c).length) (c :: value) rest := by
  unfold Literal.escape
  by_cases hquote : c = '"'
  · subst hquote
    rfl
  by_cases hback : c = '\\'
  · subst hback
    rfl
  by_cases hnewline : c = '\n'
  · subst hnewline
    rfl
  by_cases htab : c = '\t'
  · subst htab
    rfl
  rw [if_neg hquote, if_neg hback, if_neg hnewline, if_neg htab]
  exact string_of_ne hback hquote n value rest

theorem string_flatMap_escape (cs : List Char) (n : Nat) (value rest : List Char) :
    string n value (cs.flatMap Literal.escape ++ '"' :: rest) =
      .token (.string (String.ofList (value.reverse ++ cs)))
        (n + (cs.flatMap Literal.escape).length + 1) := by
  induction cs generalizing n value with
  | nil =>
    rw [List.flatMap_nil, List.nil_append, List.append_nil, string.eq_4, if_pos rfl]
    · rfl
    · nofun
    · nofun
  | cons c cs ih =>
    rw [List.flatMap_cons, List.append_assoc, string_escape, ih, List.reverse_cons,
      List.append_assoc, List.singleton_append, List.length_append, Nat.add_assoc n]

/-! ## Tokens -/

/-- **A spelling makes its token.** -/
theorem scan_spelling {k : Token.Kind} {rest : List Char} (hk : k.isSpellable = true)
    (hrest : k.EndsBefore rest) : scan (k.spelling ++ rest) = .token k k.spelling.length := by
  cases k with
  | keyword k =>
    have hscan := scan_word (isWord_keyword k) hrest
    rwa [String.ofList_toList, Keyword.ofText?_text] at hscan
  | name s =>
    obtain ⟨hword, hname⟩ := isWord_of_isName hk
    have hscan := scan_word hword hrest
    rwa [String.ofList_toList, hname] at hscan
  | string s =>
    have hstring := string_flatMap_escape s.toList 1 [] rest
    simp only [Token.Kind.spelling, Literal.write, List.cons_append, List.append_assoc,
      List.nil_append]
    simpa [scan, sign?, Nat.add_comm] using hstring
  | integer i =>
    exact (scan_number ((startsNumber_integer i.toInt).append rest)).trans (number_integer i hrest)
  | float x =>
    exact (scan_number ((startsNumber_float .plain hk).append rest)).trans
      (number_float .plain hk hrest)
  | sign s =>
    cases s <;> rfl
  | finish => exact absurd hk Bool.false_ne_true

end Lexeme

/-! ## Texts -/

theorem Token.Kind.spelling_ne_nil {k : Token.Kind} (hk : k.isSpellable = true) :
    k.spelling ≠ [] := by
  cases k with
  | keyword k => exact (Lexeme.isWord_keyword k).ne_nil
  | name s => exact (Lexeme.isWord_of_isName hk).1.ne_nil
  | string s => exact List.cons_ne_nil _ _
  | integer i => exact (Lexeme.startsNumber_integer i.toInt).ne_nil
  | float x => exact (Lexeme.startsNumber_float .plain hk).ne_nil
  | sign s => cases s <;> exact List.cons_ne_nil _ _
  | finish => exact absurd hk Bool.false_ne_true

namespace Trivia

theorem length_of_visible {c : Char} {rest : List Char} (hc : Text.isBlank c = false)
    (hhyphen : c = '-' → rest.head? ≠ some '-') : length (c :: rest) = 0 := by
  unfold length
  rw [lengthFrom.eq_4, hc]
  · rfl
  · rintro ds rfl rfl
    exact hhyphen rfl rfl

theorem isBlank_of_continuesName {c : Char} (h : continuesName c = true) :
    Text.isBlank c = false := by
  have hbounds := Lexeme.continuesName_bounds h
  have hblanks : ∀ b ∈ Text.blanks, b < 0x30 ∨ 0x7a < b := by decide
  by_contra hblank
  have hmem : c.toNat ∈ Text.blanks := by simpa [Text.isBlank] using hblank
  have hb := hblanks c.toNat hmem
  omega

theorem length_of_continuesName {cs : List Char} (hne : cs ≠ [])
    (h : ∀ c ∈ cs.head?, continuesName c = true) (rest : List Char) :
    length (cs ++ rest) = 0 := by
  obtain ⟨c, cs, rfl⟩ := List.exists_cons_of_ne_nil hne
  have hc := h c rfl
  exact length_of_visible (isBlank_of_continuesName hc)
    fun hhyphen => absurd hhyphen (Lexeme.sign?_of_continuesName hc).2.2.2

theorem length_of_isWord {cs : List Char} (h : Lexeme.IsWord cs) (rest : List Char) :
    length (cs ++ rest) = 0 :=
  length_of_continuesName h.ne_nil
    (fun c hc => Lexeme.continuesName_of_startsName (h.starts c hc)) rest

theorem length_of_startsNumber {cs : List Char} (h : Lexeme.StartsNumber cs) : length cs = 0 := by
  obtain ⟨negative, c, ds, hc, rfl⟩ := h
  have hcontinues := Lexeme.continuesName_of_isDigit hc
  cases negative with
  | true =>
    refine length_of_visible (by decide) fun _ hhead => ?_
    exact (Lexeme.sign?_of_continuesName hcontinues).2.2.2 (Option.some.inj hhead)
  | false => exact length_of_continuesName (List.cons_ne_nil c []) (by simpa using hcontinues) ds

/-- No token starts with a blank or a comment. -/
theorem length_spelling {k : Token.Kind} (hk : k.isSpellable = true) (rest : List Char) :
    length (k.spelling ++ rest) = 0 := by
  cases k with
  | keyword k => exact length_of_isWord (Lexeme.isWord_keyword k) rest
  | name s => exact length_of_isWord (Lexeme.isWord_of_isName hk).1 rest
  | string s => exact length_of_visible (by decide) nofun
  | integer i => exact length_of_startsNumber ((Lexeme.startsNumber_integer i.toInt).append rest)
  | float x => exact length_of_startsNumber ((Lexeme.startsNumber_float .plain hk).append rest)
  | sign s => cases s <;> exact length_of_visible (by decide) nofun
  | finish => exact absurd hk Bool.false_ne_true

theorem length_blank (cs : List Char) : length (' ' :: cs) = length cs + 1 := by
  have hblank : Text.isBlank ' ' = true := by decide
  unfold length
  rw [lengthFrom.eq_4, if_pos hblank, Nat.add_comm]
  nofun

end Trivia

namespace Lexer

theorem next_blank (cs : List Char) (p : Position) :
    (Lexer.mk (' ' :: cs) p).next = (Lexer.mk cs (p.step ' ')).next := by
  unfold next
  rw [Trivia.length_blank]
  rfl

/-- A token at the front is the next one. -/
theorem next_spelling {k : Token.Kind} {cs : List Char} (hk : k.isSpellable = true)
    (hends : k.EndsBefore cs) (p : Position) : (Lexer.mk (k.spelling ++ cs) p).next =
      (.ok ⟨k, String.ofList k.spelling, p⟩, ⟨cs, p.after k.spelling⟩) := by
  have hadvance : (Lexer.mk (k.spelling ++ cs) p).advance 0 = ⟨k.spelling ++ cs, p⟩ := rfl
  unfold next
  rw [Trivia.length_spelling hk, hadvance]
  simp only [Lexeme.scan_spelling hk hends, advance, List.take_left, List.drop_left]

end Lexer

/-- **A text is put together of the spellings of tokens**, with blanks between them or without. -/
inductive Spells : List Char → Phrase → Prop
  | nil : Spells [] []
  | blank {cs : List Char} {ks : Phrase} (h : Spells cs ks) : Spells (' ' :: cs) ks
  | token {k : Token.Kind} {cs : List Char} {ks : Phrase} (hk : k.isSpellable = true)
    (hends : k.EndsBefore cs) (h : Spells cs ks) : Spells (k.spelling ++ cs) (k :: ks)

open Token.Item in
theorem Spells.items {cs : List Char} {ks : Phrase} (h : Spells cs ks) {bound : Nat}
    (hbound : cs.length ≤ bound) (p : Position) : ∃ tokens : List Token,
      beforeFinish ((Lexer.mk cs p).items (bound + 1)) = tokens.map .ok ∧
        tokens.map Token.kind = ks := by
  induction h generalizing bound p with
  | nil => exact ⟨[], rfl, rfl⟩
  | @blank cs ks h ih =>
    rw [List.length_cons] at hbound
    obtain ⟨tokens, hitems, htokens⟩ := ih (Nat.le_of_succ_le hbound) (p.step ' ')
    refine ⟨tokens, ?_, htokens⟩
    rw [← hitems, Lexer.items, Lexer.next_blank, Lexer.items]
  | @token k cs ks hk hends h ih =>
    have hne : k ≠ .finish := by
      rintro rfl
      exact Bool.false_ne_true hk
    have hpos := List.length_pos_of_ne_nil (Token.Kind.spelling_ne_nil hk)
    rw [List.length_append] at hbound
    obtain ⟨bound, rfl⟩ : ∃ b, bound = b + 1 := ⟨bound - 1, by omega⟩
    obtain ⟨tokens, hitems, htokens⟩ := @ih bound (by omega) (p.after k.spelling)
    refine ⟨⟨k, String.ofList k.spelling, p⟩ :: tokens, ?_, by rw [List.map_cons, htokens]⟩
    rw [Lexer.items, Lexer.next_spelling hk hends]
    simp only [hne, if_false]
    rw [beforeFinish_of_ne hne, hitems, List.map_cons]

/-- **A text is taken apart** into the tokens that it was put together of. -/
theorem Spells.exists_tokens {s : String} {ks : Phrase} (h : Spells s.toList ks) :
    ∃ tokens : List Token, Token.Item.beforeFinish (tokenize s) = tokens.map .ok ∧
      tokens.map Token.kind = ks :=
  h.items (Nat.le_refl _) .start

end Warrant
