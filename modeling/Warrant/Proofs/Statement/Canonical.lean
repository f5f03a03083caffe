import Warrant.Proofs.Results
import Warrant.Proofs.Statement.RoundTrip

/-!
# The text of a statement that was read

A text can write a statement in many ways: with blanks, comments, parentheses, escapes and digits
that the canonical text does not have. Whatever the lexer makes of it, its tokens have spellings of
their own, and a phrase of such tokens denotes a well-formed statement. So every statement that is
read can be written, and its text is read as itself.

## Main statements

- `Lexeme.isSpellable_of_scan` — tokens have spellings
- `Grammar.IsStatement.isWellFormed` — phrases of such tokens denote well-formed statements
- `Statement.read_canonical` — the text of a statement that was read
-/

namespace Warrant

namespace Lexeme

/-! ## Tokens have spellings -/

/-- A word is a name, unless it is reserved. -/
theorem isName_of_isWord {cs : List Char} (h : IsWord cs)
    (hreserved : Keyword.ofText? (String.ofList cs) = none) :
    Schema.isName (String.ofList cs) = true := by
  obtain ⟨c, cs, rfl⟩ := List.exists_cons_of_ne_nil h.ne_nil
  have hstarts : startsName c = true := h.starts c rfl
  have hcontinues : cs.all continuesName = true :=
    List.all_eq_true.2 fun d hd => h.continues d (List.mem_cons_of_mem c hd)
  have hfree : Keyword.isReserved (String.ofList (c :: cs)) = false := by
    rw [Keyword.isReserved, hreserved, Option.isSome_none]
  unfold Schema.isName
  rw [String.toList_ofList]
  simp only [hfree, Bool.not_false, Bool.and_true, Bool.and_eq_true]
  exact ⟨by simpa [startsName] using hstarts,
    by simpa [continuesName, Char.isAlphanum] using hcontinues⟩

theorem isSpellable_of_word {c : Char} {rest : List Char} {kind : Token.Kind} {n : Nat}
    (hc : startsName c = true) (h : word (c :: rest) = .token kind n) :
    kind.isSpellable = true := by
  have htake : (c :: rest).takeWhile continuesName = c :: rest.takeWhile continuesName :=
    List.takeWhile_cons_of_pos (continuesName_of_startsName hc)
  have hword : IsWord (c :: rest.takeWhile continuesName) :=
    isWord_cons hc List.all_takeWhile
  rw [word, htake] at h
  split at h
  · obtain ⟨rfl, -⟩ := Lexeme.token.inj h
    rfl
  · next hreserved =>
    obtain ⟨rfl, -⟩ := Lexeme.token.inj h
    exact isName_of_isWord hword hreserved

/-- What starts as a string is a string or a fault. -/
theorem isSpellable_of_string {n : Nat} {value cs : List Char} {kind : Token.Kind} {m : Nat}
    (h : string n value cs = .token kind m) : kind.isSpellable = true := by
  fun_induction string n value cs with
  | case1 => exact nomatch h
  | case2 => exact nomatch h
  | case3 n value c rest u hu ih => exact ih h
  | case4 => exact nomatch h
  | case5 =>
    obtain ⟨rfl, -⟩ := Lexeme.token.inj h
    rfl
  | case6 n value c rest hlast hescape hquote ih => exact ih h

/-- A number is no token unless it has a value, and the value of a float is finite. -/
theorem isSpellable_of_number {cs : List Char} {kind : Token.Kind} {n : Nat}
    (h : number cs = .token kind n) : kind.isSpellable = true := by
  unfold number at h
  extract_lets sign unsigned digits rest fractionPart exponentPart text kind? at h
  cases hvalue : kind? with
  | none =>
    rw [hvalue] at h
    exact nomatch h
  | some kind' =>
    rw [hvalue] at h
    obtain ⟨rfl, -⟩ := Lexeme.token.inj h
    dsimp only [kind?] at hvalue
    split at hvalue
    · obtain ⟨i, -, rfl⟩ := Option.map_eq_some_iff.1 hvalue
      rfl
    · obtain ⟨x, hx, rfl⟩ := Option.map_eq_some_iff.1 hvalue
      obtain ⟨hfinite, hx⟩ := Option.ite_none_right_eq_some.1 hx
      exact Option.some.inj hx ▸ hfinite

/-- **Every token has a spelling**, but for the end. -/
theorem isSpellable_of_scan {cs : List Char} {kind : Token.Kind} {n : Nat}
    (h : scan cs = .token kind n) : kind = .finish ∨ kind.isSpellable = true := by
  cases cs with
  | nil => exact .inl (Lexeme.token.inj h).1.symm
  | cons c rest =>
    right
    rw [scan] at h
    split at h
    · obtain ⟨rfl, -⟩ := Lexeme.token.inj h
      rfl
    split_ifs at h with hbang hequal hquote hminus hdigit hname
    · obtain ⟨rfl, -⟩ := Lexeme.token.inj h
      rfl
    · exact isSpellable_of_string h
    · exact isSpellable_of_number h
    · exact isSpellable_of_number h
    · exact isSpellable_of_word hname h

end Lexeme

theorem Lexer.isSpellable_of_mem_items {bound : Nat} {l : Lexer} {token : Token}
    (h : .ok token ∈ l.items bound) :
    token.kind = .finish ∨ token.kind.isSpellable = true := by
  induction bound generalizing l with
  | zero => exact nomatch h
  | succ bound ih =>
    -- The next token has been scanned, so it has a spelling.
    have hnext : ∀ t l', l.next = (.ok t, l') →
        t.kind = .finish ∨ t.kind.isSpellable = true := by
      intro t l' ht
      unfold Lexer.next at ht
      simp only at ht
      split at ht
      · next hscan =>
        obtain rfl := Except.ok.inj (Prod.mk.inj ht).1
        exact Lexeme.isSpellable_of_scan hscan
      · exact nomatch (Prod.mk.inj ht).1
    unfold Lexer.items at h
    split at h
    · exact nomatch List.mem_singleton.1 h
    · next t l' ht =>
      split_ifs at h with hfinish
      · obtain rfl := Except.ok.inj (List.mem_singleton.1 h)
        exact .inl hfinish
      · rcases List.mem_cons.1 h with h | h
        · obtain rfl := Except.ok.inj h
          exact hnext token l' ht
        · exact ih h

/-- The tokens that count have spellings. -/
theorem isSpellable_of_tokenize {text : String} {tokens : List Token}
    (h : Token.Item.beforeFinish (tokenize text) = tokens.map .ok) :
    ∀ k ∈ tokens.map Token.kind, k.isSpellable = true := by
  rintro k hk
  obtain ⟨token, htoken, rfl⟩ := List.mem_map.1 hk
  have hmem : (.ok token : Token.Item) ∈ Token.Item.beforeFinish (tokenize text) :=
    h ▸ List.mem_map_of_mem htoken
  have hne : token.kind ≠ .finish := by
    simpa [Token.Item.isFinish] using List.mem_takeWhile_imp hmem
  have hitem : .ok token ∈ tokenize text := (List.takeWhile_sublist _).subset hmem
  exact (Lexer.isSpellable_of_mem_items hitem).resolve_left hne

/-! ## Phrases of tokens that have spellings -/

namespace Grammar

theorem isWellFormed_of_isLiteral {k : Token.Kind} {v : Literal} (h : IsLiteral k v)
    (hk : k.isSpellable = true) : v.isWellFormed = true := by
  cases h with
  | float x => exact hk
  | _ => rfl

/-- What makes a group well-formed, be it joined by AND or by OR. -/
theorem areParts_cons {c : Condition} {cs : List Condition} (hc : c.isWellFormed = true)
    (hcs : cs ≠ [] ∧ Condition.areWellFormed cs = true) :
    (2 ≤ (c :: cs).length && Condition.areWellFormed (c :: cs)) = true := by
  obtain ⟨hne, hall⟩ := hcs
  have hlength := List.length_pos_of_ne_nil hne
  simp only [Condition.areWellFormed, hc, hall, List.length_cons, Bool.and_self, Bool.and_true,
    decide_eq_true_eq]
  omega

mutual

theorem IsLevel.isWellFormed {ks : Phrase} {c : Condition} :
    IsLevel ks c → (∀ k ∈ ks, k.isSpellable = true) → c.isWellFormed = true
  | .one h, hks => h.isWellFormed hks
  | .every first others, hks => by
    obtain ⟨hfirst, hothers⟩ := List.forall_mem_append.1 hks
    rw [Condition.isWellFormed]
    exact areParts_cons (first.isWellFormed hfirst) (others.areWellFormed hothers)
  | .any first others, hks => by
    obtain ⟨hfirst, hothers⟩ := List.forall_mem_append.1 hks
    rw [Condition.isWellFormed]
    exact areParts_cons (first.isWellFormed hfirst) (others.areWellFormed hothers)

theorem IsOthers.areWellFormed {word : Keyword} {ks : Phrase} {cs : List Condition} :
    IsOthers word ks cs → (∀ k ∈ ks, k.isSpellable = true) →
      cs ≠ [] ∧ Condition.areWellFormed cs = true
  | .last h, hks => by
    have hc := h.isWellFormed (List.forall_mem_cons.1 hks).2
    exact ⟨List.cons_ne_nil _ _, by simp [Condition.areWellFormed, hc]⟩
  | .cons h others, hks => by
    obtain ⟨hfirst, hothers⟩ := List.forall_mem_append.1 (List.forall_mem_cons.1 hks).2
    have hc := h.isWellFormed hfirst
    exact ⟨List.cons_ne_nil _ _,
      by simp [Condition.areWellFormed, hc, (others.areWellFormed hothers).2]⟩

theorem IsCondition.isWellFormed {ks : Phrase} {c : Condition} :
    IsCondition ks c → (∀ k ∈ ks, k.isSpellable = true) → c.isWellFormed = true
  | .compare field _ hvalue, hks => by
    simp only [List.forall_mem_cons] at hks
    obtain ⟨hname, -, hspellable, -⟩ := hks
    have hfield : Schema.isName field = true := hname
    have hv := isWellFormed_of_isLiteral hvalue hspellable
    rw [Condition.isWellFormed, hfield, hv, Bool.and_self]
  | .group h, hks =>
    h.isWellFormed (List.forall_mem_append.1 (List.forall_mem_cons.1 hks).2).1

end

theorem IsClause.isWellFormed {ks : Phrase} {c : Option Condition} (h : IsClause ks c)
    (hks : ∀ k ∈ ks, k.isSpellable = true) : c.all Condition.isWellFormed = true := by
  cases h with
  | none => rfl
  | some h => exact h.isWellFormed (List.forall_mem_cons.1 hks).2

theorem IsReference.isWellFormed {ks : Phrase} {ref : Reference} (h : IsReference ks ref)
    (hks : ∀ k ∈ ks, k.isSpellable = true) : ref.isWellFormed = true := by
  obtain ⟨entity, h⟩ := h
  obtain ⟨hentity, hks⟩ := List.forall_mem_cons.1 hks
  have hselector : ∀ {selector : Selector}, selector.isWellFormed = true →
      Reference.isWellFormed ⟨entity, selector⟩ = true := by
    intro selector hs
    exact Bool.and_eq_true_iff.2 ⟨hentity, hs⟩
  cases h with
  | id name => exact hselector (hks (.name name) (by simp))
  | conditions h =>
    exact hselector (h.isWellFormed (List.forall_mem_append.1 (List.forall_mem_cons.1 hks).2).1)
  | _ => exact hselector rfl

theorem IsSubject.isWellFormed {ks : Phrase} {who : Subject} (h : IsSubject ks who)
    (hks : ∀ k ∈ ks, k.isSpellable = true) : who.isWellFormed = true := by
  cases h with
  | self => rfl
  | reference h => exact h.isWellFormed hks

theorem IsNames.areNames {ks : Phrase} {names : List String} (h : IsNames ks names)
    (hks : ∀ k ∈ ks, k.isSpellable = true) : names ≠ [] ∧ names.all Schema.isName = true := by
  induction h with
  | one name => exact ⟨List.cons_ne_nil _ _, by simpa [Token.Kind.isSpellable] using hks⟩
  | cons name others ih =>
    obtain ⟨hname, hothers⟩ := List.forall_mem_cons.1 hks
    obtain ⟨-, hall⟩ := ih (List.forall_mem_cons.1 hothers).2
    exact ⟨List.cons_ne_nil _ _, Bool.and_eq_true_iff.2 ⟨hname, hall⟩⟩

theorem IsProjection.isWellFormed {ks : Phrase} {projection : Projection}
    (h : IsProjection ks projection) (hks : ∀ k ∈ ks, k.isSpellable = true) :
    projection.isWellFormed = true := by
  cases h with
  | fields h =>
    obtain ⟨hne, hall⟩ := h.areNames (List.forall_mem_cons.1 hks).2
    simp [Projection.isWellFormed, hne, hall]
  | _ => rfl

theorem IsSettings.areWellFormed {ks : Phrase} {settings : List Setting}
    (h : IsSettings ks settings) (hks : ∀ k ∈ ks, k.isSpellable = true) :
    settings ≠ [] ∧ settings.all Setting.isWellFormed = true := by
  induction h with
  | one field hvalue =>
    simp only [List.forall_mem_cons] at hks
    obtain ⟨hname, -, hspellable, -⟩ := hks
    have hfield : Schema.isName field = true := hname
    have hv := isWellFormed_of_isLiteral hvalue hspellable
    exact ⟨List.cons_ne_nil _ _, by simp [Setting.isWellFormed, hfield, hv]⟩
  | cons field hvalue others ih =>
    simp only [List.forall_mem_cons] at hks
    obtain ⟨hname, -, hspellable, -, hothers⟩ := hks
    have hfield : Schema.isName field = true := hname
    have hv := isWellFormed_of_isLiteral hvalue hspellable
    obtain ⟨-, hall⟩ := ih hothers
    exact ⟨List.cons_ne_nil _ _, by simp [Setting.isWellFormed, hfield, hv, hall]⟩

/-- **A phrase of tokens that have spellings denotes a statement that can be written.** -/
theorem IsStatement.isWellFormed {ks : Phrase} {s : Statement} (h : IsStatement ks s)
    (hks : ∀ k ∈ ks, k.isSpellable = true) : s.isWellFormed = true := by
  cases h with
  | get htarget hprojection hclause =>
    simp only [List.forall_mem_cons, List.forall_mem_append] at hks
    obtain ⟨-, ht, hp, hc⟩ := hks
    simp only [Statement.isWellFormed, htarget.isWellFormed ht, hprojection.isWellFormed hp,
      hclause.isWellFormed hc, Bool.and_self]
  | check permission hwho hresource =>
    simp only [List.forall_mem_cons, List.forall_mem_append] at hks
    obtain ⟨-, hw, -, hname, -, hr⟩ := hks
    have hpermission : Schema.isName permission = true := hname
    simp only [Statement.isWellFormed, hwho.isWellFormed hw, hpermission,
      hresource.isWellFormed hr, Bool.and_self]
  | grant permission hresource hwho | revoke permission hresource hwho =>
    simp only [List.forall_mem_cons, List.forall_mem_append] at hks
    obtain ⟨-, hname, -, hr, -, hw⟩ := hks
    have hpermission : Schema.isName permission = true := hname
    simp only [Statement.isWellFormed, hpermission, hresource.isWellFormed hr,
      hwho.isWellFormed hw, Bool.and_self]
  | update htarget hsettings hclause =>
    simp only [List.forall_mem_cons, List.forall_mem_append] at hks
    obtain ⟨-, ht, -, ha, hc⟩ := hks
    obtain ⟨hne, hall⟩ := hsettings.areWellFormed ha
    simp [Statement.isWellFormed, htarget.isWellFormed ht, hne, hall, hclause.isWellFormed hc]
  | delete htarget hclause =>
    simp only [List.forall_mem_cons, List.forall_mem_append] at hks
    obtain ⟨-, ht, hc⟩ := hks
    simp only [Statement.isWellFormed, htarget.isWellFormed ht, hclause.isWellFormed hc,
      Bool.and_self]

end Grammar

/-! ## Texts -/

/-- **Writing makes every text that is read canonical.** Whatever text a statement was read from,
    it can be written, its text is read as the same statement, and that has the same text. -/
theorem Statement.read_canonical {text : String} {s : Statement} (h : read text = .ok s) :
    s.isWellFormed = true ∧ read s.write = .ok s ∧
      (read s.write).map Statement.write = .ok s.write := by
  obtain ⟨tokens, htokens, hs⟩ := parse_eq_ok_iff.1 h
  have hwell : s.isWellFormed = true := hs.isWellFormed (isSpellable_of_tokenize htokens)
  have hread : read s.write = .ok s := parse_eq_ok_iff.2 (exists_tokens_write hwell)
  exact ⟨hwell, hread, congrArg (Except.map Statement.write) hread⟩

/-- A comment, parentheses, escapes, leading zeros and an exponent are gone from the text. -/
theorem Statement.read_canonical_spelled :
    let text := "DELETE Note -- old\n WHERE ((a=-007)) AND\t(b != \"x\\t\\\"\" OR (c = 15E-1))"
    ∃ s, read text = .ok s ∧
      s.write = "DELETE Note WHERE a = -7 AND (b != \"x\\t\\\"\" OR c = 1.5)" ∧
      s.isWellFormed = true ∧ read s.write = .ok s ∧
      (read s.write).map Statement.write = .ok s.write := by
  intro text
  have htext : (read text).map Statement.write =
      .ok "DELETE Note WHERE a = -7 AND (b != \"x\\t\\\"\" OR c = 1.5)" := by
    decide +kernel
  obtain ⟨s, hs, hwrite⟩ := map_eq_ok_iff.1 htext
  exact ⟨s, hs, hwrite, read_canonical hs⟩

end Warrant
