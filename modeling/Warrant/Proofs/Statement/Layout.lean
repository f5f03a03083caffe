import Warrant.Proofs.Statement.Prefixes
import Warrant.Proofs.Token.Tiling

/-!
# Layout makes no difference

The texts of some tokens, with any blanks and comments between them, are taken apart into tokens of
the same kinds again, and these are parsed into the same statement or refused for the same reason.
Only places may differ. A token never looks further than to the gap behind it, so all that is needed
of a gap is that it is not empty.

## Main definitions

- `IsLayout` — the texts of tokens with gaps between them
- `Statement.Agrees` — two results that are the same but for places

## Main statements

- `Lexer.handsOut_of_isLayout` — a layout is taken apart into its tokens
- `Statement.parse_agrees` — parsing looks at nothing but the kinds of tokens
- `Statement.read_layout` — layout makes no difference
-/

namespace Warrant

open Lexeme (IsToken Stops)
open Trivia (IsGap IsTail)

/-! ## Layouts -/

/-- **What may stand behind a token**: other tokens, each behind a gap that is not empty, and blanks
    and comments at the end. -/
inductive IsSpaced : List (List Char) → List Char → Prop
  | nil {gap : List Char} (hgap : IsTail gap) : IsSpaced [] gap
  | cons {gap text rest : List Char} {texts : List (List Char)} (hne : gap ≠ []) (hgap : IsGap gap)
    (h : IsSpaced texts rest) : IsSpaced (text :: texts) (gap ++ (text ++ rest))

/-- **A layout of some tokens.** Before the first of them there may be a gap or none. -/
inductive IsLayout : List (List Char) → List Char → Prop
  | nil {gap : List Char} (hgap : IsTail gap) : IsLayout [] gap
  | cons {gap text rest : List Char} {texts : List (List Char)} (hgap : IsGap gap)
    (h : IsSpaced texts rest) : IsLayout (text :: texts) (gap ++ (text ++ rest))

namespace Lexeme

theorem not_continuesName_of_isBlank {c : Char} (h : Text.isBlank c = true) :
    continuesName c = false := by
  by_contra hcontinues
  have hblank := Trivia.isBlank_of_continuesName (Bool.not_eq_false _ ▸ hcontinues)
  exact Bool.false_ne_true (hblank.symm.trans h)

theorem stops_blank {c : Char} (hc : Text.isBlank c = true) (rest : List Char) :
    Stops (c :: rest) := by
  rintro _ ⟨⟩
  refine ⟨not_continuesName_of_isBlank hc, ?_⟩
  rintro rfl
  exact absurd hc (by decide)

theorem stops_hyphen (rest : List Char) : Stops ('-' :: rest) := by
  rintro _ ⟨⟩
  decide

theorem stops_of_isGap {gap : List Char} (h : IsGap gap) (hne : gap ≠ []) (rest : List Char) :
    Stops (gap ++ rest) := by
  cases h with
  | nil => exact absurd rfl hne
  | blank hc => exact stops_blank hc _
  | comment => exact stops_hyphen _

theorem stops_of_isTail {gap : List Char} (h : IsTail gap) : Stops gap := by
  cases h with
  | gap h =>
    cases h with
    | nil => exact nofun
    | blank hc => exact stops_blank hc _
    | comment => exact stops_hyphen _
  | comment h =>
    cases h with
    | nil => exact stops_hyphen _
    | blank hc => exact stops_blank hc _
    | comment => exact stops_hyphen _

/-- No token goes on with what stands behind it in a layout. -/
theorem stops_of_isSpaced {texts : List (List Char)} {rest : List Char} (h : IsSpaced texts rest) :
    Stops rest := by
  cases h with
  | nil hgap => exact stops_of_isTail hgap
  | cons hne hgap => exact stops_of_isGap hgap hne _

theorem visible_of_sign? {c : Char} {s : Sign} (h : sign? c = some s) :
    Text.isBlank c = false ∧ c ≠ '-' := by
  unfold sign? at h
  split_ifs at h <;> subst c <;> decide

end Lexeme

/-- No token starts with a blank or a comment. -/
theorem Trivia.length_of_isToken {text : List Char} {kind : Token.Kind} (h : IsToken text kind)
    (rest : List Char) : length (text ++ rest) = 0 := by
  cases h with
  | sign h =>
    obtain ⟨hblank, hhyphen⟩ := Lexeme.visible_of_sign? h
    exact length_of_visible hblank fun hc => absurd hc hhyphen
  | different | string => exact length_of_visible (by decide) nofun
  | number hds =>
    have hstarts := Lexeme.startsNumber_of_isDigits hds
    rw [List.append_assoc, List.append_assoc]
    exact length_of_startsNumber ((hstarts _).append _)
  | word h => exact length_of_isWord h rest

/-! ## The tokens of a layout -/

namespace Lexer

/-- **A lexer hands out tokens of some kinds** and then the end. -/
def HandsOut (l : Lexer) (bound : Nat) (kinds : Phrase) : Prop :=
  ∃ tokens : List Token, l.items bound = tokens.map .ok ∧ tokens.map Token.kind = kinds ++ [.finish]

variable {bound : Nat} {before gap text rest : List Char} {texts : List (List Char)}
  {kind : Token.Kind} {kinds : Phrase}

/-- Blanks and comments are followed by the end. -/
theorem handsOut_of_isTail (hgap : IsTail gap) :
    HandsOut ⟨gap, Position.start.after before⟩ (bound + 1) [] := by
  have hnext := @next_append before gap [] (by rw [List.append_nil, hgap.length_eq])
  rw [List.append_nil] at hnext
  refine ⟨[⟨.finish, "", Position.start.after (before ++ gap)⟩], ?_, rfl⟩
  rw [items, hnext]
  rfl

/-- A token is handed out behind a gap, when nothing behind the token could go on with it. -/
theorem handsOut_cons (hgap : IsGap gap) (htext : IsToken text kind) (hrest : Stops rest)
    (h : HandsOut ⟨rest, Position.start.after (before ++ gap ++ text)⟩ bound kinds) :
    HandsOut ⟨gap ++ (text ++ rest), Position.start.after before⟩ (bound + 1) (kind :: kinds) := by
  have hlength : Trivia.length (gap ++ (text ++ rest)) = gap.length := by
    rw [hgap.length_append, Trivia.length_of_isToken htext, Nat.add_zero]
  obtain ⟨tokens, hitems, hkinds⟩ := h
  refine ⟨⟨kind, String.ofList text, Position.start.after (before ++ gap)⟩ :: tokens, ?_, ?_⟩
  · rw [items, next_append hlength, Lexeme.scan_of_isToken htext hrest]
    simp only [List.take_left, List.drop_left, if_neg htext.ne_finish, hitems, List.map_cons]
  · rw [List.map_cons, hkinds, List.cons_append]

theorem handsOut_of_isSpaced (hkinds : List.Forall₂ IsToken texts kinds) (h : IsSpaced texts rest)
    (hbound : rest.length < bound) :
    HandsOut ⟨rest, Position.start.after before⟩ bound kinds := by
  induction h generalizing kinds bound before with
  | nil hgap =>
    cases hkinds
    obtain ⟨bound, rfl⟩ := Nat.exists_eq_add_one_of_ne_zero (Nat.ne_zero_of_lt hbound)
    exact handsOut_of_isTail hgap
  | cons hne hgap h ih =>
    cases hkinds with
    | cons htext hkinds =>
      obtain ⟨bound, rfl⟩ := Nat.exists_eq_add_one_of_ne_zero (Nat.ne_zero_of_lt hbound)
      have hpos := List.length_pos_of_ne_nil htext.ne_nil
      simp only [List.length_append] at hbound
      exact handsOut_cons hgap htext (Lexeme.stops_of_isSpaced h) (ih hkinds (by omega))

/-- **A layout is taken apart into its tokens**, whatever the gaps are. -/
theorem handsOut_of_isLayout (hkinds : List.Forall₂ IsToken texts kinds)
    (h : IsLayout texts rest) : HandsOut ⟨rest, Position.start⟩ (rest.length + 1) kinds := by
  cases h with
  | nil hgap =>
    cases hkinds
    exact @handsOut_of_isTail _ [] _ hgap
  | cons hgap h =>
    cases hkinds with
    | cons htext hkinds =>
      have hpos := List.length_pos_of_ne_nil htext.ne_nil
      refine @handsOut_cons _ [] _ _ _ _ _ hgap htext (Lexeme.stops_of_isSpaced h) ?_
      refine handsOut_of_isSpaced hkinds h ?_
      simp only [List.length_append]
      omega

end Lexer

/-- **Tiles without a fault** are tokens, each with its characters, and the end. -/
theorem Tiles.forall₂_isToken {before rest : List Char} {items : List Token.Item}
    (h : Tiles before rest items) {tokens : List Token} (hitems : items = tokens.map .ok) :
    List.Forall₂ IsToken (tokens.dropLast.map (·.text.toList)) (tokens.dropLast.map Token.kind) ∧
      tokens.map Token.kind = tokens.dropLast.map Token.kind ++ [.finish] := by
  induction h generalizing tokens with
  | finish =>
    obtain ⟨token, others, rfl, htoken, hothers⟩ := List.map_eq_cons_iff.1 hitems.symm
    obtain rfl := List.map_eq_nil_iff.1 hothers
    obtain rfl := Except.ok.inj htoken
    exact ⟨.nil, rfl⟩
  | @token before gap text rest kind items hgap htext h ih =>
    obtain ⟨token, others, rfl, htoken, hothers⟩ := List.map_eq_cons_iff.1 hitems.symm
    obtain rfl := Except.ok.inj htoken
    obtain ⟨hforall, hkinds⟩ := ih hothers.symm
    have hne : others ≠ [] := by
      rintro rfl
      simp at hkinds
    rw [List.dropLast_cons_of_ne_nil hne]
    simp only [List.map_cons, hkinds, String.toList_ofList]
    exact ⟨.cons htext hforall, rfl⟩
  | fault =>
    obtain ⟨token, others, rfl, htoken, -⟩ := List.map_eq_cons_iff.1 hitems.symm
    exact nomatch htoken

/-! ## The statement of a layout -/

namespace Statement

open Token.Item Grammar

/-- **Two results are the same but for places**: the same statement, or a misplaced token where the
    same could have stood. -/
inductive Agrees : Except ParseError Statement → Except ParseError Statement → Prop
  | ok (s : Statement) : Agrees (.ok s) (.ok s)
  | error (p p' : Position) (expected : Expectation) (found : Token.Kind) :
    Agrees (.error (.syntactic ⟨p, expected, found⟩)) (.error (.syntactic ⟨p', expected, found⟩))

variable {tokens tokens' : List Token} {e : ParseError}

theorem ok_injective : Function.Injective (Except.ok : Token → Token.Item) :=
  fun _ _ => Except.ok.inj

theorem beforeFinish_map_ok (tokens : List Token) :
    beforeFinish (tokens.map .ok) = (tokens.takeWhile (·.kind ≠ .finish)).map .ok := by
  rw [beforeFinish, List.takeWhile_map]
  congr 2
  funext token
  simp [isFinish]

theorem map_kind_takeWhile (tokens : List Token) :
    (tokens.takeWhile (·.kind ≠ .finish)).map Token.kind =
      (tokens.map Token.kind).takeWhile (· ≠ .finish) := by
  rw [List.takeWhile_map]
  rfl

/-- Where an end is, none is missing. -/
theorem closed_map_ok (hfinish : .finish ∈ tokens.map Token.kind) (position : Position) :
    closed position (tokens.map .ok) = tokens.map .ok := by
  induction tokens generalizing position with
  | nil => exact absurd hfinish List.not_mem_nil
  | cons token tokens ih =>
    rw [List.map_cons, List.mem_cons] at hfinish
    rw [List.map_cons, closed]
    split_ifs with hkind
    · rfl
    · rw [ih (hfinish.resolve_left (Ne.symm hkind))]

/-- An error is reported for a token, and for its kind after the kinds before it. -/
theorem exists_rejects_of_error (hfinish : .finish ∈ tokens.map Token.kind)
    (h : parse (tokens.map .ok) = .error e) : ∃ before token after expected,
      tokens = before ++ token :: after ∧ .finish ∉ before.map Token.kind ∧
      e = .syntactic ⟨token.position, expected, token.kind⟩ ∧
      Parser.Rejects Parser.statement (before.map Token.kind) (some token.kind) expected := by
  have hclosed := closed_map_ok hfinish .start
  cases tokens with
  | nil => exact absurd hfinish List.not_mem_nil
  | cons first others =>
    obtain ⟨q, hfails⟩ := run_eq_error_iff.1 h
    obtain ⟨ks, item, expected, hmeets, rfl, hrejects, -⟩ :=
      (Parser.reads_statement ⟨first, others.map .ok⟩).fails e q hfails
    obtain ⟨before, rest, hitems, rfl, hbefore⟩ := hmeets.closed_items .start
    obtain ⟨before', more, htokens, hbefore', hmore⟩ :=
      List.map_eq_append_iff.1 (hclosed.symm.trans hitems)
    obtain ⟨token, after, rfl, rfl, -⟩ := List.map_eq_cons_iff.1 hmore
    obtain rfl := ok_injective.list_map hbefore'
    exact ⟨before', token, after, expected, htokens, hbefore, rfl, hrejects⟩

/-- **Parsing looks at nothing but the kinds of tokens.** -/
theorem parse_agrees (hkinds : tokens'.map Token.kind = tokens.map Token.kind)
    (hfinish : .finish ∈ tokens.map Token.kind) :
    Agrees (parse (tokens.map .ok)) (parse (tokens'.map .ok)) := by
  cases hparse : parse (tokens.map .ok) with
  | ok s =>
    obtain ⟨before, hbefore, hs⟩ := parse_eq_ok_iff.1 hparse
    rw [beforeFinish_map_ok] at hbefore
    obtain rfl := ok_injective.list_map hbefore
    have hparse' : parse (tokens'.map .ok) = .ok s := by
      refine parse_eq_ok_iff.2 ⟨_, beforeFinish_map_ok tokens', ?_⟩
      rwa [map_kind_takeWhile, hkinds, ← map_kind_takeWhile]
    rw [hparse']
    exact .ok s
  | error e =>
    obtain ⟨before, token, after, expected, rfl, hbefore, rfl, hrejects⟩ :=
      exists_rejects_of_error hfinish hparse
    rw [List.map_append, List.map_cons] at hkinds
    obtain ⟨before', more, rfl, hbefore', hmore⟩ := List.map_eq_append_iff.1 hkinds
    obtain ⟨token', after', rfl, htoken, -⟩ := List.map_eq_cons_iff.1 hmore
    rw [← hbefore', ← htoken] at hrejects
    rw [← hbefore'] at hbefore
    have htoken' : before' = [] → kind? (.ok token') ≠ none := fun _ => nofun
    have hparse' := parse_eq_error_of_rejects hrejects htoken' hbefore (after'.map .ok)
    rw [List.map_append, List.map_cons, hparse', ← htoken]
    exact .error _ _ expected _

/-- **Layout makes no difference.** When the texts of the tokens of a text are written down again
    with any gaps between them, the same kinds of tokens are read, and the same statement is, or the
    same is missing. -/
theorem read_layout {s t : String} {tokens : List Token} (hs : tokenize s = tokens.map .ok)
    (ht : IsLayout (tokens.dropLast.map (·.text.toList)) t.toList) :
    (∃ tokens' : List Token, tokenize t = tokens'.map .ok ∧
      tokens'.map Token.kind = tokens.map Token.kind) ∧ Agrees (read s) (read t) := by
  obtain ⟨hforall, hkinds⟩ := (tiles_tokenize s).forall₂_isToken hs
  obtain ⟨tokens', ht', hkinds'⟩ := Lexer.handsOut_of_isLayout hforall ht
  have heq := hkinds'.trans hkinds.symm
  have hfinish : .finish ∈ tokens.map Token.kind := by
    rw [hkinds]
    exact List.mem_append_right _ List.mem_cons_self
  refine ⟨⟨tokens', ht', heq⟩, ?_⟩
  rw [read, read, hs, show tokenize t = _ from ht']
  exact parse_agrees heq hfinish

/-- A comment stands between two tokens that had nothing between them. -/
theorem read_layout_of_comment :
    (read "DELETE A.*").isOk = true ∧
      Agrees (read "DELETE A.*") (read "DELETE A--.\n. * --") := by
  have hs : tokenize "DELETE A.*" = List.map Except.ok
      [⟨.keyword .delete, "DELETE", ⟨0, 1, 1⟩⟩, ⟨.name "A", "A", ⟨7, 1, 8⟩⟩,
        ⟨.sign .dot, ".", ⟨8, 1, 9⟩⟩, ⟨.sign .asterisk, "*", ⟨9, 1, 10⟩⟩,
        ⟨.finish, "", ⟨10, 1, 11⟩⟩] := by decide +kernel
  have hspaced : IsSpaced [['A'], ['.'], ['*']] (" A--.\n. * --".toList) := by
    have htext : " A--.\n. * --".toList =
        [' ', 'A', '-', '-', '.', '\n', '.', ' ', '*', ' ', '-', '-'] := by decide +kernel
    rw [htext]
    exact .cons (List.cons_ne_nil _ _) (.blank (by decide) .nil) <|
      .cons (List.cons_ne_nil _ _) (@IsGap.comment ['.'] [] (by decide) .nil) <|
      .cons (List.cons_ne_nil _ _) (.blank (by decide) .nil) <|
      .nil (.comment (.blank (by decide) .nil) List.not_mem_nil)
  refine ⟨by decide +kernel, (read_layout hs ?_).2⟩
  have htext : "DELETE A--.\n. * --".toList =
      [] ++ (['D', 'E', 'L', 'E', 'T', 'E'] ++ " A--.\n. * --".toList) := by decide +kernel
  rw [htext]
  exact .cons .nil hspaced

end Statement

end Warrant
