import Warrant.Proofs.Statement.Reading

/-!
# Errors at the first impossible token

Whatever a sequence of tokens and faults is refused for, it is the first item that cannot be used: the
tokens before it begin some statement, and it is a fault or a token that no statement goes on with. So
of a misplaced token and a lexical fault the one that comes first is reported, and what comes after it
makes no difference. A missing end counts as if it stood at the place of the last token.

## Main definitions

- `Token.Item.closed` — the items with an end
- `Statement.IsViable` — what begins a statement
- `Statement.Blames` — the item that an error is reported for

## Main statements

- `Statement.parse_blames` — every error is reported for the first item that cannot be used
-/

namespace Warrant

namespace Token.Item

/-- The items with an end. A missing one is placed where the last token is, or where the place says
    when there are no tokens. -/
def closed : Position → List Token.Item → List Token.Item
  | position, [] => [.ok (Parser.impliedFinish position)]
  | _, .ok token :: rest =>
    .ok token :: if token.kind = .finish then rest else closed token.position rest
  | position, .error fault :: rest => .error fault :: closed position rest

variable {token : Token} {rest : List Token.Item}

theorem closed_of_ne (position : Position) (h : token.kind ≠ .finish) :
    closed position (.ok token :: rest) = .ok token :: closed token.position rest := by
  rw [closed, if_neg h]

end Token.Item

namespace Parser

variable {p q : Parser} {ks : Phrase} {item : Token.Item} {tokens : List Token}
  {rest : List Token.Item} {e : ParseError}

open Token.Item

/-- What is met stands in the items after the tokens that were moved over. -/
theorem Meets.closed_items (h : Meets p ks item q) (position : Position) :
    ∃ (tokens : List Token) (rest : List Token.Item),
      closed position p.items = tokens.map .ok ++ item :: rest ∧
      tokens.map Token.kind = ks ∧ .finish ∉ ks := by
  induction h generalizing position with
  | token p => exact ⟨[], _, rfl, rfl, List.not_mem_nil⟩
  | @fault p fault rest hne hrest =>
    refine ⟨[p.current], closed p.current.position rest, ?_, rfl, ?_⟩
    · rw [items, hrest, closed_of_ne position hne]
      rfl
    · rwa [List.mem_singleton, eq_comm]
  | @step p q r ks item hne hadvance _ ih =>
    obtain ⟨tokens, rest, hitems, rfl, hfinish⟩ := ih p.current.position
    refine ⟨p.current :: tokens, rest, ?_, rfl, ?_⟩
    · rw [items, closed_of_ne position hne, List.map_cons, List.cons_append, ← hitems]
      rcases (yields_advance_iff hne).1 hadvance with ⟨hrest, rfl⟩ | hrest
      · rw [hrest]
        rfl
      · rw [hrest]
    · rw [List.mem_cons, not_or]
      exact ⟨hne.symm, hfinish⟩

/-- An item after tokens is met, unless it is a fault and no token comes before it. -/
theorem exists_meets (hitems : p.items = tokens.map .ok ++ item :: rest)
    (hfinish : .finish ∉ tokens.map Token.kind) : ∃ q, Meets p (tokens.map Token.kind) item q := by
  induction tokens generalizing p with
  | nil =>
    obtain rfl := (List.cons.inj hitems).1
    exact ⟨p, .token p⟩
  | cons token tokens ih =>
    obtain ⟨hcurrent, hrest⟩ := List.cons.inj hitems
    obtain rfl := Except.ok.inj hcurrent
    rw [List.map_cons, List.mem_cons, not_or] at hfinish
    obtain ⟨hne, hfinish⟩ := hfinish
    cases hp : p.rest with
    | nil =>
      rw [hp] at hrest
      exact absurd hrest.symm (List.append_ne_nil_of_right_ne_nil _ (List.cons_ne_nil _ _))
    | cons next others =>
      cases next with
      | ok token =>
        have hadvance : Yields advance p () ⟨token, others⟩ :=
          (yields_advance_iff (Ne.symm hne)).2 (.inr hp)
        obtain ⟨q, hq⟩ := ih (p := ⟨token, others⟩) (hp.symm.trans hrest) hfinish
        exact ⟨q, .step (Ne.symm hne) hadvance hq⟩
      | error fault =>
        -- A fault is no token, so it is the item.
        rw [hp] at hrest
        cases tokens with
        | cons token tokens => exact nomatch (List.cons.inj hrest).1
        | nil =>
          obtain rfl := (List.cons.inj hrest).1
          exact ⟨_, .fault (Ne.symm hne) hp⟩

end Parser

namespace Statement

open Token.Item Grammar

/-- **Kinds of tokens that begin a statement.** Some tokens of these kinds are parsed with something
    after them. -/
def IsViable (ks : Phrase) : Prop :=
  ∃ (tokens : List Token) (rest : List Token.Item) (s : Statement),
    tokens.map Token.kind = ks ∧ parse (tokens.map .ok ++ rest) = .ok s

theorem IsViable.of_append {ks ls : Phrase} (h : IsViable (ks ++ ls)) : IsViable ks := by
  obtain ⟨tokens, rest, s, hkinds, hparse⟩ := h
  obtain ⟨before, after, rfl, rfl, rfl⟩ := List.map_eq_append_iff.1 hkinds
  refine ⟨before, after.map .ok ++ rest, s, rfl, ?_⟩
  rwa [← List.append_assoc, ← List.map_append]

/-- What begins a phrase of a statement begins a statement. -/
theorem IsViable.of_mem_phrases {ks ls : Phrase} (h : ks ++ ls ∈ Parser.phrases IsStatement) :
    IsViable ks := by
  obtain ⟨s, hs⟩ := h
  have hparse := parse_eq_ok_iff.2 (exists_tokens_bare hs)
  have hviable : IsViable (ks ++ ls) := by
    refine ⟨(ks ++ ls).map fun k => ⟨k, "", .start⟩, [], s, ?_, ?_⟩
    · rw [List.map_map]
      exact List.map_id _
    · rwa [List.append_nil, List.map_map]
  exact hviable.of_append

/-- **An item that an error is reported for** after tokens of some kinds: a token that does not go on
    with them, or a fault. -/
inductive IsBlamed (ks : Phrase) : Token.Item → ParseError → Prop
  | misplaced {token : Token} (expected : Expectation) (h : ¬ IsViable (ks ++ [token.kind])) :
    IsBlamed ks (.ok token) (.syntactic ⟨token.position, expected, token.kind⟩)
  | fault (fault : LexError) : IsBlamed ks (.error fault) (.lexical fault)

/-- **The error of some items is reported for an item among them**, after some tokens. -/
structure Blames (items : List Token.Item) (e : ParseError) (tokens : List Token)
    (item : Token.Item) : Prop where
  exists_rest : ∃ rest, closed .start items = tokens.map .ok ++ item :: rest
  /-- The end is not one of the tokens before. -/
  finish_not_mem : .finish ∉ tokens.map Token.kind
  viable : IsViable (tokens.map Token.kind)
  blamed : IsBlamed (tokens.map Token.kind) item e
  /-- No other item could be reported. -/
  unique : ∀ tokens' item' rest' e', closed .start items = tokens'.map .ok ++ item' :: rest' →
    IsViable (tokens'.map Token.kind) → IsBlamed (tokens'.map Token.kind) item' e' →
    tokens' = tokens ∧ item' = item
  /-- What comes after the item makes no difference. -/
  parse_eq : ∀ rest, parse (tokens.map .ok ++ item :: rest) = .error e

variable {items rest rest' : List Token.Item} {item item' : Token.Item} {tokens tokens' : List Token}
  {e e' : ParseError}

/-- An item after fewer tokens is one of the tokens. -/
theorem exists_of_length_lt
    (hitems : tokens.map .ok ++ item :: rest = tokens'.map .ok ++ item' :: rest')
    (hlt : tokens.length < tokens'.length) :
    ∃ token more, item = .ok token ∧ tokens' = tokens ++ token :: more := by
  induction tokens generalizing tokens' with
  | nil =>
    cases tokens' with
    | nil => exact absurd hlt (Nat.lt_irrefl 0)
    | cons token more => exact ⟨token, more, (List.cons.inj hitems).1, rfl⟩
  | cons first tokens ih =>
    cases tokens' with
    | nil => exact absurd hlt (Nat.not_lt_zero _)
    | cons first' tokens' =>
      obtain ⟨hfirst, hothers⟩ := List.cons.inj hitems
      obtain rfl := Except.ok.inj hfirst
      obtain ⟨token, more, rfl, rfl⟩ := ih hothers (Nat.lt_of_succ_lt_succ hlt)
      exact ⟨token, more, rfl, rfl⟩

/-- An item that is blamed is not one of other tokens that begin a statement. -/
theorem IsBlamed.length_le (h : IsBlamed (tokens.map Token.kind) item e)
    (hviable : IsViable (tokens'.map Token.kind))
    (hitems : tokens.map .ok ++ item :: rest = tokens'.map .ok ++ item' :: rest') :
    tokens'.length ≤ tokens.length := by
  by_contra hlt
  obtain ⟨token, more, rfl, rfl⟩ := exists_of_length_lt hitems (Nat.lt_of_not_le hlt)
  cases h with
  | misplaced _ hnot =>
    rw [List.map_append, List.map_cons, List.append_cons] at hviable
    exact hnot hviable.of_append

/-- **Only one item can be blamed** after tokens that begin a statement. -/
theorem IsBlamed.unique (h : IsBlamed (tokens.map Token.kind) item e)
    (h' : IsBlamed (tokens'.map Token.kind) item' e') (hviable : IsViable (tokens.map Token.kind))
    (hviable' : IsViable (tokens'.map Token.kind))
    (hitems : tokens.map .ok ++ item :: rest = tokens'.map .ok ++ item' :: rest') :
    tokens' = tokens ∧ item' = item := by
  have hle := h.length_le hviable' hitems
  have hge := h'.length_le hviable hitems.symm
  obtain ⟨htokens, hrest⟩ := List.append_inj hitems (by
    rw [List.length_map, List.length_map]
    exact hge.antisymm hle)
  have hinjective : Function.Injective (Except.ok : Token → Token.Item) := fun _ _ => Except.ok.inj
  exact ⟨(hinjective.list_map htokens).symm, (List.cons.inj hrest).1.symm⟩

theorem run_eq_error_iff {p : Parser} : (Parser.run Parser.statement p).1 = .error e ↔
    ∃ q, Parser.Fails Parser.statement p e q := by
  unfold Parser.run Parser.Fails EStateM.run
  cases Parser.statement p with
  | ok a q => simp
  | error e q => simp

/-- Where a parser of some items stands before an item that can be met. -/
theorem exists_ofItems (hitem : tokens = [] → item.kind? ≠ none)
    (hfinish : .finish ∉ tokens.map Token.kind) (rest : List Token.Item) :
    ∃ p q, Parser.ofItems (tokens.map .ok ++ item :: rest) = .ok p ∧
      Parser.Meets p (tokens.map Token.kind) item q := by
  obtain ⟨token, others, hitems⟩ : ∃ token others,
      tokens.map .ok ++ item :: rest = (.ok token :: others : List Token.Item) := by
    cases tokens with
    | cons token tokens => exact ⟨token, _, rfl⟩
    | nil =>
      cases item with
      | ok token => exact ⟨token, rest, rfl⟩
      | error fault => exact absurd rfl (hitem rfl)
  obtain ⟨q, hmeets⟩ := Parser.exists_meets (p := ⟨token, others⟩) hitems.symm hfinish
  exact ⟨⟨token, others⟩, q, congrArg Parser.ofItems hitems, hmeets⟩

/-- What the parser fails for at an item, it fails for at every item of the kind after the same
    kinds of tokens. -/
theorem parse_eq_error_of_rejects {expected : Expectation}
    (hrejects : Parser.Rejects Parser.statement (tokens.map Token.kind) item.kind? expected)
    (hitem : tokens = [] → item.kind? ≠ none) (hfinish : .finish ∉ tokens.map Token.kind)
    (rest : List Token.Item) :
    parse (tokens.map .ok ++ item :: rest) = .error (item.blame expected) := by
  obtain ⟨p, q, hp, hmeets⟩ := exists_ofItems hitem hfinish rest
  have hfails := hrejects p item q hmeets rfl
  unfold parse
  rw [hp]
  exact run_eq_error_iff.2 ⟨q, hfails⟩

/-- A kind of token that the parser fails for begins no statement after the kinds before it. -/
theorem not_isViable_of_rejects {ks : Phrase} {k : Token.Kind} {expected : Expectation}
    (hrejects : Parser.Rejects Parser.statement ks (some k) expected) (hfinish : .finish ∉ ks) :
    ¬ IsViable (ks ++ [k]) := by
  rintro ⟨tokens, rest, s, hkinds, hparse⟩
  obtain ⟨before, last, rfl, rfl, hlast⟩ := List.map_eq_append_iff.1 hkinds
  obtain ⟨token, _, rfl, rfl, hnil⟩ := List.map_eq_cons_iff.1 hlast
  obtain rfl := List.map_eq_nil_iff.1 hnil
  have htoken : before = [] → kind? (.ok token) ≠ none := fun _ => nofun
  have herror := parse_eq_error_of_rejects hrejects htoken hfinish rest
  rw [List.map_append, List.append_assoc] at hparse
  exact nomatch hparse.symm.trans herror

theorem Blames.of_isBlamed (hitems : closed .start items = tokens.map .ok ++ item :: rest)
    (hfinish : .finish ∉ tokens.map Token.kind) (hviable : IsViable (tokens.map Token.kind))
    (hblamed : IsBlamed (tokens.map Token.kind) item e)
    (hparse : ∀ rest, parse (tokens.map .ok ++ item :: rest) = .error e) :
    Blames items e tokens item := by
  refine ⟨⟨rest, hitems⟩, hfinish, hviable, hblamed, ?_, hparse⟩
  intro tokens' item' rest' e' hitems' hviable' hblamed'
  exact hblamed.unique hblamed' hviable hviable' (hitems.symm.trans hitems')

/-- An error of a parser is reported for an item that it has not used. -/
theorem exists_blames_of_fails {p q : Parser} (h : Parser.Fails Parser.statement p e q)
    (hp : closed .start items = closed .start p.items) :
    ∃ tokens item, Blames items e tokens item := by
  obtain ⟨ks, item, expected, hmeets, rfl, hrejects, ls, hls⟩ :=
    (Parser.reads_statement p).fails e q h
  obtain ⟨tokens, rest, hitems, rfl, hfinish⟩ := hmeets.closed_items .start
  have hitem : tokens = [] → item.kind? ≠ none := by
    rintro rfl
    rw [(Parser.meets_nil_iff.1 hmeets).1]
    exact nofun
  have hblamed : IsBlamed (tokens.map Token.kind) item (item.blame expected) := by
    cases item with
    | ok token => exact .misplaced expected (not_isViable_of_rejects hrejects hfinish)
    | error fault => exact .fault fault
  exact ⟨tokens, item, .of_isBlamed (hp.trans hitems) hfinish (.of_mem_phrases hls) hblamed
    (parse_eq_error_of_rejects hrejects hitem hfinish)⟩

/-- **Errors are reported at the first item that cannot be used.** The tokens before it begin some
    statement; it is a fault, which is reported as it is, or a token that no statement goes on with,
    which is reported with its place. No other item has this property, and what comes after the item
    makes no difference. -/
theorem parse_blames (h : parse items = .error e) : ∃ tokens item, Blames items e tokens item := by
  unfold parse at h
  cases items with
  | nil =>
    obtain ⟨q, hfails⟩ := run_eq_error_iff.1 h
    exact exists_blames_of_fails hfails rfl
  | cons item rest =>
    cases item with
    | ok token =>
      obtain ⟨q, hfails⟩ := run_eq_error_iff.1 h
      exact exists_blames_of_fails hfails rfl
    | error fault =>
      -- No parser starts at a fault.
      obtain rfl : .lexical fault = e := Except.error.inj h
      obtain ⟨ks, hks⟩ := (Parser.reads_statement ⟨Parser.impliedFinish .start, []⟩).exists_mem
      have hbegins : ([] : Phrase) ++ ks ∈ Parser.phrases IsStatement := hks
      have hviable : IsViable [] := .of_mem_phrases hbegins
      exact ⟨[], .error fault,
        .of_isBlamed rfl List.not_mem_nil hviable (.fault fault) fun _ => rfl⟩

/-- A name stands where a literal could, before a fault, and is reported. -/
theorem parse_blames_name_before_fault :
    parse (bare [.keyword .delete, .name "Note", .keyword .whereWord, .name "a", .sign .equal,
      .name "b"] ++ [.error ⟨.start, .unterminatedString⟩]) =
      .error (.syntactic ⟨.start, .literal, .name "b"⟩) ∧
    ∃ tokens item, Blames (bare [.keyword .delete, .name "Note", .keyword .whereWord, .name "a",
      .sign .equal, .name "b"] ++ [.error ⟨.start, .unterminatedString⟩])
      (.syntactic ⟨.start, .literal, .name "b"⟩) tokens item :=
  ⟨rfl, parse_blames rfl⟩

end Statement

end Warrant
