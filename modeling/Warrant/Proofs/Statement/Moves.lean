import Warrant.Proofs.Statement.Grammar

/-!
# How a parser moves

A parser that succeeds has moved over some tokens and stands at the next one. What it has moved over
is a phrase, and the end is never part of it. Every action is described by the phrases that it moves
over, so that proofs about the parser need not look at the items.

## Main definitions

- `Parser.Yields` — an action succeeds
- `Parser.Moves` — a parser moves over a phrase

## Main statements

- `Parser.yields_expect_iff`, `Parser.yields_name_iff`, `Parser.yields_literal_iff`,
  `Parser.yields_comparison_iff` — the actions that move over single tokens
- `Parser.exists_moves_finish_iff` — the phrase before the end
-/

namespace Warrant.Parser

open Grammar

variable {α β : Type} {p q r : Parser} {ks ls : Phrase} {k : Token.Kind}

/-! ## Actions that succeed -/

/-- **An action succeeds** with a result, and leaves the parser where it says. -/
def Yields (action : Action α) (p : Parser) (a : α) (q : Parser) : Prop :=
  action p = .ok a q

theorem yields_pure {a : α} : Yields (pure a) p a p :=
  rfl

@[simp]
theorem yields_pure_iff {a b : α} : Yields (pure a) p b q ↔ b = a ∧ q = p := by
  constructor
  · intro h
    cases h
    exact ⟨rfl, rfl⟩
  · rintro ⟨rfl, rfl⟩
    rfl

theorem yields_bind_iff {x : Action α} {f : α → Action β} {b : β} :
    Yields (x >>= f) p b r ↔ ∃ a q, Yields x p a q ∧ Yields (f a) q b r := by
  change (EStateM.bind x f p = .ok b r) ↔ _
  unfold EStateM.bind
  cases hx : x p with
  | ok a q =>
    constructor
    · exact fun h => ⟨a, q, hx, h⟩
    · rintro ⟨a', q', hx', h⟩
      cases hx.symm.trans hx'
      exact h
  | error e q =>
    constructor
    · exact nofun
    · rintro ⟨a', q', hx', -⟩
      exact nomatch hx.symm.trans hx'

theorem Yields.bind {x : Action α} {f : α → Action β} {a : α} {b : β} (hx : Yields x p a q)
    (hf : Yields (f a) q b r) : Yields (x >>= f) p b r :=
  yields_bind_iff.2 ⟨a, q, hx, hf⟩

/-- To look at the current token moves nothing. -/
theorem yields_peek_bind_iff {f : Token.Kind → Action β} {b : β} :
    Yields (peek >>= f) p b r ↔ Yields (f p.current.kind) p b r :=
  Iff.rfl

theorem yields_get_bind_iff {f : Parser → Action β} {b : β} :
    Yields (get >>= f) p b r ↔ Yields (f p) p b r :=
  Iff.rfl

@[simp]
theorem not_yields_unexpected {e : Expectation} {a : α} : ¬ Yields (unexpected e) p a q :=
  nofun

/-! ## Phrases -/

/-- **A parser moves over a phrase**, one token after another, and never over the end. -/
inductive Moves : Parser → Phrase → Parser → Prop
  | stay (p : Parser) : Moves p [] p
  | step {p q r : Parser} {ks : Phrase} (hne : p.current.kind ≠ .finish)
    (hadvance : Yields advance p () q) (hmoves : Moves q ks r) :
    Moves p (p.current.kind :: ks) r

@[simp]
theorem moves_nil_iff : Moves p [] q ↔ q = p := by
  constructor
  · rintro ⟨⟩
    rfl
  · rintro rfl
    exact .stay _

theorem moves_cons_iff :
    Moves p (k :: ks) r ↔ ∃ q, Moves p [k] q ∧ Moves q ks r := by
  constructor
  · intro h
    cases h with
    | step hne hadvance hmoves => exact ⟨_, .step hne hadvance (.stay _), hmoves⟩
  · rintro ⟨q, h, hmoves⟩
    cases h with
    | step hne hadvance hstay =>
      cases hstay
      exact .step hne hadvance hmoves

theorem moves_singleton_iff :
    Moves p [k] q ↔ p.current.kind = k ∧ k ≠ .finish ∧ Yields advance p () q := by
  constructor
  · intro h
    cases h with
    | step hne hadvance hstay =>
      cases hstay
      exact ⟨rfl, hne, hadvance⟩
  · rintro ⟨rfl, hne, hadvance⟩
    exact .step hne hadvance (.stay q)

theorem moves_append_iff : Moves p (ks ++ ls) r ↔ ∃ q, Moves p ks q ∧ Moves q ls r := by
  induction ks generalizing p with
  | nil => simp
  | cons k ks ih =>
    rw [List.cons_append, moves_cons_iff]
    constructor
    · rintro ⟨q, hk, h⟩
      obtain ⟨q', hks, hls⟩ := ih.1 h
      exact ⟨q', moves_cons_iff.2 ⟨q, hk, hks⟩, hls⟩
    · rintro ⟨q', h, hls⟩
      obtain ⟨q, hk, hks⟩ := moves_cons_iff.1 h
      exact ⟨q, hk, ih.2 ⟨q', hks, hls⟩⟩

/-- A parser that moves over a phrase stands at the first token of the phrase. -/
theorem Moves.current (h : Moves p (k :: ks) q) : p.current.kind = k := by
  cases h
  rfl

theorem Moves.current_ne {k' : Token.Kind} (h : Moves p (k :: ks) q) (hne : k ≠ k') :
    p.current.kind ≠ k' := by
  rw [h.current]
  exact hne

/-! ## Single tokens -/

theorem keyword_ne_finish {word : Keyword} : Token.Kind.keyword word ≠ .finish :=
  nofun

theorem keyword_ne_sign {word : Keyword} {s : Sign} : Token.Kind.keyword word ≠ .sign s :=
  nofun

theorem sign_ne_finish {s : Sign} : Token.Kind.sign s ≠ .finish :=
  nofun

theorem name_ne_finish {s : String} : Token.Kind.name s ≠ .finish :=
  nofun

theorem name_ne_sign {s : String} {s' : Sign} : Token.Kind.name s ≠ .sign s' :=
  nofun

theorem yields_expect_iff {u : Unit} (hk : k ≠ .finish) :
    Yields (expect k) p u q ↔ Moves p [k] q := by
  unfold expect
  rw [yields_peek_bind_iff, moves_singleton_iff]
  by_cases h : p.current.kind = k
  · rw [if_pos h]
    exact ⟨fun hadvance => ⟨h, hk, hadvance⟩, fun hmoves => hmoves.2.2⟩
  · rw [if_neg h]
    exact ⟨fun hfails => absurd hfails not_yields_unexpected, fun hmoves => absurd hmoves.1 h⟩

@[simp]
theorem yields_keyword_iff {word : Keyword} {u : Unit} :
    Yields (keyword word) p u q ↔ Moves p [.keyword word] q :=
  yields_expect_iff keyword_ne_finish

@[simp]
theorem yields_sign_iff {s : Sign} {u : Unit} :
    Yields (sign s) p u q ↔ Moves p [.sign s] q :=
  yields_expect_iff sign_ne_finish

/-- The end is never left. -/
theorem yields_expect_finish_iff {u : Unit} :
    Yields (expect .finish) p u q ↔ p.current.kind = .finish ∧ q = p := by
  unfold expect
  rw [yields_peek_bind_iff]
  by_cases h : p.current.kind = .finish
  · rw [if_pos h]
    unfold advance
    rw [yields_get_bind_iff, if_pos h, yields_pure_iff]
    exact ⟨fun hstay => ⟨h, hstay.2⟩, fun hstay => ⟨rfl, hstay.2⟩⟩
  · rw [if_neg h]
    exact ⟨fun hfails => absurd hfails not_yields_unexpected, fun hfinish => absurd hfinish.1 h⟩

/-- A step that is taken when the current token is of a kind. -/
theorem yields_advance_bind_iff {f : Unit → Action β} {b : β} (hp : p.current.kind = k)
    (hk : k ≠ .finish) :
    Yields (advance >>= f) p b r ↔ ∃ q, Moves p [k] q ∧ Yields (f ()) q b r := by
  rw [yields_bind_iff]
  constructor
  · rintro ⟨u, q, hadvance, hf⟩
    exact ⟨q, moves_singleton_iff.2 ⟨hp, hk, hadvance⟩, hf⟩
  · rintro ⟨q, hmoves, hf⟩
    exact ⟨(), q, (moves_singleton_iff.1 hmoves).2.2, hf⟩

theorem Moves.yields_advance_bind {f : Unit → Action β} {b : β} (h : Moves p [k] q)
    (hf : Yields (f ()) q b r) : Yields (advance >>= f) p b r := by
  have hne := (moves_singleton_iff.1 h).2.1
  exact (yields_advance_bind_iff h.current hne).2 ⟨q, h, hf⟩

@[simp]
theorem yields_name_iff {e : Expectation} {s : String} :
    Yields (name e) p s q ↔ Moves p [.name s] q := by
  unfold name
  rw [yields_peek_bind_iff]
  constructor
  · intro h
    split at h
    · next s' hp =>
      obtain ⟨q', hmoves, h⟩ := (yields_advance_bind_iff hp name_ne_finish).1 h
      obtain ⟨rfl, rfl⟩ := yields_pure_iff.1 h
      exact hmoves
    · exact absurd h not_yields_unexpected
  · intro hmoves
    rw [hmoves.current]
    exact hmoves.yields_advance_bind yields_pure

/-- An action that looks the current token up in a table and moves over it. -/
theorem yields_table_iff {table? : Token.Kind → Option α} {action : Action α} (e : Expectation)
    {a : α} (haction : action = peek >>= fun k =>
      (table? k).elim (unexpected e) fun value => advance >>= fun _ => pure value)
    (hfinish : table? .finish = none) :
    Yields action p a q ↔ ∃ k, table? k = some a ∧ Moves p [k] q := by
  rw [haction, yields_peek_bind_iff]
  constructor
  · intro h
    cases hvalue : table? p.current.kind with
    | none =>
      rw [hvalue] at h
      exact absurd h not_yields_unexpected
    | some value =>
      have hne : p.current.kind ≠ .finish := fun hp => by
        rw [hp, hfinish] at hvalue
        exact nomatch hvalue
      rw [hvalue] at h
      obtain ⟨q', hmoves, h⟩ := (yields_advance_bind_iff rfl hne).1 h
      obtain ⟨rfl, rfl⟩ := yields_pure_iff.1 h
      exact ⟨_, hvalue, hmoves⟩
  · rintro ⟨k, hk, hmoves⟩
    rw [hmoves.current, hk]
    exact hmoves.yields_advance_bind yields_pure

theorem literalOf?_eq_some_iff {v : Literal} : literalOf? k = some v ↔ IsLiteral k v := by
  constructor
  · intro h
    cases k with
    | string s => cases h; exact .string s
    | integer i => cases h; exact .integer i
    | float x => cases h; exact .float x
    | keyword word => cases word <;> cases h <;> constructor
    | _ => cases h
  · intro h
    cases h <;> rfl

theorem comparisonOf?_eq_some_iff {how : Comparison} :
    comparisonOf? k = some how ↔ IsComparison k how := by
  constructor
  · intro h
    unfold comparisonOf? at h
    split at h <;> cases h <;> constructor
  · intro h
    cases h <;> rfl

theorem yields_literal_iff {v : Literal} :
    Yields literal p v q ↔ ∃ k, IsLiteral k v ∧ Moves p [k] q := by
  simp only [← literalOf?_eq_some_iff]
  exact yields_table_iff .literal
    (congrArg (peek >>= ·) (funext fun k => by cases literalOf? k <;> rfl)) rfl

theorem yields_comparison_iff {how : Comparison} :
    Yields comparison p how q ↔ ∃ k, IsComparison k how ∧ Moves p [k] q := by
  simp only [← comparisonOf?_eq_some_iff]
  exact yields_table_iff .comparison
    (congrArg (peek >>= ·) (funext fun k => by cases comparisonOf? k <;> rfl)) rfl

/-! ## The items of a parser -/

/-- The items that are still to be used, the current token first. -/
def items (p : Parser) : List Token.Item :=
  .ok p.current :: p.rest

/-- Where a parser stands after a step, when it has one to take. -/
theorem yields_advance_iff (hp : p.current.kind ≠ .finish) :
    Yields advance p () q ↔
      (p.rest = [] ∧ q = ⟨impliedFinish p.current.position, []⟩) ∨ p.rest = q.items := by
  unfold advance
  rw [yields_get_bind_iff, if_neg hp]
  obtain ⟨current, rest⟩ := p
  obtain ⟨current', rest'⟩ := q
  -- Behind the last token there is an end for the parser to stand at, and a fault stops it.
  cases rest with
  | nil =>
    simp only [items, List.nil_eq, reduceCtorEq, or_false, true_and]
    constructor
    · rintro ⟨⟩
      rfl
    · rintro ⟨⟩
      rfl
  | cons item rest =>
    cases item with
    | ok token =>
      simp only [items, reduceCtorEq, false_and, false_or, List.cons.injEq, Except.ok.injEq]
      constructor
      · rintro ⟨⟩
        exact ⟨rfl, rfl⟩
      · rintro ⟨rfl, rfl⟩
        rfl
    | error e =>
      simp only [items, reduceCtorEq, false_and, false_or, List.cons.injEq, iff_false]
      exact nofun

open Token.Item in
/-- A parser can take a step when no fault follows before the end. -/
theorem exists_advance {tokens : List Token} (hp : p.current.kind ≠ .finish)
    (hrest : beforeFinish p.rest = tokens.map .ok) :
    ∃ q, Yields advance p () q ∧ beforeFinish q.items = tokens.map .ok := by
  rw [← hrest]
  cases h : p.rest with
  | nil =>
    exact ⟨_, (yields_advance_iff hp).2 (.inl ⟨h, rfl⟩), beforeFinish_of_finish rfl⟩
  | cons item rest =>
    cases item with
    | ok token => exact ⟨⟨token, rest⟩, (yields_advance_iff hp).2 (.inr h), rfl⟩
    | error e =>
      rw [h] at hrest
      cases tokens with
      | nil => exact nomatch hrest
      | cons t ts => exact nomatch (List.cons.inj hrest).1

/-- A parser takes no more steps than it has items. -/
theorem Moves.length_le (h : Moves p ks q) : ks.length ≤ p.rest.length + 1 := by
  induction h with
  | stay p => exact Nat.zero_le _
  | @step p q r ks hne hadvance hmoves ih =>
    rcases (yields_advance_iff hne).1 hadvance with ⟨-, rfl⟩ | hitems
    · cases hmoves with
      | stay => simp
      | step hne' => exact absurd rfl hne'
    · rw [hitems, List.length_cons, items, List.length_cons]
      exact Nat.succ_le_succ ih

open Token.Item in
/-- **The phrase before the end** is the one that a parser moves over to get there. -/
theorem exists_moves_finish_iff : (∃ q, Moves p ks q ∧ q.current.kind = .finish) ↔
    ∃ tokens : List Token, beforeFinish p.items = tokens.map .ok ∧ ks = tokens.map Token.kind := by
  -- By induction on the phrase: a step of the parser is one token of the items.
  induction ks generalizing p with
  | nil =>
    constructor
    · rintro ⟨q, hstay, hfinish⟩
      obtain rfl := moves_nil_iff.1 hstay
      exact ⟨[], beforeFinish_of_finish hfinish, rfl⟩
    · rintro ⟨tokens, hitems, htokens⟩
      obtain rfl := List.map_eq_nil_iff.1 htokens.symm
      refine ⟨p, .stay p, Decidable.byContradiction fun hne => ?_⟩
      rw [items, beforeFinish_of_ne hne] at hitems
      exact nomatch hitems
  | cons k ks ih =>
    constructor
    · rintro ⟨r, hmoves, hfinish⟩
      cases hmoves with
      | @step _ q _ _ hne hadvance hmoves =>
        obtain ⟨tokens, hitems, rfl⟩ := ih.1 ⟨r, hmoves, hfinish⟩
        refine ⟨p.current :: tokens, ?_, rfl⟩
        rw [items, beforeFinish_of_ne hne, List.map_cons]
        rcases (yields_advance_iff hne).1 hadvance with ⟨hrest, rfl⟩ | hrest
        · rw [hrest, ← hitems, items, beforeFinish_of_finish rfl]
          rfl
        · rw [hrest, hitems]
    · rintro ⟨tokens, hitems, htokens⟩
      obtain ⟨token, tokens, rfl⟩ := List.exists_cons_of_ne_nil
        (fun hnil : tokens = [] => nomatch htokens.trans (congrArg _ hnil))
      have hne : p.current.kind ≠ .finish := fun hp => by
        rw [items, beforeFinish_of_finish hp] at hitems
        exact nomatch hitems
      rw [items, beforeFinish_of_ne hne, List.map_cons, List.cons.injEq] at hitems
      obtain ⟨hcurrent, hitems⟩ := hitems
      obtain rfl := Except.ok.inj hcurrent
      obtain ⟨rfl, rfl⟩ := List.cons.inj htokens
      obtain ⟨q, hadvance, hq⟩ := exists_advance hne hitems
      obtain ⟨r, hmoves, hfinish⟩ := ih.2 ⟨tokens, hq, rfl⟩
      exact ⟨r, .step hne hadvance hmoves, hfinish⟩

end Warrant.Parser
