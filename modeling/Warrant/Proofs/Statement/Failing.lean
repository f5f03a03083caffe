import Warrant.Proofs.Statement.Moves

/-!
# How a parser fails

A parser that fails has moved over some tokens and has met an item that it could not use: a token that
cannot stand there, or a fault where the next token should be. An action is read off the kinds of
tokens alone. It succeeds wherever the same tokens are moved over and a token of the same kind
follows, and it fails wherever the same tokens are moved over and the same kind of item is met,
whatever comes after.

What an action moves over when it succeeds belongs to a language, and what it has moved over when it
fails begins a phrase of the language. The rules below carry this through programs.

## Main definitions

- `Parser.Fails` — an action fails
- `Parser.Meets` — a parser moves over a phrase and meets an item
- `Parser.Reads` — what an action does at a parser is read off the kinds of tokens

## Main statements

- `Parser.Meets.unique` — a parser meets an item after one phrase only
- `Parser.Reads.bind`, `Parser.Reads.bounded` — one action after another, and bounded recursion
-/

namespace Warrant

namespace Token.Item

/-- The kind of a token. A fault has none. -/
def kind? : Token.Item → Option Token.Kind
  | .ok token => some token.kind
  | .error _ => none

/-- The failure that is reported when an item is met where something else could have stood. -/
def blame (expected : Expectation) : Token.Item → ParseError
  | .ok token => .syntactic ⟨token.position, expected, token.kind⟩
  | .error e => .lexical e

theorem blame_congr {item item' : Token.Item} {expected expected' : Expectation}
    (hk : item'.kind? = item.kind?) (h : item.blame expected = item.blame expected') :
    item'.blame expected = item'.blame expected' := by
  cases item' with
  | error fault => rfl
  | ok token' =>
    cases item with
    | error fault => exact nomatch hk
    | ok token =>
      obtain ⟨-, rfl, -⟩ := SyntaxError.mk.inj (ParseError.syntactic.inj h)
      rfl

end Token.Item

namespace Parser

variable {α β : Type} {p p' q q' r : Parser} {ks ls : Phrase} {k : Token.Kind}
  {item item' : Token.Item} {e : ParseError}

/-- **An action fails** and leaves the parser where it says. -/
def Fails (action : Action α) (p : Parser) (e : ParseError) (q : Parser) : Prop :=
  action p = .error e q

theorem fails_bind_iff {x : Action α} {f : α → Action β} : Fails (x >>= f) p e r ↔
    Fails x p e r ∨ ∃ a q, Yields x p a q ∧ Fails (f a) q e r := by
  change (EStateM.bind x f p = .error e r) ↔ _
  unfold EStateM.bind
  cases hx : x p with
  | ok a q =>
    constructor
    · exact fun h => .inr ⟨a, q, hx, h⟩
    · rintro (hfails | ⟨a', q', hyields, hfails⟩)
      · exact nomatch hx.symm.trans hfails
      · cases hx.symm.trans hyields
        exact hfails
  | error e' q =>
    constructor
    · intro h
      cases h
      exact .inl hx
    · rintro (hfails | ⟨a', q', hyields, -⟩)
      · cases hx.symm.trans hfails
        rfl
      · exact nomatch hx.symm.trans hyields

theorem not_fails_pure {a : α} : ¬ Fails (pure a) p e q :=
  nofun

theorem fails_unexpected_iff {expected : Expectation} :
    Fails (unexpected expected : Action α) p e q ↔
      e = Token.Item.blame expected (.ok p.current) ∧ q = p := by
  constructor
  · intro h
    cases h
    exact ⟨rfl, rfl⟩
  · rintro ⟨rfl, rfl⟩
    rfl

/-- A step fails when a fault comes next, which is used up. -/
theorem fails_advance_iff : Fails advance p e q ↔ p.current.kind ≠ .finish ∧
    ∃ fault, p.rest = .error fault :: q.rest ∧ q.current = p.current ∧ e = .lexical fault := by
  obtain ⟨current, rest⟩ := p
  obtain ⟨current', rest'⟩ := q
  -- At the end there is no step, so none can fail.
  by_cases hk : current.kind = .finish
  · constructor
    · intro h
      unfold Fails advance at h
      change (if current.kind = .finish then pure () else _ : Action Unit) _ = _ at h
      rw [if_pos hk] at h
      exact nomatch h
    · exact fun h => absurd hk h.1
  · unfold Fails advance
    change (if current.kind = .finish then pure () else _ : Action Unit) _ = _ ↔ _
    rw [if_neg hk]
    cases rest with
    | nil => exact ⟨nofun, nofun⟩
    | cons item rest =>
      cases item with
      | ok token => exact ⟨nofun, nofun⟩
      | error fault =>
        constructor
        · rintro ⟨⟩
          exact ⟨hk, fault, rfl, rfl, rfl⟩
        · rintro ⟨-, _, ⟨⟩, rfl, rfl⟩
          rfl

/-- How many steps a parser can take at most. -/
def left (p : Parser) : Nat :=
  if p.current.kind = .finish then 0 else p.rest.length + 1

theorem left_le (p : Parser) : p.left ≤ p.rest.length + 1 := by
  unfold left
  split <;> omega

theorem left_lt_of_advance (hne : p.current.kind ≠ .finish) (h : Yields advance p () q) :
    q.left < p.left := by
  have hp : p.left = p.rest.length + 1 := if_neg hne
  rcases (yields_advance_iff hne).1 h with ⟨hrest, rfl⟩ | hrest
  · have hq : (⟨impliedFinish p.current.position, []⟩ : Parser).left = 0 := if_pos rfl
    omega
  · have hq := q.left_le
    have hlength : p.rest.length = q.rest.length + 1 := by rw [hrest]; rfl
    omega

theorem Moves.left_le (h : Moves p ks q) : q.left + ks.length ≤ p.left := by
  induction h with
  | stay p => exact Nat.le_refl _
  | step hne hadvance _ ih =>
    have hlt := left_lt_of_advance hne hadvance
    rw [List.length_cons]
    omega

/-- A parser that moves over two phrases moves over one of them first, and then over what is left of
    the other. -/
theorem Moves.exists_append (h : Moves p ks q) (h' : Moves p ls r) (hle : ks.length ≤ ls.length) :
    ∃ ms, ls = ks ++ ms ∧ Moves q ms r := by
  induction h generalizing ls with
  | stay p => exact ⟨ls, rfl, h'⟩
  | step _ hadvance _ ih =>
    cases h' with
    | stay => exact absurd hle (Nat.not_succ_le_zero _)
    | step _ hadvance' hmoves' =>
      cases hadvance.symm.trans hadvance'
      obtain ⟨ms, rfl, hms⟩ := ih hmoves' (Nat.le_of_succ_le_succ hle)
      exact ⟨ms, rfl, hms⟩

theorem Moves.unique (h : Moves p ks q) (h' : Moves p ls q) : ks = ls := by
  have hstay {ms : Phrase} (hms : Moves q ms q) : ms = [] := by
    have hleft := hms.left_le
    exact List.eq_nil_of_length_eq_zero (by omega)
  rcases Nat.le_total ks.length ls.length with hle | hle
  · obtain ⟨ms, rfl, hms⟩ := h.exists_append h' hle
    rw [hstay hms, List.append_nil]
  · obtain ⟨ms, rfl, hms⟩ := h'.exists_append h hle
    rw [hstay hms, List.append_nil]

/-- Parsers that move over the same phrase to the same kind of token stand at the same kind of
    token. -/
theorem Moves.current_eq (h : Moves p ks q) (h' : Moves p' ks q')
    (hk : q.current.kind = q'.current.kind) : p.current.kind = p'.current.kind := by
  cases ks with
  | nil =>
    obtain rfl := moves_nil_iff.1 h
    obtain rfl := moves_nil_iff.1 h'
    exact hk
  | cons k ks => rw [h.current, h'.current]

/-- **A parser meets an item** after it has moved over a phrase: the token at which it stands then,
    or the fault that comes next, which is used up. -/
inductive Meets : Parser → Phrase → Token.Item → Parser → Prop
  | token (p : Parser) : Meets p [] (.ok p.current) p
  | fault {p : Parser} {fault : LexError} {rest : List Token.Item}
    (hne : p.current.kind ≠ .finish) (hrest : p.rest = .error fault :: rest) :
    Meets p [p.current.kind] (.error fault) ⟨p.current, rest⟩
  | step {p q r : Parser} {ks : Phrase} {item : Token.Item} (hne : p.current.kind ≠ .finish)
    (hadvance : Yields advance p () q) (hmeets : Meets q ks item r) :
    Meets p (p.current.kind :: ks) item r

theorem meets_nil_iff : Meets p [] item q ↔ item = .ok p.current ∧ q = p := by
  constructor
  · rintro ⟨⟩
    exact ⟨rfl, rfl⟩
  · rintro ⟨rfl, rfl⟩
    exact .token _

theorem Meets.current (h : Meets p (k :: ks) item q) : p.current.kind = k := by
  cases h <;> rfl

theorem Moves.meets (h : Moves p ks q) (hmeets : Meets q ls item r) :
    Meets p (ks ++ ls) item r := by
  induction h with
  | stay => exact hmeets
  | step hne hadvance _ ih => exact .step hne hadvance (ih hmeets)

/-- What is met after two phrases is met after the second, unless it is a fault that is met before
    the second begins. -/
theorem Meets.exists_moves (h : Meets p (ks ++ ls) item r) (hls : ls = [] → item.kind? ≠ none) :
    ∃ q, Moves p ks q ∧ Meets q ls item r := by
  -- The parser moves over the first phrase as it has to anyway, to meet what comes after it.
  induction ks generalizing p with
  | nil => exact ⟨p, .stay p, h⟩
  | cons k ks ih =>
    rw [List.cons_append] at h
    generalize hms : ks ++ ls = ms at h ih
    cases h with
    | fault hne hrest => exact absurd rfl (hls (List.append_eq_nil_iff.1 hms).2)
    | step hne hadvance hmeets =>
      obtain ⟨q, hmoves, hq⟩ := ih hmeets
      exact ⟨q, .step hne hadvance hmoves, hq⟩

/-- Parsers that meet the same kind of item after the same phrase stand at the same kind of token. -/
theorem Meets.current_eq (h : Meets p ks item q) (h' : Meets p' ks item' q')
    (hk : item.kind? = item'.kind?) : p.current.kind = p'.current.kind := by
  cases ks with
  | nil =>
    obtain ⟨rfl, -⟩ := meets_nil_iff.1 h
    obtain ⟨rfl, -⟩ := meets_nil_iff.1 h'
    exact Option.some.inj hk
  | cons k ks => rw [h.current, h'.current]

theorem meets_ok_iff {token : Token} :
    Meets p ks (.ok token) q ↔ Moves p ks q ∧ token = q.current := by
  constructor
  · intro h
    rw [← List.append_nil ks] at h
    obtain ⟨q', hmoves, hq⟩ := h.exists_moves fun _ => nofun
    obtain ⟨htoken, rfl⟩ := meets_nil_iff.1 hq
    exact ⟨hmoves, Except.ok.inj htoken⟩
  · rintro ⟨hmoves, rfl⟩
    have hmeets := hmoves.meets (.token q)
    rwa [List.append_nil] at hmeets

/-- Before a fault is met, it comes next. -/
theorem Meets.exists_of_error {fault : LexError} (h : Meets p ks (.error fault) q) :
    ∃ ms, ks = ms ++ [q.current.kind] ∧ Moves p ms ⟨q.current, .error fault :: q.rest⟩ := by
  generalize hitem : (.error fault : Token.Item) = item at h
  induction h with
  | token => exact nomatch hitem
  | @fault p _ rest _ hrest =>
    cases hitem
    refine ⟨[], rfl, ?_⟩
    rw [← hrest]
    exact .stay p
  | step hne hadvance _ ih =>
    obtain ⟨ms, rfl, hmoves⟩ := ih hitem
    exact ⟨_, rfl, .step hne hadvance hmoves⟩

/-- **A parser meets an item after one phrase only**: where it stands then, and what it is that is
    blamed, say which. -/
theorem Meets.unique {expected expected' : Expectation} (h : Meets p ks item q)
    (h' : Meets p ls item' q) (he : item.blame expected = item'.blame expected') :
    ks = ls ∧ item = item' := by
  cases item with
  | ok token =>
    cases item' with
    | ok token' =>
      obtain ⟨hmoves, rfl⟩ := meets_ok_iff.1 h
      obtain ⟨hmoves', rfl⟩ := meets_ok_iff.1 h'
      exact ⟨hmoves.unique hmoves', rfl⟩
    | error fault => exact nomatch he
  | error fault =>
    cases item' with
    | ok token => exact nomatch he
    | error fault' =>
      obtain rfl := ParseError.lexical.inj he
      obtain ⟨ms, rfl, hmoves⟩ := h.exists_of_error
      obtain ⟨ms', rfl, hmoves'⟩ := h'.exists_of_error
      rw [hmoves.unique hmoves']
      exact ⟨rfl, rfl⟩

/-- An action succeeds wherever a phrase is moved over and a kind of token follows. -/
def Accepts (action : Action α) (ks : Phrase) (k : Token.Kind) (a : α) : Prop :=
  ∀ p q, Moves p ks q → q.current.kind = k → Yields action p a q

/-- An action fails wherever a phrase is moved over and a kind of item is met. -/
def Rejects (action : Action α) (ks : Phrase) (k? : Option Token.Kind) (expected : Expectation) :
    Prop :=
  ∀ p item q, Meets p ks item q → item.kind? = k? → Fails action p (item.blame expected) q

/-- **What an action does at a parser is read off the kinds of tokens.** When it succeeds, it has
    moved over a phrase of a language, and it does so wherever it finds this phrase and the same kind
    of token next. When it fails, it has moved over what begins a phrase of the language, and it
    blames the item that it has met then; and it does so wherever it meets such an item after this
    beginning. -/
structure Reads (action : Action α) (L : Language Token.Kind) (p : Parser) : Prop where
  /-- There are phrases to begin. -/
  exists_mem : ∃ ks, ks ∈ L
  yields : ∀ a q, Yields action p a q →
    ∃ ks ∈ L, Moves p ks q ∧ Accepts action ks q.current.kind a
  fails : ∀ e q, Fails action p e q → ∃ ks item expected, Meets p ks item q ∧
    e = item.blame expected ∧ Rejects action ks item.kind? expected ∧ ∃ ls, ks ++ ls ∈ L

variable {L M : Language Token.Kind} {x : Action α} {f : α → Action β}

theorem Reads.mono (h : Reads x L p) (hsub : ∀ ks ∈ L, ks ∈ M) : Reads x M p := by
  refine ⟨h.exists_mem.imp hsub, fun a q hyields => ?_, fun e q hfails => ?_⟩
  · obtain ⟨ks, hks, hrest⟩ := h.yields a q hyields
    exact ⟨ks, hsub ks hks, hrest⟩
  · obtain ⟨ks, item, expected, hmeets, he, hrejects, ls, hls⟩ := h.fails e q hfails
    exact ⟨ks, item, expected, hmeets, he, hrejects, ls, hsub _ hls⟩

theorem reads_pure (a : α) (p : Parser) : Reads (pure a) 1 p := by
  refine ⟨⟨[], Language.nil_mem_one⟩, fun b q h => ?_, fun e q h => absurd h not_fails_pure⟩
  obtain ⟨rfl, rfl⟩ := yields_pure_iff.1 h
  refine ⟨[], Language.nil_mem_one, .stay q, fun p' q' hmoves _ => ?_⟩
  obtain rfl := moves_nil_iff.1 hmoves
  exact yields_pure

/-- An action that fails at once has moved over the beginning of everything. -/
theorem reads_unexpected {expected : Expectation} (hL : ∃ ks, ks ∈ L) :
    Reads (unexpected expected : Action α) L p := by
  refine ⟨hL, fun a q h => absurd h not_yields_unexpected, fun e q h => ?_⟩
  obtain ⟨rfl, rfl⟩ := fails_unexpected_iff.1 h
  refine ⟨[], .ok q.current, expected, .token q, rfl, fun p' item q' hmeets _ => ?_, hL⟩
  obtain ⟨rfl, rfl⟩ := meets_nil_iff.1 hmeets
  exact fails_unexpected_iff.2 ⟨rfl, rfl⟩

/-- A step moves over the current token, if a token follows. -/
theorem reads_advance (hk : p.current.kind = k) (hne : k ≠ .finish) : Reads advance {[k]} p := by
  refine ⟨⟨[k], rfl⟩, fun _ q h => ?_, fun e q h => ?_⟩
  · refine ⟨[k], rfl, moves_singleton_iff.2 ⟨hk, hne, h⟩, fun p' q' hmoves _ => ?_⟩
    exact (moves_singleton_iff.1 hmoves).2.2
  · obtain ⟨hne, fault, hrest, hcurrent, rfl⟩ := fails_advance_iff.1 h
    obtain ⟨current, rest⟩ := q
    obtain rfl : current = p.current := hcurrent
    subst hk
    refine ⟨_, .error fault, .statement, .fault hne hrest, rfl, fun p' item q' hmeets hitem => ?_,
      [], rfl⟩
    cases item with
    | ok token => exact nomatch hitem
    | error fault' =>
      obtain ⟨ms, hms, hmoves⟩ := hmeets.exists_of_error
      have hms : [] ++ [p.current.kind] = ms ++ [q'.current.kind] := hms
      obtain ⟨rfl, hkind⟩ := List.append_inj' hms rfl
      obtain rfl := moves_nil_iff.1 hmoves
      refine fails_advance_iff.2 ⟨?_, fault', rfl, rfl, rfl⟩
      exact (List.cons.inj hkind).1 ▸ hne

/-- At the end there is no step. -/
theorem reads_advance_of_finish (hk : p.current.kind = .finish) : Reads advance 1 p := by
  have hstay {p : Parser} (hk : p.current.kind = .finish) : Yields advance p () p := by
    unfold advance
    rw [yields_get_bind_iff, if_pos hk]
    exact yields_pure
  refine ⟨⟨[], Language.nil_mem_one⟩, fun _ q h => ?_,
    fun e q h => absurd hk (fails_advance_iff.1 h).1⟩
  cases h.symm.trans (hstay hk)
  refine ⟨[], Language.nil_mem_one, .stay p, fun p' q' hmoves hq => ?_⟩
  obtain rfl := moves_nil_iff.1 hmoves
  exact hstay (hq.trans hk)

/-- **One action after another** reads one language after another. -/
theorem Reads.bind [Nonempty α] (hx : Reads x L p) (hf : ∀ a q, Reads (f a) M q) :
    Reads (x >>= f) (L * M) p := by
  obtain ⟨ms, hms⟩ := (hf (Classical.arbitrary α) p).exists_mem
  refine ⟨hx.exists_mem.imp' (· ++ ms) fun ks hks => Language.append_mem_mul hks hms,
    fun b r h => ?_, fun e r h => ?_⟩
  · obtain ⟨a, q, hyields, hrest⟩ := yields_bind_iff.1 h
    obtain ⟨ks, hks, hmoves, haccepts⟩ := hx.yields a q hyields
    obtain ⟨ls, hls, hmoves', haccepts'⟩ := (hf a q).yields b r hrest
    refine ⟨ks ++ ls, Language.append_mem_mul hks hls, moves_append_iff.2 ⟨q, hmoves, hmoves'⟩,
      fun p' r' h' hr => ?_⟩
    obtain ⟨q', hfirst, hsecond⟩ := moves_append_iff.1 h'
    have hq := hsecond.current_eq hmoves' hr
    exact (haccepts p' q' hfirst hq).bind (haccepts' q' r' hsecond hr)
  · -- The failure is the first action's own, or the second one meets it where the first has moved
    -- to.
    rcases fails_bind_iff.1 h with hfails | ⟨a, q, hyields, hfails⟩
    · obtain ⟨ks, item, expected, hmeets, he, hrejects, ls, hls⟩ := hx.fails e r hfails
      refine ⟨ks, item, expected, hmeets, he, fun p' item' q' h' hitem => ?_, ls ++ ms, ?_⟩
      · exact fails_bind_iff.2 (.inl (hrejects p' item' q' h' hitem))
      · rw [← List.append_assoc]
        exact Language.append_mem_mul hls hms
    · obtain ⟨ks, hks, hmoves, haccepts⟩ := hx.yields a q hyields
      obtain ⟨ls, item, expected, hmeets, he, hrejects, ms, hms⟩ := (hf a q).fails e r hfails
      refine ⟨ks ++ ls, item, expected, hmoves.meets hmeets, he, fun p' item' r' h' hitem => ?_,
        ms, ?_⟩
      · -- Another parser that meets the same phrase reads the first part of it as well, unless the
        -- fault is met before the second part begins. Then the item is no token.
        obtain ⟨q', hfirst, hsecond⟩ := h'.exists_moves fun hls => by
          subst hls
          rw [hitem, (meets_nil_iff.1 hmeets).1]
          exact nofun
        have hq := hsecond.current_eq hmeets hitem
        exact fails_bind_iff.2
          (.inr ⟨a, q', haccepts p' q' hfirst hq, hrejects q' item' r' hsecond hitem⟩)
      · rw [List.append_assoc]
        exact Language.append_mem_mul hks hms

/-- To look at the current token moves nothing. -/
theorem Reads.peek_bind {f : Token.Kind → Action α} (h : Reads (f p.current.kind) L p) :
    Reads (peek >>= f) L p := by
  refine ⟨h.exists_mem, fun a q hyields => ?_, fun e q hfails => ?_⟩
  · obtain ⟨ks, hks, hmoves, haccepts⟩ := h.yields a q hyields
    refine ⟨ks, hks, hmoves, fun p' q' h' hq => ?_⟩
    have hyields' := haccepts p' q' h' hq
    rwa [← h'.current_eq hmoves hq] at hyields'
  · obtain ⟨ks, item, expected, hmeets, he, hrejects, hbegins⟩ := h.fails e q hfails
    refine ⟨ks, item, expected, hmeets, he, fun p' item' q' h' hitem => ?_, hbegins⟩
    have hfails' := hrejects p' item' q' h' hitem
    rwa [← h'.current_eq hmeets hitem] at hfails'

/-- **Recursion with a bound** may take the bound from the parser, if no larger bound makes a
    difference there. -/
theorem Reads.bounded {x : Nat → Action α} {bound : Parser → Nat} (h : ∀ b q, Reads (x b) L q)
    (hbound : ∀ q b, bound q ≤ b → x b q = x (bound q) q) (p : Parser) :
    Reads (get >>= fun q => x (bound q)) L p := by
  have hlarge (p : Parser) (b : Nat) (hb : bound p ≤ b) :
      (get >>= fun q => x (bound q)) p = x b p := (hbound p b hb).symm
  refine ⟨(h 0 p).exists_mem, fun a q hyields => ?_, fun e q hfails => ?_⟩
  · obtain ⟨ks, hks, hmoves, -⟩ := (h (bound p) p).yields a q hyields
    refine ⟨ks, hks, hmoves, fun p' q' h' hq => ?_⟩
    -- One bound that is large enough for both parsers.
    let b := max (bound p) (bound p')
    have hyields : Yields (x b) p a q := (hlarge p b (Nat.le_max_left ..)).symm.trans hyields
    obtain ⟨ls, -, hmoves', haccepts⟩ := (h b p).yields a q hyields
    obtain rfl := hmoves.unique hmoves'
    exact (hlarge p' b (Nat.le_max_right ..)).trans (haccepts p' q' h' hq)
  · obtain ⟨ks, item, expected, hmeets, he, -, hbegins⟩ := (h (bound p) p).fails e q hfails
    refine ⟨ks, item, expected, hmeets, he, fun p' item' q' h' hitem => ?_, hbegins⟩
    let b := max (bound p) (bound p')
    have hfails : Fails (x b) p e q := (hlarge p b (Nat.le_max_left ..)).symm.trans hfails
    obtain ⟨ls, item₂, expected₂, hmeets', he', hrejects, -⟩ := (h b p).fails e q hfails
    obtain ⟨rfl, rfl⟩ := hmeets.unique hmeets' (he.symm.trans he')
    rw [Token.Item.blame_congr hitem (he.symm.trans he')]
    exact (hlarge p' b (Nat.le_max_right ..)).trans (hrejects p' item' q' h' hitem)

end Parser

end Warrant
