import Warrant.Proofs.Statement.Moves

/-!
# The parser reads conditions

What is returned as a condition is what the phrase that was moved over denotes. Conversely every
phrase of conditions is moved over when no connective follows it: the words of one level are all
the same, and the bounds of the parser are large enough for the items that are left.

## Main statements

- `Parser.isLevel_of_yields`, `Parser.yields_of_isLevel` — the conditions of one level
- `Parser.isClause_of_yields`, `Parser.yields_of_isClause` — a WHERE clause
-/

namespace Warrant.Parser

open Grammar

variable {p q : Parser} {ks : Phrase}

/-! ## Conditions -/

/-- The word that a connective is written as. -/
def Connective.word : Connective → Keyword
  | .and => .andWord
  | .or => .orWord

theorem connectiveOf?_eq_some_iff {k : Token.Kind} {connective : Connective} :
    connectiveOf? k = some connective ↔ k = .keyword connective.word := by
  constructor
  · intro h
    unfold connectiveOf? at h
    split at h <;> cases h <;> rfl
  · rintro rfl
    cases connective <;> rfl

/-- Conditions that a connective joins are a level. -/
theorem isLevel_join {connective : Connective} {ls : Phrase} {c : Condition}
    {cs : List Condition} (first : IsCondition ks c) (others : IsOthers connective.word ls cs) :
    IsLevel (ks ++ ls) (connective.join (c :: cs)) := by
  cases connective with
  | and => exact .every first others
  | or => exact .any first others

theorem yields_conditions_iff {bound : Nat} {c : Condition} :
    Yields (conditions (bound + 1)) p c q ↔ ∃ first p', Yields (condition bound) p first p' ∧
      ((connectiveOf? p'.current.kind = none ∧ c = first ∧ q = p') ∨
        ∃ connective others, connectiveOf? p'.current.kind = some connective ∧
          Yields (moreConditions bound connective) p' others q ∧
          c = connective.join (first :: others)) := by
  rw [conditions, yields_bind_iff]
  refine exists_congr fun first => exists_congr fun p' => and_congr_right fun _ => ?_
  rw [yields_peek_bind_iff]
  cases connectiveOf? p'.current.kind with
  | none => simp
  | some connective =>
    simp only [yields_bind_iff, yields_pure_iff, reduceCtorEq, false_and, false_or,
      Option.some.injEq]
    constructor
    · rintro ⟨others, q', h, rfl, rfl⟩
      exact ⟨connective, others, rfl, h, rfl⟩
    · rintro ⟨connective, others, rfl, h, rfl⟩
      exact ⟨others, q, h, rfl, rfl⟩

theorem yields_moreConditions_iff {bound : Nat} {connective : Connective} {cs : List Condition} :
    Yields (moreConditions (bound + 1) connective) p cs q ↔
      (connectiveOf? p.current.kind = none ∧ cs = [] ∧ q = p) ∨
      ∃ p₁ c p₂ others, Moves p [.keyword connective.word] p₁ ∧
        Yields (condition bound) p₁ c p₂ ∧
        Yields (moreConditions bound connective) p₂ others q ∧ cs = c :: others := by
  rw [moreConditions, yields_peek_bind_iff]
  cases hfound : connectiveOf? p.current.kind with
  | none =>
    simp only [yields_pure_iff, true_and]
    refine ⟨.inl, fun h => h.resolve_right ?_⟩
    rintro ⟨p₁, c, p₂, others, hmoves, -⟩
    have hsome := connectiveOf?_eq_some_iff.2 hmoves.current
    cases hfound.symm.trans hsome
  | some found =>
    have hkind := connectiveOf?_eq_some_iff.1 hfound
    simp only [reduceCtorEq, false_and, false_or]
    by_cases heq : found = connective
    · subst heq
      rw [if_pos rfl, yields_advance_bind_iff hkind keyword_ne_finish]
      simp only [yields_bind_iff, yields_pure_iff]
      constructor
      · rintro ⟨p₁, hmoves, c, p₂, hc, others, q', hothers, rfl, rfl⟩
        exact ⟨p₁, c, p₂, others, hmoves, hc, hothers, rfl⟩
      · rintro ⟨p₁, c, p₂, others, hmoves, hc, hothers, rfl⟩
        exact ⟨p₁, hmoves, c, p₂, hc, others, q, hothers, rfl, rfl⟩
    · rw [if_neg heq]
      refine ⟨fun h => absurd h not_yields_unexpected, ?_⟩
      rintro ⟨p₁, c, p₂, others, hmoves, -⟩
      have hsome := connectiveOf?_eq_some_iff.2 hmoves.current
      exact absurd (Option.some.inj (hfound.symm.trans hsome)) heq

theorem yields_condition_iff {bound : Nat} {c : Condition} :
    Yields (condition (bound + 1)) p c q ↔
      (∃ p₁ p₂, Moves p [.sign .leftParen] p₁ ∧ Yields (conditions bound) p₁ c p₂ ∧
        Moves p₂ [.sign .rightParen] q) ∨
      ∃ field sign value how v, IsComparison sign how ∧ IsLiteral value v ∧
        Moves p [.name field, sign, value] q ∧ c = .compare field how v := by
  rw [condition, yields_peek_bind_iff]
  constructor
  · intro h
    split at h
    · next hp =>
      obtain ⟨p₁, hmoves, h⟩ := (yields_advance_bind_iff hp sign_ne_finish).1 h
      obtain ⟨inner, p₂, hinner, h⟩ := yields_bind_iff.1 h
      obtain ⟨u, q', hclose, h⟩ := yields_bind_iff.1 h
      obtain ⟨rfl, rfl⟩ := yields_pure_iff.1 h
      exact .inl ⟨p₁, p₂, hmoves, hinner, yields_sign_iff.1 hclose⟩
    · next field hp =>
      obtain ⟨p₁, hmoves, h⟩ := (yields_advance_bind_iff hp name_ne_finish).1 h
      obtain ⟨how, p₂, hhow, h⟩ := yields_bind_iff.1 h
      obtain ⟨v, p₃, hv, h⟩ := yields_bind_iff.1 h
      obtain ⟨rfl, rfl⟩ := yields_pure_iff.1 h
      obtain ⟨sign, hsign, hmoves'⟩ := yields_comparison_iff.1 hhow
      obtain ⟨value, hvalue, hmoves''⟩ := yields_literal_iff.1 hv
      exact .inr ⟨field, sign, value, how, v, hsign, hvalue,
        moves_cons_iff.2 ⟨p₁, hmoves, moves_cons_iff.2 ⟨p₂, hmoves', hmoves''⟩⟩, rfl⟩
    · exact absurd h not_yields_unexpected
  · rintro (⟨p₁, p₂, hopen, hinner, hclose⟩ | ⟨field, sign, value, how, v, hsign, hvalue, h, rfl⟩)
    · rw [hopen.current]
      have hclose : Yields (sign .rightParen) p₂ () q := yields_sign_iff.2 hclose
      exact hopen.yields_advance_bind (hinner.bind (hclose.bind yields_pure))
    · obtain ⟨p₁, hfield, h⟩ := moves_cons_iff.1 h
      obtain ⟨p₂, hmoves, hmoves'⟩ := moves_cons_iff.1 h
      rw [hfield.current]
      have hhow := yields_comparison_iff.2 ⟨sign, hsign, hmoves⟩
      have hv := yields_literal_iff.2 ⟨value, hvalue, hmoves'⟩
      exact hfield.yields_advance_bind (hhow.bind (hv.bind yields_pure))

/-- What is returned as conditions is what the phrase denotes, whatever the bound is. -/
theorem isLevel_of_yields_bounded (bound : Nat) :
    (∀ {p c q}, Yields (conditions bound) p c q → ∃ ks, Moves p ks q ∧ IsLevel ks c) ∧
    (∀ {connective p cs q}, Yields (moreConditions bound connective) p cs q →
      (connectiveOf? p.current.kind = none ∧ cs = [] ∧ q = p) ∨
      ∃ ls, Moves p ls q ∧ IsOthers connective.word ls cs) ∧
    (∀ {p c q}, Yields (condition bound) p c q → ∃ ks, Moves p ks q ∧ IsCondition ks c) := by
  -- The three parsers call each other with a bound that is one less, so one induction serves them
  -- all.
  induction bound with
  | zero =>
    refine ⟨fun h => ?_, fun h => ?_, fun h => ?_⟩
    · rw [conditions] at h
      exact absurd h not_yields_unexpected
    · rw [moreConditions] at h
      exact absurd h not_yields_unexpected
    · rw [condition] at h
      exact absurd h not_yields_unexpected
  | succ bound ih =>
    obtain ⟨ihLevel, ihOthers, ihCondition⟩ := ih
    refine ⟨fun {p c q} h => ?level, fun {connective p cs q} h => ?others,
      fun {p c q} h => ?condition⟩
    case level =>
      obtain ⟨first, p', hfirst, h⟩ := yields_conditions_iff.1 h
      obtain ⟨ks, hmoves, hcondition⟩ := ihCondition hfirst
      rcases h with ⟨-, rfl, rfl⟩ | ⟨connective, others, hfound, hmore, rfl⟩
      · exact ⟨ks, hmoves, .one hcondition⟩
      · rcases ihOthers hmore with ⟨hnone, -⟩ | ⟨ls, hmoves', hothers⟩
        · exact nomatch hfound.symm.trans hnone
        · have hlevel := isLevel_join hcondition hothers
          exact ⟨ks ++ ls, moves_append_iff.2 ⟨p', hmoves, hmoves'⟩, hlevel⟩
    case others =>
      rcases yields_moreConditions_iff.1 h with h | ⟨p₁, c, p₂, others, hword, hc, hothers, rfl⟩
      · exact .inl h
      · obtain ⟨ks, hmoves, hcondition⟩ := ihCondition hc
        rcases ihOthers hothers with ⟨-, rfl, rfl⟩ | ⟨ls, hmoves', hls⟩
        · have hmoves := moves_cons_iff.2 ⟨p₁, hword, hmoves⟩
          exact .inr ⟨_, hmoves, .last hcondition⟩
        · have hmoves := moves_append_iff.2 ⟨p₂, hmoves, hmoves'⟩
          exact .inr ⟨_, moves_cons_iff.2 ⟨p₁, hword, hmoves⟩, .cons hcondition hls⟩
    case condition =>
      rcases yields_condition_iff.1 h with
        ⟨p₁, p₂, hopen, hinner, hclose⟩ | ⟨field, sign, value, how, v, hhow, hv, hmoves, rfl⟩
      · obtain ⟨ks, hmoves, hlevel⟩ := ihLevel hinner
        have hgroup := moves_append_iff.2 ⟨p₂, hmoves, hclose⟩
        exact ⟨_, moves_cons_iff.2 ⟨p₁, hopen, hgroup⟩, .group hlevel⟩
      · exact ⟨_, hmoves, .compare field hhow hv⟩

/-- A phrase of conditions is moved over when the bound is large enough for it. -/
theorem yields_of_isLevel_bounded (bound : Nat) :
    (∀ {p ks c q}, IsLevel ks c → Moves p ks q → connectiveOf? q.current.kind = none →
      2 * ks.length < bound → Yields (conditions bound) p c q) ∧
    (∀ {connective : Connective} {p ls cs q}, IsOthers connective.word ls cs → Moves p ls q →
      connectiveOf? q.current.kind = none → 2 * ls.length < bound →
      Yields (moreConditions bound connective) p cs q) ∧
    (∀ {p ks c q}, IsCondition ks c → Moves p ks q → 2 * ks.length ≤ bound →
      Yields (condition bound) p c q) := by
  -- Each token costs two calls at most: of the parser of its level, and of that of its condition.
  induction bound with
  | zero =>
    refine ⟨fun _ _ _ hlt => absurd hlt (Nat.not_lt_zero _),
      fun _ _ _ hlt => absurd hlt (Nat.not_lt_zero _), fun h _ hle => ?_⟩
    have hpos := h.length_pos
    omega
  | succ bound ih =>
    obtain ⟨ihLevel, ihOthers, ihCondition⟩ := ih
    -- A level whose first condition is followed by others, joined by one word.
    have hjoin : ∀ {connective : Connective} {p ks ls c cs q}, IsCondition ks c →
        IsOthers connective.word ls cs → Moves p (ks ++ ls) q →
        connectiveOf? q.current.kind = none → 2 * (ks ++ ls).length < bound + 1 →
        Yields (conditions (bound + 1)) p (connective.join (c :: cs)) q := by
      intro connective p ks ls c cs q hfirst hothers hmoves hnext hlt
      have hpos := hfirst.length_pos
      rw [List.length_append] at hlt
      obtain ⟨p', hks, hls⟩ := moves_append_iff.1 hmoves
      have hword : p'.current.kind = .keyword connective.word := by
        cases hothers <;> exact hls.current
      have hc := ihCondition hfirst hks (by omega)
      have hcs := ihOthers hothers hls hnext (by omega)
      exact yields_conditions_iff.2
        ⟨c, p', hc, .inr ⟨connective, cs, connectiveOf?_eq_some_iff.2 hword, hcs, rfl⟩⟩
    refine ⟨fun {p ks c q} h hmoves hnext hlt => ?level,
      fun {connective p ls cs q} h hmoves hnext hlt => ?others,
      fun {p ks c q} h hmoves hle => ?condition⟩
    case level =>
      cases h with
      | one h =>
        have hc := ihCondition h hmoves (by omega)
        exact yields_conditions_iff.2 ⟨c, q, hc, .inl ⟨hnext, rfl, rfl⟩⟩
      | every first others => exact @hjoin .and _ _ _ _ _ _ first others hmoves hnext hlt
      | any first others => exact @hjoin .or _ _ _ _ _ _ first others hmoves hnext hlt
    case others =>
      cases h with
      | @last _ ks c h =>
        have hpos := h.length_pos
        rw [List.length_cons] at hlt
        obtain ⟨p₁, hword, hks⟩ := moves_cons_iff.1 hmoves
        obtain ⟨bound, rfl⟩ : ∃ b, bound = b + 1 := ⟨bound - 1, by omega⟩
        have hc := ihCondition h hks (by omega)
        have hnone : Yields (moreConditions (bound + 1) connective) q [] q :=
          yields_moreConditions_iff.2 (.inl ⟨hnext, rfl, rfl⟩)
        exact yields_moreConditions_iff.2 (.inr ⟨p₁, c, q, [], hword, hc, hnone, rfl⟩)
      | @cons _ ks ls c cs h hothers =>
        rw [List.length_cons, List.length_append] at hlt
        obtain ⟨p₁, hword, h'⟩ := moves_cons_iff.1 hmoves
        obtain ⟨p₂, hks, hls⟩ := moves_append_iff.1 h'
        have hc := ihCondition h hks (by omega)
        have hcs := ihOthers hothers hls hnext (by omega)
        exact yields_moreConditions_iff.2 (.inr ⟨p₁, c, p₂, cs, hword, hc, hcs, rfl⟩)
    case condition =>
      cases h with
      | compare field hhow hvalue =>
        exact yields_condition_iff.2 (.inr ⟨field, _, _, _, _, hhow, hvalue, hmoves, rfl⟩)
      | @group ks c h =>
        rw [List.length_cons, List.length_append, List.length_singleton] at hle
        obtain ⟨p₁, hopen, h'⟩ := moves_cons_iff.1 hmoves
        obtain ⟨p₂, hks, hclose⟩ := moves_append_iff.1 h'
        have hnext : connectiveOf? p₂.current.kind = none := by
          rw [hclose.current]
          rfl
        have hinner := ihLevel h hks hnext (by omega)
        exact yields_condition_iff.2 (.inl ⟨p₁, p₂, hopen, hinner, hclose⟩)

theorem isLevel_of_yields {c : Condition} (h : Yields conditionList p c q) :
    ∃ ks, Moves p ks q ∧ IsLevel ks c :=
  (isLevel_of_yields_bounded _).1 (yields_get_bind_iff.1 h)

/-- The bound is large enough for every phrase that the items hold. -/
theorem yields_of_isLevel {c : Condition} (h : IsLevel ks c) (hmoves : Moves p ks q)
    (hnext : connectiveOf? q.current.kind = none) : Yields conditionList p c q := by
  have hlength := hmoves.length_le
  exact yields_get_bind_iff.2 ((yields_of_isLevel_bounded _).1 h hmoves hnext (by omega))

/-! ## Clauses -/

theorem yields_whereClause_iff {c : Option Condition} :
    Yields whereClause p c q ↔ (p.current.kind ≠ .keyword .whereWord ∧ c = none ∧ q = p) ∨
      ∃ p₁ c', Moves p [.keyword .whereWord] p₁ ∧ Yields conditionList p₁ c' q ∧ c = some c' := by
  unfold whereClause
  rw [yields_peek_bind_iff]
  by_cases h : p.current.kind = .keyword .whereWord
  · rw [if_pos h, yields_advance_bind_iff h keyword_ne_finish]
    simp only [yields_bind_iff, yields_pure_iff, h, ne_eq, not_true_eq_false, false_and, false_or]
    constructor
    · rintro ⟨p₁, hword, c', q', hc, rfl, rfl⟩
      exact ⟨p₁, c', hword, hc, rfl⟩
    · rintro ⟨p₁, c', hword, hc, rfl⟩
      exact ⟨p₁, hword, c', q, hc, rfl, rfl⟩
  · rw [if_neg h]
    simp only [yields_pure_iff, ne_eq, h, not_false_eq_true, true_and]
    refine ⟨.inl, fun h' => h'.resolve_right ?_⟩
    rintro ⟨p₁, c', hword, -⟩
    exact h hword.current

theorem isClause_of_yields {c : Option Condition} (h : Yields whereClause p c q) :
    ∃ ks, Moves p ks q ∧ IsClause ks c := by
  rcases yields_whereClause_iff.1 h with ⟨-, rfl, rfl⟩ | ⟨p₁, c', hword, hc, rfl⟩
  · exact ⟨[], .stay _, .none⟩
  · obtain ⟨ks, hmoves, hlevel⟩ := isLevel_of_yields hc
    exact ⟨_, moves_cons_iff.2 ⟨p₁, hword, hmoves⟩, .some hlevel⟩

theorem yields_of_isClause {c : Option Condition} (h : IsClause ks c) (hmoves : Moves p ks q)
    (hnext : q.current.kind = .finish) : Yields whereClause p c q := by
  rw [yields_whereClause_iff]
  cases h with
  | none =>
    obtain rfl := moves_nil_iff.1 hmoves
    exact .inl ⟨hnext.trans_ne keyword_ne_finish.symm, rfl, rfl⟩
  | some h =>
    obtain ⟨p₁, hword, hks⟩ := moves_cons_iff.1 hmoves
    exact .inr ⟨p₁, _, hword, yields_of_isLevel h hks (by rw [hnext]; rfl), rfl⟩

/-- What a statement ends with starts with WHERE, or is nothing. -/
theorem current_ne_sign_of_isClause {c : Option Condition} {s : Sign} (h : IsClause ks c)
    (hmoves : Moves p ks q) (hnext : q.current.kind = .finish) : p.current.kind ≠ .sign s := by
  cases h with
  | none =>
    obtain rfl := moves_nil_iff.1 hmoves
    exact hnext.trans_ne sign_ne_finish.symm
  | some h => exact hmoves.current_ne keyword_ne_sign

end Warrant.Parser
