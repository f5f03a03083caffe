import Warrant.Proofs.Statement.Phrases

/-!
# The parser reads the grammar

Whatever the parser returns, it has moved over the phrase before the end, and the phrase denotes
what is returned. Conversely it moves over every statement of the grammar. As the parser is a
function, no phrase denotes two statements.

## Main statements

- `Parser.yields_statement_iff_isStatement` — what the parser moves over
- `Statement.parse_exact` — what is parsed, and that it is unique
-/

namespace Warrant

namespace Parser

open Grammar

variable {p q : Parser} {ks : Phrase}

theorem yields_statement_iff {s : Statement} :
    Yields statement p s q ↔ ∃ word body p₁, statementAfter? word = some body ∧
      Moves p [.keyword word] p₁ ∧ Yields body p₁ s q ∧ q.current.kind = .finish := by
  unfold statement
  rw [yields_peek_bind_iff]
  constructor
  · intro h
    split at h
    · next word hp =>
      split at h
      · next body hbody =>
        obtain ⟨p₁, hmoves, h⟩ := (yields_advance_bind_iff hp keyword_ne_finish).1 h
        obtain ⟨s', q', hs, h⟩ := yields_bind_iff.1 h
        obtain ⟨u, q'', hfinish, h⟩ := yields_bind_iff.1 h
        obtain ⟨rfl, rfl⟩ := yields_pure_iff.1 h
        obtain ⟨hfinish, rfl⟩ := yields_expect_finish_iff.1 hfinish
        exact ⟨word, body, p₁, hbody, hmoves, hs, hfinish⟩
      · exact absurd h not_yields_unexpected
    · exact absurd h not_yields_unexpected
  · rintro ⟨word, body, p₁, hbody, hmoves, hs, hfinish⟩
    rw [hmoves.current]
    simp only [hbody]
    have hfinish : Yields (expect .finish) q () q := yields_expect_finish_iff.2 ⟨hfinish, rfl⟩
    exact hmoves.yields_advance_bind (hs.bind (hfinish.bind yields_pure))

section

variable {s : Statement} (hfinish : q.current.kind = .finish)
include hfinish

theorem yields_getStatement_iff : Yields getStatement p s q ↔
    ∃ target projected clause ref projection condition, IsReference target ref ∧
      IsProjection projected projection ∧ IsClause clause condition ∧
      Moves p (target ++ (projected ++ clause)) q ∧ s = .get ref projection condition := by
  simp only [getStatement, yields_bind_iff, yields_pure_iff]
  constructor
  · rintro ⟨ref, p₁, href, projection, p₂, hprojection, condition, p₃, hcondition, rfl, rfl⟩
    obtain ⟨target, htarget, href⟩ := isReference_of_yields href
    obtain ⟨projected, hprojected, hprojection⟩ := isProjection_of_yields hprojection
    obtain ⟨clause, hclause, hcondition⟩ := isClause_of_yields hcondition
    exact ⟨target, projected, clause, ref, projection, condition, href, hprojection, hcondition,
      moves_append_iff.2 ⟨p₁, htarget, moves_append_iff.2 ⟨p₂, hprojected, hclause⟩⟩, rfl⟩
  · rintro ⟨target, projected, clause, ref, projection, condition, href, hprojection, hcondition,
      hmoves, rfl⟩
    obtain ⟨p₁, htarget, hmoves⟩ := moves_append_iff.1 hmoves
    obtain ⟨p₂, hprojected, hclause⟩ := moves_append_iff.1 hmoves
    -- What follows the projection, and what follows the target before it.
    have hp₂ : ∀ s, p₂.current.kind ≠ .sign s := fun _ =>
      current_ne_sign_of_isClause hcondition hclause hfinish
    have hp₁ : ∀ s, .colon ≠ s → p₁.current.kind ≠ .sign s := fun s hcolon =>
      current_ne_of_isProjection hprojection hprojected (mt Token.Kind.sign.inj hcolon) (hp₂ s)
    have href := yields_of_isReference href htarget (hp₁ .dot (by decide))
      (hp₁ .leftParen (by decide))
    have hprojection := yields_of_isProjection hprojection hprojected (hp₂ .colon) (hp₂ .comma)
    have hcondition := yields_of_isClause hcondition hclause hfinish
    exact ⟨ref, p₁, href, projection, p₂, hprojection, condition, q, hcondition, rfl, rfl⟩

theorem yields_checkStatement_iff : Yields checkStatement p s q ↔
    ∃ who resource subject permission ref, IsSubject who subject ∧ IsReference resource ref ∧
      Moves p (who ++ (.keyword .canWord :: .name permission :: .keyword .onWord :: resource)) q ∧
      s = .check subject permission ref := by
  simp only [checkStatement, yields_bind_iff, yields_pure_iff, yields_keyword_iff,
    yields_name_iff]
  constructor
  · rintro ⟨subject, p₁, hsubject, -, p₂, hcan, permission, p₃, hpermission, -, p₄, hon, ref, p₅,
      href, rfl, rfl⟩
    obtain ⟨who, hwho, hsubject⟩ := isSubject_of_yields hsubject
    obtain ⟨resource, hresource, href⟩ := isReference_of_yields href
    exact ⟨who, resource, subject, permission, ref, hsubject, href, moves_append_iff.2 ⟨p₁, hwho,
      moves_cons_iff.2 ⟨p₂, hcan, moves_cons_iff.2 ⟨p₃, hpermission,
        moves_cons_iff.2 ⟨p₄, hon, hresource⟩⟩⟩⟩, rfl⟩
  · rintro ⟨who, resource, subject, permission, ref, hsubject, href, hmoves, rfl⟩
    obtain ⟨p₁, hwho, hmoves⟩ := moves_append_iff.1 hmoves
    obtain ⟨p₂, hcan, hmoves⟩ := moves_cons_iff.1 hmoves
    obtain ⟨p₃, hpermission, hmoves⟩ := moves_cons_iff.1 hmoves
    obtain ⟨p₄, hon, hresource⟩ := moves_cons_iff.1 hmoves
    have hsubject := yields_of_isSubject hsubject hwho (hcan.current_ne keyword_ne_sign)
      (hcan.current_ne keyword_ne_sign)
    have href := yields_of_isReference href hresource (hfinish.trans_ne sign_ne_finish.symm)
      (hfinish.trans_ne sign_ne_finish.symm)
    exact ⟨subject, p₁, hsubject, (), p₂, hcan, permission, p₃, hpermission, (), p₄, hon, ref, q,
      href, rfl, rfl⟩

/-- GRANT and REVOKE differ in the word before the subject. -/
theorem yields_delegation_iff {word : Keyword} {make : String → Reference → Subject → Statement} :
    Yields (do
      let permission ← name .permission
      keyword .onWord
      let resource ← reference
      keyword word
      let subject ← subject
      return make permission resource subject) p s q ↔
    ∃ permission resource who ref subject, IsReference resource ref ∧ IsSubject who subject ∧
      Moves p (.name permission :: .keyword .onWord :: (resource ++ (.keyword word :: who))) q ∧
      s = make permission ref subject := by
  simp only [yields_bind_iff, yields_pure_iff, yields_keyword_iff, yields_name_iff]
  constructor
  · rintro ⟨permission, p₁, hpermission, -, p₂, hon, ref, p₃, href, -, p₄, hword, subject, p₅,
      hsubject, rfl, rfl⟩
    obtain ⟨resource, hresource, href⟩ := isReference_of_yields href
    obtain ⟨who, hwho, hsubject⟩ := isSubject_of_yields hsubject
    exact ⟨permission, resource, who, ref, subject, href, hsubject, moves_cons_iff.2 ⟨p₁,
      hpermission, moves_cons_iff.2 ⟨p₂, hon, moves_append_iff.2 ⟨p₃, hresource,
        moves_cons_iff.2 ⟨p₄, hword, hwho⟩⟩⟩⟩, rfl⟩
  · rintro ⟨permission, resource, who, ref, subject, href, hsubject, hmoves, rfl⟩
    obtain ⟨p₁, hpermission, hmoves⟩ := moves_cons_iff.1 hmoves
    obtain ⟨p₂, hon, hmoves⟩ := moves_cons_iff.1 hmoves
    obtain ⟨p₃, hresource, hmoves⟩ := moves_append_iff.1 hmoves
    obtain ⟨p₄, hword, hwho⟩ := moves_cons_iff.1 hmoves
    have href := yields_of_isReference href hresource (hword.current_ne keyword_ne_sign)
      (hword.current_ne keyword_ne_sign)
    have hsubject := yields_of_isSubject hsubject hwho (hfinish.trans_ne sign_ne_finish.symm)
      (hfinish.trans_ne sign_ne_finish.symm)
    exact ⟨permission, p₁, hpermission, (), p₂, hon, ref, p₃, href, (), p₄, hword, subject, q,
      hsubject, rfl, rfl⟩

theorem yields_updateStatement_iff : Yields updateStatement p s q ↔
    ∃ target assigned clause ref all condition, IsReference target ref ∧
      IsSettings assigned all ∧ IsClause clause condition ∧
      Moves p (target ++ (.keyword .setWord :: (assigned ++ clause))) q ∧
      s = .update ref all condition := by
  simp only [updateStatement, yields_bind_iff, yields_pure_iff, yields_keyword_iff]
  constructor
  · rintro ⟨ref, p₁, href, -, p₂, hset, all, p₃, hall, condition, p₄, hcondition, rfl, rfl⟩
    obtain ⟨target, htarget, href⟩ := isReference_of_yields href
    obtain ⟨assigned, hassigned, hall⟩ := isSettings_of_yields hall
    obtain ⟨clause, hclause, hcondition⟩ := isClause_of_yields hcondition
    exact ⟨target, assigned, clause, ref, all, condition, href, hall, hcondition,
      moves_append_iff.2 ⟨p₁, htarget, moves_cons_iff.2 ⟨p₂, hset,
        moves_append_iff.2 ⟨p₃, hassigned, hclause⟩⟩⟩, rfl⟩
  · rintro ⟨target, assigned, clause, ref, all, condition, href, hall, hcondition, hmoves, rfl⟩
    obtain ⟨p₁, htarget, hmoves⟩ := moves_append_iff.1 hmoves
    obtain ⟨p₂, hset, hmoves⟩ := moves_cons_iff.1 hmoves
    obtain ⟨p₃, hassigned, hclause⟩ := moves_append_iff.1 hmoves
    have href := yields_of_isReference href htarget (hset.current_ne keyword_ne_sign)
      (hset.current_ne keyword_ne_sign)
    have hall := yields_of_isSettings hall hassigned
      (current_ne_sign_of_isClause hcondition hclause hfinish)
    have hcondition := yields_of_isClause hcondition hclause hfinish
    exact ⟨ref, p₁, href, (), p₂, hset, all, p₃, hall, condition, q, hcondition, rfl, rfl⟩

theorem yields_deleteStatement_iff : Yields deleteStatement p s q ↔
    ∃ target clause ref condition, IsReference target ref ∧ IsClause clause condition ∧
      Moves p (target ++ clause) q ∧ s = .delete ref condition := by
  simp only [deleteStatement, yields_bind_iff, yields_pure_iff]
  constructor
  · rintro ⟨ref, p₁, href, condition, p₂, hcondition, rfl, rfl⟩
    obtain ⟨target, htarget, href⟩ := isReference_of_yields href
    obtain ⟨clause, hclause, hcondition⟩ := isClause_of_yields hcondition
    exact ⟨target, clause, ref, condition, href, hcondition,
      moves_append_iff.2 ⟨p₁, htarget, hclause⟩, rfl⟩
  · rintro ⟨target, clause, ref, condition, href, hcondition, hmoves, rfl⟩
    obtain ⟨p₁, htarget, hclause⟩ := moves_append_iff.1 hmoves
    have href := yields_of_isReference href htarget
      (current_ne_sign_of_isClause hcondition hclause hfinish)
      (current_ne_sign_of_isClause hcondition hclause hfinish)
    have hcondition := yields_of_isClause hcondition hclause hfinish
    exact ⟨ref, p₁, href, condition, q, hcondition, rfl, rfl⟩

end

/-- **The parser moves over the statements of the grammar**, and returns what they denote. -/
theorem yields_statement_iff_isStatement {s : Statement} : Yields statement p s q ↔
    ∃ ks, Moves p ks q ∧ IsStatement ks s ∧ q.current.kind = .finish := by
  rw [yields_statement_iff]
  constructor
  · rintro ⟨word, body, p₁, hbody, hword, hs, hfinish⟩
    -- The verb decides which body reads the rest, so only the rest is compared.
    suffices ∃ ks, Moves p₁ ks q ∧ IsStatement (.keyword word :: ks) s by
      obtain ⟨ks, hmoves, hks⟩ := this
      exact ⟨_, moves_cons_iff.2 ⟨p₁, hword, hmoves⟩, hks, hfinish⟩
    unfold statementAfter? at hbody
    split at hbody <;> cases hbody
    · obtain ⟨_, _, _, _, _, _, href, hprojection, hclause, hmoves, rfl⟩ :=
        (yields_getStatement_iff hfinish).1 hs
      exact ⟨_, hmoves, .get href hprojection hclause⟩
    · obtain ⟨_, _, _, _, _, hsubject, href, hmoves, rfl⟩ :=
        (yields_checkStatement_iff hfinish).1 hs
      exact ⟨_, hmoves, .check _ hsubject href⟩
    · obtain ⟨_, _, _, _, _, href, hsubject, hmoves, rfl⟩ := (yields_delegation_iff hfinish).1 hs
      exact ⟨_, hmoves, .grant _ href hsubject⟩
    · obtain ⟨_, _, _, _, _, href, hsubject, hmoves, rfl⟩ := (yields_delegation_iff hfinish).1 hs
      exact ⟨_, hmoves, .revoke _ href hsubject⟩
    · obtain ⟨_, _, _, _, _, _, href, hsettings, hclause, hmoves, rfl⟩ :=
        (yields_updateStatement_iff hfinish).1 hs
      exact ⟨_, hmoves, .update href hsettings hclause⟩
    · obtain ⟨_, _, _, _, href, hclause, hmoves, rfl⟩ := (yields_deleteStatement_iff hfinish).1 hs
      exact ⟨_, hmoves, .delete href hclause⟩
  · rintro ⟨ks, hmoves, hks, hfinish⟩
    suffices ∃ word body ls, ks = .keyword word :: ls ∧ statementAfter? word = some body ∧
        ∀ {p₁}, Moves p₁ ls q → Yields body p₁ s q by
      obtain ⟨word, body, ls, rfl, hbody, hs⟩ := this
      obtain ⟨p₁, hword, hls⟩ := moves_cons_iff.1 hmoves
      exact ⟨word, body, p₁, hbody, hword, hs hls, hfinish⟩
    cases hks with
    | get href hprojection hclause =>
      exact ⟨.get, _, _, rfl, rfl, fun hls => (yields_getStatement_iff hfinish).2
        ⟨_, _, _, _, _, _, href, hprojection, hclause, hls, rfl⟩⟩
    | check permission hsubject href =>
      exact ⟨.check, _, _, rfl, rfl, fun hls => (yields_checkStatement_iff hfinish).2
        ⟨_, _, _, permission, _, hsubject, href, hls, rfl⟩⟩
    | grant permission href hsubject =>
      exact ⟨.grant, _, _, rfl, rfl, fun hls => (yields_delegation_iff hfinish).2
        ⟨permission, _, _, _, _, href, hsubject, hls, rfl⟩⟩
    | revoke permission href hsubject =>
      exact ⟨.revoke, _, _, rfl, rfl, fun hls => (yields_delegation_iff hfinish).2
        ⟨permission, _, _, _, _, href, hsubject, hls, rfl⟩⟩
    | update href hsettings hclause =>
      exact ⟨.update, _, _, rfl, rfl, fun hls => (yields_updateStatement_iff hfinish).2
        ⟨_, _, _, _, _, _, href, hsettings, hclause, hls, rfl⟩⟩
    | delete href hclause =>
      exact ⟨.delete, _, _, rfl, rfl, fun hls => (yields_deleteStatement_iff hfinish).2
        ⟨_, _, _, _, href, hclause, hls, rfl⟩⟩

end Parser

namespace Statement

open Grammar Token.Item

/-- Items that are nothing but the kinds of their tokens. -/
def bare (ks : Phrase) : List Token.Item :=
  ks.map fun k => .ok ⟨k, "", .start⟩

theorem beforeFinish_bare {ks : Phrase} (hfinish : .finish ∉ ks) :
    beforeFinish (bare ks) = bare ks := by
  have hall : ∀ item ∈ bare ks, (!isFinish item) = true := by
    intro item hitem
    obtain ⟨k, hk, rfl⟩ := List.mem_map.1 hitem
    have hne : k ≠ .finish := fun heq => hfinish (heq ▸ hk)
    simpa [isFinish] using hne
  calc beforeFinish (bare ks)
      = (bare ks ++ []).takeWhile (!isFinish ·) := by rw [List.append_nil, beforeFinish]
    _ = bare ks := by rw [List.takeWhile_append_of_pos hall, List.takeWhile_nil, List.append_nil]

/-- A phrase of a statement is written by tokens without text and place, for one. -/
theorem exists_tokens_bare {ks : Phrase} {s : Statement} (h : IsStatement ks s) :
    ∃ tokens : List Token,
      beforeFinish (bare ks) = tokens.map .ok ∧ IsStatement (tokens.map Token.kind) s := by
  refine ⟨ks.map fun k => ⟨k, "", .start⟩, ?_, by simpa [Function.comp_def] using h⟩
  rw [beforeFinish_bare h.finish_not_mem, List.map_map]
  rfl

theorem run_eq_ok_iff {p : Parser} {s : Statement} :
    (Parser.run Parser.statement p).1 = .ok s ↔ ∃ q, Parser.Yields Parser.statement p s q := by
  unfold Parser.run Parser.Yields EStateM.run
  cases Parser.statement p with
  | ok a q => simp
  | error e q => simp

/-- What is parsed is a statement of the grammar, up to the end. -/
theorem parse_eq_ok_iff {items : List Token.Item} {s : Statement} :
    parse items = .ok s ↔ ∃ tokens : List Token,
      beforeFinish items = tokens.map .ok ∧ IsStatement (tokens.map Token.kind) s := by
  -- A parser starts at its first token. Without one it starts at an end, and a fault is no start.
  have hparser : ∀ p : Parser, (Parser.run Parser.statement p).1 = .ok s ↔
      ∃ tokens : List Token, beforeFinish p.items = tokens.map .ok ∧
        IsStatement (tokens.map Token.kind) s := by
    intro p
    rw [run_eq_ok_iff]
    constructor
    · rintro ⟨q, h⟩
      obtain ⟨ks, hmoves, hks, hfinish⟩ := Parser.yields_statement_iff_isStatement.1 h
      obtain ⟨tokens, hitems, rfl⟩ := Parser.exists_moves_finish_iff.1 ⟨q, hmoves, hfinish⟩
      exact ⟨tokens, hitems, hks⟩
    · rintro ⟨tokens, hitems, hks⟩
      obtain ⟨q, hmoves, hfinish⟩ := Parser.exists_moves_finish_iff.2 ⟨tokens, hitems, rfl⟩
      exact ⟨q, Parser.yields_statement_iff_isStatement.2 ⟨_, hmoves, hks, hfinish⟩⟩
  unfold parse
  cases items with
  | nil => exact hparser ⟨Parser.impliedFinish .start, []⟩
  | cons item rest =>
    cases item with
    | ok token => exact hparser ⟨token, rest⟩
    | error e =>
      refine ⟨nofun, ?_⟩
      rintro ⟨tokens, hitems, -⟩
      cases tokens with
      | nil => exact nomatch hitems
      | cons t ts => exact nomatch (List.cons.inj hitems).1

/-- **The parser reads exactly the grammar.** A sequence of tokens and faults is parsed into a
    statement exactly when no fault stands before the end and the tokens before the end are a
    phrase of the statement. No phrase denotes two statements. -/
theorem parse_exact :
    (∀ items s, parse items = .ok s ↔ ∃ tokens : List Token,
      beforeFinish items = tokens.map .ok ∧ IsStatement (tokens.map Token.kind) s) ∧
    ∀ ks s s', IsStatement ks s → IsStatement ks s' → s = s' := by
  refine ⟨fun items s => parse_eq_ok_iff, fun ks s s' h h' => ?_⟩
  have hparsed := parse_eq_ok_iff.2 (exists_tokens_bare h)
  have hparsed' := parse_eq_ok_iff.2 (exists_tokens_bare h')
  exact Except.ok.inj (hparsed.symm.trans hparsed')

/-- A group inside a level is read as its content, and a level that mixes the two words is no phrase
    of any statement. -/
theorem parse_exact_of_groups :
    parse (bare [.keyword .delete, .name "Note", .keyword .whereWord, .sign .leftParen, .name "a",
      .sign .equal, .integer 1, .keyword .andWord, .name "b", .sign .different, .integer 2,
      .sign .rightParen, .keyword .orWord, .name "c", .sign .equal, .keyword .selfWord]) =
      .ok (.delete ⟨"Note", .all⟩ (some (.any [.every [.compare "a" .equal (.integer 1),
        .compare "b" .different (.integer 2)], .compare "c" .equal .self]))) ∧
    ∀ s, ¬ IsStatement [.keyword .delete, .name "Note", .keyword .whereWord, .name "a",
      .sign .equal, .integer 1, .keyword .andWord, .name "b", .sign .different, .integer 2,
      .keyword .orWord, .name "c", .sign .equal, .keyword .selfWord] s := by
  constructor
  · refine (parse_exact.1 _ _).2 (exists_tokens_bare ?_)
    exact .delete (.mk _ .all) (.some (.any
      (.group (.every (.compare _ .equal (.integer 1))
        (.last (.compare _ .different (.integer 2)))))
      (.last (.compare _ .equal .self))))
  · intro s h
    have hparsed := (parse_exact.1 _ s).2 (exists_tokens_bare h)
    exact nomatch hparsed

end Statement

end Warrant
