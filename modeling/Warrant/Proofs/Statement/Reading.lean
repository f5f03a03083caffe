import Warrant.Proofs.Statement.Bounds
import Warrant.Proofs.Statement.Exactness

/-!
# Every action is read off the kinds of tokens

What an action of the parser moves over when it succeeds is a phrase, and what it has moved over when
it fails begins one. For the actions that move over single tokens this is seen at once; the others are
put together from them as the grammar puts phrases together. Only here it matters that the parser
asks for no more than the next token: whatever it has moved over can be gone on with, in the middle of
a group and of a list as well.

## Main definitions

- `Parser.phrases` — the phrases that denote something

## Main statements

- `Parser.reads_conditions` — conditions of one level, the others of it, and single conditions
- `Parser.reads_moreOf_get` — lists with commas
- `Parser.reads_statement` — whole statements
-/

namespace Warrant

namespace Parser

open Grammar

variable {α β : Type} {p q : Parser} {ks : Phrase} {k : Token.Kind} {b : Nat}

deriving instance Nonempty for Comparison, Literal, Selector, Reference, Subject, Projection,
  Setting, Statement

/-- The phrases that denote something, when `R` says what they denote. -/
def phrases (R : Phrase → α → Prop) : Language Token.Kind :=
  {ks | ∃ a, R ks a}

/-- The phrases of one token that denotes something. -/
def letters (R : Token.Kind → α → Prop) : Language Token.Kind :=
  {ks | ∃ k a, R k a ∧ ks = [k]}

theorem forall_mem_mul {L M : Language Token.Kind} {P : Phrase → Prop} :
    (∀ ks ∈ L * M, P ks) ↔ ∀ ks ∈ L, ∀ ls ∈ M, P (ks ++ ls) :=
  Set.forall_mem_image2

theorem forall_mem_singleton {P : Phrase → Prop} :
    (∀ ks ∈ ({[k]} : Language Token.Kind), P ks) ↔ P [k] :=
  forall_eq

theorem Reads.bind_pure [Nonempty α] {L : Language Token.Kind} {x : Action α}
    (h : Reads x L p) (f : α → β) : Reads (x >>= fun a => pure (f a)) L p := by
  have hbind := h.bind fun a q => reads_pure (f a) q
  rwa [mul_one] at hbind

theorem reads_advance_bind {M : Language Token.Kind} {f : Unit → Action α}
    (hk : p.current.kind = k) (hne : k ≠ .finish) (hf : ∀ q, Reads (f ()) M q) :
    Reads (advance >>= f) ({[k]} * M) p :=
  (reads_advance hk hne).bind fun _ q => hf q

theorem reads_expect (hne : k ≠ .finish) (p : Parser) : Reads (expect k) {[k]} p := by
  refine .peek_bind ?_
  by_cases h : p.current.kind = k
  · rw [if_pos h]
    exact reads_advance h hne
  · rw [if_neg h]
    exact reads_unexpected ⟨[k], rfl⟩

theorem reads_keyword (word : Keyword) (p : Parser) :
    Reads (keyword word) {[.keyword word]} p :=
  reads_expect keyword_ne_finish p

theorem reads_sign (s : Sign) (p : Parser) : Reads (sign s) {[.sign s]} p :=
  reads_expect sign_ne_finish p

theorem reads_expect_finish (p : Parser) : Reads (expect .finish) 1 p := by
  refine .peek_bind ?_
  by_cases h : p.current.kind = .finish
  · rw [if_pos h]
    exact reads_advance_of_finish h
  · rw [if_neg h]
    exact reads_unexpected ⟨[], Language.nil_mem_one⟩

/-- An action that looks the current token up in a table and moves over it. -/
theorem reads_table {table? : Token.Kind → Option α} {action : Action α} (e : Expectation)
    {L : Language Token.Kind} (haction : action = peek >>= fun k =>
      (table? k).elim (unexpected e) fun value => advance >>= fun _ => pure value)
    (hfinish : table? .finish = none) (hL : ∀ k a, table? k = some a → [k] ∈ L)
    (hexists : ∃ ks, ks ∈ L) : Reads action L p := by
  rw [haction]
  refine .peek_bind ?_
  cases hvalue : table? p.current.kind with
  | none => exact reads_unexpected hexists
  | some value =>
    have hne : p.current.kind ≠ .finish := fun hp => by
      rw [hp, hfinish] at hvalue
      exact nomatch hvalue
    refine ((reads_advance rfl hne).bind_pure fun _ => value).mono ?_
    rintro _ rfl
    exact hL _ _ hvalue

theorem reads_literal (p : Parser) : Reads literal (letters IsLiteral) p :=
  reads_table .literal (congrArg (peek >>= ·) (funext fun k => by cases literalOf? k <;> rfl)) rfl
    (fun k v h => ⟨k, v, literalOf?_eq_some_iff.1 h, rfl⟩) ⟨_, _, _, .self, rfl⟩

theorem reads_comparison (p : Parser) : Reads comparison (letters IsComparison) p :=
  reads_table .comparison
    (congrArg (peek >>= ·) (funext fun k => by cases comparisonOf? k <;> rfl)) rfl
    (fun k how h => ⟨k, how, comparisonOf?_eq_some_iff.1 h, rfl⟩) ⟨_, _, _, .equal, rfl⟩

theorem reads_name (e : Expectation) (p : Parser) : Reads (name e) (phrases IsName) p := by
  refine .peek_bind ?_
  cases hk : p.current.kind with
  | name s =>
    refine ((reads_advance hk name_ne_finish).bind_pure fun _ => s).mono ?_
    rintro _ rfl
    exact ⟨s, rfl⟩
  | _ => exact reads_unexpected ⟨_, "", rfl⟩

theorem exists_mem_isCondition : ∃ ks, ks ∈ phrases IsCondition :=
  ⟨_, _, .compare "" .equal .self⟩

/-- A level is read if its first condition is, and what may follow it. -/
theorem reads_conditions_succ {b : Nat}
    (hcondition : ∀ p, Reads (condition b) (phrases IsCondition) p)
    (hothers : ∀ connective p, Reads (moreConditions b connective)
      (1 + phrases (IsOthers connective.word)) p) (p : Parser) :
    Reads (conditions (b + 1)) (phrases IsLevel) p := by
  rw [conditions]
  -- Which conditions may follow depends on the word that is met, so they have no language of their
  -- own. What makes a level of every first condition is enough.
  let M : Language Token.Kind := {ls | ∀ ks ∈ phrases IsCondition, ks ++ ls ∈ phrases IsLevel}
  refine Reads.mono (L := phrases IsCondition * M)
    ((hcondition p).bind fun first q => .peek_bind ?_)
    (forall_mem_mul.2 fun ks hks ls hls => hls ks hks)
  cases connectiveOf? q.current.kind with
  | none =>
    refine (reads_pure first q).mono ?_
    rintro _ rfl ks ⟨c, hc⟩
    rw [List.append_nil]
    exact ⟨c, .one hc⟩
  | some connective =>
    refine ((hothers connective q).bind_pure fun cs => connective.join (first :: cs)).mono ?_
    rintro ls (rfl | ⟨cs, hcs⟩) ks ⟨c, hc⟩
    · rw [List.append_nil]
      exact ⟨c, .one hc⟩
    · exact ⟨_, isLevel_join hc hcs⟩

/-- Others are read if one condition is, and the others after it. -/
theorem reads_moreConditions_succ {b : Nat}
    (hcondition : ∀ p, Reads (condition b) (phrases IsCondition) p)
    (hothers : ∀ connective p, Reads (moreConditions b connective)
      (1 + phrases (IsOthers connective.word)) p) (connective : Connective) (p : Parser) :
    Reads (moreConditions (b + 1) connective) (1 + phrases (IsOthers connective.word)) p := by
  rw [moreConditions]
  refine .peek_bind ?_
  cases hfound : connectiveOf? p.current.kind with
  | none =>
    refine (reads_pure [] p).mono fun ks hks => ?_
    exact .inl hks
  | some found =>
    by_cases heq : found = connective
    · subst heq
      have hkind := connectiveOf?_eq_some_iff.1 hfound
      simp only [if_pos]
      refine (reads_advance_bind hkind keyword_ne_finish fun q =>
        (hcondition q).bind fun c q' => (hothers found q').bind_pure (c :: ·)).mono ?_
      simp only [forall_mem_mul, forall_mem_singleton, List.singleton_append]
      rintro ks ⟨c, hc⟩ ls (rfl | ⟨cs, hcs⟩)
      · rw [List.append_nil]
        exact .inr ⟨[c], .last hc⟩
      · exact .inr ⟨c :: cs, .cons hc hcs⟩
    · simp only [if_neg heq]
      exact reads_unexpected ⟨[], .inl rfl⟩

/-- A condition is read if levels are, which stand in parentheses. -/
theorem reads_condition_succ {b : Nat}
    (hlevel : ∀ p, Reads (conditions b) (phrases IsLevel) p) (p : Parser) :
    Reads (condition (b + 1)) (phrases IsCondition) p := by
  rw [condition]
  refine .peek_bind ?_
  cases hk : p.current.kind with
  | sign s =>
    cases s with
    | leftParen =>
      refine (reads_advance_bind hk sign_ne_finish fun q =>
        (hlevel q).bind fun c q' => (reads_sign .rightParen q').bind_pure fun _ => c).mono ?_
      simp only [forall_mem_mul, forall_mem_singleton, List.singleton_append]
      rintro ks ⟨c, hc⟩
      exact ⟨c, .group hc⟩
    | _ => exact reads_unexpected exists_mem_isCondition
  | name field =>
    refine (reads_advance_bind hk name_ne_finish fun q =>
      (reads_comparison q).bind fun how q' =>
        (reads_literal q').bind_pure (Condition.compare field how)).mono ?_
    simp only [forall_mem_mul, forall_mem_singleton, List.singleton_append]
    rintro _ ⟨sign, how, hhow, rfl⟩ _ ⟨value, v, hv, rfl⟩
    exact ⟨_, .compare field hhow hv⟩
  | _ => exact reads_unexpected exists_mem_isCondition

/-- Conditions are read, whatever the bound is. -/
theorem reads_conditions (b : Nat) :
    (∀ p, Reads (conditions b) (phrases IsLevel) p) ∧
    (∀ connective p, Reads (moreConditions b connective)
      (1 + phrases (IsOthers connective.word)) p) ∧
    (∀ p, Reads (condition b) (phrases IsCondition) p) := by
  induction b with
  | zero =>
    refine ⟨fun p => ?_, fun connective p => ?_, fun p => ?_⟩
    · rw [conditions]
      obtain ⟨ks, c, h⟩ := exists_mem_isCondition
      exact reads_unexpected ⟨ks, c, .one h⟩
    · rw [moreConditions]
      exact reads_unexpected ⟨[], .inl rfl⟩
    · rw [condition]
      exact reads_unexpected exists_mem_isCondition
  | succ b ih =>
    obtain ⟨ihLevel, ihOthers, ihCondition⟩ := ih
    exact ⟨reads_conditions_succ ihCondition ihOthers,
      reads_moreConditions_succ ihCondition ihOthers, reads_condition_succ ihLevel⟩

theorem reads_conditionList (p : Parser) : Reads conditionList (phrases IsLevel) p := by
  refine Reads.bounded (fun b q => (reads_conditions b).1 q) (fun q b hb => ?_) p
  have hleft := q.left_le
  exact (conditions_congr _).1 q b (by omega) hb

theorem reads_whereClause (p : Parser) : Reads whereClause (phrases IsClause) p := by
  refine .peek_bind ?_
  by_cases hk : p.current.kind = .keyword .whereWord
  · rw [if_pos hk]
    refine (reads_advance_bind hk keyword_ne_finish fun q =>
      (reads_conditionList q).bind_pure some).mono ?_
    simp only [forall_mem_mul, forall_mem_singleton, List.singleton_append]
    rintro ks ⟨c, hc⟩
    exact ⟨some c, .some hc⟩
  · rw [if_neg hk]
    refine (reads_pure none p).mono ?_
    rintro _ rfl
    exact ⟨none, .none⟩

theorem reads_dotted (p : Parser) : Reads dotted (letters fun k s => dottedOf? k = some s) p := by
  refine reads_table .selector (congrArg (peek >>= ·) (funext fun k => ?_)) rfl
    (fun k s h => ⟨k, s, h, rfl⟩) ⟨[.sign .asterisk], _, _, rfl, rfl⟩
  cases k with
  | sign s => cases s <;> rfl
  | keyword k => cases k <;> rfl
  | _ => rfl

theorem reads_selector (p : Parser) : Reads selector (phrases IsSelector) p := by
  have hall : Reads (pure Selector.all) (phrases IsSelector) p := by
    refine (reads_pure _ p).mono ?_
    rintro _ rfl
    exact ⟨_, .all⟩
  refine .peek_bind ?_
  cases hk : p.current.kind with
  | sign s =>
    cases s with
    | dot =>
      refine (reads_advance_bind hk sign_ne_finish reads_dotted).mono ?_
      simp only [forall_mem_mul, forall_mem_singleton, List.singleton_append]
      rintro _ ⟨k, s, hs, rfl⟩
      exact ⟨s, isSelector_of_dottedOf? hs⟩
    | leftParen =>
      refine (reads_advance_bind hk sign_ne_finish fun q => (reads_conditionList q).bind
        fun c q' => (reads_sign .rightParen q').bind_pure fun _ => Selector.conditions c).mono ?_
      simp only [forall_mem_mul, forall_mem_singleton, List.singleton_append]
      rintro ks ⟨c, hc⟩
      exact ⟨_, .conditions hc⟩
    | _ => exact hall
  | _ => exact hall

theorem reads_reference (p : Parser) : Reads reference (phrases IsReference) p := by
  refine ((reads_name _ p).bind fun entity q =>
    (reads_selector q).bind_pure (Reference.mk entity)).mono ?_
  simp only [forall_mem_mul]
  rintro _ ⟨entity, rfl⟩ ks ⟨s, hs⟩
  exact ⟨_, .mk entity hs⟩

theorem reads_subject (p : Parser) : Reads subject (phrases IsSubject) p := by
  have hexists : ∃ ks, ks ∈ phrases IsSubject := ⟨_, _, .self⟩
  refine .peek_bind ?_
  cases hk : p.current.kind with
  | keyword word =>
    cases word with
    | selfWord =>
      refine ((reads_advance hk keyword_ne_finish).bind_pure fun _ => Subject.self).mono ?_
      rintro _ rfl
      exact ⟨_, .self⟩
    | _ => exact reads_unexpected hexists
  | name s =>
    refine ((reads_reference p).bind_pure Subject.reference).mono ?_
    rintro ks ⟨ref, href⟩
    exact ⟨_, .reference href⟩
  | _ => exact reads_unexpected hexists

theorem reads_moreOf {R : Phrase → α → Prop} {item : Action α} [Nonempty α]
    (hitem : ∀ p, Reads item (phrases R) p) (b : Nat) (p : Parser) :
    Reads (moreOf item b) (phrases (After R)) p := by
  have hnone (p : Parser) : Reads (pure ([] : List α)) (phrases (After R)) p := by
    refine (reads_pure _ p).mono ?_
    rintro _ rfl
    exact ⟨[], .nil⟩
  induction b generalizing p with
  | zero => exact hnone p
  | succ b ih =>
    rw [moreOf]
    refine .peek_bind ?_
    by_cases hk : p.current.kind = .sign .comma
    · rw [if_pos hk]
      refine (reads_advance_bind hk sign_ne_finish fun q => (hitem q).bind
        fun x q' => (ih q').bind_pure (x :: ·)).mono ?_
      simp only [forall_mem_mul, forall_mem_singleton, List.singleton_append]
      rintro ks ⟨x, hx⟩ ls ⟨xs, hxs⟩
      exact ⟨x :: xs, .cons hx hxs⟩
    · rw [if_neg hk]
      exact hnone p

/-- A list whose length is bounded by the items that are left. -/
theorem reads_moreOf_get {R : Phrase → α → Prop} {item : Action α} [Nonempty α]
    (hitem : ∀ p, Reads item (phrases R) p) (f : List α → β) (p : Parser) :
    Reads (get >>= fun q => moreOf item (q.rest.length + 1) >>= fun xs => pure (f xs))
      (phrases (After R)) p := by
  have hleft (p : Parser) (x : α) (q : Parser) (h : Yields item p x q) : q.left ≤ p.left := by
    obtain ⟨ks, -, hmoves, -⟩ := (hitem p).yields x q h
    have hle := hmoves.left_le
    omega
  refine Reads.bounded (fun b q => (reads_moreOf hitem b q).bind_pure f) (fun q b hb => ?_) p
  exact bind_congr_at (moreOf_congr hleft q.left_le hb) fun _ _ _ => rfl

theorem reads_projection (p : Parser) : Reads projection (phrases IsProjection) p := by
  unfold projection
  simp only [moreNames_eq]
  refine .peek_bind ?_
  by_cases hcolon : p.current.kind = .sign .colon
  · rw [if_pos hcolon]
    refine Reads.mono (L := {[.sign .colon]} * (phrases IsProjection).leftQuotient [.sign .colon])
      (reads_advance_bind hcolon sign_ne_finish fun q => .peek_bind ?_) ?_
    · by_cases hstar : q.current.kind = .sign .asterisk
      · rw [if_pos hstar]
        refine ((reads_advance hstar sign_ne_finish).bind_pure fun _ => Projection.all).mono ?_
        rintro _ rfl
        exact ⟨_, .all⟩
      · rw [if_neg hstar]
        refine ((reads_name _ q).bind fun first q' => reads_moreOf_get (reads_name .field)
          (fun others => Projection.fields (first :: others)) q').mono ?_
        simp only [forall_mem_mul]
        rintro _ ⟨s, rfl⟩ ls ⟨others, hothers⟩
        exact ⟨_, .fields (isNames_iff.2 ⟨s, ls, others, rfl, rfl, hothers⟩)⟩
    · rw [forall_mem_mul, forall_mem_singleton]
      exact fun ls hls => hls
  · rw [if_neg hcolon]
    refine (reads_pure _ p).mono ?_
    rintro _ rfl
    exact ⟨_, .none⟩

theorem reads_setting (p : Parser) : Reads setting (phrases IsSetting) p := by
  refine ((reads_name _ p).bind fun field q => (reads_sign .equal q).bind
    fun _ q' => (reads_literal q').bind_pure (Setting.mk field)).mono ?_
  simp only [forall_mem_mul, forall_mem_singleton, List.singleton_append]
  rintro _ ⟨field, rfl⟩ _ ⟨value, v, hv, rfl⟩
  exact ⟨⟨field, v⟩, value, hv, rfl⟩

theorem reads_settings (p : Parser) : Reads settings (phrases IsSettings) p := by
  unfold settings
  simp only [moreSettings_eq]
  refine ((reads_setting p).bind fun first q =>
    reads_moreOf_get reads_setting (fun others => first :: others) q).mono ?_
  simp only [forall_mem_mul]
  rintro ks ⟨s, hs⟩ ls ⟨others, hothers⟩
  exact ⟨_, isSettings_iff.2 ⟨s, ks, ls, others, hs, rfl, rfl, hothers⟩⟩

/-- GRANT and REVOKE differ in the word before the subject. -/
theorem reads_delegation (word : Keyword) (make : String → Reference → Subject → Statement)
    (p : Parser) :
    Reads (do
      let permission ← name .permission
      keyword .onWord
      let resource ← reference
      keyword word
      let subject ← subject
      return make permission resource subject)
    (phrases IsName * ({[.keyword .onWord]} * (phrases IsReference * ({[.keyword word]} *
      phrases IsSubject)))) p :=
  (reads_name _ p).bind fun permission q => (reads_keyword .onWord q).bind fun _ q =>
    (reads_reference q).bind fun resource q => (reads_keyword word q).bind fun _ q =>
      (reads_subject q).bind_pure (make permission resource)

/-- The part of a statement after its verb. -/
theorem reads_statementAfter {word : Keyword} {body : Action Statement}
    (h : statementAfter? word = some body) (p : Parser) :
    Reads body ((phrases IsStatement).leftQuotient [.keyword word]) p := by
  -- The word has been read, so what is left of the phrase is the quotient by it.
  cases word with
  | get =>
    cases h
    refine ((reads_reference p).bind fun target q => (reads_projection q).bind fun projection q =>
      (reads_whereClause q).bind_pure (Statement.get target projection)).mono ?_
    simp only [forall_mem_mul, List.singleton_append, Language.mem_leftQuotient]
    rintro _ ⟨_, href⟩ _ ⟨_, hprojection⟩ _ ⟨_, hclause⟩
    exact ⟨_, .get href hprojection hclause⟩
  | check =>
    cases h
    refine ((reads_subject p).bind fun subject q => (reads_keyword .canWord q).bind fun _ q =>
      (reads_name _ q).bind fun permission q => (reads_keyword .onWord q).bind fun _ q =>
        (reads_reference q).bind_pure (Statement.check subject permission)).mono ?_
    simp only [forall_mem_mul, forall_mem_singleton, List.singleton_append,
      Language.mem_leftQuotient]
    rintro _ ⟨_, hsubject⟩ _ ⟨permission, rfl⟩ _ ⟨_, href⟩
    exact ⟨_, .check permission hsubject href⟩
  | grant =>
    cases h
    refine (reads_delegation .toWord .grant p).mono ?_
    simp only [forall_mem_mul, forall_mem_singleton, List.singleton_append,
      Language.mem_leftQuotient]
    rintro _ ⟨permission, rfl⟩ _ ⟨_, href⟩ _ ⟨_, hsubject⟩
    exact ⟨_, .grant permission href hsubject⟩
  | revoke =>
    cases h
    refine (reads_delegation .fromWord .revoke p).mono ?_
    simp only [forall_mem_mul, forall_mem_singleton, List.singleton_append,
      Language.mem_leftQuotient]
    rintro _ ⟨permission, rfl⟩ _ ⟨_, href⟩ _ ⟨_, hsubject⟩
    exact ⟨_, .revoke permission href hsubject⟩
  | update =>
    cases h
    refine ((reads_reference p).bind fun target q => (reads_keyword .setWord q).bind fun _ q =>
      (reads_settings q).bind fun all q =>
        (reads_whereClause q).bind_pure (Statement.update target all)).mono ?_
    simp only [forall_mem_mul, forall_mem_singleton, List.singleton_append,
      Language.mem_leftQuotient]
    rintro _ ⟨_, href⟩ _ ⟨_, hsettings⟩ _ ⟨_, hclause⟩
    exact ⟨_, .update href hsettings hclause⟩
  | delete =>
    cases h
    refine ((reads_reference p).bind fun target q =>
      (reads_whereClause q).bind_pure (Statement.delete target)).mono ?_
    simp only [forall_mem_mul, List.singleton_append, Language.mem_leftQuotient]
    rintro _ ⟨_, href⟩ _ ⟨_, hclause⟩
    exact ⟨_, .delete href hclause⟩
  | _ => cases h

theorem reads_statement (p : Parser) : Reads statement (phrases IsStatement) p := by
  have hexists : ∃ ks, ks ∈ phrases IsStatement := ⟨_, _, .delete (.mk "" .all) .none⟩
  refine .peek_bind ?_
  cases hk : p.current.kind with
  | keyword word =>
    cases hbody : statementAfter? word with
    | none =>
      simp only [hbody]
      exact reads_unexpected hexists
    | some body =>
      simp only [hbody]
      refine (reads_advance_bind hk keyword_ne_finish fun q => (reads_statementAfter hbody q).bind
        fun s q' => (reads_expect_finish q').bind_pure fun _ => s).mono ?_
      rw [mul_one, forall_mem_mul, forall_mem_singleton]
      exact fun ks hks => hks
  | _ => exact reads_unexpected hexists

end Parser

end Warrant
