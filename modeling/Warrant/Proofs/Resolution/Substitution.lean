import Warrant.Proofs.Resolution.Acceptance

/-!
# SELF is substitution

A statement that speaks of whoever runs it can be written for one of them alone: a literal SELF
becomes the id as a text, a row SELF the row with that id. Where the statement has a plan, the other
one has the same. And without the word nothing of whoever acts gets into a plan, but for the place
where the plan says for whom it is.

## Main definitions

- `Statement.bindSelf` — a statement with a principal written out for SELF
- `Statement.mentionsSelf` — whether SELF occurs in a statement
- `Refines` — a result that is kept
- `SameForBoth` — two results that differ in the principal alone

## Main statements

- `Scope.operation_bindSelf` — writing the principal out keeps what a statement is resolved to
- `Scope.operation_eq_of_not_mentionsSelf` — without SELF it does not matter who acts
- `Statement.resolve_bindSelf` — both for plans
-/

namespace Warrant

/-! ## Writing SELF out -/

/-- The id of a principal for SELF. -/
def Literal.bindSelf (p : Principal) : Literal → Literal
  | .self => .string p.id
  | literal => literal

namespace Condition

mutual

/-- A condition with a principal written out for SELF. -/
def bindSelf (p : Principal) : Condition → Condition
  | .compare field how value => .compare field how (value.bindSelf p)
  | .every parts => .every (bindSelfIn p parts)
  | .any parts => .any (bindSelfIn p parts)

/-- Conditions with a principal written out for SELF. -/
def bindSelfIn (p : Principal) : List Condition → List Condition
  | [] => []
  | c :: rest => bindSelf p c :: bindSelfIn p rest

end

mutual

/-- Whether SELF occurs in a condition. -/
def mentionsSelf : Condition → Bool
  | .compare _ _ value => value = .self
  | .every parts => anyMentionsSelf parts
  | .any parts => anyMentionsSelf parts

/-- Whether SELF occurs in one of some conditions. -/
def anyMentionsSelf : List Condition → Bool
  | [] => false
  | c :: rest => mentionsSelf c || anyMentionsSelf rest

end

end Condition

/-- The row with the id of a principal for the row SELF. -/
def Selector.bindSelf (p : Principal) : Selector → Selector
  | .self => .conditions (.compare Row.idField .equal (.string p.id))
  | .conditions c => .conditions (c.bindSelf p)
  | selector => selector

def Reference.bindSelf (p : Principal) (ref : Reference) : Reference :=
  ⟨ref.entity, ref.selector.bindSelf p⟩

/-- A reference to the row of a principal for the subject SELF. -/
def Subject.bindSelf (p : Principal) : Subject → Subject
  | .self => .reference (.withField p.entity Row.idField p.id)
  | .reference ref => .reference (ref.bindSelf p)

def Setting.bindSelf (p : Principal) (a : Setting) : Setting :=
  ⟨a.field, a.value.bindSelf p⟩

/-- **A statement with a principal written out for SELF**, wherever it occurs. -/
def Statement.bindSelf (p : Principal) : Statement → Statement
  | .get ref names clause => .get (ref.bindSelf p) names (clause.map (·.bindSelf p))
  | .check who permission what => .check (who.bindSelf p) permission (what.bindSelf p)
  | .grant permission what who => .grant permission (what.bindSelf p) (who.bindSelf p)
  | .revoke permission what who => .revoke permission (what.bindSelf p) (who.bindSelf p)
  | .update ref settings clause =>
    .update (ref.bindSelf p) (settings.map (·.bindSelf p)) (clause.map (·.bindSelf p))
  | .delete ref clause => .delete (ref.bindSelf p) (clause.map (·.bindSelf p))

def Selector.mentionsSelf : Selector → Bool
  | .self => true
  | .conditions c => c.mentionsSelf
  | _ => false

def Subject.mentionsSelf : Subject → Bool
  | .self => true
  | .reference ref => ref.selector.mentionsSelf

def Setting.mentionsSelf (a : Setting) : Bool :=
  a.value = .self

/-- **Whether SELF occurs in a statement.** -/
def Statement.mentionsSelf : Statement → Bool
  | .get ref _ clause => ref.selector.mentionsSelf || clause.any (·.mentionsSelf)
  | .check who _ what => who.mentionsSelf || what.selector.mentionsSelf
  | .grant _ what who => what.selector.mentionsSelf || who.mentionsSelf
  | .revoke _ what who => what.selector.mentionsSelf || who.mentionsSelf
  | .update ref settings clause =>
    ref.selector.mentionsSelf || settings.any (·.mentionsSelf) || clause.any (·.mentionsSelf)
  | .delete ref clause => ref.selector.mentionsSelf || clause.any (·.mentionsSelf)

variable {p : Principal}

theorem Literal.bindSelf_ne_self (literal : Literal) : literal.bindSelf p ≠ .self := by
  cases literal <;> exact nofun

namespace Condition

theorem bindSelfIn_eq_map (parts : List Condition) :
    bindSelfIn p parts = parts.map (bindSelf p) := by
  induction parts with
  | nil => rfl
  | cons c rest ih => rw [bindSelfIn, ih, List.map_cons]

theorem anyMentionsSelf_eq_false_iff {parts : List Condition} :
    anyMentionsSelf parts = false ↔ ∀ c ∈ parts, c.mentionsSelf = false := by
  induction parts with
  | nil => exact ⟨nofun, fun _ => rfl⟩
  | cons c rest ih => rw [anyMentionsSelf, Bool.or_eq_false_iff, ih, List.forall_mem_cons]

/-- No SELF is left. -/
theorem mentionsSelf_bindSelf (c : Condition) : (c.bindSelf p).mentionsSelf = false := by
  induction c using Condition.induction with
  | compare field how literal => exact decide_eq_false literal.bindSelf_ne_self
  | every parts ih | any parts ih =>
    rw [bindSelf, mentionsSelf, anyMentionsSelf_eq_false_iff, bindSelfIn_eq_map]
    exact List.forall_mem_map.2 ih

end Condition

theorem Selector.mentionsSelf_bindSelf (selector : Selector) :
    (selector.bindSelf p).mentionsSelf = false := by
  cases selector with
  | conditions c => exact c.mentionsSelf_bindSelf
  | _ => rfl

theorem Subject.mentionsSelf_bindSelf (who : Subject) : (who.bindSelf p).mentionsSelf = false := by
  cases who with
  | self => rfl
  | reference ref => exact ref.selector.mentionsSelf_bindSelf

theorem Condition.any_mentionsSelf_map_bindSelf (clause : Option Condition) :
    (clause.map (·.bindSelf p)).any (·.mentionsSelf) = false := by
  cases clause with
  | none => rfl
  | some c => exact c.mentionsSelf_bindSelf

theorem Setting.any_mentionsSelf_map_bindSelf (settings : List Setting) :
    (settings.map (·.bindSelf p)).any (·.mentionsSelf) = false := by
  rw [List.any_map, List.any_eq_false]
  intro a _
  rw [Function.comp_apply, Bool.not_eq_true]
  exact decide_eq_false a.value.bindSelf_ne_self

/-- **No SELF is left** in a statement where it has been written out. -/
theorem Statement.mentionsSelf_bindSelf (statement : Statement) :
    (statement.bindSelf p).mentionsSelf = false := by
  cases statement with
  | get ref names clause | delete ref clause =>
    exact Bool.or_eq_false_iff.2 ⟨ref.selector.mentionsSelf_bindSelf,
      Condition.any_mentionsSelf_map_bindSelf clause⟩
  | check who permission what =>
    exact Bool.or_eq_false_iff.2 ⟨who.mentionsSelf_bindSelf, what.selector.mentionsSelf_bindSelf⟩
  | grant permission what who | revoke permission what who =>
    exact Bool.or_eq_false_iff.2 ⟨what.selector.mentionsSelf_bindSelf, who.mentionsSelf_bindSelf⟩
  | update ref settings clause =>
    exact Bool.or_eq_false_iff.2 ⟨Bool.or_eq_false_iff.2 ⟨ref.selector.mentionsSelf_bindSelf,
      Setting.any_mentionsSelf_map_bindSelf settings⟩,
      Condition.any_mentionsSelf_map_bindSelf clause⟩

/-! ## Results that are kept -/

/-- **A result is kept**: whatever the first gives, the second gives, too. -/
def Refines {α : Type} (x x' : Scope.Resolved α) : Prop :=
  ∀ a, x = .ok a → x' = .ok a

namespace Refines

variable {α β : Type} {x x' : Scope.Resolved α} {f f' : α → Scope.Resolved β}

theorem refl (x : Scope.Resolved α) : Refines x x :=
  fun _ h => h

theorem bind (hx : Refines x x') (hf : ∀ a, x = .ok a → Refines (f a) (f' a)) :
    Refines (x >>= f) (x' >>= f') := by
  intro b h
  obtain ⟨a, ha, hb⟩ := bind_eq_ok_iff.1 h
  exact bind_eq_ok_iff.2 ⟨a, hx a ha, hf a ha b hb⟩

theorem of_error (e : ResolutionError) : Refines (.error e) x' := by
  intro a h
  cases h

/-- What is done with a result is done with the one that is kept. -/
theorem wrap (hx : Refines x x') (f : α → Scope.Resolved β) : Refines (x >>= f) (x' >>= f) :=
  hx.bind fun a _ => refl (f a)

/-- What is kept is kept past a check. -/
theorem guard {c : Prop} [Decidable c] {e : ResolutionError} (hx : Refines x x') :
    Refines (if c then .error e else x) (if c then .error e else x') := by
  intro a h
  obtain ⟨hc, h⟩ := ite_error_eq_ok_iff.1 h
  exact ite_error_eq_ok_iff.2 ⟨hc, hx a h⟩

end Refines

/-- A literal that is written out denotes what SELF denoted. -/
theorem Literal.Denotes.bindSelf {literal : Literal} {type : FieldType} {v : Value}
    (h : literal.Denotes p.id type v) : (literal.bindSelf p).Denotes p.id type v := by
  cases h with
  | string text => exact .string text
  | self => exact .string p.id
  | integer i => exact .integer i
  | float x => exact .float x
  | boolean b => exact .boolean b
  | timestamp ht => exact .timestamp ht

namespace Scope

variable {s s' : Scope} {e : Entity}

/-! ## The principal written out -/

theorem coerce_bindSelf (f : Field) (literal : Literal) :
    Refines (s.coerce e f literal) (s.coerce e f (literal.bindSelf s.principal)) :=
  fun _ h => coerce_eq_ok_iff.2 ((coerce_eq_ok_iff.1 h).bindSelf (p := s.principal))

theorem filters_bindSelfIn {parts : List Condition}
    (h : ∀ c ∈ parts, Refines (s.filter e c) (s.filter e (c.bindSelf s.principal))) :
    Refines (s.filters e parts) (s.filters e (Condition.bindSelfIn s.principal parts)) := by
  induction parts with
  | nil => exact .refl _
  | cons c rest ih =>
    rw [List.forall_mem_cons] at h
    exact h.1.bind fun f _ => (ih h.2).wrap _

theorem filter_bindSelf (c : Condition) :
    Refines (s.filter e c) (s.filter e (c.bindSelf s.principal)) := by
  induction c using Condition.induction with
  | compare name how literal =>
    exact (Refines.refl _).bind fun f _ => (coerce_bindSelf f literal).wrap _
  | every parts ih | any parts ih => exact (filters_bindSelfIn ih).wrap _

/-- The row of whoever acts is the row with their id. -/
theorem actorRow_bindSelf (he : e.IsSound) : Refines (s.actorRow e)
    (s.filter e (.compare Row.idField .equal (.string s.actorId))) := by
  intro f h
  obtain ⟨-, rfl⟩ := actorRow_eq_ok_iff.1 h
  obtain ⟨id, hid, hname, htype⟩ := he.id
  exact (filter_compare_eq_ok_iff he).2 ⟨id, hid, hname, _, htype ▸ .string _, rfl⟩

theorem selection_bindSelf (he : e.IsSound) (ref : Reference) (hasClause : Bool) :
    Refines (s.selection e ref hasClause) (s.selection e (ref.bindSelf s.principal) hasClause) := by
  obtain ⟨entity, selector⟩ := ref
  cases selector with
  | all | wildcard => exact .refl _
  | conditions c => exact filter_bindSelf c
  | id name =>
    cases hasClause with
    | true => exact .of_error _
    | false => exact .refl _
  | self =>
    cases hasClause with
    | true => exact .of_error _
    | false => exact actorRow_bindSelf he

theorem narrow_bindSelf (selected : Filter) (clause : Option Condition) :
    Refines (s.narrow e selected clause)
      (s.narrow e selected (clause.map (·.bindSelf s.principal))) := by
  cases clause with
  | none => exact .refl _
  | some c => exact (filter_bindSelf c).wrap _

theorem rows_bindSelf (hs : s.schema.IsSound) (ref : Reference) (clause : Option Condition) :
    Refines (s.rows ref clause)
      (s.rows (ref.bindSelf s.principal) (clause.map (·.bindSelf s.principal))) := by
  refine (Refines.refl _).bind fun e he => ?_
  have hsound := hs.entities e (hs.entity?_eq_some_iff.1 (entity_eq_ok_iff.1 he)).1
  rw [Option.isSome_map]
  exact (selection_bindSelf hsound ref _).bind fun f _ => (narrow_bindSelf f clause).wrap _

theorem equalitiesOf_bindSelfIn {parts : List Condition}
    (h : ∀ c ∈ parts, equalities? (c.bindSelf p) = equalities? c) :
    equalitiesOf? (Condition.bindSelfIn p parts) = equalitiesOf? parts := by
  induction parts with
  | nil => rfl
  | cons c rest ih =>
    rw [List.forall_mem_cons] at h
    rw [Condition.bindSelfIn, equalitiesOf?, equalitiesOf?, h.1, ih h.2]

/-- The same fields are tested. -/
theorem equalities_bindSelf (c : Condition) : equalities? (c.bindSelf p) = equalities? c := by
  induction c using Condition.induction with
  | compare field how literal => cases how <;> rfl
  | every parts ih => exact equalitiesOf_bindSelfIn ih
  | any parts _ => rfl

theorem pin_bindSelf (he : e.IsSound) (ref : Reference) :
    Refines (s.pin e ref) (s.pin e (ref.bindSelf s.principal)) := by
  obtain ⟨entity, selector⟩ := ref
  cases selector with
  | all | wildcard => exact .of_error _
  | id name => exact .refl _
  | self =>
    -- a row is pinned by its id
    have hunique : [Row.idField].any e.isUnique = true :=
      List.any_eq_true.2 ⟨_, List.mem_singleton_self _, he.isUnique_iff.2 (.inl rfl)⟩
    simp only [Reference.bindSelf, Selector.bindSelf, pin, equalities?, if_pos hunique]
    exact actorRow_bindSelf he
  | conditions c =>
    simp only [Reference.bindSelf, Selector.bindSelf, pin, equalities_bindSelf]
    cases equalities? c with
    | none => exact .of_error _
    | some names =>
      dsimp only
      split_ifs
      · exact filter_bindSelf c
      · exact .of_error _

theorem row_bindSelf (hs : s.schema.IsSound) (kind : EntityKind) (ref : Reference) :
    Refines (s.row kind ref) (s.row kind (ref.bindSelf s.principal)) := by
  refine (Refines.refl _).bind fun e he => ?_
  have hsound := hs.entities e (hs.entity?_eq_some_iff.1 (entityOfKind_eq_ok_iff.1 he).1).1
  exact (pin_bindSelf hsound ref).wrap _

theorem subject_bindSelf (hs : s.schema.IsSound) (hactor : s.actor ∈ s.schema.entities)
    (hkind : s.actor.kind = .principal) (who : Subject) :
    Refines (s.subject who) (s.subject (who.bindSelf s.principal)) := by
  cases who with
  | reference ref => exact (row_bindSelf hs .principal ref).wrap _
  | self =>
    intro target h
    obtain rfl := Except.ok.inj h
    have he : s.entityOfKind .principal s.actor.name = .ok s.actor :=
      entityOfKind_eq_ok_iff.2 ⟨hs.entity?_eq_some_iff.2 ⟨hactor, rfl⟩, hkind⟩
    have hpin := pin_bindSelf (hs.entities _ hactor) ⟨s.actor.name, .self⟩ _
      (actorRow_eq_ok_iff.2 ⟨rfl, rfl⟩)
    refine bind_eq_ok_iff.2 ⟨(s.actor, ⟨s.actor.name, .hasId s.actorId⟩), ?_, rfl⟩
    exact bind_eq_ok_iff.2 ⟨s.actor, he, bind_eq_ok_iff.2 ⟨_, hpin, rfl⟩⟩

theorem access_bindSelf (hs : s.schema.IsSound) (hactor : s.actor ∈ s.schema.entities)
    (hkind : s.actor.kind = .principal) (who : Subject) (permission : String)
    (what : Reference) : Refines (s.access who permission what)
      (s.access (who.bindSelf s.principal) permission (what.bindSelf s.principal)) :=
  (subject_bindSelf hs hactor hkind who).bind fun _ _ =>
    (Refines.refl _).bind fun _ _ => (row_bindSelf hs .resource what).wrap _

theorem assignments_bindSelf (seen : List String) (settings : List Setting) :
    Refines (s.assignments e seen settings)
      (s.assignments e seen (settings.map (·.bindSelf s.principal))) := by
  induction settings generalizing seen with
  | nil => exact .refl _
  | cons setting rest ih =>
    rw [List.map_cons]
    refine (Refines.refl _).bind fun f _ => .guard (.guard ?_)
    exact (coerce_bindSelf f setting.value).bind fun v _ => (ih _).wrap _

/-- **Writing the principal out keeps what a statement is resolved to.** -/
theorem operation_bindSelf (hs : s.schema.IsSound) (hactor : s.actor ∈ s.schema.entities)
    (hkind : s.actor.kind = .principal) (statement : Statement) :
    Refines (s.operation statement) (s.operation (statement.bindSelf s.principal)) := by
  cases statement with
  | get ref names clause => exact (rows_bindSelf hs ref clause).wrap _
  | check who permission what => exact (access_bindSelf hs hactor hkind who permission what).wrap _
  | grant permission what who => exact (access_bindSelf hs hactor hkind who permission what).wrap _
  | revoke permission what who => exact (access_bindSelf hs hactor hkind who permission what).wrap _
  | update ref settings clause =>
    exact (rows_bindSelf hs ref clause).bind fun r _ => (assignments_bindSelf [] settings).wrap _
  | delete ref clause => exact (rows_bindSelf hs ref clause).wrap _

/-! ## Without SELF -/

theorem coerce_eq_of_ne_self {f : Field} {literal : Literal} (h : literal ≠ .self) :
    s.coerce e f literal = s'.coerce e f literal := by
  unfold coerce
  cases literal with
  | self => exact absurd rfl h
  | _ => cases f.type <;> rfl

theorem filters_eq {parts : List Condition} (h : ∀ c ∈ parts, s.filter e c = s'.filter e c) :
    s.filters e parts = s'.filters e parts := by
  induction parts with
  | nil => rfl
  | cons c rest ih =>
    rw [List.forall_mem_cons] at h
    rw [filters, filters, h.1, ih h.2]

theorem filter_eq_of_not_mentionsSelf {c : Condition} (h : c.mentionsSelf = false) :
    s.filter e c = s'.filter e c := by
  induction c using Condition.induction with
  | compare name how literal =>
    have hne : literal ≠ .self := of_decide_eq_false h
    simp only [filter, @coerce_eq_of_ne_self s s' e _ _ hne]
  | every parts ih | any parts ih =>
    have hparts := Condition.anyMentionsSelf_eq_false_iff.1 h
    rw [filter, filter, filters_eq fun c hc => ih c hc (hparts c hc)]

theorem selection_eq_of_not_mentionsSelf {ref : Reference} {hasClause : Bool}
    (h : ref.selector.mentionsSelf = false) :
    s.selection e ref hasClause = s'.selection e ref hasClause := by
  unfold selection
  cases hselector : ref.selector with
  | self =>
    rw [hselector] at h
    exact nomatch h
  | conditions c =>
    rw [hselector] at h
    exact filter_eq_of_not_mentionsSelf h
  | _ => rfl

theorem narrow_eq_of_not_mentionsSelf {selected : Filter} {clause : Option Condition}
    (h : clause.any (·.mentionsSelf) = false) :
    s.narrow e selected clause = s'.narrow e selected clause := by
  cases clause with
  | none => rfl
  | some c => rw [narrow, narrow, filter_eq_of_not_mentionsSelf h]

theorem pin_eq_of_not_mentionsSelf {ref : Reference} (h : ref.selector.mentionsSelf = false) :
    s.pin e ref = s'.pin e ref := by
  unfold pin
  cases hselector : ref.selector with
  | self =>
    rw [hselector] at h
    exact nomatch h
  | conditions c =>
    rw [hselector] at h
    have hfilter : s.filter e c = s'.filter e c := filter_eq_of_not_mentionsSelf h
    simp only [hfilter]
  | _ => rfl

variable (hschema : s.schema = s'.schema)
include hschema

theorem entity_eq (name : String) : s.entity name = s'.entity name := by
  rw [entity, entity, hschema]

theorem rows_eq_of_not_mentionsSelf {ref : Reference} {clause : Option Condition}
    (href : ref.selector.mentionsSelf = false) (hclause : clause.any (·.mentionsSelf) = false) :
    s.rows ref clause = s'.rows ref clause := by
  simp only [rows, entity_eq hschema, @selection_eq_of_not_mentionsSelf s s' _ _ _ href,
    @narrow_eq_of_not_mentionsSelf s s' _ _ _ hclause]

theorem row_eq_of_not_mentionsSelf {kind : EntityKind} {ref : Reference}
    (href : ref.selector.mentionsSelf = false) : s.row kind ref = s'.row kind ref := by
  simp only [row, entityOfKind, entity_eq hschema, @pin_eq_of_not_mentionsSelf s s' _ _ href]

theorem access_eq_of_not_mentionsSelf {who : Subject} {permission : String} {what : Reference}
    (hwho : who.mentionsSelf = false) (hwhat : what.selector.mentionsSelf = false) :
    s.access who permission what = s'.access who permission what := by
  cases who with
  | self => exact nomatch hwho
  | reference ref =>
    simp only [access, subject, Scope.permission, hschema, row_eq_of_not_mentionsSelf hschema hwho,
      row_eq_of_not_mentionsSelf hschema hwhat]

omit hschema in
theorem assignments_eq_of_not_mentionsSelf {seen : List String} {settings : List Setting}
    (h : settings.any (·.mentionsSelf) = false) :
    s.assignments e seen settings = s'.assignments e seen settings := by
  induction settings generalizing seen with
  | nil => rfl
  | cons setting rest ih =>
    rw [List.any_cons, Bool.or_eq_false_iff] at h
    have hne : setting.value ≠ .self := of_decide_eq_false h.1
    simp only [assignments, @coerce_eq_of_ne_self s s' e _ _ hne, ih h.2]

/-- **Without SELF it does not matter who acts.** -/
theorem operation_eq_of_not_mentionsSelf {statement : Statement}
    (h : statement.mentionsSelf = false) : s.operation statement = s'.operation statement := by
  cases statement with
  | get ref names clause | delete ref clause =>
    obtain ⟨href, hclause⟩ := Bool.or_eq_false_iff.1 h
    rw [operation, operation, rows_eq_of_not_mentionsSelf hschema href hclause]
  | check who permission what =>
    obtain ⟨hwho, hwhat⟩ := Bool.or_eq_false_iff.1 h
    rw [operation, operation, access_eq_of_not_mentionsSelf hschema hwho hwhat]
  | grant permission what who | revoke permission what who =>
    obtain ⟨hwhat, hwho⟩ := Bool.or_eq_false_iff.1 h
    rw [operation, operation, access_eq_of_not_mentionsSelf hschema hwho hwhat]
  | update ref settings clause =>
    obtain ⟨h, hclause⟩ := Bool.or_eq_false_iff.1 h
    obtain ⟨href, hsettings⟩ := Bool.or_eq_false_iff.1 h
    simp only [operation, rows_eq_of_not_mentionsSelf hschema href hclause,
      @assignments_eq_of_not_mentionsSelf s s' _ _ _ hsettings]

end Scope

/-! ## Plans -/

/-- **Two results differ in the principal alone**: the same error, or plans that are the same but
    for whom they are. -/
inductive SameForBoth (p p' : Principal) :
    Except ResolutionError Plan → Except ResolutionError Plan → Prop
  | error (e : ResolutionError) : SameForBoth p p' (.error e) (.error e)
  | ok (version : UInt32) (operation : Operation) :
    SameForBoth p p' (.ok ⟨version, p, operation⟩) (.ok ⟨version, p', operation⟩)

/-- Whoever acts has a scope. -/
theorem Principal.Acts.exists_scope {schema : Schema} (hs : schema.IsSound) (h : p.Acts schema) :
    ∃ s, Scope.ofPrincipal schema p = .ok s ∧ s.schema = schema := by
  obtain ⟨actor, hmem, hname, hkind⟩ := h
  obtain ⟨entity, id⟩ := p
  obtain rfl : actor.name = entity := hname
  exact ⟨⟨schema, actor, id⟩, (Scope.ofPrincipal_eq_ok_iff hs).2 ⟨rfl, rfl, hmem, hkind⟩, rfl⟩

/-- **SELF is substitution.** A statement that has a plan has the same plan with the principal
    written out for SELF. A statement without SELF has the same plan or the same error for all that
    act. -/
theorem Statement.resolve_bindSelf {schema : Schema} (h : schema.validate = .ok ()) :
    (∀ (p : Principal) (statement : Statement) (plan : Plan),
      statement.resolve schema p = .ok plan →
        (statement.bindSelf p).resolve schema p = .ok plan ∧
        (statement.bindSelf p).mentionsSelf = false) ∧
    ∀ (p p' : Principal) (statement : Statement), p.Acts schema → p'.Acts schema →
      statement.mentionsSelf = false →
        SameForBoth p p' (statement.resolve schema p) (statement.resolve schema p') := by
  have hs := Schema.isSound_of_validate h
  constructor
  · intro p statement plan hplan
    refine ⟨?_, statement.mentionsSelf_bindSelf⟩
    obtain ⟨s, hscope, hplan⟩ := bind_eq_ok_iff.1 hplan
    obtain ⟨op, hop, hplan⟩ := bind_eq_ok_iff.1 hplan
    obtain ⟨rfl, rfl, hactor, hkind⟩ := (Scope.ofPrincipal_eq_ok_iff hs).1 hscope
    have hop' := Scope.operation_bindSelf hs hactor hkind statement op hop
    exact bind_eq_ok_iff.2 ⟨s, hscope, bind_eq_ok_iff.2 ⟨op, hop', hplan⟩⟩
  · intro p p' statement hp hp' hself
    obtain ⟨s, hscope, hschema⟩ := hp.exists_scope hs
    obtain ⟨s', hscope', hschema'⟩ := hp'.exists_scope hs
    -- Two scopes of one schema differ in who acts, which only SELF asks for.
    have hop := Scope.operation_eq_of_not_mentionsSelf (hschema.trans hschema'.symm) hself
    rw [resolve, resolve, hscope, hscope']
    change SameForBoth p p' (s.operation statement >>= _) (s'.operation statement >>= _)
    rw [hop]
    cases s'.operation statement with
    | error e => exact .error e
    | ok op => exact .ok _ op

/-- SELF as a subject, as a row and as a literal, and what is left without it for someone else. -/
theorem Statement.resolve_bindSelf_shared :
    let ann : Principal := ⟨"User", "ann"⟩
    let bob : Principal := ⟨"User", "bob"⟩
    let own : Reference := ⟨"Resource", .conditions (.every
      [.compare "id" .equal (.string "doc"), .compare "owner" .equal .self])⟩
    let ask : Statement := .check .self "read" own
    let give : Statement := .grant "read" own (.reference ⟨"User", .self⟩)
    let anns : Reference := ⟨"Resource", .conditions (.every
      [.compare "id" .equal (.string "doc"), .compare "owner" .equal (.string "ann")])⟩
    let user : Reference := ⟨"User", .conditions (.compare "id" .equal (.string "ann"))⟩
    (∃ plan, ask.resolve .standard ann = .ok plan ∧
      (Statement.check (.reference user) "read" anns).resolve .standard ann = .ok plan) ∧
    (∃ plan, give.resolve .standard ann = .ok plan ∧
      (Statement.grant "read" anns (.reference user)).resolve .standard ann = .ok plan) ∧
    SameForBoth ann bob ((Statement.grant "read" anns (.reference user)).resolve .standard ann)
      ((Statement.grant "read" anns (.reference user)).resolve .standard bob) := by
  intro ann bob own ask give anns user
  have hbinds := (resolve_bindSelf Schema.validate_standard).1
  have hsame := (resolve_bindSelf Schema.validate_standard).2
  have hacts : ∀ id, Principal.Acts .standard ⟨"User", id⟩ := fun id =>
    ⟨_, List.mem_cons_self, rfl, rfl⟩
  exact ⟨⟨_, rfl, (hbinds ann ask _ rfl).1⟩, ⟨_, rfl, (hbinds ann give _ rfl).1⟩,
    hsame ann bob _ (hacts "ann") (hacts "bob") (by decide)⟩

end Warrant
