import Warrant.Proofs.Resolution.Typing

/-!
# Which statements are accepted

Resolving refuses a statement for many reasons, each found at its own place. This module says in one
piece, and without following the search, what a statement must be like to have a plan. The rules
hold the schema against the statement: what must be declared, what must fit, and what must name a
single row.

## Main definitions

- `Principal.Acts` — whoever acts is a row of an entity whose rows act
- `Reference.SelectsRows` — the rows of GET, UPDATE and DELETE
- `Reference.PinsRow` — the row of CHECK, GRANT and REVOKE
- `Statement.IsMeaningful` — the statements that can be carried out

## Main statements

- `Statement.exists_plan_iff` — the meaningful statements, and no others, have a plan
-/

namespace Warrant

def Principal.Acts (schema : Schema) (p : Principal) : Prop :=
  ∃ e ∈ schema.entities, e.name = p.entity ∧ e.kind = .principal

/-! ## Rules -/

/-- A selector picks rows of an entity. One that names a row stands without a clause. -/
inductive Selector.PicksRows (p : Principal) (e : Entity) (clause : Option Condition) :
    Selector → Prop
  | all : PicksRows p e clause .all
  | conditions {c : Condition} (h : c.IsTyped p.id e) : PicksRows p e clause (.conditions c)
  | id (name : String) (hclause : clause = none) : PicksRows p e clause (.id name)
  | self (hclause : clause = none) (hself : e.name = p.entity) : PicksRows p e clause .self

/-- **The rows of GET, UPDATE and DELETE**: those of a declared entity that a selector picks and a
    clause, if there is one, keeps. -/
structure Reference.SelectsRows (schema : Schema) (p : Principal) (clause : Option Condition)
    (ref : Reference) (e : Entity) : Prop where
  declared : e ∈ schema.entities ∧ e.name = ref.entity
  selector : ref.selector.PicksRows p e clause
  clause : ∀ c ∈ clause, c.IsTyped p.id e

/-- A selector names a row of an entity: by its identity, or by equalities of which one tests a
    unique field. -/
inductive Selector.PinsRow (p : Principal) (e : Entity) : Selector → Prop
  | id (name : String) : PinsRow p e (.id name)
  | self (hself : e.name = p.entity) : PinsRow p e .self
  | conditions {c : Condition} {name : String} (hc : c.IsConjunctive) (hname : c.Tests name)
    (hunique : name = Row.idField ∨ ∃ f ∈ e.fields, f.name = name ∧ f.unique = true)
    (htyped : c.IsTyped p.id e) : PinsRow p e (.conditions c)

/-- **A row of CHECK, GRANT and REVOKE**, of an entity of the given kind. -/
def Reference.PinsRow (schema : Schema) (p : Principal) (kind : EntityKind) (ref : Reference) :
    Prop :=
  ∃ e ∈ schema.entities, e.name = ref.entity ∧ e.kind = kind ∧ ref.selector.PinsRow p e

def Subject.PinsRow (schema : Schema) (p : Principal) : Subject → Prop
  | .self => True
  | .reference ref => ref.PinsRow schema p .principal

/-- The fields that GET returns are declared. -/
def Projection.IsDeclared (e : Entity) : Projection → Prop
  | .all => True
  | .fields names => ∀ name ∈ names, name ∈ e.fieldNames

/-- UPDATE writes declared fields, never the identity and none of them twice, and its literals fit
    them. -/
structure Setting.AreValid (p : Principal) (e : Entity) (settings : List Setting) : Prop where
  typed : ∀ a ∈ settings, ∃ f ∈ e.fields, f.name = a.field ∧ ∃ v, a.value.Denotes p.id f.type v
  identity : ∀ a ∈ settings, a.field ≠ Row.idField
  nodup : (settings.map (·.field)).Nodup

/-- The operands of CHECK, GRANT and REVOKE: a permission that may be used, a row that acts and a
    row that is acted upon. -/
structure AccessIsMeaningful (schema : Schema) (p : Principal) (who : Subject)
    (permission : String) (what : Reference) : Prop where
  subject : who.PinsRow schema p
  permission : schema.hasPermission permission = true
  resource : what.PinsRow schema p .resource

/-- **A statement is meaningful** under a schema and for a principal. -/
inductive Statement.IsMeaningful (schema : Schema) (p : Principal) : Statement → Prop
  | get {ref : Reference} {projection : Projection} {clause : Option Condition} {e : Entity}
    (hrows : ref.SelectsRows schema p clause e) (hprojection : projection.IsDeclared e) :
    IsMeaningful schema p (.get ref projection clause)
  | check {who : Subject} {permission : String} {what : Reference}
    (h : AccessIsMeaningful schema p who permission what) :
    IsMeaningful schema p (.check who permission what)
  | grant {who : Subject} {permission : String} {what : Reference}
    (h : AccessIsMeaningful schema p who permission what) :
    IsMeaningful schema p (.grant permission what who)
  | revoke {who : Subject} {permission : String} {what : Reference}
    (h : AccessIsMeaningful schema p who permission what) :
    IsMeaningful schema p (.revoke permission what who)
  | update {ref : Reference} {settings : List Setting} {clause : Option Condition} {e : Entity}
    (hrows : ref.SelectsRows schema p clause e) (hsettings : Setting.AreValid p e settings) :
    IsMeaningful schema p (.update ref settings clause)
  | delete {ref : Reference} {clause : Option Condition} {e : Entity}
    (hrows : ref.SelectsRows schema p clause e) : IsMeaningful schema p (.delete ref clause)

/-! ## References -/

namespace Scope

variable {s : Scope} {e : Entity}

/-- Whoever acts. -/
def principal (s : Scope) : Principal :=
  ⟨s.actor.name, s.actorId⟩

theorem actorRow_eq_ok_iff {f : Filter} :
    s.actorRow e = .ok f ↔ e.name = s.actor.name ∧ f = .hasId s.actorId := by
  rw [actorRow]
  by_cases h : e.name = s.actor.name
  · rw [if_pos h]
    exact ⟨fun hf => ⟨h, (Except.ok.inj hf).symm⟩, fun hf => hf.2 ▸ rfl⟩
  · rw [if_neg h]
    exact ⟨nofun, fun hf => absurd hf.1 h⟩

theorem exists_actorRow_iff : (∃ f, s.actorRow e = .ok f) ↔ e.name = s.principal.entity := by
  simp only [actorRow_eq_ok_iff, exists_and_left, exists_eq, and_true]
  rfl

theorem exists_selection_iff (he : e.IsSound) {ref : Reference} {clause : Option Condition} :
    (∃ f, s.selection e ref clause.isSome = .ok f) ↔
      ref.selector.PicksRows s.principal e clause := by
  rw [selection]
  cases ref.selector with
  | all => exact ⟨fun _ => .all, fun _ => ⟨_, rfl⟩⟩
  | conditions c =>
    rw [exists_filter_iff he]
    exact ⟨fun h => .conditions h, fun | .conditions h => h⟩
  | wildcard => exact ⟨nofun, nofun⟩
  | id name =>
    cases clause with
    | none => exact ⟨fun _ => .id name rfl, fun _ => ⟨_, rfl⟩⟩
    | some c => exact ⟨nofun, nofun⟩
  | self =>
    cases clause with
    | none => exact exists_actorRow_iff.trans ⟨.self rfl, fun | .self _ h => h⟩
    | some c => exact ⟨nofun, nofun⟩

theorem exists_narrow_iff (he : e.IsSound) {selected : Filter} {clause : Option Condition} :
    (∃ f, s.narrow e selected clause = .ok f) ↔ ∀ c ∈ clause, c.IsTyped s.actorId e := by
  cases clause with
  | none => exact ⟨nofun, fun _ => ⟨selected, rfl⟩⟩
  | some c =>
    rw [narrow, exists_bind_eq_ok_iff]
    constructor
    · rintro ⟨f, hf, -⟩ c' hc'
      obtain rfl := Option.some.inj hc'
      exact (exists_filter_iff he).1 ⟨f, hf⟩
    · intro h
      obtain ⟨f, hf⟩ := (exists_filter_iff he).2 (h c rfl)
      exact ⟨f, hf, _, rfl⟩

theorem exists_rows_iff (hs : s.schema.IsSound) {ref : Reference} {clause : Option Condition} :
    (∃ target, s.rows ref clause = .ok (e, target)) ↔
      ref.SelectsRows s.schema s.principal clause e := by
  simp only [rows_eq_ok_iff, hs.entity?_eq_some_iff]
  constructor
  · rintro ⟨target, hdeclared, selected, f, hselected, hf, -⟩
    have he := hs.entities e hdeclared.1
    exact ⟨hdeclared, (exists_selection_iff he).1 ⟨selected, hselected⟩,
      (exists_narrow_iff he).1 ⟨f, hf⟩⟩
  · rintro ⟨hdeclared, hselector, hclause⟩
    have he := hs.entities e hdeclared.1
    obtain ⟨selected, hselected⟩ := (exists_selection_iff he).2 hselector
    obtain ⟨f, hf⟩ := (exists_narrow_iff he).2 hclause
    exact ⟨⟨e.name, f⟩, hdeclared, selected, f, hselected, hf, rfl⟩

/-- One of the fields that a conjunctive condition tests is unique. -/
theorem any_isUnique_iff (he : e.IsSound) {c : Condition} {names : List String}
    (h : equalities? c = some names) :
    names.any e.isUnique = true ↔ ∃ name, c.Tests name ∧
      (name = Row.idField ∨ ∃ f ∈ e.fields, f.name = name ∧ f.unique = true) := by
  simp only [List.any_eq_true, he.isUnique_iff, mem_equalities_iff h]

theorem exists_pin_iff (he : e.IsSound) {ref : Reference} :
    (∃ f, s.pin e ref = .ok f) ↔ ref.selector.PinsRow s.principal e := by
  rw [pin]
  cases ref.selector with
  | id name => exact ⟨fun _ => .id name, fun _ => ⟨_, rfl⟩⟩
  | self => exact exists_actorRow_iff.trans ⟨.self, fun | .self h => h⟩
  | all => exact ⟨nofun, nofun⟩
  | wildcard => exact ⟨nofun, nofun⟩
  | conditions c =>
    dsimp only
    -- Conditions name a row if they are equalities, and one of them is about a unique field.
    cases hnames : equalities? c with
    | none =>
      refine ⟨nofun, ?_⟩
      rintro (_ | _ | ⟨hc, -, -, -⟩)
      obtain ⟨names, hsome⟩ := exists_equalities_iff.2 hc
      exact nomatch hnames.symm.trans hsome
    | some names =>
      dsimp only
      by_cases hany : names.any e.isUnique = true
      · obtain ⟨name, htests, hunique⟩ := (any_isUnique_iff he hnames).1 hany
        rw [if_pos hany, exists_filter_iff he]
        have hc := exists_equalities_iff.1 ⟨names, hnames⟩
        exact ⟨fun htyped => .conditions hc htests hunique htyped,
          fun | .conditions _ _ _ htyped => htyped⟩
      · rw [if_neg hany]
        refine ⟨nofun, ?_⟩
        rintro (_ | _ | ⟨-, htests, hunique, -⟩)
        exact absurd ((any_isUnique_iff he hnames).2 ⟨_, htests, hunique⟩) hany

theorem exists_row_iff (hs : s.schema.IsSound) {kind : EntityKind} {ref : Reference} :
    (∃ r, s.row kind ref = .ok r) ↔ ref.PinsRow s.schema s.principal kind := by
  rw [row, exists_bind_eq_ok_iff]
  apply exists_congr
  intro e
  rw [entityOfKind_eq_ok_iff, hs.entity?_eq_some_iff, exists_bind_eq_ok_iff, and_assoc, and_assoc]
  apply and_congr_right
  intro hmem
  apply and_congr_right
  intro _
  apply and_congr_right
  intro _
  rw [← exists_pin_iff (hs.entities e hmem)]
  exact exists_congr fun f => ⟨fun h => h.1, fun h => ⟨h, _, rfl⟩⟩

theorem exists_subject_iff (hs : s.schema.IsSound) {who : Subject} :
    (∃ target, s.subject who = .ok target) ↔ who.PinsRow s.schema s.principal := by
  cases who with
  | self => exact ⟨fun _ => trivial, fun _ => ⟨_, rfl⟩⟩
  | reference ref =>
    rw [subject, exists_bind_eq_ok_iff, Subject.PinsRow, ← exists_row_iff hs]
    exact exists_congr fun r => ⟨fun h => h.1, fun h => ⟨h, _, rfl⟩⟩

/-! ## Operands -/

theorem exists_access_iff (hs : s.schema.IsSound) {who : Subject} {permission : String}
    {what : Reference} :
    (∃ a, s.access who permission what = .ok a) ↔
      AccessIsMeaningful s.schema s.principal who permission what := by
  constructor
  · rintro ⟨a, h⟩
    obtain ⟨subject, hsubject, h⟩ := bind_eq_ok_iff.1 h
    obtain ⟨permission', hpermission, h⟩ := bind_eq_ok_iff.1 h
    obtain ⟨r, hr, -⟩ := bind_eq_ok_iff.1 h
    exact ⟨(exists_subject_iff hs).1 ⟨subject, hsubject⟩, (permission_eq_ok_iff.1 hpermission).1,
      (exists_row_iff hs).1 ⟨r, hr⟩⟩
  · rintro ⟨hwho, hpermission, hwhat⟩
    obtain ⟨subject, hsubject⟩ := (exists_subject_iff hs).2 hwho
    obtain ⟨r, hr⟩ := (exists_row_iff hs).2 hwhat
    refine exists_bind_eq_ok_iff.2 ⟨subject, hsubject, ?_⟩
    refine exists_bind_eq_ok_iff.2 ⟨permission, permission_eq_ok_iff.2 ⟨hpermission, rfl⟩, ?_⟩
    exact exists_bind_eq_ok_iff.2 ⟨r, hr, _, rfl⟩

theorem exists_field_iff (he : e.IsSound) {name : String} :
    (∃ f, field e name = .ok f) ↔ name ∈ e.fieldNames := by
  rw [Entity.fieldNames, List.mem_map]
  exact exists_congr fun f => field_eq_ok_iff he

theorem exists_projection_iff (he : e.IsSound) {projection : Projection} :
    (∃ names, Scope.projection e projection = .ok names) ↔ projection.IsDeclared e := by
  cases projection with
  | all => exact ⟨fun _ => trivial, fun _ => ⟨_, rfl⟩⟩
  | fields names =>
    have hnames : names.forM (fun name => field e name >>= fun _ => pure ()) = .ok () ↔
        ∀ name ∈ names, name ∈ e.fieldNames := by
      rw [forM_eq_ok_iff]
      apply forall₂_congr
      intro name _
      rw [← exists_field_iff he, bind_eq_ok_iff]
      exact exists_congr fun f => ⟨fun h => h.1, fun h => ⟨h, rfl⟩⟩
    rw [Scope.projection, exists_bind_eq_ok_iff, Projection.IsDeclared, ← hnames]
    constructor
    · rintro ⟨_, h, -⟩
      exact h
    · intro h
      exact ⟨(), h, _, rfl⟩

end Scope

/-- An assignment does what a setting says. -/
inductive Setting.Denotes (actorId : String) (e : Entity) : Setting → Assignment → Prop
  | intro {f : Field} {literal : Literal} {v : Value} (hf : f ∈ e.fields)
    (hname : f.name ≠ Row.idField) (hv : literal.Denotes actorId f.type v) :
    Denotes actorId e ⟨f.name, literal⟩ ⟨f.name, v, f.type⟩

namespace Scope

variable {s : Scope} {e : Entity}

/-- **The assignments of UPDATE** do what its settings say, each to another field. -/
theorem assignments_eq_ok_iff (he : e.IsSound) {seen : List String} {settings : List Setting}
    {found : List Assignment} :
    s.assignments e seen settings = .ok found ↔
      AreNew seen (settings.map (·.field)) ∧
        List.Forall₂ (Setting.Denotes s.actorId e) settings found := by
  -- By induction on the settings, with the fields that have been assigned before them.
  induction settings generalizing seen found with
  | nil =>
    rw [assignments, List.forall₂_nil_left_iff]
    exact ⟨fun h => ⟨⟨.nil, nofun⟩, (Except.ok.inj h).symm⟩, fun h => h.2 ▸ rfl⟩
  | cons setting rest ih =>
    obtain ⟨name, literal⟩ := setting
    rw [List.map_cons, areNew_cons_iff, List.forall₂_cons_left_iff]
    constructor
    · intro h
      obtain ⟨f, hf, h⟩ := bind_eq_ok_iff.1 h
      obtain ⟨hmem, rfl⟩ := (field_eq_ok_iff he).1 hf
      obtain ⟨hid, h⟩ := ite_error_eq_ok_iff.1 h
      obtain ⟨hnew, h⟩ := ite_error_eq_ok_iff.1 h
      obtain ⟨v, hv, h⟩ := bind_eq_ok_iff.1 h
      obtain ⟨others, hothers, h⟩ := bind_eq_ok_iff.1 h
      obtain ⟨hnames, hrest⟩ := ih.1 hothers
      rw [List.contains_iff_mem] at hnew
      exact ⟨⟨hnew, hnames⟩, _, _, .intro hmem hid (coerce_eq_ok_iff.1 hv), hrest,
        (Except.ok.inj h).symm⟩
    · rintro ⟨⟨hnew, hnames⟩, _, others, ⟨hmem, hid, hv⟩, hrest, rfl⟩
      refine bind_eq_ok_iff.2 ⟨_, (field_eq_ok_iff he).2 ⟨hmem, rfl⟩, ?_⟩
      refine ite_error_eq_ok_iff.2 ⟨hid, ite_error_eq_ok_iff.2 ⟨?_, ?_⟩⟩
      · rw [List.contains_iff_mem]
        exact hnew
      · refine bind_eq_ok_iff.2 ⟨_, coerce_eq_ok_iff.2 hv, ?_⟩
        exact bind_eq_ok_iff.2 ⟨others, ih.2 ⟨hnames, hrest⟩, rfl⟩

theorem exists_assignments_iff (he : e.IsSound) {settings : List Setting} :
    (∃ found, s.assignments e [] settings = .ok found) ↔
      Setting.AreValid s.principal e settings := by
  simp only [assignments_eq_ok_iff he, areNew_nil_iff, exists_and_left, exists_forall₂_iff]
  constructor
  · rintro ⟨hnodup, h⟩
    refine ⟨?_, ?_, hnodup⟩
    · intro setting hmem
      obtain ⟨_, hf, _, hv⟩ := h setting hmem
      exact ⟨_, hf, rfl, _, hv⟩
    · intro setting hmem
      obtain ⟨_, _, hid, _⟩ := h setting hmem
      exact hid
  · rintro ⟨htyped, hid, hnodup⟩
    refine ⟨hnodup, ?_⟩
    intro setting hmem
    have hid := hid setting hmem
    obtain ⟨f, hf, hname, v, hv⟩ := htyped setting hmem
    obtain ⟨name, literal⟩ := setting
    obtain rfl : f.name = name := hname
    exact ⟨_, .intro hf hid hv⟩

/-! ## Statements -/

/-- What follows the rows of a statement succeeds with the entity that they belong to. -/
theorem exists_bind_rows_iff {α : Type} (hs : s.schema.IsSound) {ref : Reference}
    {clause : Option Condition} {k : Entity × Target → Resolved α} {P : Entity → Prop}
    (hk : ∀ e target, e.IsSound → ((∃ a, k (e, target) = .ok a) ↔ P e)) :
    (∃ a, s.rows ref clause >>= k = .ok a) ↔
      ∃ e, ref.SelectsRows s.schema s.principal clause e ∧ P e := by
  rw [exists_bind_eq_ok_iff]
  constructor
  · rintro ⟨⟨e, target⟩, hrows, h⟩
    have hselects := (exists_rows_iff hs).1 ⟨target, hrows⟩
    exact ⟨e, hselects, (hk e target (hs.entities e hselects.declared.1)).1 h⟩
  · rintro ⟨e, hselects, h⟩
    obtain ⟨target, hrows⟩ := (exists_rows_iff hs).2 hselects
    exact ⟨(e, target), hrows, (hk e target (hs.entities e hselects.declared.1)).2 h⟩

/-- What wraps a result succeeds with it. -/
theorem exists_wrap_iff {α β : Type} {x : Resolved α} {wrap : α → β} :
    (∃ b, (do return wrap (← x)) = (.ok b : Resolved β)) ↔ ∃ a, x = .ok a := by
  cases x with
  | error e => exact ⟨nofun, nofun⟩
  | ok a => exact ⟨fun _ => ⟨a, rfl⟩, fun _ => ⟨_, rfl⟩⟩

theorem exists_operation_iff (hs : s.schema.IsSound) {statement : Statement} :
    (∃ op, s.operation statement = .ok op) ↔ statement.IsMeaningful s.schema s.principal := by
  -- Each statement is refused for one of its parts, and for nothing else.
  cases statement with
  | get ref projection clause =>
    refine (exists_bind_rows_iff hs fun e target he =>
      exists_wrap_iff.trans (exists_projection_iff he)).trans ?_
    exact ⟨fun ⟨_, hrows, hprojection⟩ => .get hrows hprojection,
      fun | .get hrows hprojection => ⟨_, hrows, hprojection⟩⟩
  | check who permission what =>
    refine (exists_wrap_iff.trans (exists_access_iff hs)).trans ?_
    exact ⟨.check, fun | .check h => h⟩
  | grant permission what who =>
    refine (exists_wrap_iff.trans (exists_access_iff hs)).trans ?_
    exact ⟨.grant, fun | .grant h => h⟩
  | revoke permission what who =>
    refine (exists_wrap_iff.trans (exists_access_iff hs)).trans ?_
    exact ⟨.revoke, fun | .revoke h => h⟩
  | update ref settings clause =>
    refine (exists_bind_rows_iff hs fun e target he =>
      exists_wrap_iff.trans (exists_assignments_iff he)).trans ?_
    exact ⟨fun ⟨_, hrows, hsettings⟩ => .update hrows hsettings,
      fun | .update hrows hsettings => ⟨_, hrows, hsettings⟩⟩
  | delete ref clause =>
    refine (exists_bind_rows_iff (P := fun _ => True)
      (k := fun r => .ok (Operation.delete r.2 r.1.kind r.1.effectiveOwnerField)) hs fun e target _ =>
        ⟨fun _ => trivial, fun _ => ⟨_, rfl⟩⟩).trans ?_
    exact ⟨fun ⟨_, hrows, _⟩ => .delete hrows, fun | .delete hrows => ⟨_, hrows, trivial⟩⟩

theorem ofPrincipal_eq_ok_iff {schema : Schema} (hs : schema.IsSound) {p : Principal} :
    ofPrincipal schema p = .ok s ↔
      s.schema = schema ∧ s.principal = p ∧ s.actor ∈ schema.entities ∧
        s.actor.kind = .principal := by
  constructor
  · intro h
    obtain ⟨hschema, hactor, hkind, hid⟩ := ofPrincipal_eq_ok h
    obtain ⟨hmem, hname⟩ := hs.entity?_eq_some_iff.1 hactor
    refine ⟨hschema, ?_, hmem, hkind⟩
    rw [principal, hname, hid]
  · rintro ⟨rfl, rfl, hmem, hkind⟩
    have hactor : s.schema.entity? s.principal.entity = some s.actor :=
      hs.entity?_eq_some_iff.2 ⟨hmem, rfl⟩
    rw [ofPrincipal, hactor]
    exact if_pos hkind

end Scope

/-- **The meaningful statements, and no others, have a plan.** -/
theorem Statement.exists_plan_iff {schema : Schema} (h : schema.validate = .ok ()) (p : Principal)
    (statement : Statement) :
    (∃ plan, statement.resolve schema p = .ok plan) ↔
      p.Acts schema ∧ statement.IsMeaningful schema p := by
  have hs := Schema.isSound_of_validate h
  rw [resolve, exists_bind_eq_ok_iff]
  constructor
  · rintro ⟨s, hscope, hplan⟩
    obtain ⟨rfl, rfl, hmem, hkind⟩ := (Scope.ofPrincipal_eq_ok_iff hs).1 hscope
    exact ⟨⟨s.actor, hmem, rfl, hkind⟩,
      (Scope.exists_operation_iff hs).1 (Scope.exists_wrap_iff.1 hplan)⟩
  · rintro ⟨⟨actor, hmem, hname, hkind⟩, hmeaningful⟩
    obtain ⟨entity, id⟩ := p
    obtain rfl : actor.name = entity := hname
    refine ⟨⟨schema, actor, id⟩, (Scope.ofPrincipal_eq_ok_iff hs).2 ⟨rfl, rfl, hmem, hkind⟩, ?_⟩
    exact Scope.exists_wrap_iff.2 ((Scope.exists_operation_iff hs).2 hmeaningful)

/-- A group of alternatives, however deep, does not name a single row. -/
theorem Statement.exists_plan_iff_grouped :
    let ann : Principal := ⟨"User", "ann"⟩
    let ask (group : List Condition → Condition) : Statement :=
      .check .self "read" ⟨"Resource", .conditions (.every
        [.compare "id" .equal (.string "doc"), group [.compare "owner" .equal .self]])⟩
    (∃ plan, (ask .every).resolve .standard ann = .ok plan) ∧
      ¬ ∃ plan, (ask .any).resolve .standard ann = .ok plan := by
  intro ann ask
  refine ⟨⟨_, rfl⟩, fun h => ?_⟩
  obtain ⟨-, hmeaningful⟩ := (exists_plan_iff Schema.validate_standard ann _).1 h
  cases hmeaningful with
  | check h =>
    obtain ⟨e, -, -, -, hpin⟩ := h.resource
    cases hpin with
    | conditions hc =>
      cases hc with
      | every hparts => exact nomatch hparts _ (.tail _ (.head _))

end Warrant
