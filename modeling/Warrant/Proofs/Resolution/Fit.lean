import Warrant.Proofs.Results
import Warrant.Resolution.Basic

/-!
# What resolved statements are like

Whoever runs a plan relies on what resolving has checked: the subject of an access is a row that
acts, its resource is a row that is acted upon, and the owner field is the one that the schema
declares for the entity.

## Main definitions

- `Schema.ownerField?` — the owner field of an entity whose rows are acted upon
- `Operation.Fits` — an operation speaks of what a schema declares

## Main statements

- `Statement.resolve_fits` — resolved statements fit
- `compile_fits` — compiled texts fit
-/

namespace Warrant

/-- The owner field of the entity with a given name, if its rows are acted upon. -/
def Schema.ownerField? (s : Schema) (name : String) : Option String :=
  (s.entity? name).bind Entity.effectiveOwnerField

/-- Entities whose rows are acted upon, and no others, have an owner field. -/
theorem Schema.exists_ownerField?_iff {s : Schema} {name : String} :
    (∃ owner, s.ownerField? name = some owner) ↔
      ∃ e, s.entity? name = some e ∧ e.kind = .resource := by
  unfold ownerField?
  cases s.entity? name with
  | none => simp
  | some e => cases hk : e.kind <;> simp [Entity.effectiveOwnerField, hk]

/-- An access speaks of a row that acts and a row that is acted upon, and of a permission that may
    be used. -/
structure Access.Fits (s : Schema) (a : Access) : Prop where
  subject : ∃ e, s.entity? a.subject.entity = some e ∧ e.kind = .principal
  resource : s.ownerField? a.resource.entity = some a.ownerField
  permission : s.hasPermission a.permission = true

/-- **An operation speaks of what a schema declares**, with the kind and the owner field of the
    entity. -/
def Operation.Fits (s : Schema) : Operation → Prop
  | .get target _ => (s.entity? target.entity).isSome
  | .check access => access.Fits s
  | .grant access => access.Fits s
  | .revoke access => access.Fits s
  | .update target _ owner =>
    (s.entity? target.entity).isSome ∧ owner = s.ownerField? target.entity
  | .delete target kind owner =>
    (∃ e, s.entity? target.entity = some e ∧ kind = e.kind) ∧ owner = s.ownerField? target.entity

theorem Schema.name_of_entity? {s : Schema} {name : String} {e : Entity}
    (h : s.entity? name = some e) : e.name = name := by
  simpa using List.find?_some h

namespace Scope

variable {s : Scope}

theorem entity_eq_ok_iff {name : String} {e : Entity} :
    s.entity name = .ok e ↔ s.schema.entity? name = some e := by
  unfold entity
  cases s.schema.entity? name <;> simp

/-- **The rows of GET, UPDATE and DELETE** are a selection, narrowed by a clause, of the rows of a
    declared entity. -/
theorem rows_eq_ok_iff {ref : Reference} {clause : Option Condition} {e : Entity}
    {target : Target} :
    s.rows ref clause = .ok (e, target) ↔
      s.schema.entity? ref.entity = some e ∧ ∃ selected f,
        s.selection e ref clause.isSome = .ok selected ∧ s.narrow e selected clause = .ok f ∧
        target = ⟨e.name, f⟩ := by
  constructor
  · intro h
    obtain ⟨e', he, h⟩ := bind_eq_ok_iff.1 h
    obtain ⟨selected, hselected, h⟩ := bind_eq_ok_iff.1 h
    obtain ⟨f, hf, h⟩ := bind_eq_ok_iff.1 h
    obtain ⟨rfl, rfl⟩ := Prod.mk.inj (Except.ok.inj h)
    exact ⟨entity_eq_ok_iff.1 he, selected, f, hselected, hf, rfl⟩
  · rintro ⟨he, selected, f, hselected, hf, rfl⟩
    refine bind_eq_ok_iff.2 ⟨e, entity_eq_ok_iff.2 he, ?_⟩
    exact bind_eq_ok_iff.2 ⟨selected, hselected, bind_eq_ok_iff.2 ⟨f, hf, rfl⟩⟩

theorem entity?_of_rows {ref : Reference} {clause : Option Condition} {e : Entity}
    {target : Target} (h : s.rows ref clause = .ok (e, target)) :
    s.schema.entity? target.entity = some e := by
  obtain ⟨he, _, _, -, -, rfl⟩ := rows_eq_ok_iff.1 h
  rw [Schema.name_of_entity? he, he]

theorem entityOfKind_eq_ok_iff {kind : EntityKind} {name : String} {e : Entity} :
    s.entityOfKind kind name = .ok e ↔ s.schema.entity? name = some e ∧ e.kind = kind := by
  unfold entityOfKind
  rw [bind_eq_ok_iff]
  constructor
  · rintro ⟨e', he, h⟩
    split at h
    · next hk =>
      obtain rfl := Except.ok.inj h
      exact ⟨entity_eq_ok_iff.1 he, hk⟩
    · exact nomatch h
  · rintro ⟨he, hk⟩
    exact ⟨e, entity_eq_ok_iff.2 he, if_pos hk⟩

/-- The row of CHECK, GRANT and REVOKE belongs to a declared entity of the kind asked for. -/
theorem entity?_of_row {kind : EntityKind} {ref : Reference} {e : Entity} {target : Target}
    (h : s.row kind ref = .ok (e, target)) :
    s.schema.entity? target.entity = some e ∧ e.kind = kind := by
  obtain ⟨e', he, h⟩ := bind_eq_ok_iff.1 h
  obtain ⟨f, -, h⟩ := bind_eq_ok_iff.1 h
  obtain ⟨rfl, rfl⟩ := Prod.mk.inj (Except.ok.inj h)
  obtain ⟨he, hk⟩ := entityOfKind_eq_ok_iff.1 he
  exact ⟨by rw [Schema.name_of_entity? he, he], hk⟩

/-- Whoever acts is a row of a declared entity whose rows act. -/
theorem ofPrincipal_eq_ok {schema : Schema} {p : Principal} (h : ofPrincipal schema p = .ok s) :
    s.schema = schema ∧ schema.entity? p.entity = some s.actor ∧ s.actor.kind = .principal ∧
      s.actorId = p.id := by
  unfold ofPrincipal at h
  split at h
  · exact nomatch h
  · next e he =>
    split at h
    · next hk =>
      obtain rfl := Except.ok.inj h
      exact ⟨rfl, he, hk, rfl⟩
    · exact nomatch h

theorem entity?_of_subject {who : Subject} {target : Target}
    (hactor : s.schema.entity? s.actor.name = some s.actor) (hkind : s.actor.kind = .principal)
    (h : s.subject who = .ok target) :
    ∃ e, s.schema.entity? target.entity = some e ∧ e.kind = .principal := by
  cases who with
  | self =>
    obtain rfl := Except.ok.inj h
    exact ⟨s.actor, hactor, hkind⟩
  | reference ref =>
    obtain ⟨⟨e, target'⟩, hrow, h⟩ := bind_eq_ok_iff.1 h
    obtain rfl := Except.ok.inj h
    exact ⟨e, entity?_of_row hrow⟩

theorem permission_eq_ok_iff {name p : String} :
    s.permission name = .ok p ↔ s.schema.hasPermission name = true ∧ name = p := by
  unfold permission
  by_cases h : s.schema.hasPermission name = true <;> simp [h]

theorem access_fits {who : Subject} {permission : String} {what : Reference} {a : Access}
    (hactor : s.schema.entity? s.actor.name = some s.actor) (hkind : s.actor.kind = .principal)
    (h : s.access who permission what = .ok a) : a.Fits s.schema := by
  obtain ⟨subject, hsubject, h⟩ := bind_eq_ok_iff.1 h
  obtain ⟨permission', hpermission, h⟩ := bind_eq_ok_iff.1 h
  obtain ⟨⟨e, resource⟩, hrow, h⟩ := bind_eq_ok_iff.1 h
  obtain rfl := Except.ok.inj h
  obtain ⟨he, hk⟩ := entity?_of_row hrow
  refine ⟨entity?_of_subject hactor hkind hsubject, ?_, ?_⟩
  · simp [Schema.ownerField?, he, Entity.effectiveOwnerField, hk]
  · obtain ⟨hp, rfl⟩ := permission_eq_ok_iff.1 hpermission
    exact hp

theorem operation_fits {statement : Statement} {op : Operation}
    (hactor : s.schema.entity? s.actor.name = some s.actor) (hkind : s.actor.kind = .principal)
    (h : s.operation statement = .ok op) : op.Fits s.schema := by
  cases statement with
  | get ref names clause =>
    obtain ⟨⟨e, target⟩, hrows, h⟩ := bind_eq_ok_iff.1 h
    obtain ⟨fields, -, h⟩ := bind_eq_ok_iff.1 h
    obtain rfl := Except.ok.inj h
    exact Option.isSome_of_eq_some (entity?_of_rows hrows)
  | check | grant | revoke =>
    obtain ⟨a, ha, h⟩ := bind_eq_ok_iff.1 h
    obtain rfl := Except.ok.inj h
    exact access_fits hactor hkind ha
  | update ref settings clause =>
    obtain ⟨⟨e, target⟩, hrows, h⟩ := bind_eq_ok_iff.1 h
    obtain ⟨assignments, -, h⟩ := bind_eq_ok_iff.1 h
    obtain rfl := Except.ok.inj h
    have he := entity?_of_rows hrows
    refine ⟨Option.isSome_of_eq_some he, ?_⟩
    rw [Schema.ownerField?, he, Option.bind_some]
  | delete ref clause =>
    obtain ⟨⟨e, target⟩, hrows, h⟩ := bind_eq_ok_iff.1 h
    obtain rfl := Except.ok.inj h
    have he := entity?_of_rows hrows
    refine ⟨⟨e, he, rfl⟩, ?_⟩
    rw [Schema.ownerField?, he, Option.bind_some]

end Scope

/-- **A resolved statement** is for its principal, and its operation fits the schema. -/
theorem Statement.resolve_fits {schema : Schema} {p : Principal} {statement : Statement}
    {plan : Plan} (h : statement.resolve schema p = .ok plan) :
    plan.principal = p ∧ plan.operation.Fits schema := by
  obtain ⟨s, hs, h⟩ := bind_eq_ok_iff.1 h
  obtain ⟨op, hop, h⟩ := bind_eq_ok_iff.1 h
  obtain rfl := Except.ok.inj h
  obtain ⟨rfl, hactor, hkind, -⟩ := Scope.ofPrincipal_eq_ok hs
  refine ⟨rfl, Scope.operation_fits ?_ hkind hop⟩
  rw [Schema.name_of_entity? hactor]
  exact hactor

theorem compile_eq_ok_iff {schema : Schema} {p : Principal} {text : String} {plan : Plan} :
    compile schema p text = .ok plan ↔
      ∃ statement, Statement.read text = .ok statement ∧
        statement.resolve schema p = .ok plan := by
  unfold compile
  cases Statement.read text with
  | error e => simp
  | ok statement => cases h : statement.resolve schema p <;> simp [h]

theorem compile_fits {schema : Schema} {p : Principal} {text : String} {plan : Plan}
    (h : compile schema p text = .ok plan) :
    plan.principal = p ∧ plan.operation.Fits schema := by
  obtain ⟨statement, -, h⟩ := compile_eq_ok_iff.1 h
  exact Statement.resolve_fits h

end Warrant
