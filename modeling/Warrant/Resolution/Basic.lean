import Warrant.Plan.Basic
import Warrant.Resolution.Error
import Warrant.Schema.Fingerprint
import Warrant.Statement.Parser

/-!
# From statements to plans

A statement is resolved against a schema and for a principal: every name must be declared, every
literal must fit the field it is compared with or written to, and `SELF` becomes the principal.

## Main definitions

- `Scope` — the schema and whoever acts
- `Statement.resolve` — the plan of a statement
- `compile` — the plan of a text
-/

namespace Warrant

/-- What a statement is resolved against. -/
structure Scope where
  schema : Schema
  /-- The entity of whoever acts. -/
  actor : Entity
  actorId : String

namespace Scope

/-- What resolving gives, or why it fails. -/
abbrev Resolved := Except ResolutionError

/-- A declared entity. -/
def entity (s : Scope) (name : String) : Resolved Entity :=
  match s.schema.entity? name with
  | some e => .ok e
  | none => .error (.unknownEntity name)

/-- A declared field. -/
def field (e : Entity) (name : String) : Resolved Field :=
  match e.field? name with
  | some f => .ok f
  | none => .error (.unknownField e.name name)

/-- The value of a literal in a field. -/
def coerce (s : Scope) (e : Entity) (f : Field) (literal : Literal) : Resolved Value :=
  match f.type, literal with
  | .string, .string text => .ok (.string text)
  | .string, .self => .ok (.string s.actorId)
  | .number, .integer i => .ok (.integer i)
  | .number, .float x => .ok (.float x)
  | .boolean, .boolean b => .ok (.boolean b)
  | .timestamp, .string text =>
    match Instant.read? text with
    | some t => .ok (.timestamp t)
    | none => .error (.notTimestamp e.name f.name text)
  | expected, found => .error (.misfit e.name f.name expected found)

mutual

/-- The filter of a condition on the rows of an entity. -/
def filter (s : Scope) (e : Entity) : Condition → Resolved Filter
  | .compare name how literal => do
    let f ← field e name
    return .compare f.name how (← s.coerce e f literal)
  | .every parts => do return .every (← s.filters e parts)
  | .any parts => do return .any (← s.filters e parts)

/-- The filters of some conditions. -/
def filters (s : Scope) (e : Entity) : List Condition → Resolved (List Filter)
  | [] => .ok []
  | c :: rest => do
    let f ← s.filter e c
    return f :: (← s.filters e rest)

end

/-- The row of whoever acts, as a row of an entity. -/
def actorRow (s : Scope) (e : Entity) : Resolved Filter :=
  if e.name = s.actor.name then .ok (.hasId s.actorId)
  else .error (.foreignSelf e.name s.actor.name)

/-- The filter of a reference to rows, which may name one row only if there is no clause besides. -/
def selection (s : Scope) (e : Entity) (ref : Reference) (hasClause : Bool) : Resolved Filter :=
  match ref.selector with
  | .all => .ok .all
  | .conditions c => s.filter e c
  | .wildcard => .error (.wildcardRows e.name)
  | .id name => if hasClause then .error (.rowAndClause ref) else .ok (.hasId name)
  | .self => if hasClause then .error (.rowAndClause ref) else s.actorRow e

/-- The rows of a selection that satisfy a clause, if there is one. -/
def narrow (s : Scope) (e : Entity) (selected : Filter) : Option Condition → Resolved Filter
  | none => .ok selected
  | some c => do return selected.and (← s.filter e c)

/-- The rows of GET, UPDATE and DELETE: those of the reference that satisfy the clause. -/
def rows (s : Scope) (ref : Reference) (clause : Option Condition) :
    Resolved (Entity × Target) := do
  let e ← s.entity ref.entity
  let selected ← s.selection e ref clause.isSome
  let f ← s.narrow e selected clause
  return (e, ⟨e.name, f⟩)

mutual

/-- The fields that a condition tests, if it consists of equalities joined by AND. -/
def equalities? : Condition → Option (List String)
  | .compare name .equal _ => some [name]
  | .compare _ .different _ => none
  | .any _ => none
  | .every parts => equalitiesOf? parts

/-- The fields that some conditions test, if all consist of equalities joined by AND. -/
def equalitiesOf? : List Condition → Option (List String)
  | [] => some []
  | c :: rest => do return (← equalities? c) ++ (← equalitiesOf? rest)

end

/-- The filter of a reference to one row, which is named by its identity or by equalities of which
    one tests a unique field. -/
def pin (s : Scope) (e : Entity) (ref : Reference) : Resolved Filter :=
  match ref.selector with
  | .id name => .ok (.hasId name)
  | .self => s.actorRow e
  | .all => .error (.manyRows ref)
  | .wildcard => .error (.manyRows ref)
  | .conditions c =>
    match equalities? c with
    | none => .error (.notEqualities ref)
    | some names => if names.any e.isUnique then s.filter e c else .error (.notPinned ref)

/-- A declared entity of a kind. -/
def entityOfKind (s : Scope) (kind : EntityKind) (name : String) : Resolved Entity := do
  let e ← s.entity name
  if e.kind = kind then return e else throw (.wrongKind e.name kind)

/-- The row of CHECK, GRANT and REVOKE. The reference must be of the given kind and must name one
    row. -/
def row (s : Scope) (kind : EntityKind) (ref : Reference) : Resolved (Entity × Target) := do
  let e ← s.entityOfKind kind ref.entity
  let f ← s.pin e ref
  return (e, ⟨e.name, f⟩)

/-- The subject of CHECK, GRANT and REVOKE. -/
def subject (s : Scope) : Subject → Resolved Target
  | .self => .ok ⟨s.actor.name, .hasId s.actorId⟩
  | .reference ref => do return (← s.row .principal ref).2

/-- A permission that may be used. -/
def permission (s : Scope) (name : String) : Resolved String :=
  if s.schema.hasPermission name then .ok name else .error (.unknownPermission name)

/-- The operands of CHECK, GRANT and REVOKE. -/
def access (s : Scope) (who : Subject) (permission : String) (what : Reference) :
    Resolved Access := do
  let subject ← s.subject who
  let permission ← s.permission permission
  let (e, resource) ← s.row .resource what
  return ⟨subject, permission, resource, e.effectiveOwnerField.getD ""⟩

/-- The fields that GET returns. -/
def projection (e : Entity) : Projection → Resolved (List String)
  | .all => .ok e.fieldNames
  | .fields names => do
    names.forM fun name => do let _ ← field e name
    return names

/-- The assignments of UPDATE, `seen` being the fields already assigned. -/
def assignments (s : Scope) (e : Entity) (seen : List String) :
    List Setting → Resolved (List Assignment)
  | [] => .ok []
  | setting :: rest => do
    let f ← field e setting.field
    if f.name = Row.idField then throw (.identityAssigned e.name)
    if seen.contains f.name then throw (.assignedTwice e.name f.name)
    let value ← s.coerce e f setting.value
    return ⟨f.name, value, f.type⟩ :: (← s.assignments e (f.name :: seen) rest)

/-- The operation of a statement. -/
def operation (s : Scope) : Statement → Resolved Operation
  | .get ref names clause => do
    let (e, target) ← s.rows ref clause
    return .get target (← projection e names)
  | .check who permission what => do return .check (← s.access who permission what)
  | .grant permission what who => do return .grant (← s.access who permission what)
  | .revoke permission what who => do return .revoke (← s.access who permission what)
  | .update ref settings clause => do
    let (e, target) ← s.rows ref clause
    return .update target (← s.assignments e [] settings) e.effectiveOwnerField
  | .delete ref clause => do
    let (e, target) ← s.rows ref clause
    return .delete target e.kind e.effectiveOwnerField

/-- The scope of a principal, whose entity must be declared and of rows that act. -/
def ofPrincipal (schema : Schema) (principal : Principal) : Resolved Scope :=
  match schema.entity? principal.entity with
  | none => .error (.unknownActor principal.entity)
  | some e =>
    if e.kind = .principal then .ok ⟨schema, e, principal.id⟩
    else .error (.passiveActor principal.entity)

end Scope

/-- **The plan of a statement** under a schema and for a principal. -/
def Statement.resolve (schema : Schema) (principal : Principal) (statement : Statement) :
    Except ResolutionError Plan := do
  let scope ← Scope.ofPrincipal schema principal
  return ⟨schema.fingerprint, principal, ← scope.operation statement⟩

/-- Why a text has no plan. -/
inductive CompileError
  | unparsed (e : ParseError)
  | unresolved (e : ResolutionError)

def CompileError.write : CompileError → String
  | .unparsed e => e.write
  | .unresolved e => e.write

/-- **The plan of a text** under a schema and for a principal. -/
def compile (schema : Schema) (principal : Principal) (text : String) :
    Except CompileError Plan :=
  match Statement.read text with
  | .error e => .error (.unparsed e)
  | .ok statement =>
    match statement.resolve schema principal with
    | .error e => .error (.unresolved e)
    | .ok plan => .ok plan

end Warrant
