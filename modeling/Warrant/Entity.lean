import Warrant.Value

/-!
# Entities

An entity declares what its rows are: who acts or what is acted upon, and which fields they have.

## Main definitions

- `EntityKind` — the two kinds of entities
- `Field`, `Entity` — a declared field and a declared entity
- `Entity.effectiveOwnerField` — the field that names the owner of a resource
-/

namespace Warrant

/-- Whether the rows of an entity act or are acted upon. -/
inductive EntityKind
  | principal
  | resource
deriving DecidableEq, Repr

namespace EntityKind

/-- The name of a kind, in schemas and in messages. -/
def name : EntityKind → String
  | .principal => "principal"
  | .resource => "resource"

/-- The number of a kind in encoded plans and in fingerprints. -/
def index : EntityKind → Nat
  | .principal => 0
  | .resource => 1

/-- The kind with a given name. -/
def ofName? (s : String) : Option EntityKind :=
  [principal, resource].find? (·.name == s)

theorem ofName?_name (k : EntityKind) : ofName? k.name = some k := by
  cases k <;> decide

end EntityKind

/-- A declared field. -/
structure Field where
  name : String
  type : FieldType
  /-- Whether a value of the field belongs to one row at most. -/
  unique : Bool
deriving DecidableEq

/-- A declared entity. -/
structure Entity where
  name : String
  kind : EntityKind
  fields : List Field
  /-- The declared owner field, if any. It counts for resources only. -/
  ownerField : Option String
deriving DecidableEq

namespace Entity

/-- The owner field of a resource that declares none. -/
def defaultOwnerField : String := "owner"

/-- The field with a given name. -/
def field? (e : Entity) (name : String) : Option Field :=
  e.fields.find? (·.name == name)

/-- Whether a value of the field pins a single row: the identity always does. -/
def isUnique (e : Entity) (name : String) : Bool :=
  name == "id" || (e.field? name).any (·.unique)

/-- The field that holds the owner's id. Principals have no owner. -/
def effectiveOwnerField (e : Entity) : Option String :=
  match e.kind with
  | .resource => some (e.ownerField.getD defaultOwnerField)
  | .principal => none

/-- The names of the fields as declared. -/
def fieldNames (e : Entity) : List String :=
  e.fields.map (·.name)

end Entity

end Warrant
