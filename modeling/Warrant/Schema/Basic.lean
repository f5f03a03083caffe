import Warrant.Entity
import Warrant.Text.Quoted
import Warrant.Token.Basic

/-!
# Schemas

A schema declares the entities of a store and the permissions that may be granted. Only a schema
that keeps the rules below is used to resolve statements.

## Main definitions

- `Schema` — entities and permissions
- `Schema.isName` — the names that may be declared: those that a statement can write
- `SchemaFault` — a broken rule
- `Schema.validate` — the first rule that a schema breaks
- `Schema.standard` — users, resources and five permissions
-/

namespace Warrant

/-- Entities and permissions. -/
structure Schema where
  entities : List Entity
  permissions : List String
  /-- Whether permissions beyond the listed ones may be used. -/
  allowCustomPermissions : Bool
deriving DecidableEq

/-- A rule that a schema breaks. -/
inductive SchemaFault
  | missingField (entity field : String)
  | wrongFieldType (entity field : String) (expected : FieldType)
  | duplicateEntity (entity : String)
  | duplicateField (entity field : String)
  | invalidName (name : String)
  | noPrincipal
  | multiplePrincipals (entities : List String)
  | missingAdmin
deriving DecidableEq

def SchemaFault.code : SchemaFault → String
  | .missingField .. => "MissingRequiredField"
  | .wrongFieldType .. => "WrongFieldType"
  | .duplicateEntity _ => "DuplicateEntity"
  | .duplicateField .. => "DuplicateField"
  | .invalidName _ => "InvalidName"
  | .noPrincipal => "NoPrincipal"
  | .multiplePrincipals _ => "MultiplePrincipals"
  | .missingAdmin => "MissingAdminPermission"

def SchemaFault.write : SchemaFault → String
  | .missingField entity field =>
    "entity '" ++ entity ++ "' is missing required field '" ++ field ++ "'"
  | .wrongFieldType entity field expected =>
    "field '" ++ entity ++ "." ++ field ++ "' must be of type " ++ expected.name
  | .duplicateEntity entity => "entity '" ++ entity ++ "' is declared more than once"
  | .duplicateField entity field =>
    "field '" ++ entity ++ "." ++ field ++ "' is declared more than once"
  | .invalidName name => "'" ++ name ++ "' is not a valid name"
  | .noPrincipal => "schema declares no principal entity"
  | .multiplePrincipals entities =>
    "schema declares more than one principal entity: " ++ Text.quotedList entities
  | .missingAdmin => "permission vocabulary must include 'admin'"

namespace Schema

/-- The permission that lets its holder grant, revoke and change. -/
def adminPermission : String := "admin"

/-- The entity with a given name. -/
def entity? (s : Schema) (name : String) : Option Entity :=
  s.entities.find? (·.name == name)

/-- The first entity of a kind. -/
def firstOfKind? (s : Schema) (kind : EntityKind) : Option Entity :=
  s.entities.find? (·.kind = kind)

/-- Whether a statement may use a permission. -/
def hasPermission (s : Schema) (permission : String) : Bool :=
  s.allowCustomPermissions || s.permissions.contains permission

/-- Whether a name may be declared: letters, digits and underscores of ASCII, no digit at the
    start, and no reserved word. -/
def isName (s : String) : Bool :=
  match s.toList with
  | [] => false
  | c :: rest =>
    (c.isAlpha || c == '_') && rest.all (fun c => c.isAlpha || c.isDigit || c == '_') &&
      !Keyword.isReserved s

/-- The rule of names. -/
def checkName (name : String) : Except SchemaFault Unit :=
  if isName name then .ok () else .error (.invalidName name)

/-- The rules of the fields of an entity, `seen` being the names before them. -/
def checkFields (entity : String) (seen : List String) : List Field → Except SchemaFault Unit
  | [] => .ok ()
  | f :: rest => do
    checkName f.name
    if seen.contains f.name then throw (.duplicateField entity f.name)
    checkFields entity (f.name :: seen) rest

/-- The rule that an entity has a field of strings with this name. -/
def requireString (e : Entity) (name : String) : Except SchemaFault Unit :=
  match e.field? name with
  | none => .error (.missingField e.name name)
  | some f =>
    if f.type = .string then .ok () else .error (.wrongFieldType e.name name .string)

/-- The rules of the entities, `seen` being the names before them. -/
def checkEntities (seen : List String) : List Entity → Except SchemaFault Unit
  | [] => .ok ()
  | e :: rest => do
    checkName e.name
    if seen.contains e.name then throw (.duplicateEntity e.name)
    checkFields e.name [] e.fields
    requireString e "id"
    match e.effectiveOwnerField with
    | some owner => requireString e owner
    | none => pure ()
    checkEntities (e.name :: seen) rest

/-- The names of the entities whose rows act. -/
def principalNames (s : Schema) : List String :=
  (s.entities.filter (·.kind = .principal)).map (·.name)

/-- The rule that there is one entity whose rows act. -/
def checkPrincipal (s : Schema) : Except SchemaFault Unit :=
  match s.principalNames with
  | [] => .error .noPrincipal
  | [_] => .ok ()
  | names => .error (.multiplePrincipals names)

/-- **The first rule that a schema breaks**, if there is one. -/
def validate (s : Schema) : Except SchemaFault Unit := do
  checkEntities [] s.entities
  s.checkPrincipal
  s.permissions.forM checkName
  if s.permissions.contains adminPermission then pure () else throw .missingAdmin

/-- Users, resources and five permissions. -/
def standard : Schema where
  entities := [
    ⟨"User", .principal,
      [⟨"id", .string, true⟩, ⟨"username", .string, true⟩, ⟨"email", .string, true⟩,
        ⟨"active", .boolean, false⟩, ⟨"created_at", .timestamp, false⟩], none⟩,
    ⟨"Resource", .resource,
      [⟨"id", .string, true⟩, ⟨"type", .string, false⟩, ⟨"name", .string, false⟩,
        ⟨"owner", .string, false⟩], none⟩]
  permissions := ["read", "write", "delete", "share", "admin"]
  allowCustomPermissions := false

/-- The standard schema keeps the rules. -/
theorem validate_standard : standard.validate = .ok () := rfl

end Schema

end Warrant
