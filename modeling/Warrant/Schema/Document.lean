import Warrant.Json.Reader
import Warrant.Json.Record
import Warrant.Schema.Basic

/-!
# Schemas as documents

## Main definitions

- `Schema.toJson`, `Schema.ofJson?` — the JSON form of a schema
- `Schema.read` — the schema that a document holds, which must keep the rules
-/

namespace Warrant

def Field.toJson (f : Field) : Json :=
  .object [("name", .string f.name), ("type", .string f.type.name), ("unique", .bool f.unique)]

/-- The field that a JSON value describes. A field is not unique unless it says so. -/
def Field.ofJson? (j : Json) : Option Field := do
  let r ← j.record? ["name", "type", "unique"] false
  let name ← r.required? "name" Json.string?
  let type ← r.required? "type" fun j => j.word? >>= FieldType.ofName?
  let unique ← r.withDefault? "unique" Json.bool? false
  return ⟨name, type, unique⟩

/-- The JSON form of an entity. An owner field is written only if it was declared. -/
def Entity.toJson (e : Entity) : Json :=
  .object <|
    [("name", .string e.name), ("kind", .string e.kind.name),
      ("fields", .array (e.fields.map Field.toJson))] ++
    match e.ownerField with
    | some owner => [("owner_field", .string owner)]
    | none => []

/-- The entity that a JSON value describes. -/
def Entity.ofJson? (j : Json) : Option Entity := do
  let r ← j.record? ["name", "kind", "fields", "owner_field"] false
  let name ← r.required? "name" Json.string?
  let kind ← r.required? "kind" fun j => j.word? >>= EntityKind.ofName?
  let fields ← r.required? "fields" (Json.list? Field.ofJson?)
  let ownerField ← r.omissible? "owner_field" Json.string?
  return ⟨name, kind, fields, ownerField⟩

namespace Schema

def toJson (s : Schema) : Json :=
  .object [("entities", .array (s.entities.map Entity.toJson)),
    ("permissions", .array (s.permissions.map .string)),
    ("allow_custom_permissions", .bool s.allowCustomPermissions)]

/-- The schema that a JSON value describes. Custom permissions are not allowed unless it says
    so. -/
def ofJson? (j : Json) : Option Schema := do
  let r ← j.record? ["entities", "permissions", "allow_custom_permissions"] false
  let entities ← r.required? "entities" (Json.list? Entity.ofJson?)
  let permissions ← r.required? "permissions" (Json.list? Json.string?)
  let custom ← r.withDefault? "allow_custom_permissions" Json.bool? false
  return ⟨entities, permissions, custom⟩

/-- Why a schema could not be loaded. -/
inductive LoadError
  /-- There is no such file. -/
  | unreadable
  /-- The document describes no schema. -/
  | malformed
  | invalid (fault : SchemaFault)

/-- The schema that a document describes, whether it keeps the rules or not. -/
def readUnchecked? (document : String) : Option Schema :=
  Json.read? document >>= ofJson?

/-- **The schema that a document holds.** It must keep the rules. -/
def read (document : String) : Except LoadError Schema :=
  match readUnchecked? document with
  | none => .error .malformed
  | some s =>
    match s.validate with
    | .ok () => .ok s
    | .error fault => .error (.invalid fault)

end Schema

end Warrant
