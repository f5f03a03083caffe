import Warrant.Plan.Basic
import Warrant.Value.Document

/-!
# Plans as documents

## Main definitions

- `Filter.toJson`, `Filter.ofJson?` — the JSON form of a filter
- `Plan.toJson`, `Plan.ofJson?` — the JSON form of a plan
-/

namespace Warrant

/-! ## Filters -/

namespace Comparison

def name : Comparison → String
  | .equal => "Eq"
  | .different => "Ne"

/-- The comparison with a given name. -/
def ofName? (s : String) : Option Comparison :=
  [equal, different].find? (·.name == s)

end Comparison

namespace Filter

mutual

def toJson : Filter → Json
  | .all => .string "All"
  | .compare field how value =>
    .ofMembers [("Compare", .object [("field", .string field), ("op", .string how.name),
      ("value", value.toDocument)])]
  | .every parts => .ofMembers [("And", .array (toJsons parts))]
  | .any parts => .ofMembers [("Or", .array (toJsons parts))]

/-- The JSON forms of some filters. -/
def toJsons : List Filter → List Json
  | [] => []
  | f :: rest => toJson f :: toJsons rest

end

/-- The comparison of a field that a JSON value describes. -/
def comparison? (j : Json) : Option Filter := do
  let r ← j.record? ["field", "op", "value"] false
  let field ← r.required? "field" Json.string?
  let how ← r.required? "op" fun j => j.word? >>= Comparison.ofName?
  let value ← r.required? "value" Value.ofDocument?
  return .compare field how value

mutual

/-- The filter that a JSON value describes. -/
def ofJson? : Json → Option Filter
  | .object [(name, .array parts)] =>
    if name == "And" then every <$> ofJsons? parts
    else if name == "Or" then any <$> ofJsons? parts
    else if name == "Compare" then comparison? (.array parts)
    else none
  | .object [("Compare", j)] => comparison? j
  | j => if j.word? == some "All" then some .all else none

/-- The filters that some JSON values describe. -/
def ofJsons? : List Json → Option (List Filter)
  | [] => some []
  | j :: rest => return (← ofJson? j) :: (← ofJsons? rest)

end

end Filter

/-! ## Operands -/

namespace Target

def toJson (t : Target) : Json :=
  .object [("entity", .string t.entity), ("filter", t.filter.toJson)]

/-- The target that a JSON value describes. -/
def ofJson? (j : Json) : Option Target := do
  let r ← j.record? ["entity", "filter"] false
  let entity ← r.required? "entity" Json.string?
  let filter ← r.required? "filter" Filter.ofJson?
  return ⟨entity, filter⟩

end Target

namespace Access

def toJson (a : Access) : Json :=
  .object [("subject", a.subject.toJson), ("permission", .string a.permission),
    ("resource", a.resource.toJson), ("owner_field", .string a.ownerField)]

/-- The access that a JSON value describes. -/
def ofJson? (j : Json) : Option Access := do
  let r ← j.record? ["subject", "permission", "resource", "owner_field"] false
  let subject ← r.required? "subject" Target.ofJson?
  let permission ← r.required? "permission" Json.string?
  let resource ← r.required? "resource" Target.ofJson?
  let ownerField ← r.required? "owner_field" Json.string?
  return ⟨subject, permission, resource, ownerField⟩

end Access

namespace Assignment

def toJson (a : Assignment) : Json :=
  .object [("field", .string a.field), ("value", a.value.toDocument),
    ("field_type", .string a.fieldType.name)]

/-- The assignment that a JSON value describes. -/
def ofJson? (j : Json) : Option Assignment := do
  let r ← j.record? ["field", "value", "field_type"] false
  let field ← r.required? "field" Json.string?
  let value ← r.required? "value" Value.ofDocument?
  let type ← r.required? "field_type" fun j => j.word? >>= FieldType.ofName?
  return ⟨field, value, type⟩

end Assignment

namespace Principal

def toJson (p : Principal) : Json :=
  .object [("entity", .string p.entity), ("id", .string p.id)]

/-- The principal that a JSON value describes. -/
def ofJson? (j : Json) : Option Principal := do
  let r ← j.record? ["entity", "id"] false
  let entity ← r.required? "entity" Json.string?
  let id ← r.required? "id" Json.string?
  return ⟨entity, id⟩

end Principal

/-! ## Plans -/

namespace Operation

def toJson : Operation → Json
  | .get target projection =>
    .ofMembers [("Get", .object [("target", target.toJson),
      ("projection", .array (projection.map .string))])]
  | .check access => .ofMembers [("Check", access.toJson)]
  | .grant access => .ofMembers [("Grant", access.toJson)]
  | .revoke access => .ofMembers [("Revoke", access.toJson)]
  | .update target assignments ownerField =>
    .ofMembers [("Update", .object [("target", target.toJson),
      ("assignments", .array (assignments.map Assignment.toJson)),
      ("owner_field", Json.optionalString ownerField)])]
  | .delete target kind ownerField =>
    .ofMembers [("Delete", .object [("target", target.toJson), ("kind", .string kind.name),
      ("owner_field", Json.optionalString ownerField)])]

/-- The operands of GET that a JSON value describes. -/
def get? (j : Json) : Option Operation := do
  let r ← j.record? ["target", "projection"] false
  let target ← r.required? "target" Target.ofJson?
  let projection ← r.required? "projection" (Json.list? Json.string?)
  return .get target projection

/-- The operands of UPDATE that a JSON value describes. -/
def update? (j : Json) : Option Operation := do
  let r ← j.record? ["target", "assignments", "owner_field"] false
  let target ← r.required? "target" Target.ofJson?
  let assignments ← r.required? "assignments" (Json.list? Assignment.ofJson?)
  let ownerField ← r.optional? "owner_field" Json.string?
  return .update target assignments ownerField

/-- The operands of DELETE that a JSON value describes. -/
def delete? (j : Json) : Option Operation := do
  let r ← j.record? ["target", "kind", "owner_field"] false
  let target ← r.required? "target" Target.ofJson?
  let kind ← r.required? "kind" fun j => j.word? >>= EntityKind.ofName?
  let ownerField ← r.optional? "owner_field" Json.string?
  return .delete target kind ownerField

/-- The operation that a JSON value describes. -/
def ofJson? (j : Json) : Option Operation := do
  match ← j.choice? with
  | ("Get", some operands) => get? operands
  | ("Check", some access) => check <$> Access.ofJson? access
  | ("Grant", some access) => grant <$> Access.ofJson? access
  | ("Revoke", some access) => revoke <$> Access.ofJson? access
  | ("Update", some operands) => update? operands
  | ("Delete", some operands) => delete? operands
  | _ => none

end Operation

namespace Plan

def toJson (p : Plan) : Json :=
  .object [("schema_version", .int p.schemaVersion.toNat), ("principal", p.principal.toJson),
    ("operation", p.operation.toJson)]

/-- A number of 32 bits. -/
def version? : Json → Option UInt32
  | .int (.ofNat n) => if n < UInt32.size then some (UInt32.ofNat n) else none
  | _ => none

/-- The plan that a JSON value describes. -/
def ofJson? (j : Json) : Option Plan := do
  let r ← j.record? ["schema_version", "principal", "operation"] false
  let version ← r.required? "schema_version" version?
  let principal ← r.required? "principal" Principal.ofJson?
  let operation ← r.required? "operation" Operation.ofJson?
  return ⟨version, principal, operation⟩

end Plan

end Warrant
