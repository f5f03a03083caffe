import Warrant.Json.Record
import Warrant.Number.Whole
import Warrant.Row

/-!
# Values and rows as documents

In documents a value names its type, so that an integer and a timestamp can be told from a float
and a string.

## Main definitions

- `Value.toDocument`, `Value.ofDocument?` — the JSON form of a value that names its type
- `Row.ofDocument?` — the row in a document, as it stands there
-/

namespace Warrant

namespace Value

/-- The JSON form of a value that names its type. A float that is not finite becomes `null`. -/
def toDocument (v : Value) : Json :=
  match v with
  | .null => .string "Null"
  | .boolean _ => .ofMembers [("Boolean", v.toJson)]
  | .integer _ => .ofMembers [("Integer", v.toJson)]
  | .float _ => .ofMembers [("Float", v.toJson)]
  | .string _ => .ofMembers [("String", v.toJson)]
  | .timestamp _ => .ofMembers [("Timestamp", v.toJson)]

/-- An integer of 64 bits. -/
def int64? : Json → Option Int64
  | .int i => word64? i
  | _ => none

/-- A float. An integer is rounded to one. -/
def float? : Json → Option Binary64
  | .float x => some x
  | .int i => some (Binary64.ofInt i)
  | _ => none

/-- The value that a JSON value describes. Timestamps are read by a reader of one's own. -/
def ofDocumentWith? (readTime? : String → Option Instant) (j : Json) : Option Value := do
  match ← j.choice? with
  | ("Null", _) => if (← j.word?) == "Null" then some .null else none
  | ("Boolean", some b) => return .boolean (← b.bool?)
  | ("Integer", some i) => return .integer (← int64? i)
  | ("Float", some x) => return .float (← float? x)
  | ("String", some s) => return .string (← s.string?)
  | ("Timestamp", some s) => return .timestamp (← readTime? (← s.string?))
  | _ => none

/-- The value that a JSON value describes. -/
def ofDocument? (j : Json) : Option Value :=
  ofDocumentWith? Instant.readRelaxed? j

end Value

/-- The fields that a JSON object describes. -/
def Row.fields? : Json → Option (SortedMap String Value)
  | .object members => do
    return SortedMap.ofList (← members.mapM fun m => do return (m.1, ← Value.ofDocument? m.2))
  | _ => none

/-- The row that a JSON value describes, as it stands there. -/
def Row.ofDocument? (j : Json) : Option Row := do
  let r ← j.record? ["id", "fields"] false
  let id ← r.required? "id" Json.string?
  let fields ← r.required? "fields" Row.fields?
  return ⟨id, fields⟩

end Warrant
