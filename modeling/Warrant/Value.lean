import Warrant.Instant.Text
import Warrant.Json.Basic
import Warrant.Number.Layout
import Warrant.Number.Whole
import Warrant.Text.Quoted

/-!
# Field values

What a field of a stored row holds, the types that a schema declares for fields, and the two
notions of equality between values: the equality of filters, under which an integer equals a
float of the same exact value, and the stricter one that keeps the two apart.

## Main definitions

- `FieldType`, `Value` — declared types and values
- `Value.conformsTo` — whether a value may be stored in a field of a type
- `Value.same` — equality within one type, floats comparing as numbers
- `Value.agrees` — equality across integers and floats, as filters use it
- `Value.write`, `Value.toJson` — the texts of a value in messages and in results
-/

namespace Warrant

/-- The declared type of a field. -/
inductive FieldType
  | string
  | number
  | boolean
  | timestamp
deriving DecidableEq

namespace FieldType

/-- All types, in the order of their numbers. -/
def all : List FieldType :=
  [.string, .number, .boolean, .timestamp]

/-- The name of a type, in schemas and in messages. -/
def name : FieldType → String
  | .string => "string"
  | .number => "number"
  | .boolean => "boolean"
  | .timestamp => "timestamp"

/-- The number of a type in encoded plans and in fingerprints. -/
def index : FieldType → Nat
  | .string => 0
  | .number => 1
  | .boolean => 2
  | .timestamp => 3

/-- The type with a given name. -/
def ofName? (s : String) : Option FieldType :=
  all.find? (·.name == s)

theorem ofName?_name (t : FieldType) : ofName? t.name = some t := by
  cases t <;> decide

end FieldType

/-- A field value. Integers have 64 bits. Equality is identity, floats by their bits. -/
inductive Value
  | null
  | boolean (b : Bool)
  | integer (i : Int64)
  | float (x : Binary64)
  | string (s : String)
  | timestamp (t : Instant)
deriving DecidableEq

namespace Value

/-- The name of a value's own type, for messages. -/
def typeName : Value → String
  | .null => "null"
  | .boolean _ => "boolean"
  | .integer _ => "integer"
  | .float _ => "float"
  | .string _ => "string"
  | .timestamp _ => "timestamp"

/-- Whether a value may be stored in a field of a type. Null may be stored in every field. -/
def conformsTo : Value → FieldType → Bool
  | .null, _ => true
  | .boolean _, .boolean => true
  | .integer _, .number => true
  | .float _, .number => true
  | .string _, .string => true
  | .timestamp _, .timestamp => true
  | _, _ => false

def asString? : Value → Option String
  | .string s => some s
  | _ => none

/-- Equality within one type. Floats compare as numbers, so that a NaN differs from itself. -/
def same : Value → Value → Bool
  | .float x, .float y => x.numEq y
  | v, w => v = w

/-- **Equality of filters**. An integer and a float are equal when the float is exactly that
    integer; within one type it is the equality of that type. -/
def agrees : Value → Value → Bool
  | .integer i, .float x => x.isInt i
  | .float x, .integer i => x.isInt i
  | v, w => same v w

def write : Value → String
  | .null => "null"
  | .boolean b => if b then "true" else "false"
  | .integer i => toString i.toInt
  | .float x => FloatLayout.plain.write x
  | .string s => Text.quoted s
  | .timestamp t => t.write .asNeeded

/-- The JSON value in results. A float that is not finite becomes `null`. -/
def toJson : Value → Json
  | .null => .null
  | .boolean b => .bool b
  | .integer i => .int i.toInt
  | .float x => if x.isFinite then .float x else .null
  | .string s => .string s
  | .timestamp t => .string (t.write .asNeeded)

end Value

end Warrant
