import Warrant.Entity
import Warrant.Statement.Printer

/-!
# Statements that make no sense

Why a statement cannot be resolved against a schema. Each cause has a category and a detail that
names the offending part.

## Main definitions

- `ResolutionError` — the causes
- `ResolutionError.category`, `ResolutionError.detail` — what is shown of a cause
-/

namespace Warrant

/-- What kind of mistake was made. -/
inductive ResolutionError.Category
  | unknownEntity
  | unknownField
  | unknownPermission
  | typeMismatch
  | ambiguousReference
  | missingRequiredField
  | immutableField
  | invalidSelf
deriving DecidableEq, Repr

def ResolutionError.Category.code : ResolutionError.Category → String
  | .unknownEntity => "UnknownEntity"
  | .unknownField => "UnknownField"
  | .unknownPermission => "UnknownPermission"
  | .typeMismatch => "TypeMismatch"
  | .ambiguousReference => "AmbiguousReference"
  | .missingRequiredField => "MissingRequiredField"
  | .immutableField => "ImmutableField"
  | .invalidSelf => "InvalidSelf"

def ResolutionError.Category.write : ResolutionError.Category → String
  | .unknownEntity => "unknown entity"
  | .unknownField => "unknown field"
  | .unknownPermission => "unknown permission"
  | .typeMismatch => "type mismatch"
  | .ambiguousReference => "ambiguous reference"
  | .missingRequiredField => "missing required field"
  | .immutableField => "immutable field"
  | .invalidSelf => "invalid SELF"

/-- Why a statement cannot be resolved. -/
inductive ResolutionError
  /-- The schema does not know the entity of whoever acts. -/
  | unknownActor (entity : String)
  /-- The rows of the entity of whoever acts do not act. -/
  | passiveActor (entity : String)
  | unknownEntity (entity : String)
  /-- The entity is of the other kind. -/
  | wrongKind (entity : String) (expected : EntityKind)
  | unknownField (entity field : String)
  | unknownPermission (permission : String)
  /-- The literal does not fit the field. -/
  | misfit (entity field : String) (expected : FieldType) (found : Literal)
  /-- The string is no timestamp. -/
  | notTimestamp (entity field text : String)
  /-- The selector `.*` where rows are asked for. -/
  | wildcardRows (entity : String)
  /-- A reference to one row, and a condition besides. -/
  | rowAndClause (ref : Reference)
  | assignedTwice (entity field : String)
  /-- A reference to one row was needed. -/
  | manyRows (ref : Reference)
  /-- The conditions of a reference to one row are not all equalities. -/
  | notEqualities (ref : Reference)
  /-- The conditions of a reference to one row test no unique field. -/
  | notPinned (ref : Reference)
  | identityAssigned (entity : String)
  /-- The row of whoever acts, as a row of another entity. -/
  | foreignSelf (entity principal : String)

/-- The type of a literal, for messages. -/
def Literal.typeName : Literal → String
  | .string _ => "string literal"
  | .integer _ => "number literal"
  | .float _ => "number literal"
  | .boolean _ => "boolean literal"
  | .self => "SELF"

namespace ResolutionError

/-- The category of a cause. -/
def category : ResolutionError → Category
  | .unknownActor _ => .unknownEntity
  | .passiveActor _ => .unknownEntity
  | .unknownEntity _ => .unknownEntity
  | .wrongKind .. => .unknownEntity
  | .unknownField .. => .unknownField
  | .unknownPermission _ => .unknownPermission
  | .misfit .. => .typeMismatch
  | .notTimestamp .. => .typeMismatch
  | .wildcardRows _ => .ambiguousReference
  | .rowAndClause _ => .ambiguousReference
  | .assignedTwice .. => .ambiguousReference
  | .manyRows _ => .ambiguousReference
  | .notEqualities _ => .ambiguousReference
  | .notPinned _ => .missingRequiredField
  | .identityAssigned _ => .immutableField
  | .foreignSelf .. => .invalidSelf

def refText (r : Reference) : String :=
  String.ofList r.write

/-- The detail of a cause. -/
def detail : ResolutionError → String
  | .unknownActor entity => "acting principal type '" ++ entity ++ "'"
  | .passiveActor entity => "acting principal type '" ++ entity ++ "' is not a principal entity"
  | .unknownEntity entity => entity
  | .wrongKind entity expected => entity ++ " is not a " ++ expected.name ++ " entity"
  | .unknownField entity field => entity ++ "." ++ field
  | .unknownPermission permission => permission
  | .misfit entity field expected found =>
    entity ++ "." ++ field ++ " is " ++ expected.name ++ ", found " ++ found.typeName
  | .notTimestamp entity field text =>
    entity ++ "." ++ field ++ ": " ++ Text.quoted text ++ " is not an RFC 3339 timestamp"
  | .wildcardRows entity => entity ++ ".* is only valid as a GET projection"
  | .rowAndClause ref => refText ref ++ " names a row and also has a WHERE clause"
  | .assignedTwice entity field => entity ++ "." ++ field ++ " is assigned more than once"
  | .manyRows ref => refText ref ++ " does not name a single row"
  | .notEqualities ref => refText ref ++ " must use only '=' joined by AND"
  | .notPinned ref => refText ref ++ " must pin id or a unique field"
  | .identityAssigned entity => entity ++ ".id cannot be assigned"
  | .foreignSelf entity principal => entity ++ ".SELF but the principal is a " ++ principal

def write (e : ResolutionError) : String :=
  e.category.write ++ ": " ++ e.detail

end ResolutionError

end Warrant
