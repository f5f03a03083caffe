import Warrant.Entity
import Warrant.Filter
import Warrant.Text.Digits

/-!
# Plans

A plan is a statement made ready to run: every name has been resolved against a schema, every
literal is a value of its field's type, and the acting principal stands where the statement spoke
of itself.

## Main definitions

- `Principal` — who acts
- `Target`, `Access`, `Assignment` — the operands of plans
- `Operation`, `Plan` — what a plan does, for whom and under which schema
- `Verb` — the six kinds of statements
-/

namespace Warrant

/-- The row on whose behalf a plan runs. -/
structure Principal where
  entity : String
  id : String
deriving DecidableEq, Repr

def Principal.write (p : Principal) : String :=
  p.entity ++ "." ++ p.id

/-- The six kinds of statements. -/
inductive Verb
  | get
  | check
  | grant
  | revoke
  | update
  | delete
deriving DecidableEq, Repr

namespace Verb

/-- The word that opens a statement. -/
def word : Verb → String
  | .get => "GET"
  | .check => "CHECK"
  | .grant => "GRANT"
  | .revoke => "REVOKE"
  | .update => "UPDATE"
  | .delete => "DELETE"

/-- Whether a caller may simply repeat the statement: its meaning does not hang on rows that it
    changes itself. -/
def isIdempotent : Verb → Bool
  | .update => false
  | .delete => false
  | _ => true

/-- Whether the statement can change the store. -/
def isMutation : Verb → Bool
  | .get => false
  | .check => false
  | _ => true

end Verb

/-- The rows of one entity that a filter selects. -/
structure Target where
  entity : String
  filter : Filter

def Target.write (t : Target) : String :=
  t.entity ++ "[" ++ t.filter.write ++ "]"

/-- What is asked, given or taken: a permission of a subject on a resource. -/
structure Access where
  subject : Target
  permission : String
  resource : Target
  /-- The field of the resource that holds the id of its owner. -/
  ownerField : String

/-- A field and the value it gets, with the type that the value must have. -/
structure Assignment where
  field : String
  value : Value
  fieldType : FieldType
deriving DecidableEq

/-- What a plan does. -/
inductive Operation
  | get (target : Target) (projection : List String)
  | check (access : Access)
  | grant (access : Access)
  | revoke (access : Access)
  /-- With an owner field the rows are resources, and each of them is guarded. -/
  | update (target : Target) (assignments : List Assignment) (ownerField : Option String)
  | delete (target : Target) (kind : EntityKind) (ownerField : Option String)

/-- A statement made ready to run. -/
structure Plan where
  /-- The fingerprint of the schema under which the statement was resolved. -/
  schemaVersion : UInt32
  principal : Principal
  operation : Operation

namespace Operation

/-- The kind of statement that an operation carries out. -/
def verb : Operation → Verb
  | .get .. => .get
  | .check _ => .check
  | .grant _ => .grant
  | .revoke _ => .revoke
  | .update .. => .update
  | .delete .. => .delete

end Operation

namespace Plan

/-- The kind of statement that the plan carries out. -/
def verb (p : Plan) : Verb :=
  p.operation.verb

end Plan

/-- The text of an access, after its verb. -/
def Access.write (a : Access) : String :=
  a.subject.write ++ " " ++ a.permission ++ " on " ++ a.resource.write

def Assignment.write (a : Assignment) : String :=
  a.field ++ " = " ++ a.value.write

def Operation.write : Operation → String
  | .get target projection =>
    "Get " ++ target.write ++ " -> [" ++ String.intercalate ", " projection ++ "]"
  | .check access => Verb.check.word ++ " " ++ access.write
  | .grant access => Verb.grant.word ++ " " ++ access.write
  | .revoke access => Verb.revoke.word ++ " " ++ access.write
  | .update target assignments _ =>
    "Update " ++ target.write ++ " set " ++
      String.intercalate ", " (assignments.map Assignment.write)
  | .delete target kind _ => "Delete " ++ target.write ++ " (" ++ kind.name ++ ")"

def Plan.write (p : Plan) : String :=
  p.operation.write ++ " as " ++ p.principal.write ++
    " (schema " ++ Text.hexWord p.schemaVersion ++ ")"

/-- Whether two targets are the same, floats comparing as numbers. -/
def Target.same (t u : Target) : Bool :=
  t.entity = u.entity && t.filter.same u.filter

/-- Whether two accesses are the same, floats comparing as numbers. -/
def Access.same (a b : Access) : Bool :=
  a.subject.same b.subject && a.permission = b.permission && a.resource.same b.resource &&
    a.ownerField = b.ownerField

/-- Whether two assignments are the same, floats comparing as numbers. -/
def Assignment.same (a b : Assignment) : Bool :=
  a.field = b.field && a.value.same b.value && a.fieldType = b.fieldType

/-- Whether two lists of assignments are the same one by one. -/
def Assignment.sameList : List Assignment → List Assignment → Bool
  | [], [] => true
  | a :: as, b :: bs => a.same b && sameList as bs
  | _, _ => false

/-- Whether two operations are the same, floats comparing as numbers. -/
def Operation.same : Operation → Operation → Bool
  | .get t p, .get t' p' => t.same t' && p = p'
  | .check a, .check a' => a.same a'
  | .grant a, .grant a' => a.same a'
  | .revoke a, .revoke a' => a.same a'
  | .update t as o, .update t' as' o' => t.same t' && Assignment.sameList as as' && o = o'
  | .delete t k o, .delete t' k' o' => t.same t' && k = k' && o = o'
  | _, _ => false

/-- Whether two plans are the same, floats comparing as numbers. -/
def Plan.same (p q : Plan) : Bool :=
  p.schemaVersion = q.schemaVersion && p.principal = q.principal && p.operation.same q.operation

end Warrant
