import Warrant.Number.Binary64
import Warrant.Plan.Basic

/-!
# Statements

The six kinds of statements as trees. A statement knows nothing of schemas: names are not
resolved, literals have no field type, and `SELF` still stands for whoever will run it.

## Main definitions

- `Literal`, `Condition` — literals and what they are compared with
- `Selector`, `Reference`, `Subject` — how a statement names rows
- `Statement` — a whole statement
-/

namespace Warrant

/-- A literal of a statement. -/
inductive Literal
  | string (s : String)
  | integer (i : Int64)
  | float (x : Binary64)
  | boolean (b : Bool)
  /-- The identity of whoever runs the statement. -/
  | self
deriving DecidableEq

/-- What rows must satisfy. -/
inductive Condition
  | compare (field : String) (how : Comparison) (value : Literal)
  | every (parts : List Condition)
  | any (parts : List Condition)
deriving Inhabited

/-- How a reference narrows the rows of its entity. -/
inductive Selector
  /-- Every row: `User`. -/
  | all
  /-- The row with an identity: `User.alice`. -/
  | id (name : String)
  /-- The rows that satisfy a condition: `User(active = true)`. -/
  | conditions (condition : Condition)
  /-- Every row, said aloud: `User.*`. -/
  | wildcard
  /-- The row of whoever runs the statement: `User.SELF`. -/
  | self

/-- An entity and a selection of its rows. -/
structure Reference where
  entity : String
  selector : Selector

/-- Whose permission a statement speaks of. -/
inductive Subject
  /-- Whoever runs the statement. -/
  | self
  | reference (ref : Reference)

/-- The fields that GET returns. -/
inductive Projection
  | all
  | fields (names : List String)

/-- A field and the literal that UPDATE writes to it. -/
structure Setting where
  field : String
  value : Literal

/-- **A statement.** -/
inductive Statement
  | get (target : Reference) (projection : Projection) (condition : Option Condition)
  | check (subject : Subject) (permission : String) (resource : Reference)
  | grant (permission : String) (resource : Reference) (subject : Subject)
  | revoke (permission : String) (resource : Reference) (subject : Subject)
  | update (target : Reference) (settings : List Setting) (condition : Option Condition)
  | delete (target : Reference) (condition : Option Condition)

/-- The rows of an entity whose field has a text. -/
def Reference.withField (entity field text : String) : Reference :=
  ⟨entity, .conditions (.compare field .equal (.string text))⟩

namespace Statement

/-- The kind of a statement. -/
def verb : Statement → Verb
  | .get .. => .get
  | .check .. => .check
  | .grant .. => .grant
  | .revoke .. => .revoke
  | .update .. => .update
  | .delete .. => .delete

end Statement

/-- Whether two literals are the same, floats comparing as numbers. -/
def Literal.same : Literal → Literal → Bool
  | .float x, .float y => x.numEq y
  | a, b => a = b

mutual

/-- Whether two conditions are the same, floats comparing as numbers. -/
def Condition.same : Condition → Condition → Bool
  | .compare field how value, .compare field' how' value' =>
    field = field' && how = how' && value.same value'
  | .every parts, .every parts' => Condition.sameParts parts parts'
  | .any parts, .any parts' => Condition.sameParts parts parts'
  | _, _ => false

/-- Whether two lists of conditions are the same one by one. -/
def Condition.sameParts : List Condition → List Condition → Bool
  | [], [] => true
  | c :: rest, c' :: rest' => Condition.same c c' && Condition.sameParts rest rest'
  | _, _ => false

end

/-- Whether two selectors are the same, floats comparing as numbers. -/
def Selector.same : Selector → Selector → Bool
  | .all, .all => true
  | .id a, .id b => a = b
  | .conditions c, .conditions d => c.same d
  | .wildcard, .wildcard => true
  | .self, .self => true
  | _, _ => false

/-- Whether two references are the same, floats comparing as numbers. -/
def Reference.same (a b : Reference) : Bool :=
  a.entity = b.entity && a.selector.same b.selector

/-- Whether two subjects are the same, floats comparing as numbers. -/
def Subject.same : Subject → Subject → Bool
  | .self, .self => true
  | .reference a, .reference b => a.same b
  | _, _ => false

/-- Whether two projections are the same. -/
def Projection.same : Projection → Projection → Bool
  | .all, .all => true
  | .fields a, .fields b => a = b
  | _, _ => false

/-- Whether two lists of settings are the same one by one, floats comparing as numbers. -/
def Setting.sameList : List Setting → List Setting → Bool
  | [], [] => true
  | a :: as, b :: bs => a.field = b.field && a.value.same b.value && sameList as bs
  | _, _ => false

/-- Whether two optional conditions are the same, floats comparing as numbers. -/
def Condition.sameOption : Option Condition → Option Condition → Bool
  | none, none => true
  | some c, some d => c.same d
  | _, _ => false

/-- Whether two statements are the same, floats comparing as numbers. -/
def Statement.same : Statement → Statement → Bool
  | .get t p c, .get t' p' c' => t.same t' && p.same p' && Condition.sameOption c c'
  | .check s p r, .check s' p' r' => s.same s' && p = p' && r.same r'
  | .grant p r s, .grant p' r' s' => p = p' && r.same r' && s.same s'
  | .revoke p r s, .revoke p' r' s' => p = p' && r.same r' && s.same s'
  | .update t xs c, .update t' xs' c' =>
    t.same t' && Setting.sameList xs xs' && Condition.sameOption c c'
  | .delete t c, .delete t' c' => t.same t' && Condition.sameOption c c'
  | _, _ => false

end Warrant
