import Warrant.Number.Layout
import Warrant.Statement.Basic

/-!
# The canonical text of a statement

One line, one blank between words, parentheses around inner groups and nowhere else.

## Main definitions

- `Statement.write` — the text of a statement
- `Condition.writeTop`, `Condition.writeInner` — a condition on its own and inside a group
-/

namespace Warrant

/-- One character of a string literal. Quotes, backslashes, newlines and tabs are escaped. -/
def Literal.escape (c : Char) : List Char :=
  if c = '"' then ['\\', '"']
  else if c = '\\' then ['\\', '\\']
  else if c = '\n' then ['\\', 'n']
  else if c = '\t' then ['\\', 't']
  else [c]

/-- The text of a literal. A float keeps its point or exponent, which tells it from an integer. -/
def Literal.write : Literal → List Char
  | .string s => '"' :: (s.toList.flatMap Literal.escape ++ ['"'])
  | .integer i => (toString i.toInt).toList
  | .float x => (FloatLayout.plain.write x).toList
  | .boolean b => (if b then "true" else "false").toList
  | .self => "SELF".toList

/-- A field compared with a literal. -/
def Condition.writeComparison (field : String) (how : Comparison) (value : Literal) : List Char :=
  field.toList ++ ' ' :: (how.symbol.toList ++ ' ' :: value.write)

mutual

def Condition.writeTop : Condition → List Char
  | .compare field how value => Condition.writeComparison field how value
  | .every parts => Condition.writeParts " AND ".toList parts
  | .any parts => Condition.writeParts " OR ".toList parts

/-- The text of a condition inside a group: groups are put in parentheses. -/
def Condition.writeInner : Condition → List Char
  | .compare field how value => Condition.writeComparison field how value
  | .every parts => '(' :: (Condition.writeParts " AND ".toList parts ++ [')'])
  | .any parts => '(' :: (Condition.writeParts " OR ".toList parts ++ [')'])

/-- The texts of some conditions with a connective between them. -/
def Condition.writeParts (connective : List Char) : List Condition → List Char
  | [] => []
  | [c] => Condition.writeInner c
  | c :: rest => Condition.writeInner c ++ connective ++ Condition.writeParts connective rest

end

/-- The text of a selector, right after the entity. -/
def Selector.write : Selector → List Char
  | .all => []
  | .id name => '.' :: name.toList
  | .conditions c => '(' :: (c.writeTop ++ [')'])
  | .wildcard => ['.', '*']
  | .self => '.' :: "SELF".toList

def Reference.write (r : Reference) : List Char :=
  r.entity.toList ++ r.selector.write

def Subject.write : Subject → List Char
  | .self => "SELF".toList
  | .reference r => r.write

/-- Names with commas between them. -/
def Projection.writeNames : List String → List Char
  | [] => []
  | [name] => name.toList
  | name :: rest => name.toList ++ ',' :: ' ' :: writeNames rest

/-- The text of a projection, right after the reference. The one of all fields is not written. -/
def Projection.write : Projection → List Char
  | .all => []
  | .fields names => " : ".toList ++ Projection.writeNames names

def Setting.write (s : Setting) : List Char :=
  s.field.toList ++ " = ".toList ++ s.value.write

/-- Settings with commas between them. -/
def Setting.writeList : List Setting → List Char
  | [] => []
  | [s] => s.write
  | s :: rest => s.write ++ ',' :: ' ' :: writeList rest

/-- The text of a WHERE clause, if there is one. -/
def Condition.writeClause : Option Condition → List Char
  | none => []
  | some c => " WHERE ".toList ++ c.writeTop

namespace Statement

/-- The characters of a statement. -/
def writeChars : Statement → List Char
  | .get target projection condition =>
    "GET ".toList ++ target.write ++ projection.write ++ Condition.writeClause condition
  | .check subject permission resource =>
    "CHECK ".toList ++ subject.write ++ " CAN ".toList ++ permission.toList ++ " ON ".toList ++
      resource.write
  | .grant permission resource subject =>
    "GRANT ".toList ++ permission.toList ++ " ON ".toList ++ resource.write ++ " TO ".toList ++
      subject.write
  | .revoke permission resource subject =>
    "REVOKE ".toList ++ permission.toList ++ " ON ".toList ++ resource.write ++
      " FROM ".toList ++ subject.write
  | .update target settings condition =>
    "UPDATE ".toList ++ target.write ++ " SET ".toList ++ Setting.writeList settings ++
      Condition.writeClause condition
  | .delete target condition =>
    "DELETE ".toList ++ target.write ++ Condition.writeClause condition

/-- **The canonical text of a statement.** -/
def write (s : Statement) : String :=
  String.ofList s.writeChars

end Statement

end Warrant
