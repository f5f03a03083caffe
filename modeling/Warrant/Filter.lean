import Warrant.Row

/-!
# Filters

A filter selects rows by comparing fields with values.

## Main definitions

- `Comparison` — the two ways in which statements and filters compare a field with a value
- `Filter` — tests combined by conjunction and disjunction
- `Filter.selects` — whether a row satisfies a filter
- `Filter.and` — the conjunction of two filters, without nesting conjunctions
- `Filter.pinnedId?` — the identity that a filter asks for and nothing else
-/

namespace Warrant

/-- How a field is compared with a value. -/
inductive Comparison
  | equal
  | different
deriving DecidableEq

namespace Comparison

/-- The symbol of a comparison. -/
def symbol : Comparison → String
  | .equal => "="
  | .different => "!="

/-- Whether a comparison holds, given whether the two sides agree. -/
def holds : Comparison → Bool → Bool
  | .equal, agree => agree
  | .different, agree => !agree

end Comparison

/-- A test of rows. -/
inductive Filter
  /-- Every row. -/
  | all
  /-- The rows whose field compares with the value in this way. -/
  | compare (field : String) (how : Comparison) (value : Value)
  /-- The rows that satisfy every part. -/
  | every (parts : List Filter)
  /-- The rows that satisfy some part. -/
  | any (parts : List Filter)
deriving Inhabited

namespace Filter

/-- The row with the given identity. -/
def hasId (id : String) : Filter :=
  .compare Row.idField .equal (.string id)

mutual

/-- **Whether a row satisfies a filter.** A missing field reads as null. -/
def selects (row : Row) : Filter → Bool
  | .all => true
  | .compare field how value => how.holds ((row.value field).agrees value)
  | .every parts => everySelects row parts
  | .any parts => anySelects row parts

/-- Whether a row satisfies every one of some filters. -/
def everySelects (row : Row) : List Filter → Bool
  | [] => true
  | f :: rest => selects row f && everySelects row rest

/-- Whether a row satisfies one of some filters at least. -/
def anySelects (row : Row) : List Filter → Bool
  | [] => false
  | f :: rest => selects row f || anySelects row rest

end

/-- **The conjunction of two filters.** The filter of every row vanishes, and conjunctions are
    joined rather than nested. -/
def and : Filter → Filter → Filter
  | .all, g => g
  | f, .all => f
  | .every left, .every right => .every (left ++ right)
  | .every left, g => .every (left ++ [g])
  | f, .every right => .every (f :: right)
  | f, g => .every [f, g]

/-- The identity that the filter asks for, if it asks for nothing else. -/
def pinnedId? : Filter → Option String
  | .compare field .equal (.string id) => if field = Row.idField then some id else none
  | _ => none

mutual

/-- The text of a filter in messages. Groups are always put in parentheses. -/
def write : Filter → String
  | .all => "*"
  | .compare field how value => field ++ " " ++ how.symbol ++ " " ++ value.write
  | .every parts => "(" ++ String.intercalate " AND " (writeParts parts) ++ ")"
  | .any parts => "(" ++ String.intercalate " OR " (writeParts parts) ++ ")"

/-- The texts of some filters. -/
def writeParts : List Filter → List String
  | [] => []
  | f :: rest => write f :: writeParts rest

end

mutual

/-- Whether two filters have the same shape and the same values, floats comparing as numbers. -/
def same : Filter → Filter → Bool
  | .all, .all => true
  | .compare field how value, .compare field' how' value' =>
    field = field' && how = how' && value.same value'
  | .every parts, .every parts' => sameParts parts parts'
  | .any parts, .any parts' => sameParts parts parts'
  | _, _ => false

/-- Whether two lists of filters are the same one by one. -/
def sameParts : List Filter → List Filter → Bool
  | [], [] => true
  | f :: rest, f' :: rest' => same f f' && sameParts rest rest'
  | _, _ => false

end

end Filter

end Warrant
