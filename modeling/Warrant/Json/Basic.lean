import Warrant.Number.Binary64
import Warrant.SortedMap.Basic

/-!
# JSON values

## Main definitions

- `Json` — a JSON value; integers keep all their digits, other numbers are 64-bit floats
- `Json.ofMembers` — the object with the given members, in the order of their names
- `Json.normalize?` — a value read from a document, with its objects in order
-/

namespace Warrant

/-- A JSON value. -/
inductive Json
  | null
  | bool (b : Bool)
  | int (i : Int)
  | float (x : Binary64)
  | string (s : String)
  | array (items : List Json)
  | object (members : List (String × Json))
  /-- What is well formed and yet names no value: a number beyond the range of floats, a string
      with half of a surrogate pair, or an object with such a name. A document may hold it where
      nobody reads it. -/
  | senseless
deriving Inhabited

namespace Json

/-- The object with the given members, in the order of their names. Of two members of one name the
    later counts. -/
def ofMembers (members : List (String × Json)) : Json :=
  .object (SortedMap.ofList members).toList

/-- The string if there is one, and `null` otherwise. -/
def optionalString : Option String → Json
  | some s => .string s
  | none => .null

mutual

/-- A value as read from a document, with every objects members in the order of their names.
    There is none if some part is senseless or lies under `depth` or more levels. -/
def normalize? (depth : Nat) : Json → Option Json
  | .array items =>
    if depth ≤ 1 then none else return .array (← normalizeItems? (depth - 1) items)
  | .object members =>
    if depth ≤ 1 then none else return .ofMembers (← normalizeMembers? (depth - 1) members)
  | .senseless => none
  | j => some j

/-- The items of an array, each as `normalize?` gives it. -/
def normalizeItems? (depth : Nat) : List Json → Option (List Json)
  | [] => some []
  | j :: rest => return (← normalize? depth j) :: (← normalizeItems? depth rest)

/-- The members of an object, each as `normalize?` gives it. -/
def normalizeMembers? (depth : Nat) : List (String × Json) → Option (List (String × Json))
  | [] => some []
  | (name, j) :: rest => return (name, ← normalize? depth j) :: (← normalizeMembers? depth rest)

end

end Json

end Warrant
