import Warrant.SortedMap.Lemmas
import Warrant.Value

/-!
# Rows

A stored row has an identity and fields. The identity is repeated in the field `id`, so that
filters can address it like any other field; a row built from its identity repeats it there.

## Main definitions

- `Row` — an identity and named values
- `Row.new`, `Row.set` — the rows that the program builds
- `Row.value` — the value of a field, null if the row lacks it
-/

namespace Warrant

/-- A stored row. A row read from a foreign document may lack the copy of its identity, or have
    a false one. -/
structure Row where
  id : String
  fields : SortedMap String Value
deriving DecidableEq

namespace Row

def idField : String := "id"

/-- A row with an identity and no other field. -/
def new (id : String) : Row :=
  ⟨id, SortedMap.empty.insert idField (.string id)⟩

/-- The value of a field, if the row has it. -/
def get? (row : Row) (name : String) : Option Value :=
  row.fields.get? name

/-- The value of a field. A missing field reads as null. -/
def value (row : Row) (name : String) : Value :=
  (row.get? name).getD .null

/-- Writes a field. The identity cannot be written. -/
def set (row : Row) (name : String) (v : Value) : Row :=
  if name = idField then row else { row with fields := row.fields.insert name v }

/-- Writes fields one after the other. -/
def setAll (row : Row) (values : List (String × Value)) : Row :=
  values.foldl (fun r b => r.set b.1 b.2) row

/-- A row with an identity and fields written in order. -/
def ofFields (id : String) (values : List (String × Value)) : Row :=
  (new id).setAll values

/-- Writing a field changes no other field, and never the copy of the identity. -/
theorem get?_set (row : Row) (name : String) (v : Value) (name' : String) :
    (row.set name v).get? name' =
      if name = name' ∧ name ≠ idField then some v else row.get? name' := by
  by_cases h : name = idField
  · simp [set, h]
  · by_cases h' : name = name'
    · subst h'
      simp [set, h, get?]
    · simp [set, h, h', get?, SortedMap.get?_insert, Ne.symm h']

@[simp]
theorem id_set (row : Row) (name : String) (v : Value) : (row.set name v).id = row.id := by
  unfold set
  split <;> rfl

@[simp]
theorem id_setAll (row : Row) (values : List (String × Value)) :
    (row.setAll values).id = row.id := by
  induction values generalizing row with
  | nil => rfl
  | cons b rest ih => exact (ih (row.set b.1 b.2)).trans (id_set row b.1 b.2)

/-- The copy of the identity cannot be written. -/
@[simp]
theorem get?_idField_setAll (row : Row) (values : List (String × Value)) :
    (row.setAll values).get? idField = row.get? idField := by
  induction values generalizing row with
  | nil => rfl
  | cons b rest ih =>
    refine (ih (row.set b.1 b.2)).trans ?_
    rw [get?_set, if_neg fun h => h.2 h.1]

/-- A row built from its identity repeats it there. -/
@[simp]
theorem get?_idField_ofFields (id : String) (values : List (String × Value)) :
    (ofFields id values).get? idField = some (.string id) := by
  rw [ofFields, get?_idField_setAll]
  exact SortedMap.get?_insert_self _ _ _

@[simp]
theorem id_ofFields (id : String) (values : List (String × Value)) :
    (ofFields id values).id = id :=
  id_setAll (new id) values

end Row

end Warrant
