import Warrant.Json.Basic

/-!
# Records in JSON documents

A record with known fields is written as an object, or as an array of its fields in order. This
module picks the fields apart; what each of them means is up to the record.

## Main definitions

- `Json.Record` — the fields that a document gives
- `Json.record?` — the fields of a value
- `Json.Record.required?`, `Json.Record.optional?`, `Json.Record.withDefault?` — one field
-/

namespace Warrant.Json

/-- The fields that a document gives for a record. -/
structure Record where
  /-- Whether the fields were given by position. -/
  positional : Bool
  fields : List (String × Json)

/-- Whether some name among `names` belongs to two members. -/
def repeats (names : List String) (members : List (String × Json)) : Bool :=
  names.any fun name => 1 < members.countP (·.1 == name)

/-- The fields of a record with the given field names. An object may not repeat a field; other
    members are dropped, or refused if the record is closed. An array gives the fields in order
    and may end early. -/
def record? (names : List String) (closed : Bool) : Json → Option Record
  | .object members =>
    if repeats names members then none
    else if closed && members.any fun m => !names.contains m.1 then none
    else some ⟨false, members⟩
  | .array items => if names.length < items.length then none else some ⟨true, names.zip items⟩
  | _ => none

namespace Record

/-- The value given for a field. -/
def get? (r : Record) (name : String) : Option Json :=
  (r.fields.find? (·.1 == name)).map Prod.snd

/-- A field that must be given. -/
def required? {α : Type} (r : Record) (name : String) (decode : Json → Option α) : Option α :=
  r.get? name >>= decode

/-- A field that has a value when it is not given. -/
def withDefault? {α : Type} (r : Record) (name : String) (decode : Json → Option α)
    (default : α) : Option α :=
  match r.get? name with
  | some j => decode j
  | none => some default

/-- A field that may be `null`. An object may also leave it out; an array may not. -/
def optional? {α : Type} (r : Record) (name : String) (decode : Json → Option α) :
    Option (Option α) :=
  match r.get? name with
  | some .null => some none
  | some j => (decode j).map some
  | none => if r.positional then none else some none

/-- A field that may be `null` or left out. -/
def omissible? {α : Type} (r : Record) (name : String) (decode : Json → Option α) :
    Option (Option α) :=
  match r.get? name with
  | some .null => some none
  | some j => (decode j).map some
  | none => some none

end Record

/-- A string. -/
def string? : Json → Option String
  | .string s => some s
  | _ => none

/-- A truth value. -/
def bool? : Json → Option Bool
  | .bool b => some b
  | _ => none

/-- An array whose items can all be decoded. -/
def list? {α : Type} (decode : Json → Option α) : Json → Option (List α)
  | .array items => items.mapM decode
  | _ => none

/-- A choice and its content: a word alone, or an object with one member. -/
def choice? : Json → Option (String × Option Json)
  | .string s => some (s, none)
  | .object [(name, j)] => some (name, some j)
  | _ => none

/-- A choice without content, which may also be written with the content `null`. -/
def word? (j : Json) : Option String := do
  match ← choice? j with
  | (name, none) => some name
  | (name, some .null) => some name
  | _ => none

end Warrant.Json
