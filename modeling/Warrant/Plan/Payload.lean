import Warrant.Bytes.Little
import Warrant.Plan.Basic

/-!
# Plans as bytes

The parts of a plan one after the other: numbers of fixed width, texts and lists with their
lengths, and alternatives by their number.

## Main definitions

- `Plan.payload` — the bytes of a plan
- `Plan.Payload.plan` — the reader of these bytes
-/

namespace Warrant

open Bytes (Reader)

/-- The bytes of a value. A timestamp is written as its text. -/
def Value.payload : Value → List UInt8
  | .null => Bytes.word 0
  | .boolean b => Bytes.word 1 ++ [if b then 1 else 0]
  | .integer i => Bytes.word 2 ++ Bytes.long i.toUInt64.toNat
  | .float x => Bytes.word 3 ++ Bytes.long x.bits.toNat
  | .string s => Bytes.word 4 ++ Bytes.string s
  | .timestamp t => Bytes.word 5 ++ Bytes.string (t.write .asNeeded)

/-- The number of a comparison. -/
def Comparison.index : Comparison → Nat
  | .equal => 0
  | .different => 1

mutual

/-- The bytes of a filter. -/
def Filter.payload : Filter → List UInt8
  | .all => Bytes.word 0
  | .compare field how value =>
    Bytes.word 1 ++ Bytes.string field ++ Bytes.word how.index ++ value.payload
  | .every parts => Bytes.word 2 ++ Bytes.long parts.length ++ Filter.payloads parts
  | .any parts => Bytes.word 3 ++ Bytes.long parts.length ++ Filter.payloads parts

/-- The bytes of some filters. -/
def Filter.payloads : List Filter → List UInt8
  | [] => []
  | f :: rest => Filter.payload f ++ Filter.payloads rest

end

/-- The bytes of a target. -/
def Target.payload (t : Target) : List UInt8 :=
  Bytes.string t.entity ++ t.filter.payload

/-- The bytes of an access. -/
def Access.payload (a : Access) : List UInt8 :=
  a.subject.payload ++ Bytes.string a.permission ++ a.resource.payload ++ Bytes.string a.ownerField

/-- The bytes of an assignment. -/
def Assignment.payload (a : Assignment) : List UInt8 :=
  Bytes.string a.field ++ a.value.payload ++ Bytes.word a.fieldType.index

/-- The bytes of an operation. -/
def Operation.payload : Operation → List UInt8
  | .get target projection => Bytes.word 0 ++ target.payload ++ Bytes.list Bytes.string projection
  | .check access => Bytes.word 1 ++ access.payload
  | .grant access => Bytes.word 2 ++ access.payload
  | .revoke access => Bytes.word 3 ++ access.payload
  | .update target assignments ownerField =>
    Bytes.word 4 ++ target.payload ++ Bytes.list Assignment.payload assignments ++
      Bytes.option Bytes.string ownerField
  | .delete target kind ownerField =>
    Bytes.word 5 ++ target.payload ++ Bytes.word kind.index ++
      Bytes.option Bytes.string ownerField

/-- **The bytes of a plan.** -/
def Plan.payload (p : Plan) : List UInt8 :=
  Bytes.word p.schemaVersion.toNat ++ Bytes.string p.principal.entity ++
    Bytes.string p.principal.id ++ p.operation.payload

namespace Plan.Payload

/-- One of some alternatives, by its number. -/
def choice {α : Type} (alternatives : List α) : Reader α := do
  match alternatives[← Reader.word]? with
  | some a => return a
  | none => failure

/-- A timestamp, in any of the relaxed forms. -/
def timestamp : Reader Instant := do
  match Instant.readRelaxed? (← Reader.string) with
  | some t => return t
  | none => failure

/-- A value. -/
def value : Reader Value := do
  match ← Reader.word with
  | 0 => return .null
  | 1 => return .boolean (← Reader.bool)
  | 2 => return .integer (UInt64.ofNat (← Reader.long)).toInt64
  | 3 => return .float ⟨UInt64.ofNat (← Reader.long)⟩
  | 4 => return .string (← Reader.string)
  | 5 => return .timestamp (← timestamp)
  | _ => failure

/-- A filter nested less than `bound` levels. -/
def filter : Nat → Reader Filter
  | 0 => failure
  | bound + 1 => do
    match ← Reader.word with
    | 0 => return .all
    | 1 => do
      let field ← Reader.string
      let how ← choice [Comparison.equal, Comparison.different]
      return .compare field how (← value)
    | 2 => return .every (← Reader.list (filter bound))
    | 3 => return .any (← Reader.list (filter bound))
    | _ => failure

/-- A target. A filter takes more bytes than it has levels. -/
def target : Reader Target := do
  let entity ← Reader.string
  return ⟨entity, ← filter ((← get).length + 1)⟩

/-- An access. -/
def access : Reader Access := do
  let subject ← target
  let permission ← Reader.string
  let resource ← target
  return ⟨subject, permission, resource, ← Reader.string⟩

/-- An assignment. -/
def assignment : Reader Assignment := do
  let field ← Reader.string
  let value ← value
  return ⟨field, value, ← choice FieldType.all⟩

/-- An operation. -/
def operation : Reader Operation := do
  match ← Reader.word with
  | 0 => do
    let target ← target
    return .get target (← Reader.list Reader.string)
  | 1 => return .check (← access)
  | 2 => return .grant (← access)
  | 3 => return .revoke (← access)
  | 4 => do
    let target ← target
    let assignments ← Reader.list assignment
    return .update target assignments (← Reader.option Reader.string)
  | 5 => do
    let target ← target
    let kind ← choice [EntityKind.principal, EntityKind.resource]
    return .delete target kind (← Reader.option Reader.string)
  | _ => failure

/-- **A plan.** -/
def plan : Reader Plan := do
  let version ← Reader.word
  let entity ← Reader.string
  let id ← Reader.string
  return ⟨UInt32.ofNat version, ⟨entity, id⟩, ← operation⟩

end Plan.Payload

end Warrant
