import Warrant.Bytes.Crc32
import Warrant.Bytes.Little
import Warrant.Schema.Basic

/-!
# Fingerprints of schemas

A plan names the schema it was resolved under by a check over every name, type and flag of the
schema, so that it is not run under another one.

## Main definitions

- `Schema.bytes` — the text that the check is taken of
- `Schema.fingerprint` — the check
-/

namespace Warrant

/-- A flag as a byte. -/
def Bytes.ofBool (b : Bool) : UInt8 :=
  if b then 1 else 0

/-- The bytes of a field: a letter, the name, the type and whether it is unique. -/
def Field.bytes (f : Field) : List UInt8 :=
  'F'.toUInt8 :: (Bytes.ofString f.name ++ [UInt8.ofNat f.type.index, Bytes.ofBool f.unique])

/-- The bytes of an owner field: a letter and the name. -/
def Entity.ownerBytes (e : Entity) : List UInt8 :=
  match e.effectiveOwnerField with
  | some owner => 'O'.toUInt8 :: Bytes.ofString owner
  | none => []

/-- The bytes of an entity: a letter, the name, the kind, the owner field and the fields. -/
def Entity.bytes (e : Entity) : List UInt8 :=
  'E'.toUInt8 :: (Bytes.ofString e.name ++ UInt8.ofNat e.kind.index ::
    (e.ownerBytes ++ e.fields.flatMap Field.bytes))

namespace Schema

/-- The bytes of a permission: a letter and the name. -/
def permissionBytes (permission : String) : List UInt8 :=
  'P'.toUInt8 :: Bytes.ofString permission

/-- The text that the check is taken of: entities and permissions as declared. -/
def bytes (s : Schema) : List UInt8 :=
  s.entities.flatMap Entity.bytes ++ s.permissions.flatMap permissionBytes ++
    [Bytes.ofBool s.allowCustomPermissions]

/-- **The fingerprint of a schema.** -/
def fingerprint (s : Schema) : UInt32 :=
  crc32 s.bytes

end Schema

end Warrant
