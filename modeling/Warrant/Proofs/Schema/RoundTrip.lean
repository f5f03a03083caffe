import Warrant.Proofs.Json.RoundTrip
import Warrant.Schema.Document
import Warrant.Schema.Fingerprint

/-!
# Schemas are read as they were written

A document names every part of a schema but an owner field that was not declared, and what is left
out is read as not declared. So the document of a schema describes the schema alone, whether it
keeps the rules or not.

## Main statements

- `Schema.readUnchecked?_toJson` — the document of a schema describes the schema
- `Schema.read_toJson` — a schema that keeps the rules is loaded from its document again
-/

namespace Warrant

/-! ## Lists -/

namespace Json

variable {α : Type} {encode : α → Json}

theorem list?_map {decode : Json → Option α} (h : ∀ a, decode (encode a) = some a) (as : List α) :
    list? decode (.array (as.map encode)) = some as :=
  mapM_map_eq_some h as

theorem arePlain_map (h : ∀ a, (encode a).isPlain) (as : List α) : arePlain (as.map encode) := by
  induction as with
  | nil => rfl
  | cons a as ih => exact Bool.and_eq_true_iff.mpr ⟨h a, ih⟩

end Json

/-! ## Fields -/

namespace Field

theorem isPlain_toJson (f : Field) : f.toJson.isPlain := rfl

theorem ofJson?_toJson (f : Field) : ofJson? f.toJson = some f := by
  have hrecord : f.toJson.record? ["name", "type", "unique"] false =
    some ⟨false, [("name", .string f.name), ("type", .string f.type.name),
      ("unique", .bool f.unique)]⟩ := rfl
  rw [ofJson?, hrecord]
  change (FieldType.ofName? f.type.name >>= fun type => some (Field.mk f.name type f.unique)) = _
  rw [FieldType.ofName?_name]
  rfl

end Field

/-! ## Entities -/

namespace Entity

variable (e : Entity)

theorem isPlain_toJson : e.toJson.isPlain := by
  have hfields : Json.arePlain (e.fields.map Field.toJson) :=
    Json.arePlain_map Field.isPlain_toJson e.fields
  obtain ⟨name, kind, fields, ownerField⟩ := e
  cases ownerField with
  | none => exact Bool.and_eq_true_iff.mpr ⟨hfields, rfl⟩
  | some owner => exact Bool.and_eq_true_iff.mpr ⟨hfields, rfl⟩

/-- An owner field that was not declared is not written, and none is read. -/
theorem ofJson?_toJson : ofJson? e.toJson = some e := by
  have hfields : Json.list? Field.ofJson? (.array (e.fields.map Field.toJson)) = some e.fields :=
    Json.list?_map Field.ofJson?_toJson e.fields
  obtain ⟨name, kind, fields, ownerField⟩ := e
  have hread : ofJson? (toJson ⟨name, kind, fields, ownerField⟩) =
      EntityKind.ofName? kind.name >>= fun kind =>
      Json.list? Field.ofJson? (.array (fields.map Field.toJson)) >>= fun fields =>
      some ⟨name, kind, fields, ownerField⟩ := by
    cases ownerField with
    | none => rfl
    | some owner => rfl
  rw [hread, EntityKind.ofName?_name, hfields]
  rfl

end Entity

/-! ## Schemas -/

namespace Schema

theorem isPlain_toJson (s : Schema) : s.toJson.isPlain := by
  have hentities : Json.arePlain (s.entities.map Entity.toJson) :=
    Json.arePlain_map Entity.isPlain_toJson s.entities
  have hpermissions : Json.arePlain (s.permissions.map .string) :=
    Json.arePlain_map (fun _ => rfl) s.permissions
  change (Json.arePlain (s.entities.map Entity.toJson) &&
    (Json.arePlain (s.permissions.map .string) && true)) = true
  rw [hentities, hpermissions]
  rfl

theorem ofJson?_toJson (s : Schema) : ofJson? s.toJson = some s := by
  have hstring (permission : String) : (Json.string permission).string? = some permission := rfl
  have hentities : Json.list? Entity.ofJson? (.array (s.entities.map Entity.toJson)) =
      some s.entities :=
    Json.list?_map Entity.ofJson?_toJson s.entities
  have hpermissions : Json.list? Json.string? (.array (s.permissions.map .string)) =
      some s.permissions :=
    Json.list?_map hstring s.permissions
  change (Json.list? Entity.ofJson? (.array (s.entities.map Entity.toJson)) >>= fun entities =>
    Json.list? Json.string? (.array (s.permissions.map .string)) >>= fun permissions =>
    some (Schema.mk entities permissions s.allowCustomPermissions)) = _
  rw [hentities, hpermissions]
  rfl

/-- **The document of a schema describes the schema**, whether it keeps the rules or not. -/
theorem readUnchecked?_toJson (s : Schema) : readUnchecked? s.toJson.write = some s := by
  rw [readUnchecked?, Json.read?_write s.isPlain_toJson]
  exact ofJson?_toJson s

/-- **A schema that keeps the rules is loaded from its document again**, with the fingerprint it
    had: plans that were resolved under the one run under the other. -/
theorem read_toJson {s : Schema} (h : s.validate = .ok ()) :
    ∃ reloaded, read s.toJson.write = .ok reloaded ∧ reloaded = s ∧
      reloaded.fingerprint = s.fingerprint := by
  refine ⟨s, ?_, rfl, rfl⟩
  simp only [read, readUnchecked?_toJson, h]

/-- A principal may declare any string as its owner field. It counts for nothing, and it is kept. -/
theorem read_toJson_unused_owner :
    let s : Schema := ⟨[⟨"User", .principal, [⟨"id", .string, true⟩], some "\"\\\n\x00é"⟩],
      ["admin"], true⟩
    s.validate = .ok () ∧ ∃ reloaded, read s.toJson.write = .ok reloaded ∧ reloaded = s ∧
      reloaded.fingerprint = s.fingerprint :=
  ⟨rfl, read_toJson rfl⟩

end Schema

end Warrant
