import Mathlib.Data.List.Nodup
import Warrant.Proofs.Results
import Warrant.Row
import Warrant.Schema.Basic

/-!
# Declared names

A schema that keeps the rules declares no entity twice and no field of an entity twice, so whatever
the search for a name finds is the only thing of that name. Every entity has a field of strings for
the identity.

## Main definitions

- `AreNew` — names that are different from each other and from names seen before
- `Entity.IsSound`, `Schema.IsSound` — what the rules say about the names of a schema

## Main statements

- `Schema.isSound_of_validate` — a schema that keeps the rules is sound
- `Schema.IsSound.entity?_eq_some_iff`, `Entity.IsSound.field?_eq_some_iff` — what is found is what
  is declared
-/

namespace Warrant

theorem find?_eq_some_iff_of_nodup {α : Type} {key : α → String} {l : List α}
    (h : (l.map key).Nodup) {k : String} {a : α} :
    l.find? (key · == k) = some a ↔ a ∈ l ∧ key a = k := by
  constructor
  · intro hfind
    exact ⟨List.mem_of_find?_eq_some hfind, by simpa using List.find?_some hfind⟩
  · rintro ⟨hmem, rfl⟩
    obtain ⟨b, hb⟩ : ∃ b, l.find? (key · == key a) = some b := by
      rw [← Option.isSome_iff_exists, List.find?_isSome]
      exact ⟨a, hmem, beq_self_eq_true _⟩
    have hkey : key b = key a := by simpa using List.find?_some hb
    rw [hb, List.inj_on_of_nodup_map h (List.mem_of_find?_eq_some hb) hmem hkey]

/-- Names that are different from each other and from names seen before. -/
def AreNew (seen names : List String) : Prop :=
  names.Nodup ∧ ∀ name ∈ names, name ∉ seen

theorem areNew_nil_iff {names : List String} : AreNew [] names ↔ names.Nodup := by
  simp [AreNew]

theorem areNew_cons_iff {seen names : List String} {name : String} :
    AreNew seen (name :: names) ↔ name ∉ seen ∧ AreNew (name :: seen) names := by
  constructor
  · rintro ⟨hnodup, hseen⟩
    obtain ⟨hfirst, hrest⟩ := List.nodup_cons.1 hnodup
    refine ⟨hseen name List.mem_cons_self, hrest, ?_⟩
    intro name' hmem
    rw [List.mem_cons, not_or]
    exact ⟨fun heq => hfirst (heq ▸ hmem), hseen name' (List.mem_cons_of_mem _ hmem)⟩
  · rintro ⟨hfirst, hrest, hseen⟩
    refine ⟨List.nodup_cons.2 ⟨?_, hrest⟩, List.forall_mem_cons.2 ⟨hfirst, ?_⟩⟩
    · intro hmem
      exact hseen name hmem List.mem_cons_self
    · intro name' hmem hbefore
      exact hseen name' hmem (List.mem_cons_of_mem _ hbefore)

/-- What the rules say about the names of an entity. -/
structure Entity.IsSound (e : Entity) : Prop where
  nodup : e.fieldNames.Nodup
  id : ∃ f ∈ e.fields, f.name = Row.idField ∧ f.type = .string

/-- What the rules say about the names of a schema. -/
structure Schema.IsSound (s : Schema) : Prop where
  nodup : (s.entities.map (·.name)).Nodup
  entities : ∀ e ∈ s.entities, e.IsSound

theorem Schema.IsSound.entity?_eq_some_iff {s : Schema} (h : s.IsSound) {name : String}
    {e : Entity} : s.entity? name = some e ↔ e ∈ s.entities ∧ e.name = name :=
  find?_eq_some_iff_of_nodup h.nodup

namespace Entity.IsSound

variable {e : Entity} {name : String}

theorem field?_eq_some_iff (h : e.IsSound) {f : Field} :
    e.field? name = some f ↔ f ∈ e.fields ∧ f.name = name :=
  find?_eq_some_iff_of_nodup h.nodup

/-- A field of a name has one type. -/
theorem eq_of_name_eq (h : e.IsSound) {f f' : Field} (hf : f ∈ e.fields) (hf' : f' ∈ e.fields)
    (hname : f.name = f'.name) : f = f' :=
  List.inj_on_of_nodup_map h.nodup hf hf' hname

theorem isUnique_iff (h : e.IsSound) :
    e.isUnique name = true ↔
      name = Row.idField ∨ ∃ f ∈ e.fields, f.name = name ∧ f.unique = true := by
  rw [isUnique, Bool.or_eq_true, beq_iff_eq, Option.any_eq_true]
  apply or_congr Iff.rfl
  constructor
  · rintro ⟨f, hf, hunique⟩
    obtain ⟨hmem, hname⟩ := h.field?_eq_some_iff.1 hf
    exact ⟨f, hmem, hname, hunique⟩
  · rintro ⟨f, hmem, hname, hunique⟩
    exact ⟨f, h.field?_eq_some_iff.2 ⟨hmem, hname⟩, hunique⟩

end Entity.IsSound

/-! ## The rules -/

namespace Schema

theorem areNew_of_checkFields {entity : String} {seen : List String} {fields : List Field}
    (h : checkFields entity seen fields = .ok ()) : AreNew seen (fields.map (·.name)) := by
  induction fields generalizing seen with
  | nil => exact ⟨.nil, nofun⟩
  | cons f rest ih =>
    obtain ⟨_, -, h⟩ := bind_eq_ok_iff.1 h
    obtain ⟨hnew, h⟩ := ite_error_eq_ok_iff.1 h
    rw [List.contains_iff_mem] at hnew
    exact areNew_cons_iff.2 ⟨hnew, ih h⟩

theorem exists_field_of_requireString {e : Entity} {name : String}
    (h : requireString e name = .ok ()) : ∃ f ∈ e.fields, f.name = name ∧ f.type = .string := by
  rw [requireString] at h
  cases hf : e.field? name with
  | none =>
    rw [hf] at h
    exact nomatch h
  | some f =>
    rw [hf] at h
    have hname : f.name = name := by simpa using List.find?_some hf
    by_cases htype : f.type = .string
    · exact ⟨f, List.mem_of_find?_eq_some hf, hname, htype⟩
    · simp only [if_neg htype] at h
      exact nomatch h

theorem isSound_of_checkEntities {seen : List String} {entities : List Entity}
    (h : checkEntities seen entities = .ok ()) :
    AreNew seen (entities.map (·.name)) ∧ ∀ e ∈ entities, e.IsSound := by
  induction entities generalizing seen with
  | nil => exact ⟨⟨.nil, nofun⟩, nofun⟩
  | cons e rest ih =>
    obtain ⟨_, -, h⟩ := bind_eq_ok_iff.1 h
    obtain ⟨hnew, h⟩ := ite_error_eq_ok_iff.1 h
    rw [List.contains_iff_mem] at hnew
    obtain ⟨_, hfields, h⟩ := bind_eq_ok_iff.1 h
    obtain ⟨_, hid, h⟩ := bind_eq_ok_iff.1 h
    have hrest : checkEntities (e.name :: seen) rest = .ok () := by
      cases howner : e.effectiveOwnerField with
      | none =>
        rw [howner] at h
        exact h
      | some owner =>
        rw [howner] at h
        obtain ⟨_, -, h⟩ := bind_eq_ok_iff.1 h
        exact h
    obtain ⟨hnames, hsound⟩ := ih hrest
    have he : e.IsSound :=
      ⟨areNew_nil_iff.1 (areNew_of_checkFields hfields), exists_field_of_requireString hid⟩
    exact ⟨areNew_cons_iff.2 ⟨hnew, hnames⟩, List.forall_mem_cons.2 ⟨he, hsound⟩⟩

/-- **A schema that keeps the rules is sound.** -/
theorem isSound_of_validate {s : Schema} (h : s.validate = .ok ()) : s.IsSound := by
  obtain ⟨_, hentities, -⟩ := bind_eq_ok_iff.1 h
  obtain ⟨hnames, hsound⟩ := isSound_of_checkEntities hentities
  exact ⟨areNew_nil_iff.1 hnames, hsound⟩

end Schema

end Warrant
