import Warrant.Proofs.Bytes.Burst
import Warrant.Proofs.Bytes.Utf8
import Warrant.Proofs.Schema.Declared
import Warrant.Proofs.Token.Spelling
import Warrant.Service.Basic

/-!
# What the fingerprint tells apart

The text that the check is taken of has letters between names, and these letters may stand in names
too. Where two names follow each other with a letter between them, the text does not say where the
first one ends. This happens twice: an owner field is followed by the first field, and a permission
by the next one. Everything else can be read off the text.

## Main definitions

- `Schema.Alike` — two schemas agree but for these boundaries
- `Schema.IsUnambiguous` — no owner field and no permission has the letter that follows it
- `Schema.content` — what of a schema is in force

## Main statements

- `Schema.bytes_eq_iff` — schemas have the same text exactly when they are alike
- `Service.run_of_other_schema` — unambiguous schemas with other content are kept apart
-/

namespace Warrant

/-! ## Names -/

/-- A byte that names are made of. The bytes of kinds, types and flags are none. -/
def Bytes.isNameByte (b : UInt8) : Bool :=
  0x30 ≤ b

theorem Bytes.isNameByte_of_isName {s : String} (h : Schema.isName s = true) :
    ∀ b ∈ Bytes.ofString s, isNameByte b = true := by
  intro b hb
  rw [Bytes.ofString_eq_flatMap, List.mem_flatMap] at hb
  obtain ⟨c, hc, hb⟩ := hb
  have hbounds := Lexeme.continuesName_bounds ((Lexeme.isWord_of_isName h).1.continues c hc)
  have hval : c.toNat = c.val.toNat := rfl
  have hsize : c.utf8Size = 1 := Char.utf8Size_eq_one_iff.2 (by
    rw [UInt32.le_iff_toNat_le]
    change c.val.toNat ≤ 127
    omega)
  rw [String.utf8EncodeChar_eq_singleton hsize, List.mem_singleton] at hb
  subst hb
  refine decide_eq_true ?_
  rw [UInt8.le_iff_toNat_le, UInt32.toNat_toUInt8]
  change 0x30 ≤ c.val.toNat % 256
  omega

/-- A list ends before the first entry that it has none of. -/
theorem append_cons_inj_of_all {α : Type} (p : α → Bool) {xs ys rest later : List α} {a b : α}
    (hxs : ∀ x ∈ xs, p x = true) (hys : ∀ y ∈ ys, p y = true) (ha : p a = false)
    (hb : p b = false) (h : xs ++ a :: rest = ys ++ b :: later) :
    xs = ys ∧ a = b ∧ rest = later := by
  have htake : ∀ (zs : List α) (c : α) (tail : List α), (∀ z ∈ zs, p z = true) → p c = false →
      (zs ++ c :: tail).takeWhile p = zs := by
    intro zs c tail hzs hc
    rw [List.takeWhile_append_of_pos hzs, List.takeWhile_cons_of_neg (by simp [hc]),
      List.append_nil]
  have heq : xs = ys := by rw [← htake xs a rest hxs ha, h, htake ys b later hys hb]
  subst heq
  obtain ⟨hab, htail⟩ := List.cons.inj (List.append_cancel_left h)
  exact ⟨rfl, hab, htail⟩

/-- A list ends before the first entry that is known not to be in it. -/
theorem append_cons_inj_of_not_mem {α : Type} [DecidableEq α] {xs ys rest later : List α} {a : α}
    (hxs : a ∉ xs) (hys : a ∉ ys) (h : xs ++ a :: rest = ys ++ a :: later) :
    xs = ys ∧ rest = later := by
  have hne : ∀ {zs : List α}, a ∉ zs → ∀ z ∈ zs, decide (z ≠ a) = true :=
    fun ha z hz => decide_eq_true (ne_of_mem_of_not_mem hz ha)
  have ha : decide (a ≠ a) = false := decide_eq_false (not_not_intro rfl)
  obtain ⟨heq, -, htail⟩ := append_cons_inj_of_all (· ≠ a) (hne hxs) (hne hys) ha ha h
  exact ⟨heq, htail⟩

/-- Names end before the first byte that none is made of. -/
theorem Bytes.name_append_inj {xs ys rest later : List UInt8} {a b : UInt8}
    (hxs : ∀ x ∈ xs, isNameByte x = true) (hys : ∀ y ∈ ys, isNameByte y = true)
    (ha : isNameByte a = false) (hb : isNameByte b = false)
    (h : xs ++ a :: rest = ys ++ b :: later) : xs = ys ∧ a = b ∧ rest = later :=
  append_cons_inj_of_all isNameByte hxs hys ha hb h

/-- What the rules of schemas say about the names of an entity. -/
structure Entity.IsNamed (e : Entity) : Prop where
  name : Schema.isName e.name = true
  fields : ∀ f ∈ e.fields, Schema.isName f.name = true
  owner : ∀ o ∈ e.effectiveOwnerField, Schema.isName o = true
  ne_nil : e.fields ≠ []

namespace Schema

theorem isName_of_checkName {name : String} (h : checkName name = .ok ()) :
    isName name = true := by
  unfold checkName at h
  split at h
  · assumption
  · exact nomatch h

theorem isName_of_checkFields {entity : String} {seen : List String} {fields : List Field}
    (h : checkFields entity seen fields = .ok ()) : ∀ f ∈ fields, isName f.name = true := by
  induction fields generalizing seen with
  | nil => nofun
  | cons f rest ih =>
    rw [checkFields, bind_eq_ok_iff] at h
    obtain ⟨u, hname, h⟩ := h
    dsimp only at h
    split at h
    · exact nomatch h
    · exact List.forall_mem_cons.2 ⟨isName_of_checkName hname, ih h⟩

theorem isNamed_of_checkEntities {seen : List String} {entities : List Entity}
    (h : checkEntities seen entities = .ok ()) : ∀ e ∈ entities, e.IsNamed := by
  induction entities generalizing seen with
  | nil => nofun
  | cons e rest ih =>
    rw [checkEntities, bind_eq_ok_iff] at h
    obtain ⟨u, hname, h⟩ := h
    dsimp only at h
    split at h
    · exact nomatch h
    · rw [bind_eq_ok_iff] at h
      obtain ⟨v, hfields, h⟩ := h
      rw [bind_eq_ok_iff] at h
      obtain ⟨w, hid, h⟩ := h
      -- What is required is a field of the entity, and the names of these have been checked.
      have hnamed : ∀ {name}, requireString e name = .ok () → isName name = true := by
        intro name hname
        obtain ⟨f, hf, rfl, -⟩ := exists_field_of_requireString hname
        exact isName_of_checkFields hfields f hf
      obtain ⟨f, hf, -⟩ := exists_field_of_requireString hid
      have hne := List.ne_nil_of_mem hf
      have hrest : (∀ o ∈ e.effectiveOwnerField, isName o = true) ∧
          checkEntities (e.name :: seen) rest = .ok () := by
        split at h
        · next owner howner =>
          rw [bind_eq_ok_iff] at h
          obtain ⟨x, hrequired, hrest⟩ := h
          refine ⟨fun o ho => ?_, hrest⟩
          rw [howner] at ho
          cases ho
          exact hnamed hrequired
        · next howner =>
          refine ⟨fun o ho => ?_, h⟩
          rw [howner] at ho
          exact nomatch ho
      have he : e.IsNamed :=
        ⟨isName_of_checkName hname, isName_of_checkFields hfields, hrest.1, hne⟩
      exact List.forall_mem_cons.2 ⟨he, ih hrest.2⟩

theorem isName_of_forM {names : List String} (h : names.forM checkName = .ok ()) :
    ∀ s ∈ names, isName s = true :=
  fun s hs => isName_of_checkName (forM_eq_ok_iff.1 h s hs)

theorem isNamed_of_validate {s : Schema} (h : s.validate = .ok ()) :
    (∀ e ∈ s.entities, e.IsNamed) ∧ (∀ p ∈ s.permissions, isName p = true) ∧
      s.permissions ≠ [] := by
  unfold validate at h
  rw [bind_eq_ok_iff] at h
  obtain ⟨u, hentities, h⟩ := h
  rw [bind_eq_ok_iff] at h
  obtain ⟨v, -, h⟩ := h
  rw [bind_eq_ok_iff] at h
  obtain ⟨w, hpermissions, h⟩ := h
  refine ⟨isNamed_of_checkEntities hentities, isName_of_forM hpermissions, fun hnil => ?_⟩
  rw [hnil] at h
  exact nomatch h

end Schema

/-! ## What the text says -/

namespace Entity

/-- The owner field, if there is one, and the first field, with the letter between them. -/
def lead (e : Entity) : String :=
  e.effectiveOwnerField.elim "" (· ++ "F") ++ e.fields.head?.elim "" (·.name)

/-- **Two entities agree** but for where the owner field ends. -/
structure Alike (e e' : Entity) : Prop where
  name : e.name = e'.name
  kind : e.kind = e'.kind
  lead : e.lead = e'.lead
  first : e.fields.head?.map (fun f => (f.type, f.unique)) =
    e'.fields.head?.map (fun f => (f.type, f.unique))
  others : e.fields.tail = e'.fields.tail

/-- The letter after the kind of an entity. -/
def leadTag : EntityKind → UInt8
  | .principal => 'F'.toUInt8
  | .resource => 'O'.toUInt8

theorem bytes_eq {e : Entity} {f : Field} {fs : List Field} (h : e.fields = f :: fs) :
    e.bytes = 'E'.toUInt8 :: (Bytes.ofString e.name ++ UInt8.ofNat e.kind.index ::
      leadTag e.kind :: (Bytes.ofString e.lead ++ UInt8.ofNat f.type.index ::
        Bytes.ofBool f.unique :: fs.flatMap Field.bytes)) := by
  have hF : Bytes.ofString "F" = ['F'.toUInt8] := rfl
  unfold bytes lead ownerBytes
  rw [h]
  cases hkind : e.kind with
  | principal =>
    have howner : e.effectiveOwnerField = none := by rw [effectiveOwnerField, hkind]
    simp [howner, leadTag, Field.bytes]
  | resource =>
    obtain ⟨o, howner⟩ : ∃ o, e.effectiveOwnerField = some o :=
      ⟨_, by rw [effectiveOwnerField, hkind]⟩
    simp [howner, leadTag, Field.bytes, Bytes.ofString_append, hF]

theorem IsNamed.isNameByte_lead {e : Entity} (h : e.IsNamed) :
    ∀ b ∈ Bytes.ofString e.lead, Bytes.isNameByte b = true := by
  have hF : Bytes.ofString "F" = ['F'.toUInt8] := rfl
  have hempty : Bytes.ofString "" = [] := rfl
  obtain ⟨f, fs, hfields⟩ := List.exists_cons_of_ne_nil h.ne_nil
  have hfirst := Bytes.isNameByte_of_isName (h.fields f (hfields ▸ List.mem_cons_self))
  intro b hb
  unfold lead at hb
  rw [hfields, Bytes.ofString_append, List.mem_append] at hb
  rcases hb with hb | hb
  · cases howner : e.effectiveOwnerField with
    | none => simp [howner, hempty] at hb
    | some o =>
      have ho := Bytes.isNameByte_of_isName (h.owner o howner)
      rw [howner, Option.elim_some, Bytes.ofString_append, hF, List.mem_append,
        List.mem_singleton] at hb
      rcases hb with hb | rfl
      · exact ho b hb
      · rfl
  · exact hfirst b hb

end Entity

/-- The numbers of types and kinds, and flags, stand in no name. -/
theorem FieldType.isNameByte_index (t : FieldType) :
    Bytes.isNameByte (UInt8.ofNat t.index) = false := by
  cases t <;> rfl

theorem EntityKind.isNameByte_index (k : EntityKind) :
    Bytes.isNameByte (UInt8.ofNat k.index) = false := by
  cases k <;> rfl

theorem FieldType.ofNat_index_inj {t t' : FieldType}
    (h : UInt8.ofNat t.index = UInt8.ofNat t'.index) : t = t' := by
  cases t <;> cases t' <;> first | rfl | exact absurd h (by decide)

theorem EntityKind.ofNat_index_inj {k k' : EntityKind}
    (h : UInt8.ofNat k.index = UInt8.ofNat k'.index) : k = k' := by
  cases k <;> cases k' <;> first | rfl | exact absurd h (by decide)

theorem Bytes.ofBool_inj {b b' : Bool} (h : Bytes.ofBool b = Bytes.ofBool b') : b = b' := by
  cases b <;> cases b' <;> first | rfl | exact absurd h (by decide)

/-! ## Reading the text -/

section

variable {rest later : List UInt8}

theorem Field.bytes_append_inj {f f' : Field} (hf : Schema.isName f.name = true)
    (hf' : Schema.isName f'.name = true) (h : f.bytes ++ rest = f'.bytes ++ later) :
    f = f' ∧ rest = later := by
  obtain ⟨name, type, unique⟩ := f
  obtain ⟨name', type', unique'⟩ := f'
  simp only [Field.bytes, List.cons_append, List.append_assoc, List.nil_append, List.cons.injEq,
    true_and] at h
  obtain ⟨hname, htype, h⟩ := Bytes.name_append_inj (Bytes.isNameByte_of_isName hf)
    (Bytes.isNameByte_of_isName hf') type.isNameByte_index type'.isNameByte_index h
  obtain ⟨hunique, htail⟩ := List.cons.inj h
  obtain rfl := Bytes.ofString_injective hname
  obtain rfl := FieldType.ofNat_index_inj htype
  obtain rfl := Bytes.ofBool_inj hunique
  exact ⟨rfl, htail⟩

/-- Fields end before the first letter that is not theirs. -/
theorem Field.flatMap_bytes_append_inj {fs fs' : List Field}
    (hfs : ∀ f ∈ fs, Schema.isName f.name = true) (hfs' : ∀ f ∈ fs', Schema.isName f.name = true)
    (hrest : rest.head? ≠ some 'F'.toUInt8) (hlater : later.head? ≠ some 'F'.toUInt8)
    (h : fs.flatMap Field.bytes ++ rest = fs'.flatMap Field.bytes ++ later) :
    fs = fs' ∧ rest = later := by
  induction fs generalizing fs' with
  | nil =>
    cases fs' with
    | nil => exact ⟨rfl, h⟩
    | cons f' fs' => exact absurd (congrArg List.head? h) hrest
  | cons f fs ih =>
    cases fs' with
    | nil => exact absurd (congrArg List.head? h.symm) hlater
    | cons f' fs' =>
      obtain ⟨hf, hothers⟩ := List.forall_mem_cons.1 hfs
      obtain ⟨hf', hothers'⟩ := List.forall_mem_cons.1 hfs'
      rw [List.flatMap_cons, List.flatMap_cons, List.append_assoc, List.append_assoc] at h
      obtain ⟨rfl, hfields⟩ := Field.bytes_append_inj hf hf' h
      obtain ⟨rfl, htail⟩ := ih hothers hothers' hfields
      exact ⟨rfl, htail⟩

theorem Entity.bytes_append_inj {e e' : Entity} (he : e.IsNamed) (he' : e'.IsNamed)
    (hrest : rest.head? ≠ some 'F'.toUInt8) (hlater : later.head? ≠ some 'F'.toUInt8)
    (h : e.bytes ++ rest = e'.bytes ++ later) : e.Alike e' ∧ rest = later := by
  obtain ⟨f, fs, hfields⟩ := List.exists_cons_of_ne_nil he.ne_nil
  obtain ⟨f', fs', hfields'⟩ := List.exists_cons_of_ne_nil he'.ne_nil
  rw [Entity.bytes_eq hfields, Entity.bytes_eq hfields'] at h
  simp only [List.cons_append, List.append_assoc, List.cons.injEq, true_and] at h
  obtain ⟨hname, hkind, h⟩ := Bytes.name_append_inj (Bytes.isNameByte_of_isName he.name)
    (Bytes.isNameByte_of_isName he'.name) e.kind.isNameByte_index e'.kind.isNameByte_index h
  obtain ⟨-, h⟩ := List.cons.inj h
  obtain ⟨hlead, htype, h⟩ := Bytes.name_append_inj he.isNameByte_lead he'.isNameByte_lead
    f.type.isNameByte_index f'.type.isNameByte_index h
  obtain ⟨hunique, h⟩ := List.cons.inj h
  obtain ⟨rfl, htail⟩ := Field.flatMap_bytes_append_inj
    (fun g hg => he.fields g (hfields ▸ List.mem_cons_of_mem f hg))
    (fun g hg => he'.fields g (hfields' ▸ List.mem_cons_of_mem f' hg)) hrest hlater h
  have htype := FieldType.ofNat_index_inj htype
  have hunique := Bytes.ofBool_inj hunique
  refine ⟨⟨Bytes.ofString_injective hname, EntityKind.ofNat_index_inj hkind,
    Bytes.ofString_injective hlead, ?_, ?_⟩, htail⟩
  · rw [hfields, hfields', List.head?_cons, List.head?_cons, Option.map_some, Option.map_some,
      htype, hunique]
  · rw [hfields, hfields', List.tail_cons, List.tail_cons]

theorem Entity.bytes_of_alike {e e' : Entity} (he : e.IsNamed) (he' : e'.IsNamed)
    (h : e.Alike e') : e.bytes = e'.bytes := by
  obtain ⟨f, fs, hfields⟩ := List.exists_cons_of_ne_nil he.ne_nil
  obtain ⟨f', fs', hfields'⟩ := List.exists_cons_of_ne_nil he'.ne_nil
  have hfirst := h.first
  have hothers := h.others
  simp only [hfields, hfields', List.head?_cons, Option.map_some, Option.some.injEq,
    Prod.mk.injEq, List.tail_cons] at hfirst hothers
  rw [bytes_eq hfields, bytes_eq hfields', h.name, h.kind, h.lead, hfirst.1, hfirst.2, hothers]

theorem Entity.flatMap_bytes_of_alike {es es' : List Entity} (h : List.Forall₂ Entity.Alike es es')
    (hes : ∀ e ∈ es, e.IsNamed) (hes' : ∀ e ∈ es', e.IsNamed) :
    es.flatMap Entity.bytes = es'.flatMap Entity.bytes := by
  induction h with
  | nil => rfl
  | @cons e e' es es' halike _ ih =>
    obtain ⟨he, hes⟩ := List.forall_mem_cons.1 hes
    obtain ⟨he', hes'⟩ := List.forall_mem_cons.1 hes'
    rw [List.flatMap_cons, List.flatMap_cons, Entity.bytes_of_alike he he' halike, ih hes hes']

theorem Entity.head?_flatMap_bytes (e : Entity) (es : List Entity) :
    ((e :: es).flatMap Entity.bytes ++ rest).head? = some 'E'.toUInt8 := rfl

/-- Entities end before the first letter that is neither theirs nor that of a field. -/
theorem Entity.flatMap_bytes_append_inj {es es' : List Entity} (hes : ∀ e ∈ es, e.IsNamed)
    (hes' : ∀ e ∈ es', e.IsNamed) (hrest : rest.head? = some 'P'.toUInt8)
    (hlater : later.head? = some 'P'.toUInt8)
    (h : es.flatMap Entity.bytes ++ rest = es'.flatMap Entity.bytes ++ later) :
    List.Forall₂ Entity.Alike es es' ∧ rest = later := by
  -- What follows an entity is another one or the first permission.
  have hhead : ∀ (ds : List Entity) {tail : List UInt8}, tail.head? = some 'P'.toUInt8 →
      (ds.flatMap Entity.bytes ++ tail).head? ≠ some 'F'.toUInt8 := by
    intro ds tail htail
    cases ds with
    | nil =>
      rw [List.flatMap_nil, List.nil_append, htail]
      decide
    | cons d ds =>
      rw [Entity.head?_flatMap_bytes]
      decide
  induction es generalizing es' with
  | nil =>
    cases es' with
    | nil => exact ⟨.nil, h⟩
    | cons e' es' =>
      have heq := congrArg List.head? h
      rw [List.flatMap_nil, List.nil_append, hrest, Entity.head?_flatMap_bytes] at heq
      exact absurd heq (by decide)
  | cons e es ih =>
    cases es' with
    | nil =>
      have heq := congrArg List.head? h.symm
      rw [List.flatMap_nil, List.nil_append, hlater, Entity.head?_flatMap_bytes] at heq
      exact absurd heq (by decide)
    | cons e' es' =>
      obtain ⟨he, hes⟩ := List.forall_mem_cons.1 hes
      obtain ⟨he', hes'⟩ := List.forall_mem_cons.1 hes'
      rw [List.flatMap_cons, List.flatMap_cons, List.append_assoc, List.append_assoc] at h
      obtain ⟨halike, h⟩ := Entity.bytes_append_inj he he' (hhead es hrest) (hhead es' hlater) h
      obtain ⟨hall, h⟩ := ih hes hes' h
      exact ⟨.cons halike hall, h⟩

end

/-! ## Schemas -/

namespace Schema

/-- The permissions, each after its letter. -/
def permissionText (s : Schema) : List Char :=
  s.permissions.flatMap fun p => 'P' :: p.toList

/-- **Two schemas agree** but for where owner fields and permissions end. -/
structure Alike (s s' : Schema) : Prop where
  entities : List.Forall₂ Entity.Alike s.entities s'.entities
  permissions : s.permissionText = s'.permissionText
  custom : s.allowCustomPermissions = s'.allowCustomPermissions

theorem flatMap_permissionBytes (s : Schema) :
    s.permissions.flatMap permissionBytes = Bytes.ofString (String.ofList s.permissionText) := by
  have hP : String.utf8EncodeChar 'P' = ['P'.toUInt8] := rfl
  rw [Bytes.ofString_eq_flatMap, String.toList_ofList, permissionText, List.flatMap_assoc]
  congr 1
  funext p
  rw [List.flatMap_cons, hP, permissionBytes, Bytes.ofString_eq_flatMap]
  rfl

theorem bytes_of_alike {s s' : Schema} (hs : ∀ e ∈ s.entities, e.IsNamed)
    (hs' : ∀ e ∈ s'.entities, e.IsNamed) (h : s.Alike s') : s.bytes = s'.bytes := by
  rw [bytes, bytes, Entity.flatMap_bytes_of_alike h.entities hs hs', flatMap_permissionBytes,
    flatMap_permissionBytes, h.permissions, h.custom]

/-- **Schemas that keep the rules have the same text** exactly when they are alike. -/
theorem bytes_eq_iff {s s' : Schema} (hs : s.validate = .ok ()) (hs' : s'.validate = .ok ()) :
    s.bytes = s'.bytes ↔ s.Alike s' := by
  obtain ⟨hnamed, -, hne⟩ := isNamed_of_validate hs
  obtain ⟨hnamed', -, hne'⟩ := isNamed_of_validate hs'
  refine ⟨fun h => ?_, bytes_of_alike hnamed hnamed'⟩
  have hhead : ∀ {ps : List String} (flag : UInt8), ps ≠ [] →
      (ps.flatMap permissionBytes ++ [flag]).head? = some 'P'.toUInt8 := by
    intro ps flag hps
    obtain ⟨p, ps, rfl⟩ := List.exists_cons_of_ne_nil hps
    rfl
  rw [bytes, bytes, List.append_assoc, List.append_assoc] at h
  obtain ⟨hentities, htail⟩ := Entity.flatMap_bytes_append_inj hnamed hnamed' (hhead _ hne)
    (hhead _ hne') h
  obtain ⟨hpermissions, hflag⟩ := List.append_inj' htail rfl
  rw [flatMap_permissionBytes, flatMap_permissionBytes] at hpermissions
  have htext := congrArg String.toList (Bytes.ofString_injective hpermissions)
  rw [String.toList_ofList, String.toList_ofList] at htext
  exact ⟨hentities, htext, Bytes.ofBool_inj (List.cons.inj hflag).1⟩

/-- **No owner field and no permission has the letter** that may follow it. -/
structure IsUnambiguous (s : Schema) : Prop where
  owners : ∀ e ∈ s.entities, ∀ o ∈ e.effectiveOwnerField, 'F' ∉ o.toList
  permissions : ∀ p ∈ s.permissions, 'P' ∉ p.toList

/-- What of a schema is in force: an owner field that is not declared counts as the default one,
    and that of a principal does not count. -/
def content (s : Schema) : List (String × EntityKind × Option String × List Field) ×
    List String × Bool :=
  (s.entities.map fun e => (e.name, e.kind, e.effectiveOwnerField, e.fields), s.permissions,
    s.allowCustomPermissions)

theorem permissions_eq_of_text {ps ps' : List String} (hps : ∀ p ∈ ps, 'P' ∉ p.toList)
    (hps' : ∀ p ∈ ps', 'P' ∉ p.toList)
    (h : (ps.flatMap fun p => 'P' :: p.toList) = ps'.flatMap fun p => 'P' :: p.toList) :
    ps = ps' := by
  -- With one letter more at the end, every permission is followed by its letter.
  have hshift : ∀ qs : List String, (qs.flatMap fun q => 'P' :: q.toList) ++ ['P'] =
      'P' :: qs.flatMap fun q => q.toList ++ ['P'] := by
    intro qs
    induction qs with
    | nil => rfl
    | cons q qs ih => simp [List.flatMap_cons, ih]
  have hends : (ps.flatMap fun p => p.toList ++ ['P']) =
      ps'.flatMap fun p => p.toList ++ ['P'] :=
    List.cons_inj_right 'P' |>.1 (by rw [← hshift, ← hshift, h])
  clear h
  induction ps generalizing ps' with
  | nil =>
    cases ps' with
    | nil => rfl
    | cons p' ps' => simp at hends
  | cons p ps ih =>
    cases ps' with
    | nil => simp at hends
    | cons p' ps' =>
      obtain ⟨hp, hps⟩ := List.forall_mem_cons.1 hps
      obtain ⟨hp', hps'⟩ := List.forall_mem_cons.1 hps'
      simp only [List.flatMap_cons, List.append_assoc, List.singleton_append] at hends
      obtain ⟨hfirst, htail⟩ := append_cons_inj_of_not_mem hp hp' hends
      rw [String.toList_inj.1 hfirst, ih hps hps' htail]

end Schema

namespace Entity

theorem isSome_effectiveOwnerField (e : Entity) :
    e.effectiveOwnerField.isSome = decide (e.kind = .resource) := by
  unfold effectiveOwnerField
  cases e.kind <;> rfl

/-- Where the owner field ends is told by its letter, if it stands in no owner field. -/
theorem Alike.lead_eq {e e' : Entity} (h : e.Alike e')
    (he : ∀ o ∈ e.effectiveOwnerField, 'F' ∉ o.toList)
    (he' : ∀ o ∈ e'.effectiveOwnerField, 'F' ∉ o.toList) :
    e.effectiveOwnerField = e'.effectiveOwnerField ∧
      e.fields.head?.elim "" (·.name) = e'.fields.head?.elim "" (·.name) := by
  -- Entities of one kind both have an owner field or both have none.
  have hsome : e.effectiveOwnerField.isSome = e'.effectiveOwnerField.isSome := by
    rw [isSome_effectiveOwnerField, isSome_effectiveOwnerField, h.kind]
  have hlead := h.lead
  unfold Entity.lead at hlead
  cases ho : e.effectiveOwnerField with
  | none =>
    cases ho' : e'.effectiveOwnerField with
    | none =>
      rw [ho, ho'] at hlead
      simpa using hlead
    | some o' =>
      rw [ho, ho'] at hsome
      exact nomatch hsome
  | some o =>
    cases ho' : e'.effectiveOwnerField with
    | none =>
      rw [ho, ho'] at hsome
      exact nomatch hsome
    | some o' =>
      rw [ho, ho'] at hlead
      have hchars := congrArg String.toList hlead
      simp only [Option.elim_some, String.toList_append, List.append_assoc] at hchars
      obtain ⟨howner, hname⟩ := append_cons_inj_of_not_mem (he o ho) (he' o' ho') hchars
      exact ⟨congrArg some (String.toList_inj.1 howner), String.toList_inj.1 hname⟩

theorem Alike.fields_eq {e e' : Entity} (h : e.Alike e')
    (hname : e.fields.head?.elim "" (·.name) = e'.fields.head?.elim "" (·.name)) :
    e.fields = e'.fields := by
  have hfirst := h.first
  have hothers := h.others
  cases hfields : e.fields with
  | nil =>
    cases hfields' : e'.fields with
    | nil => rfl
    | cons f' fs' =>
      rw [hfields, hfields'] at hfirst
      exact nomatch hfirst
  | cons f fs =>
    cases hfields' : e'.fields with
    | nil =>
      rw [hfields, hfields'] at hfirst
      exact nomatch hfirst
    | cons f' fs' =>
      obtain ⟨name, type, unique⟩ := f
      obtain ⟨name', type', unique'⟩ := f'
      simp only [hfields, hfields', List.head?_cons, Option.map_some, Option.some.injEq,
        Prod.mk.injEq, List.tail_cons, Option.elim_some] at hfirst hothers hname
      rw [hname, hfirst.1, hfirst.2, hothers]

end Entity

namespace Schema

theorem entities_eq_of_alike {es es' : List Entity} (h : List.Forall₂ Entity.Alike es es')
    (hes : ∀ e ∈ es, ∀ o ∈ e.effectiveOwnerField, 'F' ∉ o.toList)
    (hes' : ∀ e ∈ es', ∀ o ∈ e.effectiveOwnerField, 'F' ∉ o.toList) :
    (es.map fun e => (e.name, e.kind, e.effectiveOwnerField, e.fields)) =
      es'.map fun e => (e.name, e.kind, e.effectiveOwnerField, e.fields) := by
  induction h with
  | nil => rfl
  | @cons e e' es es' halike _ ih =>
    obtain ⟨he, hes⟩ := List.forall_mem_cons.1 hes
    obtain ⟨he', hes'⟩ := List.forall_mem_cons.1 hes'
    obtain ⟨howner, hname⟩ := halike.lead_eq he he'
    rw [List.map_cons, List.map_cons, halike.name, halike.kind, howner, halike.fields_eq hname,
      ih hes hes']

/-- Unambiguous schemas that are alike are the same, as far as they are in force. -/
theorem content_eq_of_alike {s s' : Schema} (hs : s.IsUnambiguous) (hs' : s'.IsUnambiguous)
    (h : s.Alike s') : s.content = s'.content := by
  have hentities := entities_eq_of_alike h.entities hs.owners hs'.owners
  have hpermissions := permissions_eq_of_text hs.permissions hs'.permissions h.permissions
  rw [content, content, hentities, hpermissions, h.custom]

end Schema

/-- **Plans of another schema.** Two schemas that keep the rules have the same text exactly when
    they are alike. If both are unambiguous and differ in what is in force, the texts differ, and a
    service for one of them refuses the plans of the other unless the checks of the two texts
    happen to be equal. -/
theorem Service.run_of_other_schema {s : Service} {other : Schema}
    (hs : s.schema.validate = .ok ()) (hother : other.validate = .ok ()) :
    (s.schema.bytes = other.bytes ↔ s.schema.Alike other) ∧
    (s.schema.IsUnambiguous → other.IsUnambiguous → s.schema.content ≠ other.content →
      s.schema.bytes ≠ other.bytes ∧
      ∀ now caller plan, plan.schemaVersion = other.fingerprint → s.version ≠ other.fingerprint →
        s.run now caller plan = throw (.staleSchema plan.schemaVersion s.version)) := by
  have hiff := Schema.bytes_eq_iff hs hother
  refine ⟨hiff, fun hu hu' hne => ⟨fun hbytes => ?_, fun now caller plan hplan hversion => ?_⟩⟩
  · exact hne (Schema.content_eq_of_alike hu hu' (hiff.1 hbytes))
  · have hstale : plan.schemaVersion ≠ s.version := fun h => hversion (h.symm.trans hplan)
    rw [Service.run, if_neg hstale]

/-- Notes of users, and the same notes of teams: plans for the one are refused for the other. -/
theorem Service.run_of_other_schema_notes :
    let notes (owner : String) : Schema := ⟨[⟨"User", .principal, [⟨"id", .string, true⟩], none⟩,
      ⟨"Note", .resource, [⟨"id", .string, true⟩, ⟨"user", .string, false⟩,
        ⟨"team", .string, false⟩], some owner⟩], ["admin", "view", "edit"], false⟩
    (notes "user").validate = .ok () ∧ (notes "team").validate = .ok () ∧
      (notes "user").bytes ≠ (notes "team").bytes ∧
      ∀ now caller plan, plan.schemaVersion = (notes "team").fingerprint →
        Service.run ⟨notes "user", none⟩ now caller plan =
          throw (.staleSchema plan.schemaVersion (notes "user").fingerprint) := by
  intro notes
  have hu : (notes "user").IsUnambiguous := ⟨by decide, by decide⟩
  have hu' : (notes "team").IsUnambiguous := ⟨by decide, by decide⟩
  have hne : (notes "user").content ≠ (notes "team").content := by decide
  -- The texts differ in the four bytes of the owner field, so their checks differ too.
  have hversion : (notes "user").fingerprint ≠ (notes "team").fingerprint := by
    let front := (notes "user").bytes.take 18
    let back := (notes "user").bytes.drop 22
    have hbytes : (notes "user").bytes = front ++ Bytes.ofString "user" ++ back := by
      decide +kernel
    have hbytes' : (notes "team").bytes = front ++ Bytes.ofString "team" ++ back := by
      decide +kernel
    rw [Schema.fingerprint, Schema.fingerprint, hbytes, hbytes']
    exact crc32_append_ne (by decide +kernel) (by decide +kernel) (by decide +kernel)
  obtain ⟨hbytes, hstale⟩ :=
    (Service.run_of_other_schema (s := ⟨notes "user", none⟩) rfl rfl).2 hu hu' hne
  exact ⟨rfl, rfl, hbytes, fun now caller plan hplan => hstale now caller plan hplan hversion⟩

/-- Users, and notes with an owner field and a first field of their own. -/
def Schema.ofNotes (owner first : String) (permissions : List String) : Schema where
  entities := [⟨"User", .principal, [⟨"id", .string, true⟩], none⟩,
    ⟨"Note", .resource, [⟨first, .string, false⟩, ⟨"id", .string, true⟩,
      ⟨"owner", .string, false⟩, ⟨"ownerFrom", .string, false⟩], some owner⟩]
  permissions := "admin" :: permissions
  allowCustomPermissions := false

/-- Two schemas that keep the rules, differ in the owner field, in a field and in the permissions,
    and still have the same text. -/
theorem Schema.bytes_eq_of_ambiguous :
    let s := ofNotes "owner" "romFile" ["viewPrivate"]
    let other := ofNotes "ownerFrom" "ile" ["view", "rivate"]
    s.validate = .ok () ∧ other.validate = .ok () ∧ s.content ≠ other.content ∧
      s.bytes = other.bytes :=
  ⟨rfl, rfl, by decide, by decide +kernel⟩

end Warrant
