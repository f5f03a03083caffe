import Mathlib.Data.List.Forall2
import Warrant.Proofs.Resolution.Fit
import Warrant.Proofs.Schema.Declared

/-!
# Typed literals and conditions

Resolving gives a literal the type of the field that it is compared with or written to. This module
says which literals have a value in a field and which conditions have a filter, without a word about
how either is found.

## Main definitions

- `Literal.Denotes` — the value of a literal in a field of a type
- `Condition.IsTyped` — a condition speaks of declared fields, and its literals fit them
- `Condition.IsConjunctive`, `Condition.Tests` — equalities joined by AND, and their fields

## Main statements

- `Scope.coerce_eq_ok_iff` — the value of a literal
- `Scope.exists_filter_iff` — typed conditions, and no others, have a filter
- `Scope.exists_equalities_iff`, `Scope.mem_equalities_iff` — what pins a row
-/

namespace Warrant

/-- **A literal denotes a value** in a field of a type. -/
inductive Literal.Denotes (actorId : String) : Literal → FieldType → Value → Prop
  | string (text : String) : Denotes actorId (.string text) .string (.string text)
  | self : Denotes actorId .self .string (.string actorId)
  | integer (i : Int64) : Denotes actorId (.integer i) .number (.integer i)
  | float (x : Binary64) : Denotes actorId (.float x) .number (.float x)
  | boolean (b : Bool) : Denotes actorId (.boolean b) .boolean (.boolean b)
  | timestamp {text : String} {t : Instant} (h : Instant.read? text = some t) :
    Denotes actorId (.string text) .timestamp (.timestamp t)

theorem Literal.Denotes.conformsTo {actorId : String} {literal : Literal} {type : FieldType}
    {v : Value} (h : literal.Denotes actorId type v) : v.conformsTo type = true := by
  cases h <;> rfl

theorem Literal.Denotes.unique {actorId : String} {literal : Literal} {type : FieldType}
    {v v' : Value} (h : literal.Denotes actorId type v) (h' : literal.Denotes actorId type v') :
    v = v' := by
  cases h with
  | timestamp ht =>
    cases h' with
    | timestamp ht' => rw [Option.some.inj (ht.symm.trans ht')]
  | _ =>
    cases h'
    rfl

theorem exists_forall₂_iff {α β : Type} {R : α → β → Prop} {l : List α} :
    (∃ l', List.Forall₂ R l l') ↔ ∀ a ∈ l, ∃ b, R a b := by
  induction l with
  | nil => exact ⟨nofun, fun _ => ⟨[], .nil⟩⟩
  | cons a rest ih =>
    rw [List.forall_mem_cons, ← ih]
    constructor
    · rintro ⟨_, _ | ⟨ha, hrest⟩⟩
      exact ⟨⟨_, ha⟩, _, hrest⟩
    · rintro ⟨⟨b, ha⟩, l', hrest⟩
      exact ⟨b :: l', .cons ha hrest⟩

namespace Condition

/-- What holds of every condition, if it holds of a group whenever it holds of its parts. -/
@[elab_as_elim]
theorem induction {motive : Condition → Prop}
    (compare : ∀ field how literal, motive (.compare field how literal))
    (every : ∀ parts, (∀ c ∈ parts, motive c) → motive (.every parts))
    (any : ∀ parts, (∀ c ∈ parts, motive c) → motive (.any parts)) : ∀ c, motive c
  | .compare field how literal => compare field how literal
  | .every parts => every parts fun c _ => induction compare every any c
  | .any parts => any parts fun c _ => induction compare every any c

/-- **A condition is typed**: it speaks of declared fields, and its literals fit them. -/
inductive IsTyped (actorId : String) (e : Entity) : Condition → Prop
  | compare {f : Field} {how : Comparison} {literal : Literal} {v : Value} (hf : f ∈ e.fields)
    (hv : literal.Denotes actorId f.type v) : IsTyped actorId e (.compare f.name how literal)
  | every {parts : List Condition} (h : ∀ c ∈ parts, IsTyped actorId e c) :
    IsTyped actorId e (.every parts)
  | any {parts : List Condition} (h : ∀ c ∈ parts, IsTyped actorId e c) :
    IsTyped actorId e (.any parts)

/-- **A condition is conjunctive**: it consists of equalities that are joined by AND at every
    level. -/
inductive IsConjunctive : Condition → Prop
  | equal (field : String) (literal : Literal) : IsConjunctive (.compare field .equal literal)
  | every {parts : List Condition} (h : ∀ c ∈ parts, IsConjunctive c) :
    IsConjunctive (.every parts)

/-- A condition tests a field, at whatever level. -/
inductive Tests (field : String) : Condition → Prop
  | compare (how : Comparison) (literal : Literal) : Tests field (.compare field how literal)
  | every {parts : List Condition} {c : Condition} (hc : c ∈ parts) (h : Tests field c) :
    Tests field (.every parts)
  | any {parts : List Condition} {c : Condition} (hc : c ∈ parts) (h : Tests field c) :
    Tests field (.any parts)

end Condition

namespace Scope

variable {s : Scope} {e : Entity}

/-! ## Literals -/

theorem field_eq_ok_iff (he : e.IsSound) {name : String} {f : Field} :
    field e name = .ok f ↔ f ∈ e.fields ∧ f.name = name := by
  rw [← he.field?_eq_some_iff, field]
  cases e.field? name <;> simp

/-- **The value of a literal** is the one that it denotes. -/
theorem coerce_eq_ok_iff {f : Field} {literal : Literal} {v : Value} :
    s.coerce e f literal = .ok v ↔ literal.Denotes s.actorId f.type v := by
  unfold coerce
  constructor
  · intro h
    -- The type of the field and the kind of the literal decide together. Only instants can be
    -- misread.
    split at h
    · next htype =>
      rw [htype, ← Except.ok.inj h]
      exact .string _
    · next htype =>
      rw [htype, ← Except.ok.inj h]
      exact .self
    · next htype =>
      rw [htype, ← Except.ok.inj h]
      exact .integer _
    · next htype =>
      rw [htype, ← Except.ok.inj h]
      exact .float _
    · next htype =>
      rw [htype, ← Except.ok.inj h]
      exact .boolean _
    · next text htype =>
      cases ht : Instant.read? text with
      | none =>
        rw [ht] at h
        exact nomatch h
      | some t =>
        rw [ht] at h
        rw [htype, ← Except.ok.inj h]
        exact .timestamp ht
    · exact nomatch h
  · intro h
    generalize f.type = type at h
    cases h with
    | timestamp ht => simp only [ht]
    | _ => rfl

/-! ## Conditions -/

theorem filter_compare_eq_ok_iff (he : e.IsSound) {name : String} {how : Comparison}
    {literal : Literal} {filter : Filter} :
    s.filter e (.compare name how literal) = .ok filter ↔
      ∃ f ∈ e.fields, f.name = name ∧ ∃ v, literal.Denotes s.actorId f.type v ∧
        filter = .compare name how v := by
  rw [Scope.filter, bind_eq_ok_iff]
  constructor
  · rintro ⟨f, hf, h⟩
    obtain ⟨hmem, rfl⟩ := (field_eq_ok_iff he).1 hf
    obtain ⟨v, hv, h⟩ := bind_eq_ok_iff.1 h
    exact ⟨f, hmem, rfl, v, coerce_eq_ok_iff.1 hv, (Except.ok.inj h).symm⟩
  · rintro ⟨f, hmem, rfl, v, hv, rfl⟩
    exact ⟨f, (field_eq_ok_iff he).2 ⟨hmem, rfl⟩, bind_eq_ok_iff.2 ⟨v, coerce_eq_ok_iff.2 hv, rfl⟩⟩

/-- The filters of some conditions are the filters of each. -/
theorem filters_eq_ok_iff {parts : List Condition} {fs : List Filter} :
    s.filters e parts = .ok fs ↔ List.Forall₂ (fun c f => s.filter e c = .ok f) parts fs := by
  induction parts generalizing fs with
  | nil =>
    rw [filters, List.forall₂_nil_left_iff]
    exact ⟨fun h => (Except.ok.inj h).symm, fun h => h ▸ rfl⟩
  | cons c rest ih =>
    rw [filters, bind_eq_ok_iff, List.forall₂_cons_left_iff]
    constructor
    · rintro ⟨f, hf, h⟩
      obtain ⟨fs', hfs', h⟩ := bind_eq_ok_iff.1 h
      exact ⟨f, fs', hf, ih.1 hfs', (Except.ok.inj h).symm⟩
    · rintro ⟨f, fs', hf, hfs', rfl⟩
      exact ⟨f, hf, bind_eq_ok_iff.2 ⟨fs', ih.2 hfs', rfl⟩⟩

/-- A group of conditions becomes a group of their filters. -/
theorem group_eq_ok_iff {group : List Filter → Filter} {parts : List Condition}
    {filter : Filter} :
    (do return group (← s.filters e parts)) = (.ok filter : Resolved Filter) ↔
      ∃ fs, List.Forall₂ (fun c f => s.filter e c = .ok f) parts fs ∧ filter = group fs := by
  rw [bind_eq_ok_iff]
  apply exists_congr
  intro fs
  rw [filters_eq_ok_iff]
  exact and_congr Iff.rfl ⟨fun h => (Except.ok.inj h).symm, fun h => h ▸ rfl⟩

theorem filter_every_eq_ok_iff {parts : List Condition} {filter : Filter} :
    s.filter e (.every parts) = .ok filter ↔
      ∃ fs, List.Forall₂ (fun c f => s.filter e c = .ok f) parts fs ∧ filter = .every fs := by
  rw [Scope.filter]
  exact group_eq_ok_iff

theorem filter_any_eq_ok_iff {parts : List Condition} {filter : Filter} :
    s.filter e (.any parts) = .ok filter ↔
      ∃ fs, List.Forall₂ (fun c f => s.filter e c = .ok f) parts fs ∧ filter = .any fs := by
  rw [Scope.filter]
  exact group_eq_ok_iff

/-- A group of conditions has a filter if each of them has one. -/
theorem exists_group_iff {group : List Filter → Filter} {parts : List Condition} :
    (∃ filter, (do return group (← s.filters e parts)) = (.ok filter : Resolved Filter)) ↔
      ∀ c ∈ parts, ∃ f, s.filter e c = .ok f := by
  rw [← exists_forall₂_iff]
  constructor
  · rintro ⟨filter, h⟩
    obtain ⟨fs, hfs, -⟩ := group_eq_ok_iff.1 h
    exact ⟨fs, hfs⟩
  · rintro ⟨fs, hfs⟩
    exact ⟨group fs, group_eq_ok_iff.2 ⟨fs, hfs, rfl⟩⟩

/-- **Typed conditions, and no others, have a filter.** -/
theorem exists_filter_iff (he : e.IsSound) {c : Condition} :
    (∃ f, s.filter e c = .ok f) ↔ c.IsTyped s.actorId e := by
  induction c using Condition.induction with
  | compare field how literal =>
    constructor
    · rintro ⟨filter, h⟩
      obtain ⟨f, hf, rfl, v, hv, -⟩ := (filter_compare_eq_ok_iff he).1 h
      exact .compare hf hv
    · rintro (⟨hf, hv⟩ | _ | _)
      exact ⟨_, (filter_compare_eq_ok_iff he).2 ⟨_, hf, rfl, _, hv, rfl⟩⟩
  | every parts ih =>
    rw [Scope.filter, exists_group_iff, forall₂_congr ih]
    constructor
    · exact .every
    · rintro (_ | h | _)
      exact h
  | any parts ih =>
    rw [Scope.filter, exists_group_iff, forall₂_congr ih]
    constructor
    · exact .any
    · rintro (_ | _ | h)
      exact h

/-! ## Equalities -/

theorem exists_equalitiesOf_iff {parts : List Condition} :
    (∃ names, equalitiesOf? parts = some names) ↔
      ∀ c ∈ parts, ∃ names, equalities? c = some names := by
  induction parts with
  | nil => exact ⟨nofun, fun _ => ⟨[], rfl⟩⟩
  | cons c rest ih =>
    rw [List.forall_mem_cons, ← ih]
    simp only [equalitiesOf?, Option.bind_eq_bind, Option.bind_eq_some_iff]
    constructor
    · rintro ⟨_, first, hfirst, others, hothers, -⟩
      exact ⟨⟨first, hfirst⟩, others, hothers⟩
    · rintro ⟨⟨first, hfirst⟩, others, hothers⟩
      exact ⟨first ++ others, first, hfirst, others, hothers, rfl⟩

theorem mem_equalitiesOf_iff {parts : List Condition} {names : List String} {name : String}
    (h : equalitiesOf? parts = some names) :
    name ∈ names ↔ ∃ c ∈ parts, ∃ found, equalities? c = some found ∧ name ∈ found := by
  induction parts generalizing names with
  | nil =>
    obtain rfl := Option.some.inj h
    simp
  | cons c rest ih =>
    simp only [equalitiesOf?, Option.bind_eq_bind, Option.bind_eq_some_iff] at h
    obtain ⟨first, hfirst, others, hothers, h⟩ := h
    obtain rfl := Option.some.inj h
    rw [List.mem_append, ih hothers, List.exists_mem_cons_iff]
    apply or_congr _ Iff.rfl
    constructor
    · intro hmem
      exact ⟨first, hfirst, hmem⟩
    · rintro ⟨found, hfound, hmem⟩
      obtain rfl := Option.some.inj (hfirst.symm.trans hfound)
      exact hmem

/-- **Conjunctive conditions, and no others, have equalities.** -/
theorem exists_equalities_iff {c : Condition} :
    (∃ names, equalities? c = some names) ↔ c.IsConjunctive := by
  induction c using Condition.induction with
  | compare field how literal =>
    cases how with
    | equal => exact ⟨fun _ => .equal field literal, fun _ => ⟨[field], rfl⟩⟩
    | different => exact ⟨nofun, nofun⟩
  | every parts ih =>
    rw [equalities?, exists_equalitiesOf_iff, forall₂_congr ih]
    exact ⟨.every, fun | .every h => h⟩
  | any parts _ => exact ⟨nofun, nofun⟩

/-- **The fields that a conjunctive condition tests** are those of its equalities. -/
theorem mem_equalities_iff {c : Condition} {names : List String} {name : String}
    (h : equalities? c = some names) : name ∈ names ↔ c.Tests name := by
  induction c using Condition.induction generalizing names with
  | compare field how literal =>
    cases how with
    | equal =>
      obtain rfl := Option.some.inj h
      rw [List.mem_singleton]
      constructor
      · rintro rfl
        exact .compare .equal literal
      · rintro (_ | _ | _)
        rfl
    | different => exact nomatch h
  | every parts ih =>
    rw [equalities?] at h
    rw [mem_equalitiesOf_iff h]
    constructor
    · rintro ⟨c, hc, found, hfound, hmem⟩
      exact .every hc ((ih c hc hfound).1 hmem)
    · rintro (_ | ⟨hc, htests⟩ | _)
      obtain ⟨found, hfound⟩ := exists_equalitiesOf_iff.1 ⟨names, h⟩ _ hc
      exact ⟨_, hc, found, hfound, (ih _ hc hfound).2 htests⟩
  | any parts _ => exact nomatch h

end Scope

end Warrant
