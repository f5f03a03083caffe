import Warrant.Proofs.Filter.Conjunction
import Warrant.Proofs.Graph.Rows
import Warrant.Proofs.Resolution.Acceptance

/-!
# What conditions mean

A condition is read off a statement: equalities and inequalities hold of a row by the value of a
field, AND means every part and OR some part. The filter that resolving makes of it, with values in
the place of literals and conjunctions joined, selects the same rows.

## Main definitions

- `Condition.Holds` — a row satisfies a condition
- `Selector.Picks` — a row is among those that a selector names
- `Reference.Means` — a row is among those of GET, UPDATE and DELETE

## Main statements

- `Scope.selects_filter_iff` — a filter selects what its condition holds of
- `Scope.selects_rows_iff` — the filter of GET, UPDATE and DELETE selects what the statement means
-/

namespace Warrant

/-- **A row satisfies a condition.** The literal has the type of the declared field, and a missing
    field reads as null. -/
inductive Condition.Holds (actorId : String) (e : Entity) (row : Row) : Condition → Prop
  | equal {f : Field} {literal : Literal} {v : Value} (hf : f ∈ e.fields)
    (hv : literal.Denotes actorId f.type v) (h : (row.value f.name).agrees v = true) :
    Holds actorId e row (.compare f.name .equal literal)
  | different {f : Field} {literal : Literal} {v : Value} (hf : f ∈ e.fields)
    (hv : literal.Denotes actorId f.type v) (h : (row.value f.name).agrees v = false) :
    Holds actorId e row (.compare f.name .different literal)
  | every {parts : List Condition} (h : ∀ c ∈ parts, Holds actorId e row c) :
    Holds actorId e row (.every parts)
  | any {parts : List Condition} {c : Condition} (hc : c ∈ parts) (h : Holds actorId e row c) :
    Holds actorId e row (.any parts)

theorem Condition.Holds.exists_of_equal {actorId : String} {e : Entity} {row : Row} {name : String}
    {literal : Literal} (h : Holds actorId e row (.compare name .equal literal)) :
    ∃ f ∈ e.fields, f.name = name ∧ ∃ v, literal.Denotes actorId f.type v ∧
      (row.value f.name).agrees v = true := by
  cases h with
  | equal hf hv h => exact ⟨_, hf, rfl, _, hv, h⟩

/-- **A selector names a row**: every row, the row of an identity, the row of whoever acts, or the
    rows that satisfy a condition. -/
inductive Selector.Picks (p : Principal) (e : Entity) (row : Row) : Selector → Prop
  | all : Picks p e row .all
  | id : Picks p e row (.id row.id)
  | self (h : row.id = p.id) : Picks p e row .self
  | conditions {c : Condition} (h : c.Holds p.id e row) : Picks p e row (.conditions c)

/-- A row is among those of GET, UPDATE and DELETE: the selector names it, and it satisfies the
    clause, if there is one. -/
structure Reference.Means (p : Principal) (e : Entity) (clause : Option Condition)
    (ref : Reference) (row : Row) : Prop where
  selector : ref.selector.Picks p e row
  clause : ∀ c ∈ clause, c.Holds p.id e row

/-! ## Filters -/

namespace Filter

variable {row : Row}

theorem everySelects_iff {fs : List Filter} :
    everySelects row fs = true ↔ ∀ f ∈ fs, f.selects row = true := by
  rw [everySelects_eq_all, List.all_eq_true]

theorem anySelects_iff {fs : List Filter} :
    anySelects row fs = true ↔ ∃ f ∈ fs, f.selects row = true := by
  induction fs with
  | nil => exact ⟨nofun, nofun⟩
  | cons f rest ih => rw [anySelects, Bool.or_eq_true, ih, List.exists_mem_cons_iff]

/-- The joined conjunction selects what both filters select. -/
theorem selects_and_iff {f g : Filter} :
    (f.and g).selects row = true ↔ f.selects row = true ∧ g.selects row = true := by
  rw [selects_and, Bool.and_eq_true]

end Filter

theorem forall_mem_iff_of_forall₂ {α β : Type} {P : α → Prop} {Q : β → Prop} {l : List α}
    {l' : List β} (h : List.Forall₂ (fun a b => Q b ↔ P a) l l') :
    (∀ b ∈ l', Q b) ↔ ∀ a ∈ l, P a := by
  induction h with
  | nil => exact ⟨nofun, nofun⟩
  | cons hab _ ih => rw [List.forall_mem_cons, List.forall_mem_cons, hab, ih]

theorem exists_mem_iff_of_forall₂ {α β : Type} {P : α → Prop} {Q : β → Prop} {l : List α}
    {l' : List β} (h : List.Forall₂ (fun a b => Q b ↔ P a) l l') :
    (∃ b ∈ l', Q b) ↔ ∃ a ∈ l, P a := by
  induction h with
  | nil => exact ⟨nofun, nofun⟩
  | cons hab _ ih => rw [List.exists_mem_cons_iff, List.exists_mem_cons_iff, hab, ih]

namespace Scope

variable {s : Scope} {e : Entity} {row : Row}

theorem forall₂_selects_iff {parts : List Condition} {fs : List Filter}
    (hfs : List.Forall₂ (fun c f => s.filter e c = .ok f) parts fs)
    (h : ∀ c ∈ parts, ∀ f, s.filter e c = .ok f →
      (f.selects row = true ↔ c.Holds s.actorId e row)) :
    List.Forall₂ (fun c f => f.selects row = true ↔ c.Holds s.actorId e row) parts fs :=
  ((List.forall₂_and_left _ _).2 ⟨h, hfs⟩).imp fun _ f hboth => hboth.1 f hboth.2

/-- **A filter selects what its condition holds of.** -/
theorem selects_filter_iff (he : e.IsSound) {c : Condition} {f : Filter}
    (h : s.filter e c = .ok f) : f.selects row = true ↔ c.Holds s.actorId e row := by
  -- The filter has the shape of its condition. A sound entity has one field of a name, so the test
  -- that holds is about the field that was looked up.
  induction c using Condition.induction generalizing f with
  | compare name how literal =>
    obtain ⟨field, hfield, hname, v, hv, rfl⟩ := (filter_compare_eq_ok_iff he).1 h
    rw [Filter.selects]
    cases how with
    | equal =>
      constructor
      · intro hagrees
        subst hname
        exact .equal hfield hv hagrees
      · rintro ⟨hfield', hv', hagrees⟩
        obtain rfl := he.eq_of_name_eq hfield hfield' hname
        rw [hv.unique hv']
        exact hagrees
    | different =>
      constructor
      · intro hdiffers
        rw [Comparison.holds, Bool.not_eq_true'] at hdiffers
        subst hname
        exact .different hfield hv hdiffers
      · rintro (_ | ⟨hfield', hv', hdiffers⟩)
        obtain rfl := he.eq_of_name_eq hfield hfield' hname
        rw [Comparison.holds, Bool.not_eq_true', hv.unique hv']
        exact hdiffers
  | every parts ih =>
    obtain ⟨fs, hfs, rfl⟩ := filter_every_eq_ok_iff.1 h
    have hparts := forall₂_selects_iff hfs fun c hc f h => ih c hc h
    rw [Filter.selects, Filter.everySelects_iff, forall_mem_iff_of_forall₂ hparts]
    constructor
    · exact .every
    · intro h
      cases h with
      | every h => exact h
  | any parts ih =>
    obtain ⟨fs, hfs, rfl⟩ := filter_any_eq_ok_iff.1 h
    have hparts := forall₂_selects_iff hfs fun c hc f h => ih c hc h
    rw [Filter.selects, Filter.anySelects_iff, exists_mem_iff_of_forall₂ hparts]
    constructor
    · rintro ⟨c, hc, h⟩
      exact .any hc h
    · intro h
      cases h with
      | any hc h => exact ⟨_, hc, h⟩

/-- A row that repeats its identity is selected where its selector names it. -/
theorem selects_selection_iff (he : e.IsSound) (hrow : row.Faithful) {ref : Reference}
    {hasClause : Bool} {f : Filter} (h : s.selection e ref hasClause = .ok f) :
    f.selects row = true ↔ ref.selector.Picks s.principal e row := by
  rw [selection] at h
  cases hselector : ref.selector with
  | all =>
    rw [hselector] at h
    rw [← Except.ok.inj h, Filter.selects]
    exact ⟨fun _ => .all, fun _ => rfl⟩
  | conditions c =>
    rw [hselector] at h
    rw [selects_filter_iff he h]
    constructor
    · exact fun h => .conditions h
    · intro h
      cases h with
      | conditions h => exact h
  | wildcard =>
    rw [hselector] at h
    cases h
  | id name =>
    rw [hselector] at h
    obtain ⟨-, h⟩ := ite_error_eq_ok_iff.1 h
    rw [← Except.ok.inj h, Filter.selects_hasId hrow, decide_eq_true_iff]
    constructor
    · rintro rfl
      exact .id
    · intro h
      cases h with
      | id => rfl
  | self =>
    rw [hselector] at h
    obtain ⟨-, h⟩ := ite_error_eq_ok_iff.1 h
    rw [(actorRow_eq_ok_iff.1 h).2, Filter.selects_hasId hrow, decide_eq_true_iff]
    constructor
    · exact fun h => .self h
    · intro h
      cases h with
      | self h => exact h

/-- **The filter of GET, UPDATE and DELETE selects what the statement means.** -/
theorem selects_rows_iff (hs : s.schema.IsSound) (hrow : row.Faithful) {ref : Reference}
    {clause : Option Condition} {target : Target} (h : s.rows ref clause = .ok (e, target)) :
    target.filter.selects row = true ↔ ref.Means s.principal e clause row := by
  obtain ⟨hentity, selected, f, hselected, hf, rfl⟩ := rows_eq_ok_iff.1 h
  have he := hs.entities e (hs.entity?_eq_some_iff.1 hentity).1
  have hselector := selects_selection_iff he hrow hselected
  cases clause with
  | none =>
    obtain rfl := Except.ok.inj hf
    exact hselector.trans ⟨fun h => ⟨h, nofun⟩, fun h => h.selector⟩
  | some c =>
    obtain ⟨g, hg, hf⟩ := bind_eq_ok_iff.1 hf
    rw [← Except.ok.inj hf, Filter.selects_and_iff, hselector, selects_filter_iff he hg]
    exact ⟨fun h => ⟨h.1, fun _ hc => Option.some.inj hc ▸ h.2⟩,
      fun h => ⟨h.selector, h.clause c rfl⟩⟩

/-- GET, UPDATE and DELETE are about rows of a declared entity, those that the statement means. -/
theorem exists_of_rows (hs : s.schema.IsSound) {ref : Reference} {clause : Option Condition}
    {target : Target} (h : s.rows ref clause = .ok (e, target)) :
    e ∈ s.schema.entities ∧ e.name = ref.entity ∧ ∃ filter, target = ⟨e.name, filter⟩ ∧
      ∀ row : Row, row.Faithful →
        (filter.selects row = true ↔ ref.Means s.principal e clause row) := by
  obtain ⟨hentity, _, filter, -, -, rfl⟩ := rows_eq_ok_iff.1 h
  obtain ⟨hmem, hname⟩ := hs.entity?_eq_some_iff.1 hentity
  exact ⟨hmem, hname, filter, rfl, fun row hrow => selects_rows_iff hs hrow h⟩

end Scope

end Warrant
