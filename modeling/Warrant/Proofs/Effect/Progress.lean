import Warrant.Proofs.Resolution.Acceptance
import Warrant.Proofs.Store.Tables

/-!
# Typed operations do not go wrong

What resolving has checked is all that running relies on: there is a table for every target, the
types of assignments are those of their fields, and rows that have been found can be written because
they are filed under their identities. So a resolved operation on a store without an open transaction
fails only for what the rows and permissions are at that moment, and what it writes has the declared
types.

## Main definitions

- `Operation.IsTyped` — assignments have the types of their fields
- `RunError.IsOrdinary`, `GoesWell` — failures that depend on rows and permissions
- `Graph.Conforms` — every row has values of the declared types

## Main statements

- `Statement.resolve_isTyped` — resolved statements are typed
- `Operation.goesWell_effect` — progress: typed operations do not go wrong
- `Graph.Conforms.step` — preservation: typed operations keep values of the declared types
-/

namespace Warrant

/-! ## Typed operations -/

/-- The assignments of an operation write declared fields, with values of their types. -/
def Operation.IsTyped (schema : Schema) : Operation → Prop
  | .update target assignments _ => ∃ e ∈ schema.entities, e.name = target.entity ∧
      ∀ a ∈ assignments, ∃ f ∈ e.fields, f.name = a.field ∧ f.type = a.fieldType ∧
        a.value.conformsTo f.type = true
  | _ => True

theorem Setting.forall_assignment_isTyped {actorId : String} {e : Entity}
    {settings : List Setting} {found : List Assignment}
    (h : List.Forall₂ (Setting.Denotes actorId e) settings found) :
    ∀ a ∈ found, ∃ f ∈ e.fields, f.name = a.field ∧ f.type = a.fieldType ∧
      a.value.conformsTo f.type = true := by
  induction h with
  | nil => exact fun a ha => nomatch ha
  | cons hfirst _ ih =>
    obtain ⟨hf, -, hv⟩ := hfirst
    exact List.forall_mem_cons.2 ⟨⟨_, hf, rfl, rfl, hv.conformsTo⟩, ih⟩

theorem Scope.operation_isTyped {s : Scope} (hs : s.schema.IsSound) {statement : Statement}
    {op : Operation} (h : s.operation statement = .ok op) : op.IsTyped s.schema := by
  cases statement with
  | update ref settings clause =>
    obtain ⟨⟨e, target⟩, hrows, h⟩ := bind_eq_ok_iff.1 h
    obtain ⟨found, hfound, h⟩ := bind_eq_ok_iff.1 h
    obtain rfl := Except.ok.inj h
    obtain ⟨hmem, hname⟩ := hs.entity?_eq_some_iff.1 (entity?_of_rows hrows)
    exact ⟨e, hmem, hname, Setting.forall_assignment_isTyped
      ((assignments_eq_ok_iff (hs.entities e hmem)).1 hfound).2⟩
  | get =>
    obtain ⟨_, -, h⟩ := bind_eq_ok_iff.1 h
    obtain ⟨_, -, h⟩ := bind_eq_ok_iff.1 h
    obtain rfl := Except.ok.inj h
    trivial
  | check | grant | revoke | delete =>
    obtain ⟨_, -, h⟩ := bind_eq_ok_iff.1 h
    obtain rfl := Except.ok.inj h
    trivial

/-- **Resolved statements are typed**, and they carry the fingerprint of the schema. -/
theorem Statement.resolve_isTyped {schema : Schema} (hs : schema.IsSound) {p : Principal}
    {statement : Statement} {plan : Plan} (h : statement.resolve schema p = .ok plan) :
    plan.operation.IsTyped schema ∧ plan.schemaVersion = schema.fingerprint := by
  obtain ⟨s, hscope, h⟩ := bind_eq_ok_iff.1 h
  obtain ⟨op, hop, h⟩ := bind_eq_ok_iff.1 h
  obtain rfl := Except.ok.inj h
  obtain ⟨rfl, -, -, -⟩ := Scope.ofPrincipal_eq_ok hscope
  exact ⟨Scope.operation_isTyped hs hop, rfl⟩

/-! ## Progress -/

/-- The failures that depend on what rows and permissions there are. -/
inductive RunError.IsOrdinary : RunError → Prop
  | notFound (target : Target) : IsOrdinary (.notFound target)
  | ambiguous (target : Target) (count : Nat) : IsOrdinary (.ambiguous target count)
  | forbidden (p : Node) (action : Verb) (resource : Node) : IsOrdinary (.forbidden p action resource)

/-- A computation succeeds, or its failure is an ordinary one. -/
def GoesWell {α : Type} (x : Except RunError α) : Prop :=
  ∀ e, x = .error e → e.IsOrdinary

section

variable {α β : Type}

theorem goesWell_ok (a : α) : GoesWell (.ok a) :=
  fun _ he => nomatch he

theorem RunError.IsOrdinary.goesWell {e : RunError} (h : e.IsOrdinary) :
    GoesWell (.error e : Except RunError α) := by
  intro e' he'
  rw [← Except.error.inj he']
  exact h

theorem GoesWell.bind {x : Except RunError α} {f : α → Except RunError β} (hx : GoesWell x)
    (hf : ∀ a, x = .ok a → GoesWell (f a)) : GoesWell (x >>= f) := by
  cases x with
  | error e => exact (hx e rfl).goesWell
  | ok a => exact hf a rfl

theorem GoesWell.map {x : Except RunError α} (hx : GoesWell x) (f : α → β) :
    GoesWell (x.map f) := by
  cases x with
  | error e => exact (hx e rfl).goesWell
  | ok a => exact goesWell_ok (f a)

end

namespace Graph

variable {g g' : Graph} {p : Node} {target : Target} {entity : String} {rows : List Row}

theorem HasTable.exists_rowsOf (h : g.HasTable target.entity) :
    ∃ rows, g.rowsOf target = .ok rows := by
  obtain ⟨rows, hrows⟩ := h.exists_find target.filter
  exact ⟨rows, mapError_eq_ok_iff.2 hrows⟩

theorem HasTable.goesWell_rowsOf (h : g.HasTable target.entity) : GoesWell (g.rowsOf target) := by
  obtain ⟨rows, hrows⟩ := h.exists_rowsOf
  rw [hrows]
  exact goesWell_ok rows

theorem HasTable.goesWell_resolve (h : g.HasTable target.entity) :
    GoesWell (g.resolve target) := by
  apply h.goesWell_rowsOf.bind
  intro rows _
  match rows with
  | [] => exact (RunError.IsOrdinary.notFound target).goesWell
  | [row] => exact goesWell_ok _
  | _ :: _ :: _ => exact (RunError.IsOrdinary.ambiguous target _).goesWell

theorem goesWell_authorize (g : Graph) (p : Node) (action : Verb) (resource : Node) (row : Row)
    (ownerField : String) : GoesWell (g.authorize p action resource row ownerField) := by
  rw [authorize]
  by_cases h : (g.verdict p Schema.adminPermission resource row ownerField).allowed
  · rw [if_pos h]
    exact goesWell_ok ()
  · rw [if_neg h]
    exact (RunError.IsOrdinary.forbidden p action resource).goesWell

theorem goesWell_guardRows (g : Graph) (p : Node) (action : Verb) (entity ownerField : String)
    (rows : List Row) : GoesWell (g.guardRows p action entity ownerField rows) := by
  induction rows with
  | nil => exact goesWell_ok ()
  | cons row rest ih => exact (g.goesWell_authorize p action _ row ownerField).bind fun _ _ => ih

theorem goesWell_delegate {access : Access} (hsubject : g.HasTable access.subject.entity)
    (hresource : g.HasTable access.resource.entity) (action : Verb) :
    GoesWell (g.delegate p action access) := by
  refine hsubject.goesWell_resolve.bind fun _ _ => ?_
  refine hresource.goesWell_resolve.bind fun _ _ => ?_
  exact (g.goesWell_authorize p action _ _ _).bind fun _ _ => goesWell_ok _

/-- Fields can be written of a row that is there. -/
theorem exists_updateFields {id : String} {row : Row} (h : g.row? ⟨entity, id⟩ = some row)
    (values : List (String × Value)) : ∃ g', g.updateFields entity id values = .ok g' := by
  obtain ⟨t, ht, hrow⟩ := Option.bind_eq_some_iff.1 h
  refine exists_bind_eq_ok_iff.2 ⟨t, table_eq_ok_iff.2 ht, ?_⟩
  simp only [hrow]
  exact ⟨_, rfl⟩

/-- **Rows that are there can be written**, one after another. -/
theorem exists_updateRows (values : List (String × Value))
    (h : ∀ row ∈ rows, (g.row? ⟨entity, row.id⟩).isSome) :
    ∃ g', updateRows entity values rows g = .ok g' := by
  induction rows generalizing g with
  | nil => exact ⟨g, rfl⟩
  | cons row rest ih =>
    obtain ⟨hrow, hrest⟩ := List.forall_mem_cons.1 h
    obtain ⟨stored, hstored⟩ := Option.isSome_iff_exists.1 hrow
    obtain ⟨middle, hmiddle⟩ := exists_updateFields hstored values
    refine exists_bind_eq_ok_iff.2 ⟨middle, mapError_eq_ok_iff.2 hmiddle, ih ?_⟩
    intro row' hmem
    rw [(updateFields_eq_ok hmiddle).2]
    by_cases hnode : (⟨entity, row'.id⟩ : Node) = ⟨entity, row.id⟩
    · rw [if_pos hnode, Option.isSome_map]
      exact hrest row' hmem
    · rw [if_neg hnode]
      exact hrest row' hmem

theorem goesWell_update (hg : g.Keyed) (h : g.HasTable target.entity)
    (assignments : List Assignment) (owner : Option String) :
    GoesWell (g.update p target assignments owner) := by
  refine h.goesWell_rowsOf.bind fun rows hrows => ?_
  have hwrite : GoesWell (do
      let g ← updateRows target.entity (assignments.map fun a => (a.field, a.value)) rows g
      return (Outcome.updated target.entity rows.length, g)) := by
    have hfiled : ∀ row ∈ rows, (g.row? ⟨target.entity, row.id⟩).isSome := by
      intro row hrow
      exact Option.isSome_of_eq_some (hg.row?_of_mem_find (rowsOf_eq_ok_iff.1 hrows) hrow)
    obtain ⟨g', hg'⟩ := exists_updateRows (assignments.map fun a => (a.field, a.value)) hfiled
    rw [hg']
    exact goesWell_ok _
  cases owner with
  | none => exact hwrite
  | some field => exact (g.goesWell_guardRows p _ _ field rows).bind fun _ _ => hwrite

theorem goesWell_delete (h : g.HasTable target.entity) (kind : EntityKind)
    (owner : Option String) : GoesWell (g.delete p target kind owner) := by
  have hwrite : GoesWell (do
      let r ← (g.deleteRows target.entity target.filter (Evaluation.cascade kind)).mapError .store
      return (Outcome.deleted target.entity r.1, r.2)) := by
    obtain ⟨t, ht⟩ := h
    rw [deleteRows, ht]
    exact goesWell_ok _
  cases owner with
  | none => exact hwrite
  | some field =>
    refine h.goesWell_rowsOf.bind fun rows _ => ?_
    exact (g.goesWell_guardRows p _ _ field rows).bind fun _ _ => hwrite

end Graph

theorem Assignment.checkTypes_eq_ok_iff {entity : String} {assignments : List Assignment} :
    checkTypes entity assignments = .ok () ↔
      ∀ a ∈ assignments, a.value.conformsTo a.fieldType = true := by
  induction assignments with
  | nil => simp [checkTypes]
  | cons a rest ih =>
    rw [checkTypes, List.forall_mem_cons, ← ih]
    split
    · next ha => simp [ha]
    · next ha => simp [ha]

theorem GoesWell.transact {α : Type} {m : Memory}
    {change : Graph → Except RunError (α × Graph)} (hm : m.busy = false)
    (h : GoesWell (change m.published)) : GoesWell (m.transact change) := by
  rw [Memory.transact, hm]
  exact h

/-- An entity that a schema declares has a table in a graph that houses the schema. -/
theorem Graph.Houses.hasTable {schema : Schema} {g : Graph} (h : g.Houses schema) {name : String}
    (hname : (schema.entity? name).isSome) : g.HasTable name := by
  obtain ⟨e, he⟩ := Option.isSome_iff_exists.1 hname
  rw [← Schema.name_of_entity? he]
  exact h e (List.mem_of_find?_eq_some he)

/-- **Progress**: typed operations that fit the schema do not go wrong. -/
theorem Operation.goesWell_effect {schema : Schema} {m : Memory} {op : Operation}
    (hidle : m.busy = false) (hkeyed : m.published.Keyed) (hhouses : m.published.Houses schema)
    (hfits : op.Fits schema) (htyped : op.IsTyped schema) (now : Instant) (p : Node) :
    GoesWell (op.effect now p m) := by
  -- Both sides of an access name entities of the schema, and these have tables.
  have haccess : ∀ {access : Access}, access.Fits schema →
      m.published.HasTable access.subject.entity ∧
        m.published.HasTable access.resource.entity := by
    intro access hfits
    obtain ⟨e, he, -⟩ := hfits.subject
    obtain ⟨e', he', -⟩ := Schema.exists_ownerField?_iff.1 ⟨_, hfits.resource⟩
    exact ⟨hhouses.hasTable (Option.isSome_of_eq_some he),
      hhouses.hasTable (Option.isSome_of_eq_some he')⟩
  cases op with
  | get target projection =>
    have hrows := (hhouses.hasTable hfits).goesWell_rowsOf
    exact (hrows.bind fun _ _ => goesWell_ok _).map _
  | check access =>
    obtain ⟨hsubject, hresource⟩ := haccess hfits
    refine GoesWell.map (hsubject.goesWell_resolve.bind fun _ _ => ?_) _
    exact hresource.goesWell_resolve.bind fun _ _ => goesWell_ok _
  | grant access =>
    obtain ⟨hsubject, hresource⟩ := haccess hfits
    apply GoesWell.transact hidle
    exact (Graph.goesWell_delegate hsubject hresource .grant).bind fun _ _ => goesWell_ok _
  | revoke access =>
    obtain ⟨hsubject, hresource⟩ := haccess hfits
    apply GoesWell.transact hidle
    exact (Graph.goesWell_delegate hsubject hresource .revoke).bind fun _ _ => goesWell_ok _
  | update target assignments owner =>
    have hconform : ∀ a ∈ assignments, a.value.conformsTo a.fieldType = true := by
      obtain ⟨e, -, -, htyped⟩ := htyped
      intro a ha
      obtain ⟨f, -, -, htype, hvalue⟩ := htyped a ha
      rw [← htype]
      exact hvalue
    rw [effect, Assignment.checkTypes_eq_ok_iff.2 hconform]
    apply GoesWell.transact hidle
    exact Graph.goesWell_update hkeyed (hhouses.hasTable hfits.1) assignments owner
  | delete target kind owner =>
    obtain ⟨⟨e, he, -⟩, -⟩ := hfits
    apply GoesWell.transact hidle
    exact Graph.goesWell_delete (hhouses.hasTable (Option.isSome_of_eq_some he)) kind owner

/-! ## Preservation -/

/-- What holds of the value of a field still does after fields have been written, if it holds of
    everything that was written to this one. -/
theorem Row.value_setAll {P : Value → Prop} {row : Row} {values : List (String × Value)}
    {name : String} (hrow : P (row.value name)) (hvalues : ∀ b ∈ values, b.1 = name → P b.2) :
    P ((row.setAll values).value name) := by
  induction values generalizing row with
  | nil => exact hrow
  | cons b rest ih =>
    obtain ⟨hb, hrest⟩ := List.forall_mem_cons.1 hvalues
    refine ih ?_ hrest
    rw [value, get?_set]
    by_cases h : b.1 = name ∧ b.1 ≠ idField
    · rw [if_pos h]
      exact hb h.1
    · rw [if_neg h]
      exact hrow

theorem Row.value_iterate_setAll {P : Value → Prop} {values : List (String × Value)}
    {name : String} (hvalues : ∀ b ∈ values, b.1 = name → P b.2) (n : Nat) (row : Row)
    (hrow : P (row.value name)) : P (((Row.setAll · values)^[n] row).value name) := by
  induction n generalizing row with
  | zero => exact hrow
  | succ n ih =>
    rw [Function.iterate_succ_apply]
    exact ih _ (value_setAll hrow hvalues)

/-- **Every row of a graph has values of the declared types.** A missing field reads as null, which
    every field may hold. -/
def Graph.Conforms (schema : Schema) (g : Graph) : Prop :=
  ∀ e ∈ schema.entities, ∀ f ∈ e.fields, ∀ id row, g.row? ⟨e.name, id⟩ = some row →
    (row.value f.name).conformsTo f.type = true

/-- Whether a graph conforms is seen row by row. -/
theorem Graph.conforms_iff {schema : Schema} {g : Graph} : g.Conforms schema ↔
    ∀ e ∈ schema.entities, ∀ f ∈ e.fields, ∀ t ∈ g.tables.toList, t.1 = e.name →
      ∀ b ∈ t.2.toList, (b.2.value f.name).conformsTo f.type = true := by
  constructor
  · intro h e he f hf t ht hname b hb
    rw [SortedMap.mem_toList_iff] at ht hb
    refine h e he f hf b.1 b.2 ?_
    rw [← hname, row?, ht, Option.bind_some, hb]
  · intro h e he f hf id row hrow
    obtain ⟨t, ht, hrow⟩ := Option.bind_eq_some_iff.1 hrow
    exact h e he f hf (e.name, t) (SortedMap.mem_toList_iff.2 ht) rfl (id, row)
      (SortedMap.mem_toList_iff.2 hrow)

instance {schema : Schema} {g : Graph} : Decidable (g.Conforms schema) :=
  decidable_of_iff' _ Graph.conforms_iff

/-- Values of the declared types may be written to any rows. -/
theorem Graph.Conforms.updateRows {schema : Schema} {g g' : Graph} {entity : String}
    {values : List (String × Value)} {rows : List Row} (h : g.Conforms schema)
    (hvalues : ∀ e ∈ schema.entities, e.name = entity → ∀ f ∈ e.fields, ∀ b ∈ values,
      b.1 = f.name → b.2.conformsTo f.type = true)
    (hwrite : Graph.updateRows entity values rows g = .ok g') : g'.Conforms schema := by
  intro e he f hf id row' hrow'
  rw [(updateRows_eq_ok hwrite).2] at hrow'
  obtain ⟨row, hrow, rfl⟩ := Option.map_eq_some_iff.1 hrow'
  have hbefore := h e he f hf id row hrow
  by_cases hname : e.name = entity
  · exact Row.value_iterate_setAll (P := fun v => v.conformsTo f.type = true)
      (hvalues e he hname f hf) _ row hbefore
  · have hzero : timesWritten entity rows ⟨e.name, id⟩ = 0 := by
      apply List.countP_eq_zero.2
      intro row _
      simp [Ne.symm hname]
    rw [hzero]
    exact hbefore

/-- **Preservation**: typed operations keep values of the declared types. -/
theorem Graph.Conforms.step {schema : Schema} (hs : schema.IsSound) {g g' : Graph} {now : Instant}
    {p : Node} {op : Operation} (h : g.Conforms schema) (htyped : op.IsTyped schema)
    (hstep : g.Step now p op g') : g'.Conforms schema := by
  cases hstep with
  | get | check => exact h
  | grant | revoke => exact h
  | update _ _ hwrite =>
    refine h.updateRows ?_ hwrite
    intro e he hname f hf b hb hfield
    obtain ⟨e', he', htarget, hassigned⟩ := htyped
    obtain rfl : e = e' := List.inj_on_of_nodup_map hs.nodup he he' (hname.trans htarget.symm)
    obtain ⟨a, ha, rfl⟩ := List.mem_map.1 hb
    obtain ⟨f', hf', hname', -, hvalue⟩ := hassigned a ha
    obtain rfl := (hs.entities e he).eq_of_name_eq hf' hf (hname'.trans hfield)
    exact hvalue
  | delete _ hwrite =>
    intro e he f hf id row' hrow'
    rw [(deleteRows_eq_ok hwrite).1] at hrow'
    split at hrow'
    · exact nomatch hrow'
    · exact h e he f hf id row' hrow'

end Warrant
