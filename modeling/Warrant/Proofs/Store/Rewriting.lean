import Warrant.Proofs.Effect.Progress
import Warrant.Proofs.Store.Deletion

/-!
# What UPDATE does

A statement of UPDATE may write the very fields that it asks for, or that say who owns a row. That
makes no difference: the rows are found and guarded before the first of them is written, and each of
them is written once. This module says what comes of it, and nothing of the way: if one of the rows
that the statement means is protected, nothing happens, and otherwise these rows have the values that
are assigned, and all else is as it was.

## Main definitions

- `Row.Rewrites` — a row is another one but for the fields that some settings assign
- `Graph.Rewrites` — a graph is another one but for such rows

## Main statements

- `Graph.rewrites_of_updateRows` — what becomes of a graph when some rows are written
- `Memory.Built.attempt_update` — the exact effect of UPDATE
-/

namespace Warrant

open Bytes

/-! ## Rows -/

namespace Row

variable {row : Row} {values : List (String × Value)} {name : String} {v : Value}

theorem get?_setAll_of_not_mem (h : name ∉ values.map Prod.fst) :
    (row.setAll values).get? name = row.get? name := by
  induction values generalizing row with
  | nil => rfl
  | cons b rest ih =>
    obtain ⟨hfirst, hrest⟩ := not_or.1 fun hmem => h (List.mem_cons.2 hmem)
    refine (ih hrest).trans ?_
    rw [get?_set, if_neg fun hset => hfirst hset.1.symm]

/-- A field that is written once has the value that was written. -/
theorem get?_setAll_of_mem (hnodup : (values.map Prod.fst).Nodup) (h : (name, v) ∈ values)
    (hname : name ≠ idField) : (row.setAll values).get? name = some v := by
  induction values generalizing row with
  | nil => exact nomatch h
  | cons b rest ih =>
    obtain ⟨hfirst, hrest⟩ := List.nodup_cons.1 hnodup
    rcases List.mem_cons.1 h with rfl | h
    · refine (get?_setAll_of_not_mem hfirst).trans ?_
      rw [get?_set, if_pos ⟨rfl, hname⟩]
    · exact ih hrest h

/-- A field that an equality finds to be a text holds it. -/
theorem text?_of_agrees {text : String} (h : (row.value name).agrees (.string text) = true) :
    row.text? name = some text := by
  rw [text?, value_eq_string_iff.1 (Value.agrees_string_iff.1 h)]
  rfl

/-- **A row is rewritten by some settings**: the fields that these assign have the values that the
    literals denote, and the others are as they were. -/
structure Rewrites (actorId : String) (e : Entity) (settings : List Setting) (row row' : Row) :
    Prop where
  id : row'.id = row.id
  assigned : ∀ setting ∈ settings, ∃ f ∈ e.fields, f.name = setting.field ∧
    ∃ v, setting.value.Denotes actorId f.type v ∧ row'.get? setting.field = some v
  kept : ∀ name, (∀ setting ∈ settings, setting.field ≠ name) → row'.get? name = row.get? name

end Row

/-- The fields and values that some assignments write. -/
abbrev Assignment.values (assignments : List Assignment) : List (String × Value) :=
  assignments.map fun a => (a.field, a.value)

theorem Setting.map_field_eq {actorId : String} {e : Entity} {settings : List Setting}
    {found : List Assignment} (h : List.Forall₂ (Setting.Denotes actorId e) settings found) :
    settings.map (·.field) = (Assignment.values found).map Prod.fst := by
  induction h with
  | nil => rfl
  | cons hfirst _ ih =>
    obtain ⟨hf, hname, hv⟩ := hfirst
    exact congrArg _ ih

theorem Setting.exists_of_mem {actorId : String} {e : Entity} {settings : List Setting}
    {found : List Assignment} (h : List.Forall₂ (Setting.Denotes actorId e) settings found)
    {setting : Setting} (hsetting : setting ∈ settings) :
    ∃ a ∈ found, setting.Denotes actorId e a := by
  induction h with
  | nil => exact nomatch hsetting
  | cons hfirst _ ih =>
    rcases List.mem_cons.1 hsetting with rfl | hsetting
    · exact ⟨_, List.mem_cons_self, hfirst⟩
    · obtain ⟨a, ha, hdenotes⟩ := ih hsetting
      exact ⟨a, List.mem_cons_of_mem _ ha, hdenotes⟩

/-- Assignments to different fields do what their settings say. -/
theorem Row.rewrites_setAll {actorId : String} {e : Entity} {settings : List Setting}
    {found : List Assignment} (hnodup : (settings.map (·.field)).Nodup)
    (h : List.Forall₂ (Setting.Denotes actorId e) settings found) (row : Row) :
    row.Rewrites actorId e settings (row.setAll (Assignment.values found)) := by
  have hfields := Setting.map_field_eq h
  refine ⟨row.id_setAll _, fun setting hsetting => ?_, fun name hname => ?_⟩
  · obtain ⟨a, ha, hf, hid, hv⟩ := Setting.exists_of_mem h hsetting
    refine ⟨_, hf, rfl, _, hv, get?_setAll_of_mem (hfields ▸ hnodup) ?_ hid⟩
    exact List.mem_map_of_mem ha
  · apply get?_setAll_of_not_mem
    rw [← hfields, List.mem_map]
    rintro ⟨setting, hsetting, rfl⟩
    exact hname setting hsetting rfl

/-! ## Graphs -/

namespace Graph

variable {g g' : Graph} {p : Node} {e : Entity} {entity name : String} {rows : List Row}
  {values : List (String × Value)} {settings : List Setting} {actorId : String}

/-- **Some rows of an entity are rewritten**, and all else is as it was: the other rows, the other
    tables and the edges. -/
structure Rewrites (actorId : String) (e : Entity) (settings : List Setting) (rows : List Row)
    (g g' : Graph) : Prop where
  rewritten : ∀ row ∈ rows, ∃ row', g'.row? ⟨e.name, row.id⟩ = some row' ∧
    row.Rewrites actorId e settings row'
  kept : ∀ node, (∀ row ∈ rows, node ≠ ⟨e.name, row.id⟩) → g'.row? node = g.row? node
  hasTable : g'.HasTable e.name
  tables : ∀ name, name ≠ e.name → g'.table name = g.table name
  edges : g'.edges = g.edges

theorem table_updateFields_of_ne {id : String} (h : g.updateFields entity id values = .ok g')
    (hname : name ≠ entity) : g'.table name = g.table name := by
  obtain ⟨t, ht, h⟩ := bind_eq_ok_iff.1 h
  cases hrow : t.get? id with
  | none =>
    simp only [hrow] at h
    exact nomatch h
  | some row =>
    simp only [hrow] at h
    rw [← Except.ok.inj h, table_withTable, if_neg hname]

theorem table_updateRows_of_ne (h : updateRows entity values rows g = .ok g')
    (hname : name ≠ entity) : g'.table name = g.table name := by
  induction rows generalizing g with
  | nil => rw [Except.ok.inj h]
  | cons row rest ih =>
    obtain ⟨middle, hmiddle, h⟩ := bind_eq_ok_iff.1 h
    rw [ih h, table_updateFields_of_ne (mapError_eq_ok_iff.1 hmiddle) hname]

/-- Rows that differ in their identities are written once each. -/
theorem timesWritten_of_mem (hrows : rows.Pairwise fun r r' => compare r.id r'.id = .lt)
    {row : Row} (hrow : row ∈ rows) : timesWritten entity rows ⟨entity, row.id⟩ = 1 := by
  have hnodup : (rows.map Row.id).Nodup := by
    refine List.pairwise_map.2 (hrows.imp fun hlt heq => ?_)
    rw [heq] at hlt
    exact nomatch hlt.symm.trans Std.ReflCmp.compare_self
  have hcount : timesWritten entity rows ⟨entity, row.id⟩ = (rows.map Row.id).count row.id := by
    rw [timesWritten, List.count_eq_countP, List.countP_map]
    refine List.countP_congr fun r _ => ?_
    simp
  rw [hcount]
  exact List.count_eq_one_of_mem hnodup (List.mem_map_of_mem hrow)

/-- **What becomes of a graph when rows that were found are written**: each of them is rewritten,
    and all else is as it was. -/
theorem rewrites_of_updateRows {found : List Assignment} {filter : Filter} (hg : g.Keyed)
    (hrows : g.find e.name filter = .ok rows) (hnodup : (settings.map (·.field)).Nodup)
    (hfound : List.Forall₂ (Setting.Denotes actorId e) settings found)
    (h : updateRows e.name (Assignment.values found) rows g = .ok g') :
    Rewrites actorId e settings rows g g' := by
  obtain ⟨t, ht, -⟩ := find_eq_ok hrows
  refine ⟨fun row hrow => ?_, fun node hnode => ?_, (hasTable_updateRows_iff h).2 ⟨t, ht⟩,
    fun name hname => table_updateRows_of_ne h hname, (updateRows_eq_ok h).1⟩
  · refine ⟨row.setAll (Assignment.values found), ?_, row.rewrites_setAll hnodup hfound⟩
    rw [(updateRows_eq_ok h).2, hg.row?_of_mem_find hrows hrow,
      timesWritten_of_mem (hg.pairwise_find hrows) hrow]
    rfl
  · exact row?_updateRows_of_not_mem h fun row hrow => (hnode row hrow).symm

theorem update_eq_error {target : Target} {assignments : List Assignment} {field : String}
    {err : RunError} (hrows : g.find target.entity target.filter = .ok rows)
    (h : g.guardRows p .update target.entity field rows = .error err) :
    update p target assignments (some field) g = .error err := by
  unfold update
  simp only [rowsOf_eq_ok_iff.2 hrows, h, bind, Except.bind]

theorem update_eq_ok {target : Target} {assignments : List Assignment} {owner : Option String}
    (hrows : g.find target.entity target.filter = .ok rows)
    (hguard : ∀ field ∈ owner, g.guardRows p .update target.entity field rows = .ok ())
    (h : updateRows target.entity (Assignment.values assignments) rows g = .ok g') :
    update p target assignments owner g = .ok (.updated target.entity rows.length, g') := by
  unfold update
  cases owner with
  | none =>
    simp only [rowsOf_eq_ok_iff.2 hrows, h, bind, Except.bind, pure, Except.pure]
  | some field =>
    simp only [rowsOf_eq_ok_iff.2 hrows, hguard field rfl, h, bind, Except.bind, pure, Except.pure]

/-- If a row is protected, nothing is written, and the first such row is named. -/
theorem Keyed.update_of_protected (hg : g.Keyed) {filter : Filter}
    (hrows : g.find e.name filter = .ok rows) (assignments : List Assignment)
    (h : ∃ row ∈ rows, g.Protects p e row) :
    ∃ row ∈ rows, g.Protects p e row ∧
      (∀ row' ∈ rows, g.Protects p e row' → row' = row ∨ compare row.id row'.id = .lt) ∧
      update p ⟨e.name, filter⟩ assignments e.effectiveOwnerField g =
        .error (.forbidden p .update ⟨e.name, row.id⟩) := by
  obtain ⟨field, hfield, row, hrow, hprotects, hfirst, herr⟩ :=
    hg.guardRows_of_protected hrows .update h
  refine ⟨row, hrow, hprotects, hfirst, ?_⟩
  rw [Option.mem_def.1 hfield]
  exact update_eq_error hrows herr

/-- If no row is protected, the rows that are found are rewritten. -/
theorem Keyed.update_of_free (hg : g.Keyed) {filter : Filter} {found : List Assignment}
    (hrows : g.find e.name filter = .ok rows) (hnodup : (settings.map (·.field)).Nodup)
    (hfound : List.Forall₂ (Setting.Denotes actorId e) settings found)
    (h : ∀ row ∈ rows, ¬ g.Protects p e row) :
    ∃ g', update p ⟨e.name, filter⟩ found e.effectiveOwnerField g =
      .ok (.updated e.name rows.length, g') ∧ Rewrites actorId e settings rows g g' := by
  obtain ⟨g', hwrite⟩ := exists_updateRows (Assignment.values found) fun row hrow =>
    Option.isSome_of_eq_some (hg.row?_of_mem_find hrows hrow)
  refine ⟨g', update_eq_ok hrows (fun field hfield => ?_) hwrite,
    rewrites_of_updateRows hg hrows hnodup hfound hwrite⟩
  exact guardRows_of_free .update h hfield

end Graph

/-! ## The effect of UPDATE -/

/-- The plan of UPDATE has a filter that selects what the statement means, assignments that do what
    its settings say, each to another field, and the owner field of the entity. -/
theorem Statement.resolve_update {schema : Schema} (hs : schema.IsSound) {p : Principal}
    {ref : Reference} {settings : List Setting} {clause : Option Condition} {plan : Plan}
    (h : (Statement.update ref settings clause).resolve schema p = .ok plan) :
    ∃ e ∈ schema.entities, e.name = ref.entity ∧ ∃ filter found,
      plan = ⟨schema.fingerprint, p, .update ⟨e.name, filter⟩ found e.effectiveOwnerField⟩ ∧
      (settings.map (·.field)).Nodup ∧ List.Forall₂ (Setting.Denotes p.id e) settings found ∧
      ∀ row : Row, row.Faithful → (filter.selects row = true ↔ ref.Means p e clause row) := by
  obtain ⟨s, hscope, h⟩ := bind_eq_ok_iff.1 h
  obtain ⟨rfl, rfl, -, -⟩ := (Scope.ofPrincipal_eq_ok_iff hs).1 hscope
  obtain ⟨op, hop, h⟩ := bind_eq_ok_iff.1 h
  obtain ⟨⟨e, target⟩, hrows, hop⟩ := bind_eq_ok_iff.1 hop
  obtain ⟨found, hfound, hop⟩ := bind_eq_ok_iff.1 hop
  obtain ⟨hmem, hname, filter, rfl, hfilter⟩ := Scope.exists_of_rows hs hrows
  obtain ⟨hnew, hfound⟩ := (Scope.assignments_eq_ok_iff (hs.entities e hmem)).1 hfound
  refine ⟨e, hmem, hname, filter, found, ?_, areNew_nil_iff.1 hnew, hfound, hfilter⟩
  rw [← Except.ok.inj h, ← Except.ok.inj hop]

/-- When no transaction is open and the values fit, UPDATE changes the published graph. -/
theorem Plan.effect_update {m : Memory} (hm : m.busy = false) {now : Instant} {version : UInt32}
    {p : Principal} {target : Target} {assignments : List Assignment} {owner : Option String}
    (htypes : ∀ a ∈ assignments, a.value.conformsTo a.fieldType = true) :
    Plan.effect now ⟨version, p, .update target assignments owner⟩ p m =
      Graph.update p.node target assignments owner m.published := by
  have hchecked : Assignment.checkTypes target.entity assignments = .ok () :=
    Assignment.checkTypes_eq_ok_iff.2 htypes
  simp [Plan.effect, Operation.effect, Memory.transact, hm, hchecked, bind, Except.bind]

namespace Memory

variable {schema : Schema} {m : Memory} {p : Principal} {ref : Reference}
  {settings : List Setting} {clause : Option Condition} {plan : Plan}

/-- **The exact effect of UPDATE.** Which rows the statement means, and which of them are protected,
    is judged by the graph before, whatever is written. If one is protected, nothing changes, and the
    failure names the first such row in the order of the bytes of their identities. Otherwise all
    of them are rewritten, and nothing else changes. -/
theorem Built.attempt_update (hschema : schema.validate = .ok ()) (hm : m.Built schema)
    (hplan : (Statement.update ref settings clause).resolve schema p = .ok plan) (now : Instant) :
    let run := m.attempt Watch.never () (plan.execute now p).run
    ∃ e ∈ schema.entities, e.name = ref.entity ∧ ∃ rows : List Row,
      rows.Pairwise (fun row row' => ofString row.id < ofString row'.id) ∧
      (∀ row, row ∈ rows ↔
        m.published.row? ⟨e.name, row.id⟩ = some row ∧ ref.Means p e clause row) ∧
      ((∃ row ∈ rows, m.published.Protects p.node e row) →
        ∃ row ∈ rows, m.published.Protects p.node e row ∧
          (∀ row' ∈ rows, m.published.Protects p.node e row' →
            row' = row ∨ ofString row.id < ofString row'.id) ∧
          run.1 = .error (.forbidden p.node .update ⟨e.name, row.id⟩) ∧ run.2.memory = m) ∧
      ((∀ row ∈ rows, ¬ m.published.Protects p.node e row) →
        run.1 = .ok (.updated e.name rows.length) ∧
          ∃ g', run.2.memory = { m with published := g' } ∧
            Graph.Rewrites p.id e settings rows m.published g') := by
  intro run
  obtain ⟨e, he, hname, filter, found, rfl, hnodup, hfound, hfilter⟩ :=
    Statement.resolve_update (Schema.isSound_of_validate hschema) hplan
  have hg := hm.faithful
  obtain ⟨rows, hrows⟩ := (hm.houses e he).exists_find filter
  have hmeant (row : Row) : row ∈ rows ↔
      m.published.row? ⟨e.name, row.id⟩ = some row ∧ ref.Means p e clause row := by
    rw [hg.mem_find_iff hrows]
    exact and_congr_right fun hrow => hfilter row (hg _ row hrow).2
  -- Literals were read as values of the declared types, so the check of the plan finds nothing.
  have htypes (a : Assignment) (ha : a ∈ found) : a.value.conformsTo a.fieldType = true := by
    obtain ⟨f, -, -, htype, hvalue⟩ := Setting.forall_assignment_isTyped hfound a ha
    rwa [← htype]
  refine ⟨e, he, hname, rows, (hg.keyed.pairwise_find hrows).imp ofString_lt_of_compare, hmeant,
    fun hprotected => ?_, fun hfree => ?_⟩
  · obtain ⟨row, hrow, hprotects, hfirst, hupdate⟩ :=
      hg.keyed.update_of_protected hrows found hprotected
    refine ⟨row, hrow, hprotects, fun row' hrow' h => ?_,
      Plan.attempt_never_of_error ((Plan.effect_update hm.idle htypes).trans hupdate)⟩
    exact (hfirst row' hrow' h).imp id ofString_lt_of_compare
  · obtain ⟨g', hupdate, hrewrites⟩ := hg.keyed.update_of_free hrows hnodup hfound hfree
    obtain ⟨hr, hmem⟩ :=
      Plan.attempt_never_of_ok ((Plan.effect_update hm.idle htypes).trans hupdate)
    exact ⟨hr, g', hmem, hrewrites⟩

/-- alice gives away what she owns. What she asks for is what she writes, and that it is no longer
    hers afterwards makes no difference. -/
theorem Built.attempt_update_given :
    let alice : Principal := ⟨"User", "alice"⟩
    let owned : Condition := .compare "owner" .equal .self
    ∃ (m : Memory) (now : Instant) (plan : Plan) (count : Nat) (row : Row),
      (Memory.ofSchema .standard).insertRows "Resource"
        [.ofFields "doc" [("owner", .string "alice")],
          .ofFields "memo" [("owner", .string "bob")]] = .ok m ∧
      (Statement.update ⟨"Resource", .conditions owned⟩ [⟨"owner", .string "bob"⟩] none).resolve
        .standard alice = .ok plan ∧
      let run := m.attempt Watch.never () (plan.execute now alice).run
      run.1 = .ok (.updated "Resource" count) ∧
        run.2.memory.published.row? ⟨"Resource", "doc"⟩ = some row ∧
        row.get? "owner" = some (.string "bob") := by
  intro alice owned
  let now : Instant := ⟨⟨2024, 1, 1, by decide, by decide⟩, 0, 0, by decide, by decide, by decide⟩
  obtain ⟨m, hm, hrow⟩ : ∃ m,
      (Memory.ofSchema .standard).insertRows "Resource"
        [.ofFields "doc" [("owner", .string "alice")],
          .ofFields "memo" [("owner", .string "bob")]] = .ok m ∧
      m.published.row? ⟨"Resource", "doc"⟩ = some (.ofFields "doc" [("owner", .string "alice")]) :=
    ⟨_, rfl, by decide +kernel⟩
  obtain ⟨plan, hplan⟩ : ∃ plan,
      (Statement.update ⟨"Resource", .conditions owned⟩ [⟨"owner", .string "bob"⟩] none).resolve
        .standard alice = .ok plan := ⟨_, rfl⟩
  have hbuilt : m.Built .standard :=
    @Built.inserted _ _ _ _ [("doc", [("owner", .string "alice")]),
      ("memo", [("owner", .string "bob")])] .start hm
  obtain ⟨e, he, hname, rows, -, hrows, -, hfree⟩ :=
    Built.attempt_update Schema.validate_standard hbuilt hplan now
  -- The statement is about resources, whose owner field is the one that stands for none declared.
  obtain ⟨howner, ⟨f, hf, hfield⟩, htype⟩ : e.ownerField.getD Entity.defaultOwnerField = "owner" ∧
      (∃ f ∈ e.fields, f.name = "owner") ∧
      ∀ f ∈ e.fields, f.name = "owner" → f.type = .string := by
    rcases List.mem_cons.1 he with rfl | he
    · exact absurd hname (by decide)
    · obtain rfl := List.mem_singleton.1 he
      exact ⟨rfl, by decide, by decide⟩
  rw [hname] at hrows hfree
  have hdoc : .ofFields "doc" [("owner", .string "alice")] ∈ rows := by
    refine (hrows _).2 ⟨hrow, .conditions ?_, nofun⟩
    change Condition.Holds _ _ _ (.compare "owner" .equal .self)
    rw [← hfield]
    refine .equal hf (v := .string "alice") ?_ ?_
    · rw [htype f hf hfield]
      exact .self
    · rw [hfield]
      decide +kernel
  -- Rows are judged before anything is written, and all that are found are hers then.
  have hmine (row : Row) (hmem : row ∈ rows) : ¬ m.published.Protects alice.node e row := by
    rintro ⟨-, -, hunowned⟩
    rw [howner] at hunowned
    obtain ⟨-, hselector, -⟩ := (hrows row).1 hmem
    cases hselector with
    | conditions hholds =>
      obtain ⟨f, hf, hfield, v, hv, hagrees⟩ := hholds.exists_of_equal
      rw [htype f hf hfield] at hv
      cases hv
      rw [hfield] at hagrees
      exact hunowned (Row.text?_of_agrees hagrees)
  obtain ⟨hok, g', hmem, hrewrites⟩ := hfree hmine
  obtain ⟨row, hrow', hrewritten⟩ := hrewrites.rewritten _ hdoc
  obtain ⟨f', hf', hfield', v, hv, hvalue⟩ := hrewritten.assigned _ List.mem_cons_self
  refine ⟨m, now, plan, rows.length, row, hm, hplan, hok, ?_, ?_⟩
  · rw [hmem]
    rw [hname] at hrow'
    exact hrow'
  · rw [htype f' hf' hfield'] at hv
    cases hv
    exact hvalue

end Memory

end Warrant
