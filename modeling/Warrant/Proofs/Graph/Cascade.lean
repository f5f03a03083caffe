import Warrant.Proofs.Graph.Rows
import Warrant.Proofs.Results

/-!
# Deleting rows

Deleting rows takes away the rows that a filter selects. What else goes is said by rules, which are
applied to the edges for every deleted row in turn. An edge that survives all of them has kept its
key and its time, and touches no deleted row on the side that the rules look at.

## Main definitions

- `Stamp.KeptAs` — a stamp has kept its time, and its grantor or none
- `CascadeRule.trim` — what a rule leaves of one edge
- `CascadeRule.Spares` — whether a rule leaves an edge
- `Graph.selectedIds` — the rows that are deleted

## Main statements

- `Graph.deleteRows_run` — a deletion step by step
- `Graph.deleteRows_eq_ok` — rows and edges after a deletion
- `Graph.findEdge_of_deleteRows` — what is known of an edge that survives
-/

namespace Warrant

/-! ## One edge -/

/-- An edge has kept its time, and its grantor unless it has forgotten it. -/
structure Stamp.KeptAs (before after : Stamp) : Prop where
  grantedAt : after.grantedAt = before.grantedAt
  grantedBy : after.grantedBy = before.grantedBy ∨ after.grantedBy = none

theorem Stamp.KeptAs.refl (stamp : Stamp) : stamp.KeptAs stamp :=
  ⟨rfl, .inl rfl⟩

theorem Stamp.KeptAs.trans {before middle after : Stamp} (h : before.KeptAs middle)
    (h' : middle.KeptAs after) : before.KeptAs after := by
  refine ⟨h'.grantedAt.trans h.grantedAt, ?_⟩
  rcases h'.grantedBy with hby | hby
  · rw [hby]
    exact h.grantedBy
  · exact .inr hby

namespace CascadeRule

/-- What a rule leaves of an edge when the row at a node is deleted. -/
def trim (node : Node) (key : EdgeKey) (stamp : Stamp) : CascadeRule → Option Stamp
  | .removeEdgesAsObject => if key.object = node then none else some stamp
  | .removeEdgesAsSubject => if key.subject = node then none else some stamp
  | .clearGrantor =>
    some (if stamp.grantedBy = some node then { stamp with grantedBy := none } else stamp)

/-- What rules leave of an edge, each for the deletion of a row. -/
def trimAll (key : EdgeKey) (steps : List (Node × CascadeRule)) (stamp : Stamp) : Option Stamp :=
  steps.foldlM (fun stamp step => step.2.trim step.1 key stamp) stamp

/-- A rule leaves an edge when the row at a node is deleted. -/
def Spares (node : Node) (key : EdgeKey) : CascadeRule → Prop
  | .removeEdgesAsObject => key.object ≠ node
  | .removeEdgesAsSubject => key.subject ≠ node
  | .clearGrantor => True

theorem trim_eq_some {node : Node} {key : EdgeKey} {stamp stamp' : Stamp} {rule : CascadeRule}
    (h : rule.trim node key stamp = some stamp') :
    rule.Spares node key ∧ stamp.KeptAs stamp' := by
  cases rule with
  | removeEdgesAsObject =>
    obtain ⟨hne, rfl⟩ : key.object ≠ node ∧ stamp = stamp' := by simpa [trim] using h
    exact ⟨hne, .refl stamp⟩
  | removeEdgesAsSubject =>
    obtain ⟨hne, rfl⟩ : key.subject ≠ node ∧ stamp = stamp' := by simpa [trim] using h
    exact ⟨hne, .refl stamp⟩
  | clearGrantor =>
    obtain rfl := Option.some.inj h
    refine ⟨trivial, ?_⟩
    split
    · exact ⟨rfl, .inr rfl⟩
    · exact .refl stamp

/-- **An edge that survives** has been spared by every rule and has kept its stamp. -/
theorem trimAll_eq_some {key : EdgeKey} {steps : List (Node × CascadeRule)} {stamp stamp' : Stamp}
    (h : trimAll key steps stamp = some stamp') :
    (∀ step ∈ steps, step.2.Spares step.1 key) ∧ stamp.KeptAs stamp' := by
  induction steps generalizing stamp with
  | nil =>
    obtain rfl := Option.some.inj h
    exact ⟨by simp, .refl stamp⟩
  | cons step rest ih =>
    obtain ⟨middle, hm, h⟩ : ∃ middle, step.2.trim step.1 key stamp = some middle ∧
        trimAll key rest middle = some stamp' := by
      simpa [trimAll, Option.bind_eq_some_iff] using h
    obtain ⟨hspares, hkept⟩ := trim_eq_some hm
    obtain ⟨hrest, hkept'⟩ := ih h
    exact ⟨List.forall_mem_cons.2 ⟨hspares, hrest⟩, hkept.trans hkept'⟩

end CascadeRule

namespace Graph

/-! ## All edges -/

/-- Keys that compare as equal are the same, so whatever is done to a binding treats them alike. -/
theorem alike {κ ν ω : Type} [Ord κ] [Std.LawfulEqOrd κ] (f : κ → ν → ω) (a b : κ) (v : ν)
    (h : compare a b = .eq) : f a v = f b v := by
  rw [Std.LawfulEqOrd.eq_of_compare h]

/-- A rule does to every edge what it does to one. -/
theorem get?_applyRule (node : Node) (state : SortedMap EdgeKey Stamp × DeleteReport)
    (rule : CascadeRule) (key : EdgeKey) :
    (applyRule node state rule).1.get? key =
      (state.1.get? key).bind fun stamp => rule.trim node key stamp := by
  obtain ⟨edges, report⟩ := state
  cases rule with
  | removeEdgesAsObject =>
    refine (SortedMap.get?_filter edges (alike _) key).trans ?_
    cases edges.get? key with
    | none => rfl
    | some stamp =>
      by_cases h : key.object = node <;> simp [Option.filter, CascadeRule.trim, h]
  | removeEdgesAsSubject =>
    refine (SortedMap.get?_filter edges (alike _) key).trans ?_
    cases edges.get? key with
    | none => rfl
    | some stamp =>
      by_cases h : key.subject = node <;> simp [Option.filter, CascadeRule.trim, h]
  | clearGrantor =>
    refine (SortedMap.get?_mapValues edges (alike _) key).trans ?_
    cases edges.get? key <;> rfl

/-- The rules to apply when rows are deleted, row by row. -/
def cascadeSteps (entity : String) (ids : List String) (cascade : List CascadeRule) :
    List (Node × CascadeRule) :=
  ids.flatMap fun id => cascade.map fun rule => (⟨entity, id⟩, rule)

theorem mem_cascadeSteps {entity id : String} {ids : List String} {cascade : List CascadeRule}
    {rule : CascadeRule} (hid : id ∈ ids) (hrule : rule ∈ cascade) :
    (⟨entity, id⟩, rule) ∈ cascadeSteps entity ids cascade :=
  List.mem_flatMap.2 ⟨id, hid, List.mem_map.2 ⟨rule, hrule, rfl⟩⟩

theorem get?_foldl_applyRule (steps : List (Node × CascadeRule))
    (state : SortedMap EdgeKey Stamp × DeleteReport) (key : EdgeKey) :
    (steps.foldl (fun state step => applyRule step.1 state step.2) state).1.get? key =
      (state.1.get? key).bind (CascadeRule.trimAll key steps) := by
  induction steps generalizing state with
  | nil =>
    rw [List.foldl_nil]
    cases state.1.get? key <;> rfl
  | cons step rest ih =>
    rw [List.foldl_cons, ih, get?_applyRule]
    cases state.1.get? key <;> rfl

variable {g g' : Graph} {entity : String} {filter : Filter} {cascade : List CascadeRule}
  {report : DeleteReport}

def selectedIds (g : Graph) (entity : String) (filter : Filter) : List String :=
  (((g.tables.get? entity).getD SortedMap.empty).values.filter filter.selects).map (·.id)

theorem Keyed.mem_selectedIds_iff (hg : g.Keyed) {id : String} :
    id ∈ g.selectedIds entity filter ↔
      ∃ row, g.row? ⟨entity, id⟩ = some row ∧ filter.selects row := by
  unfold selectedIds
  cases ht : g.tables.get? entity with
  | none => simp [row?, ht, SortedMap.values, SortedMap.empty]
  | some t =>
    have hrow? (id : String) : g.row? ⟨entity, id⟩ = t.get? id :=
      row?_of_table (table_eq_ok_iff.2 ht) id
    simp only [Option.getD_some, List.mem_map, List.mem_filter, SortedMap.mem_values_iff, hrow?]
    constructor
    · rintro ⟨row, ⟨⟨id', hrow⟩, hsel⟩, rfl⟩
      rw [← hrow?] at hrow
      have hself := hg.row?_self hrow
      rw [hrow?] at hself
      exact ⟨row, hself, hsel⟩
    · rintro ⟨row, hrow, hsel⟩
      refine ⟨row, ⟨⟨id, hrow⟩, hsel⟩, ?_⟩
      rw [← hrow?] at hrow
      exact hg _ _ hrow

/-- **How a deletion goes**: the selected rows are taken out of their table, and then the rules are
    applied to the edges, row by row. -/
theorem deleteRows_run (h : g.deleteRows entity filter cascade = .ok (report, g')) :
    ∃ t, g.table entity = .ok t ∧
      g'.tables = g.tables.insert entity
        ((g.selectedIds entity filter).foldl (fun t id => t.erase id) t) ∧
      (g'.edges, report) = (cascadeSteps entity (g.selectedIds entity filter) cascade).foldl
        (fun state step => applyRule step.1 state step.2)
        (g.edges, ⟨(g.selectedIds entity filter).length, 0, 0⟩) := by
  unfold deleteRows at h
  obtain ⟨t, ht, h⟩ := bind_eq_ok_iff.1 h
  have hids : g.selectedIds entity filter = (t.values.filter filter.selects).map (·.id) := by
    rw [selectedIds, table_eq_ok_iff.1 ht, Option.getD_some]
  rw [← hids] at h
  obtain ⟨hreport, rfl⟩ := Prod.mk.inj (Except.ok.inj h)
  refine ⟨t, ht, rfl, ?_⟩
  rw [cascadeSteps, List.foldl_flatMap, ← hreport]
  simp only [List.foldl_map]

/-- **What a deletion does**: the selected rows are gone, and every edge is trimmed by the rules. -/
theorem deleteRows_eq_ok (h : g.deleteRows entity filter cascade = .ok (report, g')) :
    (∀ node, g'.row? node =
      if node.entity = entity ∧ node.id ∈ g.selectedIds entity filter then none
      else g.row? node) ∧
    ∀ key, g'.edges.get? key = (g.edges.get? key).bind
      (CascadeRule.trimAll key (cascadeSteps entity (g.selectedIds entity filter) cascade)) := by
  obtain ⟨t, ht, htables, hrun⟩ := deleteRows_run h
  refine ⟨fun node => ?_, fun key => ?_⟩
  · obtain ⟨entity', id⟩ := node
    have hrow : g'.row? ⟨entity', id⟩ = (g.withTable entity
        ((g.selectedIds entity filter).foldl (fun t id => t.erase id) t)).row? ⟨entity', id⟩ := by
      rw [row?, htables]
      rfl
    rw [hrow, row?_withTable]
    by_cases he : entity' = entity
    · subst he
      rw [if_pos rfl, row?_of_table ht, SortedMap.get?_foldl_erase]
      simp
    · simp [he]
  · rw [← get?_foldl_applyRule _ (g.edges, ⟨(g.selectedIds entity filter).length, 0, 0⟩), ← hrun]

/-- **An edge that survives a deletion** was there before and has kept its stamp, and every rule has
    spared it for every deleted row. -/
theorem findEdge_of_deleteRows (h : g.deleteRows entity filter cascade = .ok (report, g'))
    {key : EdgeKey} {e' : Edge} (he' : g'.findEdge key = some e') :
    ∃ e, g.findEdge key = some e ∧ e.stamp.KeptAs e'.stamp ∧
      ∀ id ∈ g.selectedIds entity filter, ∀ rule ∈ cascade, rule.Spares ⟨entity, id⟩ key := by
  obtain ⟨stamp', hstamp', rfl⟩ := Option.map_eq_some_iff.1 he'
  rw [(deleteRows_eq_ok h).2] at hstamp'
  obtain ⟨stamp, hstamp, htrim⟩ := Option.bind_eq_some_iff.1 hstamp'
  obtain ⟨hspares, hkept⟩ := CascadeRule.trimAll_eq_some htrim
  refine ⟨⟨key, stamp⟩, ?_, hkept, fun id hid rule hrule => ?_⟩
  · rw [findEdge, hstamp]
    rfl
  · exact hspares _ (mem_cascadeSteps hid hrule)

end Graph

end Warrant
