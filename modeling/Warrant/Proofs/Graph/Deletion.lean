import Warrant.Execution.Basic
import Warrant.Proofs.Graph.Cascade

/-!
# What a deletion leaves

A deletion goes through the deleted rows one by one, and for each of them through the rules, and
changes all edges at every step. What it leaves can be said at once, without any order: the graph
without the deleted rows.

## Main definitions

- `Stamp.forget` — a stamp after its grantor may have been deleted
- `Graph.without` — a graph without some rows

## Main statements

- `CascadeRule.trimAll_cascade` — what the rules leave of one edge
- `Graph.eq_without_of_deleteRows` — a deletion leaves the graph without the selected rows
-/

namespace Warrant

/-! ## One edge -/

namespace Stamp

/-- A stamp forgets its grantor if the grantor is among some nodes. -/
def forget (gone : List Node) (stamp : Stamp) : Stamp :=
  if stamp.grantedBy.any (· ∈ gone) then { stamp with grantedBy := none } else stamp

theorem forget_nil (stamp : Stamp) : stamp.forget [] = stamp := by
  simp [forget]

theorem forget_singleton (node : Node) (stamp : Stamp) :
    stamp.forget [node] =
      if stamp.grantedBy = some node then { stamp with grantedBy := none } else stamp := by
  obtain ⟨grantedAt, grantedBy⟩ := stamp
  cases grantedBy with
  | none => rfl
  | some n => simp [forget]

/-- Forgetting one grantor and then the others is forgetting them all. -/
theorem forget_cons (node : Node) (gone : List Node) (stamp : Stamp) :
    (stamp.forget [node]).forget gone = stamp.forget (node :: gone) := by
  rw [forget_singleton]
  obtain ⟨grantedAt, grantedBy⟩ := stamp
  cases grantedBy with
  | none => rfl
  | some n => by_cases h : n = node <;> simp [forget, h]

end Stamp

namespace EntityKind

/-- **What is left of an edge** without some rows of a kind. With a resource go the edges to it. With
    a principal go the edges from it, and the edges that stay forget that it granted them. -/
def leaves (gone : List Node) (key : EdgeKey) (stamp : Stamp) :
    EntityKind → Option Stamp
  | .resource => if key.object ∈ gone then none else some stamp
  | .principal => if key.subject ∈ gone then none else some (stamp.forget gone)

theorem leaves_nil (kind : EntityKind) (key : EdgeKey) (stamp : Stamp) :
    kind.leaves [] key stamp = some stamp := by
  cases kind <;> simp [leaves, Stamp.forget_nil]

/-- Taking one row away and then the others is taking them all away. -/
theorem leaves_cons (kind : EntityKind) (node : Node) (gone : List Node) (key : EdgeKey)
    (stamp : Stamp) : (kind.leaves [node] key stamp).bind (leaves gone key · kind) =
      kind.leaves (node :: gone) key stamp := by
  cases kind with
  | resource => by_cases h : key.object = node <;> simp [leaves, h]
  | principal => by_cases h : key.subject = node <;> simp [leaves, h, Stamp.forget_cons]

end EntityKind

namespace CascadeRule

theorem trimAll_append (key : EdgeKey) (steps steps' : List (Node × CascadeRule)) (stamp : Stamp) :
    trimAll key (steps ++ steps') stamp = (trimAll key steps stamp).bind (trimAll key steps') :=
  List.foldlM_append

/-- The rules of a kind take one row away. -/
theorem trimAll_cascade_one (kind : EntityKind) (node : Node) (key : EdgeKey) (stamp : Stamp) :
    trimAll key ((Evaluation.cascade kind).map fun rule => (node, rule)) stamp =
      kind.leaves [node] key stamp := by
  cases kind with
  | resource => by_cases h : key.object = node <;>
      simp [Evaluation.cascade, trimAll, trim, EntityKind.leaves, h]
  | principal => by_cases h : key.subject = node <;>
      simp [Evaluation.cascade, trimAll, trim, EntityKind.leaves, h, Stamp.forget_singleton]

/-- **What the rules leave of an edge** does not hang on the order of the deleted rows. -/
theorem trimAll_cascade (kind : EntityKind) (entity : String) (ids : List String) (key : EdgeKey)
    (stamp : Stamp) :
    trimAll key (Graph.cascadeSteps entity ids (Evaluation.cascade kind)) stamp =
      kind.leaves (ids.map fun id => ⟨entity, id⟩) key stamp := by
  induction ids generalizing stamp with
  | nil => exact (kind.leaves_nil key stamp).symm
  | cons id rest ih =>
    rw [Graph.cascadeSteps, List.flatMap_cons, trimAll_append, trimAll_cascade_one]
    exact (congrArg (Option.bind _) (funext ih)).trans (kind.leaves_cons _ _ key stamp)

end CascadeRule

namespace Graph

/-- **A graph without some rows** of a kind. -/
def without (g : Graph) (kind : EntityKind) (gone : List Node) : Graph where
  tables := g.tables.mapValues fun entity t => t.filter fun id _ => (⟨entity, id⟩ : Node) ∉ gone
  edges :=
    match kind with
    | .resource => g.edges.filter fun key _ => key.object ∉ gone
    | .principal =>
      (g.edges.filter fun key _ => key.subject ∉ gone).mapValues fun _ stamp => stamp.forget gone

variable {g g' : Graph} {kind : EntityKind} {entity : String} {filter : Filter}
  {report : DeleteReport} {gone : List Node}

theorem get?_edges_without (g : Graph) (kind : EntityKind) (gone : List Node) (key : EdgeKey) :
    (g.without kind gone).edges.get? key =
      (g.edges.get? key).bind fun stamp => kind.leaves gone key stamp := by
  cases kind with
  | resource =>
    refine (SortedMap.get?_filter g.edges (alike _) key).trans ?_
    cases g.edges.get? key with
    | none => rfl
    | some stamp =>
      by_cases h : key.object ∈ gone <;> simp [Option.filter, EntityKind.leaves, h]
  | principal =>
    refine (SortedMap.get?_mapValues _ (alike _) key).trans ?_
    rw [SortedMap.get?_filter g.edges (alike _) key]
    cases g.edges.get? key with
    | none => rfl
    | some stamp =>
      by_cases h : key.subject ∈ gone <;> simp [Option.filter, EntityKind.leaves, h]

/-- Which rows go does not hang on how they are listed. -/
theorem without_congr {gone' : List Node} (h : ∀ node, node ∈ gone ↔ node ∈ gone') :
    g.without kind gone = g.without kind gone' := by
  cases kind <;> simp only [without, Stamp.forget, h]

/-- Taking rows out of a table one by one is keeping the others. -/
theorem filter_table_eq (entity entity' : String) (ids : List String) (t : Table) :
    (t.filter fun id _ => (⟨entity', id⟩ : Node) ∉ ids.map fun id => (⟨entity, id⟩ : Node)) =
      if entity' = entity then ids.foldl (fun t id => t.erase id) t else t := by
  refine SortedMap.ext_get? fun id => ?_
  rw [SortedMap.get?_filter t (alike _) id]
  by_cases he : entity' = entity
  · subst he
    rw [if_pos rfl, SortedMap.get?_foldl_erase]
    by_cases hid : id ∈ ids <;> cases t.get? id <;> simp [Option.filter, hid]
  · rw [if_neg he]
    cases t.get? id <;> simp [Option.filter, Ne.symm he]

/-- **A deletion leaves the graph without the selected rows.** -/
theorem eq_without_of_deleteRows
    (h : g.deleteRows entity filter (Evaluation.cascade kind) = .ok (report, g')) :
    g' = g.without kind ((g.selectedIds entity filter).map fun id => ⟨entity, id⟩) := by
  obtain ⟨t, ht, htables, -⟩ := deleteRows_run h
  have hedges : g'.edges = (g.without kind
      ((g.selectedIds entity filter).map fun id => ⟨entity, id⟩)).edges := by
    refine SortedMap.ext_get? fun key => ?_
    rw [(deleteRows_eq_ok h).2, get?_edges_without]
    exact congrArg _ (funext fun stamp => CascadeRule.trimAll_cascade kind entity _ key stamp)
  have htables' : g'.tables = (g.without kind
      ((g.selectedIds entity filter).map fun id => ⟨entity, id⟩)).tables := by
    refine SortedMap.ext_get? fun entity' => ?_
    rw [htables, SortedMap.get?_insert]
    refine Eq.trans ?_ (SortedMap.get?_mapValues g.tables (alike _) entity').symm
    simp only [filter_table_eq, Std.LawfulEqCmp.compare_eq_iff_eq]
    by_cases he : entity' = entity
    · subst he
      rw [if_pos rfl, table_eq_ok_iff.1 ht, Option.map_some, if_pos rfl]
    · simp only [if_neg he, Option.map_id']
  obtain ⟨tables, edges⟩ := g'
  obtain rfl : tables = _ := htables'
  obtain rfl : edges = _ := hedges
  rfl

end Graph

end Warrant
