import Warrant.Graph.Basic
import Warrant.SortedMap.Lemmas

/-!
# What changes do to a graph

A graph is seen through its tables and through `findEdge`. Every change of a graph says here what
it does to both.

## Main statements

- `Graph.findEdge_upsertEdge`, `Graph.findEdge_deleteEdge` — edges after a change of one edge
- `Graph.table_withTable` — tables after a change of one table
- `Graph.mem_edgeList_iff` — the edges are what can be found
-/

namespace Warrant.Graph

/-- An edge is found by its key. -/
theorem key_of_findEdge {g : Graph} {key : EdgeKey} {e : Edge} (h : g.findEdge key = some e) :
    e.key = key := by
  obtain ⟨stamp, -, rfl⟩ := Option.map_eq_some_iff.1 h
  rfl

/-- An edge that was added is found, and no other edge changes. -/
theorem findEdge_upsertEdge (g : Graph) (e : Edge) (key : EdgeKey) :
    (g.upsertEdge e).2.findEdge key = if key = e.key then some e else g.findEdge key := by
  by_cases h : key = e.key
  · subst h
    simp [upsertEdge, findEdge]
  · simp [upsertEdge, findEdge, SortedMap.get?_insert, h]

/-- An edge that was removed is not found, and no other edge changes. -/
theorem findEdge_deleteEdge (g : Graph) (key key' : EdgeKey) :
    (g.deleteEdge key).2.findEdge key' = if key' = key then none else g.findEdge key' := by
  by_cases h : key' = key
  · subst h
    simp [deleteEdge, findEdge, SortedMap.get?_erase]
  · simp [deleteEdge, findEdge, SortedMap.get?_erase, h]

/-- An edge is added when it was not there before. -/
theorem upsertEdge_fst (g : Graph) (e : Edge) :
    (g.upsertEdge e).1 = (g.findEdge e.key).isNone := by
  simp [upsertEdge, findEdge, SortedMap.contains]

/-- An edge is removed when it was there before. -/
theorem deleteEdge_fst (g : Graph) (key : EdgeKey) :
    (g.deleteEdge key).1 = (g.findEdge key).isSome := by
  simp [deleteEdge, findEdge, SortedMap.contains]

@[simp]
theorem tables_upsertEdge (g : Graph) (e : Edge) : (g.upsertEdge e).2.tables = g.tables := rfl

@[simp]
theorem tables_deleteEdge (g : Graph) (key : EdgeKey) : (g.deleteEdge key).2.tables = g.tables :=
  rfl

/-- A table that was changed is found, and no other table changes. -/
theorem table_withTable (g : Graph) (entity : String) (t : Table) (entity' : String) :
    (g.withTable entity t).table entity' = if entity' = entity then .ok t else g.table entity' := by
  by_cases h : entity' = entity
  · subst h
    simp [withTable, table]
  · simp [withTable, table, SortedMap.get?_insert, h]

/-- **The edges are what can be found.** So there is one edge at most for a key. -/
theorem mem_edgeList_iff {g : Graph} {e : Edge} :
    e ∈ g.edgeList ↔ g.findEdge e.key = some e := by
  obtain ⟨key, stamp⟩ := e
  simp [edgeList, findEdge, SortedMap.mem_toList_iff]

/-- No two edges have the same key. -/
theorem nodup_keys_edgeList (g : Graph) : (g.edgeList.map Edge.key).Nodup := by
  rw [edgeList, List.map_map]
  exact g.edges.nodup_keys

/-- A node touches the edges that can be found at it. -/
theorem mem_edgesOf_iff {g : Graph} {node : Node} {e : Edge} :
    e ∈ g.edgesOf node ↔
      g.findEdge e.key = some e ∧ (e.key.subject = node ∨ e.key.object = node) := by
  simp [edgesOf, mem_edgeList_iff]

end Warrant.Graph
