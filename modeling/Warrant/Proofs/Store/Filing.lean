import Warrant.Proofs.Store.Interleaving

/-!
# Edges with their keys

A graph keeps nothing of an edge but its stamp, since the key of an edge is the one that the stamp is
filed under. A store may also keep whole edges, each with a key of its own, and then nothing but the
way in which it files them makes the two keys of an edge the same. They stay the same whatever is
asked of the store, and as long as they do, the store cannot be told from a graph.

## Main definitions

- `EdgeFile`, `FiledGraph` — whole edges by key, and tables and whole edges
- `EdgeFile.OwnKeys` — every edge is filed under its own key
- `FiledGraph.respond` — what becomes of a call on such a store
- `FiledGraph.graph` — the graph that is left when the keys in the edges are dropped
- `FiledGraph.Grown` — the stores that come about

## Main statements

- `FiledGraph.respond_graph`, `FiledGraph.ownKeys_respond` — one call
- `FiledGraph.run_graph` — a whole evaluation
- `FiledGraph.Grown.ownKeys`, `FiledGraph.Grown.preserves` — every store that comes about
-/

namespace Warrant

/-- Whole edges by key. -/
abbrev EdgeFile := SortedMap EdgeKey Edge

namespace EdgeFile

/-- **Every edge is filed under its own key.** -/
def OwnKeys (file : EdgeFile) : Prop :=
  ∀ key e, file.get? key = some e → e.key = key

/-- What a graph keeps of the edges. -/
def stamps (file : EdgeFile) : SortedMap EdgeKey Stamp :=
  file.mapValues fun _ e => e.stamp

/-- An edge after the row at a node has been deleted: it forgets that the row granted it. -/
def release (node : Node) (e : Edge) : Edge :=
  if e.stamp.grantedBy = some node then { e with stamp.grantedBy := none } else e

/-- What a rule does to the edges when a row is deleted. It looks at the keys that edges are filed
    under, and at the grantors in the edges themselves. -/
def applyRule (node : Node) (state : EdgeFile × DeleteReport) (rule : CascadeRule) :
    EdgeFile × DeleteReport :=
  let (file, report) := state
  match rule with
  | .removeEdgesAsObject =>
    let kept := file.filter fun key _ => key.object ≠ node
    (kept, { report with edgesRemoved := report.edgesRemoved + (file.size - kept.size) })
  | .removeEdgesAsSubject =>
    let kept := file.filter fun key _ => key.subject ≠ node
    (kept, { report with edgesRemoved := report.edgesRemoved + (file.size - kept.size) })
  | .clearGrantor =>
    let orphaned := file.values.countP fun e => e.stamp.grantedBy = some node
    (file.mapValues fun _ => release node,
      { report with grantsOrphaned := report.grantsOrphaned + orphaned })

/-- The rules for some rows of an entity, row by row. -/
def cascade (entity : String) (ids : List String) (rules : List CascadeRule)
    (state : EdgeFile × DeleteReport) : EdgeFile × DeleteReport :=
  ids.foldl (fun state id => rules.foldl (applyRule ⟨entity, id⟩) state) state

variable {file : EdgeFile}

/-! ## The keys of edges -/

theorem ownKeys_empty : OwnKeys SortedMap.empty := by
  intro key e he
  exact nomatch he

/-- An edge is filed under its own key when it comes. -/
theorem OwnKeys.insert (h : file.OwnKeys) (e : Edge) : OwnKeys (file.insert e.key e) := by
  intro key e' he'
  rw [SortedMap.get?_insert] at he'
  split at he'
  · next hkey =>
    obtain rfl := Option.some.inj he'
    exact (Std.LawfulEqOrd.eq_of_compare hkey).symm
  · exact h key e' he'

theorem OwnKeys.filter (h : file.OwnKeys) (p : EdgeKey → Edge → Bool) :
    OwnKeys (file.filter p) := by
  intro key e he
  rw [SortedMap.get?_filter file (Graph.alike p)] at he
  exact h key e (Option.filter_eq_some_iff.1 he).1

/-- An edge may change as long as its key does not. -/
theorem OwnKeys.mapValues (h : file.OwnKeys) {f : Edge → Edge} (hf : ∀ e, (f e).key = e.key) :
    OwnKeys (file.mapValues fun _ => f) := by
  intro key e' he'
  rw [SortedMap.get?_mapValues file (Graph.alike fun _ => f)] at he'
  obtain ⟨e, he, rfl⟩ := Option.map_eq_some_iff.1 he'
  exact (hf e).trans (h key e he)

theorem key_release (node : Node) (e : Edge) : (release node e).key = e.key := by
  unfold release
  split <;> rfl

theorem OwnKeys.applyRule {state : EdgeFile × DeleteReport} (h : state.1.OwnKeys) (node : Node)
    (rule : CascadeRule) : (applyRule node state rule).1.OwnKeys := by
  cases rule with
  | removeEdgesAsObject | removeEdgesAsSubject => exact OwnKeys.filter h _
  | clearGrantor => exact OwnKeys.mapValues h (key_release node)

theorem OwnKeys.cascade {state : EdgeFile × DeleteReport} (h : state.1.OwnKeys) (entity : String)
    (ids : List String) (rules : List CascadeRule) : (cascade entity ids rules state).1.OwnKeys := by
  have hrules (state : EdgeFile × DeleteReport) (h : state.1.OwnKeys) (id : String) :
      (rules.foldl (EdgeFile.applyRule ⟨entity, id⟩) state).1.OwnKeys := by
    induction rules generalizing state with
    | nil => exact h
    | cons rule rest ih => exact ih _ (h.applyRule _ rule)
  induction ids generalizing state with
  | nil => exact h
  | cons id rest ih => exact ih (hrules state h id)

/-! ## The stamps of edges -/

theorem get?_stamps (file : EdgeFile) (key : EdgeKey) :
    file.stamps.get? key = (file.get? key).map Edge.stamp :=
  file.get?_mapValues (Graph.alike fun _ => Edge.stamp) key

theorem contains_stamps (file : EdgeFile) (key : EdgeKey) :
    file.stamps.contains key = file.contains key := by
  rw [SortedMap.contains, get?_stamps, Option.isSome_map, SortedMap.contains]

theorem insert_stamps (file : EdgeFile) (e : Edge) :
    file.stamps.insert e.key e.stamp = stamps (file.insert e.key e) :=
  file.insert_mapValues _ e.key e

theorem erase_stamps (file : EdgeFile) (key : EdgeKey) :
    file.stamps.erase key = stamps (file.erase key) :=
  file.erase_mapValues _ key

/-- The stamps, and how much has been changed so far. -/
def stripped (state : EdgeFile × DeleteReport) : SortedMap EdgeKey Stamp × DeleteReport :=
  (state.1.stamps, state.2)

/-- A rule does to whole edges what it does to their stamps. -/
theorem applyRule_stripped (node : Node) (state : EdgeFile × DeleteReport) (rule : CascadeRule) :
    Graph.applyRule node (stripped state) rule = stripped (applyRule node state rule) := by
  obtain ⟨file, report⟩ := state
  cases rule with
  | removeEdgesAsObject =>
    simp only [Graph.applyRule, applyRule, stripped, stamps, SortedMap.filter_mapValues,
      SortedMap.size_mapValues]
  | removeEdgesAsSubject =>
    simp only [Graph.applyRule, applyRule, stripped, stamps, SortedMap.filter_mapValues,
      SortedMap.size_mapValues]
  | clearGrantor =>
    have horphaned : file.stamps.values.countP (fun stamp => stamp.grantedBy = some node) =
        file.values.countP fun e => e.stamp.grantedBy = some node := by
      rw [stamps, SortedMap.values_mapValues, SortedMap.values, List.countP_map, List.countP_map]
      rfl
    have hcleared : (file.stamps.mapValues fun _ stamp =>
        if stamp.grantedBy = some node then { stamp with grantedBy := none } else stamp) =
        stamps (file.mapValues fun _ => release node) := by
      refine SortedMap.ext (List.map_map.trans (Eq.trans ?_ List.map_map.symm))
      refine List.map_congr_left fun b _ => ?_
      simp only [Function.comp_apply, release]
      split <;> rfl
    exact congrArg₂ Prod.mk hcleared
      (congrArg (fun n => { report with grantsOrphaned := report.grantsOrphaned + n }) horphaned)

theorem cascade_stripped (entity : String) (ids : List String) (rules : List CascadeRule)
    (state : EdgeFile × DeleteReport) :
    ids.foldl (fun state id => rules.foldl (Graph.applyRule ⟨entity, id⟩) state) (stripped state) =
      stripped (cascade entity ids rules state) := by
  refine List.foldl_hom stripped fun state id => ?_
  exact List.foldl_hom stripped (applyRule_stripped _)

end EdgeFile

/-- Tables of rows and whole edges. -/
structure FiledGraph where
  tables : SortedMap String Table
  edges : EdgeFile

namespace FiledGraph

/-- The graph that is left when the keys in the edges are dropped. -/
def graph (f : FiledGraph) : Graph :=
  ⟨f.tables, f.edges.stamps⟩

/-- A graph with an empty table for every entity of a schema. -/
def ofSchema (s : Schema) : FiledGraph :=
  ⟨(Graph.ofSchema s).tables, SortedMap.empty⟩

/-- The edges whose subject or object is a node, by the keys that they have themselves. -/
def edgesOf (f : FiledGraph) (node : Node) : List Edge :=
  f.edges.values.filter fun e => e.key.subject = node || e.key.object = node

/-- Deletes the rows of an entity that a filter selects, and applies the rules to the edges. -/
def deleteRows (f : FiledGraph) (entity : String) (filter : Filter) (rules : List CascadeRule) :
    Except StoreError (DeleteReport × FiledGraph) := do
  let t ← f.graph.table entity
  let ids := (t.values.filter filter.selects).map (·.id)
  let remaining := ids.foldl (fun t id => t.erase id) t
  let (edges, report) := EdgeFile.cascade entity ids rules (f.edges, ⟨ids.length, 0, 0⟩)
  return (report, ⟨f.tables.insert entity remaining, edges⟩)

/-- **A call on a store that keeps whole edges**: its answer, and the store after it. What concerns
    rows alone is done as in a graph. -/
def respond (f : FiledGraph) : (call : Call) → call.Answer × FiledGraph
  | .find entity filter => (f.graph.find entity filter, f)
  | .findEdge key => (.ok (f.edges.get? key), f)
  | .upsertEdge edge =>
    (.ok (!f.edges.contains edge.key), { f with edges := f.edges.insert edge.key edge })
  | .deleteEdge key => (.ok (f.edges.contains key), { f with edges := f.edges.erase key })
  | .updateFields entity id values =>
    match f.graph.updateFields entity id values with
    | .ok g => (.ok (), { f with tables := g.tables })
    | .error e => (.error e, f)
  | .deleteRows entity filter rules =>
    match f.deleteRows entity filter rules with
    | .ok (report, f) => (.ok report, f)
    | .error e => (.error e, f)
  | .poll | .snapshot | .begin | .commit | .rollback => (.ok (), f)

/-- Adds rows to the table of an entity. -/
def insertRows (f : FiledGraph) (entity : String) (rows : List Row) :
    Except StoreError FiledGraph :=
  (f.graph.insertRows entity rows).map fun g => { f with tables := g.tables }

/-- **The stores that come about** from the empty one of a schema, by rows from outside and by
    evaluations. -/
inductive Grown (s : Schema) : FiledGraph → Prop
  | start : Grown s (.ofSchema s)
  | inserted {f f' : FiledGraph} {entity : String} {rows : List Row} (h : Grown s f)
    (hins : f.insertRows entity rows = .ok f') : Grown s f'
  | worked {α : Type} {f : FiledGraph} (h : Grown s f) (script : Script α) :
    Grown s (script.run respond f).2

variable {f : FiledGraph} {s : Schema}

/-! ## Seen as a graph -/

theorem graph_ofSchema (s : Schema) : (ofSchema s).graph = Graph.ofSchema s := rfl

theorem insertRows_graph (f : FiledGraph) (entity : String) (rows : List Row) :
    f.graph.insertRows entity rows = (f.insertRows entity rows).map graph := by
  rw [insertRows]
  cases hins : f.graph.insertRows entity rows with
  | error e => rfl
  | ok g =>
    have hedges : g.edges = f.edges.stamps := (Graph.insertRows_eq_ok hins).1
    exact congrArg (fun edges => Except.ok (⟨g.tables, edges⟩ : Graph)) hedges

theorem findEdge_graph (h : f.edges.OwnKeys) (key : EdgeKey) :
    f.graph.findEdge key = f.edges.get? key := by
  rw [Graph.findEdge, graph, EdgeFile.get?_stamps]
  cases he : f.edges.get? key with
  | none => rfl
  | some e =>
    obtain rfl := h key e he
    rfl

/-- The edges of a graph are the whole edges. -/
theorem edgeList_graph (h : f.edges.OwnKeys) : f.graph.edgeList = f.edges.values := by
  refine (List.map_map.trans (List.map_congr_left fun b hb => ?_) :
    (f.edges.toList.map _).map _ = f.edges.toList.map Prod.snd)
  obtain ⟨key, e⟩ := b
  obtain rfl := h key e (SortedMap.mem_toList_iff.1 hb)
  rfl

theorem edgesOf_graph (h : f.edges.OwnKeys) (node : Node) :
    f.graph.edgesOf node = f.edgesOf node := by
  rw [Graph.edgesOf, edgeList_graph h, edgesOf]

theorem deleteRows_graph (f : FiledGraph) (entity : String) (filter : Filter)
    (rules : List CascadeRule) :
    f.graph.deleteRows entity filter rules =
      (f.deleteRows entity filter rules).map fun r => (r.1, r.2.graph) := by
  rw [Graph.deleteRows, deleteRows]
  cases f.graph.table entity with
  | error e => rfl
  | ok t =>
    let ids := (t.values.filter filter.selects).map (·.id)
    have hcascade := EdgeFile.cascade_stripped entity ids rules (f.edges, ⟨ids.length, 0, 0⟩)
    exact congrArg (fun r => Except.ok (r.2, (⟨_, r.1⟩ : Graph))) hcascade

/-- **A call cannot tell whole edges from a graph**, if every edge is filed under its own key. -/
theorem respond_graph (h : f.edges.OwnKeys) (call : Call) :
    f.graph.respond call = ((f.respond call).1, (f.respond call).2.graph) := by
  cases call with
  | find | poll | snapshot | begin | commit | rollback => rfl
  | findEdge key => exact congrArg (fun found => (Except.ok found, f.graph)) (findEdge_graph h key)
  | upsertEdge e =>
    exact congrArg₂ (fun added edges => (Except.ok !added, (⟨f.tables, edges⟩ : Graph)))
      (f.edges.contains_stamps e.key) (f.edges.insert_stamps e)
  | deleteEdge key =>
    exact congrArg₂ (fun removed edges => (Except.ok removed, (⟨f.tables, edges⟩ : Graph)))
      (f.edges.contains_stamps key) (f.edges.erase_stamps key)
  | updateFields entity id values =>
    simp only [Graph.respond, respond]
    cases hwrite : f.graph.updateFields entity id values with
    | error e => rfl
    | ok g =>
      have hedges : g.edges = f.edges.stamps := (Graph.updateFields_eq_ok hwrite).1
      exact congrArg (fun edges => (Except.ok (), (⟨g.tables, edges⟩ : Graph))) hedges
  | deleteRows entity filter rules =>
    simp only [Graph.respond, respond, deleteRows_graph]
    cases f.deleteRows entity filter rules <;> rfl

/-- **After a call every edge is still filed under its own key.** -/
theorem ownKeys_respond (h : f.edges.OwnKeys) (call : Call) : (f.respond call).2.edges.OwnKeys := by
  cases call with
  | find | findEdge | poll | snapshot | begin | commit | rollback => exact h
  | upsertEdge e => exact h.insert e
  | deleteEdge key => exact h.filter _
  | updateFields entity id values =>
    simp only [respond]
    split <;> exact h
  | deleteRows entity filter rules =>
    simp only [respond]
    split
    · next hdelete =>
      obtain ⟨t, -, hdelete⟩ := bind_eq_ok_iff.1 hdelete
      obtain ⟨-, rfl⟩ := Prod.mk.inj (Except.ok.inj hdelete)
      exact EdgeFile.OwnKeys.cascade h _ _ _
    · exact h

/-- **An evaluation cannot tell whole edges from a graph**, and leaves every edge filed under its own
    key. -/
theorem run_graph {α : Type} (h : f.edges.OwnKeys) (script : Script α) :
    (script.run respond f).2.edges.OwnKeys ∧
    script.run Graph.respond f.graph =
      ((script.run respond f).1, (script.run respond f).2.graph) := by
  induction script generalizing f with
  | done a => exact ⟨h, rfl⟩
  | ask call next ih =>
    obtain ⟨hown, hrun⟩ := ih (f.respond call).1 (ownKeys_respond h call)
    refine ⟨hown, ?_⟩
    rw [Script.run_ask, respond_graph h]
    exact hrun

/-- **Every edge is filed under its own key** in every store that comes about. -/
theorem Grown.ownKeys (h : Grown s f) : f.edges.OwnKeys := by
  induction h with
  | start => exact EdgeFile.ownKeys_empty
  | inserted _ hins ih =>
    obtain ⟨g, -, rfl⟩ := map_eq_ok_iff.1 hins
    exact ih
  | worked _ script ih => exact (run_graph ih script).1

/-- **What rows from outside and evaluations preserve of a graph** holds of every store that comes
    about. -/
theorem Grown.preserves {I : Graph → Prop} (h : Grown s f) (hstart : I (.ofSchema s))
    (hinsert : ∀ {g g' : Graph} {entity rows}, I g → g.insertRows entity rows = .ok g' → I g')
    (hwork : ∀ {g : Graph} {α} (script : Script α), I g → I (script.run Graph.respond g).2) :
    I f.graph := by
  induction h with
  | start => exact graph_ofSchema s ▸ hstart
  | @inserted f f' entity rows _ hins ih =>
    exact hinsert ih ((insertRows_graph f entity rows).trans (congrArg (Except.map graph) hins))
  | @worked _ f h script ih =>
    have hgraph : (script.run respond f).2.graph = (script.run Graph.respond f.graph).2 :=
      congrArg Prod.snd (run_graph h.ownKeys script).2.symm
    exact hgraph ▸ hwork script ih

end FiledGraph

end Warrant
