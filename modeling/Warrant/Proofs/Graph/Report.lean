import Mathlib.Data.List.Nodup
import Warrant.Proofs.Graph.Deletion

/-!
# What a deletion reports

A deletion counts while it goes: the rows that it deletes, the edges that go with them, and how
often an edge forgets its grantor. The first two counts are what the graphs before and after it
show. The third is higher than the number of edges that have lost their grantor and are still
there: an edge between two deleted principals is counted when its grantor comes first in the order
of deletion, and goes itself when its subject comes.

## Main definitions

- `Graph.lostRows`, `Graph.lostEdges` — rows and edges of one graph that another does not have
- `Graph.orphans` — the edges of a graph that have lost their grantor
- `Graph.overtaken` — the lost edges whose grantor came before their subject
- `CascadeRule.isForgotten` — whether an edge is counted on its way through the rules

## Main statements

- `Graph.foldl_applyRule_balance`, `Graph.grantsOrphaned_foldl` — what counting keeps
- `CascadeRule.isForgotten_cascade_iff` — which edges are counted
- `Graph.Keyed.report_of_deleteRows` — the counts of a deletion
-/

namespace Warrant

/-! ## Two graphs -/

namespace Graph

/-- The nodes that have a row. -/
def nodes (g : Graph) : List Node :=
  g.tables.toList.flatMap fun b => b.2.keys.map fun id => ⟨b.1, id⟩

/-- The rows of a graph that a later one does not have. -/
def lostRows (g g' : Graph) : List Node :=
  g.nodes.filter fun node => (g'.row? node).isNone

/-- The edges of a graph that a later one does not have. -/
def lostEdges (g g' : Graph) : List Edge :=
  g.edgeList.filter fun e => (g'.findEdge e.key).isNone

/-- **The edges that have lost their grantor**: they are there in the later graph, granted by
    nobody, and a row that has gone had granted them. -/
def orphans (g g' : Graph) : List Edge :=
  g'.edgeList.filter fun e => e.stamp.grantedBy.isNone &&
    ((g.findEdge e.key).bind (·.stamp.grantedBy)).any (· ∈ g.lostRows g')

/-- **The edges that were overtaken** when rows of a kind were deleted: they have gone, and so has
    the row that granted them, whose id comes before that of their subject. Rows that are acted upon
    are not looked at as grantors. -/
def overtaken (kind : EntityKind) (g g' : Graph) : List Edge :=
  match kind with
  | .resource => []
  | .principal => (g.lostEdges g').filter fun e => e.stamp.grantedBy.any fun grantor =>
      grantor ∈ g.lostRows g' && compare grantor.id e.key.subject.id = .lt

variable {g g' : Graph}

theorem mem_nodes_iff {node : Node} : node ∈ g.nodes ↔ (g.row? node).isSome := by
  obtain ⟨entity, id⟩ := node
  simp only [nodes, List.mem_flatMap, List.mem_map, SortedMap.mem_keys_iff, Prod.exists,
    SortedMap.mem_toList_iff, Node.mk.injEq, row?, Option.isSome_iff_exists,
    Option.bind_eq_some_iff]
  constructor
  · rintro ⟨_, t, ht, _, ⟨row, hrow⟩, rfl, rfl⟩
    exact ⟨row, t, ht, hrow⟩
  · rintro ⟨row, t, ht, hrow⟩
    exact ⟨entity, t, ht, id, ⟨row, hrow⟩, rfl, rfl⟩

theorem nodup_nodes (g : Graph) : g.nodes.Nodup := by
  refine List.nodup_flatMap.2 ⟨fun b _ => ?_, ?_⟩
  · exact b.2.nodup_keys.map fun id id' h => (Node.mk.inj h).2
  · refine (List.pairwise_map.1 g.tables.nodup_keys).imp fun {b b'} hne => ?_
    intro node hnode hnode'
    obtain ⟨id, -, rfl⟩ := List.mem_map.1 hnode
    obtain ⟨id', -, h⟩ := List.mem_map.1 hnode'
    exact hne (Node.mk.inj h).1.symm

theorem exists_mem_edgeList_iff {key : EdgeKey} {p : Edge → Bool} :
    (∃ e ∈ g.edgeList.filter p, e.key = key) ↔ ∃ e, g.findEdge key = some e ∧ p e = true := by
  simp only [List.mem_filter, mem_edgeList_iff]
  constructor
  · rintro ⟨e, ⟨he, hp⟩, rfl⟩
    exact ⟨e, he, hp⟩
  · rintro ⟨e, he, hp⟩
    obtain rfl := key_of_findEdge he
    exact ⟨e, ⟨he, hp⟩, rfl⟩

/-- **Edges are counted by their keys.** -/
theorem countP_edgeList_eq {p q : Edge → Bool}
    (h : ∀ key, (∃ e, g.findEdge key = some e ∧ p e = true) ↔
      ∃ e, g'.findEdge key = some e ∧ q e = true) :
    g.edgeList.countP p = g'.edgeList.countP q := by
  have hnodup (g : Graph) (p : Edge → Bool) : ((g.edgeList.filter p).map Edge.key).Nodup :=
    g.nodup_keys_edgeList.sublist (List.filter_sublist.map _)
  have hperm : ((g.edgeList.filter p).map Edge.key).Perm ((g'.edgeList.filter q).map Edge.key) := by
    refine (List.perm_ext_iff_of_nodup (hnodup g p) (hnodup g' q)).2 fun key => ?_
    rw [List.mem_map, List.mem_map, exists_mem_edgeList_iff, exists_mem_edgeList_iff, h]
  rw [List.countP_eq_length_filter, List.countP_eq_length_filter]
  simpa using hperm.length_eq

/-! ## Counting on the way -/

/-- What the rules count as removed and what they leave is what they found. -/
theorem applyRule_balance (node : Node) (state : SortedMap EdgeKey Stamp × DeleteReport)
    (rule : CascadeRule) :
    (applyRule node state rule).2.edgesRemoved + (applyRule node state rule).1.size =
      state.2.edgesRemoved + state.1.size := by
  obtain ⟨edges, report⟩ := state
  have hfilter (p : EdgeKey → Stamp → Bool) : (edges.filter p).size ≤ edges.size :=
    List.length_filter_le _ _
  cases rule with
  | removeEdgesAsObject =>
    have hle := hfilter fun key _ => key.object ≠ node
    simp only [applyRule]
    omega
  | removeEdgesAsSubject =>
    have hle := hfilter fun key _ => key.subject ≠ node
    simp only [applyRule]
    omega
  | clearGrantor => simp [applyRule, SortedMap.size, SortedMap.mapValues]

theorem foldl_applyRule_balance (steps : List (Node × CascadeRule))
    (state : SortedMap EdgeKey Stamp × DeleteReport) :
    let state' := steps.foldl (fun state step => applyRule step.1 state step.2) state
    state'.2.edgesRemoved + state'.1.size = state.2.edgesRemoved + state.1.size := by
  induction steps generalizing state with
  | nil => rfl
  | cons step rest ih => exact (ih _).trans (applyRule_balance step.1 state step.2)

theorem rows_applyRule (node : Node) (state : SortedMap EdgeKey Stamp × DeleteReport)
    (rule : CascadeRule) : (applyRule node state rule).2.rows = state.2.rows := by
  cases rule <;> rfl

theorem rows_foldl_applyRule (steps : List (Node × CascadeRule))
    (state : SortedMap EdgeKey Stamp × DeleteReport) :
    (steps.foldl (fun state step => applyRule step.1 state step.2) state).2.rows =
      state.2.rows := by
  induction steps generalizing state with
  | nil => rfl
  | cons step rest ih => exact (ih _).trans (rows_applyRule step.1 state step.2)

end Graph

namespace CascadeRule

/-- Whether a rule makes an edge forget its grantor when the row at a node is deleted. -/
def clears (node : Node) (stamp : Stamp) (rule : CascadeRule) : Bool :=
  rule = .clearGrantor && stamp.grantedBy = some node

/-- **Whether an edge forgets its grantor** on its way through the rules, be it that it goes itself
    later on. -/
def isForgotten (key : EdgeKey) : List (Node × CascadeRule) → Stamp → Bool
  | [], _ => false
  | step :: rest, stamp => step.2.clears step.1 stamp ||
      ((step.2.trim step.1 key stamp).map (isForgotten key rest)).getD false

/-- An edge that nobody has granted has nobody to forget. -/
theorem isForgotten_of_none (key : EdgeKey) (steps : List (Node × CascadeRule)) {stamp : Stamp}
    (h : stamp.grantedBy = none) : isForgotten key steps stamp = false := by
  induction steps generalizing stamp with
  | nil => rfl
  | cons step rest ih =>
    have hclears : step.2.clears step.1 stamp = false := by simp [clears, h]
    rw [isForgotten, hclears, Bool.false_or]
    cases htrim : step.2.trim step.1 key stamp with
    | none => rfl
    | some stamp' =>
      have hnone : stamp'.grantedBy = none := by
        rcases (trim_eq_some htrim).2.grantedBy with hby | hby
        · exact hby.trans h
        · exact hby
      exact ih hnone

/-- An edge that is made to forget its grantor has forgotten it, and is not counted again. -/
theorem isForgotten_trim_of_clears {node : Node} {stamp : Stamp} {rule : CascadeRule}
    (h : rule.clears node stamp = true) (key : EdgeKey) (steps : List (Node × CascadeRule)) :
    ((rule.trim node key stamp).map (isForgotten key steps)).getD false = false := by
  obtain ⟨rfl, hby⟩ : rule = .clearGrantor ∧ stamp.grantedBy = some node := by
    simpa [clears] using h
  rw [trim, if_pos hby]
  exact isForgotten_of_none key steps rfl

end CascadeRule

namespace Graph

theorem countP_or_of_disjoint {α : Type} {p q : α → Bool} {l : List α}
    (h : ∀ a ∈ l, p a = true → q a = false) :
    l.countP (fun a => p a || q a) = l.countP p + l.countP q := by
  induction l with
  | nil => rfl
  | cons a rest ih =>
    have hrest := ih fun b hb => h b (List.mem_cons_of_mem a hb)
    have ha := h a List.mem_cons_self
    cases hp : p a with
    | true => simp [hp, ha hp, hrest, Nat.add_right_comm]
    | false => cases hq : q a <;> simp [hp, hq, hrest, Nat.add_assoc]

/-- A rule goes through the edges one by one. -/
theorem toList_applyRule (node : Node) (state : SortedMap EdgeKey Stamp × DeleteReport)
    (rule : CascadeRule) : (applyRule node state rule).1.toList =
      state.1.toList.filterMap fun b => (rule.trim node b.1 b.2).map (b.1, ·) := by
  obtain ⟨edges, report⟩ := state
  cases rule with
  | removeEdgesAsObject =>
    refine (congrFun List.filterMap_eq_filter edges.toList).symm.trans ?_
    refine List.filterMap_congr fun b _ => ?_
    by_cases h : b.1.object = node <;> simp [CascadeRule.trim, Option.guard, h]
  | removeEdgesAsSubject =>
    refine (congrFun List.filterMap_eq_filter edges.toList).symm.trans ?_
    refine List.filterMap_congr fun b _ => ?_
    by_cases h : b.1.subject = node <;> simp [CascadeRule.trim, Option.guard, h]
  | clearGrantor => exact (congrFun List.filterMap_eq_map edges.toList).symm

theorem grantsOrphaned_applyRule (node : Node) (state : SortedMap EdgeKey Stamp × DeleteReport)
    (rule : CascadeRule) : (applyRule node state rule).2.grantsOrphaned =
      state.2.grantsOrphaned + state.1.toList.countP fun b => rule.clears node b.2 := by
  obtain ⟨edges, report⟩ := state
  cases rule with
  | removeEdgesAsObject | removeEdgesAsSubject => simp [applyRule, CascadeRule.clears]
  | clearGrantor =>
    simp [applyRule, CascadeRule.clears, SortedMap.values, List.countP_map, Function.comp_def]

/-- **What is counted as orphaned**: the edges that forget their grantor on the way. -/
theorem grantsOrphaned_foldl (steps : List (Node × CascadeRule))
    (state : SortedMap EdgeKey Stamp × DeleteReport) :
    (steps.foldl (fun state step => applyRule step.1 state step.2) state).2.grantsOrphaned =
      state.2.grantsOrphaned +
        state.1.toList.countP fun b => CascadeRule.isForgotten b.1 steps b.2 := by
  induction steps generalizing state with
  | nil => simp [CascadeRule.isForgotten]
  | cons step rest ih =>
    rw [List.foldl_cons, ih, grantsOrphaned_applyRule, toList_applyRule, List.countP_filterMap,
      Nat.add_assoc, ← countP_or_of_disjoint]
    · simp only [CascadeRule.isForgotten, Option.map_map, Function.comp_def]
    · intro b _ hclears
      have hnot := CascadeRule.isForgotten_trim_of_clears hclears b.1 rest
      simpa only [Option.map_map, Function.comp_def] using hnot

end Graph

namespace CascadeRule

/-- One deleted principal more, before the others: an edge from it goes, and any other edge forgets
    it or is left to the others. -/
theorem isForgotten_cascade_cons {entity id : String} {rest : List String} {key : EdgeKey}
    {stamp : Stamp} :
    isForgotten key (Graph.cascadeSteps entity (id :: rest) (Evaluation.cascade .principal)) stamp =
        true ↔
      key.subject ≠ ⟨entity, id⟩ ∧ (stamp.grantedBy = some ⟨entity, id⟩ ∨
        isForgotten key (Graph.cascadeSteps entity rest (Evaluation.cascade .principal)) stamp =
          true) := by
  by_cases hsubject : key.subject = ⟨entity, id⟩
  · simp [Graph.cascadeSteps, Evaluation.cascade, isForgotten, clears, trim, hsubject]
  · by_cases hby : stamp.grantedBy = some ⟨entity, id⟩ <;>
      simp [Graph.cascadeSteps, Evaluation.cascade, isForgotten, clears, trim, hsubject, hby]

/-- **Which edges are counted** when principals are deleted in the order of their ids: those whose
    grantor is deleted, unless their subject is deleted and does not come later. -/
theorem isForgotten_cascade_iff {entity : String} {ids : List String}
    (hids : ids.Pairwise fun id id' => compare id id' = .lt) {key : EdgeKey} {stamp : Stamp} :
    isForgotten key (Graph.cascadeSteps entity ids (Evaluation.cascade .principal)) stamp = true ↔
      ∃ id ∈ ids, stamp.grantedBy = some ⟨entity, id⟩ ∧
        ∀ id' ∈ ids, key.subject = ⟨entity, id'⟩ → compare id id' = .lt := by
  -- By induction on the ids in the order of their deletion: an edge goes with its grantor, unless
  -- it has gone with its subject before.
  induction ids with
  | nil => simp [Graph.cascadeSteps, isForgotten]
  | cons first rest ih =>
    obtain ⟨hfirst, hrest⟩ := List.pairwise_cons.1 hids
    rw [isForgotten_cascade_cons, ih hrest]
    constructor
    · rintro ⟨hsubject, hby | ⟨id, hid, hby, hlater⟩⟩
      · refine ⟨first, List.mem_cons_self, hby, fun id' hid' h => ?_⟩
        rcases List.mem_cons.1 hid' with rfl | hid'
        · exact absurd h hsubject
        · exact hfirst id' hid'
      · refine ⟨id, List.mem_cons_of_mem _ hid, hby, fun id' hid' h => ?_⟩
        rcases List.mem_cons.1 hid' with rfl | hid'
        · exact absurd h hsubject
        · exact hlater id' hid' h
    · rintro ⟨id, hid, hby, hlater⟩
      have hnot : compare id first ≠ .lt := by
        rcases List.mem_cons.1 hid with rfl | hid
        · simp
        · exact Std.OrientedCmp.not_lt_of_lt (hfirst id hid)
      refine ⟨fun h => hnot (hlater first List.mem_cons_self h), ?_⟩
      rcases List.mem_cons.1 hid with rfl | hid
      · exact .inl hby
      · exact .inr ⟨id, hid, hby, fun id' hid' => hlater id' (List.mem_cons_of_mem _ hid')⟩

/-- When resources are deleted, no edge is counted. -/
theorem isForgotten_cascade_resource (entity : String) (ids : List String) (key : EdgeKey)
    (stamp : Stamp) :
    isForgotten key (Graph.cascadeSteps entity ids (Evaluation.cascade .resource)) stamp =
      false := by
  induction ids with
  | nil => rfl
  | cons id rest ih =>
    have hcons : Graph.cascadeSteps entity (id :: rest) (Evaluation.cascade .resource) =
        (⟨entity, id⟩, .removeEdgesAsObject) ::
          Graph.cascadeSteps entity rest (Evaluation.cascade .resource) := rfl
    by_cases h : key.object = ⟨entity, id⟩ <;> simp [hcons, isForgotten, clears, trim, h, ih]

end CascadeRule

/-! ## The report -/

namespace Graph

variable {g g' : Graph} {kind : EntityKind} {entity : String} {filter : Filter}
  {report : DeleteReport}

/-- The selected rows are listed in the order of their identities. -/
theorem Keyed.pairwise_selectedIds (hg : g.Keyed) (entity : String) (filter : Filter) :
    (g.selectedIds entity filter).Pairwise fun id id' => compare id id' = .lt := by
  rw [selectedIds, List.pairwise_map]
  cases ht : g.tables.get? entity with
  | none => exact .nil
  | some t => exact (hg.pairwise_values (table_eq_ok_iff.2 ht)).filter _

/-- The rows that a deletion loses are the selected ones. -/
theorem Keyed.mem_lostRows_iff (hg : g.Keyed) {cascade : List CascadeRule}
    (h : g.deleteRows entity filter cascade = .ok (report, g')) {node : Node} :
    node ∈ g.lostRows g' ↔ ∃ id ∈ g.selectedIds entity filter, ⟨entity, id⟩ = node := by
  rw [lostRows, List.mem_filter, mem_nodes_iff, (deleteRows_eq_ok h).1]
  constructor
  · rintro ⟨hbefore, hafter⟩
    by_cases hnode : node.entity = entity ∧ node.id ∈ g.selectedIds entity filter
    · obtain ⟨rfl, hid⟩ := hnode
      exact ⟨node.id, hid, rfl⟩
    · rw [if_neg hnode, Option.isNone_iff_eq_none] at hafter
      rw [hafter] at hbefore
      exact nomatch hbefore
  · rintro ⟨id, hid, rfl⟩
    obtain ⟨row, hrow, -⟩ := hg.mem_selectedIds_iff.1 hid
    exact ⟨Option.isSome_of_eq_some hrow, by rw [if_pos ⟨rfl, hid⟩]; rfl⟩

theorem Keyed.length_lostRows (hg : g.Keyed) {cascade : List CascadeRule}
    (h : g.deleteRows entity filter cascade = .ok (report, g')) :
    (g.lostRows g').length = (g.selectedIds entity filter).length := by
  have hids : (g.selectedIds entity filter).Nodup :=
    (hg.pairwise_selectedIds entity filter).imp fun {id id'} hlt heq => by
      subst heq
      simp at hlt
  have hnodes : ((g.selectedIds entity filter).map fun id => (⟨entity, id⟩ : Node)).Nodup :=
    hids.map fun id id' heq => (Node.mk.inj heq).2
  have hperm : (g.lostRows g').Perm
      ((g.selectedIds entity filter).map fun id => (⟨entity, id⟩ : Node)) :=
    (List.perm_ext_iff_of_nodup (g.nodup_nodes.filter _) hnodes).2 fun node => by
      rw [List.mem_map]
      exact hg.mem_lostRows_iff h
  rw [hperm.length_eq, List.length_map]

/-- An edge afterwards is what its deletion leaves of the edge before. -/
theorem findEdge_eq_of_deleteRows
    (h : g.deleteRows entity filter (Evaluation.cascade kind) = .ok (report, g')) (key : EdgeKey) :
    g'.findEdge key = (g.findEdge key).bind fun e =>
      (kind.leaves ((g.selectedIds entity filter).map fun id => ⟨entity, id⟩) key e.stamp).map
        (⟨key, ·⟩) := by
  rw [findEdge, eq_without_of_deleteRows h, get?_edges_without, findEdge]
  cases g.edges.get? key <;> rfl

/-- An edge that is not lost is there afterwards, and no edge is new. -/
theorem length_lostEdges
    (h : g.deleteRows entity filter (Evaluation.cascade kind) = .ok (report, g')) :
    g'.edgeCount + (g.lostEdges g').length = g.edgeCount := by
  have hkept : g.edgeList.countP (fun e => (g'.findEdge e.key).isSome) =
      g'.edgeList.countP fun _ => true := by
    refine countP_edgeList_eq fun key => ?_
    constructor
    · rintro ⟨e, he, hafter⟩
      obtain rfl := key_of_findEdge he
      obtain ⟨e', he'⟩ := Option.isSome_iff_exists.1 hafter
      exact ⟨e', he', rfl⟩
    · rintro ⟨e', he', -⟩
      obtain ⟨e, he, -⟩ := findEdge_of_deleteRows h he'
      obtain rfl := key_of_findEdge he
      exact ⟨e, he, Option.isSome_of_eq_some he'⟩
  have hlength (g : Graph) : g.edgeCount = g.edgeList.length := (List.length_map _).symm
  calc g'.edgeCount + (g.lostEdges g').length
      = g.edgeList.countP (fun e => (g'.findEdge e.key).isSome) +
          g.edgeList.countP fun e => (g'.findEdge e.key).isNone := by
        rw [hkept, List.countP_true, hlength, lostEdges, List.countP_eq_length_filter]
    _ = g.edgeCount := by
        rw [hlength, List.length_eq_countP_add_countP fun e => (g'.findEdge e.key).isSome]
        exact congrArg _ (List.countP_congr fun e _ => by simp)

/-- The rules are applied to the edges one after another, starting from a count of the rows. -/
theorem report_eq_foldl
    (h : g.deleteRows entity filter (Evaluation.cascade kind) = .ok (report, g')) :
    report.rows = (g.selectedIds entity filter).length ∧
      report.edgesRemoved + g'.edgeCount = g.edgeCount ∧
      report.grantsOrphaned = g.edgeList.countP fun e => CascadeRule.isForgotten e.key
        (cascadeSteps entity (g.selectedIds entity filter) (Evaluation.cascade kind)) e.stamp := by
  obtain ⟨_, -, -, hrun⟩ := deleteRows_run h
  generalize cascadeSteps entity (g.selectedIds entity filter) (Evaluation.cascade kind) = steps
    at hrun ⊢
  generalize hstart : (g.edges, (⟨(g.selectedIds entity filter).length, 0, 0⟩ : DeleteReport)) =
    start at hrun
  have hrows := rows_foldl_applyRule steps start
  have hbalance := foldl_applyRule_balance steps start
  have horphaned := grantsOrphaned_foldl steps start
  rw [← hrun, ← hstart] at hrows hbalance horphaned
  refine ⟨hrows, hbalance.trans (Nat.zero_add _), horphaned.trans ?_⟩
  rw [Nat.zero_add, edgeList, List.countP_map]
  rfl

/-- Deleting principals, an edge goes with its subject, or else forgets a grantor that has gone. -/
theorem Keyed.findEdge_of_principals (hg : g.Keyed)
    (h : g.deleteRows entity filter (Evaluation.cascade .principal) = .ok (report, g'))
    {key : EdgeKey} {e : Edge} (he : g.findEdge key = some e) :
    g'.findEdge key = if key.subject ∈ g.lostRows g' then none
      else some ⟨key, e.stamp.forget (g.lostRows g')⟩ := by
  have hgone (node : Node) :
      node ∈ (g.selectedIds entity filter).map (fun id => (⟨entity, id⟩ : Node)) ↔
        node ∈ g.lostRows g' := by
    rw [hg.mem_lostRows_iff h, List.mem_map]
  rw [findEdge_eq_of_deleteRows h, he, Option.bind_some, EntityKind.leaves]
  simp only [Stamp.forget, hgone]
  split <;> rfl

/-- Edges that survive the deletion of principals are counted if their grantor is deleted. -/
theorem Keyed.length_orphans (hg : g.Keyed)
    (h : g.deleteRows entity filter (Evaluation.cascade .principal) = .ok (report, g')) :
    (g.orphans g').length = g.edgeList.countP fun e => (g'.findEdge e.key).isSome &&
      e.stamp.grantedBy.any (· ∈ g.lostRows g') := by
  rw [orphans, ← List.countP_eq_length_filter]
  refine (countP_edgeList_eq fun key => ?_).symm
  constructor
  · rintro ⟨e, he, hp⟩
    obtain rfl := key_of_findEdge he
    rw [Bool.and_eq_true] at hp
    have hafter := hg.findEdge_of_principals h he
    have hstays : e.key.subject ∉ g.lostRows g' := fun hgoes => by
      rw [if_pos hgoes] at hafter
      simp [hafter] at hp
    rw [if_neg hstays] at hafter
    exact ⟨_, hafter, by simp [Stamp.forget, he, hp.2]⟩
  · rintro ⟨e', he', hp⟩
    obtain rfl := key_of_findEdge he'
    obtain ⟨e, he, -⟩ := findEdge_of_deleteRows h he'
    rw [Bool.and_eq_true, he, Option.bind_some] at hp
    refine ⟨e, he, ?_⟩
    rw [Bool.and_eq_true, key_of_findEdge he, he']
    exact ⟨rfl, hp.2⟩

/-- Deleting principals, an edge is counted if its grantor goes, unless its subject goes too and
    does not come later. -/
theorem Keyed.isForgotten_iff (hg : g.Keyed) {cascade : List CascadeRule}
    (h : g.deleteRows entity filter cascade = .ok (report, g')) (e : Edge) :
    CascadeRule.isForgotten e.key (cascadeSteps entity (g.selectedIds entity filter)
        (Evaluation.cascade .principal)) e.stamp = true ↔
      ∃ grantor ∈ g.lostRows g', e.stamp.grantedBy = some grantor ∧
        (e.key.subject ∈ g.lostRows g' → compare grantor.id e.key.subject.id = .lt) := by
  simp only [CascadeRule.isForgotten_cascade_iff (hg.pairwise_selectedIds entity filter),
    hg.mem_lostRows_iff h]
  constructor
  · rintro ⟨id, hid, hby, hlater⟩
    refine ⟨_, ⟨id, hid, rfl⟩, hby, ?_⟩
    rintro ⟨id', hid', hsubject⟩
    rw [← hsubject]
    exact hlater id' hid' hsubject.symm
  · rintro ⟨_, ⟨id, hid, rfl⟩, hby, hlater⟩
    refine ⟨id, hid, hby, fun id' hid' hsubject => ?_⟩
    rw [hsubject] at hlater
    exact hlater ⟨id', hid', rfl⟩

/-- **What is counted as orphaned when principals are deleted**: the edges that have lost their
    grantor, and those that were overtaken. -/
theorem Keyed.grantsOrphaned_of_principals (hg : g.Keyed)
    (h : g.deleteRows entity filter (Evaluation.cascade .principal) = .ok (report, g')) :
    report.grantsOrphaned = (g.orphans g').length + (overtaken .principal g g').length := by
  have hgoes {e : Edge} (he : e ∈ g.edgeList) :
      (g'.findEdge e.key).isSome = true ↔ e.key.subject ∉ g.lostRows g' := by
    rw [hg.findEdge_of_principals h (mem_edgeList_iff.1 he)]
    split <;> simp [*]
  rw [(report_eq_foldl h).2.2, hg.length_orphans h, overtaken, lostEdges, List.filter_filter,
    ← List.countP_eq_length_filter, ← countP_or_of_disjoint]
  · refine List.countP_congr fun e he => ?_
    rw [hg.isForgotten_iff h]
    by_cases hsubject : e.key.subject ∈ g.lostRows g'
    · have hnone : g'.findEdge e.key = none := by
        simpa [hsubject] using hgoes he
      simp [hsubject, hnone, and_left_comm, Option.any_eq_true]
    · have hsome := (hgoes he).2 hsubject
      simp [hsubject, hsome, Option.isSome_iff_ne_none.1 hsome, and_comm, Option.any_eq_true]
  · intro e _ hstays
    rw [Bool.and_eq_true] at hstays
    simp [Option.isNone_eq_false_iff.2 hstays.1]

/-- Deleting resources, the edges that stay keep their grantors. -/
theorem orphans_of_resources
    (h : g.deleteRows entity filter (Evaluation.cascade .resource) = .ok (report, g')) :
    g.orphans g' = [] := by
  refine List.filter_eq_nil_iff.2 fun e' he' horphan => ?_
  rw [mem_edgeList_iff, findEdge_eq_of_deleteRows h] at he'
  obtain ⟨e, he, hleft⟩ := Option.bind_eq_some_iff.1 he'
  obtain ⟨stamp, hstamp, heq⟩ := Option.map_eq_some_iff.1 hleft
  have hstays : e.stamp = stamp := by
    rw [EntityKind.leaves, Option.ite_none_left_eq_some] at hstamp
    exact Option.some.inj hstamp.2
  rw [Bool.and_eq_true, he, Option.bind_some, Option.isNone_iff_eq_none, ← heq, ← hstays] at horphan
  rw [horphan.1] at horphan
  exact Bool.false_ne_true horphan.2

/-- **The report of a deletion.** The counts of rows and edges are the numbers of those that were
    there before and are not there afterwards. The third count is not the number of edges that have
    lost their grantor: it is higher by those that were overtaken. -/
theorem Keyed.report_of_deleteRows (hg : g.Keyed)
    (h : g.deleteRows entity filter (Evaluation.cascade kind) = .ok (report, g')) :
    report.rows = (g.lostRows g').length ∧
      report.edgesRemoved = (g.lostEdges g').length ∧
      report.grantsOrphaned = (g.orphans g').length + (overtaken kind g g').length := by
  obtain ⟨hrows, hbalance, horphaned⟩ := report_eq_foldl h
  refine ⟨hrows.trans (hg.length_lostRows h).symm, ?_, ?_⟩
  · have hlost := length_lostEdges h
    omega
  · cases kind with
    | principal => exact hg.grantsOrphaned_of_principals h
    | resource =>
      rw [horphaned, orphans_of_resources h]
      exact List.countP_eq_zero.2 fun edge _ => by
        rw [CascadeRule.isForgotten_cascade_resource]
        exact Bool.false_ne_true

end Graph

end Warrant
