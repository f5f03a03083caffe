import Warrant.Proofs.Store.Runs

/-!
# Referential integrity

A permission joins a row that acts to a row that is acted upon. Deleting either row takes the
permission away, and nothing else takes rows away, so no permission outlives its rows: a row that
is added again later starts without any.

Rows from outside may be added at any time and need not repeat their identity. What counts is where
they are filed. For edges there is no difference in a graph, which keeps their keys once. That stores
which keep them twice file every edge under its own key is said in `Warrant.Proofs.Store.Filing`.

## Main definitions

- `EdgeKey.Grounded` — the rows of an edge are there and of the right kinds
- `Graph.Intact` — every edge is grounded
- `Memory.Reachable` — the stores that a program can come across

## Main statements

- `Graph.Intact.step` — plans that fit a schema preserve integrity
- `Memory.Reachable.integrity` — it holds in every store that a program can come across
-/

namespace Warrant

variable {schema : Schema}

/-- **An edge is grounded**: its subject is a row of an entity whose rows act, its object is a row of
    an entity whose rows are acted upon, and its permission may be used. -/
structure EdgeKey.Grounded (schema : Schema) (g : Graph) (key : EdgeKey) : Prop where
  subject : (g.row? key.subject).isSome
  actor : ∃ e, schema.entity? key.subject.entity = some e ∧ e.kind = .principal
  object : (g.row? key.object).isSome
  resource : ∃ e, schema.entity? key.object.entity = some e ∧ e.kind = .resource
  permission : schema.hasPermission key.permission = true

theorem EdgeKey.Grounded.of_rows {g g' : Graph} {key : EdgeKey} (h : key.Grounded schema g)
    (hrows : ∀ node ∈ [key.subject, key.object], (g.row? node).isSome → (g'.row? node).isSome) :
    key.Grounded schema g' := by
  refine ⟨?_, h.actor, ?_, h.resource, h.permission⟩
  · exact hrows _ (by simp) h.subject
  · exact hrows _ (by simp) h.object

namespace Graph

variable {g g' : Graph} {now : Instant} {p : Node}

/-- **A graph is intact**: rows are filed under their identities and edges are grounded. -/
structure Intact (schema : Schema) (g : Graph) : Prop where
  keyed : g.Keyed
  grounded : ∀ key, (g.findEdge key).isSome → key.Grounded schema g

/-- A graph that has lost no row is intact if the edges it has gained are grounded. -/
theorem Intact.of_rows (h : Intact schema g) (hg' : g'.Keyed)
    (hrows : ∀ node, (g.row? node).isSome → (g'.row? node).isSome)
    (hedges : ∀ key, (g'.findEdge key).isSome →
      (g.findEdge key).isSome ∨ key.Grounded schema g') : Intact schema g' := by
  refine ⟨hg', fun key hkey => ?_⟩
  rcases hedges key hkey with hkey | hgrounded
  · exact (h.grounded key hkey).of_rows fun node _ => hrows node
  · exact hgrounded

theorem intact_ofSchema (schema : Schema) : Intact schema (ofSchema schema) :=
  ⟨(faithful_ofSchema schema).keyed, fun _ h => nomatch h⟩

/-- Adding rows, new ones or in the place of others, preserves integrity. -/
theorem Intact.insertRows (h : Intact schema g) {entity : String} {rows : List Row}
    (hins : g.insertRows entity rows = .ok g') : Intact schema g' := by
  obtain ⟨hedges, hrows⟩ := insertRows_eq_ok hins
  refine h.of_rows (h.keyed.insertRows hins) (fun node hnode => ?_) fun key hkey => .inl ?_
  · rw [hrows]
    split
    · rw [Option.isSome_or, hnode, Bool.or_true]
    · exact hnode
  · rw [findEdge, ← hedges]
    exact hkey

theorem Intact.grounded_of_delegate (h : Intact schema g) {action : Verb} {access : Access}
    {key : EdgeKey} (hfits : access.Fits schema) (hkey : g.delegate p action access = .ok key) :
    key.Grounded schema g := by
  obtain ⟨subject, resource, hsubject, hresource, -, rfl⟩ := delegate_eq_ok_iff.1 hkey
  rw [rowsOf_eq_ok_iff] at hsubject hresource
  have hs := h.keyed.row?_of_mem_find hsubject (List.mem_singleton_self subject)
  have hr := h.keyed.row?_of_mem_find hresource (List.mem_singleton_self resource)
  exact {
    subject := Option.isSome_of_eq_some hs
    actor := hfits.subject
    object := Option.isSome_of_eq_some hr
    resource := Schema.exists_ownerField?_iff.1 ⟨_, hfits.resource⟩
    permission := hfits.permission }

/-- **Deleting rows preserves integrity** when the rules are those of the kind of the rows. The
    other end of an edge is of the other kind, so it is not among the deleted rows. -/
theorem Intact.deleteRows (h : Intact schema g) {entity : String} {filter : Filter} {e : Entity}
    {report : DeleteReport} (he : schema.entity? entity = some e) (hg' : g'.Keyed)
    (hdel : g.deleteRows entity filter (Evaluation.cascade e.kind) = .ok (report, g')) :
    Intact schema g' := by
  refine ⟨hg', fun key hkey => ?_⟩
  obtain ⟨e', he'⟩ := Option.isSome_iff_exists.1 hkey
  obtain ⟨edge, hedge, -, hspares⟩ := findEdge_of_deleteRows hdel he'
  have hgrounded := h.grounded key (Option.isSome_of_eq_some hedge)
  -- It is enough that neither end is deleted.
  suffices hends : ∀ node ∈ [key.subject, key.object],
      ¬ (node.entity = entity ∧ node.id ∈ g.selectedIds entity filter) by
    refine hgrounded.of_rows fun node hnode hrow => ?_
    rw [(deleteRows_eq_ok hdel).1, if_neg (hends node hnode)]
    exact hrow
  rintro node hnode ⟨rfl, hid⟩
  obtain ⟨actor, hactor, hprincipal⟩ := hgrounded.actor
  obtain ⟨resource, hresource, hkind⟩ := hgrounded.resource
  rcases List.mem_cons.1 hnode with rfl | hnode
  · obtain rfl := Option.some.inj (hactor.symm.trans he)
    rw [hprincipal] at hspares
    exact hspares _ hid .removeEdgesAsSubject (by decide) rfl
  · obtain rfl := List.mem_singleton.1 hnode
    obtain rfl := Option.some.inj (hresource.symm.trans he)
    rw [hkind] at hspares
    exact hspares _ hid .removeEdgesAsObject (by decide) rfl

/-- **Integrity is preserved by every operation that fits the schema**, whoever runs it. -/
theorem Intact.step {op : Operation} (h : Intact schema g) (hfits : op.Fits schema)
    (hstep : g.Step now p op g') : Intact schema g' := by
  have hg' := hstep.keyed h.keyed
  -- Only two things could break integrity: an edge that is new, and a row that goes.
  cases hstep with
  | get | check => exact h
  | grant hkey =>
    refine h.of_rows hg' (fun _ hrow => hrow) fun key hsome => ?_
    rw [findEdge_upsertEdge] at hsome
    split at hsome
    · next heq =>
      rw [heq]
      exact .inr ((h.grounded_of_delegate hfits hkey).of_rows fun _ _ hrow => hrow)
    · exact .inl hsome
  | revoke hkey =>
    refine h.of_rows hg' (fun _ hrow => hrow) fun key hsome => ?_
    rw [findEdge_deleteEdge] at hsome
    split at hsome
    · exact nomatch hsome
    · exact .inl hsome
  | update hrows hguard hwrite =>
    obtain ⟨hedges, hafter⟩ := updateRows_eq_ok hwrite
    refine h.of_rows hg' (fun node hrow => ?_) fun key hsome => .inl ?_
    · rw [hafter, Option.isSome_map]
      exact hrow
    · rw [findEdge, ← hedges]
      exact hsome
  | delete hguard hwrite =>
    obtain ⟨⟨e, he, rfl⟩, -⟩ := hfits
    exact h.deleteRows he hg' hwrite

/-- In an intact graph nobody may do anything with a row that is not there. -/
theorem Intact.edgesOf_eq_nil (h : Intact schema g) {node : Node} (hnode : g.row? node = none) :
    g.edgesOf node = [] := by
  refine List.eq_nil_iff_forall_not_mem.2 fun e he => ?_
  obtain ⟨hfind, hend⟩ := mem_edgesOf_iff.1 he
  have hgrounded := h.grounded e.key (Option.isSome_of_eq_some hfind)
  rcases hend with rfl | rfl
  · have hrow := hgrounded.subject
    rw [hnode] at hrow
    exact nomatch hrow
  · have hrow := hgrounded.object
    rw [hnode] at hrow
    exact nomatch hrow

end Graph

namespace Memory

variable {m m' : Memory}

/-- **The stores that a program can come across** under a schema: at first there are no rows; then
    rows are added from outside, and plans compiled for anybody are run on behalf of anybody. -/
inductive Reachable (schema : Schema) : Memory → Prop
  | start : Reachable schema (.ofSchema schema)
  | inserted {m m' : Memory} {entity : String} {rows : List Row} (h : Reachable schema m)
    (hins : m.insertRows entity rows = .ok m') : Reachable schema m'
  | ran {m m' : Memory} (h : Reachable schema m)
    (hran : m.Ran (fun _ plan => ∃ p, plan.CompiledFor schema p) m') : Reachable schema m'

/-- Rows from outside are added to the published graph while no transaction is open. -/
theorem insertRows_eq_ok_iff {entity : String} {rows : List Row} :
    m.insertRows entity rows = .ok m' ↔ m.busy = false ∧
      ∃ g, m.published.insertRows entity rows = .ok g ∧ { m with published := g } = m' := by
  cases hbusy : m.busy with
  | true =>
    have hwaits : m.insertRows entity rows = .error .deadlineExceeded := by
      rw [insertRows, begin, hbusy]
      rfl
    rw [hwaits]
    exact ⟨nofun, fun h => nomatch h.1⟩
  | false =>
    rw [insertRows_of_idle hbusy, map_eq_ok_iff, hbusy]
    exact ⟨fun h => ⟨rfl, h⟩, And.right⟩

theorem insertRows_eq_ok {entity : String} {rows : List Row}
    (h : m.insertRows entity rows = .ok m') :
    m.published.insertRows entity rows = .ok m'.published := by
  obtain ⟨-, g, hg, rfl⟩ := insertRows_eq_ok_iff.1 h
  exact hg

theorem Reachable.intact (h : m.Reachable schema) : m.published.Intact schema := by
  induction h with
  | start => exact Graph.intact_ofSchema schema
  | inserted _ hins ih => exact ih.insertRows (insertRows_eq_ok hins)
  | ran _ hran ih =>
    rcases hran.step with rfl | ⟨_, _, plan, g, ⟨p, hplan⟩, -, hstep, rfl⟩
    · exact ih
    · exact ih.step hplan.fits.2 hstep

/-- **Referential integrity.** In every store that a program can come across there is one edge at
    most for a key and every edge is grounded. So a row that is not there, say because it has been
    deleted, is without any edge after it has been added again. -/
theorem Reachable.integrity (h : m.Reachable schema) :
    (m.published.edgeList.map Edge.key).Nodup ∧
    (∀ e ∈ m.published.edgeList,
      m.published.findEdge e.key = some e ∧ e.key.Grounded schema m.published) ∧
    ∀ entity id rows m', m.published.row? ⟨entity, id⟩ = none →
      m.insertRows entity rows = .ok m' → m'.published.edgesOf ⟨entity, id⟩ = [] := by
  have hintact := h.intact
  refine ⟨m.published.nodup_keys_edgeList, fun e he => ?_, fun entity id rows m' hrow hins => ?_⟩
  · rw [Graph.mem_edgeList_iff] at he
    exact ⟨he, hintact.grounded e.key (Option.isSome_of_eq_some he)⟩
  · have hedges := (Graph.insertRows_eq_ok (insertRows_eq_ok hins)).1
    rw [Graph.edgesOf, Graph.edgeList, hedges]
    exact hintact.edgesOf_eq_nil hrow

/-- bob may read a document. When he is deleted and added again, he may not. -/
theorem integrity_of_added_again :
    ∃ (alice : Principal) (now : Instant) (users loaded m : Memory) (grant deletion : Plan),
      (Memory.ofSchema .standard).insertRows "User" [.new "alice", .new "bob"] = .ok users ∧
      users.insertRows "Resource" [.ofFields "doc" [("owner", .string "alice")]] = .ok loaded ∧
      compile .standard alice "GRANT read ON Resource.doc TO User.bob" = .ok grant ∧
      compile .standard alice "DELETE User.bob" = .ok deletion ∧
      let granted := (loaded.attempt Watch.never () (grant.execute now alice).run).2.memory
      let deleted := (granted.attempt Watch.never () (deletion.execute now alice).run).2.memory
      deleted.insertRows "User" [.new "bob"] = .ok m ∧
        granted.published.edgesOf ⟨"User", "bob"⟩ ≠ [] ∧
        m.published.edgesOf ⟨"User", "bob"⟩ = [] := by
  let alice : Principal := ⟨"User", "alice"⟩
  let now : Instant := ⟨⟨2024, 1, 1, by decide, by decide⟩, 0, 0, by decide, by decide, by decide⟩
  obtain ⟨users, loaded, grant, deletion, husers, hloaded, hgrant, hdeletion, hedge, hrow, hok⟩ :
      ∃ users loaded grant deletion,
        (Memory.ofSchema .standard).insertRows "User" [.new "alice", .new "bob"] = .ok users ∧
        users.insertRows "Resource" [.ofFields "doc" [("owner", .string "alice")]] = .ok loaded ∧
        compile .standard alice "GRANT read ON Resource.doc TO User.bob" = .ok grant ∧
        compile .standard alice "DELETE User.bob" = .ok deletion ∧
        let granted := (loaded.attempt Watch.never () (grant.execute now alice).run).2.memory
        let deleted := (granted.attempt Watch.never () (deletion.execute now alice).run).2.memory
        granted.published.edgesOf ⟨"User", "bob"⟩ ≠ [] ∧
          deleted.published.row? ⟨"User", "bob"⟩ = none ∧
          (deleted.insertRows "User" [.new "bob"]).isOk = true :=
    ⟨_, _, _, _, rfl, rfl, rfl, rfl, by decide +kernel, by decide +kernel, by decide +kernel⟩
  obtain ⟨m, hm⟩ := isOk_iff.1 hok
  have hgranted := Reachable.ran (.inserted (.inserted .start husers) hloaded)
    (.attempt Watch.never () now alice grant ⟨alice, _, hgrant⟩)
  have hdeleted := hgranted.ran (.attempt Watch.never () now alice deletion ⟨alice, _, hdeletion⟩)
  exact ⟨alice, now, users, loaded, m, grant, deletion, husers, hloaded, hgrant, hdeletion, hm,
    hedge, hdeleted.integrity.2.2 _ _ _ _ hrow hm⟩

end Memory

end Warrant
