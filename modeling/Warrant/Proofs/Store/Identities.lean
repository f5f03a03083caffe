import Warrant.Proofs.Authority.Guards
import Warrant.Proofs.Store.Searching

/-!
# Identities that stay

Only rows from outside create rows, and a row has its identity for good. No schema is asked for this
and no statement: a plan may assign the identity, or one field twice, and it may come from anywhere.
What it can do to a store is bounded by the store alone.

## Main definitions

- `Graph.ids` — the identities of the rows of an entity
- `Graph.Frame` — what an operation leaves as it was

## Main statements

- `Graph.Step.frame` — every operation that succeeds leaves it so
- `Memory.Grown.attempt_frame` — so does every run on every store to which rows have been added
-/

namespace Warrant

/-- Maps that bind the same keys list the same keys. -/
theorem SortedMap.keys_congr {κ ν : Type} [Ord κ] [Std.TransOrd κ] [Std.LawfulEqOrd κ]
    {m n : SortedMap κ ν} (h : ∀ k, (m.get? k).isSome = (n.get? k).isSome) : m.keys = n.keys := by
  -- The keys are the bindings of a map from which the values have been taken away.
  have hbare (m : SortedMap κ ν) : (m.mapValues fun _ _ => ()).keys = m.keys := by
    simp [keys, mapValues]
  rw [← hbare m, ← hbare n]
  congr 1
  refine ext_get? fun k => ?_
  rw [get?_mapValues m fun _ _ _ _ => rfl, get?_mapValues n fun _ _ _ _ => rfl]
  specialize h k
  cases hm : m.get? k <;> cases hn : n.get? k <;> simp_all

/-- An operation deletes rows of an entity. -/
def Operation.DeletesFrom (op : Operation) (entity : String) : Prop :=
  op.verb = .delete ∧ op.entity = entity

namespace Graph

variable {g g' : Graph} {op : Operation} {entity : String}

/-- The identities of the rows of an entity, in order. -/
def ids (g : Graph) (entity : String) : List String :=
  ((g.tables.get? entity).getD SortedMap.empty).keys

theorem get?_getD_table (g : Graph) (entity id : String) :
    ((g.tables.get? entity).getD SortedMap.empty).get? id = g.row? ⟨entity, id⟩ := by
  unfold row?
  cases g.tables.get? entity <;> rfl

theorem mem_ids_iff {id : String} : id ∈ g.ids entity ↔ (g.row? ⟨entity, id⟩).isSome := by
  rw [ids, SortedMap.mem_keys_iff, get?_getD_table]

theorem ids_congr
    (h : ∀ id, (g'.row? ⟨entity, id⟩).isSome = (g.row? ⟨entity, id⟩).isSome) :
    g'.ids entity = g.ids entity := by
  apply SortedMap.keys_congr
  intro id
  rw [get?_getD_table, get?_getD_table]
  exact h id

/-- **What an operation leaves as it was.** The entities are the same. No row is created, rows go
    only where they are deleted, and a row that is still there has its identity and the copy of it.
    Rows change by UPDATE and DELETE alone, and edges by GRANT, REVOKE and DELETE. -/
structure Frame (op : Operation) (g g' : Graph) : Prop where
  entities : g'.tables.keys = g.tables.keys
  ids_subset : ∀ entity, g'.ids entity ⊆ g.ids entity
  ids_eq : ∀ entity, ¬ op.DeletesFrom entity → g'.ids entity = g.ids entity
  rows : ∀ node row', g'.row? node = some row' → ∃ row, g.row? node = some row ∧
    row'.id = row.id ∧ row'.get? Row.idField = row.get? Row.idField
  tables_eq : op.verb ∈ [.get, .check, .grant, .revoke] → g'.tables = g.tables
  edges_eq : op.verb ∈ [.get, .check, .update] → g'.edges = g.edges

theorem Frame.refl (op : Operation) (g : Graph) : Frame op g g where
  entities := rfl
  ids_subset _ := List.Subset.refl _
  ids_eq _ _ := rfl
  rows _ row' hrow := ⟨row', hrow, rfl, rfl⟩
  tables_eq _ := rfl
  edges_eq _ := rfl

variable {now : Instant} {p : Node}

/-- A row is there after a step if it was there before, unless its entity is deleted from. -/
theorem Step.isSome_row? (h : Step now p g op g') {node : Node}
    (hnode : ¬ op.DeletesFrom node.entity) : (g'.row? node).isSome = (g.row? node).isSome := by
  cases h with
  | get | check | grant | revoke => rfl
  | update _ _ hwrite => rw [(updateRows_eq_ok hwrite).2, Option.isSome_map]
  | delete _ hwrite =>
    rw [(deleteRows_eq_ok hwrite).1, if_neg]
    rintro ⟨hentity, -⟩
    exact hnode ⟨rfl, hentity.symm⟩

theorem Step.tables_eq (h : Step now p g op g')
    (hop : op.verb ∈ [.get, .check, .grant, .revoke]) : g'.tables = g.tables := by
  cases h with
  | get | check | grant | revoke => rfl
  | update | delete => simp [Operation.verb] at hop

theorem Step.edges_eq (h : Step now p g op g') (hop : op.verb ∈ [.get, .check, .update]) :
    g'.edges = g.edges := by
  cases h with
  | get | check => rfl
  | update _ _ hwrite => exact (updateRows_eq_ok hwrite).1
  | grant | revoke | delete => simp [Operation.verb] at hop

/-- **Every operation that succeeds leaves the frame as it was.** -/
theorem Step.frame (h : Step now p g op g') : Frame op g g' where
  entities := by
    apply SortedMap.keys_congr
    intro name
    have htable : g'.HasTable name ↔ g.HasTable name := h.hasTable_iff
    simp only [HasTable, table_eq_ok_iff] at htable
    rw [Bool.eq_iff_iff, Option.isSome_iff_exists, Option.isSome_iff_exists]
    exact htable
  ids_subset entity := by
    intro id hid
    rw [mem_ids_iff] at hid ⊢
    obtain ⟨row', hrow'⟩ := Option.isSome_iff_exists.1 hid
    obtain ⟨row, hrow, -⟩ := h.exists_row hrow'
    exact Option.isSome_of_eq_some hrow
  ids_eq entity hentity := ids_congr fun _ => h.isSome_row? hentity
  rows _ _ hrow := h.exists_row hrow
  tables_eq := h.tables_eq
  edges_eq := h.edges_eq

end Graph

namespace Memory

variable {schema : Schema} {m : Memory}

/-- **No plan creates a row or changes an identity.** In every store to which any rows have been added
    and on which any plans have been run, rows are filed under their identities; and whatever plan is
    run next, for whomever, at any time and whether it is given up or not, it leaves the frame as it
    was. -/
theorem Grown.attempt_frame (hm : m.Grown schema fun _ => True) :
    m.published.Keyed ∧
    ∀ {ι : Type} (watch : Watch ι) (caller : ι) (now : Instant) (p : Principal) (plan : Plan),
      Graph.Frame plan.operation m.published
        (m.attempt watch caller (plan.execute now p).run).2.memory.published := by
  refine ⟨hm.keyed, fun watch caller now p plan => ?_⟩
  rcases plan.step_of_attempt watch m caller now p with hsame | ⟨-, g, hstep, hchanged⟩
  · rw [hsame]
    exact .refl plan.operation m.published
  · rw [hchanged]
    exact hstep.frame

/-- A plan that no statement has assigns to all users another identity, and a name twice. Of this only
    the second name is written: alice is still alice, and nobody else is there. -/
theorem Grown.attempt_frame_disguise :
    let alice : Principal := ⟨"User", "alice"⟩
    let plan : Plan := ⟨0, alice, .update ⟨"User", .all⟩
      [⟨"id", .string "mallory", .string⟩, ⟨"username", .string "eve", .string⟩,
        ⟨"username", .string "bob", .string⟩] none⟩
    ∃ (m : Memory) (now : Instant),
      (Memory.ofSchema .standard).insertRows "User" [.new "alice"] = .ok m ∧
      m.Grown .standard (fun _ => True) ∧
      let m' := (m.attempt Watch.never () (plan.execute now alice).run).2.memory
      m.published.Keyed ∧ Graph.Frame plan.operation m.published m'.published ∧
        m'.published.ids "User" = ["alice"] ∧
        (m'.published.row? ⟨"User", "alice"⟩).map (fun row => (row.get? "id", row.get? "username")) =
          some (some (.string "alice"), some (.string "bob")) := by
  intro alice plan
  let now : Instant := ⟨⟨2024, 1, 1, by decide, by decide⟩, 0, 0, by decide, by decide, by decide⟩
  obtain ⟨m, hm, hids, hrow⟩ : ∃ m,
      (Memory.ofSchema .standard).insertRows "User" [.new "alice"] = .ok m ∧
      m.published.ids "User" = ["alice"] ∧
      ((m.attempt Watch.never () (plan.execute now alice).run).2.memory.published.row?
          ⟨"User", "alice"⟩).map (fun row => (row.get? "id", row.get? "username")) =
        some (some (.string "alice"), some (.string "bob")) :=
    ⟨_, rfl, by decide +kernel, by decide +kernel⟩
  have hgrown : m.Grown .standard fun _ => True := .inserted .start (fun _ _ => trivial) hm
  obtain ⟨hkeyed, hframe⟩ := Grown.attempt_frame hgrown
  have hrun := hframe Watch.never () now alice plan
  refine ⟨m, now, hm, hgrown, hkeyed, hrun, ?_, hrow⟩
  rw [hrun.ids_eq "User" (fun hdeletes => nomatch hdeletes.1), hids]

end Memory

end Warrant
