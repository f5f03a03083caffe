import Warrant.Proofs.Bytes.Utf8
import Warrant.Proofs.Store.Tables

/-!
# Searching by identity

A filter that asks for one identity and nothing else is not tried on every row: the row that is filed
under the identity is looked up. That is the same if the rows repeat their identity, as built rows do.
A row from outside may carry another identity than the one under which it is filed. Then what is
looked up is not what a search would find, and DELETE, which guards what is looked up, deletes what
a search finds.

## Main definitions

- `Graph.SearchesExactly` — every filter finds the rows that it selects
- `Graph.DeletesFound` — every filter deletes the rows that it finds
- `Memory.Grown` — the stores to which rows of some sort have been added

## Main statements

- `Graph.Keyed.searchesExactly_iff`, `Graph.Keyed.deletesFound_iff` — the rows for which lookups and
  searches agree
- `Memory.Grown.find_exact` — what a store finds and deletes
- `Memory.Grown.find_of_false_copy` — a row that is deleted with another one
-/

namespace Warrant

open Bytes

namespace Graph

variable {g g' : Graph} {entity : String} {filter : Filter} {rows : List Row} {row : Row}

/-- **Every filter finds the rows of an entity that it selects.** -/
def SearchesExactly (g : Graph) (entity : String) : Prop :=
  ∀ filter rows, g.find entity filter = .ok rows →
    ∀ row, row ∈ rows ↔ g.row? ⟨entity, row.id⟩ = some row ∧ filter.selects row = true

/-- **Every filter deletes the rows of an entity that it finds.** -/
def DeletesFound (g : Graph) (entity : String) : Prop :=
  ∀ filter cascade rows report g', g.find entity filter = .ok rows →
    g.deleteRows entity filter cascade = .ok (report, g') →
    ∀ row, row ∈ rows ↔ g.row? ⟨entity, row.id⟩ = some row ∧ g'.row? ⟨entity, row.id⟩ = none

/-- The rows of an entity repeat their identity. -/
def Repeats (g : Graph) (entity : String) : Prop :=
  ∀ row, g.row? ⟨entity, row.id⟩ = some row → row.Faithful

theorem Faithful.repeats (hg : g.Faithful) (entity : String) : g.Repeats entity :=
  fun _ hrow => (hg _ _ hrow).2

/-- What is filed under the identity of a row is found by asking for it. -/
theorem find_hasId (h : g.find entity (.hasId row.id) = .ok rows)
    (hrow : g.row? ⟨entity, row.id⟩ = some row) : row ∈ rows := by
  have hp : (Filter.hasId row.id).pinnedId? = some row.id := rfl
  rw [find_of_pinned hp h, hrow]
  exact List.mem_singleton_self row

/-- **A deletion goes by the search**: a filter deletes the rows that it selects. -/
theorem Keyed.deleted_iff (hg : g.Keyed) {cascade : List CascadeRule} {report : DeleteReport}
    (h : g.deleteRows entity filter cascade = .ok (report, g'))
    (hrow : g.row? ⟨entity, row.id⟩ = some row) :
    g'.row? ⟨entity, row.id⟩ = none ↔ filter.selects row = true := by
  have hselected : row.id ∈ g.selectedIds entity filter ↔ filter.selects row = true := by
    rw [hg.mem_selectedIds_iff, hrow]
    exact ⟨fun ⟨_, heq, hsel⟩ => Option.some.inj heq ▸ hsel, fun hsel => ⟨row, rfl, hsel⟩⟩
  rw [(deleteRows_eq_ok h).1, ← hselected, hrow]
  simp

/-- **A search is exact when rows repeat their identity**, and only then. -/
theorem Keyed.searchesExactly_iff (hg : g.Keyed) (htable : g.HasTable entity) :
    g.SearchesExactly entity ↔ g.Repeats entity := by
  constructor
  · intro hexact row hrow
    obtain ⟨rows, hrows⟩ := htable.exists_find (.hasId row.id)
    exact Filter.selects_hasId_iff.1 ((hexact _ _ hrows row).1 (find_hasId hrows hrow)).2
  · exact fun hrepeats _ _ hrows _ => hg.mem_find_iff hrepeats hrows

/-- What is found is deleted when rows repeat their identity, and only then. -/
theorem Keyed.deletesFound_iff (hg : g.Keyed) (htable : g.HasTable entity) :
    g.DeletesFound entity ↔ g.Repeats entity := by
  constructor
  · intro hfound row hrow
    obtain ⟨rows, hrows⟩ := htable.exists_find (.hasId row.id)
    obtain ⟨report, g', hdelete⟩ := htable.exists_deleteRows (.hasId row.id) []
    have hdeleted := ((hfound _ _ _ _ _ hrows hdelete row).1 (find_hasId hrows hrow)).2
    exact Filter.selects_hasId_iff.1 ((hg.deleted_iff hdelete hrow).1 hdeleted)
  · intro hrepeats filter cascade rows report g' hrows hdelete row
    rw [hg.mem_find_iff hrepeats hrows]
    exact and_congr_right fun hrow => (hg.deleted_iff hdelete hrow).symm

end Graph

namespace Memory

variable {schema : Schema} {admits : Row → Prop} {m : Memory} {e : Entity}

/-- **The stores to which rows of some sort have been added.** Any plans, compiled or not, have been
    run on them, whether they were given up or not. -/
inductive Grown (schema : Schema) (admits : Row → Prop) : Memory → Prop
  | start : Grown schema admits (.ofSchema schema)
  | inserted {m m' : Memory} {entity : String} {rows : List Row} (h : Grown schema admits m)
    (hrows : ∀ row ∈ rows, admits row) (hins : m.insertRows entity rows = .ok m') :
    Grown schema admits m'
  | ran {m m' : Memory} (h : Grown schema admits m) (hran : m.Ran (fun _ _ => True) m') :
    Grown schema admits m'

theorem Grown.keyed (h : m.Grown schema admits) : m.published.Keyed := by
  induction h with
  | start => exact (Graph.faithful_ofSchema schema).keyed
  | inserted _ _ hins ih => exact ih.insertRows (insertRows_eq_ok hins)
  | ran _ hran ih =>
    rcases hran.step with rfl | ⟨_, _, _, g, -, -, hstep, rfl⟩
    · exact ih
    · exact hstep.keyed ih

theorem Grown.houses (h : m.Grown schema admits) : m.published.Houses schema := by
  induction h with
  | start => exact Graph.houses_ofSchema schema
  | inserted _ _ hins ih => exact houses_insertRows hins ih
  | ran _ hran ih => exact hran.houses ih

/-- Rows that repeat their identity when they are added do so ever after. -/
theorem Grown.faithful (h : m.Grown schema admits) (hadmits : ∀ row, admits row → row.Faithful) :
    m.published.Faithful := by
  induction h with
  | start => exact Graph.faithful_ofSchema schema
  | inserted _ hrows hins ih =>
    exact ih.insertRows (fun row hrow => hadmits row (hrows row hrow)) (insertRows_eq_ok hins)
  | ran _ hran ih =>
    rcases hran.step with rfl | ⟨_, _, _, g, -, -, hstep, rfl⟩
    · exact ih
    · exact hstep.faithful ih

/-- **What a store finds and deletes.** Every filter finds rows in the order of the bytes of their
    identities: those that it selects, or, if it asks for one identity, the row that is filed under
    it. For all filters these are the rows that they select, and also the rows that they delete,
    exactly if the stored rows repeat their identity, and so if all rows that were added do. -/
theorem Grown.find_exact (hm : m.Grown schema admits) (he : e ∈ schema.entities) :
    (∀ filter, ∃ rows, m.published.find e.name filter = .ok rows ∧
      rows.Pairwise (fun row row' => ofString row.id < ofString row'.id) ∧
      match filter.pinnedId? with
      | some id => rows = (m.published.row? ⟨e.name, id⟩).toList
      | none => ∀ row, row ∈ rows ↔
          m.published.row? ⟨e.name, row.id⟩ = some row ∧ filter.selects row = true) ∧
    (m.published.SearchesExactly e.name ↔ m.published.Repeats e.name) ∧
    (m.published.DeletesFound e.name ↔ m.published.Repeats e.name) ∧
    ((∀ row, admits row → row.Faithful) → m.published.Repeats e.name) := by
  have hg := hm.keyed
  have htable := hm.houses e he
  refine ⟨fun filter => ?_, hg.searchesExactly_iff htable, hg.deletesFound_iff htable,
    fun hadmits => (hm.faithful hadmits).repeats e.name⟩
  obtain ⟨rows, hrows⟩ := htable.exists_find filter
  refine ⟨rows, hrows, (hg.pairwise_find hrows).imp ofString_lt_of_compare, ?_⟩
  cases hp : filter.pinnedId? with
  | some id => exact Graph.find_of_pinned hp hrows
  | none => exact fun row => hg.mem_find_iff_of_unpinned hp hrows

/-- The rows of two documents that have been built are found and deleted by what they are. -/
theorem Grown.find_exact_built : ∃ m : Memory,
    (Memory.ofSchema .standard).insertRows "Resource"
      [.ofFields "doc" [("owner", .string "alice")],
        .ofFields "memo" [("owner", .string "bob")]] = .ok m ∧
    m.published.SearchesExactly "Resource" ∧ m.published.DeletesFound "Resource" := by
  obtain ⟨m, hm⟩ : ∃ m, (Memory.ofSchema .standard).insertRows "Resource"
      [.ofFields "doc" [("owner", .string "alice")],
        .ofFields "memo" [("owner", .string "bob")]] = .ok m := ⟨_, rfl⟩
  have hgrown : m.Grown .standard Row.Faithful := .inserted .start (by decide +kernel) hm
  obtain ⟨-, hsearches, hdeletes, hrepeats⟩ := hgrown.find_exact
    (e := ⟨"Resource", .resource, [⟨"id", .string, true⟩, ⟨"type", .string, false⟩,
      ⟨"name", .string, false⟩, ⟨"owner", .string, false⟩], none⟩) (by decide)
  have hrepeats := hrepeats fun _ hrow => hrow
  exact ⟨m, hm, hsearches.2 hrepeats, hdeletes.2 hrepeats⟩

/-- **A row that is deleted with another one.** The document of alice says of itself that it is the
    memo of bob. When bob asks for the memo he finds the memo, and when he deletes it, the document
    goes too, which he may not administer. -/
theorem Grown.find_of_false_copy : ∃ (m : Memory) (doc memo : Row) (bob : Principal)
    (now : Instant) (plan : Plan),
    m.Grown .standard (fun _ => True) ∧
    m.published.row? ⟨"Resource", "doc"⟩ = some doc ∧
    (Filter.hasId "memo").selects doc = true ∧
    m.published.find "Resource" (.hasId "memo") = .ok [memo] ∧ doc ≠ memo ∧
    compile .standard bob "DELETE Resource.memo" = .ok plan ∧
    (¬ m.published.Administers bob.node ⟨"Resource", "doc"⟩ doc "owner") ∧
    (m.attempt Watch.never () (plan.execute now bob).run).2.memory.published.row?
      ⟨"Resource", "doc"⟩ = none := by
  let doc : Row := ⟨"doc", .ofList [("id", .string "memo"), ("owner", .string "alice")]⟩
  let memo : Row := .ofFields "memo" [("owner", .string "bob")]
  obtain ⟨m, hm⟩ : ∃ m, (Memory.ofSchema .standard).insertRows "Resource" [doc, memo] = .ok m :=
    ⟨_, rfl⟩
  have hgrown : m.Grown .standard (fun _ => True) := .inserted .start (fun _ _ => trivial) hm
  obtain rfl := Except.ok.inj hm
  refine ⟨_, doc, memo, ⟨"User", "bob"⟩,
    ⟨⟨2024, 1, 2, by decide, by decide⟩, 0, 0, by decide, by decide, by decide⟩, _, hgrown,
    by decide +kernel, by decide +kernel, by decide +kernel, by decide +kernel, rfl, ?_,
    by decide +kernel⟩
  unfold Graph.Administers
  decide +kernel

end Memory

end Warrant
