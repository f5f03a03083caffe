import Warrant.Graph.Lemmas

/-!
# Rows of a graph

A graph is seen through its rows and its edges. This module says what is found and what becomes of
rows when a table changes. The store files every row under its identity, and a row that was built
from its identity repeats it in a field; then looking up an identity and searching for it are the
same.

## Main definitions

- `Graph.row?` — the row at a node
- `Graph.Keyed` — every row is filed under its identity
- `Graph.Faithful` — and repeats it in its field `id`

## Main statements

- `Graph.Keyed.mem_find_iff` — what a filter finds
- `Graph.updateFields_eq_ok`, `Graph.insertRows_eq_ok` — rows after a change
-/

namespace Warrant

/-- A row repeats its identity in the field `id`. -/
def Row.Faithful (row : Row) : Prop :=
  row.get? Row.idField = some (.string row.id)
deriving Decidable

theorem Row.faithful_ofFields (id : String) (values : List (String × Value)) :
    (Row.ofFields id values).Faithful := by
  rw [Row.Faithful, Row.get?_idField_ofFields, Row.id_ofFields]

/-- A filter that asks for one identity and nothing else is the filter of that identity. -/
theorem Filter.pinnedId?_eq_some {filter : Filter} {id : String} (h : filter.pinnedId? = some id) :
    filter = .hasId id := by
  unfold Filter.pinnedId? at h
  split at h
  · split at h
    · next hf =>
      obtain rfl : _ = id := Option.some.inj h
      rw [hf, Filter.hasId]
    · exact nomatch h
  · exact nomatch h

theorem Value.agrees_string_iff {v : Value} {text : String} :
    v.agrees (.string text) = true ↔ v = .string text := by
  cases v with
  | string found => exact decide_eq_true_iff
  | _ => exact ⟨nofun, nofun⟩

theorem Row.value_eq_string_iff {row : Row} {name text : String} :
    row.value name = .string text ↔ row.get? name = some (.string text) := by
  rw [Row.value]
  cases row.get? name with
  | none => exact ⟨nofun, nofun⟩
  | some v => rw [Option.getD_some, Option.some_inj]

/-- Asking for an identity is asking for the copy of it. -/
theorem Filter.selects_hasId_iff {row : Row} {id : String} :
    (Filter.hasId id).selects row = true ↔ row.get? Row.idField = some (.string id) := by
  rw [Filter.hasId, Filter.selects]
  exact Value.agrees_string_iff.trans Row.value_eq_string_iff

theorem Filter.selects_hasId {row : Row} (h : row.Faithful) (id : String) :
    (Filter.hasId id).selects row = decide (row.id = id) := by
  rw [Bool.eq_iff_iff, Filter.selects_hasId_iff, h, decide_eq_true_iff]
  exact ⟨fun h => Value.string.inj (Option.some.inj h), fun h => by rw [h]⟩

namespace Graph

variable {g g' : Graph} {entity : String} {filter : Filter} {rows : List Row} {row : Row}

def row? (g : Graph) (node : Node) : Option Row :=
  (g.tables.get? node.entity).bind (·.get? node.id)

/-- Every row is filed under its identity. -/
def Keyed (g : Graph) : Prop :=
  ∀ node row, g.row? node = some row → row.id = node.id

/-- Every row is filed under its identity and repeats it. -/
def Faithful (g : Graph) : Prop :=
  ∀ node row, g.row? node = some row → row.id = node.id ∧ row.Faithful

/-- Whether a graph is faithful is seen row by row. -/
theorem faithful_iff : g.Faithful ↔
    ∀ t ∈ g.tables.toList, ∀ b ∈ t.2.toList, b.2.id = b.1 ∧ b.2.Faithful := by
  constructor
  · intro h t ht b hb
    rw [SortedMap.mem_toList_iff] at ht hb
    refine h ⟨t.1, b.1⟩ b.2 ?_
    rw [row?, ht, Option.bind_some, hb]
  · intro h node row hrow
    obtain ⟨t, ht, hrow⟩ := Option.bind_eq_some_iff.1 hrow
    exact h (node.entity, t) (SortedMap.mem_toList_iff.2 ht) (node.id, row)
      (SortedMap.mem_toList_iff.2 hrow)

instance : Decidable g.Faithful :=
  decidable_of_iff' _ faithful_iff

theorem Faithful.keyed (h : g.Faithful) : g.Keyed :=
  fun node row hrow => (h node row hrow).1

/-- A row is known by where it is filed. -/
theorem Keyed.row?_self (hg : g.Keyed) {node : Node} (h : g.row? node = some row) :
    g.row? ⟨node.entity, row.id⟩ = some row := by
  rw [hg node row h]
  exact h

/-! ## Tables -/

theorem table_eq_ok_iff {t : Table} : g.table entity = .ok t ↔ g.tables.get? entity = some t := by
  unfold table
  cases g.tables.get? entity <;> simp

theorem row?_of_table {t : Table} (h : g.table entity = .ok t) (id : String) :
    g.row? ⟨entity, id⟩ = t.get? id := by
  simp [row?, table_eq_ok_iff.1 h]

theorem row?_withTable (g : Graph) (entity : String) (t : Table) (node : Node) :
    (g.withTable entity t).row? node = if node.entity = entity then t.get? node.id
      else g.row? node := by
  by_cases h : node.entity = entity <;> simp [row?, withTable, SortedMap.get?_insert, h]

/-- There are no rows where there are no tables, or only empty ones. -/
theorem row?_ofSchema (s : Schema) (node : Node) : (ofSchema s).row? node = none := by
  have h (l : List (String × Table)) (m : SortedMap String Table)
      (hl : ∀ b ∈ l, b.2 = SortedMap.empty)
      (hm : (m.get? node.entity).bind (·.get? node.id) = none) :
      ((l.foldl (fun m b => m.insert b.1 b.2) m).get? node.entity).bind (·.get? node.id) = none := by
    induction l generalizing m with
    | nil => exact hm
    | cons b rest ih =>
      refine ih _ (fun c hc => hl c (List.mem_cons_of_mem _ hc)) ?_
      rw [SortedMap.get?_insert, hl b List.mem_cons_self]
      split
      · rfl
      · exact hm
  refine h _ _ (fun b hb => ?_) rfl
  obtain ⟨e, -, rfl⟩ := List.mem_map.1 hb
  rfl

theorem faithful_ofSchema (s : Schema) : (ofSchema s).Faithful := by
  intro node row h
  rw [row?_ofSchema] at h
  exact nomatch h

/-- The rows of a table are listed in the order of their identities. -/
theorem Keyed.pairwise_values (hg : g.Keyed) {t : Table} (h : g.table entity = .ok t) :
    t.values.Pairwise fun r r' => compare r.id r'.id = .lt := by
  have hkey : ∀ b ∈ t.toList, b.2.id = b.1 := by
    intro b hb
    have hrow : g.row? ⟨entity, b.1⟩ = some b.2 := by
      rw [row?_of_table h]
      exact SortedMap.mem_toList_iff.1 hb
    exact hg _ _ hrow
  rw [SortedMap.values, List.pairwise_map]
  apply t.increasing.imp_of_mem
  intro b b' hb hb' hlt
  rw [hkey b hb, hkey b' hb']
  exact hlt

/-! ## Finding -/

theorem find_eq_ok (h : g.find entity filter = .ok rows) :
    ∃ t, g.table entity = .ok t ∧ rows = match filter.pinnedId? with
      | some id => (t.get? id).toList
      | none => t.values.filter filter.selects := by
  unfold find at h
  cases ht : g.table entity with
  | error e =>
    rw [ht] at h
    exact nomatch h
  | ok t =>
    rw [ht] at h
    refine ⟨t, rfl, ?_⟩
    cases hp : filter.pinnedId? <;> simp only [hp] at h <;> exact (Except.ok.inj h).symm

/-- What is found is filed. -/
theorem Keyed.row?_of_mem_find (hg : g.Keyed) (h : g.find entity filter = .ok rows)
    (hrow : row ∈ rows) : g.row? ⟨entity, row.id⟩ = some row := by
  obtain ⟨t, ht, rfl⟩ := find_eq_ok h
  have hid : ∃ id, t.get? id = some row := by
    split at hrow
    · next id _ => exact ⟨id, by simpa using hrow⟩
    · exact SortedMap.mem_values_iff.1 (List.mem_filter.1 hrow).1
  obtain ⟨id, hid⟩ := hid
  rw [← row?_of_table ht] at hid
  exact hg.row?_self hid

/-- A filter that asks for more than one identity finds what it selects. -/
theorem Keyed.mem_find_iff_of_unpinned (hg : g.Keyed) (hp : filter.pinnedId? = none)
    (h : g.find entity filter = .ok rows) :
    row ∈ rows ↔ g.row? ⟨entity, row.id⟩ = some row ∧ filter.selects row := by
  obtain ⟨t, ht, hrows⟩ := find_eq_ok h
  simp only [hp] at hrows
  rw [hrows, List.mem_filter, SortedMap.mem_values_iff, row?_of_table ht]
  refine and_congr_left fun _ => ⟨fun ⟨id, hid⟩ => ?_, fun hid => ⟨row.id, hid⟩⟩
  rw [← row?_of_table ht] at hid ⊢
  exact hg.row?_self hid

/-- A filter that asks for one identity finds what is filed under it. -/
theorem find_of_pinned {id : String} (hp : filter.pinnedId? = some id)
    (h : g.find entity filter = .ok rows) : rows = (g.row? ⟨entity, id⟩).toList := by
  obtain ⟨t, ht, hrows⟩ := find_eq_ok h
  simp only [hp] at hrows
  rw [hrows, row?_of_table ht]

/-- **What a filter finds**, when the rows of the entity repeat their identity: the rows that it
    selects, also when it asks for one identity. -/
theorem Keyed.mem_find_iff (hg : g.Keyed)
    (hrows : ∀ row, g.row? ⟨entity, row.id⟩ = some row → row.Faithful)
    (h : g.find entity filter = .ok rows) :
    row ∈ rows ↔ g.row? ⟨entity, row.id⟩ = some row ∧ filter.selects row := by
  cases hp : filter.pinnedId? with
  | none => exact hg.mem_find_iff_of_unpinned hp h
  | some id =>
    rw [find_of_pinned hp h, Option.mem_toList, Filter.pinnedId?_eq_some hp]
    constructor
    · intro hrow
      have hself := hg.row?_self hrow
      rw [Filter.selects_hasId (hrows row hself), decide_eq_true_iff]
      exact ⟨hself, hg _ _ hrow⟩
    · rintro ⟨hrow, hsel⟩
      rw [Filter.selects_hasId (hrows row hrow), decide_eq_true_iff] at hsel
      rwa [← hsel]

theorem Faithful.mem_find_iff (hg : g.Faithful) (h : g.find entity filter = .ok rows) :
    row ∈ rows ↔ g.row? ⟨entity, row.id⟩ = some row ∧ filter.selects row :=
  hg.keyed.mem_find_iff (fun _ hrow => (hg _ _ hrow).2) h

/-! ## Changes of one table -/

/-- Writing fields changes the row that they are written to, and nothing else. -/
theorem updateFields_eq_ok {id : String} {values : List (String × Value)}
    (h : g.updateFields entity id values = .ok g') :
    g'.edges = g.edges ∧ ∀ node, g'.row? node =
      if node = ⟨entity, id⟩ then (g.row? node).map (·.setAll values) else g.row? node := by
  unfold updateFields at h
  cases ht : g.table entity with
  | error e =>
    rw [ht] at h
    exact nomatch h
  | ok t =>
    cases hrow : t.get? id with
    | none =>
      simp only [ht, hrow, bind, Except.bind] at h
      exact nomatch h
    | some row =>
      simp only [ht, hrow, bind, Except.bind] at h
      obtain rfl := Except.ok.inj h
      refine ⟨rfl, fun node => ?_⟩
      obtain ⟨entity', id'⟩ := node
      -- Only the table that holds the row is put back, and in it only the row.
      rw [row?_withTable]
      by_cases he : entity' = entity
      · subst he
        by_cases hi : id' = id
        · subst hi
          simp [row?_of_table ht, hrow]
        · simp [row?_of_table ht, SortedMap.get?_insert, hi]
      · simp [he]

/-- The table of an entity after rows have been added: of two rows with one identity the later is
    there. -/
theorem get?_foldl_insert (t : Table) (rows : List Row) (id : String) :
    (rows.foldl (fun t row => t.insert row.id row) t).get? id =
      (rows.reverse.find? (·.id = id)).or (t.get? id) := by
  induction rows generalizing t with
  | nil => rfl
  | cons row rest ih =>
    rw [List.foldl_cons, ih, List.reverse_cons, List.find?_append, SortedMap.get?_insert]
    cases rest.reverse.find? (·.id = id) with
    | some found => rfl
    | none =>
      by_cases h : row.id = id
      · simp [h]
      · simp [h, Ne.symm h]

/-- Adding rows changes the rows with their identities, and nothing else. -/
theorem insertRows_eq_ok (h : g.insertRows entity rows = .ok g') :
    g'.edges = g.edges ∧ ∀ node, g'.row? node =
      if node.entity = entity then (rows.reverse.find? (·.id = node.id)).or (g.row? node)
      else g.row? node := by
  unfold insertRows at h
  cases ht : g.table entity with
  | error e =>
    rw [ht] at h
    exact nomatch h
  | ok t =>
    rw [ht] at h
    obtain rfl := Except.ok.inj h
    refine ⟨rfl, fun node => ?_⟩
    obtain ⟨entity', id⟩ := node
    rw [row?_withTable]
    by_cases he : entity' = entity
    · subst he
      simp [get?_foldl_insert, row?_of_table ht]
    · simp [he]

/-- A row that is there after rows have been added is one of them, or it was there before. -/
theorem mem_or_row?_of_insertRows (h : g.insertRows entity rows = .ok g') {node : Node}
    (hrow : g'.row? node = some row) :
    row ∈ rows ∧ row.id = node.id ∨ g.row? node = some row := by
  rw [(insertRows_eq_ok h).2] at hrow
  split at hrow
  · rcases Option.or_eq_some_iff.1 hrow with hrow | ⟨-, hrow⟩
    · refine .inl ⟨List.mem_reverse.1 (List.mem_of_find?_eq_some hrow), ?_⟩
      simpa using List.find?_some hrow
    · exact .inr hrow
  · exact .inr hrow

/-- Rows are filed under their identities by whoever adds them. -/
theorem Keyed.insertRows (hg : g.Keyed) (h : g.insertRows entity rows = .ok g') : g'.Keyed := by
  intro node row hrow
  rcases mem_or_row?_of_insertRows h hrow with ⟨-, hid⟩ | hrow
  · exact hid
  · exact hg node row hrow

/-- A store to which rows were added that repeat their identity, as built rows do, is faithful. -/
theorem Faithful.insertRows (hg : g.Faithful) (hrows : ∀ row ∈ rows, row.Faithful)
    (h : g.insertRows entity rows = .ok g') : g'.Faithful := by
  intro node row hrow
  rcases mem_or_row?_of_insertRows h hrow with ⟨hmem, hid⟩ | hrow
  · exact ⟨hid, hrows row hmem⟩
  · exact hg node row hrow

end Graph

end Warrant
