import Warrant.Proofs.Store.Integrity

/-!
# Tables that stay

A store has a table for every entity of its schema from the beginning, and nothing adds or removes
tables. So whoever asks for the rows of a declared entity gets an answer. Transactions are closed in
the end, whatever happens inside them, so nobody waits for one.

## Main definitions

- `Graph.HasTable`, `Graph.Houses` — a table for an entity, and for every entity of a schema
- `Memory.Built` — the stores whose rows have been built from their identities

## Main statements

- `Graph.Step.hasTable_iff` — operations neither add nor remove tables
- `Memory.Reachable.houses`, `Memory.Reachable.idle` — what every reachable store is like
- `Memory.Built.faithful`, `Memory.Built.houses`, `Memory.Built.idle` — what every built store is
  like
- `Graph.Faithful.pairwise_find` — rows are found in the order of their identities
-/

namespace Warrant

theorem SortedMap.isSome_get?_foldl_insert {κ ν : Type} [Ord κ] [Std.TransOrd κ]
    [Std.LawfulEqOrd κ] (l : List (κ × ν)) (m : SortedMap κ ν) {k : κ}
    (h : k ∈ l.map Prod.fst ∨ (m.get? k).isSome) :
    ((l.foldl (fun m b => m.insert b.1 b.2) m).get? k).isSome := by
  induction l generalizing m with
  | nil => exact h.resolve_left nofun
  | cons b rest ih =>
    rw [List.foldl_cons]
    apply ih
    rw [get?_insert]
    by_cases hk : compare k b.1 = .eq
    · rw [if_pos hk]
      exact .inr rfl
    · rw [if_neg hk]
      rcases h with h | h
      · rcases List.mem_cons.1 h with rfl | h
        · exact absurd Std.ReflCmp.compare_self hk
        · exact .inl h
      · exact .inr h

namespace Graph

variable {g g' : Graph} {entity name : String} {filter : Filter} {rows : List Row}

/-! ## Changes of a graph -/

def HasTable (g : Graph) (entity : String) : Prop :=
  ∃ t, g.table entity = .ok t

/-- A graph has a table for every entity of a schema. -/
def Houses (schema : Schema) (g : Graph) : Prop :=
  ∀ e ∈ schema.entities, g.HasTable e.name

theorem hasTable_withTable_iff {t : Table} (h : g.HasTable entity) :
    (g.withTable entity t).HasTable name ↔ g.HasTable name := by
  rw [HasTable, HasTable, table_withTable]
  by_cases hname : name = entity
  · rw [if_pos hname, hname]
    exact ⟨fun _ => h, fun _ => ⟨t, rfl⟩⟩
  · rw [if_neg hname]

theorem hasTable_insertRows_iff (h : g.insertRows entity rows = .ok g') :
    g'.HasTable name ↔ g.HasTable name := by
  obtain ⟨t, ht, h⟩ := bind_eq_ok_iff.1 h
  rw [← Except.ok.inj h]
  exact hasTable_withTable_iff ⟨t, ht⟩

theorem hasTable_updateFields_iff {id : String} {values : List (String × Value)}
    (h : g.updateFields entity id values = .ok g') : g'.HasTable name ↔ g.HasTable name := by
  obtain ⟨t, ht, h⟩ := bind_eq_ok_iff.1 h
  cases hrow : t.get? id with
  | none =>
    simp only [hrow] at h
    exact nomatch h
  | some row =>
    simp only [hrow] at h
    rw [← Except.ok.inj h]
    exact hasTable_withTable_iff ⟨t, ht⟩

theorem hasTable_updateRows_iff {values : List (String × Value)}
    (h : updateRows entity values rows g = .ok g') : g'.HasTable name ↔ g.HasTable name := by
  induction rows generalizing g with
  | nil => rw [Except.ok.inj h]
  | cons row rest ih =>
    obtain ⟨middle, hmiddle, h⟩ := bind_eq_ok_iff.1 h
    rw [ih h, hasTable_updateFields_iff (mapError_eq_ok_iff.1 hmiddle)]

theorem hasTable_deleteRows_iff {cascade : List CascadeRule} {report : DeleteReport}
    (h : g.deleteRows entity filter cascade = .ok (report, g')) :
    g'.HasTable name ↔ g.HasTable name := by
  obtain ⟨t, ht, h⟩ := bind_eq_ok_iff.1 h
  obtain ⟨-, rfl⟩ := Prod.mk.inj (Except.ok.inj h)
  exact hasTable_withTable_iff (g := g) ⟨t, ht⟩

/-- **Operations neither add nor remove tables.** -/
theorem Step.hasTable_iff {now : Instant} {p : Node} {op : Operation} (h : Step now p g op g') :
    g'.HasTable name ↔ g.HasTable name := by
  cases h with
  | get | check => rfl
  | grant | revoke => rfl
  | update _ _ hwrite => exact hasTable_updateRows_iff hwrite
  | delete _ hwrite => exact hasTable_deleteRows_iff hwrite

theorem houses_ofSchema (schema : Schema) : (ofSchema schema).Houses schema := by
  intro e he
  have hkey : e.name ∈ (schema.entities.map fun e => (e.name, (SortedMap.empty : Table))).map
      Prod.fst := by
    rw [List.map_map]
    exact List.mem_map_of_mem he
  obtain ⟨t, ht⟩ := Option.isSome_iff_exists.1
    (SortedMap.isSome_get?_foldl_insert _ SortedMap.empty (.inl hkey))
  exact ⟨t, table_eq_ok_iff.2 ht⟩

/-! ## Finding -/

theorem HasTable.exists_find (h : g.HasTable entity) (filter : Filter) :
    ∃ rows, g.find entity filter = .ok rows := by
  obtain ⟨t, ht⟩ := h
  refine exists_bind_eq_ok_iff.2 ⟨t, ht, ?_⟩
  cases filter.pinnedId? with
  | none => exact ⟨_, rfl⟩
  | some id => exact ⟨_, rfl⟩

theorem HasTable.exists_deleteRows (h : g.HasTable entity) (filter : Filter)
    (cascade : List CascadeRule) :
    ∃ report g', g.deleteRows entity filter cascade = .ok (report, g') := by
  obtain ⟨t, ht⟩ := h
  rw [deleteRows, ht]
  exact ⟨_, _, rfl⟩

/-- **Rows are found in the order of their identities**, each once. -/
theorem Keyed.pairwise_find (hg : g.Keyed) (h : g.find entity filter = .ok rows) :
    rows.Pairwise fun r r' => compare r.id r'.id = .lt := by
  obtain ⟨t, ht, rfl⟩ := find_eq_ok h
  cases filter.pinnedId? with
  | some id =>
    dsimp only
    cases t.get? id with
    | none => exact .nil
    | some row => exact List.pairwise_singleton _ row
  | none => exact (hg.pairwise_values ht).filter _

end Graph

/-! ## Stores -/

namespace Memory

variable {schema : Schema} {m m' : Memory}

/-- Adding rows leaves no transaction open. -/
theorem idle_of_insertRows {entity : String} {rows : List Row}
    (h : m.insertRows entity rows = .ok m') : m'.busy = false := by
  obtain ⟨hidle, g, -, rfl⟩ := insertRows_eq_ok_iff.1 h
  exact hidle

theorem Ran.busy_eq {admits : Principal → Plan → Prop} (h : m.Ran admits m') :
    m'.busy = m.busy := by
  rcases h.step with rfl | ⟨_, _, _, _, -, -, -, rfl⟩
  · rfl
  · rfl

theorem Ran.houses {admits : Principal → Plan → Prop} (h : m.Ran admits m')
    (hm : m.published.Houses schema) : m'.published.Houses schema := by
  rcases h.step with rfl | ⟨_, _, _, g, -, -, hstep, rfl⟩
  · exact hm
  · intro e he
    exact hstep.hasTable_iff.2 (hm e he)

theorem houses_insertRows {entity : String} {rows : List Row}
    (h : m.insertRows entity rows = .ok m') (hm : m.published.Houses schema) :
    m'.published.Houses schema := by
  intro e he
  exact (Graph.hasTable_insertRows_iff (insertRows_eq_ok h)).2 (hm e he)

theorem Reachable.idle (h : m.Reachable schema) : m.busy = false := by
  induction h with
  | start => rfl
  | inserted _ hins _ => exact idle_of_insertRows hins
  | ran _ hran ih => exact hran.busy_eq.trans ih

theorem Reachable.houses (h : m.Reachable schema) : m.published.Houses schema := by
  induction h with
  | start => exact Graph.houses_ofSchema schema
  | inserted _ hins ih => exact houses_insertRows hins ih
  | ran _ hran ih => exact hran.houses ih

/-- **The stores whose rows have been built from their identities.** Any plans, compiled or not, have
    been run on them, whether they were given up or not. -/
inductive Built (schema : Schema) : Memory → Prop
  | start : Built schema (.ofSchema schema)
  | inserted {m m' : Memory} {entity : String} {rows : List (String × List (String × Value))}
    (h : Built schema m)
    (hins : m.insertRows entity (rows.map fun row => .ofFields row.1 row.2) = .ok m') :
    Built schema m'
  | ran {m m' : Memory} (h : Built schema m) (hran : m.Ran (fun _ _ => True) m') :
    Built schema m'

theorem Built.houses (h : m.Built schema) : m.published.Houses schema := by
  induction h with
  | start => exact Graph.houses_ofSchema schema
  | inserted _ hins ih => exact houses_insertRows hins ih
  | ran _ hran ih => exact hran.houses ih

theorem Built.idle (h : m.Built schema) : m.busy = false := by
  induction h with
  | start => rfl
  | inserted _ hins _ => exact idle_of_insertRows hins
  | ran _ hran ih => exact hran.busy_eq.trans ih

theorem Built.faithful (h : m.Built schema) : m.published.Faithful := by
  induction h with
  | start => exact Graph.faithful_ofSchema schema
  | inserted _ hins ih =>
    refine ih.insertRows ?_ (insertRows_eq_ok hins)
    intro row hrow
    obtain ⟨b, -, rfl⟩ := List.mem_map.1 hrow
    exact Row.faithful_ofFields b.1 b.2
  | ran _ hran ih =>
    rcases hran.step with rfl | ⟨_, _, _, g, -, -, hstep, rfl⟩
    · exact ih
    · exact hstep.faithful ih

end Memory

end Warrant
