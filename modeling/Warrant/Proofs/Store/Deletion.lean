import Warrant.Proofs.Bytes.Utf8
import Warrant.Proofs.Graph.Report
import Warrant.Proofs.Resolution.Meaning
import Warrant.Proofs.Store.Tables

/-!
# What DELETE does

A statement of DELETE goes a long way before rows go: conditions become a filter, the rows that it finds
are guarded one by one, the rows that it selects are taken out of their table, and rules are applied
to all edges for each of them. This module says what comes of it, and nothing of the way: if one of
the rows that the statement means is protected, nothing happens, and otherwise these rows are gone.

## Main definitions

- `Graph.Protects` — a principal may not delete a row

## Main statements

- `Graph.Keyed.guardRows_of_protected` — which row is named when some are protected
- `Graph.Faithful.eq_without_of_deleteRows` — what is deleted is what was guarded
- `Memory.Built.attempt_delete` — the exact effect of DELETE
- `Memory.report_of_deleted` — what the report of DELETE counts
-/

namespace Warrant

open Bytes

/-! ## Guards -/

namespace Graph

variable {g g' : Graph} {p : Node} {action : Verb} {entity ownerField : String}

/-- **A row is protected** from a principal: it is acted upon, no edge lets the principal administer
    it, and the principal does not own it. -/
structure Protects (g : Graph) (p : Node) (e : Entity) (row : Row) : Prop where
  kind : e.kind = .resource
  ungranted : g.findEdge ⟨p, ⟨e.name, row.id⟩, Schema.adminPermission⟩ = none
  unowned : row.text? (e.ownerField.getD Entity.defaultOwnerField) ≠ some p.id

theorem protects_iff {e : Entity} {row : Row} :
    g.Protects p e row ↔
      ∃ field ∈ e.effectiveOwnerField, ¬ g.Administers p ⟨e.name, row.id⟩ row field := by
  unfold Entity.effectiveOwnerField
  cases hkind : e.kind with
  | principal =>
    exact ⟨fun h => (nomatch hkind.symm.trans h.kind), nofun⟩
  | resource =>
    simp only [Option.mem_some_iff, exists_eq_left', Administers, allowed_verdict_iff, not_or,
      Bool.not_eq_true, Option.isSome_eq_false_iff, Option.isNone_iff_eq_none]
    exact ⟨fun h => ⟨h.ungranted, h.unowned⟩, fun h => ⟨hkind, h.1, h.2⟩⟩

/-- **A guard names the first row** that the principal may not administer: any other such row comes
    later in the order of the rows. -/
theorem guardRows_eq_error {rows : List Row} {err : RunError} {R : Row → Row → Prop}
    (hrows : rows.Pairwise R) (h : g.guardRows p action entity ownerField rows = .error err) :
    ∃ row ∈ rows, ¬ g.Administers p ⟨entity, row.id⟩ row ownerField ∧
      err = .forbidden p action ⟨entity, row.id⟩ ∧
      ∀ r ∈ rows, ¬ g.Administers p ⟨entity, r.id⟩ r ownerField → r = row ∨ R row r := by
  induction rows with
  | nil => exact nomatch h
  | cons first rest ih =>
    obtain ⟨hfirst, hrest⟩ := List.pairwise_cons.1 hrows
    rw [guardRows] at h
    by_cases hadmin : g.Administers p ⟨entity, first.id⟩ first ownerField
    · rw [(authorize_eq_ok_iff (u := ())).2 hadmin] at h
      obtain ⟨row, hrow, hnot, herr, hlater⟩ := ih hrest h
      refine ⟨row, List.mem_cons_of_mem _ hrow, hnot, herr, fun r hr hrnot => ?_⟩
      rcases List.mem_cons.1 hr with rfl | hr
      · exact absurd hadmin hrnot
      · exact hlater r hr hrnot
    · have hstop : g.authorize p action ⟨entity, first.id⟩ first ownerField =
          .error (.forbidden p action ⟨entity, first.id⟩) := if_neg hadmin
      rw [hstop] at h
      refine ⟨first, List.mem_cons_self, hadmin, (Except.error.inj h).symm, fun r hr _ => ?_⟩
      rcases List.mem_cons.1 hr with rfl | hr
      · exact .inl rfl
      · exact .inr (hfirst r hr)

theorem delete_eq_error {target : Target} {kind : EntityKind} {rows : List Row} {err : RunError}
    (hrows : g.find target.entity target.filter = .ok rows)
    (h : g.guardRows p .delete target.entity ownerField rows = .error err) :
    delete p target kind (some ownerField) g = .error err := by
  unfold delete
  simp only [rowsOf_eq_ok_iff.2 hrows, h, bind, Except.bind]

/-- **What a filter deletes is what it finds**, also when it asks for one identity. -/
theorem Faithful.eq_without_of_deleteRows (hg : g.Faithful) {filter : Filter} {kind : EntityKind}
    {rows : List Row} {report : DeleteReport} (hrows : g.find entity filter = .ok rows)
    (h : g.deleteRows entity filter (Evaluation.cascade kind) = .ok (report, g')) :
    g' = g.without kind (rows.map fun row => ⟨entity, row.id⟩) := by
  rw [Graph.eq_without_of_deleteRows h]
  refine without_congr fun node => ?_
  simp only [List.mem_map, hg.keyed.mem_selectedIds_iff, hg.mem_find_iff hrows]
  constructor
  · rintro ⟨id, ⟨row, hrow, hsel⟩, rfl⟩
    exact ⟨row, ⟨hg.keyed.row?_self hrow, hsel⟩, by rw [(hg _ _ hrow).1]⟩
  · rintro ⟨row, ⟨hrow, hsel⟩, rfl⟩
    exact ⟨row.id, ⟨row, hrow, hsel⟩, rfl⟩

/-- **A protected row stops the guard** of its entity, which names the first such row. -/
theorem Keyed.guardRows_of_protected (hg : g.Keyed) {e : Entity} {filter : Filter}
    {rows : List Row} (hrows : g.find e.name filter = .ok rows) (action : Verb)
    (h : ∃ row ∈ rows, g.Protects p e row) :
    ∃ field ∈ e.effectiveOwnerField, ∃ row ∈ rows, g.Protects p e row ∧
      (∀ row' ∈ rows, g.Protects p e row' → row' = row ∨ compare row.id row'.id = .lt) ∧
      g.guardRows p action e.name field rows = .error (.forbidden p action ⟨e.name, row.id⟩) := by
  obtain ⟨row, hrow, hprotects⟩ := h
  obtain ⟨field, hfield, hnot⟩ := protects_iff.1 hprotects
  obtain ⟨err, herr⟩ := exists_error_of_ne_ok fun u hok =>
    hnot (guardRows_eq_ok_iff.1 hok row hrow)
  obtain ⟨first, hfirst, hnot, rfl, hlater⟩ := guardRows_eq_error (hg.pairwise_find hrows) herr
  refine ⟨field, hfield, first, hfirst, protects_iff.2 ⟨field, hfield, hnot⟩,
    fun row' hrow' h => ?_, herr⟩
  obtain ⟨field', hfield', hnot'⟩ := protects_iff.1 h
  obtain rfl := Option.mem_unique hfield hfield'
  exact hlater row' hrow' hnot'

/-- Without protected rows the guard of an entity lets everything pass. -/
theorem guardRows_of_free {e : Entity} {rows : List Row} (action : Verb)
    (h : ∀ row ∈ rows, ¬ g.Protects p e row) {field : String}
    (hfield : field ∈ e.effectiveOwnerField) :
    g.guardRows p action e.name field rows = .ok () := by
  refine guardRows_eq_ok_iff.2 fun row hrow => ?_
  by_contra hnot
  exact h row hrow (protects_iff.2 ⟨field, hfield, hnot⟩)

/-- If a row is protected, nothing is deleted, and the first such row is named. -/
theorem Keyed.delete_of_protected (hg : g.Keyed) {e : Entity} {filter : Filter} {rows : List Row}
    (hrows : g.find e.name filter = .ok rows) (h : ∃ row ∈ rows, g.Protects p e row) :
    ∃ row ∈ rows, g.Protects p e row ∧
      (∀ row' ∈ rows, g.Protects p e row' → row' = row ∨ compare row.id row'.id = .lt) ∧
      delete p ⟨e.name, filter⟩ e.kind e.effectiveOwnerField g =
        .error (.forbidden p .delete ⟨e.name, row.id⟩) := by
  obtain ⟨field, hfield, row, hrow, hprotects, hfirst, herr⟩ :=
    hg.guardRows_of_protected hrows .delete h
  refine ⟨row, hrow, hprotects, hfirst, ?_⟩
  rw [Option.mem_def.1 hfield]
  exact delete_eq_error hrows herr

/-- If no row is protected, the rows that are found are deleted. -/
theorem Faithful.delete_of_free (hg : g.Faithful) {e : Entity} {filter : Filter} {rows : List Row}
    (hrows : g.find e.name filter = .ok rows) (h : ∀ row ∈ rows, ¬ g.Protects p e row) :
    ∃ report, delete p ⟨e.name, filter⟩ e.kind e.effectiveOwnerField g =
      .ok (.deleted e.name report, g.without e.kind (rows.map fun row => ⟨e.name, row.id⟩)) := by
  obtain ⟨t, ht, -⟩ := find_eq_ok hrows
  obtain ⟨report, g', hdelete⟩ :=
    HasTable.exists_deleteRows ⟨t, ht⟩ filter (Evaluation.cascade e.kind)
  rw [← hg.eq_without_of_deleteRows hrows hdelete]
  refine ⟨report, delete_eq_ok_iff.2 ⟨fun field hfield => ⟨rows, hrows, ?_⟩, report, rfl, hdelete⟩⟩
  exact guardRows_eq_ok_iff.1 (guardRows_of_free .delete h hfield)

end Graph

/-! ## The effect of DELETE -/

/-- The plan of DELETE has a filter that selects what the statement means, and it carries the kind
    and the owner field of the entity. -/
theorem Statement.resolve_delete {schema : Schema} (hs : schema.IsSound) {p : Principal}
    {ref : Reference} {clause : Option Condition} {plan : Plan}
    (h : (Statement.delete ref clause).resolve schema p = .ok plan) :
    ∃ e ∈ schema.entities, e.name = ref.entity ∧ ∃ filter,
      plan = ⟨schema.fingerprint, p, .delete ⟨e.name, filter⟩ e.kind e.effectiveOwnerField⟩ ∧
      ∀ row : Row, row.Faithful → (filter.selects row = true ↔ ref.Means p e clause row) := by
  obtain ⟨s, hscope, h⟩ := bind_eq_ok_iff.1 h
  obtain ⟨rfl, rfl, -, -⟩ := (Scope.ofPrincipal_eq_ok_iff hs).1 hscope
  obtain ⟨op, hop, h⟩ := bind_eq_ok_iff.1 h
  obtain ⟨⟨e, target⟩, hrows, hop⟩ := bind_eq_ok_iff.1 hop
  obtain ⟨hmem, hname, filter, rfl, hfilter⟩ := Scope.exists_of_rows hs hrows
  refine ⟨e, hmem, hname, filter, ?_, hfilter⟩
  rw [← Except.ok.inj h, ← Except.ok.inj hop]

/-- Whoever deletes itself takes away its own row and no other. -/
theorem Graph.without_self {g : Graph} {p : Principal} {e : Entity} {rows : List Row} {row : Row}
    (hrow : g.row? p.node = some row) (hid : row.id = p.id)
    (hrows : ∀ row, row ∈ rows ↔ g.row? ⟨p.entity, row.id⟩ = some row ∧
      (⟨p.entity, .self⟩ : Reference).Means p e none row) (kind : EntityKind) :
    g.without kind (rows.map fun row => ⟨p.entity, row.id⟩) = g.without kind [p.node] := by
  refine without_congr fun node => ?_
  rw [List.mem_map, List.mem_singleton]
  constructor
  · rintro ⟨row', hrow', rfl⟩
    obtain ⟨-, hself, -⟩ := (hrows row').1 hrow'
    cases hself with
    | self h => exact congrArg (Node.mk p.entity) h
  · rintro rfl
    have hnode : (⟨p.entity, row.id⟩ : Node) = p.node := congrArg (Node.mk p.entity) hid
    exact ⟨row, (hrows row).2 ⟨hnode ▸ hrow, .self hid, nofun⟩, hnode⟩

/-- When no transaction is open, DELETE changes the published graph. -/
theorem Plan.effect_delete {m : Memory} (hm : m.busy = false) {now : Instant} {version : UInt32}
    {p : Principal} {target : Target} {kind : EntityKind} {owner : Option String} :
    Plan.effect now ⟨version, p, .delete target kind owner⟩ p m =
      Graph.delete p.node target kind owner m.published := by
  simp [Plan.effect, Operation.effect, Memory.transact, hm]

namespace Memory

variable {schema : Schema} {m : Memory} {p : Principal} {ref : Reference}
  {clause : Option Condition} {plan : Plan}

/-- **The exact effect of DELETE.** If a row that the statement means is protected, nothing changes,
    and the failure names the first such row in the order of the bytes of their identities.
    Otherwise the graph that is published afterwards is the graph without the rows that the statement
    means. -/
theorem Built.attempt_delete (hschema : schema.validate = .ok ()) (hm : m.Built schema)
    (hplan : (Statement.delete ref clause).resolve schema p = .ok plan) (now : Instant) :
    let run := m.attempt Watch.never () (plan.execute now p).run
    ∃ e ∈ schema.entities, e.name = ref.entity ∧ ∃ rows : List Row,
      rows.Pairwise (fun row row' => ofString row.id < ofString row'.id) ∧
      (∀ row, row ∈ rows ↔
        m.published.row? ⟨e.name, row.id⟩ = some row ∧ ref.Means p e clause row) ∧
      ((∃ row ∈ rows, m.published.Protects p.node e row) →
        ∃ row ∈ rows, m.published.Protects p.node e row ∧
          (∀ row' ∈ rows, m.published.Protects p.node e row' →
            row' = row ∨ ofString row.id < ofString row'.id) ∧
          run.1 = .error (.forbidden p.node .delete ⟨e.name, row.id⟩) ∧ run.2.memory = m) ∧
      ((∀ row ∈ rows, ¬ m.published.Protects p.node e row) →
        ∃ report, run.1 = .ok (.deleted e.name report) ∧
          run.2.memory = { m with
            published := m.published.without e.kind (rows.map fun row => ⟨e.name, row.id⟩) }) := by
  intro run
  obtain ⟨e, he, hname, filter, rfl, hfilter⟩ :=
    Statement.resolve_delete (Schema.isSound_of_validate hschema) hplan
  have hg := hm.faithful
  obtain ⟨rows, hrows⟩ := (hm.houses e he).exists_find filter
  -- The filter selects what the statement means of every row that repeats its identity.
  have hfound (row : Row) : row ∈ rows ↔
      m.published.row? ⟨e.name, row.id⟩ = some row ∧ ref.Means p e clause row := by
    rw [hg.mem_find_iff hrows]
    exact and_congr_right fun hrow => hfilter row (hg _ row hrow).2
  refine ⟨e, he, hname, rows, (hg.keyed.pairwise_find hrows).imp ofString_lt_of_compare, hfound,
    fun hprotected => ?_, fun hfree => ?_⟩
  · obtain ⟨row, hrow, hprotects, hfirst, hdelete⟩ := hg.keyed.delete_of_protected hrows hprotected
    refine ⟨row, hrow, hprotects, fun row' hrow' h => ?_,
      Plan.attempt_never_of_error ((Plan.effect_delete hm.idle).trans hdelete)⟩
    exact (hfirst row' hrow' h).imp id ofString_lt_of_compare
  · obtain ⟨report, hdelete⟩ := hg.delete_of_free hrows hfree
    exact ⟨report, Plan.attempt_never_of_ok ((Plan.effect_delete hm.idle).trans hdelete)⟩

/-- alice and bob let each other read what is theirs. She may not delete all resources, since the memo
    is not hers. When she deletes herself, her permission goes with her, and his has lost its
    grantor. -/
theorem Built.attempt_delete_either_way :
    let now : Instant :=
      ⟨⟨2024, 1, 1, by decide, by decide⟩, 0, 0, by decide, by decide, by decide⟩
    let alice : Principal := ⟨"User", "alice"⟩
    let bob : Principal := ⟨"User", "bob"⟩
    let hers : EdgeKey := ⟨alice.node, ⟨"Resource", "memo"⟩, "read"⟩
    let his : EdgeKey := ⟨bob.node, ⟨"Resource", "doc"⟩, "read"⟩
    let resources : Table := .ofList [("doc", .ofFields "doc" [("owner", .string "alice")]),
      ("memo", .ofFields "memo" [("owner", .string "bob")])]
    let g : Graph := {
      tables := .ofList [("User", .ofList [("alice", .new "alice"), ("bob", .new "bob")]),
        ("Resource", resources)]
      edges := .ofList [(hers, ⟨now, some bob.node⟩), (his, ⟨now, some alice.node⟩)] }
    let left : Graph := {
      tables := .ofList [("User", .ofList [("bob", .new "bob")]), ("Resource", resources)]
      edges := .ofList [(his, ⟨now, none⟩)] }
    let m : Memory := ⟨g, false⟩
    ∃ all self : Plan, m.Built .standard ∧
      (Statement.delete ⟨"Resource", .all⟩ none).resolve .standard alice = .ok all ∧
      (Statement.delete ⟨"User", .self⟩ none).resolve .standard alice = .ok self ∧
      let refused := m.attempt Watch.never () (all.execute now alice).run
      let run := m.attempt Watch.never () (self.execute now alice).run
      refused.1 = .error (.forbidden alice.node .delete ⟨"Resource", "memo"⟩) ∧
        refused.2.memory = m ∧ (∃ report, run.1 = .ok (.deleted "User" report)) ∧
        run.2.memory = ⟨left, false⟩ := by
  intro now alice bob hers his resources g left m
  have hbuilt : m.Built .standard := by
    -- They are put into the empty store, and then each grants what is theirs.
    obtain ⟨users, rows, toBob, toAlice, husers, hrows, htoBob, htoAlice, hm⟩ :
        ∃ users rows toBob toAlice,
          (Memory.ofSchema .standard).insertRows "User" [.ofFields "alice" [], .ofFields "bob" []] =
            .ok users ∧
          users.insertRows "Resource" [.ofFields "doc" [("owner", .string "alice")],
            .ofFields "memo" [("owner", .string "bob")]] = .ok rows ∧
          compile .standard alice "GRANT read ON Resource.doc TO User.bob" = .ok toBob ∧
          compile .standard bob "GRANT read ON Resource.memo TO User.alice" = .ok toAlice ∧
          ((rows.attempt Watch.never () (toBob.execute now alice).run).2.memory.attempt Watch.never
            () (toAlice.execute now bob).run).2.memory = m :=
      ⟨_, _, _, _, rfl, rfl, rfl, rfl, by decide +kernel⟩
    have hloaded : rows.Built .standard :=
      @Built.inserted _ _ _ _ [("doc", [("owner", .string "alice")]),
        ("memo", [("owner", .string "bob")])]
        (@Built.inserted _ _ _ _ [("alice", []), ("bob", [])] .start husers) hrows
    rw [← hm]
    exact .ran (.ran hloaded (.attempt Watch.never () now alice toBob trivial))
      (.attempt Watch.never () now bob toAlice trivial)
  obtain ⟨all, hall⟩ : ∃ plan,
      (Statement.delete ⟨"Resource", .all⟩ none).resolve .standard alice = .ok plan := ⟨_, rfl⟩
  obtain ⟨self, hself⟩ : ∃ plan,
      (Statement.delete ⟨"User", .self⟩ none).resolve .standard alice = .ok plan := ⟨_, rfl⟩
  refine ⟨all, self, hbuilt, hall, hself, ?_⟩
  obtain ⟨e, he, hname, rows, -, hrows, hprotected, -⟩ :=
    Built.attempt_delete Schema.validate_standard hbuilt hall now
  obtain ⟨e', he', hname', rows', -, hrows', -, hfree⟩ :=
    Built.attempt_delete Schema.validate_standard hbuilt hself now
  have hresource : ∀ e ∈ Schema.standard.entities, e.name = "Resource" →
      e.kind = .resource ∧ e.ownerField.getD Entity.defaultOwnerField = "owner" := by decide
  have huser : ∀ e ∈ Schema.standard.entities, e.name = "User" → e.kind = .principal := by decide
  obtain ⟨hkind, howner⟩ := hresource e he hname
  have hkind' := huser e' he' hname'
  rw [hname] at hrows hprotected
  rw [hname', hkind'] at hfree
  rw [hname'] at hrows'
  -- The memo is found with her document, and of all that is found only the memo is not hers.
  have hmemo : Row.ofFields "memo" [("owner", .string "bob")] ∈ rows :=
    (hrows _).2 ⟨by decide +kernel, .all, nofun⟩
  have hprotects : g.Protects alice.node e (.ofFields "memo" [("owner", .string "bob")]) := by
    refine ⟨hkind, ?_, ?_⟩
    · rw [hname]
      decide +kernel
    · rw [howner]
      decide
  obtain ⟨row, hrow, ⟨-, -, hunowned⟩, -, hrun, hsame⟩ := hprotected ⟨_, hmemo, hprotects⟩
  have hid : row.id = "memo" := by
    have hresources : g.table "Resource" = .ok resources := by decide +kernel
    have hget : g.row? ⟨"Resource", row.id⟩ = some row := ((hrows row).1 hrow).1
    rw [Graph.row?_of_table hresources, ← SortedMap.mem_toList_iff] at hget
    have hmine : ∀ b ∈ resources.toList, b.1 = "memo" ∨ b.2.text? "owner" = some "alice" := by
      decide +kernel
    rw [howner] at hunowned
    exact (hmine _ hget).resolve_right hunowned
  rw [hid] at hrun
  -- Users are not protected, and only alice is herself.
  obtain ⟨report, hdeleted, hleft⟩ := hfree fun row _ h => nomatch hkind'.symm.trans h.kind
  have halice : g.row? alice.node = some (.new "alice") := by decide +kernel
  have hgone : g.without .principal (rows'.map fun row => ⟨"User", row.id⟩) =
      g.without .principal [alice.node] := Graph.without_self (p := alice) halice rfl hrows' _
  have hwithout : g.without .principal [alice.node] = left := by decide +kernel
  refine ⟨hrun, hsame, ⟨report, hdeleted⟩, hleft.trans ?_⟩
  exact congrArg (Memory.mk · false) (hgone.trans hwithout)

end Memory

/-! ## The report of DELETE -/

/-- Only DELETE reports a deletion. -/
theorem Operation.delete_of_effect {now : Instant} {p : Node} {m : Memory} {op : Operation}
    {entity : String} {report : DeleteReport} {g : Graph}
    (h : op.effect now p m = .ok (.deleted entity report, g)) :
    ∃ filter kind owner, op = .delete ⟨entity, filter⟩ kind owner ∧
      m.published.deleteRows entity filter (Evaluation.cascade kind) = .ok (report, g) := by
  have hverb := verb_of_effect h
  cases op with
  | delete target kind owner =>
    obtain ⟨-, _, heq, hdelete⟩ := Graph.delete_eq_ok_iff.1 (Memory.transact_eq_ok_iff.1 h).2
    obtain ⟨rfl, rfl⟩ := Outcome.deleted.inj heq
    exact ⟨target.filter, kind, owner, rfl, hdelete⟩
  | get | check | grant | revoke | update => exact nomatch hverb

namespace Memory

variable {ι : Type} {schema : Schema} {m : Memory} {p actor : Principal} {statement : Statement}
  {plan : Plan} {entity : String} {report : DeleteReport}

/-- **What the report of DELETE counts.** The counts of rows and edges are the numbers of those that
    were published before and are not published afterwards. The third count is the number of edges
    that have lost their grantor, and besides of those that were overtaken. -/
theorem report_of_deleted (hm : m.published.Keyed)
    (hplan : statement.resolve schema p = .ok plan) (watch : Watch ι) (caller : ι) (now : Instant)
    (hrun : (m.attempt watch caller (plan.execute now actor).run).1 =
      .ok (.deleted entity report)) :
    let m' := (m.attempt watch caller (plan.execute now actor).run).2.memory
    ∃ e, schema.entity? entity = some e ∧
      report.rows = (m.published.lostRows m'.published).length ∧
      report.edgesRemoved = (m.published.lostEdges m'.published).length ∧
      report.grantsOrphaned = (m.published.orphans m'.published).length +
        (Graph.overtaken e.kind m.published m'.published).length := by
  intro m'
  rcases plan.attempt_cases watch m caller now actor with ⟨o, g, heffect, hr, hmem⟩ | ⟨_, -, hr, -⟩
  · obtain rfl := Except.ok.inj (hrun.symm.trans hr)
    obtain ⟨filter, kind, owner, hoperation, hdelete⟩ :=
      Operation.delete_of_effect (Plan.effect_eq_ok_iff.1 heffect).2
    have hfits := (Statement.resolve_fits hplan).2
    rw [hoperation] at hfits
    obtain ⟨⟨e, he, rfl⟩, -⟩ := hfits
    have hm' : m' = { m with published := g } := hmem
    rw [hm']
    exact ⟨e, he, hm.report_of_deleteRows hdelete⟩
  · exact nomatch hrun.symm.trans hr

/-- alice has let bob read her document, and deletes herself. His edge has lost its grantor. -/
theorem report_of_deleted_orphan :
    ∃ (alice : Principal) (now : Instant) (users loaded : Memory) (grant deletion : Plan),
      (Memory.ofSchema .standard).insertRows "User" [.new "alice", .new "bob"] = .ok users ∧
      users.insertRows "Resource" [.ofFields "doc" [("owner", .string "alice")]] = .ok loaded ∧
      compile .standard alice "GRANT read ON Resource.doc TO User.bob" = .ok grant ∧
      compile .standard alice "DELETE User.SELF" = .ok deletion ∧
      let before := (loaded.attempt Watch.never () (grant.execute now alice).run).2.memory
      let run := before.attempt Watch.never () (deletion.execute now alice).run
      let after := run.2.memory
      run.1 = .ok (.deleted "User" ⟨1, 0, 1⟩) ∧
        1 = (before.published.lostRows after.published).length ∧
        0 = (before.published.lostEdges after.published).length ∧
        1 = (before.published.orphans after.published).length +
          (Graph.overtaken .principal before.published after.published).length := by
  let alice : Principal := ⟨"User", "alice"⟩
  let now : Instant := ⟨⟨2024, 1, 1, by decide, by decide⟩, 0, 0, by decide, by decide, by decide⟩
  obtain ⟨users, loaded, grant, deletion, husers, hloaded, hgrant, hdeletion, hrun⟩ :
      ∃ users loaded grant deletion,
        (Memory.ofSchema .standard).insertRows "User" [.new "alice", .new "bob"] = .ok users ∧
        users.insertRows "Resource" [.ofFields "doc" [("owner", .string "alice")]] = .ok loaded ∧
        compile .standard alice "GRANT read ON Resource.doc TO User.bob" = .ok grant ∧
        compile .standard alice "DELETE User.SELF" = .ok deletion ∧
        let before := (loaded.attempt Watch.never () (grant.execute now alice).run).2.memory
        (before.attempt Watch.never () (deletion.execute now alice).run).1 =
          .ok (.deleted "User" ⟨1, 0, 1⟩) :=
    ⟨_, _, _, _, rfl, rfl, rfl, rfl, toOption_eq_some_iff.1 (by decide +kernel)⟩
  have hgranted := Reachable.ran (.inserted (.inserted .start husers) hloaded)
    (.attempt Watch.never () now alice grant ⟨alice, _, hgrant⟩)
  obtain ⟨_, -, hplan⟩ := compile_eq_ok_iff.1 hdeletion
  obtain ⟨e, he, hreport⟩ :=
    report_of_deleted hgranted.intact.keyed hplan Watch.never () now hrun
  have huser : (Schema.standard.entity? "User").map Entity.kind = some .principal := rfl
  rw [he, Option.map_some] at huser
  rw [Option.some.inj huser] at hreport
  exact ⟨alice, now, users, loaded, grant, deletion, husers, hloaded, hgrant, hdeletion, hrun,
    hreport⟩

/-- alice has let bob read her document, and deletes all users. She comes before bob, so his edge is
    counted as having lost its grantor, and then it goes. -/
theorem report_of_deleted_overtaken :
    ∃ (alice : Principal) (now : Instant) (users loaded : Memory) (grant deletion : Plan),
      (Memory.ofSchema .standard).insertRows "User" [.new "alice", .new "bob"] = .ok users ∧
      users.insertRows "Resource" [.ofFields "doc" [("owner", .string "alice")]] = .ok loaded ∧
      compile .standard alice "GRANT read ON Resource.doc TO User.bob" = .ok grant ∧
      compile .standard alice "DELETE User" = .ok deletion ∧
      let before := (loaded.attempt Watch.never () (grant.execute now alice).run).2.memory
      let run := before.attempt Watch.never () (deletion.execute now alice).run
      run.1 = .ok (.deleted "User" ⟨2, 1, 1⟩) ∧
        before.published.orphans run.2.memory.published = [] :=
  ⟨⟨"User", "alice"⟩,
    ⟨⟨2024, 1, 1, by decide, by decide⟩, 0, 0, by decide, by decide, by decide⟩,
    _, _, _, _, rfl, rfl, rfl, rfl, toOption_eq_some_iff.1 (by decide +kernel), by decide +kernel⟩

end Memory

end Warrant
