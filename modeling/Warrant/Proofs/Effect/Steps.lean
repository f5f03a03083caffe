import Mathlib.Logic.Function.Iterate
import Warrant.Proofs.Effect.Agreement
import Warrant.Proofs.Graph.Cascade
import Warrant.Proofs.Results

/-!
# What an operation can do to a graph

Every operation that succeeds leaves the graph alone, adds or removes one edge, writes fields of
some rows, or deletes some rows. This module says so once, with everything that was checked before;
what holds in all reachable graphs is derived from it.

## Main definitions

- `Graph.Step` — an operation takes a graph to another

## Main statements

- `Graph.delegate_of_more_edges` — more edges take no authority away
- `Plan.effect_eq_granted_iff` — when a plan gives a permission
- `Plan.step_of_attempt` — a store after a run, whatever the polls answered
- `Graph.row?_updateRows` — rows after the same fields of some rows have been written
-/

namespace Warrant

namespace Graph

variable {g g' : Graph} {p : Node} {action : Verb} {entity ownerField : String}

/-! ## Guards -/

/-- The principal may administer a resource. -/
def Administers (g : Graph) (p resource : Node) (row : Row) (ownerField : String) : Prop :=
  (g.verdict p Schema.adminPermission resource row ownerField).allowed = true

/-- A permission is held by an edge or by ownership. -/
theorem allowed_verdict_iff {subject resource : Node} {permission : String} {row : Row} :
    (g.verdict subject permission resource row ownerField).allowed = true ↔
      (g.findEdge ⟨subject, resource, permission⟩).isSome ∨
        row.text? ownerField = some subject.id := by
  unfold verdict
  split
  · next h => simp [h, Verdict.allow]
  · split
    · next h => simp [h, Verdict.allow]
    · next h₁ h₂ => simp [h₁, h₂, Verdict.deny]

theorem authorize_eq_ok_iff {resource : Node} {row : Row} {u : Unit} :
    g.authorize p action resource row ownerField = .ok u ↔
      g.Administers p resource row ownerField := by
  unfold authorize Administers
  split
  · next h => simp [h]
  · next h => simp [h]

theorem guardRows_eq_ok_iff {rows : List Row} {u : Unit} :
    g.guardRows p action entity ownerField rows = .ok u ↔
      ∀ row ∈ rows, g.Administers p ⟨entity, row.id⟩ row ownerField := by
  induction rows with
  | nil => simp [guardRows]
  | cons row rest ih =>
    rw [guardRows, bind_eq_ok_iff]
    simp [authorize_eq_ok_iff, ih]

theorem rowsOf_eq_ok_iff {target : Target} {rows : List Row} :
    g.rowsOf target = .ok rows ↔ g.find target.entity target.filter = .ok rows :=
  mapError_eq_ok_iff

theorem rowsOf_congr (h : g'.tables = g.tables) : g'.rowsOf = g.rowsOf := by
  funext target
  rw [rowsOf, rowsOf, find, find, table, table, h]

theorem resolve_eq_ok_iff {target : Target} {node : Node} {row : Row} :
    g.resolve target = .ok (node, row) ↔
      g.rowsOf target = .ok [row] ∧ node = ⟨target.entity, row.id⟩ := by
  unfold resolve
  rw [bind_eq_ok_iff]
  constructor
  · rintro ⟨rows, hrows, h⟩
    split at h
    · exact nomatch h
    · next row' =>
      obtain ⟨rfl, rfl⟩ := Prod.mk.inj (Except.ok.inj h)
      exact ⟨hrows, rfl⟩
    · exact nomatch h
  · rintro ⟨hrows, rfl⟩
    exact ⟨[row], hrows, rfl⟩

/-- **An access that a principal may administer** names one subject and one resource. -/
theorem delegate_eq_ok_iff {access : Access} {key : EdgeKey} :
    g.delegate p action access = .ok key ↔ ∃ subject resource,
      g.rowsOf access.subject = .ok [subject] ∧ g.rowsOf access.resource = .ok [resource] ∧
      g.Administers p ⟨access.resource.entity, resource.id⟩ resource access.ownerField ∧
      key = ⟨⟨access.subject.entity, subject.id⟩, ⟨access.resource.entity, resource.id⟩,
        access.permission⟩ := by
  unfold delegate
  simp only [bind_eq_ok_iff, Prod.exists, resolve_eq_ok_iff, authorize_eq_ok_iff]
  constructor
  · rintro ⟨_, s, ⟨hs, rfl⟩, _, r, ⟨hr, rfl⟩, _, ha, h⟩
    exact ⟨s, r, hs, hr, ha, (Except.ok.inj h).symm⟩
  · rintro ⟨s, r, hs, hr, ha, rfl⟩
    exact ⟨_, s, ⟨hs, rfl⟩, _, r, ⟨hr, rfl⟩, (), ha, rfl⟩

/-- The key of an access hangs on the rows alone. -/
theorem delegate_unique {access : Access} {key key' : EdgeKey} {p' : Node} {action' : Verb}
    (htables : g'.tables = g.tables) (h : g.delegate p action access = .ok key)
    (h' : g'.delegate p' action' access = .ok key') : key' = key := by
  obtain ⟨subject, resource, hs, hr, -, rfl⟩ := delegate_eq_ok_iff.1 h
  obtain ⟨subject', resource', hs', hr', -, rfl⟩ := delegate_eq_ok_iff.1 h'
  rw [rowsOf_congr htables] at hs' hr'
  obtain rfl : subject = subject' := by simpa using hs.symm.trans hs'
  obtain rfl : resource = resource' := by simpa using hr.symm.trans hr'
  rfl

/-- **More edges take no authority away**: an access that a principal may administer it still may
    when edges have been added. -/
theorem delegate_of_more_edges {access : Access} {key : EdgeKey} (htables : g'.tables = g.tables)
    (hedges : ∀ key, (g.findEdge key).isSome → (g'.findEdge key).isSome)
    (h : g.delegate p action access = .ok key) : g'.delegate p action access = .ok key := by
  obtain ⟨subject, resource, hs, hr, hadmin, rfl⟩ := delegate_eq_ok_iff.1 h
  rw [← rowsOf_congr htables] at hs hr
  refine delegate_eq_ok_iff.2 ⟨subject, resource, hs, hr, ?_, rfl⟩
  exact allowed_verdict_iff.2 ((allowed_verdict_iff.1 hadmin).imp_left (hedges _))

/-! ## Writing rows -/

/-- How often the row at a node is written when fields of some rows are. -/
def timesWritten (entity : String) (rows : List Row) (node : Node) : Nat :=
  rows.countP fun row => (⟨entity, row.id⟩ : Node) = node

/-- **Writing the same fields of some rows** writes them to these rows, and changes nothing else. -/
theorem updateRows_eq_ok {values : List (String × Value)} {rows : List Row}
    (h : updateRows entity values rows g = .ok g') :
    g'.edges = g.edges ∧ ∀ node, g'.row? node =
      (g.row? node).map ((Row.setAll · values)^[timesWritten entity rows node]) := by
  induction rows generalizing g with
  | nil =>
    obtain rfl := Except.ok.inj h
    exact ⟨rfl, fun node => by simp [timesWritten]⟩
  | cons row rest ih =>
    rw [updateRows, bind_eq_ok_iff] at h
    obtain ⟨middle, hm, h⟩ := h
    obtain ⟨hedges, hrows⟩ := updateFields_eq_ok (mapError_eq_ok_iff.1 hm)
    obtain ⟨hedges', hrows'⟩ := ih h
    refine ⟨hedges'.trans hedges, fun node => ?_⟩
    rw [hrows', hrows]
    by_cases hn : node = ⟨entity, row.id⟩
    · subst hn
      simp [timesWritten, Function.iterate_succ]
    · simp [timesWritten, hn, Ne.symm hn]

theorem row?_updateRows_of_not_mem {values : List (String × Value)} {rows : List Row}
    (h : updateRows entity values rows g = .ok g') {node : Node}
    (hnode : ∀ row ∈ rows, (⟨entity, row.id⟩ : Node) ≠ node) : g'.row? node = g.row? node := by
  have hzero : timesWritten entity rows node = 0 :=
    List.countP_eq_zero.2 fun row hrow => by simpa using hnode row hrow
  rw [(updateRows_eq_ok h).2, hzero]
  simp

/-- Writing fields, as often as one likes, leaves a row its identity. -/
theorem iterate_setAll (values : List (String × Value)) (n : Nat) (row : Row) :
    ((Row.setAll · values)^[n] row).id = row.id ∧
      ((Row.setAll · values)^[n] row).get? Row.idField = row.get? Row.idField := by
  induction n generalizing row with
  | zero => exact ⟨rfl, rfl⟩
  | succ n ih =>
    rw [Function.iterate_succ_apply]
    obtain ⟨hid, hfield⟩ := ih (row.setAll values)
    exact ⟨hid.trans (Row.id_setAll row values),
      hfield.trans (Row.get?_idField_setAll row values)⟩

/-! ## Steps -/

/-- **An operation takes a graph to another**, having checked what it must. -/
inductive Step (now : Instant) (p : Node) (g : Graph) : Operation → Graph → Prop
  | get (target : Target) (projection : List String) : Step now p g (.get target projection) g
  | check (access : Access) : Step now p g (.check access) g
  | grant {access : Access} {key : EdgeKey} (hkey : g.delegate p .grant access = .ok key) :
    Step now p g (.grant access) (g.upsertEdge (newEdge now p key)).2
  | revoke {access : Access} {key : EdgeKey} (hkey : g.delegate p .revoke access = .ok key) :
    Step now p g (.revoke access) (g.deleteEdge key).2
  | update {target : Target} {assignments : List Assignment} {owner : Option String}
    {rows : List Row} {g' : Graph} (hrows : g.find target.entity target.filter = .ok rows)
    (hguard : ∀ field ∈ owner, ∀ row ∈ rows, g.Administers p ⟨target.entity, row.id⟩ row field)
    (hwrite : updateRows target.entity (assignments.map fun a => (a.field, a.value)) rows g =
      .ok g') : Step now p g (.update target assignments owner) g'
  | delete {target : Target} {kind : EntityKind} {owner : Option String} {report : DeleteReport}
    {g' : Graph}
    (hguard : ∀ field ∈ owner, ∃ rows, g.find target.entity target.filter = .ok rows ∧
      ∀ row ∈ rows, g.Administers p ⟨target.entity, row.id⟩ row field)
    (hwrite : g.deleteRows target.entity target.filter (Evaluation.cascade kind) =
      .ok (report, g')) : Step now p g (.delete target kind owner) g'

variable {now : Instant} {o : Outcome}

theorem step_of_update {target : Target} {assignments : List Assignment} {owner : Option String}
    (h : update p target assignments owner g = .ok (o, g')) :
    Step now p g (.update target assignments owner) g' := by
  unfold update at h
  obtain ⟨rows, hrows, h⟩ := bind_eq_ok_iff.1 h
  rw [rowsOf_eq_ok_iff] at hrows
  cases owner with
  | none =>
    obtain ⟨_, hwrite, h⟩ := bind_eq_ok_iff.1 h
    obtain ⟨-, rfl⟩ := Prod.mk.inj (Except.ok.inj h)
    exact .update hrows nofun hwrite
  | some field =>
    obtain ⟨_, hguard, h⟩ := bind_eq_ok_iff.1 h
    obtain ⟨_, hwrite, h⟩ := bind_eq_ok_iff.1 h
    obtain ⟨-, rfl⟩ := Prod.mk.inj (Except.ok.inj h)
    refine .update hrows (fun field' hfield => ?_) hwrite
    obtain rfl := Option.some.inj hfield
    exact guardRows_eq_ok_iff.1 hguard

/-- Rows may be deleted when the principal may administer all of them. -/
theorem delete_eq_ok_iff {target : Target} {kind : EntityKind} {owner : Option String} :
    delete p target kind owner g = .ok (o, g') ↔
      (∀ field ∈ owner, ∃ rows, g.find target.entity target.filter = .ok rows ∧
        ∀ row ∈ rows, g.Administers p ⟨target.entity, row.id⟩ row field) ∧
      ∃ report, o = .deleted target.entity report ∧
        g.deleteRows target.entity target.filter (Evaluation.cascade kind) = .ok (report, g') := by
  -- What comes after the guard is the same with and without an owner field.
  have hrest : ((g.deleteRows target.entity target.filter (Evaluation.cascade kind)).mapError
        RunError.store >>= fun r => Except.ok (Outcome.deleted target.entity r.1, r.2)) =
          .ok (o, g') ↔ ∃ report, o = .deleted target.entity report ∧
        g.deleteRows target.entity target.filter (Evaluation.cascade kind) = .ok (report, g') := by
    simp only [bind_eq_ok_iff, mapError_eq_ok_iff, Prod.exists]
    constructor
    · rintro ⟨report, g'', hdelete, h⟩
      obtain ⟨rfl, rfl⟩ := Prod.mk.inj (Except.ok.inj h)
      exact ⟨report, rfl, hdelete⟩
    · rintro ⟨report, rfl, hdelete⟩
      exact ⟨report, g', hdelete, rfl⟩
  unfold delete
  cases owner with
  | none => exact hrest.trans ⟨fun h => ⟨nofun, h⟩, fun h => h.2⟩
  | some field =>
    refine bind_eq_ok_iff.trans ?_
    constructor
    · rintro ⟨rows, hrows, h⟩
      obtain ⟨_, hguard, h⟩ := bind_eq_ok_iff.1 h
      refine ⟨fun field' hfield => ?_, hrest.1 h⟩
      obtain rfl := Option.some.inj hfield
      exact ⟨rows, rowsOf_eq_ok_iff.1 hrows, guardRows_eq_ok_iff.1 hguard⟩
    · rintro ⟨hguard, hreport⟩
      obtain ⟨rows, hrows, hadmin⟩ := hguard field rfl
      exact ⟨rows, rowsOf_eq_ok_iff.2 hrows,
        bind_eq_ok_iff.2 ⟨(), guardRows_eq_ok_iff.2 hadmin, hrest.2 hreport⟩⟩

theorem step_of_delete {target : Target} {kind : EntityKind} {owner : Option String}
    (h : delete p target kind owner g = .ok (o, g')) :
    Step now p g (.delete target kind owner) g' := by
  obtain ⟨hguard, _, -, hwrite⟩ := delete_eq_ok_iff.1 h
  exact .delete hguard hwrite

/-- A row that is there after a step was there before, with the same identity. -/
theorem Step.exists_row {op : Operation} (h : Step now p g op g') {node : Node} {row' : Row}
    (hrow : g'.row? node = some row') :
    ∃ row, g.row? node = some row ∧ row'.id = row.id ∧
      row'.get? Row.idField = row.get? Row.idField := by
  cases h with
  | get | check => exact ⟨row', hrow, rfl, rfl⟩
  | grant | revoke => exact ⟨row', hrow, rfl, rfl⟩
  | update _ _ hwrite =>
    rw [(updateRows_eq_ok hwrite).2] at hrow
    obtain ⟨row, hbefore, rfl⟩ := Option.map_eq_some_iff.1 hrow
    exact ⟨row, hbefore, iterate_setAll _ _ row⟩
  | delete _ hwrite =>
    rw [(deleteRows_eq_ok hwrite).1] at hrow
    split at hrow
    · exact nomatch hrow
    · exact ⟨row', hrow, rfl, rfl⟩

theorem Step.keyed {op : Operation} (h : Step now p g op g') (hg : g.Keyed) : g'.Keyed := by
  intro node row' hrow
  obtain ⟨row, hrow, hid, -⟩ := h.exists_row hrow
  exact hid.trans (hg node row hrow)

theorem Step.faithful {op : Operation} (h : Step now p g op g') (hg : g.Faithful) :
    g'.Faithful := by
  intro node row' hrow
  obtain ⟨row, hrow, hid, hfield⟩ := h.exists_row hrow
  obtain ⟨hkey, hrow⟩ := hg node row hrow
  refine ⟨hid.trans hkey, ?_⟩
  rw [Row.Faithful, hfield, hid]
  exact hrow

end Graph

/-- A change succeeds on a store when no transaction is open and it succeeds on the published
    graph. -/
theorem Memory.transact_eq_ok_iff {α : Type} {m : Memory}
    {change : Graph → Except RunError (α × Graph)} {r : α × Graph} :
    m.transact change = .ok r ↔ m.busy = false ∧ change m.published = .ok r := by
  unfold Memory.transact
  cases m.busy <;> simp

theorem Operation.step_of_effect {now : Instant} {p : Node} {m : Memory} {op : Operation}
    {o : Outcome} {g : Graph} (h : op.effect now p m = .ok (o, g)) :
    m.published.Step now p op g := by
  cases op with
  | get target projection =>
    obtain ⟨_, -, h⟩ := map_eq_ok_iff.1 h
    obtain ⟨-, rfl⟩ := Prod.mk.inj h
    exact .get target projection
  | check access =>
    obtain ⟨_, -, h⟩ := map_eq_ok_iff.1 h
    obtain ⟨-, rfl⟩ := Prod.mk.inj h
    exact .check access
  | grant access =>
    obtain ⟨key, hkey, h⟩ := bind_eq_ok_iff.1 (Memory.transact_eq_ok_iff.1 h).2
    obtain ⟨-, rfl⟩ := Prod.mk.inj (Except.ok.inj h)
    exact .grant hkey
  | revoke access =>
    obtain ⟨key, hkey, h⟩ := bind_eq_ok_iff.1 (Memory.transact_eq_ok_iff.1 h).2
    obtain ⟨-, rfl⟩ := Prod.mk.inj (Except.ok.inj h)
    exact .revoke hkey
  | update target assignments owner =>
    obtain ⟨_, -, h⟩ := bind_eq_ok_iff.1 h
    exact Graph.step_of_update (Memory.transact_eq_ok_iff.1 h).2
  | delete target kind owner => exact Graph.step_of_delete (Memory.transact_eq_ok_iff.1 h).2

theorem Plan.effect_eq_ok_iff {now : Instant} {plan : Plan} {caller : Principal} {m : Memory}
    {r : Outcome × Graph} :
    plan.effect now caller m = .ok r ↔
      plan.principal = caller ∧ plan.operation.effect now caller.node m = .ok r := by
  unfold Plan.effect
  by_cases h : plan.principal = caller <;> simp [h]

/-- The kind of statement that an outcome answers. -/
def Outcome.verb : Outcome → Verb
  | .records _ => .get
  | .verdict _ => .check
  | .granted .. => .grant
  | .revoked .. => .revoke
  | .updated .. => .update
  | .deleted .. => .delete

/-- An operation is answered by an outcome of its kind. -/
theorem Operation.verb_of_effect {now : Instant} {p : Node} {m : Memory} {op : Operation}
    {o : Outcome} {g : Graph} (h : op.effect now p m = .ok (o, g)) : o.verb = op.verb := by
  -- Whatever is done on the way, the outcome is made at the end.
  cases op with
  | get target projection =>
    obtain ⟨_, hget, h⟩ := map_eq_ok_iff.1 h
    obtain ⟨rfl, -⟩ := Prod.mk.inj h
    obtain ⟨_, -, hget⟩ := bind_eq_ok_iff.1 hget
    obtain rfl := Except.ok.inj hget
    rfl
  | check access =>
    obtain ⟨_, hcheck, h⟩ := map_eq_ok_iff.1 h
    obtain ⟨rfl, -⟩ := Prod.mk.inj h
    obtain ⟨_, -, hcheck⟩ := bind_eq_ok_iff.1 hcheck
    obtain ⟨_, -, hcheck⟩ := bind_eq_ok_iff.1 hcheck
    obtain rfl := Except.ok.inj hcheck
    rfl
  | grant access | revoke access =>
    obtain ⟨_, -, h⟩ := bind_eq_ok_iff.1 (Memory.transact_eq_ok_iff.1 h).2
    obtain ⟨rfl, -⟩ := Prod.mk.inj (Except.ok.inj h)
    rfl
  | update target assignments owner =>
    obtain ⟨_, -, h⟩ := bind_eq_ok_iff.1 h
    obtain ⟨_, -, h⟩ := bind_eq_ok_iff.1 (Memory.transact_eq_ok_iff.1 h).2
    cases owner with
    | none =>
      obtain ⟨_, -, h⟩ := bind_eq_ok_iff.1 h
      obtain ⟨rfl, -⟩ := Prod.mk.inj (Except.ok.inj h)
      rfl
    | some field =>
      obtain ⟨_, -, h⟩ := bind_eq_ok_iff.1 h
      obtain ⟨_, -, h⟩ := bind_eq_ok_iff.1 h
      obtain ⟨rfl, -⟩ := Prod.mk.inj (Except.ok.inj h)
      rfl
  | delete target kind owner =>
    obtain ⟨-, _, rfl, -⟩ := Graph.delete_eq_ok_iff.1 (Memory.transact_eq_ok_iff.1 h).2
    rfl

/-- **A plan gives a permission** when it is a plan of its caller to give one, no transaction is
    open, and the caller may administer the resource. -/
theorem Plan.effect_eq_granted_iff {now : Instant} {plan : Plan} {caller : Principal} {m : Memory}
    {edge : Edge} {created : Bool} {g : Graph} :
    plan.effect now caller m = .ok (.granted edge created, g) ↔
      plan.principal = caller ∧ m.busy = false ∧ ∃ access key, plan.operation = .grant access ∧
        m.published.delegate caller.node .grant access = .ok key ∧
        edge = Graph.newEdge now caller.node key ∧ (created, g) = m.published.upsertEdge edge := by
  rw [Plan.effect_eq_ok_iff]
  refine and_congr_right fun _ => ⟨fun h => ?_, ?_⟩
  · have hverb := Operation.verb_of_effect h
    cases hop : plan.operation with
    | grant access =>
      rw [hop] at h
      obtain ⟨hidle, hgrant⟩ := Memory.transact_eq_ok_iff.1 h
      obtain ⟨key, hkey, hgrant⟩ := bind_eq_ok_iff.1 hgrant
      obtain ⟨ho, rfl⟩ := Prod.mk.inj (Except.ok.inj hgrant)
      obtain ⟨rfl, rfl⟩ := Outcome.granted.inj ho
      exact ⟨hidle, access, key, rfl, hkey, rfl, rfl⟩
    | get | check | revoke | update | delete =>
      rw [hop] at hverb
      exact nomatch hverb
  · rintro ⟨hidle, access, key, hop, hkey, rfl, h⟩
    obtain ⟨rfl, rfl⟩ := Prod.mk.inj h
    rw [hop]
    exact Memory.transact_eq_ok_iff.2 ⟨hidle, bind_eq_ok_iff.2 ⟨key, hkey, rfl⟩⟩

/-- **A store after a run**, whatever the polls answered, is the store before it, or the published
    graph has taken one step. -/
theorem Plan.step_of_attempt {ι : Type} (watch : Watch ι) (m : Memory) (caller : ι) (now : Instant)
    (plan : Plan) (p : Principal) :
    let m' := (m.attempt watch caller (plan.execute now p).run).2.memory
    m' = m ∨ plan.principal = p ∧ ∃ g, m.published.Step now p.node plan.operation g ∧
      m' = { m with published := g } := by
  intro m'
  rcases plan.attempt_cases watch m caller now p with ⟨o, g, h, -, hm⟩ | ⟨_, -, -, hm⟩
  · obtain ⟨hp, h⟩ := Plan.effect_eq_ok_iff.1 h
    exact .inr ⟨hp, g, Operation.step_of_effect h, hm⟩
  · exact .inl hm

end Warrant
