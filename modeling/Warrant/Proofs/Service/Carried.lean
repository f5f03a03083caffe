import Warrant.Proofs.Authority.Containment
import Warrant.Proofs.Effect.Progress
import Warrant.Service.Basic

/-!
# Plans are held to what they carry

Nothing that runs a plan looks at a schema. Whether a caller may change a row is judged through the
owner field that the plan carries, and whether a value fits is judged by the type that the plan
carries; a service adds a comparison of fingerprints. So a plan that was not compiled is held to its
own word, and to the schema as far as the two agree.

## Main definitions

- `Operation.Touches` — a run has changed a row, or given or taken a permission on it
- `Assignment.AgreeOn` — assignments carry the declared types

## Main statements

- `Service.mayTouch_of_touches` — who touches a row may do so as the plan has it
- `Service.run_update` — an UPDATE writes values of the types that the plan has
-/

namespace Warrant

variable {ι : Type}

namespace Service

/-- **How a run of a service ends**: as the effect of the plan says, which then carries the version
    of the service and is for its caller, or with a failure that leaves the store as it was. -/
theorem run_cases (s : Service) (watch : Watch ι) (m : Memory) (c : ι) (now : Instant)
    (caller : Principal) (plan : Plan) :
    let r := m.attempt watch c (s.run now caller plan).run
    (∃ o g, plan.schemaVersion = s.version ∧ plan.principal = caller ∧
      plan.operation.effect now caller.node m = .ok (o, g) ∧ r.1 = .ok o ∧
      r.2.memory = { m with published := g }) ∨
    ∃ e, r.1 = .error e ∧ r.2.memory = m := by
  intro r
  have hrun {x : Evaluation Outcome} (hx : s.run now caller plan = x) :
      r = m.attempt watch c x.run := hx ▸ rfl
  by_cases hversion : plan.schemaVersion = s.version
  · rw [hrun (run_of_version hversion)]
    rcases plan.attempt_cases watch m c now caller with ⟨o, g, h, hr, hm⟩ | ⟨e, -, hr, hm⟩
    · obtain ⟨hcaller, h⟩ := Plan.effect_eq_ok_iff.1 h
      exact .inl ⟨o, g, hversion, hcaller, h, hr, hm⟩
    · exact .inr ⟨e, hr, hm⟩
  · rw [hrun (if_neg hversion)]
    exact .inr ⟨_, rfl, rfl⟩

end Service

/-! ## Owner fields -/

/-- **A run touches a row**: it writes or removes it, or it gives, refreshes or takes a permission on
    it. Permissions that go because another row goes do not count. -/
inductive Operation.Touches (op : Operation) (g g' : Graph) (r : Except RunError Outcome)
    (node : Node) : Prop
  | row (hrow : g'.row? node ≠ g.row? node)
  | edge (key : EdgeKey) (hobject : key.object = node) (hverb : op.verb ≠ .delete)
    (hedge : g'.findEdge key ≠ g.findEdge key)
  | granted (e : Edge) (created : Bool) (hobject : e.key.object = node) (hverb : op.verb = .grant)
    (hresult : r = .ok (.granted e created))

/-- A permission is given to whom the principal was let through for. -/
theorem Operation.mayTouch_of_granted {op : Operation} {now : Instant} {p : Node} {m : Memory}
    {g : Graph} {e : Edge} {created : Bool} (hkeyed : m.published.Keyed) (hverb : op.verb = .grant)
    (h : op.effect now p m = .ok (.granted e created, g)) :
    m.published.MayTouch p op e.key.object := by
  cases op with
  | get | check | revoke | update | delete => exact nomatch hverb
  | grant access =>
    obtain ⟨key, hkey, h⟩ := bind_eq_ok_iff.1 (Memory.transact_eq_ok_iff.1 h).2
    obtain ⟨houtcome, -⟩ := Prod.mk.inj (Except.ok.inj h)
    obtain ⟨rfl, -⟩ := Outcome.granted.inj houtcome
    exact hkeyed.mayTouch_of_delegate hkey rfl rfl

namespace Service

/-- **Who touches a row may do so as the plan has it.** Whatever plan a service is given, compiled or
    not: if the run changes or removes a row, or gives, refreshes or takes a permission on it, the plan
    carries the version of the service and is for its caller, the row was there and is one of those
    that the plan is about, and by the owner field that the plan carries the caller could administer
    it. Where the plan carries no owner field nothing is asked. Every store files rows under their
    identities; a deletion relies on rows that also repeat them. -/
theorem mayTouch_of_touches (s : Service) (watch : Watch ι) {m : Memory} (c : ι) (now : Instant)
    (caller : Principal) (plan : Plan) (hkeyed : m.published.Keyed)
    (hfaithful : plan.verb = .delete → m.published.Faithful) {node : Node} :
    let run := m.attempt watch c (s.run now caller plan).run
    plan.operation.Touches m.published run.2.memory.published run.1 node →
      plan.schemaVersion = s.version ∧ plan.principal = caller ∧
      plan.operation.entity = node.entity ∧ ∃ row, m.published.row? node = some row ∧
        ∀ owner, plan.operation.ownerField? = some owner →
          (m.published.findEdge ⟨caller.node, node, Schema.adminPermission⟩).isSome ∨
            row.text? owner = some caller.id := by
  intro run htouches
  rcases s.run_cases watch m c now caller plan with
    ⟨o, g, hversion, hcaller, heffect, hr, hm⟩ | ⟨e, hr, hm⟩
  · have hgraph : run.2.memory.published = g := congrArg Memory.published hm
    have hstep := Operation.step_of_effect heffect
    rw [hgraph] at htouches
    -- Rows and edges that differ, and a permission that is reported, each come from the one step.
    have hmay : m.published.MayTouch caller.node plan.operation node := by
      cases htouches with
      | row hrow => exact hstep.mayTouch_of_row hkeyed hfaithful hrow
      | edge key hobject hverb hedge =>
        rw [← hobject]
        exact hstep.mayTouch_of_edge hkeyed hverb hedge
      | granted e created hobject hverb hresult =>
        rw [← hobject]
        obtain rfl := Except.ok.inj (hr.symm.trans hresult)
        exact Operation.mayTouch_of_granted hkeyed hverb heffect
    obtain ⟨hentity, row, hrow, hadmin⟩ := hmay
    refine ⟨hversion, hcaller, hentity, row, hrow, fun owner howner => ?_⟩
    exact Graph.allowed_verdict_iff.1 (hadmin owner howner)
  · have hgraph : run.2.memory.published = m.published := congrArg Memory.published hm
    rw [hgraph] at htouches
    cases htouches with
    | row hrow => exact absurd rfl hrow
    | edge key hobject hverb hedge => exact absurd rfl hedge
    | granted e created hobject hverb hresult => exact nomatch hr.symm.trans hresult

/-- alice deletes her document: the row that is gone was hers. -/
theorem mayTouch_of_touches_deleted :
    ∃ (s : Service) (alice : Principal) (now : Instant) (plan : Plan) (row : Row),
      plan.verb = .delete ∧ Memory.shared.published.row? ⟨"Resource", "doc"⟩ = some row ∧
      (Memory.shared.attempt Watch.never () (s.run now alice plan).run).2.memory.published.row?
        ⟨"Resource", "doc"⟩ = none ∧
      ((Memory.shared.published.findEdge
          ⟨alice.node, ⟨"Resource", "doc"⟩, Schema.adminPermission⟩).isSome ∨
        row.text? "owner" = some "alice") := by
  let s : Service := ⟨.standard, none⟩
  let alice : Principal := ⟨"User", "alice"⟩
  let now : Instant := ⟨⟨2024, 1, 2, by decide, by decide⟩, 0, 0, by decide, by decide, by decide⟩
  let plan : Plan :=
    ⟨s.version, alice, .delete ⟨"Resource", .hasId "doc"⟩ .resource (some "owner")⟩
  have hgone : (Memory.shared.attempt Watch.never ()
      (s.run now alice plan).run).2.memory.published.row? ⟨"Resource", "doc"⟩ = none := by
    rw [run_of_version rfl]
    decide +kernel
  have htouches : plan.operation.Touches Memory.shared.published
      (Memory.shared.attempt Watch.never () (s.run now alice plan).run).2.memory.published
      (Memory.shared.attempt Watch.never () (s.run now alice plan).run).1 ⟨"Resource", "doc"⟩ := by
    refine .row ?_
    rw [hgone]
    decide +kernel
  have hfaithful : Memory.shared.published.Faithful := by decide +kernel
  obtain ⟨-, -, -, row, hrow, hadmin⟩ := s.mayTouch_of_touches Watch.never () now alice plan
    hfaithful.keyed (fun _ => hfaithful) htouches
  exact ⟨s, alice, now, plan, row, rfl, hrow, hgone, hadmin "owner" rfl⟩

/-- **A caller trespasses**: it touches a row that it may not administer by the owner field that the
    schema declares, with a plan that is for it and carries the version of the service. -/
def Trespass (s : Service) (m : Memory) (now : Instant) (caller : Principal) (op : Operation)
    (node : Node) : Prop :=
  let run := m.attempt Watch.never () (s.run now caller ⟨s.version, caller, op⟩).run
  ∃ owner row, s.schema.ownerField? node.entity = some owner ∧
    m.published.row? node = some row ∧ ¬ m.published.Administers caller.node node row owner ∧
    op.Touches m.published run.2.memory.published run.1 node

/-- A plan need not carry what the schema declares. bob writes to the document of alice with a plan
    that carries no owner field. Somebody who is called like the document grants bob everything, with
    a plan that carries another field. And when a row repeats the identity of another row, bob deletes
    both with the one that is his. -/
theorem trespass_of_other_field : ∃ (s : Service) (now : Instant) (m : Memory),
    s.Trespass Memory.shared now ⟨"User", "bob"⟩
      (.update ⟨"Resource", .hasId "doc"⟩ [⟨"name", .string "mine", .string⟩] none)
      ⟨"Resource", "doc"⟩ ∧
    s.Trespass Memory.shared now ⟨"User", "doc"⟩
      (.grant ⟨⟨"User", .hasId "bob"⟩, "admin", ⟨"Resource", .hasId "doc"⟩, "id"⟩)
      ⟨"Resource", "doc"⟩ ∧
    s.Trespass m now ⟨"User", "bob"⟩
      (.delete ⟨"Resource", .hasId "memo"⟩ .resource (some "owner")) ⟨"Resource", "doc"⟩ := by
  let s : Service := ⟨.standard, none⟩
  let now : Instant := ⟨⟨2024, 1, 2, by decide, by decide⟩, 0, 0, by decide, by decide, by decide⟩
  let doc : Row := ⟨"doc", .ofList [("id", .string "memo"), ("owner", .string "alice")]⟩
  let m : Memory := ⟨⟨.ofList [("Resource", .ofList [("doc", doc),
    ("memo", .ofFields "memo" [("owner", .string "bob")])])], .empty⟩, false⟩
  refine ⟨s, now, m, ⟨"owner", _, rfl, rfl, ?_, .row ?_⟩, ⟨"owner", _, rfl, rfl, ?_,
    .edge ⟨⟨"User", "bob"⟩, ⟨"Resource", "doc"⟩, "admin"⟩ rfl nofun ?_⟩,
    ⟨"owner", doc, rfl, by decide +kernel, ?_, .row ?_⟩⟩
  · unfold Graph.Administers
    decide +kernel
  · rw [run_of_version rfl]
    decide +kernel
  · unfold Graph.Administers
    decide +kernel
  · rw [run_of_version rfl]
    decide +kernel
  · unfold Graph.Administers
    decide +kernel
  · rw [run_of_version rfl]
    decide +kernel

end Service

/-! ## Types -/

/-- **Assignments carry the types that a schema declares** for the fields of an entity. Fields that
    it does not declare may have any type. -/
def Assignment.AgreeOn (schema : Schema) (entity : String) (assignments : List Assignment) : Prop :=
  ∀ e ∈ schema.entities, e.name = entity → ∀ f ∈ e.fields, ∀ a ∈ assignments,
    a.field = f.name → a.fieldType = f.type
deriving Decidable

namespace Service

/-- **An UPDATE writes values of the types that the plan has**, compiled or not. When it succeeds,
    every assigned value conforms to the type that the plan carries beside it, and what a row holds
    now it held before or it was assigned. So if the plan carries the declared types, a store whose
    rows conform to the schema of the service is left as one. When it fails, nothing is stored. -/
theorem run_update (s : Service) (watch : Watch ι) (m : Memory) (c : ι) (now : Instant)
    (caller : Principal) {plan : Plan} {target : Target} {assignments : List Assignment}
    {owner : Option String} (hop : plan.operation = .update target assignments owner) :
    let run := m.attempt watch c (s.run now caller plan).run
    (∃ o, run.1 = .ok o ∧ (∀ a ∈ assignments, a.value.conformsTo a.fieldType = true) ∧
      (∀ node row', run.2.memory.published.row? node = some row' →
        ∃ row, m.published.row? node = some row ∧ ∀ field, row'.value field = row.value field ∨
          ∃ a ∈ assignments, a.field = field ∧ row'.value field = a.value) ∧
      (m.published.Conforms s.schema → Assignment.AgreeOn s.schema target.entity assignments →
        run.2.memory.published.Conforms s.schema)) ∨
    ∃ e, run.1 = .error e ∧ run.2.memory = m := by
  intro run
  rcases s.run_cases watch m c now caller plan with
    ⟨o, g, hversion, hcaller, heffect, hr, hm⟩ | ⟨e, hr, hm⟩
  · left
    rw [hop] at heffect
    -- The types were checked before the transaction was opened.
    have hchecked : ∀ a ∈ assignments, a.value.conformsTo a.fieldType = true := by
      obtain ⟨_, hcheck, -⟩ := bind_eq_ok_iff.1 heffect
      exact Assignment.checkTypes_eq_ok_iff.1 hcheck
    have hgraph : run.2.memory.published = g := congrArg Memory.published hm
    rw [hgraph]
    cases Operation.step_of_effect heffect with
    | update _ _ hwrite =>
      refine ⟨o, hr, hchecked, fun node row' hrow' => ?_, fun hconforms hagree => ?_⟩
      · rw [(Graph.updateRows_eq_ok hwrite).2] at hrow'
        obtain ⟨row, hrow, rfl⟩ := Option.map_eq_some_iff.1 hrow'
        refine ⟨row, hrow, fun field => ?_⟩
        refine Row.value_iterate_setAll (P := fun v => v = row.value field ∨
          ∃ a ∈ assignments, a.field = field ∧ v = a.value) (fun b hb hfield => ?_) _ row (.inl rfl)
        obtain ⟨a, ha, rfl⟩ := List.mem_map.1 hb
        exact .inr ⟨a, ha, hfield, rfl⟩
      · refine hconforms.updateRows (fun e he hname f hf b hb hfield => ?_) hwrite
        obtain ⟨a, ha, rfl⟩ := List.mem_map.1 hb
        rw [← hagree e he hname f hf a ha hfield]
        exact hchecked a ha
  · exact .inr ⟨e, hr, hm⟩

/-- alice renames her document with a plan of her own making, which carries the declared type. -/
theorem run_update_renamed :
    ∃ (s : Service) (alice : Principal) (now : Instant) (plan : Plan),
      plan.operation = .update ⟨"Resource", .hasId "doc"⟩ [⟨"name", .string "final", .string⟩]
        (some "owner") ∧
      let run := Memory.shared.attempt Watch.never () (s.run now alice plan).run
      run.2.memory.published.row? ⟨"Resource", "doc"⟩ =
        some (.ofFields "doc" [("owner", .string "alice"), ("name", .string "final")]) ∧
      run.2.memory.published.Conforms s.schema := by
  let s : Service := ⟨.standard, none⟩
  let alice : Principal := ⟨"User", "alice"⟩
  let now : Instant := ⟨⟨2024, 1, 2, by decide, by decide⟩, 0, 0, by decide, by decide, by decide⟩
  let plan : Plan := ⟨s.version, alice, .update ⟨"Resource", .hasId "doc"⟩
    [⟨"name", .string "final", .string⟩] (some "owner")⟩
  have hok : (Memory.shared.attempt Watch.never () (s.run now alice plan).run).1.isOk = true := by
    rw [run_of_version rfl]
    decide +kernel
  have hrow : (Memory.shared.attempt Watch.never ()
      (s.run now alice plan).run).2.memory.published.row? ⟨"Resource", "doc"⟩ =
        some (.ofFields "doc" [("owner", .string "alice"), ("name", .string "final")]) := by
    rw [run_of_version rfl]
    decide +kernel
  have hop : plan.operation = .update ⟨"Resource", .hasId "doc"⟩ [⟨"name", .string "final", .string⟩]
      (some "owner") := rfl
  rcases s.run_update Watch.never Memory.shared () now alice hop with
    ⟨-, -, -, -, hconforms⟩ | ⟨e, he, -⟩
  · exact ⟨s, alice, now, plan, hop, hrow, hconforms (by decide +kernel) (by decide)⟩
  · rw [he] at hok
    exact nomatch hok

/-- A plan need not carry the declared types: alice names her document 5. -/
theorem run_update_of_other_type :
    ∃ (s : Service) (alice : Principal) (now : Instant) (plan : Plan),
      plan.operation = .update ⟨"Resource", .hasId "doc"⟩ [⟨"name", .integer 5, .number⟩]
        (some "owner") ∧
      plan.schemaVersion = s.version ∧ plan.principal = alice ∧
      Memory.shared.published.Conforms s.schema ∧
      let run := Memory.shared.attempt Watch.never () (s.run now alice plan).run
      run.1.isOk = true ∧ ¬ run.2.memory.published.Conforms s.schema := by
  let s : Service := ⟨.standard, none⟩
  let alice : Principal := ⟨"User", "alice"⟩
  let now : Instant := ⟨⟨2024, 1, 2, by decide, by decide⟩, 0, 0, by decide, by decide, by decide⟩
  refine ⟨s, alice, now, ⟨s.version, alice, .update ⟨"Resource", .hasId "doc"⟩
    [⟨"name", .integer 5, .number⟩] (some "owner")⟩, rfl, rfl, rfl, by decide +kernel, ?_⟩
  rw [run_of_version rfl]
  decide +kernel

end Service

end Warrant
