import Warrant.Proofs.Effect.Progress
import Warrant.Proofs.Number.Equality
import Warrant.Proofs.Resolution.Meaning

/-!
# References to one row

CHECK, GRANT and REVOKE speak of one subject and one resource. Whether a reference names one row is
seen from its text alone: it asks for equalities only, and for one in a unique field. That is enough
where the rows keep what the schema says about unique fields. Then a reference finds one row or
none, and nothing is ever refused because there are several.

## Main definitions

- `Filter.Pins` — a filter selects rows that are equal in a field
- `Graph.KeepsUnique` — no two rows are equal in a unique field
- `Target.IsSingle` — a target is one row at most
- `Operation.access?` — the operands of CHECK, GRANT and REVOKE

## Main statements

- `Condition.IsConjunctive.exists_literal` — no conjunct is lost
- `Scope.exists_pins` — whatever names a row pins a unique field
- `Graph.Faithful.isSingle_of_pins` — a pinned field finds one row at most
- `Plan.attempt_ne_ambiguous` — references are ambiguous only where a unique field is not
-/

namespace Warrant

/-! ## What names a row -/

/-- No literal denotes null. -/
theorem Literal.Denotes.ne_null {actorId : String} {literal : Literal} {type : FieldType}
    {v : Value} (h : literal.Denotes actorId type v) : v ≠ .null := by
  cases h <;> exact nofun

/-- **A conjunctive condition compares every field that it tests** with some literal, and all rows
    that satisfy the condition satisfy the comparison. -/
theorem Condition.IsConjunctive.exists_literal {c : Condition} {name : String}
    (hc : c.IsConjunctive) (htests : c.Tests name) : ∃ literal, ∀ actorId e row,
      c.Holds actorId e row → Holds actorId e row (.compare name .equal literal) := by
  induction htests with
  | compare how literal =>
    cases hc with
    | equal => exact ⟨literal, fun _ _ _ h => h⟩
  | every hmem _ ih =>
    cases hc with
    | every hparts =>
      obtain ⟨literal, hliteral⟩ := ih (hparts _ hmem)
      refine ⟨literal, fun actorId e row h => ?_⟩
      cases h with
      | every h => exact hliteral actorId e row (h _ hmem)
  | any => exact nomatch hc

/-- **A filter pins a field**: the rows that it selects have values there, which are equal. -/
def Filter.Pins (f : Filter) (name : String) : Prop :=
  ∀ row row', f.selects row = true → f.selects row' = true →
    row.value name ≠ .null ∧ (row.value name).agrees (row'.value name) = true

theorem Filter.pins_hasId (id : String) : (hasId id).Pins Row.idField := by
  intro row row' h h'
  rw [Row.value_eq_string_iff.2 (selects_hasId_iff.1 h),
    Row.value_eq_string_iff.2 (selects_hasId_iff.1 h')]
  exact ⟨nofun, Value.agrees_string_iff.2 rfl⟩

namespace Scope

variable {s : Scope} {e : Entity}

/-- The filter of a conjunctive condition pins every field that the condition tests. -/
theorem pins_filter (he : e.IsSound) {c : Condition} {f : Filter} {name : String}
    (hf : s.filter e c = .ok f) (hc : c.IsConjunctive) (htests : c.Tests name) : f.Pins name := by
  obtain ⟨literal, hliteral⟩ := hc.exists_literal htests
  intro row row' h h'
  have hrow := hliteral _ _ _ ((selects_filter_iff he hf).1 h)
  have hrow' := hliteral _ _ _ ((selects_filter_iff he hf).1 h')
  obtain ⟨field, hfield, rfl, v, hv, hagrees⟩ := hrow.exists_of_equal
  obtain ⟨field', hfield', hname, v', hv', hagrees'⟩ := hrow'.exists_of_equal
  -- both rows are compared with the value of one literal in one field
  obtain rfl := he.eq_of_name_eq hfield' hfield hname
  obtain rfl := hv.unique hv'
  refine ⟨fun hnull => ?_, Value.agrees_trans hagrees (Value.agrees_symm hagrees')⟩
  rw [hnull] at hagrees
  exact hv.ne_null (Value.agrees_null_left_iff.1 hagrees)

/-- **Whatever names a row pins a unique field.** -/
theorem exists_pins (he : e.IsSound) {ref : Reference} {f : Filter} (h : s.pin e ref = .ok f) :
    ∃ name, e.isUnique name = true ∧ f.Pins name := by
  have hid : e.isUnique Row.idField = true := he.isUnique_iff.2 (.inl rfl)
  unfold pin at h
  -- An id pins the identity, and conditions pin the unique field that one of them is about.
  split at h
  · next id _ =>
    obtain rfl := Except.ok.inj h
    exact ⟨_, hid, Filter.pins_hasId id⟩
  · obtain ⟨-, rfl⟩ := actorRow_eq_ok_iff.1 h
    exact ⟨_, hid, Filter.pins_hasId s.actorId⟩
  · exact nomatch h
  · exact nomatch h
  · next c _ =>
    cases hnames : equalities? c with
    | none =>
      rw [hnames] at h
      exact nomatch h
    | some names =>
      rw [hnames] at h
      dsimp only at h
      split at h
      · next hany =>
        obtain ⟨name, hmem, hunique⟩ := List.any_eq_true.1 hany
        exact ⟨name, hunique, pins_filter he h (exists_equalities_iff.1 ⟨names, hnames⟩)
          ((mem_equalities_iff hnames).1 hmem)⟩
      · exact nomatch h

end Scope

/-! ## Unique fields -/

/-- **A target is one row at most.** In a graph without a table for it, it is none. -/
def Target.IsSingle (g : Graph) (target : Target) : Prop :=
  ∀ rows, g.find target.entity target.filter = .ok rows → rows.length ≤ 1

namespace Graph

variable {schema : Schema} {g : Graph} {e : Entity}

/-- **No two rows are equal in a unique field**, unless the field is null. -/
def KeepsUnique (schema : Schema) (g : Graph) : Prop :=
  ∀ e ∈ schema.entities, ∀ f ∈ e.fields, f.unique = true → ∀ id id' row row',
    g.row? ⟨e.name, id⟩ = some row → g.row? ⟨e.name, id'⟩ = some row' →
    row.value f.name ≠ .null → (row.value f.name).agrees (row'.value f.name) = true → id = id'

/-- Whether unique fields are unique is seen row by row. -/
theorem keepsUnique_iff : g.KeepsUnique schema ↔
    ∀ e ∈ schema.entities, ∀ f ∈ e.fields, f.unique = true → ∀ t ∈ g.tables.toList,
      t.1 = e.name → ∀ b ∈ t.2.toList, ∀ b' ∈ t.2.toList, b.2.value f.name ≠ .null →
        (b.2.value f.name).agrees (b'.2.value f.name) = true → b.1 = b'.1 := by
  constructor
  · intro h e he f hf hunique t ht hname b hb b' hb'
    rw [SortedMap.mem_toList_iff] at ht hb hb'
    have hrow : ∀ id, g.row? ⟨e.name, id⟩ = t.2.get? id := by
      intro id
      rw [← hname, row?, ht, Option.bind_some]
    exact h e he f hf hunique b.1 b'.1 b.2 b'.2 ((hrow _).trans hb) ((hrow _).trans hb')
  · intro h e he f hf hunique id id' row row' hrow hrow'
    obtain ⟨t, ht, hrow⟩ := Option.bind_eq_some_iff.1 hrow
    rw [row?, ht, Option.bind_some] at hrow'
    exact h e he f hf hunique (e.name, t) (SortedMap.mem_toList_iff.2 ht) rfl
      (id, row) (SortedMap.mem_toList_iff.2 hrow) (id', row') (SortedMap.mem_toList_iff.2 hrow')

instance : Decidable (g.KeepsUnique schema) :=
  decidable_of_iff' _ keepsUnique_iff

/-- Rows that are equal in a unique field are one row. The identity is unique in any case. -/
theorem Faithful.eq_of_agrees (hg : g.Faithful) (hunique : g.KeepsUnique schema)
    (he : e ∈ schema.entities) (hsound : e.IsSound) {name : String} (hname : e.isUnique name = true)
    {row row' : Row} (hrow : g.row? ⟨e.name, row.id⟩ = some row)
    (hrow' : g.row? ⟨e.name, row'.id⟩ = some row') (hnull : row.value name ≠ .null)
    (hagrees : (row.value name).agrees (row'.value name) = true) : row.id = row'.id := by
  rcases hsound.isUnique_iff.1 hname with rfl | ⟨f, hf, rfl, hdeclared⟩
  · rw [Row.value_eq_string_iff.2 (hg _ _ hrow).2, Row.value_eq_string_iff.2 (hg _ _ hrow').2,
      Value.agrees_string_iff] at hagrees
    exact Value.string.inj hagrees
  · exact hunique e he f hf hdeclared _ _ _ _ hrow hrow' hnull hagrees

/-- **A filter that pins a unique field finds one row at most.** -/
theorem Faithful.isSingle_of_pins (hg : g.Faithful) (hunique : g.KeepsUnique schema)
    (he : e ∈ schema.entities) (hsound : e.IsSound) {name : String} {f : Filter}
    (hname : e.isUnique name = true) (hpins : f.Pins name) : Target.IsSingle g ⟨e.name, f⟩ := by
  intro rows h
  have hids : ∀ row ∈ rows, ∀ row' ∈ rows, row.id = row'.id := by
    intro row hrow row' hrow'
    obtain ⟨hstored, hselected⟩ := (hg.mem_find_iff h).1 hrow
    obtain ⟨hstored', hselected'⟩ := (hg.mem_find_iff h).1 hrow'
    obtain ⟨hnull, hagrees⟩ := hpins row row' hselected hselected'
    exact hg.eq_of_agrees hunique he hsound hname hstored hstored' hnull hagrees
  match rows with
  | [] | [_] => simp
  | first :: second :: _ =>
    -- rows are found in the order of their identities, each once
    have hlt := List.rel_of_pairwise_cons (hg.keyed.pairwise_find h) List.mem_cons_self
    have hself : compare second.id second.id = .eq := Std.ReflCmp.compare_self
    rw [hids first (by simp) second (by simp), hself] at hlt
    exact nomatch hlt

end Graph

namespace Scope

variable {s : Scope} {g : Graph}

/-- The rows of CHECK, GRANT and REVOKE are single rows. -/
theorem isSingle_of_row (hs : s.schema.IsSound) (hg : g.Faithful)
    (hunique : g.KeepsUnique s.schema) {kind : EntityKind} {ref : Reference} {e : Entity}
    {target : Target} (h : s.row kind ref = .ok (e, target)) : target.IsSingle g := by
  obtain ⟨e', he, h⟩ := bind_eq_ok_iff.1 h
  obtain ⟨f, hf, h⟩ := bind_eq_ok_iff.1 h
  obtain ⟨rfl, rfl⟩ := Prod.mk.inj (Except.ok.inj h)
  have hmem := (hs.entity?_eq_some_iff.1 (entityOfKind_eq_ok_iff.1 he).1).1
  have hsound := hs.entities _ hmem
  obtain ⟨name, hname, hpins⟩ := exists_pins hsound hf
  exact hg.isSingle_of_pins hunique hmem hsound hname hpins

theorem isSingle_of_access (hs : s.schema.IsSound) (hactor : s.actor ∈ s.schema.entities)
    (hg : g.Faithful) (hunique : g.KeepsUnique s.schema) {who : Subject} {permission : String}
    {what : Reference} {access : Access} (h : s.access who permission what = .ok access) :
    access.subject.IsSingle g ∧ access.resource.IsSingle g := by
  obtain ⟨subject, hsubject, h⟩ := bind_eq_ok_iff.1 h
  obtain ⟨permission', -, h⟩ := bind_eq_ok_iff.1 h
  obtain ⟨⟨e, resource⟩, hresource, h⟩ := bind_eq_ok_iff.1 h
  obtain rfl := Except.ok.inj h
  refine ⟨?_, isSingle_of_row hs hg hunique hresource⟩
  cases who with
  | self =>
    obtain rfl := Except.ok.inj hsubject
    have hsound := hs.entities _ hactor
    exact hg.isSingle_of_pins hunique hactor hsound (hsound.isUnique_iff.2 (.inl rfl))
      (Filter.pins_hasId s.actorId)
  | reference ref =>
    obtain ⟨⟨e', target⟩, hrow, hsubject⟩ := bind_eq_ok_iff.1 hsubject
    obtain rfl := Except.ok.inj hsubject
    exact isSingle_of_row hs hg hunique hrow

end Scope

/-- The operands of CHECK, GRANT and REVOKE. -/
def Operation.access? : Operation → Option Access
  | .check access | .grant access | .revoke access => some access
  | _ => none

theorem Statement.isSingle_of_resolve {schema : Schema} (hs : schema.IsSound) {g : Graph}
    (hg : g.Faithful) (hunique : g.KeepsUnique schema) {p : Principal}
    {statement : Statement} {plan : Plan} (h : statement.resolve schema p = .ok plan)
    {access : Access} (haccess : plan.operation.access? = some access) :
    access.subject.IsSingle g ∧ access.resource.IsSingle g := by
  obtain ⟨s, hscope, h⟩ := bind_eq_ok_iff.1 h
  obtain ⟨op, hop, h⟩ := bind_eq_ok_iff.1 h
  obtain rfl := Except.ok.inj h
  obtain ⟨rfl, -, hactor, -⟩ := (Scope.ofPrincipal_eq_ok_iff hs).1 hscope
  cases statement with
  | check who permission what | grant permission what who | revoke permission what who =>
    obtain ⟨access', hresolved, hop⟩ := bind_eq_ok_iff.1 hop
    obtain rfl := Except.ok.inj hop
    obtain rfl := Option.some.inj haccess
    exact Scope.isSingle_of_access hs hactor hg hunique hresolved
  | get ref names clause | update ref settings clause =>
    obtain ⟨_, -, hop⟩ := bind_eq_ok_iff.1 hop
    obtain ⟨_, -, hop⟩ := bind_eq_ok_iff.1 hop
    obtain rfl := Except.ok.inj hop
    exact nomatch haccess
  | delete ref clause =>
    obtain ⟨_, -, hop⟩ := bind_eq_ok_iff.1 hop
    obtain rfl := Except.ok.inj hop
    exact nomatch haccess

/-! ## Runs -/

/-- A computation does not fail because there are several rows. -/
def IsUnambiguous {α : Type} (x : Except RunError α) : Prop :=
  ∀ target count, x ≠ .error (.ambiguous target count)

section

variable {α β : Type}

theorem isUnambiguous_ok (a : α) : IsUnambiguous (.ok a) :=
  fun _ _ => nofun

theorem IsUnambiguous.bind {x : Except RunError α} {f : α → Except RunError β}
    (hx : IsUnambiguous x) (hf : ∀ a, IsUnambiguous (f a)) : IsUnambiguous (x >>= f) := by
  cases x with
  | error e => exact fun target count h => hx target count (congrArg _ (Except.error.inj h))
  | ok a => exact hf a

theorem IsUnambiguous.map {x : Except RunError α} (hx : IsUnambiguous x) (f : α → β) :
    IsUnambiguous (x.map f) := by
  have hmap : x.map f = x >>= fun a => .ok (f a) := by cases x <;> rfl
  rw [hmap]
  exact hx.bind fun a => isUnambiguous_ok (f a)

theorem IsUnambiguous.transact {m : Memory} {change : Graph → Except RunError (α × Graph)}
    (h : IsUnambiguous (change m.published)) : IsUnambiguous (m.transact change) := by
  unfold Memory.transact
  split
  · exact fun _ _ => nofun
  · exact h

end

namespace Graph

variable {g : Graph}

/-- A target that is one row at most is resolved or not found. -/
theorem isUnambiguous_resolve {target : Target} (h : target.IsSingle g) :
    IsUnambiguous (g.resolve target) := by
  unfold resolve rowsOf
  cases hrows : g.find target.entity target.filter with
  | error e => exact fun _ _ => nofun
  | ok rows =>
    have hlength := h rows hrows
    match rows with
    | [] | [_] => exact fun _ _ => nofun
    | _ :: _ :: _ => simp at hlength

theorem isUnambiguous_authorize (p : Node) (action : Verb) (resource : Node) (row : Row)
    (ownerField : String) : IsUnambiguous (g.authorize p action resource row ownerField) := by
  unfold authorize
  split
  · exact isUnambiguous_ok ()
  · exact fun _ _ => nofun

theorem isUnambiguous_delegate {access : Access} (hsubject : access.subject.IsSingle g)
    (hresource : access.resource.IsSingle g) (p : Node) (action : Verb) :
    IsUnambiguous (g.delegate p action access) :=
  (isUnambiguous_resolve hsubject).bind fun _ => (isUnambiguous_resolve hresource).bind fun _ =>
    (isUnambiguous_authorize p action _ _ _).bind fun _ => isUnambiguous_ok _

end Graph

/-- When both operands are single rows, an operation does not fail because there are several. -/
theorem Operation.isUnambiguous_effect {m : Memory} {op : Operation} {access : Access}
    (haccess : op.access? = some access) (hsubject : access.subject.IsSingle m.published)
    (hresource : access.resource.IsSingle m.published) (now : Instant) (p : Node) :
    IsUnambiguous (op.effect now p m) := by
  cases op with
  | check access' =>
    obtain rfl := Option.some.inj haccess
    exact ((Graph.isUnambiguous_resolve hsubject).bind fun _ =>
      (Graph.isUnambiguous_resolve hresource).bind fun _ => isUnambiguous_ok _).map _
  | grant access' =>
    obtain rfl := Option.some.inj haccess
    exact IsUnambiguous.transact
      ((Graph.isUnambiguous_delegate hsubject hresource p .grant).bind fun _ => isUnambiguous_ok _)
  | revoke access' =>
    obtain rfl := Option.some.inj haccess
    exact IsUnambiguous.transact
      ((Graph.isUnambiguous_delegate hsubject hresource p .revoke).bind fun _ => isUnambiguous_ok _)
  | get | update | delete => exact nomatch haccess

/-- **References are ambiguous only where a unique field is not.** On any store whose rows repeat
    their identities, as built rows do, and keep unique fields unique, the subject and the resource
    of CHECK, GRANT and REVOKE are one row each at most, and no run fails because there are several,
    whether its caller gives up or not. -/
theorem Plan.attempt_ne_ambiguous {schema : Schema} (hschema : schema.validate = .ok ())
    {m : Memory} (hfaithful : m.published.Faithful) (hunique : m.published.KeepsUnique schema)
    {p : Principal} {statement : Statement} {plan : Plan}
    (hplan : statement.resolve schema p = .ok plan) {access : Access}
    (haccess : plan.operation.access? = some access) :
    access.subject.IsSingle m.published ∧ access.resource.IsSingle m.published ∧
      ∀ {ι : Type} (watch : Watch ι) (caller : ι) (now : Instant) (target : Target) (count : Nat),
        (m.attempt watch caller (plan.execute now p).run).1 ≠ .error (.ambiguous target count) := by
  have hs := Schema.isSound_of_validate hschema
  obtain ⟨hsubject, hresource⟩ :=
    Statement.isSingle_of_resolve hs hfaithful hunique hplan haccess
  refine ⟨hsubject, hresource, fun watch caller now target count h => ?_⟩
  rcases plan.attempt_cases watch m caller now p with ⟨o, g, -, hr, -⟩ | ⟨e, he, hr, -⟩
  · cases h.symm.trans hr
  · obtain rfl := Except.error.inj (h.symm.trans hr)
    rcases he with heffect | ⟨_, reason, -, hrefused⟩
    · have hprincipal := (Statement.resolve_fits hplan).1
      rw [Plan.effect, if_neg (not_not.2 hprincipal)] at heffect
      exact Operation.isUnambiguous_effect haccess hsubject hresource now p.node _ _ heffect
    · cases hrefused

/-- Users with numbered badges. The reference has the number as a float, the row as an integer. -/
theorem Plan.attempt_ne_ambiguous_badges :
    ∃ (schema : Schema) (m : Memory) (ann : Principal) (plan : Plan) (access : Access),
      m.Built schema ∧ plan.operation.access? = some access ∧
      (m.published.find access.subject.entity access.subject.filter).toOption.map
        (·.map Row.id) = some ["ann"] ∧
      access.subject.IsSingle m.published ∧ access.resource.IsSingle m.published ∧
      ∀ (now : Instant) (target : Target) (count : Nat),
        (m.attempt Watch.never () (plan.execute now ann).run).1 ≠
          .error (.ambiguous target count) := by
  let schema : Schema :=
    ⟨[⟨"User", .principal, [⟨"id", .string, true⟩, ⟨"badge", .number, true⟩], none⟩,
      ⟨"Resource", .resource, [⟨"id", .string, true⟩, ⟨"owner", .string, false⟩], none⟩],
      ["read", "admin"], false⟩
  let five : Binary64 := ⟨0x4014000000000000⟩
  let ann : Principal := ⟨"User", "ann"⟩
  let statement : Statement := .check
    (.reference ⟨"User", .conditions (.every [.compare "badge" .equal (.float five)])⟩) "read"
    ⟨"Resource", .id "doc"⟩
  obtain ⟨m, hm⟩ : ∃ m, (Memory.ofSchema schema).insertRows "User"
      [.ofFields "ann" [("badge", .integer 5)], .ofFields "bob" [("badge", .integer 6)]] = .ok m :=
    ⟨_, rfl⟩
  have hbuilt : m.Built schema := @Memory.Built.inserted _ _ _ _
    [("ann", [("badge", .integer 5)]), ("bob", [("badge", .integer 6)])] .start hm
  obtain rfl := Except.ok.inj hm
  have hresult := @Plan.attempt_ne_ambiguous schema (by decide +kernel) _ hbuilt.faithful
    (by decide +kernel) ann statement _ rfl _ rfl
  exact ⟨schema, _, ann, _, _, hbuilt, rfl, by decide +kernel, hresult.1, hresult.2.1,
    hresult.2.2 Watch.never ()⟩

end Warrant
