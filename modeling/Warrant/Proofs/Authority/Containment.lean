import Mathlib.Data.Set.Defs
import Warrant.Proofs.Authority.Guards
import Warrant.Proofs.Store.Runs

/-!
# Nobody gains access to what they may not administer

Whoever may not administer a resource can neither change its row nor give anybody a permission on
it. Nothing that such principals do meanwhile helps them: they may delete users, and with them the
edges of these users, change rows of their own and pass permissions on these rows around, but for
the resource in question they only ever lose.

## Main definitions

- `Graph.KeepsResource` — what has become of a resource in the hands of such principals

## Main statements

- `Graph.KeepsResource.step` — it is preserved by everything that they can do
- `Memory.no_escalation` — no run of theirs allows anything that was denied before
-/

namespace Warrant

namespace Graph

variable {schema : Schema} {start g g' : Graph} {resource : Node} {row : Row} {owner : String}
  {now : Instant} {p : Node}

/-- **A resource is kept**: its row is as it was at the start, and every edge on it was there at the
    start, with the same time and the same grantor or none. -/
structure KeepsResource (start : Graph) (resource : Node) (row : Row) (g : Graph) : Prop where
  faithful : g.Faithful
  row? : g.row? resource = some row
  edges : ∀ key e', key.object = resource → g.findEdge key = some e' →
    ∃ e, start.findEdge key = some e ∧ e.stamp.KeptAs e'.stamp

theorem KeepsResource.refl (hg : g.Faithful) (hrow : g.row? resource = some row) :
    KeepsResource g resource row g :=
  ⟨hg, hrow, fun _ e _ he => ⟨e, he, .refl e.stamp⟩⟩

/-- What is denied on a kept resource was denied at the start. -/
theorem KeepsResource.allowed (h : KeepsResource start resource row g) {subject : Node}
    {permission : String}
    (hv : (g.verdict subject permission resource row owner).allowed = true) :
    (start.verdict subject permission resource row owner).allowed = true := by
  rw [allowed_verdict_iff] at hv ⊢
  rcases hv with hedge | howner
  · obtain ⟨e', he'⟩ := Option.isSome_iff_exists.1 hedge
    obtain ⟨e, he, -⟩ := h.edges _ e' rfl he'
    exact .inl (Option.isSome_of_eq_some he)
  · exact .inr howner

/-- A graph that lost edges at most, and still has the row, keeps the resource. -/
theorem KeepsResource.of_edges (h : KeepsResource start resource row g) (hg' : g'.Faithful)
    (hrow : g'.row? resource = some row)
    (hedges : ∀ key e', key.object = resource → g'.findEdge key = some e' →
      ∃ e, g.findEdge key = some e ∧ e.stamp.KeptAs e'.stamp) :
    KeepsResource start resource row g' := by
  refine ⟨hg', hrow, fun key e' hkey he' => ?_⟩
  obtain ⟨e, he, hkept⟩ := hedges key e' hkey he'
  obtain ⟨e₀, he₀, hkept₀⟩ := h.edges key e hkey he
  exact ⟨e₀, he₀, hkept₀.trans hkept⟩

/-- **A resource is kept by every step** of a principal who may not administer it at the start. -/
theorem KeepsResource.step (howner : schema.ownerField? resource.entity = some owner)
    (hp : ¬ start.Administers p resource row owner) {op : Operation} (hfits : op.Fits schema)
    (hstep : g.Step now p op g') (h : KeepsResource start resource row g) :
    KeepsResource start resource row g' := by
  have hg := h.faithful
  by_cases hverb : op.verb.isMutation = true
  case neg =>
    rw [hstep.eq_of_reading (Bool.eq_false_iff.2 hverb)]
    exact h
  -- The principal has gained nothing so far, so it may not touch the resource in this graph either.
  have hnot : ¬ g.MayTouch p op resource := by
    rintro ⟨hentity, found, hfound, hadmin⟩
    obtain rfl := Option.some.inj (h.row?.symm.trans hfound)
    rw [hfits.ownerField?_eq hverb, hentity] at hadmin
    exact hp (h.allowed (hadmin owner howner))
  have hrow : g'.row? resource = g.row? resource :=
    by_contra fun hrow => hnot (hstep.mayTouch_of_row hg.keyed (fun _ => hg) hrow)
  refine h.of_edges (hstep.faithful hg) (hrow.trans h.row?) fun key e' hobject he' => ?_
  by_cases hdelete : op.verb = .delete
  · cases hstep with
    | get | check | grant | revoke | update => exact nomatch hdelete
    | delete _ hwrite =>
      obtain ⟨e, he, hkept, -⟩ := findEdge_of_deleteRows hwrite he'
      exact ⟨e, he, hkept⟩
  · have hedge : g'.findEdge key = g.findEdge key := by_contra fun hedge =>
      hnot (hobject ▸ hstep.mayTouch_of_edge hg.keyed hdelete hedge)
    exact ⟨e', hedge ▸ he', .refl e'.stamp⟩

end Graph

namespace Memory

variable {schema : Schema} {m m' : Memory} {resource : Node} {row : Row} {owner : String}
  {actors : Set Principal}

/-- **No escalation.** Some principals may not administer a resource: none of them is named by its
    owner field or holds the permission by an edge. They run any plans compiled for them, one after
    another, with any results. Then the row of the resource is as it was, every edge on it was there
    before, and whatever is allowed on it to anybody was allowed before. -/
theorem no_escalation (hrows : m.published.Faithful)
    (howner : schema.ownerField? resource.entity = some owner)
    (hrow : m.published.row? resource = some row)
    (hactors : ∀ p ∈ actors, row.text? owner ≠ some p.id ∧
      m.published.findEdge ⟨p.node, resource, Schema.adminPermission⟩ = none)
    (hruns : m.Runs (fun p plan => p ∈ actors ∧ plan.CompiledFor schema p) m') :
    m'.published.row? resource = some row ∧
    (∀ key e', key.object = resource → m'.published.findEdge key = some e' →
      ∃ e, m.published.findEdge key = some e ∧ e.stamp.KeptAs e'.stamp) ∧
    ∀ subject permission,
      (m'.published.verdict subject permission resource row owner).allowed = true →
      (m.published.verdict subject permission resource row owner).allowed = true := by
  have hkeeps : m.published.KeepsResource resource row m'.published := by
    refine hruns.preserves (fun {_ _ _ p _} hadmits _ hstep h => ?_) (.refl hrows hrow)
    obtain ⟨hp, hcompiled⟩ := hadmits
    refine h.step howner (fun hadmin => ?_) hcompiled.fits.2 hstep
    obtain ⟨hid, hedge⟩ := hactors p hp
    rcases Graph.allowed_verdict_iff.1 hadmin with h | h
    · rw [hedge] at h
      exact nomatch h
    · exact hid h
  exact ⟨hkeeps.row?, hkeeps.edges, fun _ _ => hkeeps.allowed⟩

/-- A store with a document that alice owns and bob may read. -/
def shared : Memory where
  published := {
    tables := .ofList [
      ("User", .ofList [("alice", .new "alice"), ("bob", .new "bob")]),
      ("Resource", .ofList [("doc", .ofFields "doc" [("owner", .string "alice")])])]
    edges := .ofList [
      (⟨⟨"User", "bob"⟩, ⟨"Resource", "doc"⟩, "read"⟩,
        ⟨⟨⟨2024, 1, 1, by decide, by decide⟩, 0, 0, by decide, by decide, by decide⟩,
          some ⟨"User", "alice"⟩⟩)] }
  busy := false

/-- bob, who may read the document, does not get to write it by deleting its owner and granting
    himself what he wants. -/
theorem no_escalation_shared : ∃ (bob : Principal) (now : Instant) (deletion grant : Plan),
    compile .standard bob "DELETE User.alice" = .ok deletion ∧
    compile .standard bob "GRANT write ON Resource.doc TO SELF" = .ok grant ∧
    let m := (shared.attempt Watch.never () (deletion.execute now bob).run).2.memory
    let m := (m.attempt Watch.never () (grant.execute now bob).run).2.memory
    ¬ (m.published.verdict bob.node "write" ⟨"Resource", "doc"⟩
      (.ofFields "doc" [("owner", .string "alice")]) "owner").allowed := by
  let bob : Principal := ⟨"User", "bob"⟩
  let now : Instant := ⟨⟨2024, 1, 2, by decide, by decide⟩, 0, 0, by decide, by decide, by decide⟩
  obtain ⟨deletion, hdeletion⟩ : ∃ plan, compile .standard bob "DELETE User.alice" = .ok plan :=
    ⟨_, rfl⟩
  obtain ⟨grant, hgrant⟩ : ∃ plan,
      compile .standard bob "GRANT write ON Resource.doc TO SELF" = .ok plan := ⟨_, rfl⟩
  refine ⟨bob, now, deletion, grant, hdeletion, hgrant, fun hallowed => ?_⟩
  have hruns : shared.Runs (fun p plan => p ∈ ({bob} : Set Principal) ∧
      plan.CompiledFor .standard p) _ :=
    .tail (.single (.attempt Watch.never () now bob deletion ⟨rfl, _, hdeletion⟩))
      (.attempt Watch.never () now bob grant ⟨rfl, _, hgrant⟩)
  have hactors : ∀ p ∈ ({bob} : Set Principal),
      (Row.ofFields "doc" [("owner", .string "alice")]).text? "owner" ≠ some p.id ∧
      shared.published.findEdge ⟨p.node, ⟨"Resource", "doc"⟩, Schema.adminPermission⟩ = none := by
    rintro p rfl
    exact ⟨by decide +kernel, by decide +kernel⟩
  have h := no_escalation (by decide +kernel) (by decide) (by decide +kernel) hactors hruns
  exact absurd (h.2.2 _ _ hallowed) (by decide +kernel)

end Memory

end Warrant
