import Warrant.Proofs.Effect.Steps
import Warrant.Proofs.Resolution.Fit

/-!
# Who may touch a row

An operation that changes something carries an owner field, or none. Whatever it changes or gives
away afterwards is on rows that its principal may administer, judged through this field; no schema is
asked. For an operation that fits a schema the field is the one that the schema declares.

## Main definitions

- `Operation.ownerField?` — the owner field that an operation carries
- `Graph.MayTouch` — an operation has been judged on a row

## Main statements

- `Graph.Step.mayTouch_of_row` — rows that a step changes
- `Graph.Step.mayTouch_of_edge` — permissions that a step gives or takes
-/

namespace Warrant

namespace Operation

/-- The entity whose rows an operation reads, changes or gives permissions on. -/
def entity : Operation → String
  | .get target _ => target.entity
  | .check access => access.resource.entity
  | .grant access => access.resource.entity
  | .revoke access => access.resource.entity
  | .update target _ _ => target.entity
  | .delete target _ _ => target.entity

/-- The owner field through which an operation that changes something judges its principal. -/
def ownerField? : Operation → Option String
  | .get .. => none
  | .check _ => none
  | .grant access => some access.ownerField
  | .revoke access => some access.ownerField
  | .update _ _ owner => owner
  | .delete _ _ owner => owner

/-- An operation that fits a schema carries the owner field that the schema declares. -/
theorem Fits.ownerField?_eq {schema : Schema} {op : Operation} (h : op.Fits schema)
    (hverb : op.verb.isMutation = true) : op.ownerField? = schema.ownerField? op.entity := by
  cases op with
  | get | check => exact nomatch hverb
  | grant | revoke => exact h.resource.symm
  | update | delete => exact h.2

end Operation

namespace Graph

variable {g g' : Graph} {now : Instant} {p node : Node} {op : Operation}

/-- **The principal may touch the row at a node**, as an operation has it: the row is one of those
    that the operation is about, and the principal may administer it, judged through the owner field
    that the operation carries, if it carries one. -/
def MayTouch (g : Graph) (p : Node) (op : Operation) (node : Node) : Prop :=
  op.entity = node.entity ∧
    ∃ row, g.row? node = some row ∧ ∀ field ∈ op.ownerField?, g.Administers p node row field

/-- Whoever is let through to an access may touch its resource. -/
theorem Keyed.mayTouch_of_delegate (hg : g.Keyed) {action : Verb} {access : Access} {key : EdgeKey}
    (hkey : g.delegate p action access = .ok key) (hentity : op.entity = access.resource.entity)
    (howner : op.ownerField? = some access.ownerField) : g.MayTouch p op key.object := by
  obtain ⟨_, found, -, hfound, hadmin, rfl⟩ := delegate_eq_ok_iff.1 hkey
  rw [rowsOf_eq_ok_iff] at hfound
  have hfiled := hg.row?_of_mem_find hfound (List.mem_singleton_self found)
  refine ⟨hentity, found, hfiled, fun field hfield => ?_⟩
  rw [howner] at hfield
  obtain rfl := Option.some.inj hfield
  exact hadmin

/-- What a filter deletes is what the guard has found. -/
theorem Faithful.administers_of_selected (hg : g.Faithful) {entity : String} {filter : Filter}
    {ownerField : Option String}
    (hguard : ∀ field ∈ ownerField, ∃ rows, g.find entity filter = .ok rows ∧
      ∀ row ∈ rows, g.Administers p ⟨entity, row.id⟩ row field)
    {id : String} (hid : id ∈ g.selectedIds entity filter) :
    ∃ row, g.row? ⟨entity, id⟩ = some row ∧
      ∀ field ∈ ownerField, g.Administers p ⟨entity, id⟩ row field := by
  obtain ⟨row, hrow, hsel⟩ := hg.keyed.mem_selectedIds_iff.1 hid
  refine ⟨row, hrow, fun field hfield => ?_⟩
  obtain ⟨rows, hrows, hadmin⟩ := hguard field hfield
  have hself := hg.keyed.row?_self hrow
  have hadmin := hadmin row ((hg.mem_find_iff hrows).2 ⟨hself, hsel⟩)
  rw [(hg _ _ hrow).1] at hadmin
  exact hadmin

/-- An operation that only reads takes no graph to another one. -/
theorem Step.eq_of_reading (hstep : g.Step now p op g') (hverb : op.verb.isMutation = false) :
    g' = g := by
  cases hstep with
  | get | check => rfl
  | grant | revoke | update | delete => exact nomatch hverb

/-- **Rows that a step changes** may be touched. Before a deletion the guard looks up an identity and
    the deletion searches for it, so rows must repeat it. -/
theorem Step.mayTouch_of_row (hg : g.Keyed) (hfaithful : op.verb = .delete → g.Faithful)
    (hstep : g.Step now p op g') (hrow : g'.row? node ≠ g.row? node) : g.MayTouch p op node := by
  cases hstep with
  | get | check | grant | revoke => exact absurd rfl hrow
  | @update target _ owner rows _ hrows hguard hwrite =>
    obtain ⟨row, hmem, rfl⟩ : ∃ row ∈ rows, (⟨target.entity, row.id⟩ : Node) = node := by
      by_contra hnone
      exact hrow (row?_updateRows_of_not_mem hwrite fun row hmem heq => hnone ⟨row, hmem, heq⟩)
    refine ⟨rfl, row, hg.row?_of_mem_find hrows hmem, fun field hfield => ?_⟩
    exact hguard field hfield row hmem
  | @delete target _ owner _ _ hguard hwrite =>
    obtain ⟨entity, id⟩ := node
    obtain ⟨rfl, hid⟩ : entity = target.entity ∧ id ∈ g.selectedIds target.entity target.filter := by
      by_contra hother
      exact hrow (((deleteRows_eq_ok hwrite).1 _).trans (if_neg hother))
    exact ⟨rfl, (hfaithful rfl).administers_of_selected hguard hid⟩

/-- **Permissions that a step gives or takes** are on rows that may be touched. Deletions take
    permissions on other rows too: those of the rows that are deleted. -/
theorem Step.mayTouch_of_edge (hg : g.Keyed) (hstep : g.Step now p op g')
    (hverb : op.verb ≠ .delete) {key : EdgeKey} (hedge : g'.findEdge key ≠ g.findEdge key) :
    g.MayTouch p op key.object := by
  cases hstep with
  | get | check => exact absurd rfl hedge
  | @grant access changed hkey =>
    rw [findEdge_upsertEdge] at hedge
    obtain rfl : key = changed := by_contra fun hne => hedge (if_neg hne)
    exact hg.mayTouch_of_delegate hkey rfl rfl
  | @revoke access changed hkey =>
    rw [findEdge_deleteEdge] at hedge
    obtain rfl : key = changed := by_contra fun hne => hedge (if_neg hne)
    exact hg.mayTouch_of_delegate hkey rfl rfl
  | update _ _ hwrite =>
    refine absurd ?_ hedge
    rw [findEdge, findEdge, (updateRows_eq_ok hwrite).1]
  | delete => exact absurd rfl hverb

end Graph

end Warrant
