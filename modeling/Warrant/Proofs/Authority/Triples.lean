import Mathlib.Data.Finset.Basic
import Warrant.Proofs.Store.Runs

/-!
# Permissions as a set of triples

CHECK, GRANT and REVOKE never touch a row. So one can forget the store and keep a set of triples:
who may do what to which row. What a principal may give or take is decided by this very set, which
their requests change, and by the owners of the rows, which stay. This module describes that
machine and shows that a store, serving any requests of any principals one after another, behaves
like it.

## Main definitions

- `Triples` — a set of subjects, objects and permissions
- `Access.matter?` — the rows that a request is about
- `Triples.serve`, `Triples.serveAll` — the machine
- `AccessRequest` — a compiled CHECK, GRANT or REVOKE
- `Memory.serveAll` — a store that serves requests

## Main statements

- `AccessRequest.simulated` — one request
- `Memory.serveAll_simulated` — any number of requests
-/

namespace Warrant

/-! ## The machine -/

abbrev Triples := Finset EdgeKey

inductive Ask
  | check
  | grant
  | revoke
deriving DecidableEq, Repr

/-- What a request is about once its rows are known. -/
structure Matter where
  key : EdgeKey
  /-- The text that the resource holds in its owner field, if it holds one. -/
  owner : Option String
deriving DecidableEq

/-- **The matter of an access**, if its subject and its resource have exactly one row each. -/
def Access.matter? (schema : Schema) (rows : Target → Except RunError (List Row)) (a : Access) :
    Option Matter :=
  match rows a.subject, rows a.resource with
  | .ok [subject], .ok [resource] => some {
      key := ⟨⟨a.subject.entity, subject.id⟩, ⟨a.resource.entity, resource.id⟩, a.permission⟩
      owner := (schema.ownerField? a.resource.entity).bind resource.text? }
  | _, _ => none

namespace Triples

inductive Answer
  | verdict (v : Verdict)
  | granted (key : EdgeKey) (grantor : Node) (created : Bool)
  | revoked (key : EdgeKey) (removed : Bool)
  | refused
deriving DecidableEq

/-- The verdict on a matter: the triple is there, or the subject is the owner, or neither. -/
def verdict (E : Triples) (c : Matter) : Verdict :=
  if c.key ∈ E then .allow .directGrant
  else if c.owner = some c.key.subject.id then .allow .ownership
  else .deny

/-- A principal may give and take permissions on a resource if it holds the permission to administer
    it, or owns it. -/
def Delegates (E : Triples) (p : Node) (c : Matter) : Prop :=
  ⟨p, c.key.object, Schema.adminPermission⟩ ∈ E ∨ c.owner = some p.id
deriving Decidable

/-- **One request.** A request whose rows are not known is refused; so is one to give or take what
    the principal may not. What is refused changes nothing. -/
def serve (E : Triples) (p : Node) (ask : Ask) : Option Matter → Answer × Triples
  | none => (.refused, E)
  | some c =>
    match ask with
    | .check => (.verdict (E.verdict c), E)
    | .grant =>
      if E.Delegates p c then
        (.granted c.key p (insert c.key E ≠ E), insert c.key E)
      else (.refused, E)
    | .revoke =>
      if E.Delegates p c then
        (.revoked c.key (E.erase c.key ≠ E), E.erase c.key)
      else (.refused, E)

/-- A principal is refused what it may not give or take, and what is not known. -/
theorem serve_eq_refused {E : Triples} {p : Node} {ask : Ask} {matter : Option Matter}
    (h : ∀ c, matter = some c → ask ≠ .check ∧ ¬ E.Delegates p c) :
    E.serve p ask matter = (.refused, E) := by
  cases matter with
  | none => rfl
  | some c =>
    obtain ⟨hask, hdelegates⟩ := h c rfl
    cases ask with
    | check => exact absurd rfl hask
    | grant => exact if_neg hdelegates
    | revoke => exact if_neg hdelegates

end Triples

/-! ## Requests -/

def Ask.operation : Ask → Access → Operation
  | .check => .check
  | .grant => .grant
  | .revoke => .revoke

/-- **A compiled CHECK, GRANT or REVOKE** of a principal, and when it is run. -/
structure AccessRequest (schema : Schema) where
  now : Instant
  principal : Principal
  text : String
  plan : Plan
  ask : Ask
  access : Access
  compiled : compile schema principal text = .ok plan
  operation_eq : plan.operation = ask.operation access

variable {schema : Schema}

def AccessRequest.matter? (q : AccessRequest schema) (rows : Target → Except RunError (List Row)) :
    Option Matter :=
  q.access.matter? schema rows

/-- What comes of a request to a store, and the store that it leaves, when nobody gives up. -/
def AccessRequest.run (q : AccessRequest schema) (m : Memory) :
    Except RunError Outcome × Memory :=
  let r := m.attempt Watch.never () (q.plan.execute q.now q.principal).run
  (r.1, r.2.memory)

/-- **A store that serves requests**, one after another. -/
def Memory.serveAll : Memory → List (AccessRequest schema) →
    List (Except RunError Outcome × Memory)
  | _, [] => []
  | m, q :: rest => q.run m :: serveAll (q.run m).2 rest

/-- **The machine that serves requests**, while the rows stay. -/
def Triples.serveAll (rows : Target → Except RunError (List Row)) :
    Triples → List (AccessRequest schema) → List (Answer × Triples)
  | _, [] => []
  | E, q :: rest =>
    let r := E.serve q.principal.node q.ask (q.matter? rows)
    r :: serveAll rows r.2 rest

/-! ## The triples of a graph -/

namespace Graph

variable {g : Graph} {p : Node} {action : Verb} {access : Access}

def triples (g : Graph) : Triples :=
  g.edges.keys.toFinset

@[simp]
theorem mem_triples {key : EdgeKey} : key ∈ g.triples ↔ (g.findEdge key).isSome := by
  rw [triples, List.mem_toFinset, SortedMap.mem_keys_iff, findEdge, Option.isSome_map]

theorem triples_upsertEdge (g : Graph) (e : Edge) :
    (g.upsertEdge e).2.triples = insert e.key g.triples := by
  ext key
  rw [mem_triples, findEdge_upsertEdge, Finset.mem_insert, mem_triples]
  by_cases h : key = e.key <;> simp [h]

theorem triples_deleteEdge (g : Graph) (key : EdgeKey) :
    (g.deleteEdge key).2.triples = g.triples.erase key := by
  ext key'
  rw [mem_triples, findEdge_deleteEdge, Finset.mem_erase, mem_triples]
  by_cases h : key' = key <;> simp [h]

/-- An edge is reported as added exactly when the set of triples has changed. -/
theorem upsertEdge_fst_eq (g : Graph) (e : Edge) :
    (g.upsertEdge e).1 = decide (insert e.key g.triples ≠ g.triples) := by
  rw [upsertEdge_fst]
  cases h : g.findEdge e.key <;> simp [h]

theorem deleteEdge_fst_eq (g : Graph) (key : EdgeKey) :
    (g.deleteEdge key).1 = decide (g.triples.erase key ≠ g.triples) := by
  rw [deleteEdge_fst]
  cases h : g.findEdge key <;> simp [h]

/-! ## Matters of a graph -/

theorem matter?_eq_some_iff {rows : Target → Except RunError (List Row)} {c : Matter}
    (hfits : access.Fits schema) : access.matter? schema rows = some c ↔ ∃ subject resource,
      rows access.subject = .ok [subject] ∧ rows access.resource = .ok [resource] ∧
      c = ⟨⟨⟨access.subject.entity, subject.id⟩, ⟨access.resource.entity, resource.id⟩,
        access.permission⟩, resource.text? access.ownerField⟩ := by
  unfold Access.matter?
  rw [hfits.resource]
  constructor
  · intro h
    split at h
    · next subject resource hs hr => exact ⟨subject, resource, hs, hr, (Option.some.inj h).symm⟩
    · exact nomatch h
  · rintro ⟨subject, resource, hs, hr, rfl⟩
    rw [hs, hr]
    rfl

/-- The key of an access that a principal may give or take is that of its matter. -/
theorem delegate_eq_ok_iff_matter {key : EdgeKey} (hfits : access.Fits schema) :
    g.delegate p action access = .ok key ↔ ∃ c, access.matter? schema g.rowsOf = some c ∧
      g.triples.Delegates p c ∧ key = c.key := by
  simp only [delegate_eq_ok_iff, matter?_eq_some_iff hfits]
  constructor
  · rintro ⟨s, r, hs, hr, hadmin, rfl⟩
    refine ⟨_, ⟨s, r, hs, hr, rfl⟩, ?_, rfl⟩
    rw [Triples.Delegates, mem_triples]
    exact allowed_verdict_iff.1 hadmin
  · rintro ⟨_, ⟨s, r, hs, hr, rfl⟩, hdelegates, rfl⟩
    refine ⟨s, r, hs, hr, ?_, rfl⟩
    rw [Triples.Delegates, mem_triples] at hdelegates
    exact allowed_verdict_iff.2 hdelegates

theorem check_eq_ok_iff_matter {o : Outcome} (hfits : access.Fits schema) :
    g.check access = .ok o ↔ ∃ c, access.matter? schema g.rowsOf = some c ∧
      o = .verdict (g.triples.verdict c) := by
  unfold check
  simp only [bind_eq_ok_iff, Prod.exists, resolve_eq_ok_iff, matter?_eq_some_iff hfits]
  constructor
  · rintro ⟨_, s, ⟨hs, rfl⟩, _, r, ⟨hr, rfl⟩, h⟩
    refine ⟨_, ⟨s, r, hs, hr, rfl⟩, ?_⟩
    rw [← Except.ok.inj h, Triples.verdict, verdict]
    simp only [mem_triples]
  · rintro ⟨_, ⟨s, r, hs, hr, rfl⟩, rfl⟩
    refine ⟨_, s, ⟨hs, rfl⟩, _, r, ⟨hr, rfl⟩, ?_⟩
    rw [Triples.verdict, verdict]
    simp only [mem_triples]
    rfl

end Graph

/-! ## Simulation -/

/-- **An answer describes a result**, `g` being the graph that is published then. A granted edge is
    there and names its grantor. -/
inductive Triples.Answer.Describes (g : Graph) : Answer → Except RunError Outcome → Prop
  | verdict (v : Verdict) : Describes g (.verdict v) (.ok (.verdict v))
  | granted {key : EdgeKey} {grantor : Node} {now : Instant} (created : Bool)
    (hfound : g.findEdge key = some ⟨key, ⟨now, some grantor⟩⟩) :
    Describes g (.granted key grantor created) (.ok (.granted ⟨key, ⟨now, some grantor⟩⟩ created))
  | revoked {key : EdgeKey} (removed : Bool) (hlost : g.findEdge key = none) :
    Describes g (.revoked key removed) (.ok (.revoked key removed))
  | refused (e : RunError) : Describes g .refused (.error e)

/-- A request fails exactly when it is refused. -/
theorem Triples.Answer.Describes.isOk_eq {g : Graph} {answer : Answer}
    {result : Except RunError Outcome} (h : answer.Describes g result) :
    result.isOk = decide (answer ≠ .refused) := by
  cases h <;> rfl

/-- **A request has been simulated**: the machine's answer describes the result, the store has the
    triples of the machine and the rows of the graph `g` from which it started, and it is ready for
    the next request. -/
structure Simulated (g : Graph) (served : Except RunError Outcome × Memory)
    (expected : Triples.Answer × Triples) : Prop where
  answer : expected.1.Describes served.2.published served.1
  triples : served.2.published.triples = expected.2
  tables : served.2.published.tables = g.tables
  idle : served.2.busy = false

namespace AccessRequest

variable (q : AccessRequest schema) {g g' : Graph}

theorem fits : q.access.Fits schema := by
  have h := (compile_fits q.compiled).2
  rw [q.operation_eq] at h
  cases hask : q.ask <;> rw [hask] at h <;> exact h

theorem effect_eq (m : Memory) : q.plan.effect q.now q.principal m =
    (q.ask.operation q.access).effect q.now q.principal.node m := by
  rw [Plan.effect, if_neg (not_not_intro (compile_fits q.compiled).1), q.operation_eq]

theorem run_of_ok {o : Outcome}
    (h : (q.ask.operation q.access).effect q.now q.principal.node ⟨g, false⟩ = .ok (o, g')) :
    q.run ⟨g, false⟩ = (.ok o, ⟨g', false⟩) := by
  rw [← q.effect_eq] at h
  obtain ⟨hresult, hmemory⟩ := Plan.attempt_never_of_ok h
  exact Prod.ext hresult hmemory

theorem run_of_error {e : RunError}
    (h : (q.ask.operation q.access).effect q.now q.principal.node ⟨g, false⟩ = .error e) :
    q.run ⟨g, false⟩ = (.error e, ⟨g, false⟩) := by
  rw [← q.effect_eq] at h
  obtain ⟨hresult, hmemory⟩ := Plan.attempt_never_of_error h
  exact Prod.ext hresult hmemory

/-- A request that fails is simulated if the machine refuses it. -/
theorem simulated_of_error {e : RunError} {matter : Option Matter}
    (h : (q.ask.operation q.access).effect q.now q.principal.node ⟨g, false⟩ = .error e)
    (hrefused : g.triples.serve q.principal.node q.ask matter = (.refused, g.triples)) :
    Simulated g (q.run ⟨g, false⟩) (g.triples.serve q.principal.node q.ask matter) := by
  rw [q.run_of_error h, hrefused]
  exact ⟨.refused e, rfl, rfl, rfl⟩

theorem simulated_check (hask : q.ask = .check) :
    Simulated g (q.run ⟨g, false⟩)
      (g.triples.serve q.principal.node q.ask (q.matter? g.rowsOf)) := by
  have heffect : (q.ask.operation q.access).effect q.now q.principal.node ⟨g, false⟩ =
      (g.check q.access).map (·, g) := by
    rw [hask]
    rfl
  cases hcheck : g.check q.access with
  | error e =>
    rw [hcheck] at heffect
    refine q.simulated_of_error heffect (Triples.serve_eq_refused fun c hc => ?_)
    exact nomatch hcheck.symm.trans ((Graph.check_eq_ok_iff_matter q.fits).2 ⟨c, hc, rfl⟩)
  | ok o =>
    rw [hcheck] at heffect
    obtain ⟨c, hc, rfl⟩ := (Graph.check_eq_ok_iff_matter q.fits).1 hcheck
    rw [q.run_of_ok heffect, matter?, hc, hask]
    exact ⟨.verdict _, rfl, rfl, rfl⟩

/-- A principal that is not let through may not give or take the permission. -/
theorem not_delegates_of_error {action : Verb} {e : RunError}
    (h : g.delegate q.principal.node action q.access = .error e) {c : Matter}
    (hc : q.matter? g.rowsOf = some c) : ¬ g.triples.Delegates q.principal.node c :=
  fun hdelegates => nomatch h.symm.trans
    ((Graph.delegate_eq_ok_iff_matter q.fits).2 ⟨c, hc, hdelegates, rfl⟩)

theorem simulated_grant (hask : q.ask = .grant) :
    Simulated g (q.run ⟨g, false⟩)
      (g.triples.serve q.principal.node q.ask (q.matter? g.rowsOf)) := by
  have heffect : (q.ask.operation q.access).effect q.now q.principal.node ⟨g, false⟩ =
      Graph.grant q.now q.principal.node q.access g := by
    rw [hask]
    rfl
  cases hkey : g.delegate q.principal.node .grant q.access with
  | error e =>
    rw [Graph.grant, hkey] at heffect
    refine q.simulated_of_error heffect (Triples.serve_eq_refused fun c hc => ?_)
    exact ⟨by rw [hask]; exact nofun, q.not_delegates_of_error hkey hc⟩
  | ok key =>
    rw [Graph.grant, hkey] at heffect
    obtain ⟨c, hc, hdelegates, rfl⟩ := (Graph.delegate_eq_ok_iff_matter q.fits).1 hkey
    rw [q.run_of_ok heffect, matter?, hc, hask, Triples.serve, if_pos hdelegates,
      Graph.upsertEdge_fst_eq]
    refine ⟨.granted _ ?_, Graph.triples_upsertEdge _ _, rfl, rfl⟩
    exact (Graph.findEdge_upsertEdge _ _ _).trans (if_pos rfl)

theorem simulated_revoke (hask : q.ask = .revoke) :
    Simulated g (q.run ⟨g, false⟩)
      (g.triples.serve q.principal.node q.ask (q.matter? g.rowsOf)) := by
  have heffect : (q.ask.operation q.access).effect q.now q.principal.node ⟨g, false⟩ =
      Graph.revoke q.principal.node q.access g := by
    rw [hask]
    rfl
  cases hkey : g.delegate q.principal.node .revoke q.access with
  | error e =>
    rw [Graph.revoke, hkey] at heffect
    refine q.simulated_of_error heffect (Triples.serve_eq_refused fun c hc => ?_)
    exact ⟨by rw [hask]; exact nofun, q.not_delegates_of_error hkey hc⟩
  | ok key =>
    rw [Graph.revoke, hkey] at heffect
    obtain ⟨c, hc, hdelegates, rfl⟩ := (Graph.delegate_eq_ok_iff_matter q.fits).1 hkey
    rw [q.run_of_ok heffect, matter?, hc, hask, Triples.serve, if_pos hdelegates,
      Graph.deleteEdge_fst_eq]
    refine ⟨.revoked _ ?_, Graph.triples_deleteEdge _ _, rfl, rfl⟩
    rw [Graph.findEdge_deleteEdge, if_pos rfl]

/-- **One request is simulated**, whoever makes it. -/
theorem simulated (g : Graph) :
    Simulated g (q.run ⟨g, false⟩)
      (g.triples.serve q.principal.node q.ask (q.matter? g.rowsOf)) := by
  cases hask : q.ask with
  | check => exact hask ▸ q.simulated_check hask
  | grant => exact hask ▸ q.simulated_grant hask
  | revoke => exact hask ▸ q.simulated_revoke hask

end AccessRequest

/-- **Permissions are a set of triples.** From any rows and any edges, whatever requests are made and
    whoever makes them: the store answers every one of them as the machine does, and afterwards it
    has the triples that the machine has and the rows that it started from. -/
theorem Memory.serveAll_simulated (g : Graph) (requests : List (AccessRequest schema)) :
    List.Forall₂ (Simulated g) (Memory.serveAll ⟨g, false⟩ requests)
      (Triples.serveAll g.rowsOf g.triples requests) := by
  induction requests generalizing g with
  | nil => exact .nil
  | cons q rest ih =>
    have hq := q.simulated g
    refine .cons hq ?_
    -- The next request finds the machine's triples and the rows of the start.
    obtain ⟨g', hmemory⟩ : ∃ g', (q.run ⟨g, false⟩).2 = ⟨g', false⟩ :=
      ⟨_, congrArg (Memory.mk _) hq.idle⟩
    have htriples := hq.triples
    have htables := hq.tables
    rw [hmemory] at htriples htables ⊢
    have hrest := ih g'
    rw [htriples, Graph.rowsOf_congr htables] at hrest
    exact hrest.imp fun _ _ h => ⟨h.answer, h.triples, h.tables.trans htables, h.idle⟩

/-- alice lets bob administer her document, which nobody may do but her. bob may as long as he wants:
    then he has nothing to say about it. -/
theorem Memory.serveAll_simulated_by_turns :
    let key : EdgeKey := ⟨⟨"User", "bob"⟩, ⟨"Resource", "doc"⟩, "admin"⟩
    ∃ (g : Graph) (requests : List (AccessRequest .standard)),
      requests.map (·.text) = ["GRANT admin ON Resource.doc TO User.bob",
        "REVOKE admin ON Resource.doc FROM SELF", "REVOKE read ON Resource.doc FROM SELF"] ∧
      (Triples.serveAll g.rowsOf g.triples requests).map (·.1) =
        [.granted key ⟨"User", "alice"⟩ true, .revoked key true, .refused] ∧
      (Memory.serveAll ⟨g, false⟩ requests).map (fun served =>
        (served.1.isOk, served.2.published.triples)) = [(true, {key}), (true, ∅), (false, ∅)] := by
  intro key
  let now : Instant := ⟨⟨2024, 1, 1, by decide, by decide⟩, 0, 0, by decide, by decide, by decide⟩
  let g : Graph := {
    tables := .ofList [
      ("User", .ofList [("alice", .new "alice"), ("bob", .new "bob")]),
      ("Resource", .ofList [("doc", .ofFields "doc" [("owner", .string "alice")])])]
    edges := .empty }
  let requests : List (AccessRequest .standard) :=
    [⟨now, ⟨"User", "alice"⟩, "GRANT admin ON Resource.doc TO User.bob", _, .grant, _, rfl, rfl⟩,
      ⟨now, ⟨"User", "bob"⟩, "REVOKE admin ON Resource.doc FROM SELF", _, .revoke, _, rfl, rfl⟩,
      ⟨now, ⟨"User", "bob"⟩, "REVOKE read ON Resource.doc FROM SELF", _, .revoke, _, rfl, rfl⟩]
  refine ⟨g, requests, rfl, by decide +kernel, ?_⟩
  -- What the store does is read off the machine.
  have hsame : (Memory.serveAll ⟨g, false⟩ requests).map (fun served =>
        (served.1.isOk, served.2.published.triples)) =
      (Triples.serveAll g.rowsOf g.triples requests).map fun r =>
        (decide (r.1 ≠ .refused), r.2) := by
    refine List.forall₂_eq_eq_eq ▸ List.forall₂_map_left_iff.2 (List.forall₂_map_right_iff.2 ?_)
    exact (Memory.serveAll_simulated g requests).imp fun _ _ h =>
      Prod.ext h.answer.isOk_eq h.triples
  rw [hsame]
  decide +kernel

end Warrant
