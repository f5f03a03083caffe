import Warrant.Proofs.Effect.History
import Warrant.Proofs.Effect.Progress

/-!
# How plans talk to their stores

A store may answer any call with anything. Whatever it answers, a plan that only reads opens no
transaction, and any other plan opens one at most and does all its work inside. In there it reads
first, and it writes when everything that its guards have read allows it. The first failure is the
last thing that happens before the rollback; without one the last thing is the commit.

## Main definitions

- `Evaluation.Ends` — a first failure ends everything
- `Evaluation.Follows` — an evaluation makes calls of one sort only
- `Operation.Cleared` — what an operation has read, and been allowed, before it writes
- `Evaluation.Inside` — what happens inside a transaction
- `Plan.Transacts` — how a plan that may change a store talks to it

## Main statements

- `Plan.execute_disciplined` — every plan against every store
-/

namespace Warrant

variable {α β σ : Type}

namespace Call

inductive Kind
  | poll
  | read
  | write
  /-- Snapshots, and the two ends of transactions. -/
  | control
deriving DecidableEq

def kind : Call → Kind
  | .poll => .poll
  | .find .. => .read
  | .findEdge _ => .read
  | .upsertEdge _ => .write
  | .deleteEdge _ => .write
  | .updateFields .. => .write
  | .deleteRows .. => .write
  | .snapshot => .control
  | .begin => .control
  | .commit => .control
  | .rollback => .control

def IsReading (c : Call) : Prop :=
  c.kind = .poll ∨ c.kind = .read

def IsWriting (c : Call) : Prop :=
  c.kind = .poll ∨ c.kind = .write

end Call

namespace Exchange

def Succeeds (x : Exchange) : Prop :=
  ∃ a, x.answer = .ok a

def Fails (x : Exchange) (reason : StoreError) : Prop :=
  x.answer = .error reason

/-- The rows of a target have been found. -/
def found (target : Target) (rows : List Row) : Exchange :=
  ⟨.find target.entity target.filter, .ok rows⟩

/-- The question whether a principal administers a resource has been answered with yes: it holds the
    permission, or it is the owner. -/
def Allows (p resource : Node) (row : Row) (ownerField : String) (x : Exchange) : Prop :=
  ∃ edge : Option Edge, x = ⟨.findEdge ⟨p, resource, Schema.adminPermission⟩, .ok edge⟩ ∧
    (edge.isSome ∨ row.text? ownerField = some p.id)

/-- Everything but the polls. -/
def requests (h : List Exchange) : List Exchange :=
  h.filter fun x => x.call.kind ≠ .poll

@[simp]
theorem requests_append (h h' : List Exchange) :
    requests (h ++ h') = requests h ++ requests h' :=
  List.filter_append ..

end Exchange

namespace Evaluation

open Exchange (requests requests_append found)

/-! ## First failures -/

/-- **A first failure ends everything.** Either all calls succeed, and then the evaluation succeeds or
    it refuses to go on, or the last call is the only one that fails, and its failure is the result. -/
inductive Ends : List Exchange → Except RunError α → Prop
  | succeeded {h : List Exchange} {a : α} (hall : ∀ x ∈ h, x.Succeeds) : Ends h (.ok a)
  | refused {h : List Exchange} {e : RunError} (hall : ∀ x ∈ h, x.Succeeds) (he : e.IsOrdinary) :
    Ends h (.error e)
  | failed {h : List Exchange} {x : Exchange} {reason : StoreError}
    (hall : ∀ x ∈ h, x.Succeeds) (hx : x.Fails reason) : Ends (h ++ [x]) (.error (.store reason))

theorem Ends.succeeds {h : List Exchange} {a : α} (hends : Ends h (.ok a)) :
    ∀ x ∈ h, x.Succeeds := by
  cases hends with
  | succeeded hall => exact hall

theorem Ends.of_error {h : List Exchange} {e : RunError}
    (hends : Ends h (.error e : Except RunError α)) : Ends h (.error e : Except RunError β) := by
  cases hends with
  | refused hall he => exact .refused hall he
  | failed hall hx => exact .failed hall hx

theorem Ends.after {h h' : List Exchange} {r : Except RunError α} (hends : Ends h' r)
    (hall : ∀ x ∈ h, x.Succeeds) : Ends (h ++ h') r := by
  have happend : ∀ {h' : List Exchange}, (∀ x ∈ h', x.Succeeds) → ∀ x ∈ h ++ h', x.Succeeds :=
    fun hall' x hx => (List.mem_append.1 hx).elim (hall x) (hall' x)
  cases hends with
  | succeeded hall' => exact .succeeded (happend hall')
  | refused hall' he => exact .refused (happend hall') he
  | failed hall' hx =>
    rw [← List.append_assoc]
    exact .failed (happend hall') hx

/-- **An evaluation makes calls of one sort only**, and a first failure ends it. -/
def Follows (allowed : Call → Prop) (x : Evaluation α) : Prop :=
  ∀ h r, x.Plays h r → (∀ y ∈ h, allowed y.call) ∧ Ends h r

variable {allowed allowed' : Call → Prop} {x : Evaluation α} {f : α → Evaluation β}

theorem Follows.mono (hx : x.Follows allowed) (hsub : ∀ c, allowed c → allowed' c) :
    x.Follows allowed' :=
  fun h r hplays => ⟨fun y hy => hsub y.call ((hx h r hplays).1 y hy), (hx h r hplays).2⟩

theorem follows_pure (a : α) : (pure a : Evaluation α).Follows allowed := by
  intro h r hplays
  obtain ⟨rfl, rfl⟩ := plays_pure_iff.1 hplays
  exact ⟨List.forall_mem_nil _, .succeeded (List.forall_mem_nil _)⟩

theorem follows_throw {e : RunError} (he : e.IsOrdinary) :
    (throw e : Evaluation α).Follows allowed := by
  intro h r hplays
  obtain ⟨rfl, rfl⟩ := plays_throw_iff.1 hplays
  exact ⟨List.forall_mem_nil _, .refused (List.forall_mem_nil _) he⟩

theorem follows_ask {call : Call} (hcall : allowed call) : (ask call).Follows allowed := by
  intro h r hplays
  obtain ⟨answer, rfl, rfl⟩ := plays_ask_iff.1 hplays
  refine ⟨fun y hy => ?_, ?_⟩
  · rw [List.mem_singleton.1 hy]
    exact hcall
  · cases answer with
    | ok a =>
      refine .succeeded fun y hy => ?_
      rw [List.mem_singleton.1 hy]
      exact ⟨a, rfl⟩
    | error reason => exact .failed (h := []) (List.forall_mem_nil _) rfl

theorem Follows.bind (hx : x.Follows allowed) (hf : ∀ a, (f a).Follows allowed) :
    (x >>= f).Follows allowed := by
  intro h r hplays
  rcases plays_bind_iff.1 hplays with ⟨e, hfirst, rfl⟩ | ⟨h₁, a, h₂, hfirst, hrest, rfl⟩
  · obtain ⟨hcalls, hends⟩ := hx h _ hfirst
    exact ⟨hcalls, hends.of_error⟩
  · obtain ⟨hcalls, hends⟩ := hx h₁ _ hfirst
    obtain ⟨hcalls', hends'⟩ := hf a h₂ r hrest
    exact ⟨fun y hy => (List.mem_append.1 hy).elim (hcalls y) (hcalls' y),
      hends'.after hends.succeeds⟩

/-! ## Reading -/

theorem follows_poll : poll.Follows Call.IsReading :=
  follows_ask (.inl rfl)

theorem follows_find (target : Target) : (find target).Follows Call.IsReading :=
  follows_ask (.inr rfl)

theorem follows_decide (subject : Node) (permission : String) (resource : Node) (row : Row)
    (ownerField : String) :
    (decide subject permission resource row ownerField).Follows Call.IsReading := by
  refine (follows_ask (.inr rfl)).bind fun edge => ?_
  split
  · exact follows_pure _
  · split <;> exact follows_pure _

theorem follows_resolve (target : Target) : (resolve target).Follows Call.IsReading := by
  refine follows_poll.bind fun _ => (follows_find target).bind fun rows => ?_
  match rows with
  | [] => exact follows_throw (.notFound target)
  | [row] => exact follows_pure _
  | _ :: _ :: _ => exact follows_throw (.ambiguous target _)

theorem follows_authorize (p : Node) (action : Verb) (resource : Node) (row : Row)
    (ownerField : String) :
    (authorize p action resource row ownerField).Follows Call.IsReading := by
  refine follows_poll.bind fun _ => (follows_decide _ _ _ _ _).bind fun verdict => ?_
  split
  · exact follows_pure _
  · exact follows_throw (.forbidden p action resource)

theorem follows_guardRows (p : Node) (action : Verb) (entity ownerField : String)
    (rows : List Row) : (guardRows p action entity ownerField rows).Follows Call.IsReading := by
  induction rows with
  | nil => exact follows_pure _
  | cons row rest ih => exact (follows_authorize _ _ _ _ _).bind fun _ => ih

theorem follows_delegate (p : Node) (action : Verb) (access : Access) :
    (delegate p action access).Follows Call.IsReading :=
  (follows_resolve access.subject).bind fun _ =>
    (follows_resolve access.resource).bind fun _ =>
      (follows_authorize _ _ _ _ _).bind fun _ => follows_pure _

theorem follows_updateRows (entity : String) (values : List (String × Value)) (rows : List Row) :
    (updateRows entity values rows).Follows Call.IsWriting := by
  induction rows with
  | nil => exact follows_pure _
  | cons row rest ih =>
    exact (follows_ask (.inl rfl)).bind fun _ => (follows_ask (.inr rfl)).bind fun _ => ih

/-! ## What has been read -/

variable {h : List Exchange} {p : Node} {action : Verb} {row : Row} {ownerField : String}

theorem plays_ask_ok_iff {call : Call} {a : call.Result} :
    (ask call).Plays h (.ok a) ↔ h = [⟨call, .ok a⟩] := by
  rw [plays_ask_iff]
  constructor
  · rintro ⟨answer, rfl, hok⟩
    rw [mapError_eq_ok_iff.1 hok.symm]
  · rintro rfl
    exact ⟨.ok a, rfl, rfl⟩

theorem plays_ask_error_iff {call : Call} {e : RunError} :
    (ask call).Plays h (.error e) ↔
      ∃ reason, h = [⟨call, .error reason⟩] ∧ e = .store reason := by
  rw [plays_ask_iff]
  constructor
  · rintro ⟨answer, rfl, herror⟩
    cases answer with
    | ok => exact nomatch herror
    | error reason => exact ⟨reason, rfl, Except.error.inj herror⟩
  · rintro ⟨reason, rfl, rfl⟩
    exact ⟨.error reason, rfl, rfl⟩

theorem requests_of_poll {u : Unit} (hplays : poll.Plays h (.ok u)) : requests h = [] := by
  rw [plays_ask_ok_iff.1 hplays]
  rfl

theorem requests_of_find {target : Target} {rows : List Row}
    (hplays : (find target).Plays h (.ok rows)) : requests h = [found target rows] := by
  rw [plays_ask_ok_iff.1 hplays]
  rfl

theorem requests_of_resolve {target : Target} {node : Node}
    (hplays : (resolve target).Plays h (.ok (node, row))) :
    requests h = [found target [row]] ∧ node = ⟨target.entity, row.id⟩ := by
  obtain ⟨h₁, _, _, hpoll, hrest, rfl⟩ := plays_bind_ok_iff.1 hplays
  obtain ⟨h₂, rows, h₃, hfind, hend, rfl⟩ := plays_bind_ok_iff.1 hrest
  rw [requests_append, requests_append, requests_of_poll hpoll, requests_of_find hfind]
  match rows with
  | [] => exact nomatch (plays_throw_iff.1 hend).2
  | [row'] =>
    obtain ⟨rfl, heq⟩ := plays_pure_iff.1 hend
    obtain ⟨rfl, rfl⟩ := Prod.mk.inj (Except.ok.inj heq)
    exact ⟨rfl, rfl⟩
  | _ :: _ :: _ => exact nomatch (plays_throw_iff.1 hend).2

theorem requests_of_decide {subject resource : Node} {permission : String} {verdict : Verdict}
    (hplays : (decide subject permission resource row ownerField).Plays h (.ok verdict)) :
    ∃ edge : Option Edge, requests h = [⟨.findEdge ⟨subject, resource, permission⟩, .ok edge⟩] ∧
      (verdict.allowed → edge.isSome ∨ row.text? ownerField = some subject.id) := by
  obtain ⟨h₁, edge, h₂, hask, hend, rfl⟩ := plays_bind_ok_iff.1 hplays
  obtain rfl := plays_ask_ok_iff.1 hask
  refine ⟨edge, ?_⟩
  by_cases hedge : Option.isSome edge
  · rw [if_pos hedge] at hend
    obtain ⟨rfl, -⟩ := plays_pure_iff.1 hend
    exact ⟨rfl, fun _ => .inl hedge⟩
  rw [if_neg hedge] at hend
  by_cases howner : (row.get? ownerField).bind Value.asString? = some subject.id
  · rw [if_pos howner] at hend
    obtain ⟨rfl, -⟩ := plays_pure_iff.1 hend
    exact ⟨rfl, fun _ => .inr howner⟩
  · rw [if_neg howner] at hend
    obtain ⟨rfl, hverdict⟩ := plays_pure_iff.1 hend
    rw [Except.ok.inj hverdict]
    exact ⟨rfl, nofun⟩

theorem requests_of_authorize {resource : Node} {u : Unit}
    (hplays : (authorize p action resource row ownerField).Plays h (.ok u)) :
    ∃ x, requests h = [x] ∧ x.Allows p resource row ownerField := by
  obtain ⟨h₁, _, _, hpoll, hrest, rfl⟩ := plays_bind_ok_iff.1 hplays
  obtain ⟨h₂, verdict, h₃, hdecide, hend, rfl⟩ := plays_bind_ok_iff.1 hrest
  obtain ⟨edge, hrequests, hallowed⟩ := requests_of_decide hdecide
  rw [requests_append, requests_append, requests_of_poll hpoll, hrequests]
  by_cases hverdict : verdict.allowed
  · rw [if_pos hverdict] at hend
    obtain ⟨rfl, -⟩ := plays_pure_iff.1 hend
    exact ⟨_, rfl, edge, rfl, hallowed hverdict⟩
  · rw [if_neg hverdict] at hend
    exact nomatch (plays_throw_iff.1 hend).2

/-- **A guard has asked for every row in turn**, and has been allowed every one. -/
theorem requests_of_guardRows {entity : String} {rows : List Row} {u : Unit}
    (hplays : (guardRows p action entity ownerField rows).Plays h (.ok u)) :
    List.Forall₂ (fun row x => x.Allows p ⟨entity, row.id⟩ row ownerField) rows (requests h) := by
  induction rows generalizing h with
  | nil =>
    obtain ⟨rfl, -⟩ := plays_pure_iff.1 hplays
    exact .nil
  | cons row rest ih =>
    obtain ⟨h₁, _, h₂, hfirst, hrest, rfl⟩ := plays_bind_ok_iff.1 hplays
    obtain ⟨x, hrequests, hallows⟩ := requests_of_authorize hfirst
    rw [requests_append, hrequests]
    exact .cons hallows (ih hrest)

theorem requests_of_delegate {access : Access} {key : EdgeKey}
    (hplays : (delegate p action access).Plays h (.ok key)) :
    ∃ subject resource x,
      requests h = [found access.subject [subject], found access.resource [resource], x] ∧
        x.Allows p ⟨access.resource.entity, resource.id⟩ resource access.ownerField := by
  obtain ⟨h₁, ⟨_, subject⟩, _, hsubject, hrest, rfl⟩ := plays_bind_ok_iff.1 hplays
  obtain ⟨h₂, ⟨_, resource⟩, _, hresource, hrest', rfl⟩ := plays_bind_ok_iff.1 hrest
  obtain ⟨h₃, _, h₄, hauthorize, hend, rfl⟩ := plays_bind_ok_iff.1 hrest'
  obtain ⟨rfl, -⟩ := plays_pure_iff.1 hend
  obtain ⟨hfirst, -⟩ := requests_of_resolve hsubject
  obtain ⟨hsecond, rfl⟩ := requests_of_resolve hresource
  obtain ⟨x, hthird, hallows⟩ := requests_of_authorize hauthorize
  refine ⟨subject, resource, x, ?_, hallows⟩
  simp only [requests_append, hfirst, hsecond, hthird]
  rfl

/-! ## Inside a transaction -/

/-- **What happens inside a transaction**: first there are reads, then there are writes, but none
    before what was read clears the way for them; and a first failure ends everything. -/
structure Inside (cleared : List Exchange → Prop) (h : List Exchange) (r : Except RunError α) :
    Prop where
  ends : Ends h r
  split : ∃ reads writes, h = reads ++ writes ∧ (∀ x ∈ reads, x.call.IsReading) ∧
    (∀ x ∈ writes, x.call.IsWriting) ∧ (writes ≠ [] → cleared (requests reads))

/-- An evaluation that writes once the way is clear, whatever the store answers. -/
def Careful (cleared : List Exchange → Prop) (x : Evaluation α) : Prop :=
  ∀ h r, x.Plays h r → Inside cleared h r

variable {cleared : List Exchange → Prop}

/-- When the way is clear, there may be writes. -/
theorem Follows.careful (hx : x.Follows Call.IsWriting) (hclear : cleared []) :
    x.Careful cleared := by
  intro h r hplays
  obtain ⟨hcalls, hends⟩ := hx h r hplays
  exact ⟨hends, [], h, rfl, List.forall_mem_nil _, hcalls, fun _ => hclear⟩

/-- What is read first counts for what comes after it. -/
theorem Follows.bind_careful (hx : x.Follows Call.IsReading)
    (hf : ∀ h a, x.Plays h (.ok a) → (f a).Careful fun read => cleared (requests h ++ read)) :
    (x >>= f).Careful cleared := by
  intro h r hplays
  rcases plays_bind_iff.1 hplays with ⟨e, hfirst, rfl⟩ | ⟨h₁, a, h₂, hfirst, hrest, rfl⟩
  · obtain ⟨hcalls, hends⟩ := hx h _ hfirst
    exact ⟨hends.of_error, h, [], (List.append_nil h).symm, hcalls, List.forall_mem_nil _,
      fun hne => absurd rfl hne⟩
  · obtain ⟨hcalls, hends⟩ := hx h₁ _ hfirst
    obtain ⟨hends', reads, writes, rfl, hreads, hwrites, hclear⟩ := hf h₁ a hfirst h₂ r hrest
    refine ⟨hends'.after hends.succeeds, h₁ ++ reads, writes, (List.append_assoc ..).symm, ?_,
      hwrites, fun hne => ?_⟩
    · exact fun y hy => (List.mem_append.1 hy).elim (hcalls y) (hreads y)
    · rw [requests_append]
      exact hclear hne

theorem Careful.after_poll (hx : x.Careful cleared) : (poll >>= fun _ => x).Careful cleared := by
  refine follows_poll.bind_careful fun h _ hpoll => ?_
  rw [requests_of_poll hpoll]
  exact hx

/-- **How a transaction goes.** It is not opened, or what happens inside is followed by one call that
    closes it: by the commit after a success and by the rollback after a failure. -/
inductive Transaction (inside : List Exchange → Except RunError α → Prop) :
    List Exchange → Except RunError α → Prop
  | unopened (reason : StoreError) :
    Transaction inside [⟨.begin, .error reason⟩] (.error (.store reason))
  | committed {h : List Exchange} {a : α} (answer : Call.commit.Answer)
    (hinside : inside h (.ok a)) :
    Transaction inside (⟨.begin, .ok ()⟩ :: (h ++ [⟨.commit, answer⟩]))
      (answer.mapError .store >>= fun _ => .ok a)
  /-- It makes no difference how the rollback is answered. -/
  | rolledBack {h : List Exchange} {e : RunError} (answer : Call.rollback.Answer)
    (hinside : inside h (.error e)) :
    Transaction inside (⟨.begin, .ok ()⟩ :: (h ++ [⟨.rollback, answer⟩])) (.error e)

theorem transaction_of_plays {r : Except RunError α} (hplays : (inTransaction x).Plays h r) :
    Transaction x.Plays h r := by
  rcases plays_bind_iff.1 hplays with ⟨e, hbegin, rfl⟩ | ⟨h₁, u, h₂, hbegin, hrest, rfl⟩
  · obtain ⟨reason, rfl, rfl⟩ := plays_ask_error_iff.1 hbegin
    exact .unopened reason
  · obtain rfl := plays_ask_ok_iff.1 hbegin
    obtain ⟨h₃, result, h₄, hx, hsettle, rfl⟩ := Script.goes_bind_iff.1 hrest
    cases result with
    | ok a =>
      rcases plays_bind_iff.1 hsettle with ⟨e, hcommit, rfl⟩ | ⟨h₅, _, h₆, hcommit, hend, rfl⟩
      · obtain ⟨reason, rfl, rfl⟩ := plays_ask_error_iff.1 hcommit
        exact .committed (.error reason) hx
      · obtain rfl := plays_ask_ok_iff.1 hcommit
        obtain ⟨rfl, rfl⟩ := plays_pure_iff.1 hend
        exact .committed (.ok ()) hx
    | error e =>
      obtain ⟨answer, _, rfl, hend⟩ := Script.goes_ask_iff.1 hsettle
      obtain ⟨rfl, rfl⟩ := Script.goes_done_iff.1 hend
      exact .rolledBack answer hx

end Evaluation

/-! ## Operations -/

open Exchange (found)

/-- The rows of a target have been found, and a principal may administer every one of them. -/
def Target.Cleared (p : Node) (ownerField : String) (target : Target) (read : List Exchange) :
    Prop :=
  ∃ rows guards, read = found target rows :: guards ∧
    List.Forall₂ (fun row x => x.Allows p ⟨target.entity, row.id⟩ row ownerField) rows guards

/-- The rows of an access have been found, and a principal may administer the resource. -/
def Access.Cleared (p : Node) (access : Access) (read : List Exchange) : Prop :=
  ∃ subject resource x,
    read = [found access.subject [subject], found access.resource [resource], x] ∧
      x.Allows p ⟨access.resource.entity, resource.id⟩ resource access.ownerField

/-- **What an operation has read, and been allowed, before it writes.** -/
def Operation.Cleared (p : Node) : Operation → List Exchange → Prop
  | .grant access, read => access.Cleared p read
  | .revoke access, read => access.Cleared p read
  | .update target _ none, read => ∃ rows, read = [found target rows]
  | .update target _ (some owner), read => target.Cleared p owner read
  | .delete _ _ none, read => read = []
  | .delete target _ (some owner), read => target.Cleared p owner read
  | .get .., _ => False
  | .check _, _ => False

/-- **How a plan that may change a store talks to it** on behalf of a caller. It asks whether to go
    on and runs one transaction, unless it is refused before that. -/
inductive Plan.Transacts (plan : Plan) (caller : Principal) :
    List Exchange → Except RunError Outcome → Prop
  | foreign (hcaller : plan.principal ≠ caller) :
    Transacts plan caller [] (.error (.principalMismatch plan.principal caller))
  | interrupted (reason : StoreError) :
    Transacts plan caller [⟨.poll, .error reason⟩] (.error (.store reason))
  | mistyped {target : Target} {assignments : List Assignment} {owner : Option String}
    {a : Assignment} (hop : plan.operation = .update target assignments owner)
    (ha : a ∈ assignments) (hvalue : a.value.conformsTo a.fieldType = false) :
    Transacts plan caller [⟨.poll, .ok ()⟩]
      (.error (.typeMismatch target.entity a.field a.fieldType a.value))
  | opened {h : List Exchange} {r : Except RunError Outcome}
    (hopened : Evaluation.Transaction
      (Evaluation.Inside (plan.operation.Cleared caller.node)) h r) :
    Transacts plan caller (⟨.poll, .ok ()⟩ :: h) r

namespace Evaluation

variable {x : Evaluation α} {h : List Exchange} {p : Node}

/-- What is careful is so inside a transaction. -/
theorem Careful.transaction {cleared : List Exchange → Prop} (hx : x.Careful cleared)
    {r : Except RunError α} (hplays : (inTransaction x).Plays h r) :
    Transaction (Inside cleared) h r := by
  cases transaction_of_plays hplays with
  | unopened reason => exact .unopened reason
  | committed answer hinside => exact .committed answer (hx _ _ hinside)
  | rolledBack answer hinside => exact .rolledBack answer (hx _ _ hinside)

/-- The rows of an access are found, its resource is guarded, and then there are writes. -/
theorem careful_of_delegate {action : Verb} {access : Access} {write : EdgeKey → Evaluation α}
    (hwrite : ∀ key, (write key).Follows Call.IsWriting) :
    (delegate p action access >>= write).Careful (access.Cleared p) := by
  refine (follows_delegate p action access).bind_careful fun h key hdelegate => ?_
  refine (hwrite key).careful ?_
  rw [List.append_nil]
  exact requests_of_delegate hdelegate

/-- The rows of a target are found and guarded, and then there are writes. -/
theorem careful_of_guard {action : Verb} {target : Target} {owner : String}
    {write : List Row → Evaluation α} (hwrite : ∀ rows, (write rows).Follows Call.IsWriting) :
    (find target >>= fun rows => guardRows p action target.entity owner rows >>= fun _ =>
      write rows).Careful (target.Cleared p owner) := by
  refine (follows_find target).bind_careful fun h rows hfind => ?_
  refine (follows_guardRows p action target.entity owner rows).bind_careful fun h' _ hguard => ?_
  refine (hwrite rows).careful ⟨rows, Exchange.requests h', ?_, requests_of_guardRows hguard⟩
  rw [requests_of_find hfind, List.append_nil]
  rfl

theorem transaction_of_grant {now : Instant} {access : Access} {r : Except RunError Outcome}
    (hplays : (grant now p access).Plays h r) :
    Transaction (Inside ((Operation.grant access).Cleared p)) h r := by
  refine Careful.transaction (careful_of_delegate fun key => ?_) hplays
  exact (follows_ask (.inl rfl)).bind fun _ => (follows_ask (.inr rfl)).bind fun _ =>
    follows_pure _

theorem transaction_of_revoke {access : Access} {r : Except RunError Outcome}
    (hplays : (revoke p access).Plays h r) :
    Transaction (Inside ((Operation.revoke access).Cleared p)) h r := by
  refine Careful.transaction (careful_of_delegate fun key => ?_) hplays
  exact (follows_ask (.inl rfl)).bind fun _ => (follows_ask (.inr rfl)).bind fun _ =>
    follows_pure _

theorem transaction_of_delete {target : Target} {kind : EntityKind} {owner : Option String}
    {r : Except RunError Outcome} (hplays : (delete p target kind owner).Plays h r) :
    Transaction (Inside ((Operation.delete target kind owner).Cleared p)) h r := by
  have hwrite : ((ask (.deleteRows target.entity target.filter (cascade kind)) :
      Evaluation DeleteReport) >>= fun report =>
        pure (Outcome.deleted target.entity report)).Follows Call.IsWriting :=
    (follows_ask (.inr rfl)).bind fun _ => follows_pure _
  refine Careful.transaction (Careful.after_poll ?_) hplays
  cases owner with
  | none => exact hwrite.careful rfl
  | some field => exact careful_of_guard fun _ => hwrite

theorem plays_checkTypes {entity : String} {assignments : List Assignment}
    {r : Except RunError Unit} (hplays : (checkTypes entity assignments).Plays h r) :
    h = [] ∧ ∀ e, r = .error e → ∃ a ∈ assignments, a.value.conformsTo a.fieldType = false ∧
      e = .typeMismatch entity a.field a.fieldType a.value := by
  induction assignments with
  | nil =>
    obtain ⟨rfl, rfl⟩ := plays_pure_iff.1 hplays
    exact ⟨rfl, fun e he => nomatch he⟩
  | cons a rest ih =>
    rw [checkTypes] at hplays
    by_cases hvalue : a.value.conformsTo a.fieldType
    · rw [if_pos hvalue] at hplays
      obtain ⟨hh, hrest⟩ := ih hplays
      refine ⟨hh, fun e he => ?_⟩
      obtain ⟨b, hb, hmistyped⟩ := hrest e he
      exact ⟨b, List.mem_cons_of_mem a hb, hmistyped⟩
    · rw [if_neg hvalue] at hplays
      obtain ⟨rfl, rfl⟩ := plays_throw_iff.1 hplays
      refine ⟨rfl, fun e he => ⟨a, List.mem_cons_self, ?_, (Except.error.inj he).symm⟩⟩
      exact Bool.eq_false_iff.2 hvalue

/-- An UPDATE looks at the types before it opens a transaction. -/
theorem transaction_of_update {target : Target} {assignments : List Assignment}
    {owner : Option String} {r : Except RunError Outcome}
    (hplays : (update p target assignments owner).Plays h r) :
    (h = [] ∧ ∃ a ∈ assignments, a.value.conformsTo a.fieldType = false ∧
      r = .error (.typeMismatch target.entity a.field a.fieldType a.value)) ∨
    Transaction (Inside ((Operation.update target assignments owner).Cleared p)) h r := by
  rcases plays_bind_iff.1 hplays with ⟨e, hcheck, rfl⟩ | ⟨h₁, _, h₂, hcheck, hrest, rfl⟩
  · obtain ⟨rfl, hmistyped⟩ := plays_checkTypes hcheck
    obtain ⟨a, ha, hvalue, rfl⟩ := hmistyped e rfl
    exact .inl ⟨rfl, a, ha, hvalue, rfl⟩
  · obtain ⟨rfl, -⟩ := plays_checkTypes hcheck
    have hwrite : ∀ rows : List Row,
        (updateRows target.entity (assignments.map fun a => (a.field, a.value)) rows >>= fun _ =>
          pure (Outcome.updated target.entity rows.length)).Follows Call.IsWriting :=
      fun rows => (follows_updateRows _ _ rows).bind fun _ => follows_pure _
    refine .inr (Careful.transaction (Careful.after_poll ?_) hrest)
    cases owner with
    | some field => exact careful_of_guard hwrite
    | none =>
      refine (follows_find target).bind_careful fun h rows hfind => ?_
      refine (hwrite rows).careful ⟨rows, ?_⟩
      rw [requests_of_find hfind, List.append_nil]

/-- An operation that changes something runs one transaction, if its values fit. -/
theorem transaction_of_operation {now : Instant} {op : Operation} {r : Except RunError Outcome}
    (hverb : op.verb.isMutation = true) (hplays : (operation now p op).Plays h r) :
    (h = [] ∧ ∃ target assignments owner, op = .update target assignments owner ∧
      ∃ a ∈ assignments, a.value.conformsTo a.fieldType = false ∧
        r = .error (.typeMismatch target.entity a.field a.fieldType a.value)) ∨
    Transaction (Inside (op.Cleared p)) h r := by
  cases op with
  | get | check => exact nomatch hverb
  | grant access => exact .inr (transaction_of_grant hplays)
  | revoke access => exact .inr (transaction_of_revoke hplays)
  | delete target kind owner => exact .inr (transaction_of_delete hplays)
  | update target assignments owner =>
    rcases transaction_of_update hplays with ⟨rfl, hmistyped⟩ | hopened
    · exact .inl ⟨rfl, target, assignments, owner, rfl, hmistyped⟩
    · exact .inr hopened

/-! ## Plans -/

theorem follows_get (target : Target) (projection : List String) :
    (get target projection).Follows fun c => c.IsReading ∨ c = .snapshot := by
  refine (follows_ask (.inr rfl)).bind fun _ => Follows.mono ?_ fun _ => .inl
  exact follows_poll.bind fun _ => (follows_find target).bind fun _ => follows_pure _

theorem follows_check (access : Access) :
    (check access).Follows fun c => c.IsReading ∨ c = .snapshot := by
  refine (follows_ask (.inr rfl)).bind fun _ => Follows.mono ?_ fun _ => .inl
  refine (follows_resolve access.subject).bind fun _ => ?_
  refine (follows_resolve access.resource).bind fun _ => ?_
  exact follows_poll.bind fun _ => (follows_decide _ _ _ _ _).bind fun _ => follows_pure _

theorem follows_operation {now : Instant} {op : Operation} (hverb : op.verb.isMutation = false) :
    (operation now p op).Follows fun c => c.IsReading ∨ c = .snapshot := by
  cases op with
  | get target projection => exact follows_get target projection
  | check access => exact follows_check access
  | grant | revoke | update | delete => exact nomatch hverb

end Evaluation

namespace Plan

open Evaluation

variable {plan : Plan} {caller : Principal} {now : Instant} {h : List Exchange}
  {r : Except RunError Outcome}

/-- A plan that is for its caller asks whether to go on, and then does what its operation says. -/
theorem plays_execute_iff : (plan.execute now caller).Plays h r ↔
    if plan.principal = caller then
      (poll >>= fun _ => Evaluation.operation now caller.node plan.operation).Plays h r
    else h = [] ∧ r = .error (.principalMismatch plan.principal caller) := by
  by_cases hc : plan.principal = caller
  · simp [execute, hc]
  · rw [if_neg hc, ← plays_throw_iff]
    simp [execute, hc]

theorem execute_reads (hverb : plan.verb.isMutation = false)
    (hplays : (plan.execute now caller).Plays h r) :
    ∀ x ∈ h, x.call.IsReading ∨ x.call = .snapshot := by
  rw [plays_execute_iff] at hplays
  split at hplays
  · have hpoll : poll.Follows fun c => c.IsReading ∨ c = .snapshot :=
      follows_poll.mono fun _ => .inl
    exact ((hpoll.bind fun _ => follows_operation hverb) h r hplays).1
  · rw [hplays.1]
    exact List.forall_mem_nil _

theorem execute_transacts (hverb : plan.verb.isMutation = true)
    (hplays : (plan.execute now caller).Plays h r) : plan.Transacts caller h r := by
  rw [plays_execute_iff] at hplays
  split at hplays
  case isFalse hcaller =>
    obtain ⟨rfl, rfl⟩ := hplays
    exact .foreign hcaller
  rcases plays_bind_iff.1 hplays with ⟨e, hpoll, rfl⟩ | ⟨h₁, _, h₂, hpoll, hrest, rfl⟩
  · obtain ⟨reason, rfl, rfl⟩ := plays_ask_error_iff.1 hpoll
    exact .interrupted reason
  obtain rfl := plays_ask_ok_iff.1 hpoll
  rcases transaction_of_operation hverb hrest with
    ⟨rfl, target, assignments, owner, hop, a, ha, hvalue, rfl⟩ | hopened
  · exact .mistyped hop ha hvalue
  · exact .opened hopened

/-- **Transactions are kept in order**, whatever a store answers. A plan that only reads polls, takes
    a snapshot and reads, and nothing else. A plan that may change the store does so in one
    transaction; it writes when its guards have been allowed everything; after a first failure it
    rolls back and fails with it; without one the commit comes last, and its answer decides. -/
theorem execute_disciplined (store : Script.Store σ) (s : σ) (now : Instant) (plan : Plan)
    (caller : Principal) :
    let script := (plan.execute now caller).run
    (plan.verb.isMutation = false →
      ∀ x ∈ script.history store s, x.call.IsReading ∨ x.call = .snapshot) ∧
    (plan.verb.isMutation = true →
      plan.Transacts caller (script.history store s) (script.run store s).1) := by
  intro script
  have hplays : (plan.execute now caller).Plays (script.history store s) (script.run store s).1 :=
    Script.goes_history store script s
  exact ⟨fun hverb => execute_reads hverb hplays, fun hverb => execute_transacts hverb hplays⟩

end Plan

end Warrant
