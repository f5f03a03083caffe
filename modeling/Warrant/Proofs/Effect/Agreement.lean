import Warrant.Proofs.Effect.Basic

/-!
# Runs agree with effects

An evaluation that runs on a memory store, and may be given up at every poll, ends in one of two
ways: as its effect says, or with the refusal of a poll. The rules below carry this from calls to
whole plans, one rule for each way in which evaluations are put together.

Whoever runs a plan may give up before a transaction is opened, between two rows that are guarded or
written, or when everything has been written and only the commit is left. Wherever that happens, the
store is as if the plan had not been run, or as if nobody had given up.

## Main definitions

- `Evaluation.Reads` — an evaluation agrees with a question to the graph it sees
- `Evaluation.Writes` — an evaluation inside a transaction agrees with a change of graphs
- `Evaluation.Performs` — an evaluation on a store agrees with a change of stores

## Main statements

- `Plan.execute_performs` — a plan agrees with its effect
- `Plan.execute_all_or_nothing` — a run with any answers to its polls beside the undisturbed run
-/

namespace Warrant

variable {α β ι : Type}

/-- A failure that comes from asking whether to go on. -/
def Watch.Refuses (watch : Watch ι) (e : RunError) : Prop :=
  ∃ i reason, (watch i).1 = .error reason ∧ e = .store reason

theorem Watch.not_refuses_never (e : RunError) : ¬ Watch.never.Refuses e := by
  rintro ⟨_, reason, h, _⟩
  exact nomatch h

namespace Evaluation

/-! ## Evaluations on clients -/

/-- What an evaluation gives, and the client that it leaves. -/
def on (watch : Watch ι) (x : Evaluation α) (c : Client ι) : Except RunError α × Client ι :=
  x.run.run (Client.answer watch) c

variable (watch : Watch ι)

theorem on_ask (call : Call) (c : Client ι) :
    (ask call).on watch c =
      ((Client.answer watch c call).1.mapError .store, (Client.answer watch c call).2) := rfl

/-- One evaluation after another starts at the client that the first leaves, unless it failed. -/
theorem on_bind (x : Evaluation α) (f : α → Evaluation β) (c : Client ι) :
    (x >>= f).on watch c =
      match x.on watch c with
      | (.ok a, c) => (f a).on watch c
      | (.error e, c) => (.error e, c) := by
  rw [on, ExceptT.run_bind]
  refine (Script.run_bind _ _ _ _).trans ?_
  rw [on]
  generalize x.run.run (Client.answer watch) c = r
  obtain ⟨result, c⟩ := r
  cases result <;> rfl

theorem on_bind_ok {x : Evaluation α} {a : α} {c c' : Client ι} (h : x.on watch c = (.ok a, c'))
    (f : α → Evaluation β) : (x >>= f).on watch c = (f a).on watch c' := by
  rw [on_bind, h]

theorem on_bind_error {x : Evaluation α} {e : RunError} {c c' : Client ι}
    (h : x.on watch c = (.error e, c')) (f : α → Evaluation β) :
    (x >>= f).on watch c = (.error e, c') := by
  rw [on_bind, h]

/-- Asking whether to go on changes what the caller knows, and nothing else. -/
theorem on_poll (c : Client ι) :
    poll.on watch c =
      ((watch c.caller).1.mapError .store, { c with caller := (watch c.caller).2 }) := rfl

/-! ## Reading -/

/-- How an evaluation can end that changes nothing but what the caller knows. -/
inductive Answered (c : Client ι) (expected : Except RunError α) :
    Except RunError α × Client ι → Prop
  | heard (caller : ι) : Answered c expected (expected, { c with caller := caller })
  | refused (e : RunError) (caller : ι) (h : watch.Refuses e) :
    Answered c expected (.error e, { c with caller := caller })

/-- What the caller knew before makes no difference. -/
theorem Answered.of_caller {c : Client ι} {caller : ι} {expected : Except RunError α}
    {r : Except RunError α × Client ι}
    (h : Answered watch { c with caller := caller } expected r) : Answered watch c expected r := by
  cases h with
  | heard caller => exact .heard caller
  | refused e caller hr => exact .refused e caller hr

/-- **An evaluation agrees with a question** to the graph that it sees: it gives the answer, or its
    caller gives up. -/
def Reads (x : Evaluation α) (f : Graph → Except RunError α) : Prop :=
  ∀ ⦃ι : Type⦄ (watch : Watch ι) (c : Client ι), Answered watch c (f c.graph) (x.on watch c)

theorem reads_pure (a : α) : Reads (pure a) fun _ => .ok a :=
  fun _ _ c => .heard c.caller

theorem reads_throw (e : RunError) : Reads (throw e : Evaluation α) fun _ => .error e :=
  fun _ _ c => .heard c.caller

theorem reads_poll : Reads poll fun _ => .ok () := by
  intro ι watch c
  rw [on_poll]
  cases h : (watch c.caller).1 with
  | ok => exact .heard _
  | error reason => exact .refused _ _ ⟨c.caller, reason, h, rfl⟩

theorem reads_find (target : Target) : Reads (find target) fun g => g.rowsOf target :=
  fun _ _ c => .heard c.caller

theorem reads_findEdge (key : EdgeKey) :
    Reads (ask (.findEdge key)) fun g => .ok (g.findEdge key) :=
  fun _ _ c => .heard c.caller

theorem Reads.bind {x : Evaluation α} {k : α → Evaluation β} {f : Graph → Except RunError α}
    {h : α → Graph → Except RunError β} (hx : Reads x f) (hk : ∀ a, Reads (k a) (h a)) :
    Reads (x >>= k) fun g => f g >>= fun a => h a g := by
  intro ι watch c
  have hx := hx watch c
  generalize hr : x.on watch c = r at hx
  cases hx with
  | refused e caller href =>
    rw [on_bind_error watch hr]
    exact .refused e caller href
  | heard caller =>
    change Answered watch c (f c.graph >>= fun a => h a c.graph) _
    cases hf : f c.graph with
    | error e =>
      rw [hf] at hr
      rw [on_bind_error watch hr]
      exact .heard caller
    | ok a =>
      rw [hf] at hr
      rw [on_bind_ok watch hr]
      have hk : Answered watch { c with caller := caller } (h a c.graph) _ := hk a watch _
      exact hk.of_caller

theorem Reads.after_poll {x : Evaluation α} {f : Graph → Except RunError α} (hx : Reads x f) :
    Reads (poll >>= fun _ => x) f :=
  reads_poll.bind fun _ => hx

theorem reads_decide (subject : Node) (permission : String) (resource : Node) (row : Row)
    (ownerField : String) :
    Reads (decide subject permission resource row ownerField) fun g =>
      .ok (g.verdict subject permission resource row ownerField) := by
  have h (edge : Option Edge) :
      Reads (if edge.isSome then pure (Verdict.allow .directGrant)
        else if row.text? ownerField = some subject.id then pure (Verdict.allow .ownership)
        else pure Verdict.deny) fun _ =>
          .ok (if edge.isSome then Verdict.allow .directGrant
            else if row.text? ownerField = some subject.id then Verdict.allow .ownership
            else Verdict.deny) := by
    split
    · exact reads_pure _
    · split <;> exact reads_pure _
  exact (reads_findEdge ⟨subject, resource, permission⟩).bind h

theorem reads_resolve (target : Target) : Reads (resolve target) fun g => g.resolve target := by
  refine Reads.after_poll ((reads_find target).bind fun rows => ?_)
  match rows with
  | [] => exact reads_throw _
  | [row] => exact reads_pure _
  | _ :: _ :: _ => exact reads_throw _

theorem reads_authorize (principal : Node) (action : Verb) (resource : Node) (row : Row)
    (ownerField : String) :
    Reads (authorize principal action resource row ownerField) fun g =>
      g.authorize principal action resource row ownerField := by
  refine Reads.after_poll ((reads_decide principal _ resource row ownerField).bind
    (h := fun verdict _ => if verdict.allowed then .ok ()
      else .error (.forbidden principal action resource)) fun verdict => ?_)
  split
  · exact reads_pure _
  · exact reads_throw _

theorem reads_guardRows (principal : Node) (action : Verb) (entity ownerField : String)
    (rows : List Row) :
    Reads (guardRows principal action entity ownerField rows) fun g =>
      g.guardRows principal action entity ownerField rows := by
  induction rows with
  | nil => exact reads_pure _
  | cons row rest ih => exact (reads_authorize _ _ _ _ _).bind fun _ => ih

theorem reads_delegate (principal : Node) (action : Verb) (access : Access) :
    Reads (delegate principal action access) fun g => g.delegate principal action access :=
  (reads_resolve access.subject).bind fun _ =>
    (reads_resolve access.resource).bind fun _ =>
      (reads_authorize _ _ _ _ _).bind fun _ => reads_pure _

theorem reads_checkTypes (entity : String) (assignments : List Assignment) :
    Reads (checkTypes entity assignments) fun _ => Assignment.checkTypes entity assignments := by
  induction assignments with
  | nil => exact reads_pure _
  | cons a rest ih =>
    by_cases h : a.value.conformsTo a.fieldType
    · simp only [checkTypes, Assignment.checkTypes, h, if_true]
      exact ih
    · simp only [checkTypes, Assignment.checkTypes, h]
      exact reads_throw _

/-! ## Writing -/

/-- How an evaluation inside a transaction can end. After a failure nothing is said of the working
    copy, which is lost. -/
inductive Written (m : Memory) (expected : Except RunError (α × Graph)) :
    Except RunError α × Client ι → Prop
  | done {a : α} {g : Graph} (caller : ι) (h : expected = .ok (a, g)) :
    Written m expected (.ok a, ⟨m, .transaction g, caller⟩)
  | failed {e : RunError} {g : Graph} (caller : ι) (h : expected = .error e ∨ watch.Refuses e) :
    Written m expected (.error e, ⟨m, .transaction g, caller⟩)

/-- **An evaluation agrees with a change of graphs** inside a transaction: it does to the working
    copy what the change says, or its caller gives up. -/
def Writes (x : Evaluation α) (f : Graph → Except RunError (α × Graph)) : Prop :=
  ∀ ⦃ι : Type⦄ (watch : Watch ι) (m : Memory) (g : Graph) (caller : ι),
    Written watch m (f g) (x.on watch ⟨m, .transaction g, caller⟩)

theorem Reads.bind_writes {x : Evaluation α} {k : α → Evaluation β}
    {f : Graph → Except RunError α} {h : α → Graph → Except RunError (β × Graph)}
    (hx : Reads x f) (hk : ∀ a, Writes (k a) (h a)) :
    Writes (x >>= k) fun g => f g >>= fun a => h a g := by
  intro ι watch m g caller
  have hx := hx watch ⟨m, .transaction g, caller⟩
  generalize hr : x.on watch ⟨m, .transaction g, caller⟩ = r at hx
  cases hx with
  | refused e caller href =>
    rw [on_bind_error watch hr]
    exact .failed caller (.inr href)
  | heard caller =>
    change Written watch m (f g >>= fun a => h a g) _
    change _ = (f g, (⟨m, .transaction g, caller⟩ : Client ι)) at hr
    cases hf : f g with
    | error e =>
      rw [hf] at hr
      rw [on_bind_error watch hr]
      exact .failed caller (.inl rfl)
    | ok a =>
      rw [hf] at hr
      rw [on_bind_ok watch hr]
      exact hk a watch m g caller

theorem Writes.bind {x : Evaluation α} {k : α → Evaluation β}
    {f : Graph → Except RunError (α × Graph)} {h : α → Graph → Except RunError (β × Graph)}
    (hx : Writes x f) (hk : ∀ a, Writes (k a) (h a)) :
    Writes (x >>= k) fun g => f g >>= fun r => h r.1 r.2 := by
  intro ι watch m g caller
  have hx := hx watch m g caller
  generalize hr : x.on watch ⟨m, .transaction g, caller⟩ = r at hx
  change Written watch m (f g >>= fun r => h r.1 r.2) _
  cases hx with
  | @failed e g' caller hf =>
    rw [on_bind_error watch hr]
    refine .failed caller (hf.imp (fun hf => ?_) id)
    rw [hf]
    rfl
  | @done a g' caller hf =>
    rw [on_bind_ok watch hr, hf]
    exact hk a watch m g' caller

theorem Writes.bind_unit {x : Evaluation Unit} {k : Evaluation β} {f : Graph → Except RunError Graph}
    {h : Graph → Except RunError (β × Graph)} (hx : Writes x fun g => (f g).map ((), ·))
    (hk : Writes k h) : Writes (x >>= fun _ => k) fun g => f g >>= h := by
  have hxk := hx.bind fun _ => hk
  have e : (fun g => f g >>= h) = fun g => (f g).map (((), ·) : Graph → Unit × Graph) >>=
      fun r => h r.2 := by
    funext g
    cases f g <;> rfl
  rw [e]
  exact hxk

theorem writes_pure (a : α) : Writes (pure a) fun g => .ok (a, g) :=
  fun _ _ _ _ caller => .done caller rfl

theorem Writes.after_poll {x : Evaluation α} {f : Graph → Except RunError (α × Graph)}
    (hx : Writes x f) : Writes (poll >>= fun _ => x) f :=
  reads_poll.bind_writes fun _ => hx

theorem writes_upsertEdge (edge : Edge) :
    Writes (ask (.upsertEdge edge)) fun g => .ok (g.upsertEdge edge) :=
  fun _ _ _ _ caller => .done caller rfl

theorem writes_deleteEdge (key : EdgeKey) :
    Writes (ask (.deleteEdge key)) fun g => .ok (g.deleteEdge key) :=
  fun _ _ _ _ caller => .done caller rfl

theorem writes_deleteRows (entity : String) (filter : Filter) (cascade : List CascadeRule) :
    Writes (ask (.deleteRows entity filter cascade)) fun g =>
      (g.deleteRows entity filter cascade).mapError .store := by
  intro ι watch m g caller
  rw [on_ask]
  simp only [Client.answer, Client.write]
  cases g.deleteRows entity filter cascade with
  | error e => exact .failed caller (.inl rfl)
  | ok r => exact .done caller rfl

theorem writes_updateFields (entity id : String) (values : List (String × Value)) :
    Writes (ask (.updateFields entity id values)) fun g =>
      ((g.updateFields entity id values).mapError .store).map ((), ·) := by
  intro ι watch m g caller
  rw [on_ask]
  simp only [Client.answer, Client.write]
  cases g.updateFields entity id values with
  | error e => exact .failed caller (.inl rfl)
  | ok g => exact .done caller rfl

theorem writes_updateRows (entity : String) (values : List (String × Value)) (rows : List Row) :
    Writes (updateRows entity values rows) fun g =>
      (Graph.updateRows entity values rows g).map ((), ·) := by
  induction rows with
  | nil => exact writes_pure _
  | cons row rest ih =>
    have h := ((writes_updateFields entity row.id values).bind_unit ih).after_poll
    have e (g : Graph) : (Graph.updateRows entity values (row :: rest) g).map (((), ·)) =
        (g.updateFields entity row.id values).mapError .store >>= fun g =>
          (Graph.updateRows entity values rest g).map (((), ·) : Graph → Unit × Graph) := by
      simp only [Graph.updateRows]
      cases g.updateFields entity row.id values <;> rfl
    simp only [e]
    exact h

/-! ## Whole evaluations -/

/-- How an evaluation on a store can end: the change is published, or the store is as before. -/
inductive Concluded (m : Memory) (expected : Except RunError (α × Graph)) :
    Except RunError α → Memory → Prop
  | done {a : α} {g : Graph} (h : expected = .ok (a, g)) :
    Concluded m expected (.ok a) { m with published := g }
  | failed {e : RunError} (h : expected = .error e ∨ watch.Refuses e) :
    Concluded m expected (.error e) m

/-- **An evaluation agrees with a change of stores**: it publishes what the change says, or its
    caller gives up. -/
def Performs (x : Evaluation α) (f : Memory → Except RunError (α × Graph)) : Prop :=
  ∀ ⦃ι : Type⦄ (watch : Watch ι) (m : Memory) (caller : ι),
    Concluded watch m (f m) (m.attempt watch caller x.run).1
      (m.attempt watch caller x.run).2.memory

theorem attempt_eq (m : Memory) (caller : ι) (x : Evaluation α) :
    m.attempt watch caller x.run =
      ((x.on watch (.start m caller)).1, (x.on watch (.start m caller)).2.abandon) := rfl

theorem Reads.bind_performs {x : Evaluation α} {k : α → Evaluation β}
    {f : Graph → Except RunError α} {h : α → Memory → Except RunError (β × Graph)}
    (hx : Reads x f) (hk : ∀ a, Performs (k a) (h a)) :
    Performs (x >>= k) fun m => f m.published >>= fun a => h a m := by
  intro ι watch m caller
  have hx := hx watch (.start m caller)
  rw [attempt_eq]
  generalize hr : x.on watch (.start m caller) = r at hx
  cases hx with
  | refused e caller href =>
    rw [on_bind_error watch hr]
    exact .failed (.inr href)
  | heard caller =>
    change Concluded watch m (f m.published >>= fun a => h a m) _ _
    change _ = (f m.published, Client.start m caller) at hr
    cases hf : f m.published with
    | error e =>
      rw [hf] at hr
      rw [on_bind_error watch hr]
      exact .failed (.inl rfl)
    | ok a =>
      rw [hf] at hr
      rw [on_bind_ok watch hr]
      exact hk a watch m caller

theorem performs_throw (e : RunError) : Performs (throw e : Evaluation α) fun _ => .error e :=
  fun _ _ _ _ => .failed (.inl rfl)

theorem Reads.performs {x : Evaluation α} {f : Graph → Except RunError α} (hx : Reads x f) :
    Performs (ask .snapshot >>= fun _ => x) fun m => (f m.published).map (·, m.published) := by
  intro ι watch m caller
  have hx := hx watch ⟨m, .snapshot m.published, caller⟩
  have hr : (ask .snapshot >>= fun _ => x).on watch (.start m caller) =
      x.on watch ⟨m, .snapshot m.published, caller⟩ := rfl
  rw [attempt_eq, hr]
  generalize x.on watch _ = r at hx
  cases hx with
  | refused e caller href => exact .failed (.inr href)
  | heard caller =>
    change Concluded watch m ((f m.published).map (·, m.published)) (f m.published) m
    cases f m.published with
    | error e => exact .failed (.inl rfl)
    | ok a => exact .done rfl

/-- A transaction is opened unless the caller gives up or another one is open. -/
theorem on_inTransaction (x : Evaluation α) (m : Memory) (caller : ι) :
    let waited := watch.wait ((Client.start m caller).rounds watch) caller
    (inTransaction x).on watch (.start m caller) =
      match waited.1 with
      | .error reason => (.error (.store reason), .start m waited.2)
      | .ok () =>
        if m.busy then (.error (.store .deadlineExceeded), .start m waited.2)
        else
          let r := x.on watch ⟨⟨m.published, true⟩, .transaction m.published, waited.2⟩
          (settle r.1).on watch r.2 := by
  intro waited
  obtain ⟨g, busy⟩ := m
  have hawait : (Client.start ⟨g, busy⟩ caller).await watch =
      (waited.1, .start ⟨g, busy⟩ waited.2) := rfl
  -- The caller gives up, or another transaction is open, or this one is opened.
  cases hgoOn : waited.1 with
  | error reason =>
    have h : (ask .begin).on watch (.start ⟨g, busy⟩ caller) =
        (.error (.store reason), .start ⟨g, busy⟩ waited.2) := by
      simp only [on_ask, Client.answer, Client.begin, hawait, hgoOn]
      rfl
    exact on_bind_error watch h _
  | ok =>
    cases busy with
    | true =>
      have h : (ask .begin).on watch (.start ⟨g, true⟩ caller) =
          (.error (.store .deadlineExceeded), .start ⟨g, true⟩ waited.2) := by
        simp only [on_ask, Client.answer, Client.begin, hawait, hgoOn]
        rfl
      exact on_bind_error watch h _
    | false =>
      have h : (ask .begin).on watch (.start ⟨g, false⟩ caller) =
          (.ok (), ⟨⟨g, true⟩, .transaction g, waited.2⟩) := by
        simp only [on_ask, Client.answer, Client.begin, hawait, hgoOn]
        rfl
      exact (on_bind_ok watch h _).trans (Script.run_bind _ _ _ _)

/-- What has been written is published as a whole or lost. -/
theorem Written.concluded {g : Graph} {expected : Except RunError (α × Graph)}
    {r : Except RunError α × Client ι} (h : Written watch ⟨g, true⟩ expected r) :
    Concluded watch ⟨g, false⟩ expected ((settle r.1).on watch r.2).1
      ((settle r.1).on watch r.2).2.abandon.memory := by
  cases h with
  | failed caller h => exact .failed h
  | @done a g' caller h =>
    subst h
    -- A caller may still give up at the commit, and then all is lost.
    cases hc : (watch caller).1 with
    | error reason =>
      have h : (ask .commit).on watch ⟨⟨g, true⟩, .transaction g', caller⟩ =
          (.error (.store reason), .start ⟨g, false⟩ (watch caller).2) := by
        simp only [on_ask, Client.answer, Client.commit, Client.poll, hc]
        rfl
      have h : (settle (.ok a)).on watch ⟨⟨g, true⟩, .transaction g', caller⟩ = _ :=
        on_bind_error watch h _
      rw [h]
      exact .failed (.inr ⟨caller, reason, hc, rfl⟩)
    | ok =>
      have h : (ask .commit).on watch ⟨⟨g, true⟩, .transaction g', caller⟩ =
          (.ok (), .start ⟨g', false⟩ (watch caller).2) := by
        simp only [on_ask, Client.answer, Client.commit, Client.poll, hc]
        rfl
      have h : (settle (.ok a)).on watch ⟨⟨g, true⟩, .transaction g', caller⟩ = _ :=
        on_bind_ok watch h _
      rw [h]
      exact .done rfl

/-- **A transaction takes effect as a whole or not at all.** -/
theorem Writes.performs {x : Evaluation α} {f : Graph → Except RunError (α × Graph)}
    (hx : Writes x f) : Performs (inTransaction x) (·.transact f) := by
  intro ι watch m caller
  rw [attempt_eq, on_inTransaction]
  obtain ⟨g, busy⟩ := m
  cases hgoOn : (watch.wait ((Client.start ⟨g, busy⟩ caller).rounds watch) caller).1 with
  | error reason =>
    obtain ⟨j, hj⟩ := watch.exists_of_wait_eq_error hgoOn
    exact .failed (.inr ⟨j, reason, hj, rfl⟩)
  | ok =>
    cases busy with
    | true => exact .failed (.inl rfl)
    | false => exact (hx watch ⟨g, true⟩ g _).concluded watch

/-! ## Plans -/

theorem get_performs (target : Target) (projection : List String) :
    Performs (get target projection) fun m =>
      (m.published.get target projection).map (·, m.published) :=
  ((reads_find target).bind fun _ => reads_pure _).after_poll.performs

theorem check_performs (access : Access) :
    Performs (check access) fun m => (m.published.check access).map (·, m.published) :=
  Reads.performs <| (reads_resolve access.subject).bind fun _ =>
    (reads_resolve access.resource).bind fun _ =>
      ((reads_decide _ _ _ _ _).bind fun _ => reads_pure _).after_poll

theorem grant_performs (now : Instant) (principal : Node) (access : Access) :
    Performs (grant now principal access) (·.transact (Graph.grant now principal access)) :=
  Writes.performs <| (reads_delegate principal .grant access).bind_writes fun key =>
    ((writes_upsertEdge (Graph.newEdge now principal key)).bind fun _ => writes_pure _).after_poll

theorem revoke_performs (principal : Node) (access : Access) :
    Performs (revoke principal access) (·.transact (Graph.revoke principal access)) :=
  Writes.performs <| (reads_delegate principal .revoke access).bind_writes fun key =>
    ((writes_deleteEdge key).bind fun _ => writes_pure _).after_poll

theorem update_performs (principal : Node) (target : Target) (assignments : List Assignment)
    (ownerField : Option String) :
    Performs (update principal target assignments ownerField) fun m =>
      Assignment.checkTypes target.entity assignments >>= fun _ =>
        m.transact (Graph.update principal target assignments ownerField) := by
  refine (reads_checkTypes target.entity assignments).bind_performs fun _ => Writes.performs ?_
  refine ((reads_find target).bind_writes fun rows => ?_).after_poll
  have h := (writes_updateRows target.entity (assignments.map fun a => (a.field, a.value))
    rows).bind_unit (writes_pure (Outcome.updated target.entity rows.length))
  cases ownerField with
  | none => exact h
  | some owner => exact (reads_guardRows _ _ _ _ _).bind_writes fun _ => h

theorem delete_performs (principal : Node) (target : Target) (kind : EntityKind)
    (ownerField : Option String) :
    Performs (delete principal target kind ownerField)
      (·.transact (Graph.delete principal target kind ownerField)) := by
  refine Writes.performs (Writes.after_poll ?_)
  have h := (writes_deleteRows target.entity target.filter (cascade kind)).bind fun report =>
    writes_pure (Outcome.deleted target.entity report)
  cases ownerField with
  | none => exact h
  | some owner =>
    exact (reads_find target).bind_writes fun rows =>
      (reads_guardRows principal .delete target.entity owner rows).bind_writes fun _ => h

theorem operation_performs (now : Instant) (principal : Node) (op : Operation) :
    Performs (operation now principal op) (op.effect now principal) := by
  cases op with
  | get target projection => exact get_performs target projection
  | check access => exact check_performs access
  | grant access => exact grant_performs now principal access
  | revoke access => exact revoke_performs principal access
  | update target assignments ownerField =>
    exact update_performs principal target assignments ownerField
  | delete target kind ownerField => exact delete_performs principal target kind ownerField

end Evaluation

open Evaluation in
/-- **A plan agrees with its effect**, whatever the polls of its caller say. -/
theorem Plan.execute_performs (now : Instant) (plan : Plan) (caller : Principal) :
    Performs (plan.execute now caller) (plan.effect now caller) := by
  by_cases hc : plan.principal = caller
  · have hx : plan.execute now caller =
        (poll >>= fun _ => Evaluation.operation now caller.node plan.operation) := by
      simp [Plan.execute, hc]
    have hf : plan.effect now caller = fun m => plan.operation.effect now caller.node m := by
      funext m
      simp [Plan.effect, hc]
    rw [hx, hf]
    exact reads_poll.bind_performs fun _ => operation_performs now caller.node plan.operation
  · have hx : plan.execute now caller = throw (.principalMismatch plan.principal caller) := by
      simp [Plan.execute, hc]
    have hf : plan.effect now caller =
        fun _ => .error (.principalMismatch plan.principal caller) := by
      funext m
      simp [Plan.effect, hc]
    rw [hx, hf]
    exact performs_throw _

/-- **How a plan can end on a store**: as its effect says, or with a failure that leaves the store as
    it was. -/
theorem Plan.attempt_cases (watch : Watch ι) (m : Memory) (caller : ι) (now : Instant) (plan : Plan)
    (principal : Principal) :
    let r := m.attempt watch caller (plan.execute now principal).run
    (∃ o g, plan.effect now principal m = .ok (o, g) ∧ r.1 = .ok o ∧
      r.2.memory = { m with published := g }) ∨
    ∃ e, (plan.effect now principal m = .error e ∨ watch.Refuses e) ∧ r.1 = .error e ∧
      r.2.memory = m := by
  intro r
  have h : Evaluation.Concluded watch m (plan.effect now principal m) r.1 r.2.memory :=
    plan.execute_performs now principal watch m caller
  obtain ⟨result, c⟩ := r
  generalize c.memory = m' at h ⊢
  cases h with
  | @done o g h => exact .inl ⟨o, g, h, rfl, rfl⟩
  | @failed e h => exact .inr ⟨e, h, rfl, rfl⟩

/-- When nobody gives up, a plan that has an effect takes it. -/
theorem Plan.attempt_never_of_ok {m : Memory} {now : Instant} {plan : Plan} {principal : Principal}
    {o : Outcome} {g : Graph} (h : plan.effect now principal m = .ok (o, g)) :
    (m.attempt Watch.never () (plan.execute now principal).run).1 = .ok o ∧
      (m.attempt Watch.never () (plan.execute now principal).run).2.memory =
        { m with published := g } := by
  rcases plan.attempt_cases Watch.never m () now principal with ⟨o', g', h', hr, hm⟩ | ⟨e, he, _⟩
  · obtain ⟨rfl, rfl⟩ : o = o' ∧ g = g' := by simpa using h.symm.trans h'
    exact ⟨hr, hm⟩
  · rcases he with he | he
    · exact nomatch h.symm.trans he
    · exact absurd he (Watch.not_refuses_never e)

/-- When nobody gives up, a plan fails as its effect does. -/
theorem Plan.attempt_never_of_error {m : Memory} {now : Instant} {plan : Plan}
    {principal : Principal} {e : RunError} (h : plan.effect now principal m = .error e) :
    (m.attempt Watch.never () (plan.execute now principal).run).1 = .error e ∧
      (m.attempt Watch.never () (plan.execute now principal).run).2.memory = m := by
  rcases plan.attempt_cases Watch.never m () now principal with ⟨o', g', h', _⟩ | ⟨e', he, hr, hm⟩
  · exact nomatch h.symm.trans h'
  · rcases he with he | he
    · obtain rfl : e = e' := by simpa using h.symm.trans he
      exact ⟨hr, hm⟩
    · exact absurd he (Watch.not_refuses_never e')

/-! ## All or nothing -/

/-- **All or nothing.** Whatever the polls answer, a plan fails and leaves the store as it was, or it
    succeeds and both its outcome and the store are those of the run in which nobody gives up. It
    fails only with the refusal of a poll or as the undisturbed run fails. -/
theorem Plan.execute_all_or_nothing (watch : Watch ι) (m : Memory) (caller : ι) (now : Instant)
    (plan : Plan) (principal : Principal) :
    let run := m.attempt watch caller (plan.execute now principal).run
    let undisturbed := m.attempt Watch.never () (plan.execute now principal).run
    (∃ e, run.1 = .error e ∧ run.2.memory = m ∧ (watch.Refuses e ∨ undisturbed.1 = .error e)) ∨
    ∃ o, run.1 = .ok o ∧ undisturbed.1 = .ok o ∧ run.2.memory = undisturbed.2.memory := by
  intro run undisturbed
  rcases plan.attempt_cases watch m caller now principal with ⟨o, g, h, hr, hm⟩ | ⟨e, he, hr, hm⟩
  · obtain ⟨hr', hm'⟩ := Plan.attempt_never_of_ok h
    exact .inr ⟨o, hr, hr', hm.trans hm'.symm⟩
  · refine .inl ⟨e, hr, hm, ?_⟩
    rcases he with he | he
    · exact .inr (Plan.attempt_never_of_error he).1
    · exact .inl he

end Warrant
