import Mathlib.Data.List.Chain
import Warrant.Proofs.Authority.Containment
import Warrant.Proofs.Effect.Discipline

/-!
# When evaluations ask whether to go on

A caller may give up at any time, so an evaluation asks before the calls that it makes, and the
store asks once more when a transaction is opened or committed. Then no call is made after the
caller has given up. One call is not asked about: when rows are deleted that an owner field guards,
the deletion follows the last answer of the guard at once.

## Main definitions

- `Call.asks` — the calls that ask whether to go on
- `Exchange.Unasked` — one call to the store follows another, and nobody asks in between
- `Evaluation.Paced`, `Evaluation.Steady` — which calls of an evaluation are unasked

## Main statements

- `Plan.execute_polled` — which calls of a plan are unasked
- `Plan.execute_unpolled` — a deletion that is started after its caller has given up
-/

namespace Warrant

variable {α β ι : Type}

namespace Call

/-- The calls that ask whether to go on: the poll, and the two at whose start the store asks. -/
def asks : Call → Bool
  | .poll => true
  | .begin => true
  | .commit => true
  | _ => false

def deletes : Call → Bool
  | .deleteRows .. => true
  | _ => false

theorem deletes_of_asks {c : Call} (h : c.asks = true) : c.deletes = false := by
  cases c with
  | deleteRows => exact nomatch h
  | _ => rfl

end Call

/-- **A call is unasked**: the call before it went to the store, and nobody asks in between or at
    its start. Nobody needs to ask before a rollback. -/
def Exchange.Unasked (x y : Exchange) : Prop :=
  x.call.kind ≠ .poll ∧ y.call.asks = false ∧ y.call ≠ .rollback

/-- Rows are deleted that an owner field guards. -/
def Operation.IsGuardedDeletion : Operation → Prop
  | .delete _ _ (some _) => True
  | _ => False

/-! ## Histories -/

namespace Exchange

variable {guarded : Prop} {h h' : List Exchange} {x y : Exchange}

theorem not_unasked_of_asks (hasks : y.call.asks = true) : ¬ x.Unasked y :=
  fun hunasked => nomatch hasks.symm.trans hunasked.2.1

/-- A call is unasked after another exactly when it is a deletion and these are guarded. -/
def KeepsPace (guarded : Prop) (x y : Exchange) : Prop :=
  x.Unasked y ↔ guarded ∧ y.call.deletes = true

theorem keepsPace_of_asks (hasks : y.call.asks = true) : KeepsPace guarded x y := by
  refine iff_of_false (not_unasked_of_asks hasks) fun hdeletes => ?_
  exact nomatch (Call.deletes_of_asks hasks).symm.trans hdeletes.2

theorem keepsPace_of_poll (hx : x.call.kind = .poll) (hy : ¬ (guarded ∧ y.call.deletes = true)) :
    KeepsPace guarded x y :=
  iff_of_false (fun hunasked => hunasked.1 hx) hy

/-- **The unasked calls of a history** are deletions, where these are guarded, and it does not start
    with one. -/
structure Paced (guarded : Prop) (h : List Exchange) : Prop where
  chain : h.IsChain (KeepsPace guarded)
  head : ∀ y ∈ h.head?, ¬ (guarded ∧ y.call.deletes = true)

/-- A history starts with a call that asks, if with any. -/
def Asks (h : List Exchange) : Prop :=
  ∀ y ∈ h.head?, y.call.asks = true

theorem paced_nil : Paced guarded [] :=
  ⟨.nil, fun _ hy => nomatch hy⟩

theorem asks_nil : Asks [] :=
  fun _ hy => nomatch hy

theorem paced_singleton (hx : x.call.deletes = false) : Paced guarded [x] := by
  refine ⟨.singleton x, fun y hy hdeletes => ?_⟩
  rw [← Option.some.inj hy] at hdeletes
  exact nomatch hx.symm.trans hdeletes.2

theorem asks_cons (hx : x.call.asks = true) : Asks (x :: h) := by
  intro y hy
  rw [← Option.some.inj hy]
  exact hx

theorem Asks.append (hh : Asks h) (hh' : Asks h') : Asks (h ++ h') := by
  intro y hy
  rw [List.head?_append] at hy
  exact (Option.or_eq_some_iff.1 hy).elim (hh y) fun hy => hh' y hy.2

/-- What may follow the last call of a history may follow the history. -/
theorem Paced.append_of (hh : Paced guarded h) (hh' : h'.IsChain (KeepsPace guarded))
    (hhead : h = [] → ∀ y ∈ h'.head?, ¬ (guarded ∧ y.call.deletes = true))
    (hjoin : ∀ x ∈ h.getLast?, ∀ y ∈ h'.head?, KeepsPace guarded x y) :
    Paced guarded (h ++ h') := by
  refine ⟨List.isChain_append.2 ⟨hh.chain, hh', hjoin⟩, fun y hy => ?_⟩
  cases h with
  | nil => exact hhead rfl y hy
  | cons x rest => exact hh.head y hy

/-- Whoever asks first may follow anything. -/
theorem Paced.append (hh : Paced guarded h) (hh' : Paced guarded h') (hasks : Asks h') :
    Paced guarded (h ++ h') :=
  hh.append_of hh'.chain (fun _ => hh'.head) fun _ _ y hy => keepsPace_of_asks (hasks y hy)

end Exchange

/-! ## Evaluations -/

namespace Evaluation

open Exchange (KeepsPace Asks paced_nil asks_nil paced_singleton asks_cons)

variable {guarded : Prop} {x : Evaluation α} {f : α → Evaluation β} {h : List Exchange}

/-- **An evaluation keeps pace**: whatever it is answered, its unasked calls are guarded deletions. -/
def Paced (guarded : Prop) (x : Evaluation α) : Prop :=
  ∀ h r, x.Plays h r → Exchange.Paced guarded h

/-- A paced evaluation that asks before it does anything else. -/
def Steady (guarded : Prop) (x : Evaluation α) : Prop :=
  ∀ h r, x.Plays h r → Exchange.Paced guarded h ∧ Asks h

theorem Steady.paced (hx : x.Steady guarded) : x.Paced guarded :=
  fun h r hplays => (hx h r hplays).1

theorem steady_pure (a : α) : (pure a : Evaluation α).Steady guarded := by
  intro h r hplays
  rw [(plays_pure_iff.1 hplays).1]
  exact ⟨paced_nil, asks_nil⟩

theorem steady_throw (e : RunError) : (throw e : Evaluation α).Steady guarded := by
  intro h r hplays
  rw [(plays_throw_iff.1 hplays).1]
  exact ⟨paced_nil, asks_nil⟩

theorem paced_ask {call : Call} (hcall : call.deletes = false) : (ask call).Paced guarded := by
  intro h r hplays
  obtain ⟨answer, rfl, -⟩ := plays_ask_iff.1 hplays
  exact paced_singleton hcall

theorem Paced.bind (hx : x.Paced guarded) (hf : ∀ a, (f a).Steady guarded) :
    (x >>= f).Paced guarded := by
  intro h r hplays
  rcases plays_bind_iff.1 hplays with ⟨e, hfirst, -⟩ | ⟨h₁, a, h₂, hfirst, hrest, rfl⟩
  · exact hx h _ hfirst
  · obtain ⟨hpaced, hasks⟩ := hf a h₂ r hrest
    exact (hx h₁ _ hfirst).append hpaced hasks

theorem Steady.bind (hx : x.Steady guarded) (hf : ∀ a, (f a).Steady guarded) :
    (x >>= f).Steady guarded := by
  refine fun h r hplays => ⟨hx.paced.bind hf h r hplays, ?_⟩
  rcases plays_bind_iff.1 hplays with ⟨e, hfirst, -⟩ | ⟨h₁, a, h₂, hfirst, hrest, rfl⟩
  · exact (hx h _ hfirst).2
  · exact (hx h₁ _ hfirst).2.append (hf a h₂ r hrest).2

/-- **After a poll** one call may be made without asking again. -/
theorem Paced.after_poll (hx : x.Paced guarded) : (poll >>= fun _ => x).Steady guarded := by
  intro h r hplays
  rcases plays_bind_iff.1 hplays with ⟨e, hfirst, -⟩ | ⟨h₁, a, h₂, hfirst, hrest, rfl⟩
  · obtain ⟨answer, rfl, -⟩ := plays_ask_iff.1 hfirst
    exact ⟨paced_singleton rfl, asks_cons rfl⟩
  · obtain rfl := plays_ask_ok_iff.1 hfirst
    obtain ⟨hchain, hhead⟩ := hx h₂ r hrest
    refine ⟨(paced_singleton rfl).append_of hchain (fun hnil => nomatch hnil) ?_, asks_cons rfl⟩
    intro y hy z hz
    rw [← Option.some.inj hy]
    exact Exchange.keepsPace_of_poll rfl (hhead z hz)

/-! ## Parts of plans -/

theorem paced_decide (subject : Node) (permission : String) (resource : Node) (row : Row)
    (ownerField : String) :
    (decide subject permission resource row ownerField).Paced guarded := by
  refine (paced_ask rfl).bind fun edge => ?_
  split
  · exact steady_pure _
  · split <;> exact steady_pure _

theorem steady_resolve (target : Target) : (resolve target).Steady guarded := by
  refine Paced.after_poll ((paced_ask rfl).bind fun rows => ?_)
  match rows with
  | [] => exact steady_throw _
  | [row] => exact steady_pure _
  | _ :: _ :: _ => exact steady_throw _

theorem steady_authorize (p : Node) (action : Verb) (resource : Node) (row : Row)
    (ownerField : String) : (authorize p action resource row ownerField).Steady guarded := by
  refine Paced.after_poll ((paced_decide _ _ _ _ _).bind fun verdict => ?_)
  split
  · exact steady_pure _
  · exact steady_throw _

theorem steady_guardRows (p : Node) (action : Verb) (entity ownerField : String)
    (rows : List Row) : (guardRows p action entity ownerField rows).Steady guarded := by
  induction rows with
  | nil => exact steady_pure _
  | cons row rest ih => exact (steady_authorize _ _ _ _ _).bind fun _ => ih

theorem steady_delegate (p : Node) (action : Verb) (access : Access) :
    (delegate p action access).Steady guarded :=
  (steady_resolve access.subject).bind fun _ =>
    (steady_resolve access.resource).bind fun _ =>
      (steady_authorize _ _ _ _ _).bind fun _ => steady_pure _

theorem steady_updateRows (entity : String) (values : List (String × Value)) (rows : List Row) :
    (updateRows entity values rows).Steady guarded := by
  induction rows with
  | nil => exact steady_pure _
  | cons row rest ih => exact Paced.after_poll ((paced_ask rfl).bind fun _ => ih)

theorem steady_checkTypes (entity : String) (assignments : List Assignment) :
    (checkTypes entity assignments).Steady guarded := by
  induction assignments with
  | nil => exact steady_pure _
  | cons a rest ih =>
    rw [checkTypes]
    split
    · exact ih
    · exact steady_throw _

/-- The store asks when a transaction is opened and when it is committed, and a rollback need not be
    asked about. -/
theorem Steady.inTransaction (hx : x.Steady guarded) : (inTransaction x).Steady guarded := by
  have hclosed {h r} {y z : Exchange} (hplays : x.Plays h r) (hy : y.call.asks = true)
      (hy' : y.call.deletes = false) (hz : z.call = .commit ∨ z.call = .rollback) :
      Exchange.Paced guarded (y :: (h ++ [z])) ∧ Asks (y :: (h ++ [z])) := by
    obtain ⟨hpaced, hasks⟩ := hx h r hplays
    have hpaced := (paced_singleton (x := y) hy').append hpaced hasks
    refine ⟨hpaced.append_of (.singleton z) (fun hnil => nomatch hnil) ?_, asks_cons hy⟩
    intro w _ z' hz'
    obtain rfl := Option.some.inj hz'
    obtain ⟨call, answer⟩ := z
    rcases hz with rfl | rfl
    · exact Exchange.keepsPace_of_asks rfl
    · exact iff_of_false (fun hunasked => hunasked.2.2 rfl) fun hdeletes => nomatch hdeletes.2
  intro h r hplays
  cases transaction_of_plays hplays with
  | unopened reason => exact ⟨paced_singleton rfl, asks_cons rfl⟩
  | committed answer hinside => exact hclosed hinside rfl rfl (.inl rfl)
  | rolledBack answer hinside => exact hclosed hinside rfl rfl (.inr rfl)

/-! ## Guarded deletions -/

theorem exists_last_of_authorize {p resource : Node} {action : Verb} {row : Row}
    {ownerField : String} {u : Unit}
    (hplays : (authorize p action resource row ownerField).Plays h (.ok u)) :
    ∃ before x, h = before ++ [x] ∧ x.call.kind = .read := by
  obtain ⟨h₁, _, _, -, hrest, rfl⟩ := plays_bind_ok_iff.1 hplays
  obtain ⟨h₂, verdict, h₃, hdecide, hend, rfl⟩ := plays_bind_ok_iff.1 hrest
  obtain ⟨h₄, edge, h₅, hask, hverdict, rfl⟩ := plays_bind_ok_iff.1 hdecide
  obtain rfl : h₃ = [] := by
    split at hend
    · exact (plays_pure_iff.1 hend).1
    · exact (plays_throw_iff.1 hend).1
  obtain rfl : h₅ = [] := by
    split at hverdict
    · exact (plays_pure_iff.1 hverdict).1
    · split at hverdict <;> exact (plays_pure_iff.1 hverdict).1
  rw [plays_ask_ok_iff.1 hask, List.append_nil, List.append_nil]
  exact ⟨h₁, _, rfl, rfl⟩

/-- A guard that lets everything pass ends with a question to the store, if it asks any. -/
theorem last_of_guardRows {p : Node} {action : Verb} {entity ownerField : String}
    {rows : List Row} {u : Unit}
    (hplays : (guardRows p action entity ownerField rows).Plays h (.ok u)) :
    ∀ x ∈ h.getLast?, x.call.kind = .read := by
  induction rows generalizing h with
  | nil =>
    rw [(plays_pure_iff.1 hplays).1]
    exact fun _ hx => nomatch hx
  | cons row rest ih =>
    obtain ⟨h₁, _, h₂, hfirst, hrest, rfl⟩ := plays_bind_ok_iff.1 hplays
    obtain ⟨before, y, rfl, hy⟩ := exists_last_of_authorize hfirst
    intro x hx
    rw [List.getLast?_append] at hx
    rcases Option.or_eq_some_iff.1 hx with hx | ⟨-, hx⟩
    · exact ih hrest x hx
    · rw [List.getLast?_concat] at hx
      rw [← Option.some.inj hx]
      exact hy

/-- **A guarded deletion is unasked**: it follows the last question of the guard, or the search if
    there is nothing to guard. -/
theorem paced_guardedDeletion {p : Node} {target : Target} {owner : String} {f : DeleteReport → α}
    (cascade : List CascadeRule) :
    (find target >>= fun rows => guardRows p .delete target.entity owner rows >>= fun _ =>
      ask (.deleteRows target.entity target.filter cascade) >>= fun report : DeleteReport =>
        pure (f report)).Paced True := by
  intro h r hplays
  -- The run ends in the search, in the guard, or goes on to the deletion.
  rcases plays_bind_iff.1 hplays with ⟨e, hfind, -⟩ | ⟨h₁, rows, h₂, hfind, hrest, rfl⟩
  · exact paced_ask rfl h _ hfind
  have hsearch : Exchange.Paced True h₁ := paced_ask rfl h₁ _ hfind
  rcases plays_bind_iff.1 hrest with ⟨e, hguard, -⟩ | ⟨h₃, u, h₄, hguard, hdelete, rfl⟩
  · obtain ⟨hpaced, hasks⟩ := steady_guardRows p .delete target.entity owner rows h₂ _ hguard
    exact hsearch.append hpaced hasks
  obtain ⟨hpaced, hasks⟩ := steady_guardRows p .delete target.entity owner rows h₃ _ hguard
  obtain rfl := plays_ask_ok_iff.1 hfind
  obtain ⟨answer, rfl⟩ : ∃ answer, h₄ =
      [⟨.deleteRows target.entity target.filter cascade, answer⟩] := by
    rcases plays_bind_iff.1 hdelete with ⟨e, hask, -⟩ | ⟨h₅, report, h₆, hask, hend, rfl⟩
    · obtain ⟨answer, rfl, -⟩ := plays_ask_iff.1 hask
      exact ⟨answer, rfl⟩
    · rw [plays_ask_ok_iff.1 hask, (plays_pure_iff.1 hend).1]
      exact ⟨_, rfl⟩
  rw [← List.append_assoc]
  refine (hsearch.append hpaced hasks).append_of (.singleton _) (fun hnil => nomatch hnil) ?_
  intro x hx y hy
  rw [← Option.some.inj hy]
  -- The deletion follows a read: the last one of the guard, or the search if nothing was found.
  have hread : x.call.kind = .read := by
    rw [List.getLast?_append] at hx
    rcases Option.or_eq_some_iff.1 hx with hx | ⟨-, hx⟩
    · exact last_of_guardRows hguard x hx
    · rw [← Option.some.inj hx]
      rfl
  have hunasked : x.call.kind ≠ .poll := by
    rw [hread]
    exact nofun
  exact iff_of_true ⟨hunasked, rfl, nofun⟩ ⟨trivial, rfl⟩

/-! ## Operations -/

theorem steady_update (p : Node) (target : Target) (assignments : List Assignment)
    (owner : Option String) : (update p target assignments owner).Steady guarded := by
  refine (steady_checkTypes _ _).bind fun _ => Steady.inTransaction (Paced.after_poll ?_)
  have hwrite (rows : List Row) :
      (updateRows target.entity (assignments.map fun a => (a.field, a.value)) rows >>= fun _ =>
        pure (Outcome.updated target.entity rows.length)).Steady guarded :=
    (steady_updateRows _ _ rows).bind fun _ => steady_pure _
  refine (paced_ask rfl).bind fun rows => ?_
  cases owner with
  | none => exact hwrite rows
  | some field => exact (steady_guardRows _ _ _ _ rows).bind fun _ => hwrite rows

theorem steady_delete_of_unguarded (p : Node) (target : Target) (kind : EntityKind) :
    (delete p target kind none).Steady False := by
  refine Steady.inTransaction (Paced.after_poll ?_)
  refine Paced.bind (fun h r hplays => ?_) fun report => steady_pure _
  obtain ⟨answer, rfl, -⟩ := plays_ask_iff.1 hplays
  exact ⟨.singleton _, fun _ _ hdeletes => hdeletes.1⟩

/-- What an operation does after a poll. -/
theorem paced_operation (now : Instant) (p : Node) (op : Operation) :
    (operation now p op).Paced op.IsGuardedDeletion := by
  cases op with
  | get target projection =>
    exact (paced_ask rfl).bind fun _ => Paced.after_poll <| (paced_ask rfl).bind fun _ =>
      steady_pure _
  | check access =>
    exact (paced_ask rfl).bind fun _ => (steady_resolve _).bind fun _ =>
      (steady_resolve _).bind fun _ => Paced.after_poll <| (paced_decide _ _ _ _ _).bind fun _ =>
        steady_pure _
  | grant access =>
    exact (Steady.inTransaction <| (steady_delegate _ _ _).bind fun _ => Paced.after_poll <|
      (paced_ask rfl).bind fun _ => steady_pure _).paced
  | revoke access =>
    exact (Steady.inTransaction <| (steady_delegate _ _ _).bind fun _ => Paced.after_poll <|
      (paced_ask rfl).bind fun _ => steady_pure _).paced
  | update target assignments owner => exact (steady_update _ _ _ _).paced
  | delete target kind owner =>
    cases owner with
    | none => exact (steady_delete_of_unguarded p target kind).paced
    | some field =>
      exact (Steady.inTransaction (Paced.after_poll (paced_guardedDeletion _))).paced

end Evaluation

/-! ## Failures -/

/-- After a failure there is nothing but a rollback. -/
def Exchange.Yields (x y : Exchange) : Prop :=
  x.Succeeds ∨ y.call = .rollback

theorem Exchange.pairwise_yields_of_succeeds {h : List Exchange} (hall : ∀ x ∈ h, x.Succeeds) :
    h.Pairwise Yields :=
  List.pairwise_of_forall_mem_list fun x hx _ _ => .inl (hall x hx)

namespace Evaluation

open Exchange (Yields pairwise_yields_of_succeeds)

variable {h : List Exchange} {r : Except RunError α}

theorem Ends.pairwise (hends : Ends h r) : h.Pairwise Yields := by
  cases hends with
  | succeeded hall => exact pairwise_yields_of_succeeds hall
  | refused hall _ => exact pairwise_yields_of_succeeds hall
  | failed hall _ =>
    refine List.pairwise_append.2
      ⟨pairwise_yields_of_succeeds hall, List.pairwise_singleton _ _, ?_⟩
    exact fun x hx _ _ => .inl (hall x hx)

/-- The call that closes a transaction is a rollback if anything failed before. -/
theorem Transaction.pairwise {inside : List Exchange → Except RunError α → Prop}
    (hinside : ∀ h r, inside h r → Ends h r) (htransaction : Transaction inside h r) :
    h.Pairwise Yields := by
  cases htransaction with
  | unopened reason => exact List.pairwise_singleton _ _
  | @committed h a answer ha =>
    refine .cons (fun _ _ => .inl ⟨(), rfl⟩) (List.pairwise_append.2
      ⟨(hinside h _ ha).pairwise, List.pairwise_singleton _ _, fun x hx _ _ => ?_⟩)
    exact .inl ((hinside h _ ha).succeeds x hx)
  | @rolledBack h e answer he =>
    refine .cons (fun _ _ => .inl ⟨(), rfl⟩) (List.pairwise_append.2
      ⟨(hinside h _ he).pairwise, List.pairwise_singleton _ _, fun x _ y hy => ?_⟩)
    rw [List.mem_singleton.1 hy]
    exact .inr rfl

end Evaluation

/-! ## The store -/

namespace Client

variable (watch : Watch ι) (c : Client ι) (call : Call)

/-- For how many rounds a call waits: only the opening of a transaction waits for another one. -/
def waits : Call → Nat
  | .begin => c.rounds watch
  | _ => 0

/-- **A call hears its caller**: it asks whether to go on, once unless it waits, and if not, it fails
    with that. -/
def Hears : Prop :=
  (answer watch c call).2.caller = (watch.wait (c.waits watch call) c.caller).2 ∧
    ∀ reason, (watch.wait (c.waits watch call) c.caller).1 = .error reason →
      (answer watch c call).1 = .error reason

/-- The store asks at the start of a call that asks. A commit needs a transaction. -/
theorem hears_of_asks (hasks : call.asks = true)
    (hopen : call = .commit → ∃ working, c.view = .transaction working) : c.Hears watch call := by
  cases call with
  | poll => exact ⟨rfl, fun _ hreason => hreason⟩
  | begin =>
    constructor
    · simp only [answer, begin]
      split <;> rfl
    · intro reason hreason
      have hawait : (c.await watch).1 = .error reason := hreason
      simp only [answer, begin, Memory.begin, hawait]
      rfl
  | commit =>
    obtain ⟨working, hview⟩ := hopen rfl
    constructor
    · simp only [answer, commit, hview, poll]
      rfl
    · intro reason hreason
      have hpoll : (watch c.caller).1 = .error reason := hreason
      simp only [answer, commit, hview, poll, Memory.commit, hpoll]
      rfl
  | _ => exact absurd hasks Bool.false_ne_true

theorem caller_write {γ : Type} (change : Graph → Except StoreError (γ × Graph)) :
    (c.write change).2.caller = c.caller := by
  unfold write
  split
  · split <;> rfl
  · rfl

theorem caller_abandon : c.abandon.caller = c.caller := by
  unfold abandon
  split <;> rfl

/-- No other call hears its caller. -/
theorem caller_answer_of_not_asks (hasks : call.asks = false) :
    (answer watch c call).2.caller = c.caller := by
  cases call with
  | poll | begin | commit => exact nomatch hasks
  | snapshot | find | findEdge => rfl
  | upsertEdge | deleteEdge | updateFields | deleteRows => exact c.caller_write _
  | rollback => exact c.caller_abandon

end Client

/-! ## Plans -/

namespace Plan

open Evaluation Exchange

variable {plan : Plan} {caller : Principal} {now : Instant} {h : List Exchange}
  {r : Except RunError Outcome}

theorem paced_of_plays (hplays : (plan.execute now caller).Plays h r) :
    Paced plan.operation.IsGuardedDeletion h := by
  rw [plays_execute_iff] at hplays
  split at hplays
  · exact ((paced_operation now caller.node plan.operation).after_poll h r hplays).1
  · rw [hplays.1]
    exact paced_nil

theorem pairwise_of_plays (hplays : (plan.execute now caller).Plays h r) : h.Pairwise Yields := by
  cases hverb : plan.verb.isMutation with
  | false =>
    rw [plays_execute_iff] at hplays
    split at hplays
    · have hfollows : (poll >>= fun _ => Evaluation.operation now caller.node plan.operation).Follows
          fun c => c.IsReading ∨ c = .snapshot :=
        (follows_poll.mono fun _ => .inl).bind fun _ => follows_operation hverb
      exact (hfollows h r hplays).2.pairwise
    · rw [hplays.1]
      exact .nil
  | true =>
    cases execute_transacts hverb hplays with
    | foreign hcaller => exact .nil
    | interrupted reason => exact List.pairwise_singleton _ _
    | mistyped hop ha hvalue => exact List.pairwise_singleton _ _
    | opened hopened =>
      exact .cons (fun _ _ => .inl ⟨(), rfl⟩) (hopened.pairwise fun _ _ hinside => hinside.ends)

/-- **When a plan asks whether to go on**, at any state of the store and whatever it is answered.
    Between two calls that follow each other it asks, or the store does, unless the second is a
    rollback; only rows that an owner field guards are deleted unasked. After a failure, like that
    of being told to stop, nothing is called but a rollback. -/
theorem execute_polled (watch : Watch ι) (m : Memory) (i : ι) (now : Instant) (plan : Plan)
    (caller : Principal) :
    let h := (plan.execute now caller).run.history (Client.answer watch) (Client.start m i)
    h.IsChain (fun x y => x.Unasked y ↔
      plan.operation.IsGuardedDeletion ∧ y.call.deletes = true) ∧
    h.Pairwise Yields ∧
    ∀ (c : Client ι) (call : Call),
      if call.asks = true then
        (call = .commit → ∃ working, c.view = .transaction working) → c.Hears watch call
      else (Client.answer watch c call).2.caller = c.caller := by
  intro h
  have hplays : (plan.execute now caller).Plays h _ := Script.goes_history _ _ _
  refine ⟨(paced_of_plays hplays).chain, pairwise_of_plays hplays, fun c call => ?_⟩
  split
  · next hasks => exact c.hears_of_asks watch call hasks
  · next hasks => exact c.caller_answer_of_not_asks watch call (Bool.eq_false_iff.2 hasks)

/-- **A deletion that its caller gave up.** alice deletes her document, and gives up while the store
    looks for her permission. The rows are deleted all the same, and it is the commit that fails. -/
theorem execute_unpolled : ∃ (alice : Principal) (now : Instant) (plan : Plan),
    compile .standard alice "DELETE Resource.doc" = .ok plan ∧
    (¬ ((plan.execute now alice).run.history (Client.answer Watch.never)
      (Client.start Memory.shared ())).IsChain fun x y => ¬ x.Unasked y) ∧
    let run := Memory.shared.trace .empty (.ofToken 0) (some ⟨some "find_edge", 1, .cancel⟩)
      (plan.execute now alice).run
    run.lines = ["begin", "find Resource id = \"doc\"",
      "find_edge User.alice -[admin]-> Resource.doc",
      "delete_rows Resource id = \"doc\" [RemoveEdgesAsObject]", "commit"] ∧
    run.result.mapError RunError.code = .error "Store.Cancelled" := by
  refine ⟨⟨"User", "alice"⟩,
    ⟨⟨2024, 1, 2, by decide, by decide⟩, 0, 0, by decide, by decide, by decide⟩, _, rfl,
    fun hchain => ?_, by decide +kernel, by decide +kernel⟩
  refine List.isChain_iff_getElem.1 hchain 5 (by decide +kernel)
    ⟨by decide +kernel, by decide +kernel, fun hrollback => ?_⟩
  exact absurd (congrArg Call.name hrollback) (by decide +kernel)

end Plan

end Warrant
