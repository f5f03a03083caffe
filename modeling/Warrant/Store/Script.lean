import Warrant.Graph.Basic

/-!
# Scripts

An evaluation talks to a store by calls, one after the other, and goes on with the answers. A
script is an evaluation seen from the outside: either it has ended, or it makes a call and says
how it goes on for every answer. So an evaluation can be run against any store, and everything it
does to a store can be seen.

## Main definitions

- `Call` — what can be asked of a store
- `Script` — an evaluation as a tree of calls
- `Script.run` — an evaluation against a store
-/

namespace Warrant

/-- A call of an evaluation. -/
inductive Call
  /-- Asks whether to go on. -/
  | poll
  /-- Takes a view of the store that does not change. -/
  | snapshot
  /-- Opens a transaction. -/
  | begin
  | find (entity : String) (filter : Filter)
  | findEdge (key : EdgeKey)
  | upsertEdge (edge : Edge)
  | deleteEdge (key : EdgeKey)
  | updateFields (entity id : String) (values : List (String × Value))
  | deleteRows (entity : String) (filter : Filter) (cascade : List CascadeRule)
  /-- Publishes the changes of the transaction and closes it. -/
  | commit
  /-- Drops the changes of the transaction and closes it. -/
  | rollback

namespace Call

/-- What a call yields if it succeeds. -/
def Result : Call → Type
  | .find .. => List Row
  | .findEdge _ => Option Edge
  | .upsertEdge _ => Bool
  | .deleteEdge _ => Bool
  | .deleteRows .. => DeleteReport
  | _ => Unit

/-- The answer to a call. -/
abbrev Answer (c : Call) : Type :=
  Except StoreError c.Result

def name : Call → String
  | .poll => "poll"
  | .snapshot => "snapshot"
  | .begin => "begin"
  | .find .. => "find"
  | .findEdge _ => "find_edge"
  | .upsertEdge _ => "upsert_edge"
  | .deleteEdge _ => "delete_edge"
  | .updateFields .. => "update_fields"
  | .deleteRows .. => "delete_rows"
  | .commit => "commit"
  | .rollback => "rollback"

/-- What a call is about, in journals. -/
def operands : Call → List String
  | .find entity filter => [entity, filter.write]
  | .findEdge key => [key.write]
  | .upsertEdge edge => [edge.key.write]
  | .deleteEdge key => [key.write]
  | .updateFields entity id values =>
    [(⟨entity, id⟩ : Node).write, String.intercalate "," (values.map Prod.fst)]
  | .deleteRows entity filter cascade =>
    [entity, filter.write, "[" ++ String.intercalate ", " (cascade.map CascadeRule.name) ++ "]"]
  | _ => []

/-- The line of a call in journals. -/
def write (c : Call) : String :=
  String.intercalate " " (c.name :: c.operands)

end Call

/-- An evaluation as a tree of calls. -/
inductive Script (α : Type)
  | done (a : α)
  | ask (call : Call) (next : call.Answer → Script α)

namespace Script

variable {α β σ : Type}

/-- One script after another. -/
def bind : Script α → (α → Script β) → Script β
  | .done a, f => f a
  | .ask call next, f => .ask call fun answer => (next answer).bind f

instance : Monad Script where
  pure := .done
  bind := bind

@[simp]
theorem bind_done (x : Script α) : x.bind .done = x := by
  induction x with
  | done a => rfl
  | ask call next ih => simp [bind, ih]

theorem bind_assoc {γ : Type} (x : Script α) (f : α → Script β) (g : β → Script γ) :
    (x.bind f).bind g = x.bind fun a => (f a).bind g := by
  induction x with
  | done a => rfl
  | ask call next ih => simp [bind, ih]

instance : LawfulMonad Script :=
  LawfulMonad.mk' Script (fun x => bind_done x) (fun _ _ => rfl) bind_assoc

/-- A store: how it answers a call, and what it is afterwards. -/
abbrev Store (σ : Type) :=
  σ → (call : Call) → call.Answer × σ

/-- **An evaluation against a store.** -/
def run (store : Store σ) : Script α → σ → α × σ
  | .done a, s => (a, s)
  | .ask call next, s =>
    let (answer, s) := store s call
    (next answer).run store s

@[simp]
theorem run_done (store : Store σ) (a : α) (s : σ) : (Script.done a).run store s = (a, s) := rfl

theorem run_ask (store : Store σ) (call : Call) (next : call.Answer → Script α) (s : σ) :
    (Script.ask call next).run store s = (next (store s call).1).run store (store s call).2 := rfl

/-- One script after another runs on the store that the first leaves. -/
theorem run_bind (store : Store σ) (x : Script α) (f : α → Script β) (s : σ) :
    (x.bind f).run store s = (f (x.run store s).1).run store (x.run store s).2 := by
  induction x generalizing s with
  | done a => rfl
  | ask call next ih => simp only [bind, run_ask, ih]

end Script

end Warrant
