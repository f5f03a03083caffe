import Mathlib.Logic.Function.Basic
import Warrant.Proofs.Effect.History
import Warrant.Proofs.Store.Tables

/-!
# Many at work on one store

Any number of handles share a memory store: in any order they take snapshots, open transactions,
read, write, commit, roll back and are dropped, while rows are published from outside. The writer
that has an open transaction keeps all others waiting. So the store behaves as if the completed
transactions and inserts had been made one after the other, and nothing else had been made.

## Main definitions

- `SharedStore`, `Event` — a store with its handles, and what can happen to it
- `SharedStore.Step`, `SharedStore.Runs` — one event, and a log of events
- `Serial` — work done one piece after the other
- `Ledger` — which work a log has completed
- `SharedStore.Transition` — what an event does, said without the store's code

## Main statements

- `SharedStore.Step.transition` — every step is a transition
- `SharedStore.Inv.step`, `SharedStore.Runs.inv` — the invariant of a step and of a run
- `SharedStore.Runs.serializable` — no update is lost, and the published graph is a serial one
-/

namespace Warrant

/-! ## One after the other -/

namespace Graph

/-- The outcome of a write, which leaves the graph as it is when it fails. -/
def settle {α : Type} (g : Graph) :
    Except StoreError (α × Graph) → Except StoreError α × Graph
  | .ok (a, g') => (.ok a, g')
  | .error e => (.error e, g)

/-- **A call on a graph that nobody else works on**: its answer, and the graph after it. -/
def respond (g : Graph) : (call : Call) → call.Answer × Graph
  | .find entity filter => (g.find entity filter, g)
  | .findEdge key => (.ok (g.findEdge key), g)
  | .upsertEdge edge => g.settle (.ok (g.upsertEdge edge))
  | .deleteEdge key => g.settle (.ok (g.deleteEdge key))
  | .updateFields entity id values =>
    g.settle ((g.updateFields entity id values).map fun g => ((), g))
  | .deleteRows entity filter cascade => g.settle (g.deleteRows entity filter cascade)
  | .poll | .snapshot | .begin | .commit | .rollback => (.ok (), g)

/-- Calls on a graph that nobody else works on, with the answers that they meet there. -/
inductive Answers (g : Graph) : List Exchange → Graph → Prop
  | nil : Answers g [] g
  | snoc {xs : List Exchange} {x : Exchange} {g' g'' : Graph} (h : Answers g xs g')
    (hx : g'.respond x.call = (x.answer, g'')) : Answers g (xs ++ [x]) g''

end Graph

/-- A piece of work that changes what is published. -/
inductive Work
  | insertion (entity : String) (rows : List Row)
  /-- The calls of a transaction, with the answers that they met. -/
  | transaction (exchanges : List Exchange)

/-- **Work done one piece after the other**, every call meeting the answer that it met. -/
inductive Serial (g : Graph) : List Work → Graph → Prop
  | nil : Serial g [] g
  | insertion {works : List Work} {entity : String} {rows : List Row} {g' g'' : Graph}
    (h : Serial g works g') (hrows : g'.insertRows entity rows = .ok g'') :
    Serial g (works ++ [.insertion entity rows]) g''
  | transaction {works : List Work} {exchanges : List Exchange} {g' g'' : Graph}
    (h : Serial g works g') (hanswers : g'.Answers exchanges g'') :
    Serial g (works ++ [.transaction exchanges]) g''

/-! ## All at once -/

/-- A memory store and what each handle on it holds. A handle that holds nothing sees whatever is
    published. -/
structure SharedStore (η : Type) where
  memory : Memory
  held : η → View

/-- What can happen to a shared store. -/
inductive Event (η : Type)
  /-- A handle made a call and met an answer. -/
  | asked (a : η) (x : Exchange)
  /-- What a handle held was dropped. -/
  | dropped (a : η)
  /-- Rows from outside were published, or refused. -/
  | inserted (entity : String) (rows : List Row) (result : Except StoreError Unit)

/-- The calls that read and write rows and edges. -/
def Call.isWork : Call → Bool
  | .find .. | .findEdge _ | .upsertEdge _ | .deleteEdge _ | .updateFields .. | .deleteRows .. =>
    true
  | _ => false

namespace Event

variable {η : Type}

/-- Whether an event completes a piece of work. -/
def Completes : Event η → Prop
  | .asked _ ⟨.commit, .ok _⟩ => True
  | .inserted _ _ (.ok _) => True
  | _ => False

/-- Whether an event closes what a handle holds. -/
def Ends (a : η) : Event η → Prop
  | .asked b ⟨.commit, _⟩ => b = a
  | .asked b ⟨.rollback, _⟩ => b = a
  | .dropped b => b = a
  | _ => False

variable {a : η} {x : Exchange}

theorem not_completes_of_isWork (h : x.call.isWork = true) : ¬ (asked a x).Completes := by
  obtain ⟨call, answer⟩ := x
  cases call with
  | poll | snapshot | begin | commit | rollback => exact absurd h Bool.false_ne_true
  | _ => exact id

theorem not_ends_of_isWork (h : x.call.isWork = true) (b : η) : ¬ (asked a x).Ends b := by
  obtain ⟨call, answer⟩ := x
  cases call with
  | poll | snapshot | begin | commit | rollback => exact absurd h Bool.false_ne_true
  | _ => exact id

/-- A handle closes nothing but what it holds itself. -/
theorem Ends.handle_eq {b : η} (h : (asked a x).Ends b) : a = b := by
  obtain ⟨call, answer⟩ := x
  cases call with
  | commit | rollback => exact h
  | _ => exact h.elim

/-- An event closes what one handle holds. -/
theorem Ends.eq {e : Event η} {b : η} (h : e.Ends a) (h' : e.Ends b) : a = b := by
  unfold Ends at h h'
  split at h
  · exact h.symm.trans h'
  · exact h.symm.trans h'
  · exact h.symm.trans h'
  · exact h.elim

end Event

/-- The calls that what a handle holds can take. -/
def View.allows : View → Call → Bool
  | .current, .snapshot | .current, .begin => true
  | .snapshot _, .find .. | .snapshot _, .findEdge _ => true
  | .transaction _, .commit | .transaction _, .rollback => true
  | .transaction _, call => call.isWork
  | _, _ => false

theorem View.allows_transaction {g : Graph} {call : Call}
    (h : (View.transaction g).allows call = true) :
    call = .commit ∨ call = .rollback ∨ call.isWork = true := by
  cases call with
  | commit => exact .inl rfl
  | rollback => exact .inr (.inl rfl)
  | _ => exact .inr (.inr h)

/-- A caller that says the same whenever it is asked whether to go on. -/
def Watch.saying : Watch (Except StoreError Unit) :=
  ⟨fun goOn => (goOn, goOn), 0⟩

theorem Client.await_saying (c : Client (Except StoreError Unit)) :
    c.await Watch.saying = (c.caller, c) := by
  have hrounds : c.rounds Watch.saying = 0 := ite_self 0
  rw [await, hrounds]
  rfl

namespace SharedStore

variable {η : Type}

/-- A graph is published, and nobody works on it. -/
def start (g : Graph) : SharedStore η :=
  ⟨⟨g, false⟩, fun _ => .current⟩

/-- Whether a handle has an open transaction. -/
def IsOpen (s : SharedStore η) (a : η) : Prop :=
  ∃ working, s.held a = .transaction working

/-- What the store knows of a handle when it answers a call. -/
def client (s : SharedStore η) (a : η) (goOn : Except StoreError Unit) :
    Client (Except StoreError Unit) :=
  ⟨s.memory, s.held a, goOn⟩

variable [DecidableEq η]

/-- The store after it has answered a call of a handle. -/
def put (s : SharedStore η) (a : η) (c : Client (Except StoreError Unit)) : SharedStore η :=
  ⟨c.memory, Function.update s.held a c.view⟩

/-- **One event of a shared store.** Whether the caller of a call goes on is open. Transactions are
    opened and rows are published only while no transaction is open; until then their callers wait,
    or give up. -/
inductive Step (s : SharedStore η) : Event η → SharedStore η → Prop
  | asked (a : η) (call : Call) (goOn : Except StoreError Unit)
    (hallows : (s.held a).allows call = true)
    (hwaited : call = .begin → goOn = .ok () → s.memory.busy = false) :
    Step s (.asked a ⟨call, ((s.client a goOn).answer Watch.saying call).1⟩)
      (s.put a ((s.client a goOn).answer Watch.saying call).2)
  | dropped (a : η) : Step s (.dropped a)
      ⟨(s.client a (.ok ())).abandon.memory, Function.update s.held a .current⟩
  | inserted {entity : String} {rows : List Row} {m : Memory} (hfree : s.memory.busy = false)
    (hrows : s.memory.insertRows entity rows = .ok m) :
    Step s (.inserted entity rows (.ok ())) { s with memory := m }
  | refused {entity : String} {rows : List Row} {e : StoreError} (hfree : s.memory.busy = false)
    (hrows : s.memory.insertRows entity rows = .error e) :
    Step s (.inserted entity rows (.error e)) s

/-- **A log of events**, in any order that the store admits. -/
inductive Runs (s : SharedStore η) : List (Event η) → SharedStore η → Prop
  | nil : Runs s [] s
  | snoc {log : List (Event η)} {e : Event η} {s' s'' : SharedStore η} (h : Runs s log s')
    (hstep : s'.Step e s'') : Runs s (log ++ [e]) s''

end SharedStore

/-- What a log says of the work of the handles. -/
structure Ledger (η : Type) where
  /-- The work that has been completed, in this order. -/
  completed : List Work
  /-- What each handle has asked since it opened a transaction. -/
  pending : η → List Exchange

namespace Ledger

variable {η : Type} [DecidableEq η]

def enter (l : Ledger η) : Event η → Ledger η
  | .asked a ⟨.begin, .ok _⟩ => { l with pending := Function.update l.pending a [] }
  | .asked a ⟨.commit, .ok _⟩ =>
    { l with completed := l.completed ++ [.transaction (l.pending a)] }
  | .asked a x => { l with pending := Function.update l.pending a (l.pending a ++ [x]) }
  | .inserted entity rows (.ok _) =>
    { l with completed := l.completed ++ [.insertion entity rows] }
  | _ => l

/-- The work of a log, read off its events alone. -/
def of (log : List (Event η)) : Ledger η :=
  log.foldl enter ⟨[], fun _ => []⟩

theorem of_concat (log : List (Event η)) (e : Event η) :
    of (log ++ [e]) = (of log).enter e := by
  rw [of, List.foldl_append]
  rfl

/-- Nothing is completed but by an event that completes something. -/
theorem completed_enter {l : Ledger η} {e : Event η} (h : ¬ e.Completes) :
    (l.enter e).completed = l.completed := by
  unfold enter
  split
  · rfl
  · exact absurd trivial h
  · rfl
  · exact absurd trivial h
  · rfl

/-- What is read or written is work of the handle. -/
theorem enter_of_isWork {x : Exchange} (h : x.call.isWork = true) (l : Ledger η) (a : η) :
    l.enter (.asked a x) =
      { l with pending := Function.update l.pending a (l.pending a ++ [x]) } := by
  obtain ⟨call, answer⟩ := x
  cases call with
  | poll | snapshot | begin | commit | rollback => exact absurd h Bool.false_ne_true
  | _ => rfl

/-- What is asked of one handle is no work of another. -/
theorem pending_enter_of_ne {l : Ledger η} {a b : η} (h : b ≠ a) (x : Exchange) :
    (l.enter (.asked a x)).pending b = l.pending b := by
  unfold enter
  split <;> simp_all

end Ledger

/-! ## What an event does -/

namespace Client

variable {ι : Type} {watch : Watch ι} {c : Client ι} {working : Graph}

/-- A write to the working copy of a transaction is a write to a graph of its own. -/
theorem write_of_transaction {α : Type} (h : c.view = .transaction working)
    (change : Graph → Except StoreError (α × Graph)) :
    c.write change = ((working.settle (change working)).1,
      { c with view := .transaction (working.settle (change working)).2 }) := by
  have hsame : ({ c with view := .transaction working } : Client ι) = c := by rw [← h]
  unfold write
  simp only [h]
  cases change working with
  | ok a => rfl
  | error e => exact congrArg (Prod.mk (Except.error e)) hsame.symm

/-- **Inside a transaction** a call is answered by the working copy alone. -/
theorem answer_of_transaction (h : c.view = .transaction working) {call : Call}
    (hwork : call.isWork = true) :
    c.answer watch call = ((working.respond call).1,
      { c with view := .transaction (working.respond call).2 }) := by
  have hgraph : c.graph = working := by rw [graph, h]
  have hsame : ({ c with view := .transaction working } : Client ι) = c := by rw [← h]
  cases call with
  | find | findEdge => simp only [answer, Graph.respond, hgraph, hsame]
  | upsertEdge edge => exact write_of_transaction h fun g => .ok (g.upsertEdge edge)
  | deleteEdge key => exact write_of_transaction h fun g => .ok (g.deleteEdge key)
  | updateFields entity id values =>
    exact write_of_transaction h fun g => (g.updateFields entity id values).map fun g => ((), g)
  | deleteRows entity filter cascade =>
    exact write_of_transaction h fun g => g.deleteRows entity filter cascade
  | poll | snapshot | begin | commit | rollback => exact absurd hwork Bool.false_ne_true

end Client

namespace SharedStore

variable {η : Type} [DecidableEq η]

/-- **What an event does.** -/
inductive Transition (s : SharedStore η) : Event η → SharedStore η → Prop
  | inserts {entity : String} {rows : List Row} {g : Graph} (hfree : s.memory.busy = false)
    (hrows : s.memory.published.insertRows entity rows = .ok g) :
    Transition s (.inserted entity rows (.ok ())) ⟨⟨g, false⟩, s.held⟩
  | refuses {entity : String} {rows : List Row} {e : StoreError} :
    Transition s (.inserted entity rows (.error e)) s
  | looks {a : η} (hheld : s.held a = .current) : Transition s (.asked a ⟨.snapshot, .ok ()⟩)
      ⟨s.memory, Function.update s.held a (.snapshot s.memory.published)⟩
  /-- A snapshot answers a call and stays what it is. -/
  | reads {a : η} {g : Graph} {x : Exchange} (hheld : s.held a = .snapshot g)
    (hwork : x.call.isWork = true) (hx : g.respond x.call = (x.answer, g)) :
    Transition s (.asked a x) s
  | begins {a : η} (hheld : s.held a = .current) (hfree : s.memory.busy = false) :
    Transition s (.asked a ⟨.begin, .ok ()⟩) ⟨⟨s.memory.published, true⟩,
      Function.update s.held a (.transaction s.memory.published)⟩
  | givesUp {a : η} {e : StoreError} (hheld : s.held a = .current) :
    Transition s (.asked a ⟨.begin, .error e⟩) s
  /-- The working copy of a transaction answers a call. -/
  | works {a : η} {g g' : Graph} {x : Exchange} (hheld : s.held a = .transaction g)
    (hwork : x.call.isWork = true) (hx : g.respond x.call = (x.answer, g')) :
    Transition s (.asked a x) ⟨s.memory, Function.update s.held a (.transaction g')⟩
  | commits {a : η} {g : Graph} (hheld : s.held a = .transaction g) :
    Transition s (.asked a ⟨.commit, .ok ()⟩) ⟨⟨g, false⟩, Function.update s.held a .current⟩
  /-- An interrupted commit, a rollback or a drop. -/
  | aborts {a : η} {g : Graph} {e : Event η} (hheld : s.held a = .transaction g)
    (hends : e.Ends a) (hfails : ¬ e.Completes) :
    Transition s e ⟨⟨s.memory.published, false⟩, Function.update s.held a .current⟩
  | leaves {a : η} (hheld : ¬ s.IsOpen a) :
    Transition s (.dropped a) ⟨s.memory, Function.update s.held a .current⟩

variable {s s' : SharedStore η} {a : η}

theorem put_client (s : SharedStore η) (a : η) (goOn : Except StoreError Unit) :
    s.put a (s.client a goOn) = s := by
  rw [put, client, Function.update_eq_self]

/-- A handle that holds nothing takes a snapshot or opens a transaction. -/
theorem transition_of_current {call : Call} {goOn : Except StoreError Unit}
    (hheld : s.held a = .current) (hallows : (s.held a).allows call = true)
    (hwaited : call = .begin → goOn = .ok () → s.memory.busy = false) :
    Transition s (.asked a ⟨call, ((s.client a goOn).answer Watch.saying call).1⟩)
      (s.put a ((s.client a goOn).answer Watch.saying call).2) := by
  rw [hheld] at hallows
  cases call with
  | snapshot => exact .looks hheld
  | begin =>
    cases goOn with
    | ok =>
      have hfree := hwaited rfl rfl
      -- Nobody else has a transaction open, so the memory opens one.
      have hbegin : s.memory.begin (.ok ()) =
          .ok (s.memory.published, ⟨s.memory.published, true⟩) := by
        rw [Memory.begin, hfree]
        rfl
      have hanswer : (s.client a (.ok ())).answer Watch.saying .begin =
          (.ok (), ⟨⟨s.memory.published, true⟩, .transaction s.memory.published, .ok ()⟩) := by
        simp only [Client.answer, Client.begin, Client.await_saying, client, hbegin]
        rfl
      rw [hanswer]
      exact .begins hheld hfree
    | error e =>
      have hanswer : (s.client a (.error e)).answer Watch.saying .begin =
          (.error e, s.client a (.error e)) := by
        rw [Client.answer, Client.begin, Client.await_saying]
        rfl
      rw [hanswer, put_client]
      exact .givesUp hheld
  | _ => exact absurd hallows Bool.false_ne_true

/-- A snapshot is read. -/
theorem transition_of_snapshot {call : Call} {goOn : Except StoreError Unit} {g : Graph}
    (hheld : s.held a = .snapshot g) (hallows : (s.held a).allows call = true) :
    Transition s (.asked a ⟨call, ((s.client a goOn).answer Watch.saying call).1⟩)
      (s.put a ((s.client a goOn).answer Watch.saying call).2) := by
  have hgraph : (s.client a goOn).graph = g := by rw [Client.graph, client, hheld]
  obtain ⟨hanswer, hsame, hwork⟩ : (s.client a goOn).answer Watch.saying call =
      ((g.respond call).1, s.client a goOn) ∧ (g.respond call).2 = g ∧ call.isWork = true := by
    rw [hheld] at hallows
    cases call with
    | find | findEdge => simp only [Client.answer, Graph.respond, hgraph, Call.isWork, and_self]
    | _ => exact absurd hallows Bool.false_ne_true
  rw [hanswer, put_client]
  exact .reads hheld hwork (Prod.ext rfl hsame)

/-- A transaction works on its working copy until it is closed. -/
theorem transition_of_transaction {call : Call} {goOn : Except StoreError Unit} {g : Graph}
    (hheld : s.held a = .transaction g) (hallows : (s.held a).allows call = true) :
    Transition s (.asked a ⟨call, ((s.client a goOn).answer Watch.saying call).1⟩)
      (s.put a ((s.client a goOn).answer Watch.saying call).2) := by
  have hview : (s.client a goOn).view = .transaction g := hheld
  rw [hheld] at hallows
  -- What is asked for closes the transaction, one way or the other, or it is work on the copy.
  rcases View.allows_transaction hallows with rfl | rfl | hwork
  · cases goOn with
    | ok =>
      have hanswer : (s.client a (.ok ())).answer Watch.saying .commit =
          (.ok (), ⟨⟨g, false⟩, .current, .ok ()⟩) := by
        simp only [Client.answer, Client.commit, hview]
        rfl
      rw [hanswer]
      exact .commits hheld
    | error e =>
      have hanswer : (s.client a (.error e)).answer Watch.saying .commit =
          (.error e, ⟨⟨s.memory.published, false⟩, .current, .error e⟩) := by
        simp only [Client.answer, Client.commit, hview]
        rfl
      rw [hanswer]
      exact .aborts hheld rfl id
  · have hanswer : (s.client a goOn).answer Watch.saying .rollback =
        (.ok (), ⟨⟨s.memory.published, false⟩, .current, goOn⟩) := by
      simp only [Client.answer, Client.abandon, hview]
      rfl
    rw [hanswer]
    exact .aborts hheld rfl id
  · rw [Client.answer_of_transaction hview hwork]
    exact .works hheld hwork rfl

/-- **Every step is a transition.** -/
theorem Step.transition {e : Event η} (h : s.Step e s') : Transition s e s' := by
  cases h with
  | asked a call goOn hallows hwaited =>
    cases hheld : s.held a with
    | current => exact transition_of_current hheld hallows hwaited
    | snapshot g => exact transition_of_snapshot hheld hallows
    | transaction g => exact transition_of_transaction hheld hallows
  | dropped a =>
    cases hheld : s.held a with
    | transaction g =>
      have habandon : (s.client a (.ok ())).abandon.memory = ⟨s.memory.published, false⟩ := by
        simp only [Client.abandon, client, hheld]
        rfl
      rw [habandon]
      exact .aborts hheld rfl id
    | current | snapshot =>
      have habandon : (s.client a (.ok ())).abandon.memory = s.memory := by
        simp only [Client.abandon, client, hheld]
      rw [habandon]
      exact .leaves (by simp [IsOpen, hheld])
  | @inserted entity rows m hfree hrows =>
    have hm : m = ⟨m.published, false⟩ := by rw [← Memory.idle_of_insertRows hrows]
    rw [hm]
    exact .inserts hfree (Memory.insertRows_eq_ok hrows)
  | refused => exact .refuses

/-! ## What every event keeps -/

/-- **What is so after every log.** The published graph is that of the completed work, done one
    piece after the other. A transaction that is open is the only one, and has worked on what is
    published. -/
structure Inv (g : Graph) (log : List (Event η)) (s : SharedStore η) : Prop where
  serial : Serial g (Ledger.of log).completed s.memory.published
  busy_iff : s.memory.busy = true ↔ ∃ a, s.IsOpen a
  alone : ∀ a b, s.IsOpen a → s.IsOpen b → a = b
  working : ∀ a w, s.held a = .transaction w →
    s.memory.published.Answers ((Ledger.of log).pending a) w

omit [DecidableEq η] in
theorem not_isOpen_of_held {v : View} (h : s.held a = v) (hv : ∀ w, v ≠ .transaction w) :
    ¬ s.IsOpen a :=
  fun ⟨w, hw⟩ => hv w (h.symm.trans hw)

omit [DecidableEq η] in
theorem IsOpen.ne_of_not {b : η} (hb : s.IsOpen b) (ha : ¬ s.IsOpen a) : b ≠ a := by
  rintro rfl
  exact ha hb

/-- A handle that takes something else than a transaction has none open. -/
theorem not_isOpen_update {m : Memory} {v : View} (hv : ∀ w, v ≠ .transaction w) :
    ¬ IsOpen ⟨m, Function.update s.held a v⟩ a := by
  rintro ⟨w, hw⟩
  exact hv w ((Function.update_self a v s.held).symm.trans hw)

/-- What one handle takes is no transaction of another. -/
theorem isOpen_update_of_ne {m : Memory} {v : View} {b : η} (hb : b ≠ a) :
    IsOpen ⟨m, Function.update s.held a v⟩ b ↔ s.IsOpen b := by
  simp only [IsOpen, Function.update_of_ne hb]

/-- A handle without a transaction may take anything but a transaction. -/
theorem update_eq_transaction_iff {v : View} (ha : ¬ s.IsOpen a) (hv : ∀ w, v ≠ .transaction w)
    (b : η) (w : Graph) :
    Function.update s.held a v b = .transaction w ↔ s.held b = .transaction w := by
  by_cases hb : b = a
  · subst hb
    rw [Function.update_self]
    exact ⟨fun h => absurd h (hv w), fun h => absurd ⟨w, h⟩ ha⟩
  · rw [Function.update_of_ne hb]

variable {g : Graph} {log : List (Event η)} {e : Event η}

namespace Inv

theorem start (g : Graph) : Inv g [] (start g : SharedStore η) where
  serial := .nil
  busy_iff := ⟨nofun, fun ⟨_, _, h⟩ => nomatch h⟩
  alone := fun _ _ ⟨_, h⟩ => nomatch h
  working := fun _ _ h => nomatch h

/-- While the store is free, nobody works on it. -/
theorem not_isOpen (h : Inv g log s) (hfree : s.memory.busy = false) (a : η) : ¬ s.IsOpen a :=
  fun ha => Bool.false_ne_true (hfree.symm.trans (h.busy_iff.2 ⟨a, ha⟩))

/-- A transaction that is open keeps the others out. -/
theorem not_isOpen_of_ne (h : Inv g log s) {b : η} (ha : s.IsOpen a) (hb : b ≠ a) :
    ¬ s.IsOpen b :=
  fun h' => hb (h.alone b a h' ha)

/-- Between transactions only the published graph counts. -/
theorem of_free (hserial : Serial g (Ledger.of log).completed s.memory.published)
    (hfree : s.memory.busy = false) (hopen : ∀ a, ¬ s.IsOpen a) : Inv g log s where
  serial := hserial
  busy_iff := by simp [hfree, hopen]
  alone := fun a _ ha => absurd ha (hopen a)
  working := fun a w ha => absurd ⟨w, ha⟩ (hopen a)

/-- An event that completes nothing and does not touch the open transaction keeps everything. -/
theorem of_unrelated (h : Inv g log s) (hmemory : s'.memory = s.memory)
    (hfails : ¬ e.Completes) (hheld : ∀ a w, s'.held a = .transaction w ↔ s.held a = .transaction w)
    (hpending : ∀ a, s.IsOpen a →
      ((Ledger.of log).enter e).pending a = (Ledger.of log).pending a) :
    Inv g (log ++ [e]) s' := by
  have hopen : ∀ a, s'.IsOpen a ↔ s.IsOpen a := fun a => exists_congr (hheld a)
  refine ⟨?_, ?_, ?_, ?_⟩
  · rw [hmemory, Ledger.of_concat, Ledger.completed_enter hfails]
    exact h.serial
  · rw [hmemory, h.busy_iff]
    exact (exists_congr hopen).symm
  · intro a b ha hb
    exact h.alone a b ((hopen a).1 ha) ((hopen b).1 hb)
  · intro a w ha
    have ha' := (hheld a w).1 ha
    rw [hmemory, Ledger.of_concat, hpending a ⟨w, ha'⟩]
    exact h.working a w ha'

/-- When the open transaction is closed, none is open. -/
theorem not_isOpen_closed (h : Inv g log s) (ha : s.IsOpen a) {m : Memory} (b : η) :
    ¬ IsOpen ⟨m, Function.update s.held a .current⟩ b := by
  by_cases hb : b = a
  · exact hb ▸ not_isOpen_update nofun
  · exact fun h' => h.not_isOpen_of_ne ha hb ((isOpen_update_of_ne hb).1 h')

/-- A transaction starts from what is published, and has the store to itself. -/
theorem begins (h : Inv g log s) (hfree : s.memory.busy = false) :
    Inv g (log ++ [.asked a ⟨.begin, .ok ()⟩]) ⟨⟨s.memory.published, true⟩,
      Function.update s.held a (.transaction s.memory.published)⟩ := by
  have hclosed : ∀ b, b ≠ a → ¬ IsOpen ⟨⟨s.memory.published, true⟩,
      Function.update s.held a (.transaction s.memory.published)⟩ b := fun b hb hopen =>
    h.not_isOpen hfree b ((isOpen_update_of_ne hb).1 hopen)
  have hself : Function.update s.held a (.transaction s.memory.published) a =
      .transaction s.memory.published := Function.update_self a _ s.held
  refine ⟨?_, ⟨fun _ => ⟨a, _, hself⟩, fun _ => rfl⟩, fun b c hb hc => ?_, fun b w hw => ?_⟩
  · rw [Ledger.of_concat]
    exact h.serial
  · rw [of_not_not fun hne => hclosed b hne hb, of_not_not fun hne => hclosed c hne hc]
  · obtain rfl : b = a := of_not_not fun hne => hclosed b hne ⟨w, hw⟩
    obtain rfl := View.transaction.inj (hself.symm.trans hw)
    rw [Ledger.of_concat]
    simp only [Ledger.enter, Function.update_self]
    exact .nil

/-- A transaction goes on working on what is published. -/
theorem works (h : Inv g log s) {w w' : Graph} {x : Exchange} (hheld : s.held a = .transaction w)
    (hwork : x.call.isWork = true) (hx : w.respond x.call = (x.answer, w')) :
    Inv g (log ++ [.asked a x])
      ⟨s.memory, Function.update s.held a (.transaction w')⟩ := by
  have ha : s.IsOpen a := ⟨w, hheld⟩
  have hopen : ∀ b, IsOpen ⟨s.memory, Function.update s.held a (.transaction w')⟩ b ↔
      s.IsOpen b := by
    intro b
    by_cases hb : b = a
    · subst hb
      exact iff_of_true ⟨w', Function.update_self b _ s.held⟩ ha
    · exact isOpen_update_of_ne hb
  refine ⟨?_, ?_, fun b c hb hc => h.alone b c ((hopen b).1 hb) ((hopen c).1 hc), fun b u hu => ?_⟩
  · rw [Ledger.of_concat, Ledger.completed_enter (Event.not_completes_of_isWork hwork)]
    exact h.serial
  · exact h.busy_iff.trans (exists_congr hopen).symm
  · obtain rfl : b = a := h.alone b a ((hopen b).1 ⟨u, hu⟩) ha
    obtain rfl := View.transaction.inj ((Function.update_self b _ s.held).symm.trans hu)
    rw [Ledger.of_concat, Ledger.enter_of_isWork hwork]
    simp only [Function.update_self]
    exact .snoc (h.working b w hheld) hx

/-- **A step keeps the invariant.** -/
theorem step (h : Inv g log s) (ht : Transition s e s') : Inv g (log ++ [e]) s' := by
  -- The events of a handle without a transaction complete nothing and leave those that are open as
  -- they are. An insertion needs that none is open, and what closes the one that is leaves none.
  cases ht with
  | inserts hfree hrows =>
    refine of_free ?_ rfl fun a => h.not_isOpen hfree a
    rw [Ledger.of_concat]
    exact .insertion h.serial hrows
  | refuses => exact h.of_unrelated rfl id (fun _ _ => Iff.rfl) fun _ _ => rfl
  | @looks a hheld =>
    have ha := not_isOpen_of_held hheld nofun
    exact h.of_unrelated rfl id (update_eq_transaction_iff ha nofun) fun b hb =>
      Ledger.pending_enter_of_ne (hb.ne_of_not ha) _
  | @reads a g' x hheld hwork hx =>
    have ha := not_isOpen_of_held hheld nofun
    exact h.of_unrelated rfl (Event.not_completes_of_isWork hwork) (fun _ _ => Iff.rfl) fun b hb =>
      Ledger.pending_enter_of_ne (hb.ne_of_not ha) _
  | @givesUp a err hheld =>
    have ha := not_isOpen_of_held hheld nofun
    exact h.of_unrelated rfl id (fun _ _ => Iff.rfl) fun b hb =>
      Ledger.pending_enter_of_ne (hb.ne_of_not ha) _
  | @leaves a hheld =>
    exact h.of_unrelated rfl id (update_eq_transaction_iff hheld nofun) fun _ _ => rfl
  | @begins a hheld hfree => exact h.begins hfree
  | @works a w w' x hheld hwork hx => exact h.works hheld hwork hx
  | @commits a w hheld =>
    refine of_free ?_ rfl (h.not_isOpen_closed ⟨w, hheld⟩)
    rw [Ledger.of_concat]
    exact .transaction h.serial (h.working a w hheld)
  | @aborts a w e hheld hends hfails =>
    refine of_free ?_ rfl (h.not_isOpen_closed ⟨w, hheld⟩)
    rw [Ledger.of_concat, Ledger.completed_enter hfails]
    exact h.serial

end Inv

/-- **The invariant of a run.** -/
theorem Runs.inv (h : (start g).Runs log s) : Inv g log s := by
  induction h with
  | nil => exact .start g
  | snoc _ hstep ih => exact ih.step hstep.transition

/-! ## Looking back -/

/-- **A log goes back to an event of a handle**, and what the handle has held since is not closed.
    The event found the store in the given state. -/
def Since (g : Graph) (log : List (Event η)) (s : SharedStore η) (a : η) (e : Event η)
    (s₀ : SharedStore η) : Prop :=
  ∃ before later s₁, log = before ++ e :: later ∧ (start g).Runs before s₀ ∧ s₀.Step e s₁ ∧
    s₁.Runs later s ∧ ∀ e' ∈ later, ¬ e'.Ends a

theorem Since.of_step (h : (start g).Runs log s) (hstep : s.Step e s') (a : η) :
    Since g (log ++ [e]) s' a e s :=
  ⟨log, [], s', rfl, h, hstep, .nil, fun _ he => absurd he List.not_mem_nil⟩

theorem Since.extend {e₀ : Event η} {s₀ : SharedStore η} (h : Since g log s a e₀ s₀)
    (hstep : s.Step e s') (hends : ¬ e.Ends a) : Since g (log ++ [e]) s' a e₀ s₀ := by
  obtain ⟨before, later, s₁, rfl, hbefore, hstep₀, hlater, hopen⟩ := h
  refine ⟨before, later ++ [e], s₁, ?_, hbefore, hstep₀, .snoc hlater hstep, fun e' he' => ?_⟩
  · rw [List.append_assoc, List.cons_append]
  · rcases List.mem_append.1 he' with he' | he'
    · exact hopen e' he'
    · exact List.mem_singleton.1 he' ▸ hends

namespace Transition

/-- What completes no work publishes nothing. -/
theorem published_eq (h : Transition s e s') (hfails : ¬ e.Completes) :
    s'.memory.published = s.memory.published := by
  cases h with
  | inserts | commits => exact absurd trivial hfails
  | _ => rfl

/-- A transaction that ends leaves the store to others. -/
theorem free_of_ends (h : Transition s e s') (hopen : s.IsOpen a) (hends : e.Ends a) :
    s'.memory.busy = false ∧ s'.held a = .current := by
  cases h with
  | commits =>
    obtain rfl := hends
    exact ⟨rfl, Function.update_self _ _ _⟩
  | aborts hheld hends' hfails =>
    obtain rfl := hends.eq hends'
    exact ⟨rfl, Function.update_self _ _ _⟩
  | leaves hheld =>
    obtain rfl := hends
    exact absurd hopen hheld
  | reads _ hwork | works _ hwork => exact absurd hends (Event.not_ends_of_isWork hwork a)
  | _ => exact hends.elim

/-- A handle goes on holding what it held. -/
def Keeps (s s' : SharedStore η) (a : η) : Prop :=
  s'.held a = s.held a ∨ s.IsOpen a ∧ s'.IsOpen a

/-- **What a handle holds** it has just asked for, or has held before. -/
theorem held_cases (h : Transition s e s') (a : η) :
    s'.held a = .current ∨
      (e = .asked a ⟨.snapshot, .ok ()⟩ ∧ s'.held a = .snapshot s.memory.published) ∨
      (e = .asked a ⟨.begin, .ok ()⟩ ∧ s'.held a = .transaction s.memory.published) ∨
      (¬ e.Ends a ∧ Keeps s s' a) := by
  -- A step is made by one handle, and what another one holds stays.
  have hother : ∀ {b : η} {m : Memory} {v : View}, a ≠ b →
      Keeps s ⟨m, Function.update s.held b v⟩ a := fun hab => .inl (Function.update_of_ne hab _ _)
  cases h with
  | inserts | refuses | givesUp => exact .inr (.inr (.inr ⟨id, .inl rfl⟩))
  | reads _ hwork => exact .inr (.inr (.inr ⟨Event.not_ends_of_isWork hwork a, .inl rfl⟩))
  | @looks b hheld =>
    rcases eq_or_ne a b with rfl | hab
    · exact .inr (.inl ⟨rfl, Function.update_self _ _ _⟩)
    · exact .inr (.inr (.inr ⟨id, hother hab⟩))
  | @begins b hheld hfree =>
    rcases eq_or_ne a b with rfl | hab
    · exact .inr (.inr (.inl ⟨rfl, Function.update_self _ _ _⟩))
    · exact .inr (.inr (.inr ⟨id, hother hab⟩))
  | @works b w w' x hheld hwork hx =>
    refine .inr (.inr (.inr ⟨Event.not_ends_of_isWork hwork a, ?_⟩))
    rcases eq_or_ne a b with rfl | hab
    · exact .inr ⟨⟨w, hheld⟩, ⟨w', Function.update_self _ _ _⟩⟩
    · exact hother hab
  | @commits b w hheld =>
    rcases eq_or_ne a b with rfl | hab
    · exact .inl (Function.update_self _ _ _)
    · exact .inr (.inr (.inr ⟨fun hends => hab (Eq.symm hends), hother hab⟩))
  | @aborts b w e hheld hends hfails =>
    rcases eq_or_ne a b with rfl | hab
    · exact .inl (Function.update_self _ _ _)
    · exact .inr (.inr (.inr ⟨fun hends' => hab (hends'.eq hends), hother hab⟩))
  | @leaves b hheld =>
    rcases eq_or_ne a b with rfl | hab
    · exact .inl (Function.update_self _ _ _)
    · exact .inr (.inr (.inr ⟨fun hends => hab (Eq.symm hends), hother hab⟩))

/-- A snapshot answers from what it holds. -/
theorem answer_of_snapshot {view : Graph} {x : Exchange} (h : Transition s (.asked a x) s')
    (hheld : s.held a = .snapshot view) : x.answer = (view.respond x.call).1 := by
  have hnot {v : View} (hv : s.held a = v) : v = .snapshot view := hv.symm.trans hheld
  cases h with
  | reads hheld' _ hx =>
    obtain rfl := View.snapshot.inj (hnot hheld')
    rw [hx]
  | looks hheld' | begins hheld' | givesUp hheld' | works hheld' | commits hheld' =>
    exact nomatch hnot hheld'
  | aborts hheld' hends =>
    obtain rfl := hends.handle_eq
    exact nomatch hnot hheld'

/-- Only a transaction is committed. -/
theorem isOpen_of_commit (h : Transition s (.asked a ⟨.commit, .ok ()⟩) s') : s.IsOpen a := by
  cases h with
  | commits hheld => exact ⟨_, hheld⟩
  | reads _ hwork | works _ hwork => exact absurd hwork Bool.false_ne_true
  | aborts _ _ hfails => exact absurd trivial hfails

end Transition

/-- While a transaction is open, nothing is published. -/
theorem Inv.published_eq_of_open (h : Inv g log s) (ht : Transition s e s') (ha : s.IsOpen a)
    (hends : ¬ e.Ends a) : s'.memory.published = s.memory.published := by
  cases ht with
  | inserts hfree => exact absurd ha (h.not_isOpen hfree a)
  | commits hheld => exact absurd (h.alone _ _ ⟨_, hheld⟩ ha) hends
  | _ => rfl

/-- **A transaction that is open has begun**, and nothing has been published since. -/
theorem Runs.since_begin (h : (start g).Runs log s) (ha : s.IsOpen a) :
    ∃ s₀, Since g log s a (.asked a ⟨.begin, .ok ()⟩) s₀ ∧
      s.memory.published = s₀.memory.published := by
  induction h with
  | nil => exact (Inv.not_isOpen (.start g) rfl a ha).elim
  | @snoc log e s s' hruns hstep ih =>
    obtain ⟨w, hw⟩ := ha
    rcases hstep.transition.held_cases a with hheld | ⟨-, hheld⟩ | ⟨rfl, -⟩ | ⟨hends, hkeeps⟩
    · exact nomatch hw.symm.trans hheld
    · exact nomatch hw.symm.trans hheld
    · exact ⟨s, .of_step hruns hstep a, hstep.transition.published_eq id⟩
    · have hopen : s.IsOpen a := by
        rcases hkeeps with hheld | ⟨hopen, -⟩
        · exact ⟨w, hheld.symm.trans hw⟩
        · exact hopen
      obtain ⟨s₀, hsince, hpublished⟩ := ih hopen
      refine ⟨s₀, hsince.extend hstep hends, ?_⟩
      rw [hruns.inv.published_eq_of_open hstep.transition hopen hends, hpublished]

/-- **A snapshot has been taken**, and is what was published then. -/
theorem Runs.since_snapshot (h : (start g).Runs log s) {view : Graph}
    (ha : s.held a = .snapshot view) :
    ∃ s₀, Since g log s a (.asked a ⟨.snapshot, .ok ()⟩) s₀ ∧
      view = s₀.memory.published := by
  induction h with
  | nil => exact nomatch ha
  | @snoc log e s s' hruns hstep ih =>
    rcases hstep.transition.held_cases a with hheld | ⟨rfl, hheld⟩ | ⟨-, hheld⟩ | ⟨hends, hkeeps⟩
    · exact nomatch ha.symm.trans hheld
    · exact ⟨s, .of_step hruns hstep a, View.snapshot.inj (ha.symm.trans hheld)⟩
    · exact nomatch ha.symm.trans hheld
    · rcases hkeeps with hheld | ⟨-, ⟨w, hw⟩⟩
      · obtain ⟨s₀, hsince, hview⟩ := ih (hheld.symm.trans ha)
        exact ⟨s₀, hsince.extend hstep hends, hview⟩
      · exact nomatch ha.symm.trans hw

/-! ## Serializability -/

/-- **What a shared store guarantees** after a log of events, and at the next one. -/
structure Isolated (g : Graph) (log : List (Event η)) (s : SharedStore η) : Prop
    extends Inv g log s where
  /-- A commit that succeeds takes the place of the graph that its transaction started from. -/
  unlost : ∀ a s', s.Step (.asked a ⟨.commit, .ok ()⟩) s' →
    ∃ s₀, Since g log s a (.asked a ⟨.begin, .ok ()⟩) s₀ ∧
      s.memory.published = s₀.memory.published
  /-- Nothing but a completed insert or transaction changes what is published. -/
  traceless : ∀ e s', s.Step e s' → ¬ e.Completes → s'.memory.published = s.memory.published
  /-- Whichever way a transaction ends, the next one can begin. -/
  released : ∀ a e s', s.IsOpen a → s.Step e s' → e.Ends a →
    s'.memory.busy = false ∧ s'.held a = .current
  /-- A snapshot answers from what was published when it was taken. -/
  frozen : ∀ a view x s', s.held a = .snapshot view → s.Step (.asked a x) s' →
    ∃ s₀, Since g log s a (.asked a ⟨.snapshot, .ok ()⟩) s₀ ∧
      x.answer = (s₀.memory.published.respond x.call).1

/-- **No update is lost, and the store is serializable.** Whatever any number of handles do to a
    shared store, in any order, the published graph is what the completed inserts and the committed
    transactions make of the first one, one after the other in the order of their completion. What
    was rolled back, dropped or interrupted has left nothing. -/
theorem Runs.serializable (h : (start g).Runs log s) : Isolated g log s where
  toInv := h.inv
  unlost _ _ hstep := h.since_begin hstep.transition.isOpen_of_commit
  traceless _ _ hstep := hstep.transition.published_eq
  released _ _ _ ha hstep := hstep.transition.free_of_ends ha
  frozen _ _ _ _ hheld hstep := by
    obtain ⟨s₀, hsince, rfl⟩ := h.since_snapshot hheld
    exact ⟨s₀, hsince, hstep.transition.answer_of_snapshot hheld⟩

/-- One handle is interrupted when it commits, another one looks on and then commits. -/
theorem Runs.serializable_interrupted :
    let alice : Row := .ofFields "alice" []
    let edge (permission : String) : Edge := ⟨⟨⟨"User", "alice"⟩, ⟨"Resource", "doc"⟩, permission⟩,
      ⟨⟨⟨2024, 1, 1, by decide, by decide⟩, 0, 0, by decide, by decide, by decide⟩, none⟩⟩
    let g := Graph.ofSchema .standard
    let log : List (Event Bool) := [.inserted "User" [alice] (.ok ()),
      .asked true ⟨.begin, .ok ()⟩,
      .asked false ⟨.snapshot, .ok ()⟩,
      .asked true ⟨.upsertEdge (edge "read"), .ok true⟩,
      .asked true ⟨.commit, .error .cancelled⟩,
      .asked false ⟨.findEdge (edge "read").key, .ok none⟩,
      .dropped false,
      .asked false ⟨.begin, .ok ()⟩,
      .asked false ⟨.upsertEdge (edge "write"), .ok true⟩,
      .asked false ⟨.commit, .ok ()⟩]
    ∃ s, (start g).Runs log s ∧ Isolated g log s ∧
      (Ledger.of log).completed = [.insertion "User" [alice],
        .transaction [⟨.upsertEdge (edge "write"), .ok true⟩]] ∧
      s.memory.published.edgeList = [edge "write"] := by
  intro alice edge g log
  have h₁ : (start g).Runs (log.take 1) _ := .snoc .nil (.inserted rfl rfl)
  have h₂ : (start g).Runs (log.take 2) _ :=
    h₁.snoc (.asked true .begin (.ok ()) rfl fun _ _ => rfl)
  have h₃ : (start g).Runs (log.take 3) _ := h₂.snoc (.asked false .snapshot (.ok ()) rfl nofun)
  have h₄ : (start g).Runs (log.take 4) _ :=
    h₃.snoc (.asked true (.upsertEdge (edge "read")) (.ok ()) rfl nofun)
  have h₅ : (start g).Runs (log.take 5) _ :=
    h₄.snoc (.asked true .commit (.error .cancelled) rfl nofun)
  have h₆ : (start g).Runs (log.take 6) _ :=
    h₅.snoc (.asked false (.findEdge (edge "read").key) (.ok ()) rfl nofun)
  have h₇ : (start g).Runs (log.take 7) _ := h₆.snoc (.dropped false)
  have h₈ : (start g).Runs (log.take 8) _ :=
    h₇.snoc (.asked false .begin (.ok ()) rfl fun _ _ => rfl)
  have h₉ : (start g).Runs (log.take 9) _ :=
    h₈.snoc (.asked false (.upsertEdge (edge "write")) (.ok ()) rfl nofun)
  have hruns : (start g).Runs log _ := h₉.snoc (.asked false .commit (.ok ()) rfl nofun)
  exact ⟨_, hruns, hruns.serializable, rfl, by decide +kernel⟩

end SharedStore

end Warrant
