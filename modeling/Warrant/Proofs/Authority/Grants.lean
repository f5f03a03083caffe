import Warrant.Proofs.Authority.Triples

/-!
# Permissions given in any order

Whoever gives a permission must be allowed to at that moment, and what others have given before may
decide whether he is. But giving adds permissions and takes none away, and it touches no row, by
which subjects and resources are found. So jobs each of which gives a permission when it is run alone
do so in any order, however often they are repeated, and in the end the same permissions have been
given.

## Main definitions

- `Memory.Grants` — a job gives a permission
- `Memory.Widens` — a store has the rows of another one, and its permissions at least
- `Memory.GrantsAll` — what is to be said of a run of jobs each of which gives a permission

## Main statements

- `Memory.grants_iff_of_widens` — wider stores do not change what a job gives
- `Memory.GrantsAll.cons`, `Memory.grantsAll_performAll` — one more job, and a run of them
- `Memory.grantsAll_of_perm` — jobs that give permissions, in any order
-/

namespace Warrant.Memory

variable {m m' : Memory} {job : Job} {jobs : List Job} {key key' : EdgeKey} {now : Instant}
  {timed : List (Instant × Job)} {run : List (Except RunError Outcome) × Memory}

/-! ## One job -/

/-- **A job gives a permission** when it is run alone. -/
def Grants (m : Memory) (job : Job) (key : EdgeKey) : Prop :=
  ∃ now edge created, (m.perform now job).1 = .ok (.granted edge created) ∧ edge.key = key

/-- A job that gives a permission is a plan of its caller to do so, who may administer the resource. -/
theorem Grants.exists_access (h : m.Grants job key) :
    job.plan.principal = job.caller ∧ m.busy = false ∧ ∃ access,
      job.plan.operation = .grant access ∧
      m.published.delegate job.caller.node .grant access = .ok key := by
  obtain ⟨now, edge, created, hrun, rfl⟩ := h
  obtain ⟨g, heffect⟩ := perform_eq_ok_iff.1 hrun
  obtain ⟨hp, hidle, access, key, hop, hkey, rfl, -⟩ := Plan.effect_eq_granted_iff.1 heffect
  exact ⟨hp, hidle, access, hop, hkey⟩

/-- A job that gives a permission at some time gives it at any time. -/
theorem Grants.perform_eq (h : m.Grants job key) (now : Instant) :
    m.perform now job =
      (.ok (.granted (Graph.newEdge now job.caller.node key) (m.published.findEdge key).isNone),
        { m with
          published := (m.published.upsertEdge (Graph.newEdge now job.caller.node key)).2 }) := by
  obtain ⟨hp, hidle, access, hop, hkey⟩ := h.exists_access
  refine perform_of_ok (Plan.effect_eq_granted_iff.2 ⟨hp, hidle, access, key, hop, hkey, rfl, ?_⟩)
  exact Prod.ext (m.published.upsertEdge_fst (Graph.newEdge now job.caller.node key)).symm rfl

/-- **A store has the rows of another one, and its permissions at least.** -/
structure Widens (m m' : Memory) : Prop where
  tables : m'.published.tables = m.published.tables
  triples : m.published.triples ⊆ m'.published.triples
  busy : m'.busy = m.busy

theorem Grants.triples_perform (h : m.Grants job key) (now : Instant) :
    (m.perform now job).2.published.triples = insert key m.published.triples := by
  rw [h.perform_eq now]
  exact Graph.triples_upsertEdge _ _

theorem Grants.findEdge_perform (h : m.Grants job key) (now : Instant) (hne : key' ≠ key) :
    (m.perform now job).2.published.findEdge key' = m.published.findEdge key' := by
  rw [h.perform_eq now]
  exact (Graph.findEdge_upsertEdge _ _ _).trans (if_neg hne)

theorem Grants.widens (h : m.Grants job key) (now : Instant) :
    m.Widens (m.perform now job).2 where
  tables := by rw [h.perform_eq now]; rfl
  triples := h.triples_perform now ▸ Finset.subset_insert _ _
  busy := by rw [h.perform_eq now]

theorem Grants.of_widens (h : m.Grants job key) (hwide : m.Widens m') : m'.Grants job key := by
  obtain ⟨hp, hidle, access, hop, hkey⟩ := h.exists_access
  obtain ⟨now, _, _, -, -⟩ := h
  have hedges (key : EdgeKey) (h : (m.published.findEdge key).isSome) :
      (m'.published.findEdge key).isSome :=
    Graph.mem_triples.1 (hwide.triples (Graph.mem_triples.2 h))
  have hkey' := Graph.delegate_of_more_edges hwide.tables hedges hkey
  exact ⟨now, _, _, perform_eq_ok_iff.2 ⟨_, Plan.effect_eq_granted_iff.2
    ⟨hp, hwide.busy.trans hidle, access, key, hop, hkey', rfl, rfl⟩⟩, rfl⟩

theorem Grants.unique (h : m.Grants job key) (hwide : m.Widens m') (h' : m'.Grants job key') :
    key' = key := by
  obtain ⟨-, -, access, hop, hkey⟩ := h.exists_access
  obtain ⟨-, -, access', hop', hkey'⟩ := h'.exists_access
  obtain rfl : access = access' := Operation.grant.inj (hop.symm.trans hop')
  exact Graph.delegate_unique hwide.tables hkey hkey'

/-- **Wider stores do not change what a job gives.** -/
theorem grants_iff_of_widens (hgives : ∃ key, m.Grants job key) (hwide : m.Widens m') :
    m'.Grants job key ↔ m.Grants job key := by
  obtain ⟨key₀, h⟩ := hgives
  exact ⟨fun h' => h.unique hwide h' ▸ h, fun h => h.of_widens hwide⟩

/-! ## Many jobs -/

/-- The permissions that are reported as added. -/
def addedKeys (results : List (Except RunError Outcome)) : List EdgeKey :=
  results.filterMap fun
    | .ok (.granted edge true) => some edge.key
    | _ => none

theorem addedKeys_cons_perform (h : m.Grants job key) (now : Instant)
    (results : List (Except RunError Outcome)) :
    addedKeys ((m.perform now job).1 :: results) =
      if key ∈ m.published.triples then addedKeys results else key :: addedKeys results := by
  simp only [h.perform_eq now, Graph.mem_triples]
  cases m.published.findEdge key <;> rfl

/-- **What is to be said of a run of jobs each of which gives a permission** in a store `m`. -/
structure GrantsAll (m : Memory) (jobs : List Job) (timed : List (Instant × Job))
    (run : List (Except RunError Outcome) × Memory) : Prop where
  /-- Every job gives the permission that it would give alone. -/
  results : List.Forall₂ (fun t result => ∃ key created, m.Grants t.2 key ∧
    result = .ok (.granted (Graph.newEdge t.1 t.2.caller.node key) created)) timed run.1
  /-- What is permitted then was permitted before, or has been given. -/
  triples : ∀ key, key ∈ run.2.published.triples ↔
    key ∈ m.published.triples ∨ ∃ job ∈ jobs, m.Grants job key
  /-- Permissions that have not been given are as they were. -/
  others : ∀ key, (∀ job ∈ jobs, ¬ m.Grants job key) →
    run.2.published.findEdge key = m.published.findEdge key
  tables : run.2.published.tables = m.published.tables
  busy : run.2.busy = m.busy
  added_nodup : (addedKeys run.1).Nodup
  /-- What has been given and was not there is reported as added, and nothing else. -/
  mem_added : ∀ key, key ∈ addedKeys run.1 ↔
    key ∉ m.published.triples ∧ ∃ job ∈ jobs, m.Grants job key

/-- It does not matter how the jobs are listed. -/
theorem GrantsAll.congr {jobs' : List Job} (h : m.GrantsAll jobs timed run)
    (hjobs : ∀ job, job ∈ jobs ↔ job ∈ jobs') : m.GrantsAll jobs' timed run where
  results := h.results
  triples key := by simpa only [hjobs] using h.triples key
  others key hkey := h.others key fun job hjob => hkey job ((hjobs job).1 hjob)
  tables := h.tables
  busy := h.busy
  added_nodup := h.added_nodup
  mem_added key := by simpa only [hjobs] using h.mem_added key

theorem grantsAll_nil (m : Memory) : m.GrantsAll [] [] ([], m) where
  results := .nil
  triples key := by simp
  others _ _ := rfl
  tables := rfl
  busy := rfl
  added_nodup := .nil
  mem_added key := by simp [addedKeys]

/-- **One more job.** The others find a wider store, which does not change what they give. -/
theorem GrantsAll.cons (hkey : m.Grants job key) (hgives : ∀ t ∈ timed, ∃ key, m.Grants t.2 key)
    (h : (m.perform now job).2.GrantsAll (timed.map Prod.snd) timed run) :
    m.GrantsAll (((now, job) :: timed).map Prod.snd) ((now, job) :: timed)
      ((m.perform now job).1 :: run.1, run.2) := by
  have hwide := hkey.widens now
  -- The first job only widens the store, so what the others give in the wider store they give in
  -- this one too.
  have hrest (key' : EdgeKey) :
      (∃ job' ∈ timed.map Prod.snd, (m.perform now job).2.Grants job' key') ↔
        ∃ job' ∈ timed.map Prod.snd, m.Grants job' key' := by
    refine exists_congr fun job' => and_congr_right fun hjob' => ?_
    obtain ⟨t, ht, rfl⟩ := List.mem_map.1 hjob'
    exact grants_iff_of_widens (hgives t ht) hwide
  have hall (key' : EdgeKey) :
      (∃ job' ∈ ((now, job) :: timed).map Prod.snd, m.Grants job' key') ↔
        key' = key ∨ ∃ job' ∈ timed.map Prod.snd, m.Grants job' key' := by
    rw [List.map_cons, List.exists_mem_cons_iff]
    exact or_congr_left ⟨fun h' => hkey.unique ⟨rfl, subset_rfl, rfl⟩ h', fun heq => heq ▸ hkey⟩
  have htriples := hkey.triples_perform now
  refine
    { results := .cons ⟨key, _, hkey, congrArg Prod.fst (hkey.perform_eq now)⟩ ?results
      triples := fun key' => ?triples
      others := fun key' hkey' => ?others
      tables := h.tables.trans hwide.tables
      busy := h.busy.trans hwide.busy
      added_nodup := ?added_nodup
      mem_added := fun key' => ?mem_added }
  case results =>
    refine ((List.forall₂_and_left _ _).2 ⟨hgives, h.results⟩).imp ?_
    rintro t result ⟨hgives, key', created, hkey', hresult⟩
    exact ⟨key', created, (grants_iff_of_widens hgives hwide).1 hkey', hresult⟩
  case triples =>
    rw [h.triples key', hrest key', hall key', htriples, Finset.mem_insert]
    tauto
  case others =>
    rw [List.map_cons, List.forall_mem_cons] at hkey'
    have hne : key' ≠ key := fun heq => hkey'.1 (heq ▸ hkey)
    refine (h.others key' fun job' hjob' hgives' => ?_).trans (hkey.findEdge_perform now hne)
    obtain ⟨job', hjob', hgives'⟩ := (hrest key').1 ⟨job', hjob', hgives'⟩
    exact hkey'.2 job' hjob' hgives'
  case added_nodup =>
    rw [addedKeys_cons_perform hkey]
    split
    · exact h.added_nodup
    · -- The permission is there from now on, so nobody reports it as added again.
      refine List.nodup_cons.2 ⟨fun hmem => ((h.mem_added key).1 hmem).1 ?_, h.added_nodup⟩
      rw [htriples]
      exact Finset.mem_insert_self _ _
  case mem_added =>
    have hmem := h.mem_added key'
    rw [htriples, Finset.mem_insert, hrest key'] at hmem
    rw [addedKeys_cons_perform hkey, hall key']
    split
    · next hthere =>
      rw [hmem]
      grind
    · next hnew =>
      rw [List.mem_cons, hmem]
      grind

theorem grantsAll_performAll (hgives : ∀ t ∈ timed, ∃ key, m.Grants t.2 key) :
    m.GrantsAll (timed.map Prod.snd) timed (m.performAll timed) := by
  induction timed generalizing m with
  | nil => exact grantsAll_nil m
  | cons t rest ih =>
    obtain ⟨⟨key, hkey⟩, hgives⟩ := List.forall_mem_cons.1 hgives
    refine .cons hkey hgives (ih fun t' ht' => ?_)
    obtain ⟨key', hkey'⟩ := hgives t' ht'
    exact ⟨key', hkey'.of_widens (hkey.widens t.1)⟩

/-- **Jobs that give permissions do so in any order.** If each of some jobs gives a permission when it
    is run alone, then all of them do, one after another in any order and at any times. -/
theorem grantsAll_of_perm (halone : ∀ job ∈ jobs, ∃ key, m.Grants job key)
    (horder : (timed.map Prod.snd).Perm jobs) : m.GrantsAll jobs timed (m.performAll timed) := by
  refine (grantsAll_performAll fun t ht => ?_).congr fun job => horder.mem_iff
  exact halone t.2 (horder.mem_iff.1 (List.mem_map_of_mem ht))

/-- alice lets bob read her document, and administer it, and read it once more. In another order, of
    three permissions that are given two are reported as added. -/
theorem grantsAll_of_perm_twice :
    let alice : Principal := ⟨"User", "alice"⟩
    let give (permission : String) : Job := ⟨alice, ⟨0, alice,
      .grant ⟨⟨"User", .hasId "bob"⟩, permission, ⟨"Resource", .hasId "doc"⟩, "owner"⟩⟩⟩
    let jobs := [give "read", give "admin", give "read"]
    ∃ (users m : Memory) (now : Instant),
      (Memory.ofSchema .standard).insertRows "User" [.new "alice", .new "bob"] = .ok users ∧
      users.insertRows "Resource" [.ofFields "doc" [("owner", .string "alice")]] = .ok m ∧
      let timed := [(now, give "admin"), (now, give "read"), (now, give "read")]
      m.GrantsAll jobs timed (m.performAll timed) ∧
        (addedKeys (m.performAll timed).1).map EdgeKey.permission = ["admin", "read"] := by
  intro alice give jobs
  let now : Instant := ⟨⟨2024, 1, 1, by decide, by decide⟩, 0, 0, by decide, by decide, by decide⟩
  obtain ⟨users, m, husers, hm, hread, hadmin, hadded⟩ : ∃ users m,
      (Memory.ofSchema .standard).insertRows "User" [.new "alice", .new "bob"] = .ok users ∧
      users.insertRows "Resource" [.ofFields "doc" [("owner", .string "alice")]] = .ok m ∧
      (∃ key, m.Grants (give "read") key) ∧ (∃ key, m.Grants (give "admin") key) ∧
      (addedKeys (m.performAll [(now, give "admin"), (now, give "read"), (now, give "read")]).1).map
        EdgeKey.permission = ["admin", "read"] :=
    ⟨_, _, rfl, rfl, ⟨_, now, _, _, rfl, rfl⟩, ⟨_, now, _, _, rfl, rfl⟩, by decide +kernel⟩
  refine ⟨users, m, now, husers, hm, grantsAll_of_perm ?_ (.swap _ _ _), hadded⟩
  exact List.forall_mem_cons.2 ⟨hread, List.forall_mem_cons.2 ⟨hadmin,
    List.forall_mem_singleton.2 hread⟩⟩

end Warrant.Memory
