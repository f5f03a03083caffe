import Warrant.Proofs.Store.Rewriting

/-!
# Plans that are run twice

Whoever gets no answer cannot know whether a plan has been run, and runs it again. That does no harm:
what a plan has done once it does not do to anything else the second time. The second run may fail,
since the first one may have taken the authority away that it needed, or the rows; but whether it
fails or not, it leaves the store as the first one did. Only a permission that is given again bears
the later time.

## Main definitions

- `Graph.retime` — a graph one of whose permissions was given at another time

## Main statements

- `Row.setAll_setAll` — a row that has been written is not changed by writing it again
- `Graph.Step.eq_of_again`, `Graph.upsertEdge_again` — what an operation does the second time
- `Memory.perform_again` — a plan that is run twice
-/

namespace Warrant

/-! ## Rows -/

namespace Row

/-- A field has the value that was written last, or the one that it had. -/
theorem get?_setAll (row : Row) (values : List (String × Value)) {name : String}
    (hname : name ≠ idField) :
    (row.setAll values).get? name = (values.reverse.lookup name).or (row.get? name) := by
  induction values generalizing row with
  | nil => rfl
  | cons b rest ih =>
    obtain ⟨field, v⟩ := b
    refine (ih (row.set field v)).trans ?_
    rw [List.reverse_cons, List.lookup_append, Option.or_assoc, get?_set]
    by_cases h : field = name
    · simp [h, hname]
    · have hne : (name == field) = false := beq_false_of_ne (Ne.symm h)
      simp [List.lookup_cons, h, hne]

/-- **A row that has been written** is not changed by writing it again. -/
theorem setAll_setAll (row : Row) (values : List (String × Value)) :
    (row.setAll values).setAll values = row.setAll values := by
  have hfields : ((row.setAll values).setAll values).fields = (row.setAll values).fields := by
    refine SortedMap.ext_get? fun name => ?_
    by_cases hname : name = idField
    · subst hname
      exact get?_idField_setAll _ values
    · refine (get?_setAll _ values hname).trans ?_
      rw [get?_setAll row values hname, ← Option.or_assoc, Option.or_self]
      exact (get?_setAll row values hname).symm
  have hid : ((row.setAll values).setAll values).id = (row.setAll values).id := id_setAll _ values
  exact congrArg₂ Row.mk hid hfields

end Row

/-- Erasing a key once is enough. -/
theorem SortedMap.erase_erase {κ ν : Type} [Ord κ] [Std.TransOrd κ] [Std.LawfulEqOrd κ]
    (m : SortedMap κ ν) (k : κ) : (m.erase k).erase k = m.erase k := by
  refine ext_get? fun k' => ?_
  rw [get?_erase, get?_erase]
  exact ite_eq_right_iff.2 fun h => (if_pos h).symm

namespace Graph

variable {g g' g'' : Graph} {entity : String} {filter : Filter} {rows rows' : List Row}
  {values : List (String × Value)} {now later : Instant} {p : Node} {op : Operation}

/-! ## Rows of a graph -/

/-- Graphs with the same tables, the same rows and the same edges are equal. -/
theorem eq_of_rows (htables : ∀ name, g'.HasTable name ↔ g.HasTable name)
    (hrows : ∀ node, g'.row? node = g.row? node) (hedges : g'.edges = g.edges) : g' = g := by
  have hget (name : String) : g'.tables.get? name = g.tables.get? name := by
    have hname := htables name
    simp only [HasTable, table_eq_ok_iff, ← Option.isSome_iff_exists] at hname
    cases h : g.tables.get? name with
    | none => simpa [h] using hname
    | some t =>
      obtain ⟨t', h'⟩ := Option.isSome_iff_exists.1 (hname.2 (by rw [h]; rfl))
      rw [h', Option.some_inj]
      refine SortedMap.ext_get? fun id => ?_
      have hrow := hrows ⟨name, id⟩
      rwa [row?, row?, h, h', Option.bind_some, Option.bind_some] at hrow
  exact congrArg₂ Graph.mk (SortedMap.ext_get? hget) hedges

/-- A row that is the same in two graphs is found in both or in none. -/
theorem Keyed.mem_find_of_row?_eq (hg : g.Keyed) (hg' : g'.Keyed)
    (h : g.find entity filter = .ok rows) (h' : g'.find entity filter = .ok rows') {row : Row}
    (hsame : g.row? ⟨entity, row.id⟩ = g'.row? ⟨entity, row.id⟩) (hrow : row ∈ rows') :
    row ∈ rows := by
  cases hp : filter.pinnedId? with
  | none =>
    rw [hg'.mem_find_iff_of_unpinned hp h', ← hsame] at hrow
    exact (hg.mem_find_iff_of_unpinned hp h).2 hrow
  | some id =>
    rw [find_of_pinned hp h', Option.mem_toList] at hrow
    obtain rfl : row.id = id := hg' _ _ hrow
    rw [find_of_pinned hp h, hsame, Option.mem_toList]
    exact hrow

/-- **Rows that have been written are found again or not**, and no other rows are found: so to write
    the same fields of the rows that are found then makes no difference. -/
theorem Keyed.updateRows_again (hg : g.Keyed) (hg' : g'.Keyed)
    (hrows : g.find entity filter = .ok rows) (hwrite : updateRows entity values rows g = .ok g')
    (hrows' : g'.find entity filter = .ok rows')
    (hwrite' : updateRows entity values rows' g' = .ok g'') : g'' = g' := by
  refine eq_of_rows (fun name => hasTable_updateRows_iff hwrite') (fun node => ?_)
    (updateRows_eq_ok hwrite').1
  by_cases hnode : ∃ row ∈ rows', (⟨entity, row.id⟩ : Node) = node
  · obtain ⟨row', hrow', rfl⟩ := hnode
    have hfiled : g'.row? ⟨entity, row'.id⟩ = some row' := hg'.row?_of_mem_find hrows' hrow'
    -- A row that is found the second time has been found, and so written, the first time.
    obtain ⟨row, hrow, hid⟩ : ∃ row ∈ rows, row.id = row'.id := by
      by_contra hnone
      have hkept : g'.row? ⟨entity, row'.id⟩ = g.row? ⟨entity, row'.id⟩ :=
        row?_updateRows_of_not_mem hwrite fun row hrow heq =>
          hnone ⟨row, hrow, congrArg Node.id heq⟩
      exact hnone ⟨row', hg.mem_find_of_row?_eq hg' hrows hrows' hkept.symm hrow', rfl⟩
    have hwritten : row' = row.setAll values := by
      have honce := (updateRows_eq_ok hwrite).2 ⟨entity, row'.id⟩
      rw [hfiled, ← hid, hg.row?_of_mem_find hrows hrow,
        timesWritten_of_mem (hg.pairwise_find hrows) hrow] at honce
      exact Option.some.inj honce
    have hfixed : row'.setAll values = row' := by
      rw [hwritten, Row.setAll_setAll]
    rw [(updateRows_eq_ok hwrite').2, hfiled, Option.map_some, Function.iterate_fixed hfixed]
  · exact row?_updateRows_of_not_mem hwrite' fun row hrow heq => hnode ⟨row, hrow, heq⟩

/-- **A deletion leaves nothing that a second one would find.** -/
theorem Keyed.deleteRows_again (hg : g.Keyed) (hg' : g'.Keyed) {cascade : List CascadeRule}
    {report report' : DeleteReport} (h : g.deleteRows entity filter cascade = .ok (report, g'))
    (h' : g'.deleteRows entity filter cascade = .ok (report', g'')) : g'' = g' := by
  have hnone : g'.selectedIds entity filter = [] := by
    refine List.eq_nil_iff_forall_not_mem.2 fun id hid => ?_
    obtain ⟨row, hrow, hsel⟩ := hg'.mem_selectedIds_iff.1 hid
    rw [(deleteRows_eq_ok h).1] at hrow
    obtain ⟨hkept, hrow⟩ := Option.ite_none_left_eq_some.1 hrow
    exact hkept ⟨rfl, hg.mem_selectedIds_iff.2 ⟨row, hrow, hsel⟩⟩
  obtain ⟨hrows, hedges⟩ := deleteRows_eq_ok h'
  rw [hnone] at hrows hedges
  refine eq_of_rows (fun name => hasTable_deleteRows_iff h') (fun node => ?_)
    (SortedMap.ext_get? fun key => ?_)
  · rw [hrows node]
    exact if_neg fun hmem => nomatch hmem.2
  · rw [hedges key]
    cases g'.edges.get? key <;> rfl

/-! ## Permissions -/

theorem deleteEdge_again (g : Graph) (key : EdgeKey) :
    ((g.deleteEdge key).2.deleteEdge key).2 = (g.deleteEdge key).2 :=
  congrArg (Graph.mk g.tables) (g.edges.erase_erase key)

/-- **A graph one of whose permissions was given at another time.** -/
def retime (g : Graph) (key : EdgeKey) (time : Instant) : Graph :=
  { g with edges := g.edges.mapValues fun key' stamp =>
      if key' = key then { stamp with grantedAt := time } else stamp }

/-- A permission that is given again by the same principal bears the later time. -/
theorem upsertEdge_again (g : Graph) (now later : Instant) (p : Node) (key : EdgeKey) :
    ((g.upsertEdge (newEdge now p key)).2.upsertEdge (newEdge later p key)) =
      (false, (g.upsertEdge (newEdge now p key)).2.retime key later) := by
  refine Prod.ext ?_ (congrArg (Graph.mk g.tables) (SortedMap.ext_get? fun key' => ?_))
  · rw [upsertEdge_fst, findEdge_upsertEdge]
    simp [newEdge]
  · refine Eq.trans ?_ (SortedMap.get?_mapValues _ (alike _) key').symm
    by_cases h : key' = key
    · subst h
      simp [upsertEdge, newEdge]
    · simp [upsertEdge, newEdge, SortedMap.get?_insert, h]

/-- **What an operation does the second time**, unless it gives a permission: nothing. -/
theorem Step.eq_of_again (hg : g.Keyed) (h : Step now p g op g') (h' : Step later p g' op g'')
    (hop : op.verb ≠ .grant) : g'' = g' := by
  have hg' : g'.Keyed := h.keyed hg
  cases h with
  | get | check =>
    cases h'
    rfl
  | grant => exact absurd rfl hop
  | revoke hkey =>
    cases h' with
    | revoke hkey' =>
      obtain rfl := delegate_unique (tables_deleteEdge g _) hkey hkey'
      exact deleteEdge_again g _
  | update hrows _ hwrite =>
    cases h' with
    | update hrows' _ hwrite' => exact hg.updateRows_again hg' hrows hwrite hrows' hwrite'
  | delete _ hwrite =>
    cases h' with
    | delete _ hwrite' => exact hg.deleteRows_again hg' hwrite hwrite'

end Graph

/-! ## Plans -/

theorem Graph.grant_error_of_time {now : Instant} {p : Node} {access : Access} {g : Graph}
    {e : RunError} (h : grant now p access g = .error e) (later : Instant) :
    grant later p access g = .error e := by
  unfold grant at h ⊢
  cases hkey : g.delegate p .grant access with
  | error e' =>
    rw [hkey] at h
    exact h
  | ok key =>
    rw [hkey] at h
    cases h

/-- Failures do not hang on the time. -/
theorem Operation.effect_error_of_time {now : Instant} {p : Node} {m : Memory} {op : Operation}
    {e : RunError} (h : op.effect now p m = .error e) (later : Instant) :
    op.effect later p m = .error e := by
  cases op with
  | grant access =>
    rw [effect, Memory.transact] at h ⊢
    split
    · next hbusy => rwa [if_pos hbusy] at h
    · next hidle =>
      rw [if_neg hidle] at h
      exact Graph.grant_error_of_time h later
  | get | check | revoke | update | delete => exact h

theorem Plan.effect_error_of_time {now : Instant} {plan : Plan} {caller : Principal} {m : Memory}
    {e : RunError} (h : plan.effect now caller m = .error e) (later : Instant) :
    plan.effect later caller m = .error e := by
  unfold Plan.effect at h ⊢
  split
  · next hp => rwa [if_pos hp] at h
  · next hp =>
    rw [if_neg hp] at h
    exact Operation.effect_error_of_time h later

namespace Memory

variable {m : Memory} {job : Job} {now later : Instant}

/-- A plan that has given a permission gives it again, and says that it was there. -/
theorem perform_granted_again {edge : Edge} {created : Bool} {g : Graph}
    (h : job.plan.effect now job.caller m = .ok (.granted edge created, g)) :
    (⟨g, m.busy⟩ : Memory).perform later job =
      (.ok (.granted { edge with stamp := { edge.stamp with grantedAt := later } } false),
        ⟨g.retime edge.key later, m.busy⟩) := by
  obtain ⟨hp, hidle, access, key, hop, hkey, rfl, hg⟩ := Plan.effect_eq_granted_iff.1 h
  obtain ⟨rfl, rfl⟩ := Prod.mk.inj hg
  -- The permission that was added takes no authority away.
  have hkey' := Graph.delegate_of_more_edges
    (m.published.tables_upsertEdge (Graph.newEdge now job.caller.node key)) (fun key' hkey' => by
      rw [Graph.findEdge_upsertEdge]
      split
      · rfl
      · exact hkey') hkey
  refine perform_of_ok (Plan.effect_eq_granted_iff.2
    ⟨hp, hidle, access, key, hop, hkey', rfl, ?_⟩)
  exact (m.published.upsertEdge_again now later job.caller.node key).symm

/-- A plan that has done something else does nothing the second time, though it may fail. -/
theorem perform_ok_again (hm : m.published.Keyed) {o : Outcome} {g : Graph}
    (h : job.plan.effect now job.caller m = .ok (o, g))
    (ho : ∀ edge created, o ≠ .granted edge created) :
    ((⟨g, m.busy⟩ : Memory).perform later job).2 = ⟨g, m.busy⟩ := by
  have hop := (Plan.effect_eq_ok_iff.1 h).2
  have hverb : job.plan.operation.verb ≠ .grant := by
    rw [← Operation.verb_of_effect hop]
    cases o with
    | granted edge created => exact absurd rfl (ho edge created)
    | _ => exact nofun
  cases hagain : job.plan.effect later job.caller ⟨g, m.busy⟩ with
  | error e => rw [perform_of_error hagain]
  | ok r =>
    obtain ⟨o', g'⟩ := r
    have hop' := (Plan.effect_eq_ok_iff.1 hagain).2
    obtain rfl : g' = g :=
      (Operation.step_of_effect hop).eq_of_again hm (Operation.step_of_effect hop') hverb
    rw [perform_of_ok hagain]

/-- **A plan that is run twice** leaves the store as it left it the first time, whether it is the
    plan of a statement or not, and whether the second run succeeds or not. Only a permission that it
    gives bears the time of the second run, which succeeds and says that the permission was there.
    Every store files its rows under their identities; nothing else is assumed of it. -/
theorem perform_again (hm : m.published.Keyed) (job : Job) (now later : Instant) :
    let first := m.perform now job
    let again := first.2.perform later job
    (∀ edge created, first.1 = .ok (.granted edge created) →
      again.1 = .ok (.granted ⟨edge.key, ⟨later, edge.stamp.grantedBy⟩⟩ false) ∧
      again.2 = { first.2 with published := first.2.published.retime edge.key later }) ∧
    ((∀ edge created, first.1 ≠ .ok (.granted edge created)) → again.2 = first.2) := by
  intro first again
  -- A failure is no matter of time, so it comes again. A success is repeated on what it left.
  cases hfirst : job.plan.effect now job.caller m with
  | error e =>
    have hf : first = (.error e, m) := perform_of_error hfirst
    have ha : again = (.error e, m) := by
      show first.2.perform later job = (.error e, m)
      rw [hf]
      exact perform_of_error (Plan.effect_error_of_time hfirst later)
    rw [hf, ha]
    exact ⟨fun _ _ ho => (nomatch ho), fun _ => rfl⟩
  | ok r =>
    obtain ⟨o, g⟩ := r
    have hf : first = (.ok o, { m with published := g }) := perform_of_ok hfirst
    have ha : again = (⟨g, m.busy⟩ : Memory).perform later job := by
      show first.2.perform later job = _
      rw [hf]
    rw [hf, ha]
    refine ⟨fun edge created ho => ?_, fun ho => ?_⟩
    · obtain rfl := Except.ok.inj ho
      rw [perform_granted_again hfirst]
      exact ⟨rfl, rfl⟩
    · refine perform_ok_again hm hfirst fun edge created heq => ?_
      exact ho edge created (congrArg Except.ok heq)

/-- alice gives her document away. She may not do so again, and nothing happens when she tries. -/
theorem perform_again_refused :
    let alice : Principal := ⟨"User", "alice"⟩
    let job : Job := ⟨alice, ⟨0, alice, .update ⟨"Resource", .hasId "doc"⟩
      [⟨"owner", .string "bob", .string⟩] (some "owner")⟩⟩
    ∃ (m : Memory) (now later : Instant),
      (Memory.ofSchema .standard).insertRows "Resource"
        [.ofFields "doc" [("owner", .string "alice")]] = .ok m ∧
      let first := m.perform now job
      let again := first.2.perform later job
      first.1 = .ok (.updated "Resource" 1) ∧
        again.1 = .error (.forbidden alice.node .update ⟨"Resource", "doc"⟩) ∧
        again.2 = first.2 := by
  intro alice job
  let now : Instant := ⟨⟨2024, 1, 1, by decide, by decide⟩, 0, 0, by decide, by decide, by decide⟩
  let later : Instant := ⟨⟨2024, 1, 2, by decide, by decide⟩, 0, 0, by decide, by decide, by decide⟩
  obtain ⟨m, hm, hfirst, hagain⟩ : ∃ m,
      (Memory.ofSchema .standard).insertRows "Resource"
        [.ofFields "doc" [("owner", .string "alice")]] = .ok m ∧
      (m.perform now job).1 = .ok (.updated "Resource" 1) ∧
      ((m.perform now job).2.perform later job).1 =
        .error (.forbidden alice.node .update ⟨"Resource", "doc"⟩) :=
    ⟨_, rfl, by rfl, by rfl⟩
  have hkeyed : m.published.Keyed :=
    (Graph.faithful_ofSchema .standard).keyed.insertRows (insertRows_eq_ok hm)
  refine ⟨m, now, later, hm, hfirst, hagain, ?_⟩
  refine (perform_again hkeyed job now later).2 fun edge created heq => ?_
  exact nomatch hfirst.symm.trans heq

end Memory

end Warrant
