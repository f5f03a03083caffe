import Warrant.Proofs.Bytes.Accepting
import Warrant.Proofs.Plan.Damage

/-!
# Which envelopes are accepted

Whatever is accepted as an envelope is a frame, and its payload starts with a spelling of the plan
that is read. A plan is spelled like its payload is written, part by part, except that a timestamp
may be given by any text that is read as it: by `+00:00` in place of `Z`, with other digits after the
seconds, and so on. So an envelope whose timestamps are spelled as they are written, and whose
payload ends with the plan, is the envelope of the plan.

## Main definitions

- `Instant.written`, `Instant.readings` — the ways to spell a timestamp
- `Plan.spellings` — the ways to spell a plan

## Main statements

- `Plan.Payload.accepts_plan` — what is read as a plan is a spelling of it
- `Plan.decode_exact` — which envelopes are accepted
-/

namespace Warrant

open Bytes (listSpellings optionSpellings singleton_mul_singleton)

/-! ## Spellings -/

/-- The one spelling of a timestamp that is written. -/
def Instant.written (t : Instant) : Language UInt8 :=
  {Bytes.string (t.write .asNeeded)}

/-- The spellings of a timestamp that are read. -/
def Instant.readings (t : Instant) : Language UInt8 :=
  {bytes | ∃ s, readRelaxed? s = some t ∧ bytes = Bytes.string s}

section

variable (texts : Instant → Language UInt8)

/-- A value is spelled as it is written, a timestamp by any of its texts. -/
def Value.spellings : Value → Language UInt8
  | .timestamp t => {Bytes.word 5} * texts t
  | v => {v.payload}

mutual

def Filter.spellings : Filter → Language UInt8
  | .all => {Bytes.word 0}
  | .compare field how value =>
    {Bytes.word 1 ++ Bytes.string field ++ Bytes.word how.index} * value.spellings texts
  | .every parts => {Bytes.word 2 ++ Bytes.long parts.length} * Filter.allSpellings parts
  | .any parts => {Bytes.word 3 ++ Bytes.long parts.length} * Filter.allSpellings parts

def Filter.allSpellings : List Filter → Language UInt8
  | [] => 1
  | f :: rest => Filter.spellings f * Filter.allSpellings rest

end

def Target.spellings (t : Target) : Language UInt8 :=
  {Bytes.string t.entity} * t.filter.spellings texts

def Access.spellings (a : Access) : Language UInt8 :=
  a.subject.spellings texts * {Bytes.string a.permission} * a.resource.spellings texts *
    {Bytes.string a.ownerField}

def Assignment.spellings (a : Assignment) : Language UInt8 :=
  {Bytes.string a.field} * a.value.spellings texts * {Bytes.word a.fieldType.index}

def Operation.spellings : Operation → Language UInt8
  | .get target projection =>
    {Bytes.word 0} * target.spellings texts * {Bytes.list Bytes.string projection}
  | .check access => {Bytes.word 1} * access.spellings texts
  | .grant access => {Bytes.word 2} * access.spellings texts
  | .revoke access => {Bytes.word 3} * access.spellings texts
  | .update target assignments ownerField =>
    {Bytes.word 4} * target.spellings texts *
      listSpellings (Assignment.spellings texts) assignments *
      {Bytes.option Bytes.string ownerField}
  | .delete target kind ownerField =>
    {Bytes.word 5} * target.spellings texts * {Bytes.word kind.index} *
      {Bytes.option Bytes.string ownerField}

/-- **The ways to spell a plan.** -/
def Plan.spellings (p : Plan) : Language UInt8 :=
  {Bytes.word p.schemaVersion.toNat} * {Bytes.string p.principal.entity} *
    {Bytes.string p.principal.id} * p.operation.spellings texts

end

namespace Filter

variable (texts : Instant → Language UInt8)

theorem allSpellings_eq_prod (parts : List Filter) :
    allSpellings texts parts = (parts.map (spellings texts)).prod := by
  induction parts with
  | nil => rw [allSpellings]; rfl
  | cons f rest ih => rw [allSpellings, ih, List.map_cons, List.prod_cons]

theorem spellings_every (parts : List Filter) :
    spellings texts (.every parts) = {Bytes.word 2} * listSpellings (spellings texts) parts := by
  rw [spellings, allSpellings_eq_prod, listSpellings, ← mul_assoc, singleton_mul_singleton]

theorem spellings_any (parts : List Filter) :
    spellings texts (.any parts) = {Bytes.word 3} * listSpellings (spellings texts) parts := by
  rw [spellings, allSpellings_eq_prod, listSpellings, ← mul_assoc, singleton_mul_singleton]

end Filter

/-! ## One spelling -/

theorem Value.spellings_written (v : Value) : v.spellings Instant.written = {v.payload} := by
  cases v with
  | timestamp t => rw [spellings, Instant.written, singleton_mul_singleton, payload]
  | null | boolean | integer | float | string => rfl

mutual

theorem Filter.spellings_written : ∀ f : Filter, f.spellings Instant.written = {f.payload}
  | .all => by rw [spellings, payload]
  | .compare field how value => by
    rw [spellings, Value.spellings_written, singleton_mul_singleton, payload]
  | .every parts => by
    rw [spellings, Filter.allSpellings_written parts, singleton_mul_singleton, payload]
  | .any parts => by
    rw [spellings, Filter.allSpellings_written parts, singleton_mul_singleton, payload]

theorem Filter.allSpellings_written :
    ∀ parts : List Filter, Filter.allSpellings Instant.written parts = {Filter.payloads parts}
  | [] => by rw [allSpellings, payloads]; rfl
  | f :: rest => by
    rw [allSpellings, Filter.spellings_written f, Filter.allSpellings_written rest,
      singleton_mul_singleton, payloads]

end

theorem Target.spellings_written (t : Target) : t.spellings Instant.written = {t.payload} := by
  rw [spellings, Filter.spellings_written, singleton_mul_singleton, payload]

theorem Access.spellings_written (a : Access) : a.spellings Instant.written = {a.payload} := by
  simp only [spellings, Target.spellings_written, singleton_mul_singleton, payload]

theorem Assignment.spellings_written (a : Assignment) :
    a.spellings Instant.written = {a.payload} := by
  simp only [spellings, Value.spellings_written, singleton_mul_singleton, payload]

theorem Operation.spellings_written (o : Operation) :
    o.spellings Instant.written = {o.payload} := by
  have hassignment : Assignment.spellings Instant.written = fun a => {a.payload} :=
    funext Assignment.spellings_written
  cases o <;> simp only [spellings, Target.spellings_written, Access.spellings_written,
    hassignment, Bytes.listSpellings_singleton, singleton_mul_singleton, payload]

/-- **A plan whose timestamps are spelled as they are written** is spelled as it is written. -/
theorem Plan.spellings_written (p : Plan) : p.spellings Instant.written = {p.payload} := by
  simp only [spellings, Operation.spellings_written, singleton_mul_singleton, payload]

/-! ## What is read -/

namespace Plan.Payload

open Bytes Bytes.Reader

/-- An alternative is spelled by its number. -/
theorem accepts_choice {α : Type} {alternatives : List α} {index : α → Nat}
    (hnodup : alternatives.Nodup) (hindex : ∀ a, alternatives[index a]? = some a) :
    (choice alternatives).Accepts fun a => {Bytes.word (index a)} := by
  intro xs a rest hyields
  obtain ⟨n, mid, hword, hend⟩ := yields_bind_iff.1 hyields
  obtain ⟨rfl, -⟩ := yields_word hword
  split at hend
  · next a' ha =>
    obtain ⟨rfl, rfl⟩ := yields_pure_iff.1 hend
    obtain ⟨hlt, -⟩ := List.getElem?_eq_some_iff.1 ha
    rw [(List.getElem?_inj hlt hnodup).1 (ha.trans (hindex a).symm)]
    exact ⟨_, rfl, rfl⟩
  · exact absurd hend not_yields_failure

theorem accepts_timestamp : timestamp.Accepts Instant.readings := by
  intro xs t rest h
  obtain ⟨s, mid, hstring, hend⟩ := yields_bind_iff.1 h
  obtain ⟨_, rfl, rfl⟩ := accepts_string _ _ _ hstring
  split at hend
  · next t' ht =>
    obtain ⟨rfl, rfl⟩ := yields_pure_iff.1 hend
    exact ⟨_, ⟨s, ht, rfl⟩, rfl⟩
  · exact absurd hend not_yields_failure

theorem accepts_value : value.Accepts (Value.spellings Instant.readings) := by
  intro xs v rest hyields
  obtain ⟨n, mid, hword, h⟩ := yields_bind_iff.1 hyields
  obtain ⟨rfl, -⟩ := yields_word hword
  split at h
  · obtain ⟨rfl, rfl⟩ := yields_pure_iff.1 h
    exact ⟨_, rfl, rfl⟩
  · obtain ⟨b, hb, rfl⟩ := yields_map_iff.1 h
    obtain ⟨_, rfl, rfl⟩ := accepts_bool _ _ _ hb
    exact ⟨_, rfl, (List.append_assoc ..).symm⟩
  · obtain ⟨i, hi, rfl⟩ := yields_map_iff.1 h
    obtain ⟨rfl, hlt⟩ := yields_long hi
    have hlong : (UInt64.ofNat i).toInt64.toUInt64.toNat = i := UInt64.toNat_ofNat_of_lt' hlt
    refine ⟨_, rfl, ?_⟩
    rw [Value.payload, hlong, List.append_assoc]
  · obtain ⟨bits, hbits, rfl⟩ := yields_map_iff.1 h
    obtain ⟨rfl, hlt⟩ := yields_long hbits
    have hlong : (UInt64.ofNat bits).toNat = bits := UInt64.toNat_ofNat_of_lt' hlt
    refine ⟨_, rfl, ?_⟩
    rw [Value.payload, hlong, List.append_assoc]
  · obtain ⟨s, hs, rfl⟩ := yields_map_iff.1 h
    obtain ⟨_, rfl, rfl⟩ := accepts_string _ _ _ hs
    exact ⟨_, rfl, (List.append_assoc ..).symm⟩
  · obtain ⟨t, ht, rfl⟩ := yields_map_iff.1 h
    obtain ⟨x, hx, rfl⟩ := accepts_timestamp _ _ _ ht
    exact ⟨_, Language.append_mem_mul (mem_singleton_self _) hx, (List.append_assoc ..).symm⟩
  · exact absurd h not_yields_failure

/-- A filter is spelled whatever the bound. The induction is on the bound, which is one less for the
    parts of a filter. -/
theorem accepts_filter (bound : Nat) :
    (filter bound).Accepts (Filter.spellings Instant.readings) := by
  induction bound with
  | zero => exact fun xs f rest h => absurd h not_yields_failure
  | succ bound ih =>
    intro xs f rest hyields
    obtain ⟨n, mid, hword, h⟩ := yields_bind_iff.1 hyields
    obtain ⟨rfl, -⟩ := yields_word hword
    split at h
    · obtain ⟨rfl, rfl⟩ := yields_pure_iff.1 h
      rw [Filter.spellings]
      exact ⟨_, rfl, rfl⟩
    · obtain ⟨field, mid₁, hfield, h⟩ := yields_bind_iff.1 h
      obtain ⟨how, mid₂, hhow, h⟩ := yields_bind_iff.1 h
      obtain ⟨v, hv, rfl⟩ := yields_map_iff.1 h
      obtain ⟨_, rfl, rfl⟩ := accepts_string _ _ _ hfield
      obtain ⟨_, rfl, rfl⟩ := accepts_choice (by decide) getElem?_comparison _ _ _ hhow
      obtain ⟨x, hx, rfl⟩ := accepts_value _ _ _ hv
      rw [Filter.spellings]
      refine ⟨_, Language.append_mem_mul (mem_singleton_self _) hx, ?_⟩
      simp only [List.append_assoc]
    · obtain ⟨parts, hparts, rfl⟩ := yields_map_iff.1 h
      obtain ⟨x, hx, rfl⟩ := accepts_list ih _ _ _ hparts
      rw [Filter.spellings_every]
      exact ⟨_, Language.append_mem_mul (mem_singleton_self _) hx, (List.append_assoc ..).symm⟩
    · obtain ⟨parts, hparts, rfl⟩ := yields_map_iff.1 h
      obtain ⟨x, hx, rfl⟩ := accepts_list ih _ _ _ hparts
      rw [Filter.spellings_any]
      exact ⟨_, Language.append_mem_mul (mem_singleton_self _) hx, (List.append_assoc ..).symm⟩
    · exact absurd h not_yields_failure

theorem accepts_target : target.Accepts (Target.spellings Instant.readings) := by
  intro xs t rest h
  obtain ⟨entity, mid, hentity, hfilter⟩ := yields_bind_iff.1 h
  rw [yields_get_bind_iff] at hfilter
  obtain ⟨f, hf, rfl⟩ := yields_map_iff.1 hfilter
  obtain ⟨_, rfl, rfl⟩ := accepts_string _ _ _ hentity
  obtain ⟨x, hx, rfl⟩ := accepts_filter _ _ _ _ hf
  exact ⟨_, Language.append_mem_mul (mem_singleton_self _) hx, (List.append_assoc ..).symm⟩

theorem accepts_access : access.Accepts (Access.spellings Instant.readings) := by
  intro xs a rest h
  obtain ⟨subject, mid, hsubject, h⟩ := yields_bind_iff.1 h
  obtain ⟨permission, mid₁, hpermission, h⟩ := yields_bind_iff.1 h
  obtain ⟨resource, mid₂, hresource, h⟩ := yields_bind_iff.1 h
  obtain ⟨owner, howner, rfl⟩ := yields_map_iff.1 h
  obtain ⟨x, hx, rfl⟩ := accepts_target _ _ _ hsubject
  obtain ⟨_, rfl, rfl⟩ := accepts_string _ _ _ hpermission
  obtain ⟨y, hy, rfl⟩ := accepts_target _ _ _ hresource
  obtain ⟨_, rfl, rfl⟩ := accepts_string _ _ _ howner
  refine ⟨_, Language.append_mem_mul (Language.append_mem_mul (Language.append_mem_mul hx
    (mem_singleton_self _)) hy) (mem_singleton_self _), ?_⟩
  simp only [List.append_assoc]

theorem accepts_assignment : assignment.Accepts (Assignment.spellings Instant.readings) := by
  intro xs a rest h
  obtain ⟨field, mid, hfield, h⟩ := yields_bind_iff.1 h
  obtain ⟨v, mid₁, hv, h⟩ := yields_bind_iff.1 h
  obtain ⟨type, htype, rfl⟩ := yields_map_iff.1 h
  obtain ⟨_, rfl, rfl⟩ := accepts_string _ _ _ hfield
  obtain ⟨x, hx, rfl⟩ := accepts_value _ _ _ hv
  obtain ⟨_, rfl, rfl⟩ := accepts_choice (by decide) getElem?_fieldType _ _ _ htype
  refine ⟨_, Language.append_mem_mul (Language.append_mem_mul (mem_singleton_self _) hx)
    (mem_singleton_self _), ?_⟩
  simp only [List.append_assoc]

theorem accepts_names :
    (Reader.list Reader.string).Accepts fun names => {Bytes.list Bytes.string names} := by
  have h := accepts_list accepts_string
  rwa [funext (Bytes.listSpellings_singleton Bytes.string)] at h

theorem accepts_owner :
    (Reader.option Reader.string).Accepts fun owner => {Bytes.option Bytes.string owner} := by
  have h := accepts_option accepts_string
  rwa [funext (Bytes.optionSpellings_singleton Bytes.string)] at h

theorem accepts_operation : operation.Accepts (Operation.spellings Instant.readings) := by
  intro xs o rest hyields
  obtain ⟨n, mid, hword, h⟩ := yields_bind_iff.1 hyields
  obtain ⟨rfl, -⟩ := yields_word hword
  -- The number of the operation decides what is read after it.
  split at h
  · obtain ⟨target, mid', htarget, h⟩ := yields_bind_iff.1 h
    obtain ⟨names, hnames, rfl⟩ := yields_map_iff.1 h
    obtain ⟨x, hx, rfl⟩ := accepts_target _ _ _ htarget
    obtain ⟨_, rfl, rfl⟩ := accepts_names _ _ _ hnames
    refine ⟨_, Language.append_mem_mul (Language.append_mem_mul (mem_singleton_self _) hx)
      (mem_singleton_self _), ?_⟩
    simp only [List.append_assoc]
  · obtain ⟨access, haccess, rfl⟩ := yields_map_iff.1 h
    obtain ⟨x, hx, rfl⟩ := accepts_access _ _ _ haccess
    exact ⟨_, Language.append_mem_mul (mem_singleton_self _) hx, (List.append_assoc ..).symm⟩
  · obtain ⟨access, haccess, rfl⟩ := yields_map_iff.1 h
    obtain ⟨x, hx, rfl⟩ := accepts_access _ _ _ haccess
    exact ⟨_, Language.append_mem_mul (mem_singleton_self _) hx, (List.append_assoc ..).symm⟩
  · obtain ⟨access, haccess, rfl⟩ := yields_map_iff.1 h
    obtain ⟨x, hx, rfl⟩ := accepts_access _ _ _ haccess
    exact ⟨_, Language.append_mem_mul (mem_singleton_self _) hx, (List.append_assoc ..).symm⟩
  · obtain ⟨target, mid', htarget, h⟩ := yields_bind_iff.1 h
    obtain ⟨assignments, mid₁, hassignments, h⟩ := yields_bind_iff.1 h
    obtain ⟨owner, howner, rfl⟩ := yields_map_iff.1 h
    obtain ⟨x, hx, rfl⟩ := accepts_target _ _ _ htarget
    obtain ⟨y, hy, rfl⟩ := accepts_list accepts_assignment _ _ _ hassignments
    obtain ⟨_, rfl, rfl⟩ := accepts_owner _ _ _ howner
    refine ⟨_, Language.append_mem_mul (Language.append_mem_mul (Language.append_mem_mul
      (mem_singleton_self _) hx) hy) (mem_singleton_self _), ?_⟩
    simp only [List.append_assoc]
  · obtain ⟨target, mid', htarget, h⟩ := yields_bind_iff.1 h
    obtain ⟨kind, mid₁, hkind, h⟩ := yields_bind_iff.1 h
    obtain ⟨owner, howner, rfl⟩ := yields_map_iff.1 h
    obtain ⟨x, hx, rfl⟩ := accepts_target _ _ _ htarget
    obtain ⟨_, rfl, rfl⟩ := accepts_choice (by decide) getElem?_entityKind _ _ _ hkind
    obtain ⟨_, rfl, rfl⟩ := accepts_owner _ _ _ howner
    refine ⟨_, Language.append_mem_mul (Language.append_mem_mul (Language.append_mem_mul
      (mem_singleton_self _) hx) (mem_singleton_self _)) (mem_singleton_self _), ?_⟩
    simp only [List.append_assoc]
  · exact absurd h not_yields_failure

/-- **What is read as a plan is a spelling of it.** -/
theorem accepts_plan : plan.Accepts (Plan.spellings Instant.readings) := by
  intro xs p rest h
  obtain ⟨version, mid, hversion, h⟩ := yields_bind_iff.1 h
  obtain ⟨entity, mid₁, hentity, h⟩ := yields_bind_iff.1 h
  obtain ⟨id, mid₂, hid, h⟩ := yields_bind_iff.1 h
  obtain ⟨o, ho, rfl⟩ := yields_map_iff.1 h
  obtain ⟨rfl, hlt⟩ := yields_word hversion
  obtain ⟨_, rfl, rfl⟩ := accepts_string _ _ _ hentity
  obtain ⟨_, rfl, rfl⟩ := accepts_string _ _ _ hid
  obtain ⟨x, hx, rfl⟩ := accepts_operation _ _ _ ho
  refine ⟨_, Language.append_mem_mul (Language.append_mem_mul (Language.append_mem_mul
    (mem_singleton_self _) (mem_singleton_self _)) (mem_singleton_self _)) hx, ?_⟩
  have hword : (UInt32.ofNat version).toNat = version := UInt32.toNat_ofNat_of_lt' hlt
  simp only [hword, List.append_assoc]

end Plan.Payload

namespace Plan

/-- **Which envelopes are accepted.** What is accepted is a frame, and its payload starts with a
    spelling of the plan. If the payload ends there, and the timestamps are spelled as they are
    written, it is the envelope of the plan. -/
theorem decode_exact {bytes : List UInt8} {p : Plan} (h : decode bytes = .ok p) :
    ∃ body rest, bytes = frame (body ++ rest) ∧ (body ++ rest).length < 2 ^ 32 ∧
      body ∈ p.spellings Instant.readings ∧
      (rest = [] → body ∈ p.spellings Instant.written → p.encode = .ok bytes) := by
  obtain ⟨payload, rfl, hlt⟩ := exists_frame_of_decode h
  rw [decode_frame hlt] at h
  cases hplan : Payload.plan payload with
  | none =>
    rw [hplan] at h
    exact nomatch h
  | some read =>
    obtain ⟨q, rest⟩ := read
    rw [hplan] at h
    obtain rfl : q = p := Except.ok.inj h
    obtain ⟨body, hbody, rfl⟩ := Payload.accepts_plan _ _ _ hplan
    refine ⟨body, rest, rfl, hlt, hbody, fun hrest hwritten => ?_⟩
    rw [spellings_written] at hwritten
    obtain rfl : body = q.payload := hwritten
    subst hrest
    rw [List.append_nil] at hlt ⊢
    exact if_pos hlt

/-- The plan that gets the users who were created at a time. -/
def createdOn (t : Instant) : Plan :=
  ⟨0, ⟨"User", "alice"⟩, .get ⟨"User", .compare "created_at" .equal (.timestamp t)⟩ []⟩

/-- The payload of such a plan, in which the time is given by a text. -/
def createdAt (text : String) : List UInt8 :=
  Bytes.word 0 ++ Bytes.string "User" ++ Bytes.string "alice" ++
    (Bytes.word 0 ++ (Bytes.string "User" ++ (Bytes.word 1 ++ Bytes.string "created_at" ++
      Bytes.word 0 ++ (Bytes.word 5 ++ Bytes.string text))) ++ Bytes.list Bytes.string [])

/-- The spellings of such a plan differ in the text of the time. -/
theorem exists_text_of_mem_spellings {t : Instant} {body : List UInt8}
    (h : body ∈ (createdOn t).spellings Instant.readings) : ∃ text, body = createdAt text := by
  simp only [createdOn, spellings, Operation.spellings, Target.spellings, Filter.spellings,
    Value.spellings, singleton_mul_singleton, ← mul_assoc] at h
  obtain ⟨_, ⟨_, rfl, _, ⟨text, -, rfl⟩, rfl⟩, _, rfl, rfl⟩ := h
  refine ⟨text, ?_⟩
  simp only [createdAt, List.append_assoc]
  rfl

/-- No such payload goes on as another one, since the length of the text stands before it. -/
theorem eq_nil_of_createdAt {text text' : String} {rest : List UInt8}
    (hlt : (createdAt text').length < 2 ^ 64) (h : createdAt text' = createdAt text ++ rest) :
    rest = [] := by
  have hlength := congrArg List.length h
  simp only [createdAt, List.length_append] at hlt hlength
  simp only [createdAt, List.append_assoc, List.append_cancel_left_eq] at h
  have hread : Bytes.Reader.string _ = some (text, Bytes.list Bytes.string [] ++ rest) :=
    Bytes.consumes_string (by omega) _
  have hread' : Bytes.Reader.string _ = some (text', Bytes.list Bytes.string []) :=
    Bytes.consumes_string (by omega) _
  rw [← h, hread', Option.some.injEq, Prod.mk.injEq] at hread
  exact List.self_eq_append_right.1 hread.2

/-- The end of a time may be spelled in another way than it is written. If it is not, the envelope is
    the one of the plan. -/
theorem decode_exact_offset :
    (∃ bytes p, decode bytes = .ok p ∧ bytes = frame (createdAt "2024-01-01T00:00:00+00:00") ∧
      ∃ body rest, bytes = frame (body ++ rest) ∧ body ∈ p.spellings Instant.readings) ∧
    ∃ bytes p, decode bytes = .ok p ∧ bytes = frame (createdAt "2024-01-01T00:00:00Z") ∧
      p.encode = .ok bytes := by
  constructor
  · let payload := createdAt "2024-01-01T00:00:00+00:00"
    have hread : (Payload.plan payload).isSome = true := by decide +kernel
    obtain ⟨⟨p, rest⟩, hplan⟩ := Option.isSome_iff_exists.1 hread
    have hdecode : decode (frame payload) = .ok p := by
      rw [decode_frame (by decide +kernel), hplan, Option.elim_some]
    obtain ⟨body, rest, hbytes, -, hbody, -⟩ := decode_exact hdecode
    exact ⟨_, p, hdecode, rfl, body, rest, hbytes, hbody⟩
  · let t : Instant := ⟨⟨2024, 1, 1, by decide, by decide⟩, 0, 0, by decide, by decide, by decide⟩
    let p := createdOn t
    have hpayload : p.payload = createdAt "2024-01-01T00:00:00Z" := by decide +kernel
    have hlt : p.payload.length < 2 ^ 32 := by decide +kernel
    have hplan : Payload.plan (p.payload ++ []) = some (p, []) :=
      Payload.consumes_plan (Nat.lt_trans hlt (by decide)) []
    have hdecode : decode (frame p.payload) = .ok p := by
      rw [List.append_nil] at hplan
      rw [decode_frame hlt, hplan, Option.elim_some]
    obtain ⟨body, rest, hbytes, -, hbody, hencode⟩ := decode_exact hdecode
    obtain ⟨text, rfl⟩ := exists_text_of_mem_spellings hbody
    -- The payload ends with the plan, so what has been read of it is what is written.
    have hsplit := frame_inj hbytes
    have hrest : rest = [] :=
      eq_nil_of_createdAt (hpayload ▸ Nat.lt_trans hlt (by decide)) (hpayload ▸ hsplit)
    refine ⟨frame p.payload, p, hdecode, congrArg frame hpayload, hencode hrest ?_⟩
    rw [hrest, List.append_nil] at hsplit
    rw [spellings_written, ← hsplit]
    exact Bytes.mem_singleton_self _

/-- An envelope with a payload of another length than the payload of its plan is not the envelope of
    the plan. -/
theorem decode_of_length_ne {payload : List UInt8} (hlt : payload.length < 2 ^ 32)
    (h : (Payload.plan payload).any fun r => r.1.payload.length ≠ payload.length) :
    ∃ p, decode (frame payload) = .ok p ∧ p.encode ≠ .ok (frame payload) := by
  obtain ⟨⟨p, rest⟩, hplan, hlength⟩ := (Option.any_eq_true _ _).1 h
  refine ⟨p, by rw [decode_frame hlt, hplan, Option.elim_some], fun hencode => ?_⟩
  have hframes := congrArg List.length (encode_eq_ok hencode).1
  rw [length_frame, length_frame] at hframes
  have hne : p.payload.length ≠ payload.length := of_decide_eq_true hlength
  omega

/-- Not every envelope that is accepted is the envelope of a plan: the end of a time may be spelled in
    another way, and the payload may go on after the plan. -/
theorem decode_of_other_bytes :
    (∃ p, decode (frame (createdAt "2024-01-01T00:00:00+00:00")) = .ok p ∧
      p.encode ≠ .ok (frame (createdAt "2024-01-01T00:00:00+00:00"))) ∧
    ∃ p, decode (frame (createdAt "2024-01-01T00:00:00Z" ++ [0])) = .ok p ∧
      p.encode ≠ .ok (frame (createdAt "2024-01-01T00:00:00Z" ++ [0])) :=
  ⟨decode_of_length_ne (by decide +kernel) (by decide +kernel),
    decode_of_length_ne (by decide +kernel) (by decide +kernel)⟩

end Plan

end Warrant
