import Warrant.Plan.Envelope
import Warrant.Proofs.Instant.RoundTrip

/-!
# Envelopes are read as they are written

The bytes of every part of a plan are used up by the reader of the part, at every level of nesting.
The lengths that are written are those of parts of the payload, so they fit into 64 bits when the
payload does. The envelope only adds a frame, and the frame is checked before the payload is read.

## Main definitions

- `Plan.frame` — a payload in an envelope

## Main statements

- `Plan.Payload.consumes_value`, `Plan.Payload.consumes_filter`,
  `Plan.Payload.consumes_operation` — the parts of a plan
- `Plan.decode_encode` — plans and their envelopes
-/

namespace Warrant

open Bytes

/-! ## The bytes of filters -/

namespace Filter

theorem payloads_eq_flatMap (parts : List Filter) :
    payloads parts = parts.flatMap payload := by
  induction parts with
  | nil => rfl
  | cons f rest ih => rw [payloads, ih, List.flatMap_cons]

theorem payload_every (parts : List Filter) :
    payload (.every parts) = word 2 ++ Bytes.list payload parts := by
  rw [payload, payloads_eq_flatMap, List.append_assoc, Bytes.list]

theorem payload_any (parts : List Filter) :
    payload (.any parts) = word 3 ++ Bytes.list payload parts := by
  rw [payload, payloads_eq_flatMap, List.append_assoc, Bytes.list]

theorem payload_ne_nil (f : Filter) : f.payload ≠ [] := by
  have hword : ∀ (n : Nat) (cs : List UInt8), word n ++ cs ≠ [] := fun n cs =>
    List.append_ne_nil_of_left_ne_nil (List.ne_nil_of_length_pos (by simp)) cs
  cases f with
  | all => exact List.ne_nil_of_length_pos (by simp [payload])
  | compare field how value =>
    rw [payload, List.append_assoc, List.append_assoc]
    exact hword 1 _
  | every parts =>
    rw [payload_every]
    exact hword 2 _
  | any parts =>
    rw [payload_any]
    exact hword 3 _

end Filter

/-! ## The parts of plans -/

namespace Plan.Payload

theorem getElem?_comparison (how : Comparison) :
    [Comparison.equal, Comparison.different][how.index]? = some how := by
  cases how <;> rfl

theorem getElem?_fieldType (type : FieldType) : FieldType.all[type.index]? = some type := by
  cases type <;> rfl

theorem getElem?_entityKind (kind : EntityKind) :
    [EntityKind.principal, EntityKind.resource][kind.index]? = some kind := by
  cases kind <;> rfl

theorem consumes_choice {α : Type} {alternatives : List α} {n : Nat} {a : α}
    (h : alternatives[n]? = some a) (hn : n < 2 ^ 32) (rest : List UInt8) :
    Consumes (choice alternatives) (word n) a rest := by
  refine .last (consumes_word hn rest) ?_
  rw [h]
  exact .pure a rest

theorem consumes_timestamp {t : Instant} (h : (string (t.write .asNeeded)).length < 2 ^ 64)
    (rest : List UInt8) : Consumes timestamp (string (t.write .asNeeded)) t rest := by
  refine .last (consumes_string h rest) ?_
  rw [Instant.readRelaxed?_write]
  exact .pure t rest

theorem consumes_value {v : Value} (h : v.payload.length < 2 ^ 64) (rest : List UInt8) :
    Consumes value v.payload v rest := by
  cases v with
  | null => exact .last (consumes_word (by decide) rest) (.pure _ rest)
  | boolean b => exact .bind (consumes_word (by decide) _) (consumes_bool b rest).map
  | integer i =>
    have hread := (consumes_long i.toUInt64.toNat_lt rest).map
      (g := fun n => Value.integer (UInt64.ofNat n).toInt64)
    have hword : i.toUInt64.toInt64 = i := rfl
    rw [UInt64.ofNat_toNat, hword] at hread
    exact .bind (consumes_word (by decide) _) hread
  | float x =>
    have hread := (consumes_long x.bits.toNat_lt rest).map
      (g := fun n => Value.float ⟨UInt64.ofNat n⟩)
    rw [UInt64.ofNat_toNat] at hread
    exact .bind (consumes_word (by decide) _) hread
  | string s =>
    simp only [Value.payload, List.length_append] at h
    exact .bind (consumes_word (by decide) _) (consumes_string (by omega) rest).map
  | timestamp t =>
    simp only [Value.payload, List.length_append] at h
    exact .bind (consumes_word (by decide) _) (consumes_timestamp (by omega) rest).map

/-- A filter is read when the bound exceeds its bytes. The induction is on the bound, which the
    parts of a filter have one less of, as they are shorter. -/
theorem consumes_filter {bound : Nat} {f : Filter} (hbound : f.payload.length < bound)
    (h : f.payload.length < 2 ^ 64) (rest : List UInt8) :
    Consumes (filter bound) f.payload f rest := by
  induction bound generalizing f rest with
  | zero => exact absurd hbound (Nat.not_lt_zero _)
  | succ bound ih =>
    -- Every part is shorter than the bytes of all of them.
    have hparts : ∀ parts : List Filter, (Bytes.list Filter.payload parts).length < bound →
        (Bytes.list Filter.payload parts).length < 2 ^ 64 → ∀ rest,
        Consumes (Reader.list (filter bound)) (Bytes.list Filter.payload parts) parts rest := by
      intro parts hshort hlength
      refine consumes_list hlength (fun f _ => f.payload_ne_nil) fun f hf hlt => ih ?_ hlt
      have hmem := @length_le_of_mem Filter Filter.payload f parts hf
      rw [Bytes.list, List.length_append] at hshort
      omega
    cases f with
    | all => exact .last (consumes_word (by decide) rest) (.pure _ rest)
    | compare field how v =>
      simp only [Filter.payload, List.length_append] at h
      have hhow := getElem?_comparison how
      have hindex : how.index < 2 ^ 32 := by cases how <;> decide
      rw [Filter.payload, List.append_assoc, List.append_assoc]
      exact .bind (consumes_word (by decide) _) (.bind (consumes_string (by omega) _)
        (.bind (consumes_choice hhow hindex _) (consumes_value (by omega) rest).map))
    | every parts =>
      rw [Filter.payload_every, List.length_append, length_word] at hbound h
      rw [Filter.payload_every]
      exact .bind (consumes_word (by decide) _) (hparts parts (by omega) (by omega) rest).map
    | any parts =>
      rw [Filter.payload_any, List.length_append, length_word] at hbound h
      rw [Filter.payload_any]
      exact .bind (consumes_word (by decide) _) (hparts parts (by omega) (by omega) rest).map

theorem consumes_target {t : Target} (h : t.payload.length < 2 ^ 64) (rest : List UInt8) :
    Consumes target t.payload t rest := by
  rw [Target.payload, List.length_append] at h
  refine .bind (consumes_string (by omega) _) (.get_bind ?_)
  have hbound : t.filter.payload.length < (t.filter.payload ++ rest).length + 1 := by
    rw [List.length_append]
    omega
  exact (consumes_filter hbound (by omega) rest).map

theorem consumes_access {a : Access} (h : a.payload.length < 2 ^ 64) (rest : List UInt8) :
    Consumes access a.payload a rest := by
  simp only [Access.payload, List.length_append] at h
  rw [Access.payload, List.append_assoc, List.append_assoc]
  exact .bind (consumes_target (by omega) _) (.bind (consumes_string (by omega) _)
    (.bind (consumes_target (by omega) _) (consumes_string (by omega) rest).map))

theorem consumes_assignment {a : Assignment} (h : a.payload.length < 2 ^ 64)
    (rest : List UInt8) : Consumes assignment a.payload a rest := by
  have htype := getElem?_fieldType a.fieldType
  have hindex : a.fieldType.index < 2 ^ 32 := by cases a.fieldType <;> decide
  simp only [Assignment.payload, List.length_append] at h
  rw [Assignment.payload, List.append_assoc]
  exact .bind (consumes_string (by omega) _) (.bind (consumes_value (by omega) _)
    (consumes_choice htype hindex rest).map)

theorem consumes_names {names : List String} (h : (Bytes.list string names).length < 2 ^ 64)
    (rest : List UInt8) :
    Consumes (Reader.list Reader.string) (Bytes.list string names) names rest := by
  refine consumes_list h (fun s _ => ?_) (fun s _ hs => consumes_string hs) rest
  exact List.ne_nil_of_length_pos (by rw [length_string]; omega)

theorem consumes_assignments {as : List Assignment}
    (h : (Bytes.list Assignment.payload as).length < 2 ^ 64) (rest : List UInt8) :
    Consumes (Reader.list assignment) (Bytes.list Assignment.payload as) as rest := by
  refine consumes_list h (fun a _ => ?_) (fun a _ ha => consumes_assignment ha) rest
  refine List.ne_nil_of_length_pos ?_
  simp only [Assignment.payload, List.length_append, length_string]
  omega

theorem consumes_owner {owner : Option String} (h : (Bytes.option string owner).length < 2 ^ 64)
    (rest : List UInt8) :
    Consumes (Reader.option Reader.string) (Bytes.option string owner) owner rest := by
  refine consumes_option (fun s hs => ?_) rest
  cases hs
  rw [Bytes.option, List.length_cons] at h
  exact consumes_string (by omega)

theorem consumes_operation {o : Operation} (h : o.payload.length < 2 ^ 64) (rest : List UInt8) :
    Consumes operation o.payload o rest := by
  cases o with
  | get target projection =>
    simp only [Operation.payload, List.length_append] at h
    rw [Operation.payload, List.append_assoc]
    exact .bind (consumes_word (by decide) _) (.bind (consumes_target (by omega) _)
      (consumes_names (by omega) rest).map)
  | check access | grant access | revoke access =>
    rw [Operation.payload, List.length_append] at h
    exact .bind (consumes_word (by decide) _) (consumes_access (by omega) rest).map
  | update target assignments owner =>
    simp only [Operation.payload, List.length_append] at h
    rw [Operation.payload, List.append_assoc, List.append_assoc]
    exact .bind (consumes_word (by decide) _) (.bind (consumes_target (by omega) _)
      (.bind (consumes_assignments (by omega) _) (consumes_owner (by omega) rest).map))
  | delete target kind owner =>
    simp only [Operation.payload, List.length_append] at h
    have hkind := getElem?_entityKind kind
    have hindex : kind.index < 2 ^ 32 := by cases kind <;> decide
    rw [Operation.payload, List.append_assoc, List.append_assoc]
    exact .bind (consumes_word (by decide) _) (.bind (consumes_target (by omega) _)
      (.bind (consumes_choice hkind hindex _) (consumes_owner (by omega) rest).map))

theorem consumes_plan {p : Plan} (h : p.payload.length < 2 ^ 64) (rest : List UInt8) :
    Consumes plan p.payload p rest := by
  simp only [Plan.payload, List.length_append] at h
  have hversion : UInt32.ofNat p.schemaVersion.toNat = p.schemaVersion := UInt32.ofNat_toNat
  rw [Plan.payload, List.append_assoc, List.append_assoc]
  refine .bind (consumes_word p.schemaVersion.toNat_lt _) (.bind (consumes_string (by omega) _)
    (.bind (consumes_string (by omega) _) (.last (consumes_operation (by omega) rest) ?_)))
  rw [hversion]
  exact .pure p rest

end Plan.Payload

/-! ## Envelopes -/

namespace Plan

def frame (payload : List UInt8) : List UInt8 :=
  mark ++ format :: (word payload.length ++ payload ++ word (check format payload).toNat)

theorem encode_eq_ok {p : Plan} {bytes : List UInt8} (h : p.encode = .ok bytes) :
    bytes = frame p.payload ∧ p.payload.length < 2 ^ 32 := by
  rw [encode] at h
  by_cases hlt : p.payload.length < UInt32.size
  · rw [if_pos hlt] at h
    exact ⟨(Except.ok.inj h).symm, hlt⟩
  · rw [if_neg hlt] at h
    exact nomatch h

theorem length_frame (payload : List UInt8) : (frame payload).length = 13 + payload.length := by
  have hmark : mark.length = 4 := rfl
  simp only [frame, List.length_append, List.length_cons, length_word, hmark]
  omega

theorem frame_eq_append (payload : List UInt8) :
    frame payload = (mark ++ format :: word payload.length) ++
      (payload ++ word (check format payload).toNat) := by
  simp only [frame, List.append_assoc, List.cons_append]

theorem length_header (payload : List UInt8) :
    (mark ++ format :: word payload.length).length = 9 := by
  rw [List.length_append, List.length_cons, length_word]
  rfl

theorem take_frame (payload : List UInt8) :
    (frame payload).take 9 = mark ++ format :: word payload.length := by
  rw [frame_eq_append]
  exact List.take_left' (length_header payload)

theorem drop_frame (payload : List UInt8) :
    (frame payload).drop 9 = payload ++ word (check format payload).toNat := by
  rw [frame_eq_append]
  exact List.drop_left' (length_header payload)

theorem frame_inj {payload other : List UInt8} (h : frame payload = frame other) :
    payload = other := by
  have hlength := congrArg List.length h
  have hdrop := congrArg (List.drop 9) h
  rw [length_frame, length_frame] at hlength
  rw [drop_frame, drop_frame] at hdrop
  exact (List.append_inj hdrop (by omega)).1

/-- The frame around a payload is taken off again. What the payload has after a plan is not looked
    at. -/
theorem decode_frame {payload : List UInt8} (h : payload.length < 2 ^ 32) :
    decode (frame payload) =
      (Payload.plan payload).elim (.error .malformed) fun r => .ok r.1 := by
  have hlength := length_frame payload
  have hheader := take_frame payload
  have hnine := drop_frame payload
  generalize hbytes : frame payload = bytes at *
  -- What stands where in the envelope.
  have hmark : bytes.take 4 = mark := by
    rw [show 4 = min 4 9 from rfl, ← List.take_take, hheader]
    rfl
  have hfour : (bytes.drop 4).headD 0 = format := by
    rw [← hbytes]
    rfl
  have hfive : (bytes.drop 5).take 4 = word payload.length := by
    rw [show 4 = 9 - 5 from rfl, ← List.drop_take, hheader]
    rfl
  have hend : bytes.drop (9 + payload.length) = word (check format payload).toNat := by
    rw [← List.drop_drop, hnine]
    exact List.drop_left
  -- What is read there.
  have hread : ofLittle ((bytes.drop 5).take 4) = payload.length := by
    rw [hfive, ofLittle_word h]
  have hcheck : UInt32.ofNat (ofLittle (bytes.drop (9 + payload.length))) =
      check format payload := by
    rw [hend, ofLittle_word (check format payload).toNat_lt, UInt32.ofNat_toNat]
  have hpayload : (bytes.drop 9).take payload.length = payload := by
    rw [hnine]
    exact List.take_left
  have hlarge : ¬ bytes.length < 9 + 4 := by omega
  have htotal : 9 + payload.length + 4 = bytes.length := by omega
  unfold decode headerLength trailerLength
  simp only [hlarge, hmark, hfour, hread, hcheck, hpayload, htotal, ne_eq, not_true_eq_false,
    Nat.lt_irrefl, if_false]
  cases Payload.plan payload <;> rfl

theorem decode_of_encode {p : Plan} {bytes : List UInt8} (h : p.encode = .ok bytes) :
    decode bytes = .ok p := by
  obtain ⟨rfl, hlt⟩ := encode_eq_ok h
  have hplan := Payload.consumes_plan (p := p) (Nat.lt_trans hlt (by decide)) []
  rw [Consumes, List.append_nil] at hplan
  rw [decode_frame hlt, hplan, Option.elim_some]

/-- **A plan is read from its envelope**, and it has one unless its payload is too long for its
    length to be written. -/
theorem decode_encode (p : Plan) :
    (∀ bytes, p.encode = .ok bytes → decode bytes = .ok p) ∧
    (p.payload.length < 2 ^ 32 → ∃ bytes, p.encode = .ok bytes) := by
  refine ⟨fun bytes h => decode_of_encode h, fun h => ?_⟩
  unfold encode
  exact ⟨_, if_pos h⟩

end Plan

end Warrant
