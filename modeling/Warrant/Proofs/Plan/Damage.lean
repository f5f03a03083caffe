import Warrant.Proofs.Bytes.Burst
import Warrant.Proofs.Plan.RoundTrip
import Warrant.Proofs.Results

/-!
# Damaged envelopes

Whatever is accepted as an envelope is the frame of some payload. The header of a frame fixes its
length, so a frame that has been cut short or continued is no frame. Within frames of one length
only the payload and its check can differ, and the check does not follow a change of up to four
consecutive bytes, wherever they stand.

## Main statements

- `Plan.exists_frame_of_decode` — what is accepted is a frame
- `Plan.frame_eq_of_alikeOutside` — frames that agree outside a window of four bytes
- `Plan.decode_of_damaged` — damaged envelopes are refused
-/

namespace Warrant

open Bytes

namespace Plan

variable {payload other : List UInt8}

/-! ## What is accepted -/

theorem word_ofLittle {bytes : List UInt8} (h : bytes.length = 4) :
    word (ofLittle bytes) = bytes := by
  rw [word, ← h]
  exact little_ofLittle bytes

theorem drop_eq_headD_cons {bytes : List UInt8} {n : Nat} (h : n < bytes.length) :
    bytes.drop n = (bytes.drop n).headD 0 :: bytes.drop (n + 1) := by
  rw [List.drop_eq_getElem_cons h, List.headD_cons]

/-- **What is accepted is a frame.** -/
theorem exists_frame_of_decode {bytes : List UInt8} {p : Plan} (h : decode bytes = .ok p) :
    ∃ payload, bytes = frame payload ∧ payload.length < 2 ^ 32 := by
  rw [decode] at h
  obtain ⟨hshort, h⟩ := ite_error_eq_ok_iff.1 h
  obtain ⟨hmark, h⟩ := ite_error_eq_ok_iff.1 h
  obtain ⟨hformat, h⟩ := ite_error_eq_ok_iff.1 h
  obtain ⟨hless, h⟩ := ite_error_eq_ok_iff.1 h
  obtain ⟨hmore, h⟩ := ite_error_eq_ok_iff.1 h
  obtain ⟨hcheck, -⟩ := ite_error_eq_ok_iff.1 h
  -- The parts of the text are what they have been compared with.
  rw [not_not] at hmark hformat hcheck
  rw [hformat] at hcheck
  simp only [headerLength, trailerLength] at hshort hless hmore hcheck
  generalize hlength : ofLittle ((bytes.drop 5).take 4) = length at hless hmore hcheck
  have htotal : bytes.length = 9 + length + 4 := by omega
  have hword : ((bytes.drop 5).take 4).length = 4 := by
    rw [List.length_take, List.length_drop]
    omega
  have hpayload : ((bytes.drop 9).take length).length = length := by
    rw [List.length_take, List.length_drop]
    omega
  have htrailer : (bytes.drop (9 + length)).length = 4 := by
    rw [List.length_drop]
    omega
  have hlt : length < 2 ^ 32 := by
    rw [← hlength]
    exact Nat.lt_of_lt_of_eq (ofLittle_lt _) (by rw [hword]; rfl)
  have hfour : bytes.drop 4 = format :: bytes.drop 5 := by
    rw [drop_eq_headD_cons (show 4 < bytes.length by omega), hformat]
  -- Four bytes are the word that they spell, so the trailer is what has been computed.
  have hword' : word (check format ((bytes.drop 9).take length)).toNat =
      bytes.drop (9 + length) := by
    have hbound : ofLittle (bytes.drop (9 + length)) < UInt32.size :=
      Nat.lt_of_lt_of_eq (ofLittle_lt _) (by rw [htrailer]; rfl)
    rw [← hcheck, UInt32.toNat_ofNat_of_lt' hbound, word_ofLittle htrailer]
  refine ⟨(bytes.drop 9).take length, ?_, by rw [hpayload]; exact hlt⟩
  calc bytes
      = bytes.take 4 ++ bytes.drop 4 := (List.take_append_drop 4 bytes).symm
    _ = mark ++ format :: bytes.drop 5 := by rw [hmark, hfour]
    _ = mark ++ format :: (word length ++ bytes.drop 9) := by
        rw [← hlength, word_ofLittle hword, show 9 = 5 + 4 from rfl, ← List.drop_drop,
          List.take_append_drop]
    _ = frame ((bytes.drop 9).take length) := by
        rw [frame, hpayload, hword', List.append_assoc, ← List.drop_drop, List.take_append_drop]

/-! ## Frames -/

/-- A frame that goes on like another one is the other one: the header tells where it ends. -/
theorem frame_eq_of_front (h : payload.length < 2 ^ 32) (h' : other.length < 2 ^ 32)
    (hfront : frame payload <+: frame other) : frame payload = frame other := by
  have hheader : (frame payload).take 9 = (frame other).take 9 := by
    obtain ⟨rest, hrest⟩ := hfront
    rw [← hrest, List.take_append_of_le_length (by rw [length_frame]; omega)]
  rw [take_frame, take_frame] at hheader
  have hword : word payload.length = word other.length :=
    (List.cons.inj (List.append_cancel_left hheader)).2
  have hlength : payload.length = other.length := by
    rw [← ofLittle_word h, hword, ofLittle_word h']
  apply hfront.eq_of_length
  rw [length_frame, length_frame, hlength]

/-- **Frames that agree outside a window of four bytes** are equal. -/
theorem frame_eq_of_alikeOutside {start : Nat}
    (h : AlikeOutside start 4 (frame payload) (frame other)) : frame payload = frame other := by
  have hlength : payload.length = other.length := by
    have hframes := h.length
    rw [length_frame, length_frame] at hframes
    omega
  -- With the format before it, either body leaves the register in the state of all checked texts.
  have hrun : ∀ body : List UInt8,
      Crc32.run (Crc32.update 0xffffffff format) (body ++ word (check format body).toNat) =
        Crc32.shifts 32 0xffffffff := fun body => Crc32.run_append_crc32 (format :: body)
  have hbody := h.drop 9
  rw [drop_frame, drop_frame] at hbody
  have hsame := Crc32.eq_of_alikeOutside hbody ((hrun payload).trans (hrun other).symm)
  rw [← List.take_append_drop 9 (frame payload), ← List.take_append_drop 9 (frame other),
    take_frame, take_frame, drop_frame, drop_frame, hsame, hlength]

/-! ## Damage -/

/-- **Damaged envelopes are refused.** An envelope is read as its plan. It is not read as any plan
when up to four consecutive bytes of it have been changed, wherever they stand, when it has been cut
short, or when something has been written behind it. -/
theorem decode_of_damaged {p : Plan} {bytes : List UInt8} (h : p.encode = .ok bytes) :
    decode bytes = .ok p ∧
    (∀ start width damaged, width ≤ 4 → AlikeOutside start width bytes damaged →
      damaged ≠ bytes → ∃ e, decode damaged = .error e) ∧
    (∀ front, front <+: bytes → front ≠ bytes → ∃ e, decode front = .error e) ∧
    ∀ longer, bytes <+: longer → longer ≠ bytes → ∃ e, decode longer = .error e := by
  obtain ⟨rfl, hlt⟩ := encode_eq_ok h
  refine ⟨decode_of_encode h, ?_, ?_, ?_⟩
  · intro start width damaged hwidth halike hne
    apply exists_error_of_ne_ok
    intro q hq
    obtain ⟨other, rfl, -⟩ := exists_frame_of_decode hq
    exact hne (frame_eq_of_alikeOutside (halike.mono hwidth)).symm
  · intro front hfront hne
    apply exists_error_of_ne_ok
    intro q hq
    obtain ⟨other, rfl, hother⟩ := exists_frame_of_decode hq
    exact hne (frame_eq_of_front hother hlt hfront)
  · intro longer hlonger hne
    apply exists_error_of_ne_ok
    intro q hq
    obtain ⟨other, rfl, hother⟩ := exists_frame_of_decode hq
    exact hne (frame_eq_of_front hlt hother hlonger).symm

/-- An acting principal cannot be forged by changing a letter of its id. -/
theorem decode_of_damaged_id :
    let p : Plan := ⟨7, ⟨"User", "ann"⟩, .get ⟨"Note", .hasId "n"⟩ ["title"]⟩
    ∃ bytes, p.encode = .ok bytes ∧ bytes[33]? = some 97 ∧
      ∃ e, decode (bytes.set 33 98) = .error e := by
  intro p
  have h : p.encode = .ok (frame p.payload) := rfl
  have hbyte : (frame p.payload)[33]? = some 97 := by decide +kernel
  refine ⟨_, h, hbyte, (decode_of_damaged h).2.1 33 1 _ (by decide) (.set _ 33 98) ?_⟩
  intro hsame
  rw [← hsame] at hbyte
  exact absurd hbyte (by decide +kernel)

end Plan

end Warrant
