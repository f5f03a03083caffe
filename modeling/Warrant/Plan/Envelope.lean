import Warrant.Bytes.Crc32
import Warrant.Plan.Payload

/-!
# Envelopes of plans

An envelope holds a mark, the number of the format, the length of the payload, the payload, and a
check over format and payload.

## Main definitions

- `Plan.encode` — the envelope of a plan
- `Plan.decode` — the plan in an envelope
- `EnvelopeError` — why bytes are no envelope
-/

namespace Warrant

/-- Why bytes are no envelope of a plan, or a plan has none. -/
inductive EnvelopeError
  /-- The payload is too long for its length to be written. -/
  | tooLong
  | truncated (needed available : Nat)
  | badMark
  | unsupportedFormat (format : UInt8)
  | checkMismatch (expected actual : UInt32)
  | trailing (bytes : Nat)
  /-- The payload is no plan. -/
  | malformed
deriving DecidableEq

def EnvelopeError.code : EnvelopeError → String
  | .tooLong => "Serialization"
  | .truncated .. => "Truncated"
  | .badMark => "BadMagic"
  | .unsupportedFormat _ => "UnsupportedFormat"
  | .checkMismatch .. => "ChecksumMismatch"
  | .trailing _ => "TrailingBytes"
  | .malformed => "Serialization"

def EnvelopeError.write : EnvelopeError → String
  | .tooLong => "failed to serialize plan: plan exceeds 4 GiB"
  | .truncated needed available =>
    "plan envelope truncated: need " ++ toString needed ++ " bytes, have " ++ toString available
  | .badMark => "not a plan envelope"
  | .unsupportedFormat format => "unsupported plan format " ++ toString format.toNat
  | .checkMismatch expected actual =>
    "plan checksum mismatch: expected " ++ Text.hexWord expected ++ ", got " ++ Text.hexWord actual
  | .trailing bytes => toString bytes ++ " trailing bytes after plan envelope"
  | .malformed => "failed to serialize plan: malformed payload"

namespace Plan

/-- The mark of envelopes. -/
def mark : List UInt8 := "GQLP".toList.map Char.toUInt8

/-- The number of the format. -/
def format : UInt8 := 1

/-- The length of what stands before the payload: mark, format and length. -/
def headerLength : Nat := 9

/-- The length of what stands after the payload: the check. -/
def trailerLength : Nat := 4

/-- The check of a payload in a format. -/
def check (format : UInt8) (payload : List UInt8) : UInt32 :=
  crc32 (format :: payload)

/-- **The envelope of a plan.** -/
def encode (p : Plan) : Except EnvelopeError (List UInt8) :=
  let payload := p.payload
  if payload.length < UInt32.size then
    .ok (mark ++ format :: (Bytes.word payload.length ++ payload ++
      Bytes.word (check format payload).toNat))
  else .error .tooLong

/-- **The plan in an envelope.** The mark, the format, the length and the check are looked at in
    this order, and only then the payload. -/
def decode (bytes : List UInt8) : Except EnvelopeError Plan :=
  let available := bytes.length
  if available < headerLength + trailerLength then
    .error (.truncated (headerLength + trailerLength) available)
  else if bytes.take 4 ≠ mark then .error .badMark
  else
    let given := (bytes.drop 4).headD 0
    if given ≠ format then .error (.unsupportedFormat given)
    else
      let length := Bytes.ofLittle ((bytes.drop 5).take 4)
      let total := headerLength + length + trailerLength
      if available < total then .error (.truncated total available)
      else if total < available then .error (.trailing (available - total))
      else
        let payload := (bytes.drop headerLength).take length
        let expected := UInt32.ofNat (Bytes.ofLittle (bytes.drop (headerLength + length)))
        let actual := check given payload
        if expected ≠ actual then .error (.checkMismatch expected actual)
        else match Payload.plan payload with
          | some (p, _) => .ok p
          | none => .error .malformed

end Plan

end Warrant
