/-!
# The cyclic redundancy check of 32 bits

The reflected check with the polynomial `0xedb88320`: a register of 32 bits takes in a text bit by
bit, lowest bit first, and is inverted at the start and at the end.

## Main definitions

- `Crc32.shift` — one step of the register
- `Crc32.update` — the register after one byte
- `crc32` — the check of a text
-/

namespace Warrant

namespace Crc32

/-- The coefficients of the polynomial, the highest in the lowest bit. -/
def polynomial : UInt32 := 0xedb88320

/-- One step: the lowest bit leaves, and the polynomial is subtracted if it was set. -/
def shift (c : UInt32) : UInt32 :=
  if c &&& 1 = 1 then (c >>> 1) ^^^ polynomial else c >>> 1

/-- Some steps. -/
def shifts : Nat → UInt32 → UInt32
  | 0, c => c
  | n + 1, c => shifts n (shift c)

/-- The register after one byte. -/
def update (c : UInt32) (b : UInt8) : UInt32 :=
  shifts 8 (c ^^^ b.toUInt32)

/-- The register after some bytes. -/
def run (c : UInt32) (bytes : List UInt8) : UInt32 :=
  bytes.foldl update c

end Crc32

/-- **The check of a text.** -/
def crc32 (bytes : List UInt8) : UInt32 :=
  ~~~(Crc32.run 0xffffffff bytes)

end Warrant
