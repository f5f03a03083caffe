/-!
# Binary texts

Texts in UTF-8, numbers of fixed width with the lowest byte first, and texts, lists and options built
of them.

## Main definitions

- `Bytes.ofString`, `Bytes.toString?` — the bytes of a text, and the text of bytes
- `Bytes.little`, `Bytes.ofLittle` — a number as bytes, lowest first, and back
- `Bytes.string`, `Bytes.list`, `Bytes.option` — composed values as bytes
- `Bytes.Reader` — a reader of the front of some bytes
-/

namespace Warrant.Bytes

/-- The bytes of a text in UTF-8. -/
def ofString (s : String) : List UInt8 :=
  s.toByteArray.data.toList

/-- The text that bytes encode, if they are valid UTF-8. -/
def toString? (bytes : List UInt8) : Option String :=
  String.fromUTF8? ⟨bytes.toArray⟩

/-- The lowest `width` bytes of a number, lowest first. -/
def little : Nat → Nat → List UInt8
  | 0, _ => []
  | width + 1, n => UInt8.ofNat n :: little width (n / 256)

/-- The number whose bytes are given, lowest first. -/
def ofLittle : List UInt8 → Nat
  | [] => 0
  | b :: rest => b.toNat + 256 * ofLittle rest

/-- A number of 32 bits, or the number of an alternative. -/
def word (n : Nat) : List UInt8 :=
  little 4 n

/-- A number of 64 bits. -/
def long (n : Nat) : List UInt8 :=
  little 8 n

/-- A text: its length in bytes and its bytes. -/
def string (s : String) : List UInt8 :=
  let bytes := ofString s
  long bytes.length ++ bytes

/-- A list: its length and its items. -/
def list {α : Type} (item : α → List UInt8) (xs : List α) : List UInt8 :=
  long xs.length ++ xs.flatMap item

/-- An option: a byte that tells whether there is a value, and the value. -/
def option {α : Type} (value : α → List UInt8) : Option α → List UInt8
  | none => [0]
  | some a => 1 :: value a

/-- A reader of the front of some bytes: what it reads and what is left. -/
abbrev Reader := StateT (List UInt8) Option

namespace Reader

/-- The first `n` bytes. -/
def take (n : Nat) : Reader (List UInt8) := fun bytes =>
  if bytes.length < n then none else some (bytes.take n, bytes.drop n)

/-- A number of 32 bits. -/
def word : Reader Nat := do
  return ofLittle (← take 4)

/-- A number of 64 bits. -/
def long : Reader Nat := do
  return ofLittle (← take 8)

/-- A byte that is zero or one. -/
def bool : Reader Bool := do
  match ← take 1 with
  | [0] => return false
  | [1] => return true
  | _ => failure

/-- A text. -/
def string : Reader String := do
  let bytes ← take (← long)
  match toString? bytes with
  | some s => return s
  | none => failure

/-- Some items one after the other. -/
def times {α : Type} (item : Reader α) : Nat → Reader (List α)
  | 0 => return []
  | n + 1 => do
    let a ← item
    return a :: (← times item n)

/-- A list. Every item takes a byte at least, so a length beyond the bytes left is refused at
    once. -/
def list {α : Type} (item : Reader α) : Reader (List α) := do
  let n ← long
  if (← get).length < n then failure
  times item n

/-- An option. -/
def option {α : Type} (value : Reader α) : Reader (Option α) := do
  if ← bool then return some (← value) else return none

end Reader

end Warrant.Bytes
