import Warrant.Json.Numeral
import Warrant.Text.Digits

/-!
# Reading JSON documents

## Main definitions

- `Json.read?` — the value of a whole document
-/

namespace Warrant.Json

/-- The blanks of JSON. -/
def isBlank (c : Char) : Bool :=
  c = ' ' || c = '\n' || c = '\t' || c = '\r'

/-- What is left after the blanks at the front. -/
def skipBlanks (cs : List Char) : List Char :=
  cs.dropWhile isBlank

/-- The character that a letter stands for after a backslash. -/
def escaped? (c : Char) : Option Char :=
  if c = '"' || c = '\\' || c = '/' then some c
  else if c = 'b' then some '\x08'
  else if c = 'f' then some '\x0c'
  else if c = 'n' then some '\n'
  else if c = 'r' then some '\r'
  else if c = 't' then some '\t'
  else none

/-- The code points of a string up to its closing quote, and what follows the quote. Halves of
    surrogate pairs, which only escapes can write, are still apart. -/
def codePoints? : List Char → Option (List Nat × List Char)
  | [] => none
  | '"' :: rest => some ([], rest)
  | '\\' :: 'u' :: a :: b :: c :: d :: rest => do
    let n ← Text.readHex? [a, b, c, d]
    let (ns, rest) ← codePoints? rest
    return (n :: ns, rest)
  | '\\' :: c :: rest => do
    let e ← escaped? c
    let (ns, rest) ← codePoints? rest
    return (e.toNat :: ns, rest)
  | c :: rest => do
    if c.toNat < 0x20 then none
    let (ns, rest) ← codePoints? rest
    return (c.toNat :: ns, rest)

/-- The characters that code points stand for, surrogates being joined in pairs. A half without
    its partner stands for nothing. -/
def joinPairs? : List Nat → Option (List Char)
  | [] => some []
  | n :: rest =>
    if 0xd800 ≤ n && n < 0xdc00 then
      match rest with
      | m :: rest =>
        if 0xdc00 ≤ m && m < 0xe000 then do
          return Char.ofNat (0x10000 + (n - 0xd800) * 0x400 + (m - 0xdc00)) :: (← joinPairs? rest)
        else none
      | [] => none
    else if 0xdc00 ≤ n && n < 0xe000 then none
    else do return Char.ofNat n :: (← joinPairs? rest)

/-- The exponent after the letter `e`, at least one digit long. -/
def exponent? (cs : List Char) : Option (Int × List Char) :=
  let (negative, cs) : Bool × List Char := match cs with
    | '+' :: rest => (false, rest)
    | '-' :: rest => (true, rest)
    | _ => (false, cs)
  let ds := cs.takeWhile Text.isDigit
  if ds.isEmpty then none
  else
    let e : Int := Text.readDecimal ds
    some (if negative then -e else e, cs.drop ds.length)

/-- A number: digits without a needless zero, a fraction and an exponent. -/
def numeral? (cs : List Char) : Option (Numeral × List Char) := do
  let (negative, cs) : Bool × List Char := match cs with
    | '-' :: rest => (true, rest)
    | _ => (false, cs)
  let whole := cs.takeWhile Text.isDigit
  if whole.isEmpty || (whole.head? = some '0' && 1 < whole.length) then none
  let cs := cs.drop whole.length
  let (fraction, cs) ← match cs with
    | '.' :: rest =>
      let ds := rest.takeWhile Text.isDigit
      if ds.isEmpty then none else some (ds, rest.drop ds.length)
    | _ => some ([], cs)
  match cs with
  | 'e' :: rest | 'E' :: rest => do
    let (e, rest) ← exponent? rest
    return (⟨negative, whole, fraction, some e⟩, rest)
  | _ => return (⟨negative, whole, fraction, none⟩, cs)

/-- What is left after a fixed word. -/
def after? (word cs : List Char) : Option (List Char) :=
  if word.isPrefixOf cs then some (cs.drop word.length) else none

/-- The object with members that have been read. An object with a name that stands for nothing
    stands for nothing itself. -/
def ofRead (members : List (Option (List Char) × Json)) : Json :=
  match members.mapM fun m => m.1.map fun name => (String.ofList name, m.2) with
  | some members => .object members
  | none => .senseless

mutual

/-- A value at the front, after blanks. The first argument bounds the nesting. -/
def value? : Nat → List Char → Option (Json × List Char)
  | 0, _ => none
  | bound + 1, cs =>
    match skipBlanks cs with
    | '\x7b' :: rest =>
      match skipBlanks rest with
      | '\x7d' :: rest => some (.object [], rest)
      | rest => do
        let (members, rest) ← members? bound rest
        return (ofRead members, rest)
    | '[' :: rest =>
      match skipBlanks rest with
      | ']' :: rest => some (.array [], rest)
      | rest => do
        let (items, rest) ← items? bound rest
        return (.array items, rest)
    | '"' :: rest => do
      let (points, rest) ← codePoints? rest
      return match joinPairs? points with
        | some cs => (.string (String.ofList cs), rest)
        | none => (.senseless, rest)
    | 'n' :: rest => return (.null, ← after? "ull".toList rest)
    | 't' :: rest => return (.bool true, ← after? "rue".toList rest)
    | 'f' :: rest => return (.bool false, ← after? "alse".toList rest)
    | rest => do
      let (n, rest) ← numeral? rest
      return (n.toJson, rest)

/-- One item or more, up to the closing bracket. -/
def items? : Nat → List Char → Option (List Json × List Char)
  | 0, _ => none
  | bound + 1, cs => do
    let (j, rest) ← value? bound cs
    match skipBlanks rest with
    | ',' :: rest => do
      let (items, rest) ← items? bound rest
      return (j :: items, rest)
    | ']' :: rest => return ([j], rest)
    | _ => none

/-- One member or more, up to the closing brace, with the names that make sense. -/
def members? : Nat → List Char → Option (List (Option (List Char) × Json) × List Char)
  | 0, _ => none
  | bound + 1, cs =>
    match skipBlanks cs with
    | '"' :: rest => do
      let (points, rest) ← codePoints? rest
      let name := joinPairs? points
      let rest ← after? [':'] (skipBlanks rest)
      let (j, rest) ← value? bound rest
      match skipBlanks rest with
      | ',' :: rest => do
        let (members, rest) ← members? bound rest
        return ((name, j) :: members, rest)
      | '\x7d' :: rest => return ([(name, j)], rest)
      | _ => none
    | _ => none

end

/-- **The value of a document**, which holds nothing else but blanks. Each level of nesting takes
    a character at least, so the length of the document bounds the recursion. -/
def read? (document : String) : Option Json := do
  let cs := document.toList
  let (j, rest) ← value? (2 * cs.length + 2) cs
  if (skipBlanks rest).isEmpty then some j else none

end Warrant.Json
