import Warrant.Json.Basic
import Warrant.Number.Layout

/-!
# JSON texts

A value in one line without blanks.

## Main definitions

- `Json.escape` — one character of a string
- `Json.write` — the text of a value
-/

namespace Warrant.Json

/-- One character of a string. The quote, the backslash and the control characters are escaped,
    five of the latter by a letter. -/
def escape (c : Char) : List Char :=
  if c = '"' then ['\\', '"']
  else if c = '\\' then ['\\', '\\']
  else if c = '\n' then ['\\', 'n']
  else if c = '\r' then ['\\', 'r']
  else if c = '\t' then ['\\', 't']
  else if c.toNat = 0x08 then ['\\', 'b']
  else if c.toNat = 0x0c then ['\\', 'f']
  else if c.toNat < 0x20 then '\\' :: 'u' :: Text.padded 4 (Text.hexadecimal c.toNat)
  else [c]

/-- A string between double quotes. -/
def writeString (s : String) : List Char :=
  '"' :: (s.toList.flatMap escape ++ ['"'])

/-- A number that is not finite is written as `null`. -/
def writeFloat (x : Binary64) : List Char :=
  if x.isFinite then (FloatLayout.json.write x).toList else "null".toList

mutual

/-- The characters of a value. -/
def writeChars : Json → List Char
  | .null => "null".toList
  | .bool true => "true".toList
  | .bool false => "false".toList
  | .int i => (toString i).toList
  | .float x => writeFloat x
  | .string s => writeString s
  | .array items => '[' :: (writeItems items ++ [']'])
  | .object members => '\x7b' :: (writeMembers members ++ ['\x7d'])
  | .senseless => "null".toList

/-- The items of an array, separated by commas. -/
def writeItems : List Json → List Char
  | [] => []
  | [j] => writeChars j
  | j :: rest => writeChars j ++ ',' :: writeItems rest

/-- The members of an object, separated by commas. -/
def writeMembers : List (String × Json) → List Char
  | [] => []
  | [(name, j)] => writeString name ++ ':' :: writeChars j
  | (name, j) :: rest => writeString name ++ ':' :: (writeChars j ++ ',' :: writeMembers rest)

end

/-- **The text of a value.** -/
def write (j : Json) : String :=
  String.ofList j.writeChars

end Warrant.Json
