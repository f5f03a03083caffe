/-!
# Parts of a text

A text is taken apart at separators, or at a position that counts the bytes of its UTF-8 form. A
position inside a character cuts nothing.

## Main definitions

- `Text.parts` — the pieces between separators
- `Text.byteSize` — how many bytes characters take
- `Text.dropBytes?`, `Text.takeBytes?` — the text after and before a byte position
-/

namespace Warrant.Text

/-- The pieces of a text between its separators. There is one more than there are separators. -/
def parts (separator : Char) : List Char → List (List Char)
  | [] => [[]]
  | c :: rest =>
    if c = separator then [] :: parts separator rest
    else
      match parts separator rest with
      | [] => [[c]]
      | first :: others => (c :: first) :: others

/-- The number of bytes that characters take in UTF-8. -/
def byteSize : List Char → Nat
  | [] => 0
  | c :: rest => c.utf8Size + byteSize rest

/-- What is left after the first `n` bytes of a text, if a character ends there. -/
def dropBytes? : Nat → List Char → Option (List Char)
  | 0, cs => some cs
  | _ + 1, [] => none
  | n + 1, c :: rest => if c.utf8Size ≤ n + 1 then dropBytes? (n + 1 - c.utf8Size) rest else none

/-- The first `n` bytes of a text, if a character ends there. -/
def takeBytes? : Nat → List Char → Option (List Char)
  | 0, _ => some []
  | _ + 1, [] => none
  | n + 1, c :: rest =>
    if c.utf8Size ≤ n + 1 then (takeBytes? (n + 1 - c.utf8Size) rest).map (c :: ·) else none

end Warrant.Text
