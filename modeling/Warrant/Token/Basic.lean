import Warrant.Number.Layout
import Warrant.Text.Quoted

/-!
# Tokens

The words, names, literals and signs that statements are made of, each with its place in the text.

## Main definitions

- `Position` — a place in a text: byte, line and column
- `Keyword` — the reserved words
- `Token.Kind`, `Token` — what a token is, and the token with its text and place
- `LexError` — a stretch of text that is no token
-/

namespace Warrant

/-- A place in a text. -/
structure Position where
  /-- Bytes before the place. -/
  offset : Nat
  /-- The line, from 1 on. -/
  line : Nat
  /-- The column in characters, from 1 on. -/
  column : Nat
deriving DecidableEq, Repr

namespace Position

/-- The start of a text. -/
def start : Position := ⟨0, 1, 1⟩

/-- The place after one more character. -/
def step (p : Position) (c : Char) : Position :=
  if c = '\n' then ⟨p.offset + c.utf8Size, p.line + 1, 1⟩
  else ⟨p.offset + c.utf8Size, p.line, p.column + 1⟩

/-- The place after some more characters. -/
def after (p : Position) (cs : List Char) : Position :=
  cs.foldl step p

@[simp]
theorem after_append (p : Position) (cs ds : List Char) :
    p.after (cs ++ ds) = (p.after cs).after ds :=
  List.foldl_append

def write (p : Position) : String :=
  "line " ++ toString p.line ++ ", column " ++ toString p.column ++
    " (byte " ++ toString p.offset ++ ")"

end Position

/-- The reserved words. -/
inductive Keyword
  | get
  | check
  | grant
  | revoke
  | update
  | delete
  | onWord
  | toWord
  | fromWord
  | whereWord
  | andWord
  | orWord
  | selfWord
  | canWord
  | setWord
  | trueWord
  | falseWord
deriving DecidableEq, Repr

namespace Keyword

/-- All reserved words. -/
def all : List Keyword :=
  [.get, .check, .grant, .revoke, .update, .delete, .onWord, .toWord, .fromWord, .whereWord,
    .andWord, .orWord, .selfWord, .canWord, .setWord, .trueWord, .falseWord]

/-- The spelling of a word. Case counts. -/
def text : Keyword → String
  | .get => "GET"
  | .check => "CHECK"
  | .grant => "GRANT"
  | .revoke => "REVOKE"
  | .update => "UPDATE"
  | .delete => "DELETE"
  | .onWord => "ON"
  | .toWord => "TO"
  | .fromWord => "FROM"
  | .whereWord => "WHERE"
  | .andWord => "AND"
  | .orWord => "OR"
  | .selfWord => "SELF"
  | .canWord => "CAN"
  | .setWord => "SET"
  | .trueWord => "true"
  | .falseWord => "false"

/-- The reserved word with a given spelling. -/
def ofText? (s : String) : Option Keyword :=
  all.find? (·.text == s)

/-- Whether a spelling is reserved, so that it cannot be a name. -/
def isReserved (s : String) : Bool :=
  (ofText? s).isSome

/-- Every word is found by its spelling. -/
theorem ofText?_text (k : Keyword) : ofText? k.text = some k := by
  cases k <;> decide

end Keyword

/-- The signs. -/
inductive Sign
  | equal
  | different
  | leftParen
  | rightParen
  | comma
  | dot
  | asterisk
  | colon
deriving DecidableEq, Repr

/-- The spelling of a sign. -/
def Sign.text : Sign → String
  | .equal => "="
  | .different => "!="
  | .leftParen => "("
  | .rightParen => ")"
  | .comma => ","
  | .dot => "."
  | .asterisk => "*"
  | .colon => ":"

/-- What a token is. -/
inductive Token.Kind
  | keyword (k : Keyword)
  | name (s : String)
  | string (s : String)
  | integer (i : Int64)
  | float (x : Binary64)
  | sign (s : Sign)
  /-- The end of the statement. -/
  | finish
deriving DecidableEq

/-- What a token is, in messages. -/
def Token.Kind.write : Token.Kind → String
  | .keyword k => k.text
  | .name s => "identifier '" ++ s ++ "'"
  | .string s => "string " ++ Text.quoted s
  | .integer i => "number " ++ toString i.toInt
  | .float x => "number " ++ FloatLayout.plain.write x
  | .sign s => "'" ++ s.text ++ "'"
  | .finish => "end of query"

/-- A token: what it is, how it is spelled and where it starts. -/
structure Token where
  kind : Token.Kind
  text : String
  position : Position
deriving DecidableEq

/-- Why a stretch of text is no token. -/
inductive LexFault
  | unexpectedCharacter (c : Char)
  | unterminatedString
  | invalidEscape (c : Char)
  | invalidNumber (text : String)
deriving DecidableEq, Repr

def LexFault.write : LexFault → String
  | .unexpectedCharacter c => "unexpected character '" ++ c.toString ++ "'"
  | .unterminatedString => "unterminated string literal"
  | .invalidEscape c => "invalid escape sequence '\\" ++ c.toString ++ "'"
  | .invalidNumber text => "invalid number '" ++ text ++ "'"

/-- A fault and its place. -/
structure LexError where
  position : Position
  fault : LexFault
deriving DecidableEq, Repr

def LexError.write (e : LexError) : String :=
  "lexical error at " ++ e.position.write ++ ": " ++ e.fault.write

end Warrant
