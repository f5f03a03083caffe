import Warrant.Json.Printer
import Warrant.Service.Basic

/-!
# Replies

A reply has one shape for every request: whether it succeeded, and data or an error text.

## Main definitions

- `Reply` — a reply
- `Reply.ofResult` — the reply to a request
- `Reply.write` — the text of a reply
- `Reply.toJson`, `Reply.ofJson?` — the JSON form
-/

namespace Warrant

/-- Whether a request succeeded, and data or an error text. A reply from a foreign document may
    hold neither or both. -/
structure Reply where
  success : Bool
  data : Option Json
  error : Option String

namespace Reply

/-- The reply to a request that succeeded. -/
def ofData (data : Json) : Reply := ⟨true, some data, none⟩

/-- The reply to a request that failed. -/
def ofError (error : String) : Reply := ⟨false, none, some error⟩

/-- **The reply to a request.** -/
def ofResult : Except ServiceError Outcome → Reply
  | .ok outcome => ofData outcome.toJson
  | .error e => ofError e.write

def write (r : Reply) : String :=
  match r.success, r.data, r.error with
  | false, _, some error => "QueryResult(success=false, error=" ++ error ++ ")"
  | _, some data, _ => "QueryResult(success=true, data=" ++ data.write ++ ")"
  | true, none, _ => "QueryResult(success=true)"
  | false, none, none => "QueryResult(success=false)"

def toJson (r : Reply) : Json :=
  .object [("success", .bool r.success), ("data", r.data.getD .null),
    ("error", Json.optionalString r.error)]

/-- How deep the data of a reply may be nested. -/
def maxDepth : Nat := 127

/-- The reply that a JSON value describes. -/
def ofJson? (j : Json) : Option Reply := do
  let r ← j.record? ["success", "data", "error"] false
  let success ← r.required? "success" Json.bool?
  let data ← r.optional? "data" (Json.normalize? maxDepth)
  let error ← r.optional? "error" Json.string?
  return ⟨success, data, error⟩

/-- The reply in a document. -/
def read? (document : String) : Option Reply :=
  Json.read? document >>= ofJson?

end Reply

end Warrant
