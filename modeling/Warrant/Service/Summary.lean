import Warrant.Service.Basic
import Warrant.Store.Memory

/-!
# Summaries

What a service and a store show of themselves to whoever looks for an error: no rows, only how many
there are.

## Main definitions

- `Service.summary` — version, entities and limit
- `Memory.summary` — the sizes of the tables
-/

namespace Warrant

/-- A time in milliseconds, in seconds if it is that long. -/
def Text.duration (milliseconds : Nat) : String :=
  if milliseconds = 0 then "0ns"
  else if milliseconds < 1000 then toString milliseconds ++ "ms"
  else
    let fraction := (Text.padded 3 (Text.decimal (milliseconds % 1000))).reverse.dropWhile (· = '0')
    let point := if fraction.isEmpty then "" else "."
    toString (milliseconds / 1000) ++ point ++ String.ofList fraction.reverse ++ "s"

/-- The version, the number of entities and the limit of a service. -/
def Service.summary (s : Service) : String :=
  let limit := match s.timeout with
    | some milliseconds => "Some(" ++ Text.duration milliseconds ++ ")"
    | none => "None"
  "GeneQL \x7b schema_version: " ++ Text.hexWord s.version ++ ", entities: " ++
    toString s.schema.entities.length ++ ", default_timeout: " ++ limit ++ " \x7d"

/-- The number of rows in every table of a store, and the number of edges. -/
def Memory.summary (m : Memory) : String :=
  let tables := m.published.tables.toList.map fun t =>
    Text.quoted t.1 ++ ": " ++ toString t.2.size
  "MemoryGraph \x7b rows: \x7b" ++ String.intercalate ", " tables ++ "\x7d, edges: " ++
    toString m.published.edgeCount ++ ", .. \x7d"

end Warrant
