import Warrant.Config.LogFilter
import Warrant.Json.Reader
import Warrant.Json.Record

/-!
# How to log

## Main definitions

- `LogOutput`, `LogLayout` — where log lines go and what they look like
- `LogConfig` — how to log
- `LogConfig.toJson`, `LogConfig.ofJson?` — the JSON form
-/

namespace Warrant

/-- Where log lines go. -/
inductive LogOutput
  | console
  | file (path : String)
  | both (path : String)
deriving DecidableEq, Repr

namespace LogOutput

def toJson : LogOutput → Json
  | .console => .string "stdout"
  | .file path => .ofMembers [("file", .string path)]
  | .both path => .ofMembers [("both", .string path)]

/-- The output that a JSON value describes. -/
def ofJson? (j : Json) : Option LogOutput := do
  match ← j.choice? with
  | ("stdout", _) => if (← j.word?) == "stdout" then some .console else none
  | ("file", some path) => return .file (← path.string?)
  | ("both", some path) => return .both (← path.string?)
  | _ => none

end LogOutput

/-- What log lines look like. -/
inductive LogLayout
  | pretty
  | compact
deriving DecidableEq, Repr

namespace LogLayout

def name : LogLayout → String
  | .pretty => "pretty"
  | .compact => "compact"

/-- The layout with a given name. -/
def ofName? (s : String) : Option LogLayout :=
  [pretty, compact].find? (·.name == s)

end LogLayout

/-- How to log. -/
structure LogConfig where
  /-- A filter of log lines. -/
  level : String
  output : LogOutput
  layout : LogLayout
deriving DecidableEq, Repr

namespace LogConfig

/-- Lines of a level, pretty and on the console. -/
def ofLevel (level : String) : LogConfig :=
  ⟨level, .console, .pretty⟩

/-- What is logged unless something else is said. -/
def standard : LogConfig :=
  ofLevel "info"

/-- Whether the filter makes sense. -/
def isAccepted (c : LogConfig) : Bool :=
  LogFilter.accepts c.level

def toJson (c : LogConfig) : Json :=
  .ofMembers [("level", .string c.level), ("output", c.output.toJson),
    ("format", .string c.layout.name)]

/-- The log configuration that a JSON value describes. What it leaves out is standard. -/
def ofJson? (j : Json) : Option LogConfig := do
  let r ← j.record? ["level", "output", "format"] false
  let level ← r.withDefault? "level" Json.string? standard.level
  let output ← r.withDefault? "output" LogOutput.ofJson? standard.output
  let layout ← r.withDefault? "format" (fun j => j.word? >>= LogLayout.ofName?) standard.layout
  return ⟨level, output, layout⟩

/-- The log configuration in a document. -/
def read? (document : String) : Option LogConfig :=
  Json.read? document >>= ofJson?

end LogConfig

end Warrant
