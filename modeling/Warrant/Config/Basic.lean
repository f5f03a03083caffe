import Warrant.Config.Files
import Warrant.Config.Log
import Warrant.Schema.Document

/-!
# Configurations

A configuration says where the schema comes from, how long statements may run, and how to log.

## Main definitions

- `Config` — a configuration
- `Config.toJson`, `Config.ofJson?` — the JSON form
- `Config.ofFile` — the configuration in a file
- `Config.loadSchema` — the schema that a configuration means
- `ConfigError` — why there is none
-/

namespace Warrant

/-- Where the schema comes from, how long statements may run, and how to log. -/
structure Config where
  schema : Option Schema
  schemaPath : Option String
  /-- How long a statement may run, in milliseconds. -/
  timeout : Option Nat
  log : Option LogConfig

/-- Why a configuration is of no use. -/
inductive ConfigError
  /-- There is no such file. -/
  | unreadable
  /-- The document describes no configuration. -/
  | malformed
  | schema (e : Schema.LoadError)
  /-- The schema comes from two places. -/
  | conflictingSources
  /-- The schema declares no entity of a kind. -/
  | missingEntity (kind : EntityKind)

def ConfigError.write : ConfigError → String
  | .unreadable => "failed to read config file"
  | .malformed => "failed to parse config"
  | .schema .unreadable => "failed to read schema file"
  | .schema .malformed => "failed to parse schema"
  | .schema (.invalid fault) => fault.write
  | .conflictingSources => "config sets both an inline schema and schema_path"
  | .missingEntity kind => "schema declares no " ++ kind.name ++ " entity"

namespace Config

/-- The standard schema, no limit, and no logging. -/
def empty : Config := ⟨none, none, none, none⟩

/-- The longest time that a configuration can name, in milliseconds. -/
def maxTimeout : Nat := UInt64.size - 1

/-- The configuration with a limit in seconds and nanoseconds. The limit is cut to milliseconds. -/
def withTimeout (c : Config) (seconds nanoseconds : Nat) : Config :=
  { c with timeout := some (min (seconds * 1000 + nanoseconds / 1000000) maxTimeout) }

/-- A time in milliseconds. -/
def timeout? : Json → Option Nat
  | .int (.ofNat n) => if n ≤ maxTimeout then some n else none
  | _ => none

def toJson (c : Config) : Json :=
  .object [
    ("schema", (c.schema.map Schema.toJson).getD .null),
    ("schema_path", Json.optionalString c.schemaPath),
    ("default_timeout_ms", (c.timeout.map fun n => Json.int n).getD .null),
    ("log", (c.log.map LogConfig.toJson).getD .null)]

/-- The configuration that a JSON value describes. It may leave out anything, and it must not say
    anything else. -/
def ofJson? (j : Json) : Option Config := do
  let r ← j.record? ["schema", "schema_path", "default_timeout_ms", "log"] true
  let schema ← r.omissible? "schema" Schema.ofJson?
  let schemaPath ← r.omissible? "schema_path" Json.string?
  let timeout ← r.omissible? "default_timeout_ms" timeout?
  let log ← r.omissible? "log" LogConfig.ofJson?
  return ⟨schema, schemaPath, timeout, log⟩

/-- The configuration in a document. -/
def read? (document : String) : Option Config :=
  Json.read? document >>= ofJson?

/-- **The configuration in a file.** The path of a schema starts in the directory of the file. -/
def ofFile (files : Files) (path : String) : Except ConfigError Config :=
  match files.read? path with
  | none => .error .unreadable
  | some document =>
    match read? document with
    | none => .error .malformed
    | some c => .ok { c with schemaPath := c.schemaPath.map (Files.beside path) }

/-- The configuration with the path of its schema as it is shown. -/
def trimmed (c : Config) : Config :=
  { c with schemaPath := c.schemaPath.map Files.trimmed }

/-- The schema in a file. -/
def readSchema (files : Files) (path : String) : Except Schema.LoadError Schema :=
  match files.read? path with
  | none => .error .unreadable
  | some document => Schema.read document

/-- **The schema that a configuration means**: the one inside, the one in a file, or the standard
    one. It keeps the rules. -/
def loadSchema (c : Config) (files : Files) : Except ConfigError Schema :=
  match c.schema, c.schemaPath with
  | some _, some _ => .error .conflictingSources
  | some s, none =>
    match s.validate with
    | .ok () => .ok s
    | .error fault => .error (.schema (.invalid fault))
  | none, some path => (readSchema files path).mapError .schema
  | none, none => .ok .standard

end Config

end Warrant
