import AgentGate.Json.Reading
import AgentGate.Permission.Basic

/-!
# Reading and writing permissions

A grant is written as a table from scopes to levels, or as one of two words for the same level on
every scope.

- `Permissions.ofJson`: a grant from JSON.
- `Permissions.toJson`: the scopes that a grant mentions.
-/

namespace AgentGate

open Json (Reading)

/-- The words for levels. -/
def Level.names : List String := [Level.none, .read, .write].map Level.name

/-- The level of a word. -/
def Level.ofWord (word : String) : Except Misfit Level :=
  (Level.ofName word).mapError fun _ => .unknownVariant word Level.names

/-- A level from its word, which may stand as the one key of an object without a value. -/
def Level.ofJson : Reading Level
  | .text word => Level.ofWord word
  | .object [(word, .null)] => Level.ofWord word
  | other => .error (.wrongType other "string or map")

namespace Permissions

/-- One entry of a grant. -/
def readEntry (entry : String × Json) : Except Misfit (Scope × Level) := do
  let scope ← (Scope.ofName entry.1).mapError fun _ =>
    .unknownVariant entry.1 (Scope.all.map Scope.name)
  return (scope, ← Level.ofJson entry.2)

/-- A grant from a table of scopes. -/
def readTable : Reading Permissions
  | .object members => do return ofList (← members.mapM readEntry)
  | other => .error (.wrongType other "a map")

/-- A grant from a table of scopes or from a word for all scopes. -/
def ofJson : Reading Permissions
  | .text "read-all" => .ok (uniform .read)
  | .text "write-all" => .ok (uniform .write)
  | .text word => .error (.permissionsWord word)
  | value => (readTable value).mapError fun _ => .noVariant "Raw"

/-- The scopes that a grant mentions, with their levels. -/
def toJson (p : Permissions) : Json :=
  .object (p.entries.map fun entry => (entry.1.name, .text entry.2.name))

end Permissions

end AgentGate
