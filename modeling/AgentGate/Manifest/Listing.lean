import AgentGate.Json.Writer
import AgentGate.Manifest.Basic

/-!
# Listing manifests

A manifest is listed as text, one line for each variable, or as JSON.

- `EnvManifest.lines`: a manifest as text.
- `EnvManifest.toJson`: a manifest as an object.
-/

namespace AgentGate

/-- A variable as an object; a fallback is left out where there is none. -/
def EnvVar.toJson (var : EnvVar) : Json :=
  .object <|
    [("name", .text var.name), ("required", .bool var.isRequired),
      ("description", .text var.description)]
    ++ var.fallback.toList.map fun value => ("default_value", .text value)

/-- The line of a variable. -/
def EnvVar.line (var : EnvVar) : String :=
  let marker := if var.isRequired then "required" else "optional"
  let fallback :=
    match var.fallback with
    | some value => ", default " ++ value
    | none => ""
  "  " ++ var.name ++ " (" ++ marker ++ fallback ++ "): " ++ var.description

namespace EnvManifest

/-- A manifest as an object. -/
def toJson (manifest : EnvManifest) : Json :=
  .object
    [("job_type", .text manifest.type.name), ("description", .text manifest.description),
      ("env_vars", .array (manifest.vars.map EnvVar.toJson))]

/-- The lines of a manifest: its type and purpose, then its variables. -/
def lines (manifest : EnvManifest) : List String :=
  (manifest.type.name ++ ": " ++ manifest.description) :: manifest.vars.map EnvVar.line

/-- The text of several manifests, with a blank line between them. -/
def listing (manifests : List EnvManifest) : String :=
  "\n".intercalate (manifests.map fun manifest =>
    String.join (manifest.lines.map fun line => line ++ "\n"))

end EnvManifest

end AgentGate
