import AgentGate.CompileError
import AgentGate.Manifest.Basic

/-!
# Checking an environment against a manifest

The environment of a step may hold only variables that its manifest lists, and must hold those that
it requires. A variable that is not listed is reported before ones that are missing.

- `EnvManifest.check`: the check for one manifest.
- `EnvManifest.ofName`, `EnvManifest.missingIn`: look-ups by the name of a type.
-/

namespace AgentGate.EnvManifest

/-- The manifest of the type of a name. -/
def ofName (text : String) : Except CompileError EnvManifest :=
  match OutputType.ofName? text with
  | some type => .ok (ofType type)
  | none => .error (.unknownJobType text)

/-- The required variables that an environment lacks, in the order of the manifest. -/
def missing (manifest : EnvManifest) (env : Table String) : List String :=
  manifest.requiredNames.filter fun name => !env.contains name

/-- The required variables that an environment lacks; a name of no type requires none. -/
def missingIn (text : String) (env : Table String) : List String :=
  match OutputType.ofName? text with
  | some type => (ofType type).missing env
  | none => []

/-- The first variable of an environment that the manifest does not list. -/
def undeclared? (manifest : EnvManifest) (env : Table String) : Option String :=
  env.keys.find? fun name => (manifest.var? name).isNone

/-- Every variable is listed and every required one is there. -/
def check (manifest : EnvManifest) (env : Table String) : Except ManifestFault Unit :=
  match manifest.undeclared? env with
  | some name => .error (.undeclared name)
  | none =>
    match manifest.missing env with
    | [] => .ok ()
    | names => .error (.missing names)

end AgentGate.EnvManifest
