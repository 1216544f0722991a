import AgentGate.Settings.Basic
import AgentGate.Toml.Tree
import AgentGate.Toml.Writer

/-!
# Settings documents

Settings are kept in a TOML document with one key for each of them. Keys of none are passed over,
and settings that are not given keep their default.

- `Settings.ofJson`: settings from JSON.
- `Settings.ofDocument?`: the settings of a document, if it can be read.
- `Settings.toDocument`: the document of some settings.
-/

namespace AgentGate.Settings

open Json

/-- The keys of the settings. -/
def shape : Shape where
  label := "struct CompilerSettings"
  fields := ["strict", "runs-on", "safe-output-timeout-minutes", "agent-timeout-minutes",
    "detection-command"]
  lenient := true

/-- The settings with one of them set. -/
def setField (settings : Settings) (field : String) (value : Json) : Except Misfit Settings :=
  match field with
  | "strict" => (readBool value).map fun v => { settings with strict := v }
  | "runs-on" => (readText value).map fun v => { settings with runsOn := v }
  | "safe-output-timeout-minutes" =>
    (readNat32 value).map fun v => { settings with outputTimeoutMinutes := v }
  | "agent-timeout-minutes" =>
    (readNat32 value).map fun v => { settings with agentTimeoutMinutes := v }
  | "detection-command" => (readText value).map fun v => { settings with detectionCommand := v }
  | _ => .ok settings

/-- Settings from JSON. -/
def ofJson : Reading Settings :=
  record shape {} setField

/-- Integers in a settings document have at most 128 bits. -/
def fitsInteger (value : Int) : Bool :=
  -Int.pow 2 127 ≤ value && value < Int.pow 2 128

/-- The settings of a document. -/
def ofDocument? (text : String) : Option Settings := do
  (ofJson (← Toml.jsonOfText? fitsInteger text)).toOption

/-- The document of some settings, with a blank line at its end. -/
def toDocument (settings : Settings) : String :=
  "\n".intercalate
    ["strict = " ++ toString settings.strict,
      "runs-on = " ++ Toml.quoted settings.runsOn,
      "safe-output-timeout-minutes = " ++ toString settings.outputTimeoutMinutes,
      "agent-timeout-minutes = " ++ toString settings.agentTimeoutMinutes,
      "detection-command = " ++ Toml.quoted settings.detectionCommand,
      "\n"]

end AgentGate.Settings
