import AgentGate.Detection.Job
import AgentGate.Failure
import AgentGate.Plan.Opening

/-!
# Settings of the compiler

Settings apply to every workflow that is compiled with them, where the workflow does not say
otherwise.

- `Settings.check`: settings that a compilation can use.
-/

namespace AgentGate

/-- The settings: options of the compilation, and the command that vets outputs. -/
structure Settings extends CompileOptions where
  detectionCommand : String := Engine.defaultCommand
  deriving DecidableEq, Inhabited

namespace Settings

/-- The engine that vets outputs. -/
def engine (settings : Settings) : Engine := ⟨settings.detectionCommand⟩

/-- What is wrong with settings. -/
def fault? (settings : Settings) : Option SettingsFault :=
  if Text.allBlank settings.runsOn then some .blankRunner
  else if settings.outputTimeoutMinutes = 0 then some .zeroOutputTimeout
  else if settings.agentTimeoutMinutes = 0 then some .zeroAgentTimeout
  else if Text.allBlank settings.detectionCommand then some .blankDetectionCommand
  else none

/-- The settings can be used. -/
def check (settings : Settings) : Except Failure Unit :=
  match settings.fault? with
  | some fault => .error (.ofCause (.settings fault))
  | none => .ok ()

end Settings

end AgentGate
