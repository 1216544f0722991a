import AgentGate.CompileError
import AgentGate.Json.Reading

/-!
# Failures

An operation on documents and files fails for one cause, and on its way out the failure gathers what
was being done, from the outside in.

- `Failure.message`: the whole chain as one text.
- `Failure.exitCode`: how a process that fails ends.
-/

namespace AgentGate

/-- Settings that no compilation can use. -/
inductive SettingsFault where
  | blankRunner
  | zeroOutputTimeout
  | zeroAgentTimeout
  | blankDetectionCommand
  deriving DecidableEq, Repr

/-- The text of faulty settings. -/
def SettingsFault.message : SettingsFault → String
  | blankRunner => "runs-on must be a non-empty string"
  | zeroOutputTimeout => "safe-output-timeout-minutes must be > 0"
  | zeroAgentTimeout => "agent-timeout-minutes must be > 0"
  | blankDetectionCommand => "detection-command must be a non-empty string"

/-- Why an operation fails. -/
inductive Cause where
  /-- A document is not TOML, or holds what its reader cannot represent. -/
  | document
  /-- A document breaks its schema. -/
  | schema (messages : List String)
  | misfit (fault : Misfit)
  | rejected (error : CompileError)
  | settings (fault : SettingsFault)
  /-- A path that names nothing that can be replaced. -/
  | noParent (path : String)
  /-- The storage failed; the description is its own. -/
  | storage (description : String)

/-- The text of a cause. -/
def Cause.message : Cause → String
  | document => "TOML parse error"
  | schema messages => "schema validation failed:\n- " ++ "\n- ".intercalate messages
  | misfit fault => fault.message
  | rejected error => error.message
  | settings fault => fault.message
  | noParent path => "path missing parent " ++ path
  | storage description => description

/-- A cause with what was being done, outermost first. -/
structure Failure where
  context : List String
  cause : Cause

namespace Failure

/-- A failure without context. -/
def ofCause (cause : Cause) : Failure := ⟨[], cause⟩

/-- A failure of a larger operation. -/
def within (doing : String) (failure : Failure) : Failure :=
  { failure with context := doing :: failure.context }

/-- The context and the cause as one text. -/
def message (failure : Failure) : String :=
  ": ".intercalate (failure.context ++ [failure.cause.message])

/-- The exit code of a process that fails: a workflow that is rejected has its own. -/
def exitCode (failure : Failure) : Nat :=
  match failure.cause with
  | .rejected _ => 2
  | _ => 1

end Failure

end AgentGate
