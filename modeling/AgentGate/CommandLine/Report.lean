import AgentGate.CommandLine.Command
import AgentGate.Manifest.Check
import AgentGate.Manifest.Listing

/-!
# What a command reports

A command ends with an exit code and two texts, one for its result and one for what else there is to
say. A rejected workflow or grant ends with the code 2, as wrong arguments do, and any other failure
with the code 1.

- `Command.execute`: run a command on a storage.
- `Report.ofArguments`: run what some arguments ask for.
-/

namespace AgentGate.CommandLine

/-- How a run ends. -/
structure Report where
  code : Nat := 0
  stdout : String := ""
  stderr : String := ""

namespace Report

/-- A run that failed. -/
def ofFailure (failure : Failure) : Report :=
  { code := failure.exitCode, stderr := failure.message ++ "\n" }

/-- A run with wrong arguments. -/
def ofMisuse (misuse : Misuse) : Report :=
  { code := 2
    stderr := "error: " ++ misuse.message ++ "\n\nFor more information, try '--help'.\n" }

/-- The program's name and version. -/
def version : Report := { stdout := "compiler 0.1.0\n" }

/-- How the program is used. -/
def usage : String :=
  "\n".intercalate
    ["Compile agentic workflows into least-privilege safe-output job graphs",
      "",
      "Usage: compiler <COMMAND>",
      "",
      "Commands:",
      "  init         Write a compiler settings file with the defaults if missing",
      "  compile      Compile a workflow file into a job graph",
      "  manifest     Print the env-var manifest for one job type, or all of them",
      "  permissions  Check granted permissions against GitHub toolsets",
      "  help         Print this message or the help of the given subcommand(s)",
      ""]

/-- The report of a session. -/
def ofSession {m : Type → Type} [Monad m] (session : Session m Report) : m Report := do
  match ← ExceptT.run session with
  | .ok report => return report
  | .error failure => return ofFailure failure

end Report

/-! ## Commands -/

variable {m : Type → Type} [Monad m]

/-- Write default settings, unless that would replace a file. -/
def InitCommand.execute (storage : Storage m) (command : InitCommand) : Session m Report := do
  if (← storage.isPresent command.path) && !command.force then
    return { stderr := command.path ++ " already exists; pass --force to overwrite\n" }
  else
    storage.writeSettings command.path {}
    return {}

/-- Compile a workflow, and print the graph unless it goes to a file. A chart is printed in its
stead. -/
def CompileCommand.execute (storage : Storage m) (command : CompileCommand) :
    Session m Report := do
  let outcome ← storage.compile command.request
  let graph := outcome.compiled.graph
  let stdout :=
    if command.mermaid then graph.mermaid ++ "\n"
    else if command.request.output.isNone then graph.render
    else ""
  return { stdout, stderr := String.join (outcome.compiled.warnings.map fun text => text ++ "\n") }

/-- List manifests. -/
def ManifestCommand.execute (command : ManifestCommand) : Except Failure Report := do
  let manifests ←
    match command.type with
    | some name => do
      let manifest ← (EnvManifest.ofName name).mapError fun error =>
        Failure.ofCause (.rejected error)
      pure [manifest]
    | none => pure EnvManifest.all
  if command.json then
    return { stdout := (Json.array (manifests.map EnvManifest.toJson)).pretty ++ "\n" }
  else return { stdout := EnvManifest.listing manifests }

/-- Audit a grant, and print the least permissions. -/
def AuditCommand.execute (command : AuditCommand) : Except Failure Report :=
  let audit := command.granted.audit command.toolsets command.readOnly
  if audit.rejects command.strict then
    .error (.ofCause (.rejected (.permission audit command.strict)))
  else
    .ok
      { stdout := String.join <| "permissions:\n" ::
          audit.required.entries.map fun entry => Audit.entryLine "  " entry ++ "\n"
        stderr := if audit.hasIssues then audit.message false ++ "\n" else "" }

/-- Run a command. -/
def Command.execute (storage : Storage m) : Command → Session m Report
  | .init command => command.execute storage
  | .compile command => command.execute storage
  | .manifest command => Session.ofResult command.execute
  | .permissions command => Session.ofResult command.execute

/-- Run what some arguments ask for. -/
def Report.ofArguments (storage : Storage m) (arguments : List String) : m Report :=
  match Invocation.ofArguments arguments with
  | .ok .version => return Report.version
  | .ok (.run command) => Report.ofSession (command.execute storage)
  | .error (.misuse misuse) => return Report.ofMisuse misuse
  | .error .help =>
    if arguments.isEmpty then return { code := 2, stderr := Report.usage }
    else return { stdout := Report.usage }

end AgentGate.CommandLine
