import AgentGate.Job.Json
import AgentGate.Job.Order
import AgentGate.Plan.Compile
import AgentGate.Settings.Document
import AgentGate.Storage.Basic
import AgentGate.Workflow.Document

/-!
# Documents in files

Workflows and settings are read from files, and job graphs and settings are written to them.

- `Storage.loadSettings`: settings, or the defaults where there is no file.
- `Storage.loadWorkflow`: a workflow, which remembers the file it comes from.
- `Storage.compile`: the compilation of a file with the settings of another.
-/

namespace AgentGate

/-- What to compile, and with what. -/
structure CompileRequest where
  workflow : String
  /-- The file with the settings. -/
  config : Option String := none
  /-- The file for the job graph. -/
  output : Option String := none
  strict : Bool := false
  deriving DecidableEq, Repr

/-- A workflow that has been compiled. -/
structure Outcome where
  workflowName : String
  compiled : Compiled
  /-- The jobs in an order in which they can run. -/
  order : List String

namespace Storage

variable {m : Type → Type} [Monad m]

/-- The settings in a file, or the defaults where there is none. -/
def loadSettings (storage : Storage m) (path : String) : Session m Settings := do
  if ← storage.isPresent path then
    let text ← Session.ofStorage ("read " ++ path) (storage.read path)
    match Settings.ofDocument? text with
    | none => throw ⟨["parse " ++ path], .document⟩
    | some settings =>
      Session.within ("invalid settings in " ++ path) (Session.ofResult settings.check)
      return settings
  else return {}

/-- Put a file with settings in place. -/
def writeSettings (storage : Storage m) (path : String) (settings : Settings) : Session m Unit := do
  Session.ofResult settings.check
  storage.replace path settings.toDocument

/-- The workflow in a file. One that names no source has the file as its source. -/
def loadWorkflow (storage : Storage m) (path : String) : Session m Workflow := do
  let text ← Session.ofStorage ("read " ++ path) (storage.read path)
  let w ← Session.within ("load workflow " ++ path) (Session.ofResult (Workflow.ofDocument text))
  return { w with source := some (w.source.getD path) }

/-- Put a file with a job graph in place. -/
def writeGraph (storage : Storage m) (path : String) (graph : JobGraph) : Session m Unit :=
  Session.within ("write graph " ++ path) (storage.replace path graph.render)

/-- Compile the workflow in a file, and write its job graph where one is asked for. -/
def compile (storage : Storage m) (request : CompileRequest) : Session m Outcome := do
  let settings ←
    match request.config with
    | some path => storage.loadSettings path
    | none => pure {}
  let options := { settings.toCompileOptions with strict := settings.strict || request.strict }
  let w ← storage.loadWorkflow request.workflow
  let compiled ← Session.ofResult <|
    (w.compile .default settings.engine options).mapError fun error =>
      ⟨["compile " ++ request.workflow], .rejected error⟩
  let order ← Session.ofResult <|
    compiled.graph.topologicalOrder.mapError fun fault => .ofCause (.rejected (.graph fault))
  match request.output with
  | some path => storage.writeGraph path compiled.graph
  | none => pure ()
  return { workflowName := w.name, compiled, order }

end Storage

end AgentGate
