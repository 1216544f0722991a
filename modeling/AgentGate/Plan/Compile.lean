import AgentGate.Plan.Outcome
import AgentGate.Reference

/-!
# Compiling a workflow

A workflow is compiled to a job graph in which every edge is either fixed by the kind of the job,
declared, or follows from a reference to a declared job. The first error ends the compilation.

- `Workflow.checkPermissions`, `Workflow.checkDeclared`: what is checked before any job is made.
- `JobGraph.wireReferences`: the edges that follow from references.
- `Workflow.compile`: the graph, validated, with the warnings.
-/

namespace AgentGate

/-- A validated job graph with the warnings that its compilation gave. -/
structure Compiled where
  graph : JobGraph
  warnings : List String
  deriving DecidableEq, Inhabited

/-- The graph in which each job that is not built in also needs the declared jobs that its texts
refer to. -/
def JobGraph.wireReferences (g : JobGraph) (declared : List String) : JobGraph :=
  g.rewire fun job =>
    if BuiltinJob.reserves job.name then job.needs
    else (job.addNeeds (Reference.jobs job.texts declared job.name)).needs

namespace Workflow

/-! ## Checks before any job is made -/

/-- The name of the workflow is not blank. -/
def checkName (w : Workflow) : Except CompileError Unit :=
  if Text.trim w.name = "" then .error (.configuration .emptyWorkflowName) else .ok ()

/-- What the agent is granted, against what its toolsets need. -/
def audit? (w : Workflow) : Option Audit :=
  w.githubTool.map fun tool => w.permissions.audit tool.toolsets tool.readOnly

/-- The agent is granted what its toolsets need. More than that is a warning, or an error when
strict. -/
def checkPermissions (w : Workflow) (strict : Bool) : Except CompileError (List String) :=
  match w.audit? with
  | none => .ok []
  | some audit =>
    if audit.rejects strict then .error (.permission audit strict)
    else .ok (if audit.excess.isEmpty then [] else [audit.message false])

/-- All jobs that the workflow declares: its own, then those for outputs. -/
def declaredJobs (w : Workflow) : List (String × CustomJob) :=
  w.jobs.entries ++ w.safeOutputs.toList.flatMap fun outputs => outputs.jobs.entries

/-- The names of all declared jobs, ascending and each once. -/
def declaredNames (w : Workflow) : List String :=
  Table.distinct (w.declaredJobs.map Prod.fst)

/-- What is wrong with a declared job: its name is taken, or it has nothing to do. -/
def declaredFault? (entry : String × CustomJob) : Option SettingFault :=
  if BuiltinJob.reserves entry.1 then some (.reservedJobName entry.1)
  else if entry.2.steps.isEmpty then some (.jobWithoutSteps entry.1)
  else none

/-- The declared jobs have names of their own and something to do. -/
def checkDeclared (w : Workflow) : Except CompileError Unit :=
  match w.declaredJobs.findSome? declaredFault? with
  | some fault => .error (.configuration fault)
  | none => .ok ()

/-! ## Compilation -/

/-- The jobs of a workflow in order, or what keeps one of them from being made. -/
def candidateJobs (w : Workflow) (registry : Registry) (engine : Engine)
    (options : CompileOptions) : List (Except CompileError Job) :=
  let runsOn := w.runner options
  (if w.hasPreActivation then [.ok (w.preActivationJob runsOn)] else [])
    ++ [.ok (w.activationJob runsOn), .ok (w.agentJob options)]
    ++ w.jobs.entries.map (fun entry => .ok (entry.2.besideAgent entry.1 runsOn))
    ++ w.safeOutputs.toList.flatMap fun outputs => w.outcomeJobs outputs registry engine options

/-- Compile a workflow to a validated job graph. -/
def compile (w : Workflow) (registry : Registry) (engine : Engine) (options : CompileOptions) :
    Except CompileError Compiled := do
  w.checkName
  let warnings ← w.checkPermissions (w.strict || options.strict)
  w.checkDeclared
  let jobs ← JobGraph.assemble .graph (w.candidateJobs registry engine options)
  let graph := jobs.wireReferences w.declaredNames
  graph.validate.mapError .graph
  return { graph, warnings }

end Workflow

end AgentGate
