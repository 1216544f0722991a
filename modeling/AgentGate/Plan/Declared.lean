import AgentGate.Condition
import AgentGate.Plan.Opening

/-!
# Jobs that the workflow declares

A workflow declares jobs of its own beside the built-in ones, and jobs for outputs of its own under
`safe-outputs`. The former run after the agent unless they ask to run before activation; the latter
run like the jobs of the output types.

- `CustomJob.toJob`: the job as declared.
- `CustomJob.besideAgent`: a job of the workflow.
- `CustomJob.forOutput`: a job for an output of the workflow's own.
-/

namespace AgentGate

namespace CustomJob

/-- The job as declared, each of its needs once. -/
def toJob (config : CustomJob) (name runsOn : String) : Job :=
  { name
    condition := config.condition
    runsOn := config.runsOn.getD runsOn
    permissions := config.permissions.getD ∅
    timeoutMinutes := config.timeoutMinutes
    env := config.env
    outputs := config.outputs
    steps := config.steps : Job }.addNeeds config.needs

/-- A job of the workflow: it runs after the agent unless it asks to run before activation. -/
def besideAgent (config : CustomJob) (name runsOn : String) : Job :=
  let job := config.toJob name runsOn
  if job.needs.contains BuiltinJob.preActivation.name then job
  else job.addNeed BuiltinJob.agent.name

/-- The condition of a job for an output: the one it declares, or that the agent asked for the
output; and that detection found nothing, where it is active. -/
def outputCondition (config : CustomJob) (name : String) (detectionActive : Bool) : Condition :=
  let own :=
    match config.condition with
    | some text => .raw text
    | none =>
      Condition.conj
        [.raw "!cancelled()", .agentNotSkipped, Condition.outputNamePresent name]
  if detectionActive then own.andAlso .detectionSucceeded else own

/-- The variables of a job for an output: its own, those of all outputs, and where to find what the
agent asked for. -/
def outputEnv (config : CustomJob) (outputs : SafeOutputs) : Table String :=
  (outputs.env.entries ++ [("GH_AW_AGENT_OUTPUT", Artifact.outputPath)]).foldl
    (fun env entry => env.insertIfNew entry.1 entry.2) config.env

/-- The built-in jobs that jobs for outputs run after. -/
def outputNeeds (detectionActive : Bool) : List String :=
  BuiltinJob.agent.name :: if detectionActive then [BuiltinJob.detection.name] else []

/-- A job for an output of the workflow's own. -/
def forOutput (config : CustomJob) (name runsOn : String) (outputs : SafeOutputs)
    (options : CompileOptions) (detectionActive : Bool) : Job :=
  { (config.toJob name runsOn).addNeeds (outputNeeds detectionActive) with
    condition := some (config.outputCondition name detectionActive).text
    timeoutMinutes := some (config.timeoutMinutes.getD options.outputTimeoutMinutes)
    env := config.outputEnv outputs
    steps := Artifact.downloadStep Artifact.outputDirectory :: config.steps }

end CustomJob

end AgentGate
