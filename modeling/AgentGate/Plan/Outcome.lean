import AgentGate.Detection.Job
import AgentGate.Handler.Step
import AgentGate.Manifest.Check
import AgentGate.Plan.Declared

/-!
# The jobs after the agent

Each output type that is turned on and has a handler gets a job, and so does each output of the
workflow's own. Where detection is active they all wait for it. The conclusion job waits for all of
them and reports the outcome.

- `HandlerStep.toJob`: the job around the step of a handler.
- `Workflow.handlerJob`: the job of an output type, with its environment checked.
- `Workflow.conclusionJob`: the last job.
- `Workflow.outcomeJobs`: all of these jobs in order, or what keeps one of them from being made.
-/

namespace AgentGate

/-- The job around the step of a handler. -/
def HandlerStep.toJob (step : HandlerStep) (type : OutputType) (outputs : SafeOutputs)
    (runsOn : String) (options : CompileOptions) (detectionActive : Bool) : Job :=
  { name := type.name
    condition := some step.condition.text
    runsOn
    permissions := step.permissions
    timeoutMinutes := some options.outputTimeoutMinutes
    env := outputs.env
    outputs := step.outputs.mapValues fun key => Embedded.embed (Embedded.stepOutput step.id key)
    steps :=
      Artifact.downloadStep Artifact.outputDirectory :: step.preSteps
        ++ { Step.ofModule step.title step.script with
              id := some step.id
              env := step.env
            }.withInput "github-token" step.token
        :: step.postSteps : Job }.addNeeds (CustomJob.outputNeeds detectionActive ++ step.needs)

namespace Workflow

/-- The job of an output type, if the type is turned on. Its environment has to fit the manifest.
A type that resolves temporary identifiers waits for the job that gives them. -/
def handlerJob (w : Workflow) (type : OutputType) (ctx : HandlerContext) (runsOn : String)
    (options : CompileOptions) : Except CompileError (Option Job) := do
  match ← (HandlerStep.build type w ctx).mapError .configuration with
  | none => return none
  | some step =>
    ((EnvManifest.ofType type).check step.env).mapError (.manifest type)
    let job := step.toJob type ctx.outputs runsOn options ctx.detectionActive
    let identifiers :=
      if type.requiresTemporaryIds then
        (ctx.temporaryIds.filter fun ref => ref.job ≠ job.name).map OutputRef.job
      else none
    return some (job.addNeeds identifiers.toList)

/-! ## The conclusion -/

/-- The results of jobs, by their names. -/
def results (jobs : List String) : Table Json :=
  Table.ofList (jobs.map fun name => (name, .text (Embedded.embed ("needs." ++ name ++ ".result"))))

/-- How the agent's job ended. -/
def agentResult : String :=
  Embedded.embed ("needs." ++ BuiltinJob.agent.name ++ ".result")

/-- The step that reports the results of jobs. -/
def summaryStep (w : Workflow) (jobs : List String) : Step :=
  (Step.ofModule "Summarize safe output results" "summarize_results.cjs").withEnv
      "GH_AW_WORKFLOW_NAME" w.name
    |>.withEnv "GH_AW_AGENT_CONCLUSION" agentResult
    |>.withEnv "GH_AW_SAFE_OUTPUT_RESULTS" (Json.ofTable (results jobs)).compact

/-- The step that completes the comment made with the reaction. -/
def completionStep (w : Workflow) : Step :=
  let comment (output : String) := Embedded.jobOutput BuiltinJob.activation.name output
  let runUrl :=
    Embedded.embed "github.server_url" ++ "/" ++ Embedded.embed "github.repository"
      ++ "/actions/runs/" ++ Embedded.embed "github.run_id"
  (Step.ofModule "Update reaction comment with completion status"
      "notify_comment.cjs").withCondition (comment "comment_id" ++ " != ''")
    |>.withEnv "GH_AW_COMMENT_ID" (Embedded.embed (comment "comment_id"))
    |>.withEnv "GH_AW_COMMENT_REPO" (Embedded.embed (comment "comment_repo"))
    |>.withEnv "GH_AW_RUN_URL" runUrl
    |>.withEnv "GH_AW_WORKFLOW_NAME" w.name
    |>.withEnv "GH_AW_AGENT_CONCLUSION" agentResult

/-- The job that waits for the jobs of outputs and reports the outcome. -/
def conclusionJob (w : Workflow) (runsOn : String) (types : List OutputType)
    (custom : List String) : Job :=
  let jobs := types.map OutputType.name ++ custom
  { name := BuiltinJob.conclusion.name
    needs := BuiltinJob.agent.name :: BuiltinJob.activation.name :: jobs
    condition := some (Condition.conclusion (types.filter OutputType.reportsItself)).text
    runsOn
    permissions := w.reactionPermissions
    steps :=
      [Artifact.downloadStep Artifact.outputDirectory, w.summaryStep jobs]
        ++ if w.reaction.isSome then [w.completionStep] else [] }

/-! ## All jobs after the agent -/

/-- The jobs of output types, in the order of the registry. -/
def handlerJobs (w : Workflow) (registry : Registry) (ctx : HandlerContext) (runsOn : String)
    (options : CompileOptions) : List (Except CompileError Job) :=
  registry.types.filterMap fun type =>
    match w.handlerJob type ctx runsOn options with
    | .error error => some (.error error)
    | .ok job => job.map .ok

/-- The jobs after the agent, in order. -/
def outcomeJobs (w : Workflow) (outputs : SafeOutputs) (registry : Registry) (engine : Engine)
    (options : CompileOptions) : List (Except CompileError Job) :=
  let runsOn := outputs.runsOn.getD (w.runner options)
  let active := outputs.detectionActive
  let ctx := HandlerContext.ofRegistry registry outputs active
  (if active then [.ok (Detection.job w outputs engine runsOn)] else [])
    ++ w.handlerJobs registry ctx runsOn options
    ++ outputs.jobs.entries.map (fun entry =>
      .ok (entry.2.forOutput entry.1 runsOn outputs options active))
    ++ [.ok (w.conclusionJob runsOn (registry.types.filter outputs.isEnabled) outputs.jobs.keys)]

end Workflow

end AgentGate
