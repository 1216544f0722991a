import AgentGate.Job.Builtin
import AgentGate.Json.Writer
import AgentGate.Workflow.Basic

/-!
# The jobs up to the agent

A run starts with the activation job and goes on with the agent. Before activation there may be a
job that checks whether the workflow runs at all, and jobs of the workflow that ask to run that
early.

- `CompileOptions`: what the surroundings of a workflow decide.
- `Workflow.preActivationJob`, `Workflow.activationJob`, `Workflow.agentJob`: the built-in jobs.
- `Workflow.earlyJobs`: the jobs of the workflow that run before activation.
-/

namespace AgentGate

/-- What the surroundings of a workflow decide. -/
structure CompileOptions where
  /-- Whether excess permissions count as an error. -/
  strict : Bool := false
  /-- The runner of jobs that name none. -/
  runsOn : String := "ubuntu-latest"
  /-- How many minutes the job of an output may take. -/
  outputTimeoutMinutes : Nat := 10
  /-- How many minutes the agent may take when the workflow does not say. -/
  agentTimeoutMinutes : Nat := 20
  deriving DecidableEq, Inhabited

namespace Workflow

/-- The runner of jobs that name none. -/
def runner (w : Workflow) (options : CompileOptions) : String :=
  w.runsOn.getD options.runsOn

/-- The jobs of the workflow that run before activation, since they ask to run after the job in
front of it. -/
def earlyJobs (w : Workflow) : List String :=
  (w.jobs.entries.filter fun entry =>
    entry.2.needs.contains BuiltinJob.preActivation.name).map Prod.fst

/-- Whether there is a job in front of activation. -/
def hasPreActivation (w : Workflow) : Bool :=
  w.command.isSome || w.stopTime.isSome || !w.earlyJobs.isEmpty

/-- Permission to read the repository. -/
def readContents : Permissions :=
  Permissions.empty.set .contents .read

/-! ## Before activation -/

/-- The steps that decide whether the workflow runs, each with the check of its verdict. -/
def gates (w : Workflow) : List (Step × String) :=
  let stopTime := w.stopTime.toList.map fun stopTime =>
    ((Step.ofModule "Check stop-time limit" "check_stop_time.cjs").withId "check_stop_time"
        |>.withEnv "GH_AW_STOP_TIME" stopTime
        |>.withEnv "GH_AW_WORKFLOW_NAME" w.name,
      Embedded.stepOutput "check_stop_time" "stop_time_ok" ++ " == 'true'")
  let command := w.command.toList.map fun command =>
    ((Step.ofModule "Check command position" "check_command_position.cjs").withId
          "check_command_position"
        |>.withEnv "GH_AW_COMMAND" command,
      Embedded.stepOutput "check_command_position" "command_position_ok" ++ " == 'true'")
  stopTime ++ command

/-- The step that activates the workflow where nothing is to be checked. -/
def activateStep : Step :=
  (Step.ofScript "Activate" "echo \"activated=true\" >> \"$GITHUB_OUTPUT\"").withId "activate"

/-- The job that decides whether the workflow runs. -/
def preActivationJob (w : Workflow) (runsOn : String) : Job :=
  let (steps, activated) :=
    match w.gates with
    | [] => ([activateStep], Embedded.stepOutput "activate" "activated")
    | gates => (gates.map Prod.fst, " && ".intercalate (gates.map Prod.snd))
  { name := BuiltinJob.preActivation.name
    runsOn
    permissions := readContents
    outputs := Table.ofList [("activated", Embedded.embed activated)]
    steps }

/-! ## Activation -/

/-- Permission to read the repository and, where a reaction is added, to write on what can be
commented. -/
def reactionPermissions (w : Workflow) : Permissions :=
  if w.reaction.isSome then
    [Scope.discussions, .issues, .pullRequests].foldl
      (fun p scope => p.set scope .write) readContents
  else readContents

/-- The outputs of the step that adds the reaction. -/
def reactionOutputs : List String :=
  ["comment_id", "comment_repo", "comment_url", "reaction_id"]

/-- The step that adds the reaction. -/
def reactionStep (w : Workflow) (reaction : String) : Step :=
  (Step.ofModule ("Add " ++ reaction ++ " reaction to the triggering item")
      "add_reaction_and_edit_comment.cjs").withId "react"
    |>.withEnv "GH_AW_REACTION" reaction
    |>.withEnv "GH_AW_WORKFLOW_NAME" w.name

/-- Outputs of a job, each read from the output of the same name of one of its steps. -/
def outputsOfStep (step : String) (names : List String) : Table String :=
  Table.ofList (names.map fun name => (name, Embedded.embed (Embedded.stepOutput step name)))

/-- The job that starts the run. -/
def activationJob (w : Workflow) (runsOn : String) : Job where
  name := BuiltinJob.activation.name
  runsOn := runsOn
  needs :=
    (if w.hasPreActivation then [BuiltinJob.preActivation.name] else []) ++ w.earlyJobs
  condition :=
    if w.hasPreActivation then
      some (Embedded.jobOutput BuiltinJob.preActivation.name "activated" ++ " == 'true'")
    else none
  permissions := w.reactionPermissions
  outputs := if w.reaction.isSome then outputsOfStep "react" reactionOutputs else ∅
  steps :=
    (Step.ofModule "Check workflow file timestamps" "check_workflow_timestamp.cjs").withEnv
        "GH_AW_WORKFLOW_FILE" w.fileName
      :: w.reaction.toList.map w.reactionStep

/-! ## The agent -/

/-- The names of the outputs that the agent may ask for. -/
def allowedOutputs (outputs : SafeOutputs) : List String :=
  outputs.enabledTypes.map OutputType.name ++ outputs.jobs.keys

/-- The steps that collect what the agent asked for and keep it for the jobs that follow. -/
def collectingSteps (outputs : SafeOutputs) : List Step :=
  [(Step.ofModule "Collect agent output" "collect_ndjson_output.cjs").withId "collect_output"
      |>.withEnv "GH_AW_ALLOWED_SAFE_OUTPUTS" (Json.texts (allowedOutputs outputs)).compact,
    (Artifact.uploadStep "Upload agent output" "always()" Artifact.agentOutput
        (Embedded.embed "env.GH_AW_AGENT_OUTPUT")).withInput "if-no-files-found" "warn",
    Artifact.uploadStep "Upload git patch"
      ("always() && " ++ Embedded.stepOutput "collect_output" "has_patch" ++ " == 'true'")
      Artifact.patch ("/tmp/gh-aw/" ++ Artifact.patch)]

/-- The outputs of the agent's job. -/
def collectedOutputs : List String :=
  ["output", "output_types", "has_patch"]

/-- The job that runs the agent. -/
def agentJob (w : Workflow) (options : CompileOptions) : Job where
  name := BuiltinJob.agent.name
  runsOn := w.runner options
  needs := [BuiltinJob.activation.name]
  permissions := w.permissions
  timeoutMinutes := some (w.timeoutMinutes.getD options.agentTimeoutMinutes)
  env :=
    if w.safeOutputs.isSome then
      Table.ofList [("GH_AW_SAFE_OUTPUTS", "/tmp/gh-aw/safeoutputs/outputs.jsonl")]
    else ∅
  outputs :=
    if w.safeOutputs.isSome then outputsOfStep "collect_output" collectedOutputs else ∅
  steps :=
    Step.checkout :: w.safeOutputs.toList.flatMap collectingSteps

end Workflow

end AgentGate
