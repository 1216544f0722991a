import AgentGate.Detection.Prompt
import AgentGate.Workflow.Basic

/-!
# The detection job

Where threat detection is active, one job reads what the agent asked for, lets an engine judge it,
and gives an output that says whether nothing was found. It may only read, and every job that
carries an output out waits for it.

- `SafeOutputs.detectionActive`: whether the job is made.
- `Engine.steps`: the steps that run an engine.
- `Detection.job`: the job.
-/

namespace AgentGate

/-- Whether the detection job is made: as the workflow says, or else whenever there is an output to
vet. -/
def SafeOutputs.detectionActive (outputs : SafeOutputs) : Bool :=
  match outputs.threatDetection with
  | some setting => setting.isEnabled
  | none => !outputs.jobs.isEmpty || !outputs.enabledTypes.isEmpty

/-! ## The engine -/

/-- An engine that is run by a shell command, with the prompt as its last argument. -/
structure Engine where
  command : String
  deriving DecidableEq, Repr

namespace Engine

/-- The command that runs an engine when none is configured. -/
def defaultCommand : String := "claude --print"

/-- The name of the program that is run. -/
def id (engine : Engine) : String :=
  Text.firstWord engine.command

/-- The steps that run an engine and write what it says to a file. -/
def steps (engine : Engine) (logPath : String) : List Step :=
  let script := Text.trim engine.command
    ++ " \"$(cat \"$GH_AW_PROMPT\")\" 2>&1 | tee " ++ logPath
  [(Step.ofScript "Execute threat detection" script).withId "detection_engine"
    |>.withEnv "GH_AW_ENGINE_ID" engine.id]

end Engine

/-! ## The job -/

namespace Detection

/-- The file with the prompt. -/
def promptPath : String := directory ++ "/prompts/detection.md"

/-- The file with what the engine said. -/
def logPath : String := directory ++ "/detection.log"

/-- The line that ends the built-in instructions in the script that writes them. -/
def promptEnd : String := "THREAT_DETECTION_EOF"

/-- How many minutes the job may take. -/
def timeoutMinutes : Nat := 10

/-- Whether instructions are fetched from the network. -/
def isUrl (prompt : String) : Bool :=
  "https://".toList.isPrefixOf prompt.toList || "http://".toList.isPrefixOf prompt.toList

/-- The instructions that the workflow names in place of the built-in ones. -/
def customPrompt? (outputs : SafeOutputs) : Option String := do
  let given ← (← outputs.threatDetection).settings?
  let prompt := Text.trim (← given.prompt)
  if prompt = "" then none else some prompt

/-- The lines that put the instructions in place. -/
def promptSetup (workflowName : String) : Option String → List String
  | some custom =>
    if isUrl custom then ["curl -sSfL -o " ++ promptPath ++ " \"" ++ custom ++ "\""]
    else ["cp \"" ++ custom ++ "\" " ++ promptPath]
  | none =>
    ["cat > " ++ promptPath ++ " << '" ++ promptEnd ++ "'", prompt workflowName, promptEnd]

/-- The script that prepares the run of the engine. -/
def setupScript (workflowName : String) (custom : Option String) : String :=
  "\n".intercalate <|
    ["mkdir -p " ++ directory ++ "/prompts"]
      ++ promptSetup workflowName custom
      ++ ["echo \"GH_AW_PROMPT=" ++ promptPath ++ "\" >> \"$GITHUB_ENV\""]

/-- The script that reads the verdict from what the engine said. -/
def verdictScript : String :=
  "\n".intercalate
    ["verdict=$(grep -o 'THREAT_DETECTION_RESULT:.*' \"" ++ logPath
        ++ "\" 2>/dev/null | tail -n 1 | cut -d: -f2- || true)",
      "if [ -n \"$verdict\" ] && echo \"$verdict\" | jq -e '(.prompt_injection or .secret_leak or "
        ++ ".malicious_patch) | not' > /dev/null; then",
      "  echo \"success=true\" >> \"$GITHUB_OUTPUT\"",
      "else",
      "  echo \"::error::Threat detection blocked safe outputs: $verdict\"",
      "  echo \"success=false\" >> \"$GITHUB_OUTPUT\"",
      "fi"]

/-- The steps before the engine runs. -/
def preparation (workflowName : String) (custom : Option String) : List Step :=
  let checkout :=
    match custom with
    | some prompt => if isUrl prompt then [] else [Step.checkout]
    | none => []
  checkout
    ++ [Artifact.downloadStep (directory ++ "/"),
      (Artifact.fetchStep "Download patch artifact" Artifact.patch (directory ++ "/")).withCondition
        (Embedded.jobOutput BuiltinJob.agent.name "has_patch" ++ " == 'true'"),
      (Step.ofScript "Setup threat detection" (setupScript workflowName custom)).withEnv
        "GH_AW_WORKFLOW_NAME" workflowName]

/-- The steps after the engine has run. -/
def evaluation : List Step :=
  [(Step.ofScript "Parse threat detection results" verdictScript).withId "parse_results",
    (Artifact.uploadStep "Upload threat detection log" "always()" "threat-detection.log"
      logPath).withInput "if-no-files-found" "ignore"]

/-- The steps that the workflow adds. -/
def extraSteps (outputs : SafeOutputs) : List Step :=
  match outputs.threatDetection.bind Detection.settings? with
  | some given => given.steps
  | none => []

/-- The detection job. -/
def job (w : Workflow) (outputs : SafeOutputs) (engine : Engine) (runsOn : String) : Job where
  name := BuiltinJob.detection.name
  runsOn := runsOn
  needs := [BuiltinJob.agent.name]
  timeoutMinutes := some timeoutMinutes
  permissions := Permissions.empty.set .contents .read
  outputs := Table.ofList
    [("success", Embedded.embed (Embedded.stepOutput "parse_results" "success"))]
  steps :=
    preparation w.name (customPrompt? outputs)
      ++ engine.steps logPath
      ++ extraSteps outputs
      ++ evaluation

end Detection

end AgentGate
