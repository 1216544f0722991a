import AgentGate.Permission.Reading
import AgentGate.Text.Digits
import AgentGate.Workflow.Basic

/-!
# Reading a workflow

The types of a workflow from JSON. Keys are written with hyphens, keys of no field are refused, and
fields that are not given keep their default.

- `Target.ofText?`: a target from its text.
- `SafeOutputs.ofJson`: the outputs, where one type has two spellings of its key.
- `Workflow.ofJson`: a workflow.
-/

namespace AgentGate

open Json

/-! ## Small types -/

/-- A natural number of at most 64 bits from its digits, with or without a plus sign. -/
def nat64OfText? (text : String) : Option Nat :=
  let digits :=
    match text.toList with
    | '+' :: rest => rest
    | digits => digits
  (Text.decimalValue? digits).filter fun value => value < Nat.pow 2 64

/-- The target of a text without the blanks around it. -/
def Target.ofText? (text : String) : Option Target :=
  match Text.trim text with
  | "triggering" => some .triggering
  | "*" => some .any
  | trimmed => (nat64OfText? trimmed).map .number

/-- A target from a number or from its text. -/
def Target.ofJson : Reading Target
  | .int value => (readNat64 (.int value)).mapError (fun _ => .noVariant "Raw") |>.map .number
  | .text text =>
    match Target.ofText? text with
    | some target => .ok target
    | none => .error (.target (Text.trim text))
  | _ => .error (.noVariant "Raw")

/-- A switch: a truth value turns it on with default settings or off, settings turn it on. -/
def Switch.ofJson {α : Type} (default : α) (readSettings : Reading α) : Reading (Switch α) :=
  choice "Raw"
    (fun value => do return if ← readBool value then .enabled default else .disabled)
    (fun value => (readSettings value).map .enabled)

/-- A list of texts, of which a single one may stand alone. -/
def readOneOrMany : Reading (List String) :=
  choice "OneOrMany" (fun value => (readText value).map fun text => [text]) (list readText)

/-- The names in a list of texts, each of which may hold several names between commas. -/
def readNames : Reading (List String) := fun value => do
  let texts ← readOneOrMany value
  return (texts.flatMap (Text.pieces ',')).map Text.trim |>.filter fun name => name ≠ ""

/-! ## Steps and custom jobs -/

/-- The keys of a step. -/
def Step.shape : Shape where
  label := "struct Step"
  fields := ["name", "id", "if", "uses", "run", "with", "env"]

/-- A step with one field set. -/
def Step.setField (step : Step) (field : String) (value : Json) : Except Misfit Step :=
  match field with
  | "name" => (optional readText value).map fun v => { step with name := v }
  | "id" => (optional readText value).map fun v => { step with id := v }
  | "if" => (optional readText value).map fun v => { step with condition := v }
  | "uses" => (optional readText value).map fun v => { step with uses := v }
  | "run" => (optional readText value).map fun v => { step with run := v }
  | "with" => (table readText value).map fun v => { step with inputs := v }
  | "env" => (table readText value).map fun v => { step with env := v }
  | _ => .ok step

/-- A step. -/
def Step.ofJson : Reading Step :=
  record Step.shape {} Step.setField

/-- The keys of a custom job. -/
def CustomJob.shape : Shape where
  label := "struct CustomJobConfig"
  fields := ["description", "needs", "if", "runs-on", "permissions", "timeout-minutes", "env",
    "outputs", "steps"]

/-- A custom job with one field set. -/
def CustomJob.setField (job : CustomJob) (field : String) (value : Json) :
    Except Misfit CustomJob :=
  match field with
  | "description" => (optional readText value).map fun v => { job with description := v }
  | "needs" => (readOneOrMany value).map fun v => { job with needs := v }
  | "if" => (optional readText value).map fun v => { job with condition := v }
  | "runs-on" => (optional readText value).map fun v => { job with runsOn := v }
  | "permissions" =>
    (optional Permissions.ofJson value).map fun v => { job with permissions := v }
  | "timeout-minutes" =>
    (optional readNat32 value).map fun v => { job with timeoutMinutes := v }
  | "env" => (table readText value).map fun v => { job with env := v }
  | "outputs" => (table readText value).map fun v => { job with outputs := v }
  | "steps" => (list Step.ofJson value).map fun v => { job with steps := v }
  | _ => .ok job

/-- A custom job. -/
def CustomJob.ofJson : Reading CustomJob :=
  record CustomJob.shape {} CustomJob.setField

/-! ## Safe outputs -/

/-- The keys of the settings of an output type. -/
def OutputSettings.shape : Shape where
  label := "struct OutputTypeConfig"
  fields := ["max", "min", "target", "target-repo", "allowed", "github-token", "staged",
    "title-prefix", "labels", "category", "draft", "if-no-changes", "allow-empty",
    "commit-title-suffix", "side", "driver", "base", "discussion", "hide-older-comments",
    "close-older-discussions"]

/-- Settings of an output type with one field set. -/
def OutputSettings.setField (settings : OutputSettings) (field : String) (value : Json) :
    Except Misfit OutputSettings :=
  match field with
  | "max" => (optional readNat32 value).map fun v => { settings with max := v }
  | "min" => (optional readNat32 value).map fun v => { settings with min := v }
  | "target" => (optional Target.ofJson value).map fun v => { settings with target := v }
  | "target-repo" => (optional readText value).map fun v => { settings with targetRepo := v }
  | "allowed" => (list readText value).map fun v => { settings with allowed := v }
  | "github-token" => (optional readText value).map fun v => { settings with githubToken := v }
  | "staged" => (optional readBool value).map fun v => { settings with staged := v }
  | "title-prefix" => (optional readText value).map fun v => { settings with titlePrefix := v }
  | "labels" => (list readText value).map fun v => { settings with labels := v }
  | "category" => (optional readText value).map fun v => { settings with category := v }
  | "draft" => (optional readBool value).map fun v => { settings with draft := v }
  | "if-no-changes" => (optional readText value).map fun v => { settings with ifNoChanges := v }
  | "allow-empty" => (optional readBool value).map fun v => { settings with allowEmpty := v }
  | "commit-title-suffix" =>
    (optional readText value).map fun v => { settings with commitTitleSuffix := v }
  | "side" => (optional readText value).map fun v => { settings with side := v }
  | "driver" => (optional readText value).map fun v => { settings with driver := v }
  | "base" => (optional readText value).map fun v => { settings with base := v }
  | "discussion" => (optional readBool value).map fun v => { settings with discussion := v }
  | "hide-older-comments" =>
    (optional readBool value).map fun v => { settings with hideOlderComments := v }
  | "close-older-discussions" =>
    (optional readBool value).map fun v => { settings with closeOlderDiscussions := v }
  | _ => .ok settings

/-- The settings of an output type. -/
def OutputSettings.ofJson : Reading OutputSettings :=
  record OutputSettings.shape {} OutputSettings.setField

/-- The keys of the settings of threat detection. -/
def DetectionSettings.shape : Shape where
  label := "struct ThreatDetectionConfig"
  fields := ["enabled", "prompt", "steps"]

/-- Settings of threat detection with one field set. -/
def DetectionSettings.setField (settings : DetectionSettings) (field : String) (value : Json) :
    Except Misfit DetectionSettings :=
  match field with
  | "enabled" => (optional readBool value).map fun v => { settings with enabled := v }
  | "prompt" => (optional readText value).map fun v => { settings with prompt := v }
  | "steps" => (list Step.ofJson value).map fun v => { settings with steps := v }
  | _ => .ok settings

/-- Threat detection: a truth value or settings. -/
def Detection.ofJson : Reading Detection :=
  choice "ThreatDetectionSetting" (fun value => (readBool value).map .flag)
    (fun value =>
      (record DetectionSettings.shape {} DetectionSettings.setField value).map .settings)

/-- The keys of a GitHub App. -/
def GitHubApp.shape : Shape where
  label := "struct AppConfig"
  fields := ["app-id", "private-key", "owner", "repositories"]

/-- A GitHub App with one field set. -/
def GitHubApp.setField (app : GitHubApp) (field : String) (value : Json) :
    Except Misfit GitHubApp :=
  match field with
  | "app-id" => (readText value).map fun v => { app with appId := v }
  | "private-key" => (readText value).map fun v => { app with privateKey := v }
  | "owner" => (optional readText value).map fun v => { app with owner := v }
  | "repositories" => (list readText value).map fun v => { app with repositories := v }
  | _ => .ok app

/-- A GitHub App. -/
def GitHubApp.ofJson : Reading GitHubApp :=
  record GitHubApp.shape {} GitHubApp.setField

/-- The keys of the outputs; review comments have a shorter key as well. -/
def SafeOutputs.shape : Shape where
  label := "struct SafeOutputsConfig"
  fields := OutputType.all.map OutputType.settingKey ++ ["threat-detection", "jobs", "app",
    "github-token", "staged", "runs-on", "env", "max-patch-size"]
  aliases := [("create-pr-review-comment", "create-pull-request-review-comment")]

/-- Outputs with one field set. -/
def SafeOutputs.setField (outputs : SafeOutputs) (field : String) (value : Json) :
    Except Misfit SafeOutputs :=
  match field with
  | "threat-detection" =>
    (optional Detection.ofJson value).map fun v => { outputs with threatDetection := v }
  | "jobs" => (table CustomJob.ofJson value).map fun v => { outputs with jobs := v }
  | "app" => (optional GitHubApp.ofJson value).map fun v => { outputs with app := v }
  | "github-token" => (optional readText value).map fun v => { outputs with githubToken := v }
  | "staged" => (readBool value).map fun v => { outputs with staged := v }
  | "runs-on" => (optional readText value).map fun v => { outputs with runsOn := v }
  | "env" => (table readText value).map fun v => { outputs with env := v }
  | "max-patch-size" => (optional readNat32 value).map fun v => { outputs with maxPatchSize := v }
  | key =>
    match OutputType.all.find? fun type => type.settingKey = key with
    | some type => (Switch.ofJson {} OutputSettings.ofJson value).map (outputs.setType type)
    | none => .ok outputs

/-- The outputs. -/
def SafeOutputs.ofJson : Reading SafeOutputs :=
  record SafeOutputs.shape {} SafeOutputs.setField

/-! ## Workflows -/

/-- The keys of the GitHub tool. -/
def GitHubTool.shape : Shape where
  label := "struct GithubToolConfig"
  fields := ["toolsets", "read-only"]

/-- The GitHub tool with one field set. -/
def GitHubTool.setField (tool : GitHubTool) (field : String) (value : Json) :
    Except Misfit GitHubTool :=
  match field with
  | "toolsets" => (readNames value).map fun v => { tool with toolsets := v }
  | "read-only" => (readBool value).map fun v => { tool with readOnly := v }
  | _ => .ok tool

/-- The GitHub tool. -/
def GitHubTool.ofJson : Reading GitHubTool :=
  record GitHubTool.shape {} GitHubTool.setField

/-- The keys of a workflow. -/
def Workflow.shape : Shape where
  label := "struct WorkflowData"
  fields := ["name", "workflow-id", "source", "tracker-id", "engine", "github-token",
    "permissions", "github-tool", "strict", "command", "reaction", "stop-time", "runs-on",
    "timeout-minutes", "jobs", "safe-outputs"]

/-- A workflow with one field set. -/
def Workflow.setField (w : Workflow) (field : String) (value : Json) : Except Misfit Workflow :=
  match field with
  | "name" => (readText value).map fun v => { w with name := v }
  | "workflow-id" => (optional readText value).map fun v => { w with workflowId := v }
  | "source" => (optional readText value).map fun v => { w with source := v }
  | "tracker-id" => (optional readText value).map fun v => { w with trackerId := v }
  | "engine" => (optional readText value).map fun v => { w with engine := v }
  | "github-token" => (optional readText value).map fun v => { w with githubToken := v }
  | "permissions" => (Permissions.ofJson value).map fun v => { w with permissions := v }
  | "github-tool" => (optional GitHubTool.ofJson value).map fun v => { w with githubTool := v }
  | "strict" => (readBool value).map fun v => { w with strict := v }
  | "command" => (optional readText value).map fun v => { w with command := v }
  | "reaction" => (optional readText value).map fun v => { w with reaction := v }
  | "stop-time" => (optional readText value).map fun v => { w with stopTime := v }
  | "runs-on" => (optional readText value).map fun v => { w with runsOn := v }
  | "timeout-minutes" => (optional readNat32 value).map fun v => { w with timeoutMinutes := v }
  | "jobs" => (table CustomJob.ofJson value).map fun v => { w with jobs := v }
  | "safe-outputs" => (optional SafeOutputs.ofJson value).map fun v => { w with safeOutputs := v }
  | _ => .ok w

/-- A workflow. -/
def Workflow.ofJson : Reading Workflow :=
  record Workflow.shape {} Workflow.setField

end AgentGate
