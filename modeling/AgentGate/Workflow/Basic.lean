import AgentGate.Job.Basic
import AgentGate.OutputType
import AgentGate.Text.Blank

/-!
# Workflows

A workflow names the agent's permissions, its triggers, jobs of its own and, under `safe-outputs`,
the output types that the agent may ask for, each with its settings.

- `Switch`: a setting that is absent, turned off, or turned on with settings.
- `SafeOutputs.enabledTypes`: the output types that are turned on.
- `Workflow.id`: the identifier under which files and branches of a workflow are named.
-/

namespace AgentGate

/-- A setting that is absent, turned on with settings of its own, or turned off. -/
inductive Switch (α : Type) where
  | absent
  | enabled (given : α)
  | disabled
  deriving DecidableEq

namespace Switch

variable {α : Type}

instance : Inhabited (Switch α) := ⟨.absent⟩

/-- The settings of what is turned on. -/
def settings? : Switch α → Option α
  | enabled given => some given
  | absent | disabled => none

/-- Whether it is turned on. -/
def isEnabled (switch : Switch α) : Bool :=
  switch.settings?.isSome

end Switch

/-! ## Settings of output types -/

/-- The issue or pull request that an output acts on. -/
inductive Target where
  /-- The one whose event triggered the workflow. -/
  | triggering
  /-- Any; the agent says which. -/
  | any
  | number (value : Nat)
  deriving DecidableEq, Repr

/-- How a target is written. -/
def Target.text : Target → String
  | triggering => "triggering"
  | any => "*"
  | number value => toString value

/-- The settings of an output type. A type passes over those that it has no use for. -/
structure OutputSettings where
  max : Option Nat := none
  min : Option Nat := none
  target : Option Target := none
  targetRepo : Option String := none
  allowed : List String := []
  githubToken : Option String := none
  staged : Option Bool := none
  titlePrefix : Option String := none
  labels : List String := []
  category : Option String := none
  draft : Option Bool := none
  ifNoChanges : Option String := none
  allowEmpty : Option Bool := none
  commitTitleSuffix : Option String := none
  side : Option String := none
  driver : Option String := none
  base : Option String := none
  discussion : Option Bool := none
  hideOlderComments : Option Bool := none
  closeOlderDiscussions : Option Bool := none
  deriving DecidableEq, Inhabited

/-! ## Threat detection, custom jobs and the app -/

/-- Threat detection with settings of its own. -/
structure DetectionSettings where
  enabled : Option Bool := none
  /-- Instructions in place of the built-in ones: a path in the repository or a URL. -/
  prompt : Option String := none
  /-- Steps to run after the engine. -/
  steps : List Step := []
  deriving DecidableEq, Inhabited

/-- The setting of threat detection. -/
inductive Detection where
  | flag (enabled : Bool)
  | settings (given : DetectionSettings)
  deriving DecidableEq

namespace Detection

/-- Whether detection is turned on; settings that do not say so turn it on. -/
def isEnabled : Detection → Bool
  | flag enabled => enabled
  | settings given => given.enabled.getD true

/-- The settings, if there are any. -/
def settings? : Detection → Option DetectionSettings
  | flag _ => none
  | settings given => some given

end Detection

/-- A GitHub App that mints a token for the jobs of outputs. -/
structure GitHubApp where
  appId : String := ""
  privateKey : String := ""
  owner : Option String := none
  repositories : List String := []
  deriving DecidableEq, Inhabited

/-- A job that the workflow declares itself. -/
structure CustomJob where
  description : Option String := none
  needs : List String := []
  condition : Option String := none
  runsOn : Option String := none
  permissions : Option Permissions := none
  timeoutMinutes : Option Nat := none
  env : Table String := ∅
  outputs : Table String := ∅
  steps : List Step := []
  deriving DecidableEq, Inhabited

/-! ## Safe outputs -/

/-- What the agent may ask for, and how it is carried out. -/
structure SafeOutputs where
  types : OutputType → Switch OutputSettings := fun _ => .absent
  threatDetection : Option Detection := none
  jobs : Table CustomJob := ∅
  app : Option GitHubApp := none
  githubToken : Option String := none
  staged : Bool := false
  runsOn : Option String := none
  env : Table String := ∅
  maxPatchSize : Option Nat := none
  deriving Inhabited

namespace SafeOutputs

/-- The settings of a type that is turned on. -/
def settings? (outputs : SafeOutputs) (type : OutputType) : Option OutputSettings :=
  (outputs.types type).settings?

/-- Whether a type is turned on. -/
def isEnabled (outputs : SafeOutputs) (type : OutputType) : Bool :=
  (outputs.types type).isEnabled

/-- The types that are turned on. -/
def enabledTypes (outputs : SafeOutputs) : List OutputType :=
  OutputType.all.filter outputs.isEnabled

/-- The outputs with the switch of one type set. -/
def setType (outputs : SafeOutputs) (type : OutputType) (switch : Switch OutputSettings) :
    SafeOutputs :=
  { outputs with types := fun other => if other = type then switch else outputs.types other }

end SafeOutputs

/-! ## Workflows -/

/-- The agent's GitHub tool. -/
structure GitHubTool where
  toolsets : List String := ["default"]
  readOnly : Bool := false
  deriving DecidableEq, Inhabited

/-- A workflow. -/
structure Workflow where
  name : String := ""
  workflowId : Option String := none
  /-- The path that the workflow comes from. -/
  source : Option String := none
  trackerId : Option String := none
  engine : Option String := none
  githubToken : Option String := none
  /-- What the agent is granted. -/
  permissions : Permissions := ∅
  githubTool : Option GitHubTool := none
  strict : Bool := false
  /-- The slash command that triggers the workflow. -/
  command : Option String := none
  /-- The reaction added to the item that triggers it. -/
  reaction : Option String := none
  stopTime : Option String := none
  runsOn : Option String := none
  timeoutMinutes : Option Nat := none
  jobs : Table CustomJob := ∅
  safeOutputs : Option SafeOutputs := none
  deriving Inhabited

/-! ## Identifiers -/

/-- The runs of ASCII letters and digits of a text in lower case, joined by hyphens. -/
def slug (text : String) : String :=
  let runs := text.toList.splitOnP fun c => !c.isAlphanum
  let words := runs.filter fun run => !run.isEmpty
  String.ofList (['-'].intercalate (words.map fun word => word.map Char.toLower))

namespace Workflow

/-- The name of the file that the workflow comes from, up to its first dot. -/
def sourceStem? (w : Workflow) : Option String := do
  let file ← (Text.pieces '/' (← w.source)).getLast?
  let stem ← (Text.pieces '.' file).head?
  if stem = "" then none else some stem

/-- The identifier that the workflow gives itself, or else one made from its file or its name. -/
def id (w : Workflow) : String :=
  match w.workflowId with
  | some given => if given = "" then slug (w.sourceStem?.getD w.name) else given
  | none => slug (w.sourceStem?.getD w.name)

/-- The name of the file that a workflow is compiled to. -/
def fileName (w : Workflow) : String :=
  w.id ++ ".lock.yml"

end Workflow

end AgentGate
