import AgentGate.Embedded
import AgentGate.Job.Basic

/-!
# Built-in jobs

Five jobs have a fixed name, which no job that a workflow declares may take. Files go from one job
to the next as artifacts.

- `BuiltinJob.reserves`: whether a name is one of the five.
- `Artifact.downloadStep`: the step that fetches what the agent asked for.
- `Step.checkout`: the step that checks the repository out.
- `Step.ofModule`: the step that runs one of the installed modules.
-/

namespace AgentGate

/-- A job with a fixed name. -/
inductive BuiltinJob where
  /-- Decides whether the workflow runs at all. -/
  | preActivation
  /-- Starts the run. -/
  | activation
  /-- Runs the agent. -/
  | agent
  /-- Vets what the agent asked for. -/
  | detection
  /-- Reports the outcome. -/
  | conclusion
  deriving DecidableEq, Repr

namespace BuiltinJob

/-- The built-in jobs. -/
def all : List BuiltinJob :=
  [preActivation, activation, agent, detection, conclusion]

/-- The name of a built-in job. -/
def name : BuiltinJob → String
  | preActivation => "pre_activation"
  | activation => "activation"
  | agent => "agent"
  | detection => "detection"
  | conclusion => "conclusion"

/-- Whether a name belongs to a built-in job. -/
def reserves (text : String) : Bool :=
  (all.map name).contains text

/-- A name is reserved when it is that of a built-in job. -/
theorem reserves_iff {text : String} :
    reserves text = true ↔ ∃ job : BuiltinJob, job.name = text := by
  have mem_all : ∀ job : BuiltinJob, job ∈ all := by intro job; cases job <;> decide
  simp only [reserves, List.contains_iff_mem, List.mem_map]
  exact ⟨fun ⟨job, _, eq⟩ => ⟨job, eq⟩, fun ⟨job, eq⟩ => ⟨job, mem_all job, eq⟩⟩

end BuiltinJob

/-! ## Artifacts -/

namespace Artifact

/-- The artifact with what the agent asked for. -/
def agentOutput : String := "agent_output.json"

/-- The artifact with the changes that the agent made to the code. -/
def patch : String := "aw.patch"

/-- The directory into which jobs fetch what the agent asked for. -/
def outputDirectory : String := "/tmp/gh-aw/safe-outputs/"

/-- Where jobs find what the agent asked for. -/
def outputPath : String := outputDirectory ++ agentOutput

/-- The step that fetches an artifact into a directory. -/
def fetchStep (title artifact directory : String) : Step :=
  (Step.ofAction title "actions/download-artifact@v5").withInput "name" artifact
    |>.withInput "path" directory

/-- The step that fetches what the agent asked for. -/
def downloadStep (directory : String) : Step :=
  fetchStep "Download agent output artifact" agentOutput directory

/-- The step that uploads a file as an artifact. -/
def uploadStep (title condition artifact path : String) : Step :=
  (Step.ofAction title "actions/upload-artifact@v4").withCondition condition
    |>.withInput "name" artifact
    |>.withInput "path" path

end Artifact

/-! ## Actions and modules -/

/-- The step that checks the repository out without leaving a token behind. -/
def Step.checkout : Step :=
  (Step.ofAction "Checkout repository" "actions/checkout@v5").withInput
    "persist-credentials" "false"

/-- The action that runs scripts. -/
def scriptAction : String := "actions/github-script@v8"

/-- The script that runs an installed module. -/
def moduleScript (module : String) : String :=
  "const \x7b main \x7d = require('/tmp/gh-aw/actions/" ++ module ++ "');\nawait main();"

/-- The step that runs an installed module. -/
def Step.ofModule (title module : String) : Step :=
  (Step.ofAction title scriptAction).withInput "script" (moduleScript module)

end AgentGate
