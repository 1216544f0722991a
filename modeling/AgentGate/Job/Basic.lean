import AgentGate.Permission.Basic
import AgentGate.Table

/-!
# Jobs and steps

A step either uses an action or runs a script. A job is a list of steps with what they run under:
the jobs it needs, its condition, its runner and its permissions.

- `Job.addNeed`: need a job, once.
- `Step.texts`, `Job.texts`: the texts in which references to other jobs are looked for.
-/

namespace AgentGate

/-- One step of a job. -/
structure Step where
  name : Option String := none
  id : Option String := none
  condition : Option String := none
  uses : Option String := none
  run : Option String := none
  inputs : Table String := ∅
  env : Table String := ∅
  deriving DecidableEq, Inhabited

namespace Step

/-- A step that uses an action. -/
def ofAction (title action : String) : Step :=
  { name := some title, uses := some action }

/-- A step that runs a script. -/
def ofScript (title script : String) : Step :=
  { name := some title, run := some script }

/-- The step under an identifier. -/
def withId (step : Step) (id : String) : Step :=
  { step with id := some id }

/-- The step under a condition. -/
def withCondition (step : Step) (condition : String) : Step :=
  { step with condition := some condition }

/-- The step with an input of its action. -/
def withInput (step : Step) (key value : String) : Step :=
  { step with inputs := step.inputs.insert key value }

/-- The step with a variable in its environment. -/
def withEnv (step : Step) (key value : String) : Step :=
  { step with env := step.env.insert key value }

/-- The free texts of a step. -/
def texts (step : Step) : List String :=
  step.name.toList ++ step.condition.toList ++ step.uses.toList ++ step.run.toList
    ++ step.inputs.values ++ step.env.values

end Step

/-- One job of a workflow. -/
structure Job where
  name : String
  needs : List String := []
  condition : Option String := none
  runsOn : String
  permissions : Permissions := ∅
  timeoutMinutes : Option Nat := none
  env : Table String := ∅
  outputs : Table String := ∅
  steps : List Step := []
  deriving DecidableEq, Inhabited

namespace Job

/-- Need a job, once. -/
def addNeed (job : Job) (need : String) : Job :=
  if job.needs.contains need then job else { job with needs := job.needs ++ [need] }

/-- Need several jobs, each once. -/
def addNeeds (job : Job) (needs : List String) : Job :=
  needs.foldl addNeed job

/-- The condition and the texts of environment, outputs and steps. -/
def texts (job : Job) : List String :=
  job.condition.toList ++ job.env.values ++ job.outputs.values ++ job.steps.flatMap Step.texts

/-! ## Needing a job changes nothing else -/

@[simp] theorem name_addNeed (job : Job) (need : String) : (job.addNeed need).name = job.name := by
  unfold addNeed
  split <;> rfl

@[simp] theorem name_addNeeds (job : Job) (needs : List String) :
    (job.addNeeds needs).name = job.name := by
  induction needs generalizing job with
  | nil => rfl
  | cons need rest ih => simpa [addNeeds] using ih (job.addNeed need)

/-- After needing a job the needs are the old ones and that one. -/
theorem mem_needs_addNeed {job : Job} {need other : String} :
    other ∈ (job.addNeed need).needs ↔ other ∈ job.needs ∨ other = need := by
  unfold addNeed
  split
  case isTrue h =>
    have present : need ∈ job.needs := by simpa using h
    exact ⟨.inl, fun h => h.elim id fun eq => eq ▸ present⟩
  case isFalse => simp

end Job

end AgentGate
