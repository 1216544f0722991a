import AgentGate.Job.Graph
import AgentGate.Json.Writer
import AgentGate.Permission.Reading

/-!
# Jobs as JSON

A job graph is written as an object with one member for each job, in the order of insertion. Fields
that are absent or empty are left out, permissions and steps of a job excepted.

- `Job.toJson`, `JobGraph.toJson`: the values.
- `JobGraph.render`: the document, with a new line at its end.
-/

namespace AgentGate

/-- A member with a text, if there is one. -/
def Json.textMember (key : String) (value : Option String) : List (String × Json) :=
  value.toList.map fun text => (key, .text text)

/-- A member with a table of texts, unless it is empty. -/
def Json.tableMember (key : String) (t : Table String) : List (String × Json) :=
  if t.isEmpty then [] else [(key, Json.ofTexts t)]

/-- The members of a step. -/
def Step.members (step : Step) : List (String × Json) :=
  Json.textMember "name" step.name
    ++ Json.textMember "id" step.id
    ++ Json.textMember "if" step.condition
    ++ Json.textMember "uses" step.uses
    ++ Json.textMember "run" step.run
    ++ Json.tableMember "with" step.inputs
    ++ Json.tableMember "env" step.env

/-- A step as an object. -/
def Step.toJson (step : Step) : Json :=
  .object step.members

/-- The members of a job. Its name is the key under which it stands. -/
def Job.members (job : Job) : List (String × Json) :=
  (if job.needs.isEmpty then [] else [("needs", Json.texts job.needs)])
    ++ Json.textMember "if" job.condition
    ++ [("runs-on", .text job.runsOn), ("permissions", job.permissions.toJson)]
    ++ job.timeoutMinutes.toList.map (fun minutes => ("timeout-minutes", .int minutes))
    ++ Json.tableMember "env" job.env
    ++ Json.tableMember "outputs" job.outputs
    ++ [("steps", .array (job.steps.map Step.toJson))]

/-- A job as an object. -/
def Job.toJson (job : Job) : Json :=
  .object job.members

namespace JobGraph

/-- A graph as an object. -/
def toJson (g : JobGraph) : Json :=
  .object (g.jobs.map fun job => (job.name, job.toJson))

/-- A graph as a document. -/
def render (g : JobGraph) : String :=
  g.toJson.pretty ++ "\n"

end JobGraph

end AgentGate
