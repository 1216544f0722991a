import AgentGate.Job.Json
import AgentGate.Workflow.Reading

/-!
# Reading job graphs

A job graph from JSON, by the keys under which its fields are written. The jobs come in the order of
their keys in the document, and fields that are not given are absent or empty.

- `Job.ofJson`: a job under a name.
- `JobGraph.ofJson`: a graph, in which each job is named by its key.
- `GraphMisfit`: why a value is no graph.
-/

namespace AgentGate

open Json

/-- The keys of a job. -/
def Job.shape : Shape where
  label := "struct Job"
  fields := ["needs", "if", "runs-on", "permissions", "timeout-minutes", "env", "outputs", "steps"]

/-- A job with one field set. -/
def Job.setField (job : Job) (field : String) (value : Json) : Except Misfit Job :=
  match field with
  | "needs" => (list readText value).map fun v => { job with needs := v }
  | "if" => (optional readText value).map fun v => { job with condition := v }
  | "runs-on" => (readText value).map fun v => { job with runsOn := v }
  | "permissions" => (Permissions.ofJson value).map fun v => { job with permissions := v }
  | "timeout-minutes" =>
    (optional readNat32 value).map fun v => { job with timeoutMinutes := v }
  | "env" => (table readText value).map fun v => { job with env := v }
  | "outputs" => (table readText value).map fun v => { job with outputs := v }
  | "steps" => (list Step.ofJson value).map fun v => { job with steps := v }
  | _ => .ok job

/-- A job of a name. -/
def Job.ofJson (name : String) : Reading Job :=
  record Job.shape { name, runsOn := "" } Job.setField

/-- Why a JSON value is no job graph. -/
inductive GraphMisfit where
  /-- The value under a name is no job. -/
  | job (name : String) (reason : Misfit)
  /-- The jobs do not make up a graph. -/
  | graph (fault : GraphFault)
  | noObject

/-- A job graph. -/
def JobGraph.ofJson : Json → Except GraphMisfit JobGraph
  | .object members =>
    JobGraph.assemble .graph <|
      members.map fun entry => (Job.ofJson entry.1 entry.2).mapError (.job entry.1)
  | _ => .error .noObject

end AgentGate
