import AgentGate.Job.Graph

/-!
# The order in which jobs can run

A job is ready when all its needs have run. The topological order takes, as long as there is one,
the ready job with the smallest name.

- `Countdown`: for each job the number of needs that are still to run, and the jobs that are ready.
  A need that is listed twice is counted twice, in the number and when it has run.
- `JobGraph.topologicalOrder`: the order, for a graph that is valid.
- `JobGraph.mermaid`: a chart of the edges.
-/

namespace AgentGate

/-- How many needs each job still waits for, and which jobs are ready to run. -/
structure Countdown where
  waiting : Table Int
  ready : Table Unit

/-- One need of a job has run; the job is ready when that was the last. -/
def Countdown.release (c : Countdown) (name : String) : Countdown :=
  match c.waiting.get? name with
  | none => c
  | some count =>
    { waiting := c.waiting.insert name (count - 1)
      ready := if count - 1 = 0 then c.ready.insert name () else c.ready }

namespace JobGraph

/-- The countdown before any job has run. -/
def countdown (g : JobGraph) : Countdown where
  waiting := Table.ofList (g.jobs.map fun job => (job.name, (job.needs.length : Int)))
  ready := Table.ofList ((g.jobs.filter fun job => job.needs.isEmpty).map fun job => (job.name, ()))

/-- The jobs that need a job, once for each time they list it. -/
def dependents (g : JobGraph) (name : String) : List String :=
  g.jobs.flatMap fun job => (job.needs.filter fun need => need = name).map fun _ => job.name

/-- Run ready jobs, smallest name first, for a number of turns. -/
def drain (g : JobGraph) : Nat → Countdown → List String
  | 0, _ => []
  | turns + 1, c =>
    match c.ready.popFirst? with
    | none => []
    | some ((name, ()), ready) =>
      name :: g.drain turns ((g.dependents name).foldl Countdown.release { c with ready })

/-- The jobs in an order in which they can run, smaller names first where there is a choice. A
valid graph has one turn for each job. -/
def topologicalOrder (g : JobGraph) : Except GraphFault (List String) := do
  g.validate
  return g.drain g.jobs.length g.countdown

/-- A Mermaid flowchart of the edges, jobs without needs on a line of their own. -/
def mermaid (g : JobGraph) : String :=
  "\n".intercalate <| "graph LR" :: g.jobs.flatMap fun job =>
    match job.needs with
    | [] => ["  " ++ job.name]
    | needs => needs.map fun need => "  " ++ need ++ " --> " ++ job.name

end JobGraph

end AgentGate
