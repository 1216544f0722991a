import AgentGate.Job.Graph

/-!
# Job graphs under construction

While it is built, a job graph is kept in two parts: the names of the jobs in the order of
insertion, and a table of the jobs by name. An operation updates one part after the other and may
fail on the way; what it has done until then stays done. Nothing in the type ties the two parts
together.

- `JobStore.add`: a further job, unless its name is empty or taken.
- `JobStore.editNeeds`: what a job needs, changed in its place.
- `JobStore.jobs`: the jobs in the order of insertion, as far as the table holds them.
- `JobStore.after`: the store after some edits, with the jobs whose addition did not fail.
- `JobGraph.edited`: the same edits of a job graph.
-/

namespace AgentGate

/-- Names in the order of insertion, and jobs by name. -/
structure JobStore where
  order : List String
  stored : Table Job

namespace JobStore

/-- The store without jobs. -/
def empty : JobStore := ⟨[], ∅⟩

instance : EmptyCollection JobStore := ⟨empty⟩
instance : Inhabited JobStore := ⟨empty⟩

/-! ## Operations -/

/-- An operation on a store. One that fails leaves behind what it has done so far. -/
abbrev Operation := ExceptT GraphFault (StateM JobStore) Unit

/-- What an operation returns, and the store that it leaves behind. -/
def Operation.on (operation : Operation) (s : JobStore) : Except GraphFault Unit × JobStore :=
  operation.run.run s

/-- Add a job at the end. -/
def add (job : Job) : Operation := do
  if job.name = "" then throw .unnamedJob
  if (← get).stored.contains job.name then throw (.duplicateJob job.name)
  modify fun s => { s with order := s.order ++ [job.name] }
  modify fun s => { s with stored := s.stored.insert job.name job }

/-- Change what the job of a name needs, if there is one. -/
def editNeeds (name : String) (change : List String → List String) : Operation := do
  match (← get).stored.get? name with
  | none => return
  | some job =>
    modify fun s =>
      { s with stored := s.stored.insert name { job with needs := change job.needs } }

/-! ## Views -/

/-- The jobs in the order of insertion; a name without a job is passed over. -/
def jobs (s : JobStore) : List Job :=
  s.order.filterMap s.stored.get?

/-- How many jobs there are. -/
def length (s : JobStore) : Nat :=
  s.order.length

end JobStore

/-! ## Edits in a row -/

/-- An edit of a graph under construction. -/
inductive JobEdit where
  | add (job : Job)
  | needs (name : String) (change : List String → List String)

namespace JobStore

/-- The store after one more edit, and the jobs added by then. -/
def step (before : JobStore × List Job) : JobEdit → JobStore × List Job
  | .add job =>
    match (add job).on before.1 with
    | (.ok (), s) => (s, before.2 ++ [job])
    | (.error _, s) => (s, before.2)
  | .needs name change => (((editNeeds name change).on before.1).2, before.2)

/-- The store after some edits, and the jobs that were added without a fault. -/
def after (edits : List JobEdit) : JobStore × List Job :=
  edits.foldl step (∅, [])

end JobStore

/-- The graph after one more edit; a job that cannot be added is left out. -/
def JobGraph.edited (g : JobGraph) : JobEdit → JobGraph
  | .add job =>
    match g.add job with
    | .ok next => next
    | .error _ => g
  | .needs name change => g.updateNeeds name change

end AgentGate
