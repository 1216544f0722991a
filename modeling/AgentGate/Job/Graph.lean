import AgentGate.Job.Basic

/-!
# Job graphs

A job graph is a list of jobs with distinct names, none of them empty, in the order in which they
were added. Its edges are the needs of its jobs, which may name anything until the graph is
validated.

- `JobGraph.add`: a further job, unless its name is empty or taken.
- `JobGraph.rewire`: the same jobs with other needs.
- `JobGraph.validate`: every need is a job of the graph, and no job needs itself through others.
- `JobGraph.findCycle`: a depth-first search in the order of names, so that the cycle it reports
  does not depend on the order of insertion.
-/

namespace AgentGate

/-- What is wrong with a job graph, or with a job for it. -/
inductive GraphFault where
  | unnamedJob
  | duplicateJob (name : String)
  | unknownNeed (job need : String)
  /-- Each job needs the next one and the last needs the first. -/
  | cycle (jobs : List String)
  deriving DecidableEq, Repr

namespace GraphFault

/-- The jobs that a fault is about. -/
def jobs : GraphFault → List String
  | unnamedJob => []
  | duplicateJob name => [name]
  | unknownNeed job need => [job, need]
  | cycle jobs => jobs

/-- The text of a fault. A cycle is written with its first job again at the end. -/
def message : GraphFault → String
  | unnamedJob => "job name cannot be empty"
  | duplicateJob name => "job '" ++ name ++ "' already exists"
  | unknownNeed job need => "job '" ++ job ++ "' depends on non-existent job '" ++ need ++ "'"
  | cycle jobs =>
    let first := jobs.head?.getD ""
    "cycle detected in job dependencies: job '" ++ jobs.getLast?.getD ""
      ++ "' has circular dependency through '" ++ first ++ "' ("
      ++ " -> ".intercalate (jobs ++ [first]) ++ ")"

end GraphFault

/-- Jobs in the order of insertion, with distinct names that are not empty. -/
structure JobGraph where
  jobs : List Job
  named : ∀ job ∈ jobs, job.name ≠ ""
  distinct : (jobs.map Job.name).Nodup
  deriving DecidableEq

namespace JobGraph

/-- The graph without jobs. -/
def empty : JobGraph := ⟨[], by simp, by simp⟩

instance : EmptyCollection JobGraph := ⟨empty⟩
instance : Inhabited JobGraph := ⟨empty⟩

/-- The names of the jobs, in the order of insertion. -/
def names (g : JobGraph) : List String :=
  g.jobs.map Job.name

/-- The job of a name. -/
def get? (g : JobGraph) (name : String) : Option Job :=
  g.jobs.find? fun job => job.name = name

/-- Whether the graph has a job of a name. -/
def contains (g : JobGraph) (name : String) : Bool :=
  g.names.contains name

/-- The graph with a further job at the end. -/
def add (g : JobGraph) (job : Job) : Except GraphFault JobGraph :=
  if unnamed : job.name = "" then .error .unnamedJob
  else if taken : job.name ∈ g.names then .error (.duplicateJob job.name)
  else .ok
    { jobs := g.jobs ++ [job]
      named := fun other mem => by
        rcases List.mem_append.1 mem with mem | mem
        · exact g.named other mem
        · rw [List.mem_singleton.1 mem]
          exact unnamed
      distinct := by
        rw [List.map_append, List.nodup_append]
        refine ⟨g.distinct, by simp, ?_⟩
        rintro name mem _ last rfl
        have eq : name = job.name := by simpa using last
        exact taken (eq ▸ mem) }

/-- The same jobs with the needs that a function gives them. -/
def rewire (g : JobGraph) (needs : Job → List String) : JobGraph where
  jobs := g.jobs.map fun job => { job with needs := needs job }
  named := by
    intro job mem
    obtain ⟨old, old_mem, rfl⟩ := List.mem_map.1 mem
    exact g.named old old_mem
  distinct := by
    rw [List.map_map]
    exact g.distinct

/-- The graph in which the needs of one job are changed. -/
def updateNeeds (g : JobGraph) (name : String) (change : List String → List String) : JobGraph :=
  g.rewire fun job => if job.name = name then change job.needs else job.needs

/-- Add candidates one after the other; the first fault of a candidate or of its addition ends
the assembly. -/
def assemble {ε : Type} (ofFault : GraphFault → ε) (candidates : List (Except ε Job)) :
    Except ε JobGraph :=
  candidates.foldlM
    (fun g candidate => do
      let job ← candidate
      (g.add job).mapError ofFault)
    ∅

/-! ## Validation -/

/-- The first need that is not a job of the graph, with the job that has it. -/
def unknownNeed? (g : JobGraph) : Option (String × String) :=
  g.jobs.findSome? fun job =>
    (job.needs.find? fun need => !g.contains need).map fun need => (job.name, need)

theorem name_mem_of_get? {g : JobGraph} {name : String} {job : Job}
    (h : g.get? name = some job) : name ∈ g.names := by
  have mem := List.mem_of_find?_eq_some h
  have eq : job.name = name := by simpa using List.find?_some h
  exact eq ▸ List.mem_map_of_mem mem

/-- How many jobs of the graph are not on a path. -/
def offPath (g : JobGraph) (path : List String) : Nat :=
  g.names.countP fun name => !path.contains name

/-- Extending a path by a job of the graph leaves fewer jobs off it. -/
theorem offPath_cons_lt {g : JobGraph} {path : List String} {name : String}
    (mem : name ∈ g.names) (new : path.contains name = false) :
    g.offPath (name :: path) < g.offPath path := by
  have smaller : ∀ names : List String, name ∈ names →
      names.countP (fun other => !(name :: path).contains other)
        < names.countP (fun other => !path.contains other) := by
    intro names
    induction names with
    | nil => simp
    | cons head rest ih =>
      intro mem
      have le : rest.countP (fun other => !(name :: path).contains other)
          ≤ rest.countP (fun other => !path.contains other) :=
        List.countP_mono_left fun other _ h => by
          simp only [List.contains_cons, Bool.not_eq_true', Bool.or_eq_false_iff] at h ⊢
          exact h.2
      rw [List.countP_cons, List.countP_cons]
      by_cases eq : head = name
      · subst eq
        have off : (head :: path).contains head = true := by simp
        simp only [off, new, Bool.not_true, Bool.not_false, if_true]
        simp only [Bool.false_eq_true, if_false]
        omega
      · have inRest : name ∈ rest := by
          rcases List.mem_cons.1 mem with h | h
          · exact absurd h.symm eq
          · exact h
        have less := ih inRest
        have same : (name :: path).contains head = path.contains head := by
          simp [eq]
        rw [same]
        omega
  exact smaller g.names mem

/-- Search the jobs reachable from `starts` depth first, smaller names before larger ones. The
search is at the end of `path`, last job first, and `done` lists the jobs from which no cycle is
reached. The result is the first cycle met, or the jobs done by then. -/
def search (g : JobGraph) (path done : List String) :
    List String → Except (List String) (List String)
  | [] => .ok done
  | name :: rest =>
    if done.contains name then g.search path done rest
    else if _onPath : path.contains name then
      .error (name :: (path.takeWhile fun other => other ≠ name).reverse)
    else
      match _found : g.get? name with
      | none => g.search path (name :: done) rest
      | some job =>
        match g.search (name :: path) done job.needs.mergeSort with
        | .error cycle => .error cycle
        | .ok done => g.search path (name :: done) rest
termination_by starts => (g.offPath path, starts.length)
decreasing_by
  · exact Prod.Lex.right _ (by simp)
  · exact Prod.Lex.right _ (by simp)
  · exact Prod.Lex.left _ _
      (offPath_cons_lt (name_mem_of_get? _found) (by simpa using _onPath))
  · exact Prod.Lex.right _ (by simp)

/-- The cycle that the search from all jobs meets first. -/
def findCycle (g : JobGraph) : Option (List String) :=
  match g.search [] [] g.names.mergeSort with
  | .error cycle => some cycle
  | .ok _ => none

/-- Every need is a job of the graph and no job needs itself through others. -/
def validate (g : JobGraph) : Except GraphFault Unit :=
  match g.unknownNeed? with
  | some (job, need) => .error (.unknownNeed job need)
  | none =>
    match g.findCycle with
    | some cycle => .error (.cycle cycle)
    | none => .ok ()

end JobGraph

end AgentGate
