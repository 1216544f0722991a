import AgentGate.Proofs.Json.Path
import AgentGate.Proofs.Plan.Needs
import AgentGate.Proofs.Reference.Scan

/-!
# What is wired

The search for references looks at a list of texts, which is made apart from what is written of a
job. Everything that is written of a job is in that list, apart from its runner and the identifiers
of its steps, so that a job needs every declared job to which it is written to refer elsewhere.

- `JobGraph.holds_iff`: a text in a written graph is one of a written job.
- `Workflow.mem_needs_of_mem_texts`: a job needs the declared jobs that its texts cannot hide.
- `Workflow.compile_wires_written`: neither can what is written of it.
- `Workflow.rollout_unwired`: its runner and the identifiers of its steps can.
-/

namespace AgentGate

open Json Reference

/-- A text stands in a written graph just where it stands in a written job. -/
theorem JobGraph.holds_iff {g : JobGraph} {job : Job} {path : List String} {s : String}
    (hjob : job ∈ g.jobs) : g.toJson.Holds (job.name :: path) s ↔ job.toJson.Holds path s := by
  rw [toJson, holds_object_iff]
  constructor
  · rintro ⟨key, value, rest, hmem, hpath, h⟩
    obtain ⟨other, hother, heq⟩ := List.mem_map.mp hmem
    obtain ⟨rfl, rfl⟩ := Prod.mk.inj heq
    obtain ⟨hname, rfl⟩ := List.cons.inj hpath
    rwa [JobGraph.eq_of_name_eq hjob hother hname]
  · exact fun h => ⟨_, _, _, List.mem_map_of_mem hjob, rfl, h⟩

namespace Workflow

variable {w : Workflow} {registry : Registry} {engine : Engine} {options : CompileOptions}
  {compiled : Compiled} {job : Job} {other text : String} {path : List String}

/-- A job that is not built in needs the declared jobs to which its texts refer, where the search
cannot miss the reference. -/
theorem mem_needs_of_mem_texts (h : w.compile registry engine options = .ok compiled)
    (hjob : job ∈ compiled.graph.jobs) (hfree : BuiltinJob.reserves job.name = false)
    (hother : other ∈ w.declaredNames) (hne : other ≠ job.name)
    (hname : isName other.toList = true) (htext : text ∈ job.texts)
    (hstands : StandsFree other text) : other ∈ job.needs := by
  obtain ⟨planned, hplanned, rfl⟩ := (mem_jobs_of_compile_iff h).mp hjob
  have hrefers : w.RefersTo planned other :=
    ⟨hother, hne, text, htext, mem_names_of_standsFree hname hstands⟩
  exact mem_needs_wired.mpr (.inr ⟨hfree, hrefers⟩)

/-- The name of a level refers to nothing. -/
theorem not_standsFree_level (level : Level) : ¬ StandsFree other level.name := by
  rintro ⟨before, after, htext, -⟩
  have hdot : '.' ∈ level.name.toList := by
    rw [htext]
    simp only [String.toList_append, List.mem_append]
    exact .inr (.inl (by decide))
  cases level <;> exact absurd hdot (by decide)

/-- **What is written of a job is wired.** In an accepted workflow a job that is not built in needs
every other declared job to which a text refers that is written of it, where the reference stands at
the start of the text or behind a separator. Only what it needs itself, its runner and the
identifiers of its steps do not count. -/
theorem compile_wires_written (h : w.compile registry engine options = .ok compiled) :
    ∀ job ∈ compiled.graph.jobs, BuiltinJob.reserves job.name = false →
      ∀ other ∈ w.declaredNames, other ≠ job.name → isName other.toList = true →
        ∀ path text, compiled.graph.toJson.Holds (job.name :: path) text →
          path ∉ Job.unscanned → StandsFree other text → other ∈ job.needs := by
  intro job hjob hfree other hother hne hname path text hwritten hpath hstands
  rcases Job.mem_texts_of_holds ((JobGraph.holds_iff hjob).mp hwritten) hpath with
    htext | ⟨level, rfl⟩
  · exact mem_needs_of_mem_texts h hjob hfree hother hne hname htext hstands
  · exact absurd hstands (not_standsFree_level level)

/-- A job that chooses a runner. -/
def build : CustomJob :=
  { outputs := Table.ofList [("runner", "large")], steps := [{ run := some "./build.sh" }] }

/-- A job that runs on a certain runner only. -/
def announce : CustomJob :=
  { condition := some (Embedded.jobOutput "build" "runner" ++ " == 'large'")
    steps := [{ run := some "./announce.sh" }] }

/-- A job that runs on that runner. -/
def deploy : CustomJob :=
  { runsOn := some (Embedded.embed (Embedded.jobOutput "build" "runner"))
    steps := [{ run := some "./deploy.sh" }] }

/-- A job whose step has an identifier with a reference in it. -/
def status : CustomJob :=
  { steps := [{ id := some "needs.build.status", run := some "./status.sh" }] }

/-- A workflow with these jobs. -/
def rollout : Workflow where
  name := "Rollout"
  jobs := Table.ofList
    [("announce", announce), ("build", build), ("deploy", deploy), ("status", status)]

/-- Its jobs, each after what it needs. -/
def rolloutOrder : List String :=
  ["activation", "agent", "build", "announce", "deploy", "status"]

theorem exists_compile_rollout :
    ∃ compiled, rollout.compile .default ⟨Engine.defaultCommand⟩ {} = .ok compiled := by
  have hordered : rollout.isOrdered .default ⟨Engine.defaultCommand⟩ {} rolloutOrder = true := by
    decide +kernel
  exact exists_compile_of_isOrdered hordered

/-- Each of them is found in the graph, with the needs that its references add. -/
theorem get?_rollout (h : rollout.compile .default ⟨Engine.defaultCommand⟩ {} = .ok compiled)
    (name : String) {config : CustomJob} (hconfig : rollout.jobs.get? name = some config) :
    compiled.graph.get? name
      = some ((config.besideAgent name (rollout.runner {})).wired rollout.declaredNames) := by
  have hget := get?_of_planned h (.beside hconfig)
  rwa [name_besideAgent] at hget

theorem rollout_wired :
    ∃ compiled, rollout.compile .default ⟨Engine.defaultCommand⟩ {} = .ok compiled
      ∧ ∃ job, compiled.graph.get? "announce" = some job ∧ "build" ∈ job.needs := by
  obtain ⟨compiled, hcompiled⟩ := exists_compile_rollout
  have hget := get?_rollout hcompiled "announce" rfl
  obtain ⟨hjob, -⟩ := JobGraph.get?_eq_some_iff.mp hget
  have hwritten := (JobGraph.holds_iff hjob).mpr (Job.holds_condition rfl)
  refine ⟨compiled, hcompiled, _, hget, ?_⟩
  exact compile_wires_written hcompiled _ hjob (by decide) "build" (by decide +kernel) (by decide)
    (by decide) _ _ hwritten (by decide) ⟨"", "outputs.runner == 'large'", by decide +kernel, rfl⟩

/-- **What is not wired.** A reference may be written in the runner of a job, or in the identifier
of one of its steps, and the job does not need what it refers to. -/
theorem rollout_unwired :
    ∃ compiled, rollout.compile .default ⟨Engine.defaultCommand⟩ {} = .ok compiled
      ∧ "build" ∈ rollout.declaredNames ∧ isName "build".toList = true
      ∧ (∃ job text, compiled.graph.get? "deploy" = some job
        ∧ compiled.graph.toJson.Holds ["deploy", "runs-on"] text
        ∧ StandsFree "build" text ∧ "build" ∉ job.needs)
      ∧ ∃ job text, compiled.graph.get? "status" = some job
        ∧ compiled.graph.toJson.Holds ["status", "steps", "id"] text
        ∧ StandsFree "build" text ∧ "build" ∉ job.needs := by
  obtain ⟨compiled, hcompiled⟩ := exists_compile_rollout
  have hdeploy := get?_rollout hcompiled "deploy" rfl
  have hstatus := get?_rollout hcompiled "status" rfl
  have hrunner := (JobGraph.holds_iff (JobGraph.get?_eq_some_iff.mp hdeploy).1).mpr
    (Job.holds_runsOn _)
  have hid := (JobGraph.holds_iff (JobGraph.get?_eq_some_iff.mp hstatus).1).mpr
    (Job.holds_stepId List.mem_cons_self rfl)
  refine ⟨compiled, hcompiled, by decide +kernel, by decide, ⟨_, _, hdeploy, hrunner, ?_, ?_⟩,
    _, _, hstatus, hid, ?_, ?_⟩
  · exact ⟨"$\x7b\x7b ", "outputs.runner \x7d\x7d", by decide +kernel, by decide⟩
  · decide +kernel
  · exact ⟨"", "status", by decide +kernel, rfl⟩
  · decide +kernel

end Workflow

end AgentGate
