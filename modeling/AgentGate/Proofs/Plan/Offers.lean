import AgentGate.Proofs.Job.Json
import AgentGate.Proofs.Plan.Outcome
import AgentGate.Proofs.Plan.Registration

/-!
# What the agent is offered

The agent is told which outputs it may ask for, and the jobs that carry outputs out are made
elsewhere. The list is taken from the configuration, while a job is made only where the registry has
a handler as well. So every output that is carried out is offered, but a type that is turned on
without a handler is offered too.

- `Workflow.carriesOut_iff`: the jobs of the graph that carry outputs out.
- `Workflow.offers_agentJob`: the list, as the step that collects outputs has it.
- `Workflow.mem_allowedOutputs_iff`: what is in the list.
- `Workflow.compile_offers_iff`: when the agent is offered just what is carried out.
- `Workflow.intake_offers_unhandled`: a type that is offered without a handler.
-/

namespace AgentGate.Workflow

variable {w : Workflow} {registry : Registry} {engine : Engine} {options : CompileOptions}
  {compiled : Compiled} {outputs : SafeOutputs} {name : String}

/-! ## The jobs that carry outputs out -/

theorem mem_outcomeNames_of_carriesOut (h : outputs.CarriesOut registry name) :
    name ∈ outcomeNames outputs registry := by
  rw [outcomeNames]
  refine List.mem_append_left _ ?_
  rcases h with ⟨type, htype, henabled, rfl⟩ | hconfig
  · refine List.mem_append_left _ (List.mem_append_right _ ?_)
    exact List.mem_map_of_mem (List.mem_filter.mpr ⟨htype, henabled⟩)
  · exact List.mem_append_right _ (Table.mem_keys_iff.mpr hconfig)

/-- The jobs that carry outputs out are those in the graph that are neither built in nor the
workflow's own. -/
theorem carriesOut_iff (h : w.compile registry engine options = .ok compiled)
    (houtputs : w.safeOutputs = some outputs) : outputs.CarriesOut registry name
      ↔ name ∈ compiled.graph.names ∧ BuiltinJob.reserves name = false
        ∧ w.jobs.get? name = none := by
  have hnames : compiled.graph.names
      = (if w.hasPreActivation then [BuiltinJob.preActivation.name] else [])
        ++ [BuiltinJob.activation.name, BuiltinJob.agent.name] ++ w.jobs.keys
        ++ outcomeNames outputs registry := by
    rw [names_of_compile h, plannedNames, houtputs, Option.toList_some, List.flatMap_singleton]
  constructor
  · intro hcarries
    have hmem := mem_outcomeNames_of_carriesOut hcarries
    refine ⟨hnames ▸ List.mem_append_right _ hmem, ?_, ?_⟩
    · rcases hcarries with ⟨type, -, -, rfl⟩ | hconfig
      · exact type.reserves_name
      · exact reserves_of_mem_declaredNames h
          (mem_declaredNames_iff.mpr (.inr ⟨outputs, houtputs, hconfig⟩))
    · -- The names before are different ones.
      have hdistinct := compiled.graph.distinct
      rw [JobGraph.names] at hnames
      rw [hnames] at hdistinct
      rw [Option.eq_none_iff_forall_ne_some]
      intro config hconfig
      exact List.disjoint_of_nodup_append hdistinct
        (List.mem_append_right _ (Table.mem_keys_iff.mpr ⟨config, hconfig⟩)) hmem
  · rintro ⟨hmem, hfree, hnone⟩
    obtain ⟨job, hjob, rfl⟩ := JobGraph.mem_names_iff.mp hmem
    rcases kind_of_mem_jobs h hjob hfree with ⟨config, hconfig⟩ | ⟨other, hother, hkind⟩
    · rw [hnone] at hconfig
      cases hconfig
    · cases houtputs.symm.trans hother
      rcases hkind with hconfig | ⟨type, hemits, hname⟩
      · exact .inr hconfig
      · exact .inl ⟨type, hemits.1, hemits.2, hname⟩

/-! ## The list -/

/-- Only the step that collects outputs has the list. -/
theorem offers_agentJob (h : w.safeOutputs = some outputs) (options : CompileOptions) :
    (w.agentJob options).steps.filterMap (fun step => step.env.get? "GH_AW_ALLOWED_SAFE_OUTPUTS")
      = [(Json.texts (allowedOutputs outputs)).compact] := by
  have hsteps : (w.agentJob options).steps = Step.checkout :: collectingSteps outputs := by
    rw [agentJob, h]
    rfl
  rw [hsteps]
  rfl

/-- The list has what is carried out, and the types that are turned on without a handler. -/
theorem mem_allowedOutputs_iff (registry : Registry) :
    name ∈ allowedOutputs outputs ↔ outputs.CarriesOut registry name ∨
      ∃ type, outputs.isEnabled type = true ∧ type ∉ registry.types ∧ type.name = name := by
  have henabled : ∀ {type}, type ∈ outputs.enabledTypes ↔ outputs.isEnabled type = true := by
    intro type
    rw [SafeOutputs.enabledTypes, List.mem_filter, and_iff_right (OutputType.mem_all type)]
  rw [allowedOutputs, List.mem_append, List.mem_map, Table.mem_keys_iff, SafeOutputs.CarriesOut]
  simp only [henabled]
  constructor
  · rintro (⟨type, hon, hname⟩ | hconfig)
    · by_cases htype : type ∈ registry.types
      · exact .inl (.inl ⟨type, htype, hon, hname⟩)
      · exact .inr ⟨type, hon, htype, hname⟩
    · exact .inl (.inr hconfig)
  · rintro ((⟨type, -, hon, hname⟩ | hconfig) | ⟨type, hon, -, hname⟩)
    · exact .inl ⟨type, hon, hname⟩
    · exact .inr hconfig
    · exact .inl ⟨type, hon, hname⟩

/-- A name in the list that no job carries out is that of a type without a handler. So there is
none when each type that is turned on has a handler, or an output of the workflow's own takes its
name. -/
theorem allowedOutputs_exact_iff :
    (∀ name, name ∈ allowedOutputs outputs ↔ outputs.CarriesOut registry name)
      ↔ ∀ type, outputs.isEnabled type = true →
        type ∈ registry.types ∨ ∃ config, outputs.jobs.get? type.name = some config := by
  constructor
  · intro hexact type hon
    by_cases htype : type ∈ registry.types
    · exact .inl htype
    · have hoffered : type.name ∈ allowedOutputs outputs :=
        (mem_allowedOutputs_iff registry).mpr (.inr ⟨type, hon, htype, rfl⟩)
      rcases (hexact type.name).mp hoffered with ⟨other, hother, -, hname⟩ | hconfig
      · exact absurd (OutputType.name_injective hname ▸ hother) htype
      · exact .inr hconfig
  · intro hhandled name
    rw [mem_allowedOutputs_iff registry]
    refine or_iff_left_of_imp ?_
    rintro ⟨type, hon, htype, rfl⟩
    exact .inr ((hhandled type hon).resolve_left htype)

/-- **What the agent is offered.** In an accepted workflow with outputs one step of the agent's job
is given a list, which is read as JSON. The list has every job of the graph that carries outputs
out, which are those that are neither built in nor the workflow's own, and further only the types
that are turned on without a handler. So the agent is offered just what is carried out exactly when
every type that is turned on has a handler, or an output of the workflow's own takes its name. -/
theorem compile_offers_iff (h : w.compile registry engine options = .ok compiled)
    (houtputs : w.safeOutputs = some outputs) :
    ∃ job text offered, compiled.graph.get? "agent" = some job
      ∧ job.steps.filterMap (fun step => step.env.get? "GH_AW_ALLOWED_SAFE_OUTPUTS") = [text]
      ∧ Json.ofText? text = some (Json.texts offered)
      ∧ (∀ name, outputs.CarriesOut registry name ↔ name ∈ compiled.graph.names
        ∧ BuiltinJob.reserves name = false ∧ w.jobs.get? name = none)
      ∧ (∀ name, name ∈ offered ↔ outputs.CarriesOut registry name
        ∨ ∃ type, outputs.isEnabled type = true ∧ type ∉ registry.types ∧ type.name = name)
      ∧ ((∀ name, name ∈ offered ↔ outputs.CarriesOut registry name)
        ↔ ∀ type, outputs.isEnabled type = true →
          type ∈ registry.types ∨ ∃ config, outputs.jobs.get? type.name = some config) := by
  have hget := get?_of_planned h .agent
  rw [Job.wired_of_reserves _ rfl] at hget
  refine ⟨_, _, allowedOutputs outputs, hget, offers_agentJob houtputs options,
    Json.ofText?_compact (Json.exact_texts _), fun name => carriesOut_iff h houtputs,
    fun name => mem_allowedOutputs_iff registry, allowedOutputs_exact_iff⟩

theorem release_offers :
    ∃ compiled outputs, release.compile .default ⟨Engine.defaultCommand⟩ {} = .ok compiled
      ∧ release.safeOutputs = some outputs
      ∧ ∃ job text offered, compiled.graph.get? "agent" = some job
        ∧ job.steps.filterMap (fun step => step.env.get? "GH_AW_ALLOWED_SAFE_OUTPUTS") = [text]
        ∧ Json.ofText? text = some (Json.texts offered)
        ∧ ∀ name, name ∈ offered ↔ outputs.CarriesOut .default name := by
  obtain ⟨compiled, hcompiled⟩ := exists_compile_release
  obtain ⟨job, text, offered, hget, htext, hread, -, -, hexact⟩ :=
    compile_offers_iff hcompiled rfl
  refine ⟨compiled, _, hcompiled, rfl, job, text, offered, hget, htext, hread, ?_⟩
  exact hexact.mpr fun type _ => .inl (OutputType.mem_all type)

/-- A workflow whose agent may ask for issues, or report that there is nothing to do. -/
def intake : Workflow where
  name := "Intake"
  safeOutputs := some
    { types := fun type => if type = .createIssue ∨ type = .noop then .enabled {} else .absent }

/-- A registry that has a handler for the report only. -/
def reporting : Registry :=
  ⟨[.noop], by decide⟩

/-- The jobs of the workflow with this registry, each after what it may need. -/
def intakeOrder : List String :=
  ["activation", "agent", "detection", "noop", "conclusion"]

/-- Issues are offered to the agent, and there is no job that would create them. -/
theorem intake_offers_unhandled :
    ∃ compiled, intake.compile reporting ⟨Engine.defaultCommand⟩ {} = .ok compiled
      ∧ ∃ job text offered, compiled.graph.get? "agent" = some job
        ∧ job.steps.filterMap (fun step => step.env.get? "GH_AW_ALLOWED_SAFE_OUTPUTS") = [text]
        ∧ Json.ofText? text = some (Json.texts offered)
        ∧ "create_issue" ∈ offered ∧ "create_issue" ∉ compiled.graph.names := by
  have hfits : intake.fitsOrder reporting ⟨Engine.defaultCommand⟩ {} intakeOrder = true := by
    decide +kernel
  obtain ⟨compiled, hcompiled⟩ := exists_compile_of_fitsOrder hfits
  have hget := get?_of_planned hcompiled .agent
  rw [Job.wired_of_reserves _ rfl] at hget
  refine ⟨compiled, hcompiled, _, _, _, hget, offers_agentJob rfl {},
    Json.ofText?_compact (Json.exact_texts _), by decide +kernel, ?_⟩
  rw [names_of_compile hcompiled]
  decide +kernel

end AgentGate.Workflow
