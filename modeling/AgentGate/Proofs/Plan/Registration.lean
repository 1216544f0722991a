import AgentGate.Proofs.Job.Order
import AgentGate.Proofs.Plan.Needs

/-!
# The order of registration

A registry lists its types in an order, in which their jobs are made. What the handlers are asked
about is a matter of which types there are: which of them get a job, and whether issues are created.
So the order shows only where it is written down, in the needs and the condition of the conclusion.

- `Workflow.context_eq_of_perm`: handlers are told the same.
- `Job.Rearranged`: what may differ between the two conclusions.
- `Workflow.Carries.sameEdges_of_perm`: the two graphs have the same edges, so that both are valid
  or neither is, and they have the same topological order.
- `Workflow.compile_registration_order`: the two results side by side.
-/

namespace AgentGate

/-- Two jobs differ at most in the order of their needs and in that of the conditions which their
own condition joins. -/
structure Job.Rearranged (job other : Job) : Prop where
  rest : other = { job with needs := other.needs, condition := other.condition }
  needs : job.needs.Perm other.needs
  condition : ∃ items items' : List Condition, items.Perm items'
    ∧ job.condition = some (Condition.and items).text
    ∧ other.condition = some (Condition.and items').text

theorem Job.Rearranged.name_eq {job other : Job} (h : job.Rearranged other) :
    other.name = job.name := by
  rw [h.rest]

/-- Wiring leaves the needs of a built-in job alone. -/
theorem Job.wired_of_reserves {job : Job} (declared : List String)
    (h : BuiltinJob.reserves job.name = true) : job.wired declared = job := by
  rw [wired, if_pos h]

/-- The conclusion runs under a conjunction, where each type that reports for itself has a part. -/
theorem Condition.conclusion_eq (types : List OutputType) : conclusion types
    = .and (.raw "always()" :: agentNotSkipped
      :: types.map fun type => .not (outputTypePresent type)) := by
  have hflat : (types.map fun type => Condition.not (outputTypePresent type)).flatMap conjuncts
      = types.map fun type => .not (outputTypePresent type) := by
    rw [List.flatMap_map]
    exact List.flatMap_pure_eq_map _ _
  rw [conclusion, conj, List.flatMap_cons, List.flatMap_cons, hflat]
  rfl

namespace Workflow

variable {w : Workflow} {registry registry' : Registry} {engine : Engine} {options : CompileOptions}
  {compiled compiled' : Compiled} {outputs : SafeOutputs} {job : Job} {name runsOn : String}

/-! ## What handlers are told -/

theorem emits_iff_of_perm (hperm : registry.types.Perm registry'.types) {type : OutputType} :
    outputs.Emits registry type ↔ outputs.Emits registry' type :=
  and_congr_left' hperm.mem_iff

/-- Handlers are asked in the same context, whatever the order of the registry. -/
theorem context_eq_of_perm (hperm : registry.types.Perm registry'.types) :
    context registry outputs = context registry' outputs := by
  have hids : (context registry outputs).temporaryIds
      = (context registry' outputs).temporaryIds := by
    refine Option.ext fun ref => ?_
    rw [temporaryIds_context_iff, temporaryIds_context_iff, emits_iff_of_perm hperm]
  have henabled : (context registry outputs).enabled = (context registry' outputs).enabled := by
    refine List.filter_congr fun type _ => ?_
    rw [Registry.contains, Registry.contains, Bool.eq_iff_iff, List.contains_iff_mem,
      List.contains_iff_mem, hperm.mem_iff]
  show HandlerContext.mk _ _ (context registry outputs).temporaryIds
    (context registry outputs).enabled = _
  rw [hids, henabled]
  rfl

/-! ## The conclusion -/

theorem results_eq_of_perm {jobs jobs' : List String} (hperm : jobs.Perm jobs') :
    results jobs = results jobs' := by
  refine Table.ext_get? fun key => Option.ext fun value => ?_
  rw [results, results, Table.get?_ofList_map_iff, Table.get?_ofList_map_iff, hperm.mem_iff]

/-- The conclusion reports the same results in the same order. -/
theorem rearranged_conclusionJob {types types' : List OutputType} {custom : List String}
    (hperm : types.Perm types') :
    (w.conclusionJob runsOn types custom).Rearranged (w.conclusionJob runsOn types' custom) where
  rest := by
    have hresults : results (types.map OutputType.name ++ custom)
        = results (types'.map OutputType.name ++ custom) :=
      results_eq_of_perm ((hperm.map _).append_right _)
    rw [conclusionJob, conclusionJob, summaryStep, summaryStep, hresults]
  needs := (((hperm.map _).append_right _).cons _).cons _
  condition := by
    rw [conclusionJob, conclusionJob, Condition.conclusion_eq, Condition.conclusion_eq]
    exact ⟨_, _, (((hperm.filter _).map _).cons _).cons _, rfl, rfl⟩

/-! ## Planned jobs -/

/-- Every planned job is planned for the other registry, but for the order in the conclusion. -/
theorem Planned.exists_of_perm (hperm : registry.types.Perm registry'.types)
    (hjob : Planned w registry engine options job) :
    ∃ other, Planned w registry' engine options other
      ∧ (other = job ∨ job.name = "conclusion" ∧ job.Rearranged other) := by
  cases hjob with
  | preActivation hpre => exact ⟨_, .preActivation hpre, .inl rfl⟩
  | activation => exact ⟨_, .activation, .inl rfl⟩
  | agent => exact ⟨_, .agent, .inl rfl⟩
  | beside hconfig => exact ⟨_, .beside hconfig, .inl rfl⟩
  | detection houtputs hactive => exact ⟨_, .detection houtputs hactive, .inl rfl⟩
  | handler houtputs htype hset =>
    rw [context_eq_of_perm hperm]
    exact ⟨_, .handler houtputs (hperm.mem_iff.mp htype) hset, .inl rfl⟩
  | ownOutput houtputs hconfig => exact ⟨_, .ownOutput houtputs hconfig, .inl rfl⟩
  | conclusion houtputs =>
    exact ⟨_, .conclusion houtputs, .inr ⟨rfl, rearranged_conclusionJob (hperm.filter _)⟩⟩

theorem plannedNames_perm (hperm : registry.types.Perm registry'.types) :
    (w.plannedNames registry).Perm (w.plannedNames registry') := by
  refine List.Perm.append_left _ ?_
  cases w.safeOutputs with
  | none => exact .refl _
  | some outputs =>
    simp only [Option.toList_some, List.flatMap_singleton, outcomeNames]
    exact (((hperm.filter _).map _).append_left _ |>.append_right _).append_right _

/-- The planned jobs of a registry fit into one graph when those of the other do. -/
theorem exists_graph_of_perm (hperm : registry.types.Perm registry'.types)
    (h : w.compile registry engine options = .ok compiled) :
    ∃ jobs : JobGraph, jobs.jobs = w.plannedJobs registry' engine options := by
  have hnames :
      compiled.graph.names.Perm ((w.plannedJobs registry' engine options).map Job.name) := by
    rw [names_of_compile h, map_name_plannedJobs]
    exact plannedNames_perm hperm
  refine ⟨⟨_, fun job hjob hname => ?_, hnames.nodup_iff.mp compiled.graph.distinct⟩, rfl⟩
  obtain ⟨found, hfound, heq⟩ :=
    JobGraph.mem_names_iff.mp (hnames.mem_iff.mpr (List.mem_map_of_mem hjob))
  exact compiled.graph.named found hfound (heq.trans hname)

/-! ## The two graphs -/

/-- A graph holds the planned jobs of a registry, wired. -/
def Carries (w : Workflow) (registry : Registry) (engine : Engine) (options : CompileOptions)
    (g : JobGraph) : Prop :=
  g.jobs = (w.plannedJobs registry engine options).map (Job.wired w.declaredNames)

/-- Every job of the one graph is in the other, but for the order in the conclusion. -/
theorem Carries.exists_of_perm {g g' : JobGraph} (hperm : registry.types.Perm registry'.types)
    (hg : Carries w registry engine options g) (hg' : Carries w registry' engine options g')
    (hjob : job ∈ g.jobs) :
    ∃ other ∈ g'.jobs, other = job ∨ job.name = "conclusion" ∧ job.Rearranged other := by
  rw [hg, List.mem_map] at hjob
  obtain ⟨planned, hplanned, rfl⟩ := hjob
  obtain ⟨other, hother, hsame⟩ := (mem_plannedJobs_iff.mp hplanned).exists_of_perm hperm
  refine ⟨other.wired w.declaredNames, ?_, ?_⟩
  · rw [hg']
    exact List.mem_map_of_mem (mem_plannedJobs_iff.mpr hother)
  · rcases hsame with rfl | ⟨hname, hsame⟩
    · exact .inl rfl
    · refine .inr ⟨hname, ?_⟩
      have hreserved : BuiltinJob.reserves planned.name = true := by
        rw [hname]
        decide
      rwa [Job.wired_of_reserves _ hreserved, Job.wired_of_reserves]
      rwa [hsame.name_eq]

theorem Carries.sameEdges_of_perm {g g' : JobGraph} (hperm : registry.types.Perm registry'.types)
    (hg : Carries w registry engine options g) (hg' : Carries w registry' engine options g') :
    g.SameEdges g' where
  names name := by
    have hnames : ∀ {registry : Registry} {g : JobGraph}, Carries w registry engine options g →
        g.names = w.plannedNames registry := by
      intro registry g hg
      rw [JobGraph.names, hg, List.map_map, ← map_name_plannedJobs]
      rfl
    rw [hnames hg, hnames hg', (plannedNames_perm hperm).mem_iff]
  needs name need := by
    have hsubset : ∀ {registry registry' : Registry} {g g' : JobGraph},
        registry.types.Perm registry'.types → Carries w registry engine options g →
        Carries w registry' engine options g' → g.Needs name need → g'.Needs name need := by
      rintro registry registry' g g' hperm hg hg' ⟨job, hjob, rfl, hneed⟩
      obtain ⟨other, hother, rfl | ⟨-, hsame⟩⟩ := hg.exists_of_perm hperm hg' hjob
      · exact ⟨_, hother, rfl, hneed⟩
      · exact ⟨other, hother, hsame.name_eq, hsame.needs.mem_iff.mp hneed⟩
    exact ⟨hsubset hperm hg hg', hsubset hperm.symm hg' hg⟩

theorem Carries.get?_of_perm {g g' : JobGraph} (hperm : registry.types.Perm registry'.types)
    (hg : Carries w registry engine options g) (hg' : Carries w registry' engine options g')
    (hname : name ≠ "conclusion") (hget : g.get? name = some job) : g'.get? name = some job := by
  obtain ⟨hjob, rfl⟩ := JobGraph.get?_eq_some_iff.mp hget
  obtain ⟨other, hother, rfl | ⟨hconclusion, -⟩⟩ := hg.exists_of_perm hperm hg' hjob
  · exact JobGraph.get?_eq_some_iff.mpr ⟨hother, rfl⟩
  · exact absurd hconclusion hname

/-- What is accepted with one registry is accepted with the other. -/
theorem exists_compile_of_perm (hperm : registry.types.Perm registry'.types)
    (h : w.compile registry engine options = .ok compiled) :
    ∃ compiled, w.compile registry' engine options = .ok compiled := by
  obtain ⟨hname, hpermissions, hdeclared, hvalid, -⟩ := compile_eq_ok_iff.mp h
  obtain ⟨jobs, hjobs⟩ := exists_graph_of_perm hperm h
  have hsettings : w.SettingsInOrder registry' := fun outputs houtputs type htype =>
    settingsInOrder_of_compile h outputs houtputs type (hperm.mem_iff.mpr htype)
  have hcarries : Carries w registry' engine options (jobs.wireReferences w.declaredNames) := by
    rw [Carries, ← hjobs]
    rfl
  refine ⟨⟨jobs.wireReferences w.declaredNames, compiled.warnings⟩, compile_eq_ok_iff.mpr
    ⟨hname, hpermissions, hdeclared, ?_, jobs, ?_, rfl⟩⟩
  · exact (hcarries.sameEdges_of_perm hperm.symm (jobs_of_compile h)).validate hvalid
  · rw [candidateJobs_eq hsettings, hjobs]

/-- **The order of registration does not matter.** With the same handlers in two orders a workflow
is accepted with both or with neither. Where it is accepted, the warnings and the topological order
are the same, there are jobs of the same names, and all of them but the conclusion are the same; the
two conclusions differ at most in the order of their needs and of what their condition joins. -/
theorem compile_registration_order (hperm : registry.types.Perm registry'.types) :
    ((∃ compiled, w.compile registry engine options = .ok compiled)
      ↔ ∃ compiled, w.compile registry' engine options = .ok compiled)
    ∧ ∀ compiled compiled', w.compile registry engine options = .ok compiled →
      w.compile registry' engine options = .ok compiled' →
      compiled.warnings = compiled'.warnings
      ∧ (∃ order, compiled.graph.topologicalOrder = .ok order
        ∧ compiled'.graph.topologicalOrder = .ok order)
      ∧ compiled.graph.names.Perm compiled'.graph.names
      ∧ (∀ name, name ≠ "conclusion" → compiled.graph.get? name = compiled'.graph.get? name)
      ∧ ∀ job, compiled.graph.get? "conclusion" = some job →
        ∃ other, compiled'.graph.get? "conclusion" = some other ∧ job.Rearranged other := by
  refine ⟨⟨fun ⟨_, h⟩ => exists_compile_of_perm hperm h,
    fun ⟨_, h⟩ => exists_compile_of_perm hperm.symm h⟩, fun compiled compiled' h h' => ?_⟩
  obtain ⟨-, hwarnings, -, hvalid, -⟩ := compile_eq_ok_iff.mp h
  obtain ⟨-, hwarnings', -, -, -⟩ := compile_eq_ok_iff.mp h'
  have hg : Carries w registry engine options compiled.graph := jobs_of_compile h
  have hg' : Carries w registry' engine options compiled'.graph := jobs_of_compile h'
  refine ⟨Except.ok.inj (hwarnings.symm.trans hwarnings'), ?_, ?_, ?_, ?_⟩
  · exact (hg'.sameEdges_of_perm hperm.symm hg).topologicalOrder hvalid
  · rw [names_of_compile h, names_of_compile h']
    exact plannedNames_perm hperm
  · intro name hname
    refine Option.ext fun job => ⟨fun hget => ?_, fun hget => ?_⟩
    · exact hg.get?_of_perm hperm hg' hname hget
    · exact hg'.get?_of_perm hperm.symm hg hname hget
  · intro job hget
    obtain ⟨hjob, hname⟩ := JobGraph.get?_eq_some_iff.mp hget
    obtain ⟨outputs, houtputs⟩ := exists_outputs_of_conclusion h hjob hname
    rw [eq_wired_of_planned h (.conclusion houtputs) hjob hname]
    exact ⟨_, get?_of_planned h' (.conclusion houtputs), rearranged_conclusionJob (hperm.filter _)⟩

/-- The handlers of all types in the other order: issues come last. -/
def backward : Registry := ⟨OutputType.all.reverse, by decide⟩

theorem release_registration_order :
    ∃ compiled compiled', release.compile .default ⟨Engine.defaultCommand⟩ {} = .ok compiled
      ∧ release.compile backward ⟨Engine.defaultCommand⟩ {} = .ok compiled'
      ∧ compiled.graph.names ≠ compiled'.graph.names
      ∧ compiled.graph.get? "add_comment" = compiled'.graph.get? "add_comment"
      ∧ compiled.graph.topologicalOrder = compiled'.graph.topologicalOrder := by
  have hperm : Registry.default.types.Perm backward.types := (List.reverse_perm _).symm
  obtain ⟨compiled, hcompiled⟩ := exists_compile_release
  obtain ⟨haccepted, hsame⟩ := compile_registration_order hperm
  obtain ⟨compiled', hcompiled'⟩ := haccepted.mp ⟨compiled, hcompiled⟩
  obtain ⟨-, ⟨order, horder, horder'⟩, -, hget, -⟩ := hsame _ _ hcompiled hcompiled'
  refine ⟨compiled, compiled', hcompiled, hcompiled', ?_, hget "add_comment" (by decide),
    horder.trans horder'.symm⟩
  rw [names_of_compile hcompiled, names_of_compile hcompiled']
  decide +kernel

end Workflow

end AgentGate
