import AgentGate.Plan.Compile
import AgentGate.Proofs.Job.Build
import AgentGate.Proofs.Job.Search
import AgentGate.Proofs.Table

/-!
# What a compiled workflow contains

Every candidate of an accepted workflow is a job of its graph. There it may need further jobs, and
nothing else about it is changed.

- `Workflow.compile_eq_ok_iff`: when a workflow is accepted, and what it is compiled to.
- `Workflow.exists_compile_of_isOrdered`: a workflow is accepted when its jobs can be put in order.
- `Workflow.exists_get?_of_candidate`: where a candidate is found in the graph.
- `Workflow.exists_get?_of_handler`, `Workflow.exists_get?_of_customOutput`: the jobs of outputs.
-/

namespace AgentGate.Workflow

variable {w : Workflow} {registry : Registry} {engine : Engine} {options : CompileOptions}
  {compiled : Compiled} {outputs : SafeOutputs} {job : Job} {type : OutputType}
  {settings : OutputSettings} {ctx : HandlerContext} {runsOn name : String} {config : CustomJob}

/-- A workflow is accepted when its checks pass, all its candidates are jobs of one graph and the
graph, wired, is valid. -/
theorem compile_eq_ok_iff : w.compile registry engine options = .ok compiled
    ↔ w.checkName = .ok ()
      ∧ w.checkPermissions (w.strict || options.strict) = .ok compiled.warnings
      ∧ w.checkDeclared = .ok ()
      ∧ compiled.graph.validate = .ok ()
      ∧ ∃ jobs : JobGraph, w.candidateJobs registry engine options = jobs.jobs.map .ok
        ∧ compiled.graph = jobs.wireReferences w.declaredNames := by
  rw [compile]
  simp only [bind_eq_ok_iff, mapError_eq_ok_iff, JobGraph.assemble_eq_ok_iff]
  constructor
  · rintro ⟨⟨⟩, hname, warnings, hwarnings, ⟨⟩, hdeclared, jobs, hjobs, ⟨⟩, hvalid, hcompiled⟩
    cases hcompiled
    exact ⟨hname, hwarnings, hdeclared, hvalid, jobs, hjobs, rfl⟩
  · rintro ⟨hname, hwarnings, hdeclared, hvalid, jobs, hjobs, hgraph⟩
    refine ⟨(), hname, compiled.warnings, hwarnings, (), hdeclared, jobs, hjobs, (), ?_, ?_⟩
    · rw [← hgraph, hvalid]
    · rw [← hgraph]
      rfl

/-- The jobs of a graph, wired, need what they needed before. -/
theorem exists_get?_wireReferences {g : JobGraph} (declared : List String) (h : job ∈ g.jobs) :
    ∃ needs, job.needs ⊆ needs
      ∧ (g.wireReferences declared).get? job.name = some { job with needs } := by
  refine ⟨_, ?_, JobGraph.get?_rewire h⟩
  intro need hneed
  split
  · exact hneed
  · exact Job.mem_needs_addNeeds.mpr (.inl hneed)

/-! ## Accepted for an order of the jobs -/

/-- What a job may need once it is wired, whatever its texts refer to. -/
def possibleNeeds (w : Workflow) (job : Job) : List String :=
  job.needs
    ++ if BuiltinJob.reserves job.name then []
      else w.declaredNames.filter fun name => name ≠ job.name

theorem mem_possibleNeeds {need : String}
    (h : need ∈ (if BuiltinJob.reserves job.name then job.needs
      else (job.addNeeds (Reference.jobs job.texts w.declaredNames job.name)).needs)) :
    need ∈ w.possibleNeeds job := by
  rw [possibleNeeds, List.mem_append]
  split at h
  case isTrue hreserved => exact .inl h
  case isFalse hreserved =>
    rcases Job.mem_needs_addNeeds.mp h with hneed | hneed
    · exact .inl hneed
    · obtain ⟨hdeclared, hother⟩ := List.mem_filter.mp hneed
      rw [Bool.and_eq_true] at hother
      rw [if_neg hreserved]
      exact .inr (List.mem_filter.mpr ⟨hdeclared, decide_eq_true (of_decide_eq_true hother.1)⟩)

/-- Whether a workflow passes its checks and has its jobs listed in an order in which each comes
after whatever it may need. It takes no search to see that. -/
def fitsOrder (w : Workflow) (registry : Registry) (engine : Engine) (options : CompileOptions)
    (order : List String) : Bool :=
  w.checkName.isOk && (w.checkPermissions (w.strict || options.strict)).isOk && w.checkDeclared.isOk
    && match JobGraph.assemble .graph (w.candidateJobs registry engine options) with
      | .error _ => false
      | .ok jobs => jobs.jobs.all fun job => (w.possibleNeeds job).all fun need =>
        jobs.contains need && decide (order.idxOf need < order.idxOf job.name)

/-- Whether a workflow passes its checks and has its jobs, once they are wired, listed in an order
in which each comes after what it needs. -/
def isOrdered (w : Workflow) (registry : Registry) (engine : Engine) (options : CompileOptions)
    (order : List String) : Bool :=
  w.checkName.isOk && (w.checkPermissions (w.strict || options.strict)).isOk && w.checkDeclared.isOk
    && match JobGraph.assemble .graph (w.candidateJobs registry engine options) with
      | .error _ => false
      | .ok jobs => (jobs.wireReferences w.declaredNames).jobs.all fun job =>
        job.needs.all fun need =>
          jobs.contains need && decide (order.idxOf need < order.idxOf job.name)

/-- Such a workflow is accepted. -/
theorem exists_compile_of_isOrdered {order : List String}
    (h : w.isOrdered registry engine options order = true) :
    ∃ compiled, w.compile registry engine options = .ok compiled := by
  rw [isOrdered, Bool.and_eq_true, Bool.and_eq_true, Bool.and_eq_true] at h
  obtain ⟨⟨⟨hname, hpermissions⟩, hdeclared⟩, hjobs⟩ := h
  obtain ⟨⟨⟩, hname⟩ := eq_ok_of_isOk hname
  obtain ⟨warnings, hwarnings⟩ := eq_ok_of_isOk hpermissions
  obtain ⟨⟨⟩, hdeclared⟩ := eq_ok_of_isOk hdeclared
  split at hjobs
  case h_1 => cases hjobs
  case h_2 jobs hassemble =>
    simp only [List.all_eq_true, Bool.and_eq_true, decide_eq_true_eq] at hjobs
    have hnames : (jobs.wireReferences w.declaredNames).names = jobs.names := List.map_map
    refine ⟨⟨jobs.wireReferences w.declaredNames, warnings⟩, compile_eq_ok_iff.mpr
      ⟨hname, hwarnings, hdeclared, ?_, jobs, JobGraph.assemble_eq_ok_iff.mp hassemble, rfl⟩⟩
    refine JobGraph.validate_eq_ok_iff.mpr ⟨fun job hjob need hneed => ?_, ?_⟩
    · rw [hnames]
      exact JobGraph.contains_iff.mp (hjobs job hjob need hneed).1
    · exact JobGraph.acyclic_of_rank order.idxOf fun job hjob need hneed =>
        (hjobs job hjob need hneed).2

/-- Wiring adds nothing beyond the possible needs. -/
theorem isOrdered_of_fitsOrder {order : List String}
    (h : w.fitsOrder registry engine options order = true) :
    w.isOrdered registry engine options order = true := by
  rw [fitsOrder, Bool.and_eq_true] at h
  rw [isOrdered, Bool.and_eq_true]
  refine ⟨h.1, ?_⟩
  have hjobs := h.2
  split at hjobs
  case h_1 => cases hjobs
  case h_2 jobs hassemble =>
    simp only [List.all_eq_true] at hjobs ⊢
    intro wired hwired need hneed
    obtain ⟨job, hjob, rfl⟩ := List.mem_map.mp hwired
    exact hjobs job hjob need (mem_possibleNeeds hneed)

theorem exists_compile_of_fitsOrder {order : List String}
    (h : w.fitsOrder registry engine options order = true) :
    ∃ compiled, w.compile registry engine options = .ok compiled :=
  exists_compile_of_isOrdered (isOrdered_of_fitsOrder h)

/-! ## Candidates -/

/-- An accepted workflow has no faulty candidate. -/
theorem eq_ok_of_candidate {candidate : Except CompileError Job}
    (h : w.compile registry engine options = .ok compiled)
    (hmem : candidate ∈ w.candidateJobs registry engine options) : ∃ job, candidate = .ok job := by
  obtain ⟨-, -, -, -, jobs, hjobs, -⟩ := compile_eq_ok_iff.mp h
  rw [hjobs] at hmem
  obtain ⟨job, -, heq⟩ := List.mem_map.mp hmem
  exact ⟨job, heq.symm⟩

/-- Every candidate is found in the graph under its name, perhaps with further needs. -/
theorem exists_get?_of_candidate (h : w.compile registry engine options = .ok compiled)
    (hmem : .ok job ∈ w.candidateJobs registry engine options) :
    ∃ needs, job.needs ⊆ needs ∧ compiled.graph.get? job.name = some { job with needs } := by
  obtain ⟨-, -, -, -, jobs, hjobs, hgraph⟩ := compile_eq_ok_iff.mp h
  rw [hjobs] at hmem
  obtain ⟨other, hother, heq⟩ := List.mem_map.mp hmem
  cases heq
  rw [hgraph]
  exact exists_get?_wireReferences w.declaredNames hother

theorem mem_candidateJobs {candidate : Except CompileError Job}
    (houtputs : w.safeOutputs = some outputs)
    (hmem : candidate ∈ w.outcomeJobs outputs registry engine options) :
    candidate ∈ w.candidateJobs registry engine options := by
  rw [candidateJobs, houtputs]
  exact List.mem_append_right _ (List.mem_flatMap.mpr ⟨outputs, List.mem_singleton_self _, hmem⟩)

/-! ## The jobs of outputs -/

/-- The step of a type that is turned on is made for its settings. -/
theorem eq_ofSettings_of_build {built : Option HandlerStep}
    (hset : ctx.outputs.settings? type = some settings)
    (h : HandlerStep.build type w ctx = .ok built) :
    built = some (HandlerStep.ofSettings type settings w ctx) := by
  unfold HandlerStep.build at h
  rw [hset] at h
  dsimp only at h
  split at h
  · cases h
  · exact (Except.ok.inj h).symm

/-- The job of a type that is turned on runs under the condition of its step, after the jobs that
every output waits for. -/
theorem exists_of_handlerJob {made : Option Job} (hset : ctx.outputs.settings? type = some settings)
    (h : w.handlerJob type ctx runsOn options = .ok made) :
    ∃ job, made = some job ∧ job.name = type.name
      ∧ job.condition = some (HandlerStep.conditionOf type settings ctx).text
      ∧ CustomJob.outputNeeds ctx.detectionActive ⊆ job.needs := by
  obtain ⟨built, hbuilt, hrest⟩ := bind_eq_ok_iff.mp h
  obtain rfl := eq_ofSettings_of_build hset (mapError_eq_ok_iff.mp hbuilt)
  obtain ⟨⟨⟩, -, hjob⟩ := bind_eq_ok_iff.mp hrest
  -- Waiting for temporary identifiers adds a need and leaves the rest as it was.
  refine ⟨_, (Except.ok.inj hjob).symm, ?_, ?_, fun need hneed => ?_⟩
  · rw [Job.name_addNeeds, HandlerStep.toJob, Job.name_addNeeds]
  · rw [Job.condition_addNeeds, HandlerStep.toJob, Job.condition_addNeeds]
    rfl
  · exact Job.mem_needs_addNeeds.mpr (.inl (Job.mem_needs_addNeeds.mpr
      (.inr (List.mem_append_left _ hneed))))

/-- The job of a type that has a handler and is turned on. -/
theorem exists_get?_of_handler (h : w.compile registry engine options = .ok compiled)
    (houtputs : w.safeOutputs = some outputs) (htype : type ∈ registry.types)
    (hset : outputs.settings? type = some settings) :
    ∃ job, compiled.graph.get? type.name = some job
      ∧ job.condition = some (HandlerStep.conditionOf type settings
        (HandlerContext.ofRegistry registry outputs outputs.detectionActive)).text
      ∧ CustomJob.outputNeeds outputs.detectionActive ⊆ job.needs := by
  have hcandidate : ∀ {candidate}, candidate ∈ w.handlerJobs registry
      (HandlerContext.ofRegistry registry outputs outputs.detectionActive)
      (outputs.runsOn.getD (w.runner options)) options →
      candidate ∈ w.candidateJobs registry engine options := fun hmem =>
    mem_candidateJobs houtputs
      (List.mem_append_left _ (List.mem_append_left _ (List.mem_append_right _ hmem)))
  cases hmade : w.handlerJob type (HandlerContext.ofRegistry registry outputs
      outputs.detectionActive) (outputs.runsOn.getD (w.runner options)) options with
  | error error =>
    -- A handler that cannot be made leaves its fault among the candidates.
    obtain ⟨job, hjob⟩ := eq_ok_of_candidate h
      (hcandidate (List.mem_filterMap.mpr ⟨type, htype, by rw [hmade]⟩))
    cases hjob
  | ok made =>
    obtain ⟨job, rfl, hname, hcondition, hneeds⟩ := exists_of_handlerJob hset hmade
    obtain ⟨needs, hsubset, hget⟩ := exists_get?_of_candidate h
      (hcandidate (List.mem_filterMap.mpr ⟨type, htype, by rw [hmade]; rfl⟩))
    rw [hname] at hget
    exact ⟨_, hget, hcondition, List.Subset.trans hneeds hsubset⟩

/-- The job for an output of the workflow's own. -/
theorem exists_get?_of_customOutput (h : w.compile registry engine options = .ok compiled)
    (houtputs : w.safeOutputs = some outputs) (hconfig : outputs.jobs.get? name = some config) :
    ∃ job, compiled.graph.get? name = some job
      ∧ job.condition = some (config.outputCondition name outputs.detectionActive).text
      ∧ CustomJob.outputNeeds outputs.detectionActive ⊆ job.needs := by
  have hmem : .ok (config.forOutput name (outputs.runsOn.getD (w.runner options)) outputs options
      outputs.detectionActive) ∈ w.candidateJobs registry engine options :=
    mem_candidateJobs houtputs (List.mem_append_left _ (List.mem_append_right _
      (List.mem_map.mpr ⟨(name, config), Table.get?_eq_some_iff.mp hconfig, rfl⟩)))
  obtain ⟨needs, hsubset, hget⟩ := exists_get?_of_candidate h hmem
  have hname : (config.forOutput name (outputs.runsOn.getD (w.runner options)) outputs options
      outputs.detectionActive).name = name := by
    show ((config.toJob name _).addNeeds _).name = name
    rw [Job.name_addNeeds, CustomJob.toJob, Job.name_addNeeds]
  rw [hname] at hget
  refine ⟨_, hget, rfl, fun need hneed => hsubset ?_⟩
  exact Job.mem_needs_addNeeds.mpr (.inr hneed)

/-- Where detection is active, the graph has its job. -/
theorem exists_get?_detection (h : w.compile registry engine options = .ok compiled)
    (houtputs : w.safeOutputs = some outputs) (hactive : outputs.detectionActive = true) :
    ∃ needs, compiled.graph.get? BuiltinJob.detection.name = some
      { Detection.job w outputs engine (outputs.runsOn.getD (w.runner options)) with needs } := by
  have hmem : .ok (Detection.job w outputs engine (outputs.runsOn.getD (w.runner options)))
      ∈ w.candidateJobs registry engine options :=
    mem_candidateJobs houtputs (List.mem_append_left _ (List.mem_append_left _
      (List.mem_append_left _ (by rw [if_pos hactive]; exact List.mem_singleton_self _))))
  obtain ⟨needs, -, hget⟩ := exists_get?_of_candidate h hmem
  exact ⟨needs, hget⟩

end AgentGate.Workflow
