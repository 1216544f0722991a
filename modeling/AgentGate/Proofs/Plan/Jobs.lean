import AgentGate.Proofs.Manifest
import AgentGate.Proofs.Plan.Compile

/-!
# The jobs of an accepted workflow

The candidates of a workflow may hold faults. Where the settings of all output types are in order
they hold none, and are the planned jobs: a list that is made without any check. Every job of an
accepted workflow is a planned job with its references wired.

- `Workflow.handlerJobOf`: the job of an output type, for settings that are in order.
- `Workflow.plannedJobs`, `Workflow.Planned`: the planned jobs as a list, and one by one.
- `Workflow.plannedNames`: their names, which an accepted workflow has each once.
- `Workflow.jobs_of_compile`: the jobs of the graph of an accepted workflow.
-/

namespace AgentGate

/-- The job with the needs that its references add. -/
def Job.wired (declared : List String) (job : Job) : Job :=
  { job with
    needs :=
      if BuiltinJob.reserves job.name then job.needs
      else (job.addNeeds (Reference.jobs job.texts declared job.name)).needs }

@[simp] theorem Job.name_wired (declared : List String) (job : Job) :
    (job.wired declared).name = job.name := rfl

namespace Workflow

variable {w : Workflow} {registry : Registry} {engine : Engine} {options : CompileOptions}
  {compiled : Compiled} {outputs : SafeOutputs} {job : Job} {type : OutputType}
  {settings : OutputSettings} {ctx : HandlerContext} {runsOn name : String} {config : CustomJob}

/-! ## The job of an output type -/

/-- The job that resolves the temporary identifiers of a type, if that is another one. -/
def idsResolver (type : OutputType) (ctx : HandlerContext) : List String :=
  if type.requiresTemporaryIds then
    ((ctx.temporaryIds.filter fun ref => ref.job ≠ type.name).map OutputRef.job).toList
  else []

/-- The job of an output type with settings that are in order. -/
def handlerJobOf (w : Workflow) (type : OutputType) (settings : OutputSettings)
    (ctx : HandlerContext) (runsOn : String) (options : CompileOptions) : Job :=
  ((HandlerStep.ofSettings type settings w ctx).toJob type ctx.outputs runsOn options
    ctx.detectionActive).addNeeds (idsResolver type ctx)

/-- The step that runs the script of a type. -/
def scriptStep (w : Workflow) (type : OutputType) (settings : OutputSettings)
    (ctx : HandlerContext) : Step :=
  { Step.ofModule type.title (type.name ++ ".cjs") with
    id := some type.name
    env := HandlerStep.envOf type settings w ctx
  }.withInput "github-token" (Token.ofSettings settings w ctx.outputs)

/-- The job of a type, apart from what it needs. -/
theorem handlerJobOf_eq (w : Workflow) (type : OutputType) (settings : OutputSettings)
    (ctx : HandlerContext) (runsOn : String) (options : CompileOptions) :
    w.handlerJobOf type settings ctx runsOn options
      = { name := type.name
          needs := (w.handlerJobOf type settings ctx runsOn options).needs
          condition := some (HandlerStep.conditionOf type settings ctx).text
          runsOn
          permissions := type.permissions
          timeoutMinutes := some options.outputTimeoutMinutes
          env := ctx.outputs.env
          outputs := (Table.ofList (type.outputs.map fun key => (key, key))).mapValues fun key =>
            Embedded.embed (Embedded.stepOutput type.name key)
          steps := (Artifact.downloadStep Artifact.outputDirectory
              :: (HandlerStep.ofSettings type settings w ctx).preSteps)
            ++ w.scriptStep type settings ctx
              :: (HandlerStep.ofSettings type settings w ctx).postSteps } := by
  rw [handlerJobOf, Job.addNeeds_eq, HandlerStep.toJob, Job.addNeeds_eq]
  rfl

@[simp] theorem name_handlerJobOf :
    (w.handlerJobOf type settings ctx runsOn options).name = type.name := by
  rw [handlerJobOf_eq]

@[simp] theorem condition_handlerJobOf :
    (w.handlerJobOf type settings ctx runsOn options).condition
      = some (HandlerStep.conditionOf type settings ctx).text := by
  rw [handlerJobOf_eq]

@[simp] theorem permissions_handlerJobOf :
    (w.handlerJobOf type settings ctx runsOn options).permissions = type.permissions := by
  rw [handlerJobOf_eq]

@[simp] theorem env_handlerJobOf :
    (w.handlerJobOf type settings ctx runsOn options).env = ctx.outputs.env := by
  rw [handlerJobOf_eq]

@[simp] theorem outputs_handlerJobOf :
    (w.handlerJobOf type settings ctx runsOn options).outputs
      = (Table.ofList (type.outputs.map fun key => (key, key))).mapValues fun key =>
        Embedded.embed (Embedded.stepOutput type.name key) := by
  rw [handlerJobOf_eq]

@[simp] theorem steps_handlerJobOf :
    (w.handlerJobOf type settings ctx runsOn options).steps
      = (Artifact.downloadStep Artifact.outputDirectory
          :: (HandlerStep.ofSettings type settings w ctx).preSteps)
        ++ w.scriptStep type settings ctx
          :: (HandlerStep.ofSettings type settings w ctx).postSteps := by
  rw [handlerJobOf_eq]

/-- A type that is turned off has no job. -/
theorem handlerJob_eq_none (h : ctx.outputs.settings? type = none) :
    w.handlerJob type ctx runsOn options = .ok none := by
  rw [handlerJob, HandlerStep.build, h]
  rfl

/-- Faulty settings are an error of configuration. -/
theorem handlerJob_eq_error {fault : SettingFault} (h : ctx.outputs.settings? type = some settings)
    (hfault : settings.fault? type = some fault) :
    w.handlerJob type ctx runsOn options = .error (.configuration fault) := by
  rw [handlerJob, HandlerStep.build, h]
  dsimp only
  rw [hfault]
  rfl

/-- Settings that are in order make a job: the environment fits the manifest by itself. -/
theorem handlerJob_eq_some (h : ctx.outputs.settings? type = some settings)
    (hfault : settings.fault? type = none) :
    w.handlerJob type ctx runsOn options
      = .ok (some (w.handlerJobOf type settings ctx runsOn options)) := by
  have hbuild : HandlerStep.build type w ctx
      = .ok (some (HandlerStep.ofSettings type settings w ctx)) := by
    rw [HandlerStep.build, h]
    dsimp only
    rw [hfault]
  have hcheck : (EnvManifest.ofType type).check
      (HandlerStep.ofSettings type settings w ctx).env = .ok () :=
    HandlerStep.check_envOf type settings w ctx
  rw [handlerJob, hbuild]
  show (do
    ((EnvManifest.ofType type).check
      (HandlerStep.ofSettings type settings w ctx).env).mapError (CompileError.manifest type)
    _ : Except CompileError (Option Job)) = _
  rw [hcheck]
  have hname : ((HandlerStep.ofSettings type settings w ctx).toJob type ctx.outputs runsOn options
      ctx.detectionActive).name = type.name := by
    rw [HandlerStep.toJob, Job.name_addNeeds]
  rw [handlerJobOf, idsResolver, ← hname]
  show Except.ok _ = Except.ok _
  split <;> rfl

/-! ## The planned jobs -/

/-- The context in which the handlers of a workflow are asked. -/
abbrev context (registry : Registry) (outputs : SafeOutputs) : HandlerContext :=
  HandlerContext.ofRegistry registry outputs outputs.detectionActive

/-- The runner of the jobs after the agent. -/
def outcomeRunner (w : Workflow) (outputs : SafeOutputs) (options : CompileOptions) : String :=
  outputs.runsOn.getD (w.runner options)

/-- The jobs of output types, made without any check. -/
def plannedHandlers (w : Workflow) (outputs : SafeOutputs) (registry : Registry)
    (options : CompileOptions) : List Job :=
  registry.types.filterMap fun type => (outputs.settings? type).map fun settings =>
    w.handlerJobOf type settings (context registry outputs) (w.outcomeRunner outputs options)
      options

/-- The jobs after the agent, made without any check. -/
def plannedOutcome (w : Workflow) (outputs : SafeOutputs) (registry : Registry) (engine : Engine)
    (options : CompileOptions) : List Job :=
  let runsOn := w.outcomeRunner outputs options
  (if outputs.detectionActive then [Detection.job w outputs engine runsOn] else [])
    ++ w.plannedHandlers outputs registry options
    ++ outputs.jobs.entries.map (fun entry =>
      entry.2.forOutput entry.1 runsOn outputs options outputs.detectionActive)
    ++ [w.conclusionJob runsOn (registry.types.filter outputs.isEnabled) outputs.jobs.keys]

/-- The jobs that do not depend on outputs. -/
def plannedOpening (w : Workflow) (options : CompileOptions) : List Job :=
  let runsOn := w.runner options
  (if w.hasPreActivation then [w.preActivationJob runsOn] else [])
    ++ [w.activationJob runsOn, w.agentJob options]
    ++ w.jobs.entries.map fun entry => entry.2.besideAgent entry.1 runsOn

/-- The jobs of a workflow, made without any check. -/
def plannedJobs (w : Workflow) (registry : Registry) (engine : Engine) (options : CompileOptions) :
    List Job :=
  w.plannedOpening options
    ++ w.safeOutputs.toList.flatMap fun outputs => w.plannedOutcome outputs registry engine options

/-- What makes a job a planned one. -/
inductive Planned (w : Workflow) (registry : Registry) (engine : Engine)
    (options : CompileOptions) : Job → Prop where
  | preActivation (h : w.hasPreActivation = true) :
    Planned w registry engine options (w.preActivationJob (w.runner options))
  | activation : Planned w registry engine options (w.activationJob (w.runner options))
  | agent : Planned w registry engine options (w.agentJob options)
  | beside {name : String} {config : CustomJob} (h : w.jobs.get? name = some config) :
    Planned w registry engine options (config.besideAgent name (w.runner options))
  | detection {outputs : SafeOutputs} (houtputs : w.safeOutputs = some outputs)
    (hactive : outputs.detectionActive = true) :
    Planned w registry engine options
      (Detection.job w outputs engine (w.outcomeRunner outputs options))
  | handler {outputs : SafeOutputs} {type : OutputType} {settings : OutputSettings}
    (houtputs : w.safeOutputs = some outputs) (htype : type ∈ registry.types)
    (hset : outputs.settings? type = some settings) :
    Planned w registry engine options (w.handlerJobOf type settings (context registry outputs)
      (w.outcomeRunner outputs options) options)
  | ownOutput {outputs : SafeOutputs} {name : String} {config : CustomJob}
    (houtputs : w.safeOutputs = some outputs) (h : outputs.jobs.get? name = some config) :
    Planned w registry engine options (config.forOutput name (w.outcomeRunner outputs options)
      outputs options outputs.detectionActive)
  | conclusion {outputs : SafeOutputs} (houtputs : w.safeOutputs = some outputs) :
    Planned w registry engine options (w.conclusionJob (w.outcomeRunner outputs options)
      (registry.types.filter outputs.isEnabled) outputs.jobs.keys)

theorem mem_plannedJobs_iff :
    job ∈ w.plannedJobs registry engine options ↔ Planned w registry engine options job := by
  have hunless : ∀ {b : Bool} {only : Job},
      job ∈ (if b then [only] else []) ↔ b = true ∧ job = only :=
    fun {b only} => by cases b <;> simp
  simp only [plannedJobs, plannedOpening, plannedOutcome, plannedHandlers, List.mem_append, hunless,
    List.mem_map, List.mem_cons, List.not_mem_nil, or_false, List.mem_flatMap, Option.mem_toList,
    List.mem_filterMap, Option.map_eq_some_iff, Prod.exists, ← Table.get?_eq_some_iff]
  constructor
  · rintro (((⟨hpre, rfl⟩ | rfl | rfl) | ⟨name, config, hconfig, rfl⟩)
      | ⟨outputs, houtputs, ((⟨hactive, rfl⟩ | ⟨type, htype, settings, hset, rfl⟩)
        | ⟨name, config, hconfig, rfl⟩) | rfl⟩)
    · exact .preActivation hpre
    · exact .activation
    · exact .agent
    · exact .beside hconfig
    · exact .detection houtputs hactive
    · exact .handler houtputs htype hset
    · exact .ownOutput houtputs hconfig
    · exact .conclusion houtputs
  · intro h
    cases h with
    | preActivation hpre => exact .inl (.inl (.inl ⟨hpre, rfl⟩))
    | activation => exact .inl (.inl (.inr (.inl rfl)))
    | agent => exact .inl (.inl (.inr (.inr rfl)))
    | beside hconfig => exact .inl (.inr ⟨_, _, hconfig, rfl⟩)
    | detection houtputs hactive => exact .inr ⟨_, houtputs, .inl (.inl (.inl ⟨hactive, rfl⟩))⟩
    | handler houtputs htype hset =>
      exact .inr ⟨_, houtputs, .inl (.inl (.inr ⟨_, htype, _, hset, rfl⟩))⟩
    | ownOutput houtputs hconfig => exact .inr ⟨_, houtputs, .inl (.inr ⟨_, _, hconfig, rfl⟩)⟩
    | conclusion houtputs => exact .inr ⟨_, houtputs, .inr rfl⟩

/-! ## Candidates without faults -/

/-- Every type that has a handler and is turned on has settings without a fault. -/
def SettingsInOrder (w : Workflow) (registry : Registry) : Prop :=
  ∀ outputs, w.safeOutputs = some outputs → ∀ type ∈ registry.types,
    ∀ settings, outputs.settings? type = some settings → settings.fault? type = none

/-- The job of an output type, or what is wrong with its settings. -/
def checkedJob (w : Workflow) (type : OutputType) (ctx : HandlerContext) (runsOn : String)
    (options : CompileOptions) (settings : OutputSettings) : Except CompileError Job :=
  match settings.fault? type with
  | some fault => .error (.configuration fault)
  | none => .ok (w.handlerJobOf type settings ctx runsOn options)

theorem checkedJob_eq_ok (hfault : settings.fault? type = none) :
    w.checkedJob type ctx runsOn options settings
      = .ok (w.handlerJobOf type settings ctx runsOn options) := by
  rw [checkedJob, hfault]

theorem checkedJob_eq_error {fault : SettingFault} (hfault : settings.fault? type = some fault) :
    w.checkedJob type ctx runsOn options settings = .error (.configuration fault) := by
  rw [checkedJob, hfault]

/-- What a registry makes of its types. -/
theorem handlerJobs_eq : w.handlerJobs registry ctx runsOn options
    = registry.types.filterMap fun type =>
      (ctx.outputs.settings? type).map (w.checkedJob type ctx runsOn options) := by
  refine List.filterMap_congr fun type _ => ?_
  cases hset : ctx.outputs.settings? type with
  | none => rw [handlerJob_eq_none hset]; rfl
  | some settings =>
    cases hfault : settings.fault? type with
    | none =>
      rw [handlerJob_eq_some hset hfault, Option.map_some, checkedJob_eq_ok hfault]
      rfl
    | some fault =>
      rw [handlerJob_eq_error hset hfault, Option.map_some, checkedJob_eq_error hfault]

/-- Only those candidates may be faulty that are for output types. -/
theorem exists_candidateJobs_eq (w : Workflow) (registry : Registry) (engine : Engine)
    (options : CompileOptions) : ∃ before after : List Job,
    w.candidateJobs registry engine options = before.map .ok
        ++ w.safeOutputs.toList.flatMap (fun outputs => w.handlerJobs registry
          (context registry outputs) (w.outcomeRunner outputs options) options)
        ++ after.map .ok
      ∧ w.plannedJobs registry engine options = before
        ++ w.safeOutputs.toList.flatMap (fun outputs => w.plannedHandlers outputs registry options)
        ++ after := by
  have hunless : ∀ (b : Bool) (only : Job), (if b then [only] else []).map Except.ok
      = if b then [(.ok only : Except CompileError Job)] else [] := by
    intro b only
    cases b <;> rfl
  rw [candidateJobs, plannedJobs]
  cases w.safeOutputs with
  | none =>
    refine ⟨w.plannedOpening options, [], ?_, (List.append_nil _).symm⟩
    simp only [plannedOpening, Option.toList_none, List.flatMap_nil, List.append_nil,
      List.map_append, hunless, List.map_map, List.map_nil]
    rfl
  | some outputs =>
    refine ⟨w.plannedOpening options ++ if outputs.detectionActive then
        [Detection.job w outputs engine (w.outcomeRunner outputs options)] else [],
      outputs.jobs.entries.map (fun entry => entry.2.forOutput entry.1
        (w.outcomeRunner outputs options) outputs options outputs.detectionActive)
      ++ [w.conclusionJob (w.outcomeRunner outputs options)
        (registry.types.filter outputs.isEnabled) outputs.jobs.keys], ?_, ?_⟩
    · simp only [plannedOpening, Option.toList_some, List.flatMap_singleton, outcomeJobs,
        List.map_append, hunless, List.map_map, List.append_assoc]
      rfl
    · simp only [Option.toList_some, List.flatMap_singleton, plannedOutcome, List.append_assoc]

/-- Where all settings are in order the candidates are the planned jobs. -/
theorem candidateJobs_eq (h : w.SettingsInOrder registry) :
    w.candidateJobs registry engine options
      = (w.plannedJobs registry engine options).map .ok := by
  obtain ⟨before, after, hcandidates, hplanned⟩ :=
    exists_candidateJobs_eq w registry engine options
  rw [hcandidates, hplanned, List.map_append, List.map_append]
  congr 2
  rw [List.map_flatMap]
  refine List.flatMap_congr fun outputs houtputs => ?_
  rw [handlerJobs_eq, plannedHandlers, List.map_filterMap]
  refine List.filterMap_congr fun type htype => ?_
  rw [Option.map_map]
  refine Option.map_congr fun settings hset => ?_
  exact checkedJob_eq_ok (h outputs (Option.mem_toList.mp houtputs) type htype settings hset)

/-- Where no candidate is a fault all settings are in order. -/
theorem settingsInOrder_of_candidates
    (h : ∀ candidate ∈ w.candidateJobs registry engine options, ∃ job, candidate = .ok job) :
    w.SettingsInOrder registry := by
  intro outputs houtputs type htype settings hset
  cases hfault : settings.fault? type with
  | none => rfl
  | some fault =>
    -- The fault would be among the candidates.
    obtain ⟨before, after, hcandidates, -⟩ := exists_candidateJobs_eq w registry engine options
    obtain ⟨job, hjob⟩ := h (.error (.configuration fault)) (by
      rw [hcandidates, houtputs, Option.toList_some, List.flatMap_singleton, handlerJobs_eq]
      exact List.mem_append_left _ (List.mem_append_right _ (List.mem_filterMap.mpr
        ⟨type, htype, Option.map_eq_some_iff.mpr ⟨settings, hset, checkedJob_eq_error hfault⟩⟩)))
    cases hjob

/-- Candidates without a fault are the planned jobs. -/
theorem eq_plannedJobs_of_candidates {jobs : List Job}
    (h : w.candidateJobs registry engine options = jobs.map .ok) :
    w.SettingsInOrder registry ∧ jobs = w.plannedJobs registry engine options := by
  have hcandidates : ∀ candidate ∈ w.candidateJobs registry engine options,
      ∃ job, candidate = .ok job := by
    intro candidate hmem
    rw [h] at hmem
    obtain ⟨job, -, heq⟩ := List.mem_map.mp hmem
    exact ⟨job, heq.symm⟩
  have hinOrder : w.SettingsInOrder registry := settingsInOrder_of_candidates hcandidates
  rw [candidateJobs_eq hinOrder] at h
  exact ⟨hinOrder, (List.map_injective_iff.mpr (fun _ _ => Except.ok.inj) h).symm⟩

/-- An accepted workflow has settings in order. -/
theorem settingsInOrder_of_compile (h : w.compile registry engine options = .ok compiled) :
    w.SettingsInOrder registry :=
  settingsInOrder_of_candidates fun _ => eq_ok_of_candidate h

/-- **The jobs of an accepted workflow** are the planned ones with their references wired. -/
theorem jobs_of_compile (h : w.compile registry engine options = .ok compiled) :
    compiled.graph.jobs
      = (w.plannedJobs registry engine options).map (Job.wired w.declaredNames) := by
  obtain ⟨-, -, -, -, jobs, hjobs, hgraph⟩ := compile_eq_ok_iff.mp h
  rw [hgraph, ← (eq_plannedJobs_of_candidates hjobs).2]
  rfl

theorem mem_jobs_of_compile_iff (h : w.compile registry engine options = .ok compiled) :
    job ∈ compiled.graph.jobs
      ↔ ∃ planned, Planned w registry engine options planned
        ∧ planned.wired w.declaredNames = job := by
  rw [jobs_of_compile h, List.mem_map]
  simp only [mem_plannedJobs_iff]

/-! ## Their names -/

/-- The names of the jobs after the agent. -/
def outcomeNames (outputs : SafeOutputs) (registry : Registry) : List String :=
  (if outputs.detectionActive then [BuiltinJob.detection.name] else [])
    ++ (registry.types.filter outputs.isEnabled).map OutputType.name
    ++ outputs.jobs.keys
    ++ [BuiltinJob.conclusion.name]

/-- The names of the planned jobs. -/
def plannedNames (w : Workflow) (registry : Registry) : List String :=
  (if w.hasPreActivation then [BuiltinJob.preActivation.name] else [])
    ++ [BuiltinJob.activation.name, BuiltinJob.agent.name]
    ++ w.jobs.keys
    ++ w.safeOutputs.toList.flatMap fun outputs => outcomeNames outputs registry

@[simp] theorem name_besideAgent : (config.besideAgent name runsOn).name = name := by
  have hname : (config.toJob name runsOn).name = name := by
    rw [CustomJob.toJob, Job.name_addNeeds]
  rw [CustomJob.besideAgent]
  split
  · exact hname
  · rw [Job.name_addNeed, hname]

@[simp] theorem name_forOutput {active : Bool} :
    (config.forOutput name runsOn outputs options active).name = name := by
  show ((config.toJob name runsOn).addNeeds _).name = name
  rw [Job.name_addNeeds, CustomJob.toJob, Job.name_addNeeds]

theorem map_name_plannedJobs :
    (w.plannedJobs registry engine options).map Job.name = w.plannedNames registry := by
  have hpre : ∀ (b : Bool) (only : Job), (if b then [only] else []).map Job.name
      = if b then [only.name] else [] := by
    intro b only
    cases b <;> rfl
  have hhandlers : ∀ outputs : SafeOutputs,
      (w.plannedHandlers outputs registry options).map Job.name
        = (registry.types.filter outputs.isEnabled).map OutputType.name := by
    intro outputs
    rw [plannedHandlers, List.map_filterMap, ← List.filterMap_eq_filter, List.map_filterMap]
    refine List.filterMap_congr fun type _ => ?_
    show _ = (Option.guard (fun type => (outputs.settings? type).isSome) type).map OutputType.name
    cases hset : outputs.settings? type <;> simp [Option.guard, hset]
  simp only [plannedJobs, plannedOpening, plannedNames, List.map_append, hpre, List.map_flatMap,
    plannedOutcome, outcomeNames, hhandlers, List.map_map, Table.keys]
  simp only [Function.comp_def, name_besideAgent, name_forOutput]
  rfl

theorem names_of_compile (h : w.compile registry engine options = .ok compiled) :
    compiled.graph.names = w.plannedNames registry := by
  rw [JobGraph.names, jobs_of_compile h, List.map_map, ← map_name_plannedJobs]
  rfl

/-- In an accepted workflow no two planned jobs have one name. -/
theorem nodup_plannedNames (h : w.compile registry engine options = .ok compiled) :
    (w.plannedNames registry).Nodup :=
  names_of_compile h ▸ compiled.graph.distinct

end Workflow

end AgentGate
