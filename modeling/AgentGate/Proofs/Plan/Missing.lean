import AgentGate.Proofs.Plan.Environments

/-!
# The need that a workflow is rejected for

Built-in jobs and jobs of output types need only jobs that are planned with them, and references are
followed only to declared jobs, which are planned as well. So when a need is missing, a declared job
asks for it, and the need that is reported can be read off the workflow: it is the first one, in the
order in which jobs are declared and list their needs, of which there is no planned job.

- `Workflow.missingNeed?`: that need, with the job that asks for it.
- `JobGraph.unknownNeed?_wireReferences`: it is the one that is missing in the graph.
- `Workflow.Assembles`: what else a workflow may be rejected for, short of a cycle.
- `Workflow.compile_eq_unknownNeed_iff`: when a workflow is rejected for a missing need.
-/

namespace AgentGate

/-! ## The first need with a property -/

namespace Job

variable {job : Job} {p : String → Bool}

theorem find?_needs_addNeed (need : String) :
    (job.addNeed need).needs.find? p = (job.needs ++ [need]).find? p := by
  rw [addNeed]
  split
  case isTrue hcontains =>
    rw [List.find?_append]
    cases hfound : job.needs.find? p with
    | some first => rfl
    | none =>
      have hneed : ¬ p need = true :=
        List.find?_eq_none.mp hfound need (List.contains_iff_mem.mp hcontains)
      rw [List.find?_singleton, if_neg hneed, Option.or_none]
  case isFalse => rfl

/-- A need that is listed again is not found before it is listed first. -/
theorem find?_needs_addNeeds (needs : List String) :
    (job.addNeeds needs).needs.find? p = (job.needs ++ needs).find? p := by
  induction needs generalizing job with
  | nil => rw [List.append_nil]; rfl
  | cons need rest ih =>
    show ((job.addNeed need).addNeeds rest).needs.find? p = _
    rw [ih, List.find?_append, find?_needs_addNeed, ← List.find?_append, List.append_assoc,
      List.singleton_append]

theorem find?_needs_addNeeds_of_forall {needs : List String} (h : ∀ need ∈ needs, ¬ p need = true) :
    (job.addNeeds needs).needs.find? p = job.needs.find? p := by
  rw [find?_needs_addNeeds, List.find?_append, List.find?_eq_none.mpr h, Option.or_none]

end Job

theorem CustomJob.find?_needs_toJob {config : CustomJob} {name runsOn : String}
    {p : String → Bool} : (config.toJob name runsOn).needs.find? p = config.needs.find? p := by
  rw [toJob, Job.find?_needs_addNeeds]
  rfl

namespace Workflow

variable {w : Workflow} {registry : Registry} {engine : Engine} {options : CompileOptions}
  {outputs : SafeOutputs} {job : Job} {jobs : List Job} {name need runsOn : String}

/-! ## Needs of which there is a planned job -/

/-- Whether there is no planned job of a name. -/
def unplanned (w : Workflow) (registry : Registry) (name : String) : Bool :=
  !(w.plannedNames registry).contains name

/-- The first need of a job of which there is no planned job, with the name of the job. -/
def missingNeedOf? (w : Workflow) (registry : Registry) (name : String) (needs : List String) :
    Option (String × String) :=
  (needs.find? (w.unplanned registry)).map fun need => (name, need)

/-- The first need of which there is no planned job, in the order in which jobs are declared and
list their needs, with the job that asks for it. -/
def missingNeed? (w : Workflow) (registry : Registry) : Option (String × String) :=
  w.declaredJobs.findSome? fun entry => w.missingNeedOf? registry entry.1 entry.2.needs

theorem unplanned_iff : w.unplanned registry name = true ↔ name ∉ w.plannedNames registry := by
  rw [unplanned, Bool.not_eq_true', ← Bool.not_eq_true, List.contains_iff_mem]

theorem not_unplanned_iff :
    ¬ w.unplanned registry name = true ↔ name ∈ w.plannedNames registry := by
  rw [unplanned_iff, not_not]

theorem missingNeedOf?_eq_none_iff {needs : List String} :
    w.missingNeedOf? registry name needs = none
      ↔ ∀ need ∈ needs, need ∈ w.plannedNames registry := by
  simp only [missingNeedOf?, Option.map_eq_none_iff, List.find?_eq_none, not_unplanned_iff]

theorem missingNeedOf?_eq_some_iff {other : String} {needs : List String} :
    w.missingNeedOf? registry other needs = some (name, need)
      ↔ other = name ∧ need ∉ w.plannedNames registry
        ∧ ∃ listed unread, needs = listed ++ need :: unread
          ∧ ∀ need ∈ listed, need ∈ w.plannedNames registry := by
  have hknown (need : String) : (!w.unplanned registry need) = true
      ↔ need ∈ w.plannedNames registry := by
    rw [Bool.not_eq_true', ← Bool.not_eq_true, not_unplanned_iff]
  rw [missingNeedOf?, Option.map_eq_some_iff]
  simp only [Prod.mk.injEq, List.find?_eq_some_iff_append, unplanned_iff, hknown]
  constructor
  · rintro ⟨need, ⟨hneed, hlisted⟩, hname, rfl⟩
    exact ⟨hname, hneed, hlisted⟩
  · rintro ⟨hname, hneed, hlisted⟩
    exact ⟨need, ⟨hneed, hlisted⟩, hname, rfl⟩

/-- The missing need is the first one of its job, and no job that is declared before has any. -/
theorem missingNeed?_eq_some_iff : w.missingNeed? registry = some (name, need)
    ↔ ∃ before config after listed unread,
      w.declaredJobs = before ++ (name, config) :: after ∧ config.needs = listed ++ need :: unread
        ∧ need ∉ w.plannedNames registry
        ∧ (∀ entry ∈ before, ∀ need ∈ entry.2.needs, need ∈ w.plannedNames registry)
        ∧ ∀ need ∈ listed, need ∈ w.plannedNames registry := by
  rw [missingNeed?, List.findSome?_eq_some_iff]
  simp only [missingNeedOf?_eq_some_iff, missingNeedOf?_eq_none_iff]
  constructor
  · rintro ⟨before, ⟨name, config⟩, after, hdeclared, ⟨rfl, hneed, listed, unread, hneeds, hlisted⟩,
      hbefore⟩
    exact ⟨before, config, after, listed, unread, hdeclared, hneeds, hneed, hbefore, hlisted⟩
  · rintro ⟨before, config, after, listed, unread, hdeclared, hneeds, hneed, hbefore, hlisted⟩
    exact ⟨before, (name, config), after, hdeclared, ⟨rfl, hneed, listed, unread, hneeds, hlisted⟩,
      hbefore⟩

theorem activation_mem_plannedNames : BuiltinJob.activation.name ∈ w.plannedNames registry := by
  simp [plannedNames]

theorem agent_mem_plannedNames : BuiltinJob.agent.name ∈ w.plannedNames registry := by
  simp [plannedNames]

theorem mem_plannedNames_of_outcome (houtputs : w.safeOutputs = some outputs)
    (h : name ∈ outcomeNames outputs registry) : name ∈ w.plannedNames registry :=
  List.mem_append_right _ (List.mem_flatMap.mpr ⟨outputs, Option.mem_toList.mpr houtputs, h⟩)

theorem mem_plannedNames_of_emits (houtputs : w.safeOutputs = some outputs) {type : OutputType}
    (hemits : outputs.Emits registry type) : type.name ∈ w.plannedNames registry := by
  refine mem_plannedNames_of_outcome houtputs ?_
  exact List.mem_append_left _ (List.mem_append_left _ (List.mem_append_right _
    (List.mem_map_of_mem (List.mem_filter.mpr hemits))))

theorem mem_plannedNames_of_declared (h : name ∈ w.declaredNames) :
    name ∈ w.plannedNames registry := by
  rcases mem_declaredNames_iff.mp h with hconfig | ⟨outputs, houtputs, hconfig⟩
  · exact List.mem_append_left _ (List.mem_append_right _ (Table.mem_keys_iff.mpr hconfig))
  · refine mem_plannedNames_of_outcome houtputs ?_
    exact List.mem_append_left _ (List.mem_append_right _ (Table.mem_keys_iff.mpr hconfig))

theorem mem_plannedNames_of_outputNeeds (houtputs : w.safeOutputs = some outputs)
    (h : need ∈ CustomJob.outputNeeds outputs.detectionActive) :
    need ∈ w.plannedNames registry := by
  rcases mem_outputNeeds_iff.mp h with rfl | ⟨hactive, rfl⟩
  · exact agent_mem_plannedNames
  · refine mem_plannedNames_of_outcome houtputs ?_
    rw [outcomeNames, if_pos hactive]
    exact List.mem_append_left _ (List.mem_append_left _ (List.mem_append_left _
      (List.mem_singleton_self _)))

/-! ## Jobs that are not declared need planned jobs -/

theorem mem_plannedNames_of_opening
    (hjob : job ∈ (if w.hasPreActivation then [w.preActivationJob runsOn] else [])
      ++ [w.activationJob runsOn, w.agentJob options])
    (hneed : need ∈ job.needs) : need ∈ w.plannedNames registry := by
  rcases List.mem_append.mp hjob with hjob | hjob
  · split at hjob
    · obtain rfl := List.mem_singleton.mp hjob
      cases hneed
    · cases hjob
  rcases List.mem_pair.mp hjob with rfl | rfl
  · rcases List.mem_append.mp hneed with hneed | hneed
    · exact List.mem_append_left _ (List.mem_append_left _ (List.mem_append_left _ hneed))
    · obtain ⟨config, hconfig, -⟩ := mem_earlyJobs_iff.mp hneed
      exact mem_plannedNames_of_declared (mem_declaredNames_iff.mpr (.inl ⟨config, hconfig⟩))
  · obtain rfl := List.mem_singleton.mp hneed
    exact activation_mem_plannedNames

theorem mem_plannedNames_of_detection
    (hjob : job ∈ if outputs.detectionActive then [Detection.job w outputs engine runsOn] else [])
    (hneed : need ∈ job.needs) : need ∈ w.plannedNames registry := by
  split at hjob
  · obtain rfl := List.mem_singleton.mp hjob
    obtain rfl := List.mem_singleton.mp hneed
    exact agent_mem_plannedNames
  · cases hjob

theorem mem_plannedNames_of_handlers (houtputs : w.safeOutputs = some outputs)
    (hjob : job ∈ w.plannedHandlers outputs registry options) (hneed : need ∈ job.needs) :
    need ∈ w.plannedNames registry := by
  obtain ⟨type, -, hmade⟩ := List.mem_filterMap.mp hjob
  obtain ⟨settings, -, rfl⟩ := Option.map_eq_some_iff.mp hmade
  rcases mem_needs_handlerJobOf.mp hneed with rfl | hdetection | ⟨-, rfl⟩ | ⟨item, -, hemits, rfl⟩
  · exact agent_mem_plannedNames
  · exact mem_plannedNames_of_outputNeeds houtputs (mem_outputNeeds_iff.mpr (.inr hdetection))
  · exact activation_mem_plannedNames
  · exact mem_plannedNames_of_emits houtputs hemits

theorem mem_plannedNames_of_conclusion (houtputs : w.safeOutputs = some outputs)
    (hneed : need ∈ (w.conclusionJob runsOn (registry.types.filter outputs.isEnabled)
      outputs.jobs.keys).needs) : need ∈ w.plannedNames registry := by
  rcases List.mem_cons.mp hneed with rfl | hneed
  · exact agent_mem_plannedNames
  rcases List.mem_cons.mp hneed with rfl | hneed
  · exact activation_mem_plannedNames
  rcases List.mem_append.mp hneed with hneed | hneed
  · obtain ⟨type, htype, rfl⟩ := List.mem_map.mp hneed
    exact mem_plannedNames_of_emits houtputs (List.mem_filter.mp htype)
  · exact mem_plannedNames_of_declared (mem_declaredNames_iff.mpr
      (.inr ⟨outputs, houtputs, Table.mem_keys_iff.mp hneed⟩))

/-! ## The needs of declared jobs -/

theorem find?_needs_besideAgent (config : CustomJob) :
    (config.besideAgent name runsOn).needs.find? (w.unplanned registry)
      = config.needs.find? (w.unplanned registry) := by
  rw [CustomJob.besideAgent]
  split
  · exact CustomJob.find?_needs_toJob
  · show ((config.toJob name runsOn).addNeeds [BuiltinJob.agent.name]).needs.find? _ = _
    rw [Job.find?_needs_addNeeds_of_forall, CustomJob.find?_needs_toJob]
    exact List.forall_mem_singleton.mpr (not_unplanned_iff.mpr agent_mem_plannedNames)

theorem find?_needs_forOutput (houtputs : w.safeOutputs = some outputs) (config : CustomJob) :
    (config.forOutput name runsOn outputs options outputs.detectionActive).needs.find?
        (w.unplanned registry)
      = config.needs.find? (w.unplanned registry) := by
  show ((config.toJob name runsOn).addNeeds
    (CustomJob.outputNeeds outputs.detectionActive)).needs.find? _ = _
  rw [Job.find?_needs_addNeeds_of_forall, CustomJob.find?_needs_toJob]
  exact fun need hneed => not_unplanned_iff.mpr (mem_plannedNames_of_outputNeeds houtputs hneed)

/-! ## The first missing need of the planned jobs -/

theorem findSome?_missingNeedOf?_eq_none
    (h : ∀ job ∈ jobs, ∀ need ∈ job.needs, need ∈ w.plannedNames registry) :
    (jobs.findSome? fun job => w.missingNeedOf? registry job.name job.needs) = none :=
  List.findSome?_eq_none_iff.mpr fun job hjob => missingNeedOf?_eq_none_iff.mpr (h job hjob)

theorem findSome?_plannedOpening : ((w.plannedOpening options).findSome? fun job =>
      w.missingNeedOf? registry job.name job.needs)
    = w.jobs.entries.findSome? fun entry => w.missingNeedOf? registry entry.1 entry.2.needs := by
  rw [plannedOpening, List.findSome?_append, List.findSome?_map,
    findSome?_missingNeedOf?_eq_none fun job hjob need => mem_plannedNames_of_opening hjob,
    Option.none_or]
  simp only [Function.comp_def, missingNeedOf?, name_besideAgent, find?_needs_besideAgent]

theorem findSome?_plannedOutcome (houtputs : w.safeOutputs = some outputs) :
    ((w.plannedOutcome outputs registry engine options).findSome? fun job =>
        w.missingNeedOf? registry job.name job.needs)
      = outputs.jobs.entries.findSome? fun entry =>
        w.missingNeedOf? registry entry.1 entry.2.needs := by
  -- Only the third part of the jobs after the agent is declared.
  rw [plannedOutcome, List.findSome?_append, List.findSome?_append, List.findSome?_append,
    List.findSome?_map,
    findSome?_missingNeedOf?_eq_none fun job hjob need => mem_plannedNames_of_detection hjob,
    findSome?_missingNeedOf?_eq_none fun job hjob need =>
      mem_plannedNames_of_handlers houtputs hjob,
    findSome?_missingNeedOf?_eq_none (List.forall_mem_singleton.mpr fun need =>
      mem_plannedNames_of_conclusion houtputs),
    Option.none_or, Option.none_or, Option.or_none]
  simp only [Function.comp_def, missingNeedOf?, name_forOutput, find?_needs_forOutput houtputs]

/-- Of the planned jobs only declared ones may have a need of which there is no planned job. -/
theorem findSome?_plannedJobs : ((w.plannedJobs registry engine options).findSome? fun job =>
    w.missingNeedOf? registry job.name job.needs) = w.missingNeed? registry := by
  rw [plannedJobs, missingNeed?, declaredJobs, List.findSome?_append, List.findSome?_append,
    findSome?_plannedOpening]
  cases houtputs : w.safeOutputs with
  | none => rfl
  | some outputs =>
    rw [Option.toList_some, List.flatMap_singleton, List.flatMap_singleton,
      findSome?_plannedOutcome houtputs]

/-- Wiring adds needs of declared jobs, which are planned. -/
theorem find?_needs_wired (job : Job) :
    (job.wired w.declaredNames).needs.find? (w.unplanned registry)
      = job.needs.find? (w.unplanned registry) := by
  show (if BuiltinJob.reserves job.name then job.needs else _).find? _ = _
  split
  · rfl
  · refine Job.find?_needs_addNeeds_of_forall fun need hneed => ?_
    exact not_unplanned_iff.mpr (mem_plannedNames_of_declared (List.mem_filter.mp hneed).1)

end Workflow

/-- The need that is missing in the wired graph of the planned jobs. -/
theorem JobGraph.unknownNeed?_wireReferences {w : Workflow} {registry : Registry} {engine : Engine}
    {options : CompileOptions} {g : JobGraph} (h : g.jobs = w.plannedJobs registry engine options) :
    (g.wireReferences w.declaredNames).unknownNeed? = w.missingNeed? registry := by
  have hjobs : (g.wireReferences w.declaredNames).jobs
      = (w.plannedJobs registry engine options).map (Job.wired w.declaredNames) := by
    rw [← h]
    rfl
  have hnames : (g.wireReferences w.declaredNames).names = w.plannedNames registry := by
    rw [JobGraph.names, hjobs, List.map_map]
    exact Workflow.map_name_plannedJobs
  have hunknown (need : String) : (!(g.wireReferences w.declaredNames).contains need)
      = w.unplanned registry need := by
    rw [Workflow.unplanned, JobGraph.contains, hnames]
  have hfirst : ((w.plannedJobs registry engine options).findSome? fun job =>
      w.missingNeedOf? registry job.name job.needs) = w.missingNeed? registry :=
    Workflow.findSome?_plannedJobs
  rw [JobGraph.unknownNeed?, hjobs, List.findSome?_map, ← hfirst]
  simp only [hunknown, Function.comp_def, Job.name_wired, Workflow.missingNeedOf?,
    Workflow.find?_needs_wired]

/-! ## Rejected for a missing need -/

theorem JobGraph.add_ne_unknownNeed {g : JobGraph} {job : Job} {name need : String} :
    g.add job ≠ .error (.unknownNeed name need) := by
  intro hadd
  rw [add] at hadd
  split at hadd
  · cases hadd
  · split at hadd <;> cases hadd

theorem JobGraph.validate_eq_unknownNeed_iff {g : JobGraph} {name need : String} :
    g.validate = .error (.unknownNeed name need) ↔ g.unknownNeed? = some (name, need) := by
  rw [validate]
  split
  case h_1 job first hunknown =>
    rw [hunknown, Except.error.injEq, GraphFault.unknownNeed.injEq, Option.some.injEq,
      Prod.mk.injEq]
  case h_2 hunknown =>
    rw [hunknown]
    constructor
    · intro hfault
      split at hfault <;> cases hfault
    · intro hsome
      cases hsome

namespace Workflow

variable {w : Workflow} {registry : Registry} {engine : Engine} {options : CompileOptions}
  {compiled : Compiled} {name need : String}

/-- All that a graph needs to be made of a workflow: its name is not blank, the agent is granted
what its toolsets need, the settings of output types are in order, and the jobs have names of their
own and something to do. What may still be wrong with the graph is a missing need or a cycle. -/
structure Assembles (w : Workflow) (registry : Registry) (strict : Bool) : Prop where
  named : Text.trim w.name ≠ ""
  permitted : ∃ warnings, w.checkPermissions strict = .ok warnings
  declared : ∀ entry ∈ w.declaredJobs, BuiltinJob.reserves entry.1 = false ∧ entry.2.steps ≠ []
  settings : w.SettingsInOrder registry
  nonempty : "" ∉ w.plannedNames registry
  distinct : (w.plannedNames registry).Nodup

theorem checkDeclared_eq_ok_iff : w.checkDeclared = .ok ()
    ↔ ∀ entry ∈ w.declaredJobs, BuiltinJob.reserves entry.1 = false ∧ entry.2.steps ≠ [] := by
  have hfault (entry : String × CustomJob) : declaredFault? entry = none
      ↔ BuiltinJob.reserves entry.1 = false ∧ entry.2.steps ≠ [] := by
    rw [declaredFault?]
    cases BuiltinJob.reserves entry.1 <;> simp
  simp only [← hfault, ← List.findSome?_eq_none_iff]
  rw [checkDeclared]
  cases w.declaredJobs.findSome? declaredFault? with
  | none => exact iff_of_true rfl rfl
  | some fault => constructor <;> (intro h; cases h)

/-- The checks pass and the candidates are jobs of one graph just when the workflow assembles. -/
theorem assembles_iff (w : Workflow) (registry : Registry) (engine : Engine)
    (options : CompileOptions) (strict : Bool) : w.Assembles registry strict
      ↔ w.checkName = .ok () ∧ (∃ warnings, w.checkPermissions strict = .ok warnings)
        ∧ w.checkDeclared = .ok ()
        ∧ ∃ g, JobGraph.assemble .graph (w.candidateJobs registry engine options) = .ok g := by
  have hnames : (w.plannedJobs registry engine options).map Job.name = w.plannedNames registry :=
    map_name_plannedJobs
  rw [checkName_eq_ok_iff, checkDeclared_eq_ok_iff]
  simp only [JobGraph.assemble_eq_ok_iff]
  constructor
  · intro h
    refine ⟨h.named, h.permitted, h.declared, ⟨w.plannedJobs registry engine options, ?_, ?_⟩,
      candidateJobs_eq h.settings⟩
    · rintro job hjob hname
      exact h.nonempty (hnames ▸ hname ▸ List.mem_map_of_mem hjob)
    · exact hnames ▸ h.distinct
  · rintro ⟨hname, hpermitted, hdeclared, g, hg⟩
    obtain ⟨hsettings, hjobs⟩ := eq_plannedJobs_of_candidates hg
    rw [← hjobs] at hnames
    refine ⟨hname, hpermitted, hdeclared, hsettings, ?_, hnames ▸ g.distinct⟩
    rw [← hnames]
    intro hempty
    obtain ⟨job, hjob, heq⟩ := List.mem_map.mp hempty
    exact g.named job hjob heq

/-- **When a workflow is rejected for a missing need**: just when nothing else stands in the way of
its graph, and some declared job has a need of which there is no planned job. The first such need is
the one that is reported. -/
theorem compile_eq_unknownNeed_iff :
    w.compile registry engine options = .error (.graph (.unknownNeed name need))
      ↔ w.Assembles registry (w.strict || options.strict)
        ∧ w.missingNeed? registry = some (name, need) := by
  rw [assembles_iff w registry engine options, compile]
  constructor
  · -- Whatever comes before the validation ends with errors of other kinds, or in adding a job.
    intro h
    rcases bind_eq_error_iff.mp h with herror | ⟨⟨⟩, hname, h⟩
    · cases configuration_of_checkName herror
    rcases bind_eq_error_iff.mp h with herror | ⟨warnings, hwarnings, h⟩
    · cases permission_of_checkPermissions herror
    rcases bind_eq_error_iff.mp h with herror | ⟨⟨⟩, hdeclared, h⟩
    · cases configuration_of_checkDeclared herror
    rcases bind_eq_error_iff.mp h with herror | ⟨g, hg, h⟩
    · rcases JobGraph.mem_or_fault_of_assemble_eq_error herror with hmem | ⟨_, ⟨_, _, hadd⟩, heq⟩
      · cases configuration_of_candidate hmem
      · cases heq
        exact absurd hadd JobGraph.add_ne_unknownNeed
    rcases bind_eq_error_iff.mp h with herror | ⟨⟨⟩, -, h⟩
    · obtain ⟨_, hvalid, heq⟩ := mapError_eq_error_iff.mp herror
      cases heq
      have hjobs := (eq_plannedJobs_of_candidates (JobGraph.assemble_eq_ok_iff.mp hg)).2
      refine ⟨⟨hname, ⟨warnings, hwarnings⟩, hdeclared, g, hg⟩, ?_⟩
      rw [← JobGraph.unknownNeed?_wireReferences hjobs]
      exact JobGraph.validate_eq_unknownNeed_iff.mp hvalid
    · cases h
  · rintro ⟨⟨hname, ⟨warnings, hwarnings⟩, hdeclared, g, hg⟩, hmissing⟩
    have hjobs := (eq_plannedJobs_of_candidates (JobGraph.assemble_eq_ok_iff.mp hg)).2
    rw [← JobGraph.unknownNeed?_wireReferences hjobs] at hmissing
    have hvalid := JobGraph.validate_eq_unknownNeed_iff.mpr hmissing
    refine bind_eq_error_iff.mpr (.inr ⟨(), hname, bind_eq_error_iff.mpr (.inr ⟨warnings, hwarnings,
      bind_eq_error_iff.mpr (.inr ⟨(), hdeclared, bind_eq_error_iff.mpr (.inr ⟨g, hg, ?_⟩)⟩)⟩)⟩)
    exact bind_eq_error_iff.mpr (.inl (mapError_eq_error_iff.mpr ⟨_, hvalid, rfl⟩))

/-- In an accepted workflow whatever a declared job needs is there. -/
theorem mem_names_of_declared (h : w.compile registry engine options = .ok compiled)
    {entry : String × CustomJob} (hentry : entry ∈ w.declaredJobs) (hneed : need ∈ entry.2.needs) :
    need ∈ compiled.graph.names := by
  obtain ⟨-, -, -, hvalid, g, hg, hgraph⟩ := compile_eq_ok_iff.mp h
  have hmissing : w.missingNeed? registry = none := by
    rw [← JobGraph.unknownNeed?_wireReferences (eq_plannedJobs_of_candidates hg).2, ← hgraph]
    exact JobGraph.unknownNeed?_eq_none_iff.mpr (JobGraph.validate_eq_ok_iff.mp hvalid).1
  rw [names_of_compile h]
  exact missingNeedOf?_eq_none_iff.mp (List.findSome?_eq_none_iff.mp hmissing entry hentry) need
    hneed

end Workflow

end AgentGate
