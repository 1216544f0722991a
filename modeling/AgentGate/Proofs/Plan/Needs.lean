import AgentGate.Proofs.Plan.Jobs
import AgentGate.Proofs.Reference.Jobs

/-!
# What the jobs of an accepted workflow need

An edge of the graph is fixed by the kind of a job, declared by the workflow, or follows from a
reference in a text of the job. For each kind of planned job its needs are one equation; wiring adds
the referred jobs and nothing else.

- `SafeOutputs.Emits`: the output types that get a job.
- `OutputType.awaited`: the output types whose jobs the job of a type waits for.
- `Workflow.mem_needs_handlerJobOf`, `CustomJob.mem_needs_besideAgent`,
  `CustomJob.mem_needs_forOutput`: the needs of each kind of job that is not built in.
- `Workflow.compile_needs_exact`: the edges of an accepted workflow, without omission or addition.
-/

namespace AgentGate

/-! ## Output types that get a job -/

/-- An output type gets a job when it has a handler and is turned on. -/
def SafeOutputs.Emits (outputs : SafeOutputs) (registry : Registry) (type : OutputType) : Prop :=
  type ∈ registry.types ∧ outputs.isEnabled type = true

namespace OutputType

/-- The output types whose jobs the job of a type waits for, where there are such jobs: a discussion
resolves the temporary identifiers of issues, and a comment may link to all that was created. -/
def awaited : OutputType → List OutputType
  | createDiscussion => [createIssue]
  | addComment => [createIssue, createDiscussion, createPullRequest]
  | createIssue | createPullRequest | createPrReviewComment | createCodeScanningAlert | addLabels
  | pushToPullRequestBranch | createAgentTask | missingTool | noop => []

theorem name_injective : Function.Injective name := by
  intro first second h
  have heq := ofName?_name first
  rw [h, ofName?_name second] at heq
  exact (Option.some.inj heq).symm

/-- No output type has the name of a built-in job. -/
theorem reserves_name (type : OutputType) : BuiltinJob.reserves type.name = false := by
  cases type <;> decide

theorem name_ne_builtin (type : OutputType) (builtin : BuiltinJob) : type.name ≠ builtin.name := by
  intro heq
  have hfree := type.reserves_name
  rw [BuiltinJob.reserves_iff.mpr ⟨builtin, heq.symm⟩] at hfree
  cases hfree

end OutputType

variable {outputs : SafeOutputs} {registry : Registry} {type : OutputType} {need name : String}
  {w : Workflow} {settings : OutputSettings} {options : CompileOptions} {runsOn : String}
  {config : CustomJob} {active : Bool} {engine : Engine} {compiled : Compiled} {job : Job}

namespace Workflow

/-! ## The needs of an output type -/

theorem mem_enabled_context_iff :
    type ∈ (context registry outputs).enabled ↔ outputs.Emits registry type := by
  show type ∈ outputs.enabledTypes.filter registry.contains ↔ _
  rw [List.mem_filter, SafeOutputs.enabledTypes, List.mem_filter, Registry.contains,
    List.contains_iff_mem, and_iff_right (OutputType.mem_all type)]
  exact And.comm

/-- Temporary identifiers are resolved by the job that creates issues, if there is one. -/
theorem temporaryIds_context_iff {ref : OutputRef} :
    (context registry outputs).temporaryIds = some ref
      ↔ outputs.Emits registry .createIssue
        ∧ ref = ⟨OutputType.createIssue.name, OutputType.temporaryIdOutput⟩ := by
  have hprovider : ∀ {type : OutputType},
      (type.providesTemporaryIds && outputs.isEnabled type) = true
        ↔ type = .createIssue ∧ outputs.isEnabled type = true := by
    intro type
    rw [Bool.and_eq_true, OutputType.providesTemporaryIds, decide_eq_true_eq]
  show (registry.types.find? fun type => type.providesTemporaryIds && outputs.isEnabled type).map
    (fun type => (⟨type.name, OutputType.temporaryIdOutput⟩ : OutputRef)) = some ref ↔ _
  rw [Option.map_eq_some_iff]
  constructor
  · rintro ⟨type, hfound, rfl⟩
    obtain ⟨rfl, henabled⟩ := hprovider.mp (List.find?_eq_some_iff_append.mp hfound).1
    exact ⟨⟨List.mem_of_find?_eq_some hfound, henabled⟩, rfl⟩
  · rintro ⟨⟨hmem, henabled⟩, rfl⟩
    obtain ⟨type, hfound⟩ : ∃ type, (registry.types.find? fun type =>
        type.providesTemporaryIds && outputs.isEnabled type) = some type :=
      Option.isSome_iff_exists.mp (List.find?_isSome.mpr ⟨_, hmem, hprovider.mpr ⟨rfl, henabled⟩⟩)
    obtain ⟨rfl, -⟩ := hprovider.mp (List.find?_eq_some_iff_append.mp hfound).1
    exact ⟨_, hfound, rfl⟩

/-- The outputs of other types that a type reads. -/
theorem mem_itemReads_iff {entry : String × OutputRef} :
    entry ∈ HandlerStep.itemReads type (context registry outputs)
      ↔ (type = .addComment ∧ ∃ item ∈ HandlerStep.createdItems, outputs.Emits registry item.1
          ∧ (item.2.1, ⟨item.1.name, item.2.2⟩) = entry)
        ∨ type.requiresTemporaryIds = true ∧ outputs.Emits registry .createIssue
          ∧ ("GH_AW_TEMPORARY_ID_MAP",
            ⟨OutputType.createIssue.name, OutputType.temporaryIdOutput⟩) = entry := by
  rw [HandlerStep.itemReads, List.mem_append]
  refine or_congr ?_ ?_
  · split
    case isTrue htype =>
      simp only [List.mem_map, List.mem_filter, List.contains_iff_mem, mem_enabled_context_iff,
        and_assoc, htype, true_and]
    case isFalse htype => simp only [List.not_mem_nil, htype, false_and]
  · split
    case isTrue htype =>
      simp only [List.mem_map, Option.mem_toList, temporaryIds_context_iff, and_assoc, htype,
        true_and, exists_and_left, exists_eq_left]
    case isFalse htype => exact ⟨fun h => absurd h List.not_mem_nil, fun h => absurd h.1 htype⟩

/-- The jobs of other types whose outputs a type reads. -/
theorem exists_itemReads_iff : (∃ entry ∈ HandlerStep.itemReads type (context registry outputs),
      entry.2.job = need)
    ↔ ∃ item ∈ type.awaited, outputs.Emits registry item ∧ item.name = need := by
  constructor
  · rintro ⟨entry, hentry, rfl⟩
    rcases mem_itemReads_iff.mp hentry with ⟨rfl, item, hitem, hemits, rfl⟩ | ⟨hids, hemits, rfl⟩
    · have hawaited : ∀ item ∈ HandlerStep.createdItems,
          item.1 ∈ OutputType.addComment.awaited := by
        decide
      exact ⟨item.1, hawaited item hitem, hemits, rfl⟩
    · have hawaited : OutputType.createIssue ∈ type.awaited := by
        revert hids
        cases type <;> decide
      exact ⟨.createIssue, hawaited, hemits, rfl⟩
  · rintro ⟨item, hitem, hemits, rfl⟩
    cases type with
    | addComment =>
      have hcreated : ∀ item ∈ OutputType.addComment.awaited,
          ∃ created ∈ HandlerStep.createdItems, created.1 = item := by
        decide
      obtain ⟨created, hcreated, rfl⟩ := hcreated item hitem
      exact ⟨_, mem_itemReads_iff.mpr (.inl ⟨rfl, created, hcreated, hemits, rfl⟩), rfl⟩
    | createDiscussion =>
      obtain rfl := List.mem_singleton.mp hitem
      exact ⟨_, mem_itemReads_iff.mpr (.inr ⟨rfl, hemits, rfl⟩), rfl⟩
    | createIssue | createPullRequest | createPrReviewComment | createCodeScanningAlert | addLabels
    | pushToPullRequestBranch | createAgentTask | missingTool | noop => cases hitem

/-- The jobs for outputs wait for the agent, and for detection where it is active. -/
theorem mem_outputNeeds_iff : need ∈ CustomJob.outputNeeds active
    ↔ need = BuiltinJob.agent.name ∨ active = true ∧ need = BuiltinJob.detection.name := by
  rw [CustomJob.outputNeeds, List.mem_cons]
  cases active <;> simp

/-- Where the reaction was commented is read only by a type that pushes code, from activation. -/
theorem eq_of_commentReads {entry : String × OutputRef}
    (h : entry ∈ HandlerStep.commentReads type w) :
    type.pushesCode = true ∧ entry.2.job = BuiltinJob.activation.name := by
  rw [HandlerStep.commentReads] at h
  split at h
  case isTrue htype =>
    rcases List.mem_pair.mp h with rfl | rfl <;> exact ⟨by rw [htype.1]; rfl, rfl⟩
  case isFalse => cases h

/-- The jobs whose outputs a step reads, and activation where it pushes code. -/
theorem mem_needsOf_iff : need ∈ HandlerStep.needsOf type w (context registry outputs)
    ↔ (∃ item ∈ type.awaited, outputs.Emits registry item ∧ item.name = need)
      ∨ type.pushesCode = true ∧ need = BuiltinJob.activation.name := by
  have hpushes : need ∈ (if type.pushesCode then [BuiltinJob.activation.name] else [])
      ↔ type.pushesCode = true ∧ need = BuiltinJob.activation.name := by
    cases type.pushesCode <;> simp
  rw [HandlerStep.needsOf, Table.mem_distinct, List.mem_append, HandlerStep.reads,
    List.map_append, List.mem_append, List.mem_map, List.mem_map, hpushes, exists_itemReads_iff,
    or_assoc]
  refine or_congr_right (or_iff_right_of_imp ?_)
  rintro ⟨entry, hentry, rfl⟩
  exact eq_of_commentReads hentry

/-- The job that resolves temporary identifiers is one whose outputs are read. -/
theorem exists_awaited_of_idsResolver (h : need ∈ idsResolver type (context registry outputs)) :
    ∃ item ∈ type.awaited, outputs.Emits registry item ∧ item.name = need := by
  rw [idsResolver] at h
  split at h
  case isTrue hids =>
    obtain ⟨ref, href, rfl⟩ := Option.map_eq_some_iff.mp (Option.mem_toList.mp h)
    obtain ⟨hemits, rfl⟩ := temporaryIds_context_iff.mp (Option.filter_eq_some_iff.mp href).1
    exact exists_itemReads_iff.mp ⟨_, mem_itemReads_iff.mpr (.inr ⟨hids, hemits, rfl⟩), rfl⟩
  case isFalse => cases h

/-- The job of a type waits for the agent, for detection where it is active, for activation where it
pushes code, and for the jobs whose outputs it reads. -/
theorem mem_needs_handlerJobOf :
    need ∈ (w.handlerJobOf type settings (context registry outputs) runsOn options).needs
      ↔ need = BuiltinJob.agent.name
        ∨ outputs.detectionActive = true ∧ need = BuiltinJob.detection.name
        ∨ type.pushesCode = true ∧ need = BuiltinJob.activation.name
        ∨ ∃ item ∈ type.awaited, outputs.Emits registry item ∧ item.name = need := by
  have hneeds : need ∈ ((HandlerStep.ofSettings type settings w (context registry outputs)).toJob
      type outputs runsOn options outputs.detectionActive).needs
      ↔ need ∈ CustomJob.outputNeeds outputs.detectionActive
        ∨ need ∈ HandlerStep.needsOf type w (context registry outputs) := by
    rw [HandlerStep.toJob, Job.mem_needs_addNeeds, List.mem_append]
    exact or_iff_right List.not_mem_nil
  show need ∈ (((HandlerStep.ofSettings type settings w (context registry outputs)).toJob type
    outputs runsOn options outputs.detectionActive).addNeeds _).needs ↔ _
  rw [Job.mem_needs_addNeeds, hneeds, mem_outputNeeds_iff, mem_needsOf_iff]
  constructor
  · rintro (((hagent | hdetection) | (hitem | hpushes)) | hids)
    · exact .inl hagent
    · exact .inr (.inl hdetection)
    · exact .inr (.inr (.inr hitem))
    · exact .inr (.inr (.inl hpushes))
    · exact .inr (.inr (.inr (exists_awaited_of_idsResolver hids)))
  · rintro (hagent | hdetection | hpushes | hitem)
    · exact .inl (.inl (.inl hagent))
    · exact .inl (.inl (.inr hdetection))
    · exact .inl (.inr (.inr hpushes))
    · exact .inl (.inr (.inl hitem))

end Workflow

/-! ## The needs of declared jobs -/

namespace CustomJob

theorem mem_needs_toJob : need ∈ (config.toJob name runsOn).needs ↔ need ∈ config.needs := by
  rw [toJob, Job.mem_needs_addNeeds]
  exact or_iff_right List.not_mem_nil

/-- A job of the workflow waits for the agent unless it asks to run before activation. -/
theorem mem_needs_besideAgent : need ∈ (config.besideAgent name runsOn).needs
    ↔ need ∈ config.needs
      ∨ BuiltinJob.preActivation.name ∉ config.needs ∧ need = BuiltinJob.agent.name := by
  rw [besideAgent]
  split
  case isTrue hearly =>
    rw [List.contains_iff_mem, mem_needs_toJob] at hearly
    rw [mem_needs_toJob, or_iff_left fun h => h.1 hearly]
  case isFalse hlate =>
    rw [List.contains_iff_mem, mem_needs_toJob] at hlate
    rw [Job.mem_needs_addNeed, mem_needs_toJob, and_iff_right hlate]

/-- A job for an output waits for the agent, and for detection where it is active. -/
theorem mem_needs_forOutput : need ∈ (config.forOutput name runsOn outputs options active).needs
    ↔ need ∈ config.needs ∨ need = BuiltinJob.agent.name
      ∨ active = true ∧ need = BuiltinJob.detection.name := by
  show need ∈ ((config.toJob name runsOn).addNeeds (outputNeeds active)).needs ↔ _
  rw [Job.mem_needs_addNeeds, mem_needs_toJob, Workflow.mem_outputNeeds_iff]

theorem nodup_needs_toJob : (config.toJob name runsOn).needs.Nodup := by
  rw [toJob]
  exact Job.nodup_addNeeds List.nodup_nil

end CustomJob

namespace Workflow

/-! ## Declared names -/

theorem mem_declaredNames_iff : name ∈ w.declaredNames
    ↔ (∃ config, w.jobs.get? name = some config)
      ∨ ∃ outputs, w.safeOutputs = some outputs
        ∧ ∃ config, outputs.jobs.get? name = some config := by
  rw [declaredNames, Table.mem_distinct, declaredJobs, List.map_append, List.mem_append]
  simp only [List.mem_map, Prod.exists, exists_and_right, exists_eq_right, List.mem_flatMap,
    Option.mem_toList, ← Table.get?_eq_some_iff]
  refine or_congr_right ⟨?_, ?_⟩
  · rintro ⟨config, outputs, houtputs, hconfig⟩
    exact ⟨outputs, houtputs, config, hconfig⟩
  · rintro ⟨outputs, houtputs, config, hconfig⟩
    exact ⟨config, outputs, houtputs, hconfig⟩

/-- No declared job of an accepted workflow has the name of a built-in job. -/
theorem reserves_of_mem_declaredNames (h : w.compile registry engine options = .ok compiled)
    (hname : name ∈ w.declaredNames) : BuiltinJob.reserves name = false := by
  obtain ⟨-, -, hchecked, -⟩ := compile_eq_ok_iff.mp h
  rw [declaredNames, Table.mem_distinct] at hname
  obtain ⟨entry, hentry, rfl⟩ := List.mem_map.mp hname
  rw [checkDeclared] at hchecked
  split at hchecked
  case h_1 => cases hchecked
  case h_2 hnone =>
    have hfault := List.findSome?_eq_none_iff.mp hnone entry hentry
    cases hreserved : BuiltinJob.reserves entry.1 with
    | false => rfl
    | true =>
      rw [declaredFault?, if_pos hreserved] at hfault
      cases hfault

/-- The name of an output type that gets a job is not declared. -/
theorem not_mem_declaredNames_of_emits (h : w.compile registry engine options = .ok compiled)
    (houtputs : w.safeOutputs = some outputs) (hemits : outputs.Emits registry type) :
    type.name ∉ w.declaredNames := by
  have hdistinct := nodup_plannedNames h
  rw [plannedNames, houtputs, Option.toList_some, List.flatMap_singleton, outcomeNames] at hdistinct
  have hmem : type.name ∈ (registry.types.filter outputs.isEnabled).map OutputType.name :=
    List.mem_map_of_mem (List.mem_filter.mpr hemits)
  rw [mem_declaredNames_iff]
  rintro (hconfig | ⟨other, hother, hconfig⟩)
  · -- Jobs of the workflow come before those of output types.
    refine List.disjoint_of_nodup_append hdistinct
      (List.mem_append_right _ (Table.mem_keys_iff.mpr hconfig)) ?_
    exact List.mem_append_left _ (List.mem_append_left _ (List.mem_append_right _ hmem))
  · -- Jobs for outputs come behind them.
    cases houtputs.symm.trans hother
    have hafter := (List.nodup_append.mp (List.nodup_append.mp hdistinct).2.1).1
    exact List.disjoint_of_nodup_append hafter (List.mem_append_right _ hmem)
      (Table.mem_keys_iff.mpr hconfig)

/-! ## Jobs in the graph -/

/-- A job refers to a declared job, other than itself, in its condition, its environment, its
outputs or its steps. -/
def RefersTo (w : Workflow) (job : Job) (need : String) : Prop :=
  need ∈ w.declaredNames ∧ need ≠ job.name
    ∧ ∃ text ∈ job.texts, need.toList ∈ Reference.names text.toList

/-- Wiring adds the jobs that a job refers to, unless it is built in. -/
theorem mem_needs_wired : need ∈ (job.wired w.declaredNames).needs
    ↔ need ∈ job.needs ∨ BuiltinJob.reserves job.name = false ∧ w.RefersTo job need := by
  show need ∈ (if BuiltinJob.reserves job.name then job.needs
    else (job.addNeeds (Reference.jobs job.texts w.declaredNames job.name)).needs) ↔ _
  split
  case isTrue hreserved =>
    rw [hreserved]
    exact (or_iff_left fun h => nomatch h.1).symm
  case isFalse hfree =>
    rw [Bool.not_eq_true] at hfree
    rw [Job.mem_needs_addNeeds, Reference.mem_jobs_iff, hfree, and_iff_right rfl, RefersTo]

/-- A planned job is found in the graph under its name. -/
theorem get?_of_planned (h : w.compile registry engine options = .ok compiled)
    (hjob : Planned w registry engine options job) :
    compiled.graph.get? job.name = some (job.wired w.declaredNames) :=
  JobGraph.get?_eq_some_iff.mpr ⟨(mem_jobs_of_compile_iff h).mpr ⟨job, hjob, rfl⟩, rfl⟩

/-- A job of the graph that has the name of a planned one is that one. -/
theorem eq_wired_of_planned (h : w.compile registry engine options = .ok compiled)
    {planned : Job} (hplanned : Planned w registry engine options planned)
    (hjob : job ∈ compiled.graph.jobs) (hname : job.name = planned.name) :
    job = planned.wired w.declaredNames := by
  obtain ⟨hmem, hwired⟩ := JobGraph.get?_eq_some_iff.mp (get?_of_planned h hplanned)
  exact JobGraph.eq_of_name_eq hjob hmem (hname.trans hwired.symm)

/-- The needs of a planned job that is not built in. -/
theorem exists_get?_of_planned (h : w.compile registry engine options = .ok compiled)
    (hjob : Planned w registry engine options job) (hfree : BuiltinJob.reserves job.name = false) :
    ∃ found, compiled.graph.get? job.name = some found
      ∧ ∀ need, need ∈ found.needs ↔ need ∈ job.needs ∨ w.RefersTo found need := by
  refine ⟨_, get?_of_planned h hjob, fun need => ?_⟩
  rw [mem_needs_wired, hfree, and_iff_right rfl]
  rfl

/-- Every job of a graph is a planned one of its name. -/
theorem exists_planned_of_mem_names (h : w.compile registry engine options = .ok compiled)
    (hname : name ∈ compiled.graph.names) :
    ∃ job, Planned w registry engine options job ∧ job.name = name := by
  obtain ⟨job, hjob, rfl⟩ := JobGraph.mem_names_iff.mp hname
  obtain ⟨planned, hplanned, rfl⟩ := (mem_jobs_of_compile_iff h).mp hjob
  exact ⟨planned, hplanned, rfl⟩

/-- A workflow has a conclusion only for outputs. -/
theorem exists_outputs_of_conclusion (h : w.compile registry engine options = .ok compiled)
    (hjob : job ∈ compiled.graph.jobs) (hname : job.name = "conclusion") :
    ∃ outputs, w.safeOutputs = some outputs := by
  obtain ⟨planned, hplanned, rfl⟩ := (mem_jobs_of_compile_iff h).mp hjob
  cases hplanned with
  | preActivation => exact absurd (show "pre_activation" = "conclusion" from hname) (by decide)
  | activation => exact absurd (show "activation" = "conclusion" from hname) (by decide)
  | agent => exact absurd (show "agent" = "conclusion" from hname) (by decide)
  | @beside name config hconfig =>
    have hfree := reserves_of_mem_declaredNames h (mem_declaredNames_iff.mpr (.inl ⟨_, hconfig⟩))
    rw [Job.name_wired, name_besideAgent] at hname
    rw [hname] at hfree
    exact absurd hfree (by decide)
  | detection houtputs | handler houtputs | ownOutput houtputs | conclusion houtputs =>
    exact ⟨_, houtputs⟩

/-! ## No need twice -/

/-- A job of the workflow's own that asks to run before activation. -/
def IsEarly (w : Workflow) (name : String) : Prop :=
  ∃ config, w.jobs.get? name = some config ∧ "pre_activation" ∈ config.needs

theorem mem_earlyJobs_iff : name ∈ w.earlyJobs ↔ w.IsEarly name := by
  rw [earlyJobs, List.mem_map]
  simp only [List.mem_filter, List.contains_iff_mem, Prod.exists, exists_and_right, exists_eq_right,
    ← Table.get?_eq_some_iff]
  rfl

theorem nodup_needs_activationJob (h : w.compile registry engine options = .ok compiled) :
    (w.activationJob runsOn).needs.Nodup := by
  have hearly : w.earlyJobs.Nodup :=
    w.jobs.nodup_keys.sublist (List.filter_sublist.map _)
  show ((if w.hasPreActivation then [BuiltinJob.preActivation.name] else []) ++ w.earlyJobs).Nodup
  split
  case isFalse => exact hearly
  case isTrue =>
    refine List.nodup_cons.mpr ⟨fun hmem => ?_, hearly⟩
    obtain ⟨config, hconfig, -⟩ := mem_earlyJobs_iff.mp hmem
    have hfree := reserves_of_mem_declaredNames h (mem_declaredNames_iff.mpr (.inl ⟨_, hconfig⟩))
    exact absurd hfree (by decide)

theorem nodup_needs_conclusionJob (h : w.compile registry engine options = .ok compiled)
    (houtputs : w.safeOutputs = some outputs) :
    (w.conclusionJob runsOn (registry.types.filter outputs.isEnabled)
      outputs.jobs.keys).needs.Nodup := by
  have hdeclared : ∀ {name}, name ∈ outputs.jobs.keys → name ∈ w.declaredNames := fun hname =>
    mem_declaredNames_iff.mpr (.inr ⟨outputs, houtputs, Table.mem_keys_iff.mp hname⟩)
  have htypes : ((registry.types.filter outputs.isEnabled).map OutputType.name).Nodup :=
    (registry.distinct.filter _).map OutputType.name_injective
  have hjobs : ((registry.types.filter outputs.isEnabled).map OutputType.name
      ++ outputs.jobs.keys).Nodup := by
    refine List.nodup_append.mpr ⟨htypes, outputs.jobs.nodup_keys, ?_⟩
    rintro _ hname _ hkey rfl
    obtain ⟨type, htype, rfl⟩ := List.mem_map.mp hname
    exact not_mem_declaredNames_of_emits h houtputs (List.mem_filter.mp htype) (hdeclared hkey)
  -- The two built-in jobs have names that no other job has.
  have hreserved : ∀ name ∈ (registry.types.filter outputs.isEnabled).map OutputType.name
      ++ outputs.jobs.keys, BuiltinJob.reserves name = false := by
    intro name hname
    rcases List.mem_append.mp hname with hname | hname
    · obtain ⟨type, -, rfl⟩ := List.mem_map.mp hname
      exact type.reserves_name
    · exact reserves_of_mem_declaredNames h (hdeclared hname)
  refine List.nodup_cons.mpr ⟨fun hmem => ?_, List.nodup_cons.mpr ⟨fun hmem => ?_, hjobs⟩⟩
  · rcases List.mem_cons.mp hmem with heq | hmem
    · exact absurd heq (by decide)
    · exact absurd (hreserved _ hmem) (by decide)
  · exact absurd (hreserved _ hmem) (by decide)

/-- No planned job lists a need twice. -/
theorem nodup_needs_of_planned (h : w.compile registry engine options = .ok compiled)
    (hjob : Planned w registry engine options job) : job.needs.Nodup := by
  cases hjob with
  | preActivation => exact List.nodup_nil
  | activation => exact nodup_needs_activationJob h
  | agent => exact List.nodup_singleton _
  | beside hconfig =>
    rw [CustomJob.besideAgent]
    split
    · exact CustomJob.nodup_needs_toJob
    · exact Job.nodup_addNeed CustomJob.nodup_needs_toJob
  | detection => exact List.nodup_singleton _
  | handler =>
    rw [handlerJobOf, HandlerStep.toJob]
    exact Job.nodup_addNeeds (Job.nodup_addNeeds List.nodup_nil)
  | ownOutput => exact Job.nodup_addNeeds CustomJob.nodup_needs_toJob
  | conclusion houtputs => exact nodup_needs_conclusionJob h houtputs

theorem nodup_needs_wired (h : job.needs.Nodup) : (job.wired w.declaredNames).needs.Nodup := by
  show (if BuiltinJob.reserves job.name then job.needs else _).Nodup
  split
  · exact h
  · exact Job.nodup_addNeeds h

/-! ## The edges -/

/-- What a job of the workflow's own needs in the graph. -/
theorem exists_get?_of_jobs (h : w.compile registry engine options = .ok compiled)
    (hconfig : w.jobs.get? name = some config) :
    ∃ found, compiled.graph.get? name = some found ∧ ∀ need, need ∈ found.needs ↔
      (need ∈ config.needs ∨ "pre_activation" ∉ config.needs ∧ need = "agent")
      ∨ w.RefersTo found need := by
  have hfree := reserves_of_mem_declaredNames h (mem_declaredNames_iff.mpr (.inl ⟨_, hconfig⟩))
  obtain ⟨found, hget, hneeds⟩ :=
    exists_get?_of_planned h (.beside hconfig) (by rwa [name_besideAgent])
  rw [name_besideAgent] at hget
  simp only [CustomJob.mem_needs_besideAgent] at hneeds
  exact ⟨found, hget, hneeds⟩

/-- What a job for an output of the workflow's own needs in the graph. -/
theorem exists_get?_of_outputJobs (h : w.compile registry engine options = .ok compiled)
    (houtputs : w.safeOutputs = some outputs) (hconfig : outputs.jobs.get? name = some config) :
    ∃ found, compiled.graph.get? name = some found ∧ ∀ need, need ∈ found.needs ↔
      (need ∈ config.needs ∨ need = "agent"
        ∨ outputs.detectionActive = true ∧ need = "detection")
      ∨ w.RefersTo found need := by
  have hfree := reserves_of_mem_declaredNames h
    (mem_declaredNames_iff.mpr (.inr ⟨outputs, houtputs, _, hconfig⟩))
  obtain ⟨found, hget, hneeds⟩ :=
    exists_get?_of_planned h (.ownOutput houtputs hconfig) (by rwa [name_forOutput])
  rw [name_forOutput] at hget
  simp only [CustomJob.mem_needs_forOutput] at hneeds
  exact ⟨found, hget, hneeds⟩

/-- What the job of an output type needs in the graph. -/
theorem exists_get?_of_emits (h : w.compile registry engine options = .ok compiled)
    (houtputs : w.safeOutputs = some outputs) (hemits : outputs.Emits registry type) :
    ∃ found, compiled.graph.get? type.name = some found ∧ ∀ need, need ∈ found.needs ↔
      (need = "agent"
        ∨ outputs.detectionActive = true ∧ need = "detection"
        ∨ type.pushesCode = true ∧ need = "activation"
        ∨ ∃ item ∈ type.awaited, outputs.Emits registry item ∧ item.name = need)
      ∨ w.RefersTo found need := by
  obtain ⟨settings, hset⟩ := Option.isSome_iff_exists.mp hemits.2
  obtain ⟨found, hget, hneeds⟩ := exists_get?_of_planned h (.handler houtputs hemits.1 hset)
    (by rw [name_handlerJobOf, type.reserves_name])
  rw [name_handlerJobOf] at hget
  simp only [mem_needs_handlerJobOf] at hneeds
  exact ⟨found, hget, hneeds⟩

/-- Jobs of output types need each other only as their types are awaited. -/
theorem needs_name_iff (h : w.compile registry engine options = .ok compiled)
    (houtputs : w.safeOutputs = some outputs) {other : OutputType}
    (hemits : outputs.Emits registry type) (hother : outputs.Emits registry other) :
    compiled.graph.Needs type.name other.name ↔ other ∈ type.awaited := by
  obtain ⟨found, hget, hneeds⟩ := exists_get?_of_emits h houtputs hemits
  rw [JobGraph.needs_iff_of_get? hget, hneeds]
  constructor
  · rintro ((heq | ⟨-, heq⟩ | ⟨-, heq⟩ | ⟨item, hitem, -, heq⟩) | hrefers)
    · exact absurd heq (other.name_ne_builtin .agent)
    · exact absurd heq (other.name_ne_builtin .detection)
    · exact absurd heq (other.name_ne_builtin .activation)
    · rwa [← OutputType.name_injective heq]
    · exact absurd hrefers.1 (not_mem_declaredNames_of_emits h houtputs hother)
  · exact fun hawaited => .inl (.inr (.inr (.inr ⟨other, hawaited, hother, rfl⟩)))

/-- A job that is not built in is declared or is that of an output type. -/
theorem kind_of_mem_jobs (h : w.compile registry engine options = .ok compiled)
    (hjob : job ∈ compiled.graph.jobs) (hfree : BuiltinJob.reserves job.name = false) :
    (∃ config, w.jobs.get? job.name = some config)
      ∨ ∃ outputs, w.safeOutputs = some outputs
        ∧ ((∃ config, outputs.jobs.get? job.name = some config)
          ∨ ∃ type, outputs.Emits registry type ∧ type.name = job.name) := by
  obtain ⟨planned, hplanned, rfl⟩ := (mem_jobs_of_compile_iff h).mp hjob
  rw [Job.name_wired] at hfree ⊢
  cases hplanned with
  | preActivation | activation | agent | detection | conclusion => cases hfree
  | beside hconfig => exact .inl ⟨_, by rwa [name_besideAgent]⟩
  | handler houtputs htype hset =>
    refine .inr ⟨_, houtputs, .inr ⟨_, ⟨htype, ?_⟩, name_handlerJobOf.symm⟩⟩
    exact Option.isSome_iff_exists.mpr ⟨_, hset⟩
  | ownOutput houtputs hconfig =>
    exact .inr ⟨_, houtputs, .inl ⟨_, by rwa [name_forOutput]⟩⟩

/-- **The edges of an accepted workflow.** No job lists a need twice. A job of the workflow's own
needs what it declares, and the agent unless it asks to run before activation. A job for an output
of the workflow's own needs what it declares, the agent, and detection where it is active. The job
of an output type needs the agent, detection where it is active, activation where it is about pull
requests that are pushed, and those of its awaited types that get a job. Each of them also needs the
other declared jobs that its texts refer to. Nothing else is needed, so that jobs of output types
need each other only as their types are awaited; and a job that is none of these is built in. -/
theorem compile_needs_exact (h : w.compile registry engine options = .ok compiled) :
    (∀ job ∈ compiled.graph.jobs, job.needs.Nodup)
    ∧ (∀ name config, w.jobs.get? name = some config →
      ∃ job, compiled.graph.get? name = some job ∧ ∀ need, need ∈ job.needs ↔
        (need ∈ config.needs ∨ "pre_activation" ∉ config.needs ∧ need = "agent")
        ∨ w.RefersTo job need)
    ∧ (∀ outputs, w.safeOutputs = some outputs →
      (∀ name config, outputs.jobs.get? name = some config →
        ∃ job, compiled.graph.get? name = some job ∧ ∀ need, need ∈ job.needs ↔
          (need ∈ config.needs ∨ need = "agent"
            ∨ outputs.detectionActive = true ∧ need = "detection")
          ∨ w.RefersTo job need)
      ∧ ∀ type, outputs.Emits registry type →
        (∃ job, compiled.graph.get? type.name = some job ∧ ∀ need, need ∈ job.needs ↔
          (need = "agent"
            ∨ outputs.detectionActive = true ∧ need = "detection"
            ∨ (type = .createPullRequest ∨ type = .pushToPullRequestBranch) ∧ need = "activation"
            ∨ ∃ item ∈ type.awaited, outputs.Emits registry item ∧ item.name = need)
          ∨ w.RefersTo job need)
        ∧ ∀ other, outputs.Emits registry other →
          (compiled.graph.Needs type.name other.name ↔ other ∈ type.awaited))
    ∧ ∀ job ∈ compiled.graph.jobs, BuiltinJob.reserves job.name = false →
      (∃ config, w.jobs.get? job.name = some config)
      ∨ ∃ outputs, w.safeOutputs = some outputs
        ∧ ((∃ config, outputs.jobs.get? job.name = some config)
          ∨ ∃ type, outputs.Emits registry type ∧ type.name = job.name) := by
  refine ⟨fun job hjob => ?_, fun name config => exists_get?_of_jobs h, fun outputs houtputs =>
    ⟨fun name config => exists_get?_of_outputJobs h houtputs, fun type hemits =>
      ⟨?_, fun other => needs_name_iff h houtputs hemits⟩⟩, fun job => kind_of_mem_jobs h⟩
  · obtain ⟨planned, hplanned, rfl⟩ := (mem_jobs_of_compile_iff h).mp hjob
    exact nodup_needs_wired (nodup_needs_of_planned h hplanned)
  · have hpushes : type.pushesCode = true
        ↔ type = .createPullRequest ∨ type = .pushToPullRequestBranch := by
      rw [OutputType.pushesCode, Bool.or_eq_true, decide_eq_true_eq, decide_eq_true_eq]
    simpa only [hpushes] using exists_get?_of_emits h houtputs hemits

/-- A job that runs before activation. -/
def lint : CustomJob :=
  { needs := ["pre_activation"], steps := [Step.ofScript "Lint" "./lint.sh"] }

/-- A workflow with that job whose agent may ask for issues, pull requests and comments. -/
def release : Workflow where
  name := "Release"
  reaction := some "eyes"
  jobs := Table.ofList [("lint", lint)]
  safeOutputs := some
    { types := fun type =>
        if type = .createIssue ∨ type = .createPullRequest ∨ type = .addComment then .enabled {}
        else .absent }

/-- Its jobs, each after what it may need. -/
def releaseOrder : List String :=
  ["pre_activation", "lint", "activation", "agent", "detection", "create_issue",
    "create_pull_request", "add_comment", "conclusion"]

theorem exists_compile_release :
    ∃ compiled, release.compile .default ⟨Engine.defaultCommand⟩ {} = .ok compiled := by
  have hfits : release.fitsOrder .default ⟨Engine.defaultCommand⟩ {} releaseOrder = true := by
    decide +kernel
  exact exists_compile_of_fitsOrder hfits

theorem release_needs_exact :
    ∃ compiled, release.compile .default ⟨Engine.defaultCommand⟩ {} = .ok compiled
      ∧ compiled.graph.Needs "add_comment" "create_issue"
      ∧ ¬ compiled.graph.Needs "create_issue" "add_comment"
      ∧ ∃ job, compiled.graph.get? "lint" = some job ∧ "agent" ∉ job.needs := by
  obtain ⟨compiled, hcompiled⟩ := exists_compile_release
  obtain ⟨-, hjobs, houtputs, -⟩ := compile_needs_exact hcompiled
  obtain ⟨-, htypes⟩ := houtputs _ rfl
  have hissue := htypes .createIssue ⟨by decide, rfl⟩
  have hcomment := htypes .addComment ⟨by decide, rfl⟩
  obtain ⟨job, hget, hneeds⟩ := hjobs "lint" lint rfl
  refine ⟨compiled, hcompiled, (hcomment.2 .createIssue ⟨by decide, rfl⟩).mpr (by decide),
    fun hneeds => ?_, job, hget, fun hagent => ?_⟩
  · exact absurd ((hissue.2 .addComment ⟨by decide, rfl⟩).mp hneeds) (by decide)
  · rcases (hneeds "agent").mp hagent with (hdeclared | ⟨hlate, -⟩) | ⟨hdeclared, -⟩
    · exact absurd hdeclared (by decide)
    · exact absurd hlate (by decide)
    · exact absurd hdeclared (by decide +kernel)

end Workflow

end AgentGate
