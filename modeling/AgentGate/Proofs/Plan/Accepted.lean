import AgentGate.Proofs.Handler
import AgentGate.Proofs.Plan.Needs

/-!
# When a workflow without jobs of its own is accepted

A workflow that declares no jobs leaves nothing to chance: all jobs are built in or those of output
types, their names are distinct, and each needs only jobs that are there and come before it in one
fixed order. So its graph is valid whatever is turned on and however the registry is ordered, and
what remains to reject it is its name, the permissions of the agent, or the settings of a type.

- `Workflow.DeclaresNone`: no jobs, neither beside the agent nor for outputs.
- `Workflow.needs_of_planned_of_declaresNone`: each planned job needs planned jobs before it.
- `Workflow.exists_graph_of_declaresNone`: the planned jobs form a valid graph.
- `Workflow.configuration_of_candidate`: a faulty candidate has settings that are out of order.
- `Workflow.compile_accepts_iff`: when such a workflow is accepted, and why it is rejected.
-/

namespace AgentGate

theorem Permissions.isEmpty_iff {p : Permissions} : p.isEmpty = true ↔ p = ∅ := by
  rw [isEmpty, List.all_eq_true]
  constructor
  · intro h
    exact Permissions.ext (funext fun scope => Option.isNone_iff_eq_none.mp (h scope scope.mem_all))
  · rintro rfl scope -
    rfl

namespace Workflow

variable {w : Workflow} {registry : Registry} {engine : Engine} {options : CompileOptions}
  {compiled : Compiled} {outputs : SafeOutputs} {job : Job} {type : OutputType} {strict : Bool}
  {error : CompileError}

/-- A workflow that declares no jobs, neither beside the agent nor for outputs. -/
structure DeclaresNone (w : Workflow) : Prop where
  jobs : w.jobs = ∅
  outputJobs : ∀ outputs, w.safeOutputs = some outputs → outputs.jobs = ∅

/-! ## The checks before any job is made -/

theorem checkName_eq_ok_iff : w.checkName = .ok () ↔ Text.trim w.name ≠ "" := by
  rw [checkName]
  split
  case isTrue hblank => exact ⟨fun h => (nomatch h), fun h => absurd hblank h⟩
  case isFalse hname => exact ⟨fun _ => hname, fun _ => rfl⟩

theorem configuration_of_checkName (h : w.checkName = .error error) :
    error.kind = .configuration := by
  rw [checkName] at h
  split at h
  · cases h
    rfl
  · cases h

/-- The permissions of an agent without the tool are not looked at; those of one with it hold all
that its toolsets need and, when strict, nothing else. -/
theorem exists_checkPermissions_iff : (∃ warnings, w.checkPermissions strict = .ok warnings)
    ↔ ∀ tool, w.githubTool = some tool →
      (w.permissions.audit tool.toolsets tool.readOnly).missing = ∅
      ∧ (strict = true → (w.permissions.audit tool.toolsets tool.readOnly).excess = ∅) := by
  rw [checkPermissions, audit?]
  cases w.githubTool with
  | none => exact ⟨fun _ _ h => (nomatch h), fun _ => ⟨[], rfl⟩⟩
  | some tool =>
    have hrejects : ∀ audit : Audit, audit.rejects strict = false
        ↔ audit.missing = ∅ ∧ (strict = true → audit.excess = ∅) := by
      intro audit
      rw [Audit.rejects, Bool.or_eq_false_iff, Bool.not_eq_false', Permissions.isEmpty_iff]
      refine and_congr_right fun _ => ?_
      cases strict with
      | false => exact ⟨fun _ h => (nomatch h), fun _ => rfl⟩
      | true =>
        rw [Bool.true_and, Bool.not_eq_false', Permissions.isEmpty_iff]
        exact ⟨fun h _ => h, fun h => h rfl⟩
    rw [Option.map_some]
    simp only [Option.some.injEq, forall_eq', ← hrejects]
    cases (w.permissions.audit tool.toolsets tool.readOnly).rejects strict with
    | true => exact ⟨fun ⟨_, h⟩ => (nomatch h), fun h => (nomatch h)⟩
    | false => exact ⟨fun _ => rfl, fun _ => ⟨_, rfl⟩⟩

theorem permission_of_checkPermissions (h : w.checkPermissions strict = .error error) :
    error.kind = .permission := by
  rw [checkPermissions] at h
  split at h
  · cases h
  · split at h
    · cases h
      rfl
    · cases h

/-- What the check says of an audit, which there is for an agent with the tool. -/
theorem checkPermissions_of_audit {audit : Audit} (h : w.audit? = some audit) (strict : Bool) :
    w.checkPermissions strict = if audit.rejects strict then .error (.permission audit strict)
      else .ok (if audit.excess.isEmpty then [] else [audit.message false]) := by
  rw [checkPermissions, h]

namespace DeclaresNone

theorem declaredJobs_eq (h : w.DeclaresNone) : w.declaredJobs = [] := by
  rw [declaredJobs, h.jobs]
  cases houtputs : w.safeOutputs with
  | none => rfl
  | some outputs =>
    rw [Option.toList_some, List.flatMap_singleton, h.outputJobs outputs houtputs]
    rfl

theorem declaredNames_eq (h : w.DeclaresNone) : w.declaredNames = [] := by
  rw [declaredNames, h.declaredJobs_eq]
  rfl

theorem checkDeclared_eq (h : w.DeclaresNone) : w.checkDeclared = .ok () := by
  rw [checkDeclared, h.declaredJobs_eq]
  rfl

end DeclaresNone

/-! ## The order of built-in jobs and jobs of output types -/

/-- An order in which each job comes after what it needs. Comments come last among the output types,
since they may link to all that was created. -/
def stages : List String :=
  [BuiltinJob.preActivation, .activation, .agent, .detection].map BuiltinJob.name
    ++ (OutputType.all.erase .addComment).map OutputType.name
    ++ [OutputType.addComment.name, BuiltinJob.conclusion.name]

/-- The place of a job in that order. -/
def stage (name : String) : Nat :=
  stages.idxOf name

theorem stage_lt_of_awaited {item : OutputType} (h : item ∈ type.awaited) :
    stage item.name < stage type.name := by
  revert h
  cases type <;> cases item <;> decide

/-- Built-in jobs stand in the order in which they are listed. -/
theorem stage_builtin_lt (first second : BuiltinJob)
    (h : BuiltinJob.all.idxOf first < BuiltinJob.all.idxOf second) :
    stage first.name < stage second.name := by
  revert h
  cases first <;> cases second <;> decide

theorem stage_builtin_lt_name (type : OutputType) : ∀ builtin : BuiltinJob,
    builtin ≠ .conclusion → stage builtin.name < stage type.name := by
  intro builtin
  cases builtin <;> cases type <;> decide

theorem stage_name_lt_conclusion (type : OutputType) :
    stage type.name < stage BuiltinJob.conclusion.name := by
  cases type <;> decide

/-- Each planned job needs planned jobs that come before it. -/
theorem needs_of_planned_of_declaresNone (h : w.DeclaresNone)
    (hjob : Planned w registry engine options job) {need : String} (hneed : need ∈ job.needs) :
    (∃ other, Planned w registry engine options other ∧ other.name = need)
      ∧ stage need < stage job.name := by
  cases hjob with
  | preActivation => cases hneed
  | activation =>
    have hearly : w.earlyJobs = [] := by
      rw [earlyJobs, h.jobs]
      rfl
    change need ∈ (if w.hasPreActivation then [BuiltinJob.preActivation.name] else [])
      ++ w.earlyJobs at hneed
    rw [hearly, List.append_nil] at hneed
    split at hneed
    case isTrue hpre =>
      obtain rfl := List.mem_singleton.mp hneed
      exact ⟨⟨_, .preActivation hpre, rfl⟩, stage_builtin_lt .preActivation .activation (by decide)⟩
    case isFalse => cases hneed
  | agent =>
    obtain rfl := List.mem_singleton.mp hneed
    exact ⟨⟨_, .activation, rfl⟩, stage_builtin_lt .activation .agent (by decide)⟩
  | beside hconfig =>
    rw [h.jobs] at hconfig
    cases hconfig
  | detection =>
    obtain rfl := List.mem_singleton.mp hneed
    exact ⟨⟨_, .agent, rfl⟩, stage_builtin_lt .agent .detection (by decide)⟩
  | @handler outputs type settings houtputs htype hset =>
    rw [name_handlerJobOf]
    rcases mem_needs_handlerJobOf.mp hneed with rfl | ⟨hactive, rfl⟩ | ⟨-, rfl⟩
      | ⟨item, hawaited, ⟨hitem, henabled⟩, rfl⟩
    · exact ⟨⟨_, .agent, rfl⟩, stage_builtin_lt_name type .agent (by decide)⟩
    · exact ⟨⟨_, .detection houtputs hactive, rfl⟩,
        stage_builtin_lt_name type .detection (by decide)⟩
    · exact ⟨⟨_, .activation, rfl⟩, stage_builtin_lt_name type .activation (by decide)⟩
    · obtain ⟨given, hgiven⟩ := Option.isSome_iff_exists.mp henabled
      exact ⟨⟨_, .handler houtputs hitem hgiven, name_handlerJobOf⟩, stage_lt_of_awaited hawaited⟩
  | ownOutput houtputs hconfig =>
    rw [h.outputJobs _ houtputs] at hconfig
    cases hconfig
  | @conclusion outputs houtputs =>
    have hneeds : need ∈ BuiltinJob.agent.name :: BuiltinJob.activation.name
        :: ((registry.types.filter outputs.isEnabled).map OutputType.name ++ outputs.jobs.keys) :=
      hneed
    rw [h.outputJobs outputs houtputs] at hneeds
    rcases List.mem_cons.mp hneeds with rfl | hneeds
    · exact ⟨⟨_, .agent, rfl⟩, stage_builtin_lt .agent .conclusion (by decide)⟩
    rcases List.mem_cons.mp hneeds with rfl | hneeds
    · exact ⟨⟨_, .activation, rfl⟩, stage_builtin_lt .activation .conclusion (by decide)⟩
    rcases List.mem_append.mp hneeds with hneeds | hneeds
    · obtain ⟨type, htype, rfl⟩ := List.mem_map.mp hneeds
      obtain ⟨hmem, henabled⟩ := List.mem_filter.mp htype
      obtain ⟨settings, hset⟩ := Option.isSome_iff_exists.mp henabled
      exact ⟨⟨_, .handler houtputs hmem hset, name_handlerJobOf⟩, stage_name_lt_conclusion type⟩
    · cases hneeds

/-! ## Distinct names -/

/-- The names that planned jobs may have: each built-in job once, and each type of the registry. -/
def roster (registry : Registry) : List String :=
  [BuiltinJob.preActivation, .activation, .agent, .detection].map BuiltinJob.name
    ++ (registry.types.map OutputType.name ++ [BuiltinJob.conclusion.name])

theorem nodup_roster (registry : Registry) : (roster registry).Nodup := by
  have hfirst :
      (BuiltinJob.all.map BuiltinJob.name ++ registry.types.map OutputType.name).Nodup := by
    refine List.nodup_append.mpr
      ⟨by decide, registry.distinct.map OutputType.name_injective, ?_⟩
    rintro name hbuiltin _ hname rfl
    obtain ⟨builtin, -, rfl⟩ := List.mem_map.mp hbuiltin
    obtain ⟨type, -, heq⟩ := List.mem_map.mp hname
    exact type.name_ne_builtin builtin heq
  -- It does not matter that the conclusion comes last.
  exact (List.perm_append_comm.append_left _).nodup_iff.mpr hfirst

theorem ne_empty_of_mem_roster {name : String} (h : name ∈ roster registry) : name ≠ "" := by
  rintro rfl
  rcases List.mem_append.mp h with h | h
  · revert h
    decide
  rcases List.mem_append.mp h with h | h
  · obtain ⟨type, -, heq⟩ := List.mem_map.mp h
    revert heq
    cases type <;> decide
  · revert h
    decide

theorem plannedNames_sublist_roster (h : w.DeclaresNone) :
    (w.plannedNames registry).Sublist (roster registry) := by
  have hunless : ∀ (b : Bool) (name : String), (if b then [name] else []).Sublist [name] := by
    intro b name
    cases b
    · exact List.nil_sublist _
    · exact List.Sublist.refl _
  have hopening : ((if w.hasPreActivation then [BuiltinJob.preActivation.name] else [])
      ++ [BuiltinJob.activation.name, BuiltinJob.agent.name] ++ (∅ : Table CustomJob).keys).Sublist
      ([BuiltinJob.preActivation, .activation, .agent].map BuiltinJob.name) :=
    ((hunless _ _).append (.refl _)).append (List.nil_sublist _)
  rw [plannedNames, h.jobs]
  refine hopening.append ?_
  cases houtputs : w.safeOutputs with
  | none => exact List.nil_sublist _
  | some outputs =>
    rw [Option.toList_some, List.flatMap_singleton, outcomeNames, h.outputJobs outputs houtputs,
      List.append_assoc, List.append_assoc]
    exact (hunless _ _).append ((List.filter_sublist.map _).append (List.Sublist.refl _))

/-! ## The graph -/

/-- Where nothing is declared there is nothing to refer to. -/
theorem wired_nil (job : Job) : job.wired [] = job := by
  show { job with needs := if BuiltinJob.reserves job.name then job.needs else job.needs } = job
  rw [ite_self]

/-- The planned jobs form a graph, and it is valid once it is wired. -/
theorem exists_graph_of_declaresNone (h : w.DeclaresNone) (registry : Registry) (engine : Engine)
    (options : CompileOptions) :
    ∃ g : JobGraph, g.jobs = w.plannedJobs registry engine options
      ∧ (g.wireReferences w.declaredNames).validate = .ok () := by
  have hroster : ((w.plannedJobs registry engine options).map Job.name).Sublist
      (roster registry) := by
    rw [map_name_plannedJobs]
    exact plannedNames_sublist_roster h
  have hnamed : ∀ job ∈ w.plannedJobs registry engine options, job.name ≠ "" := fun job hjob =>
    ne_empty_of_mem_roster (hroster.subset (List.mem_map_of_mem hjob))
  refine ⟨⟨_, hnamed, (nodup_roster registry).sublist hroster⟩, rfl, ?_⟩
  -- Wired, these are still the planned jobs.
  generalize hgraph : JobGraph.wireReferences _ w.declaredNames = g
  have hjobs : g.jobs = w.plannedJobs registry engine options := by
    rw [← hgraph, h.declaredNames_eq]
    exact (List.map_congr_left fun job _ => wired_nil job).trans (List.map_id' _)
  have hneeds : ∀ job ∈ g.jobs, ∀ need ∈ job.needs,
      need ∈ g.names ∧ stage need < stage job.name := by
    intro job hjob need hneed
    rw [hjobs, mem_plannedJobs_iff] at hjob
    obtain ⟨⟨other, hother, hname⟩, hbefore⟩ := needs_of_planned_of_declaresNone h hjob hneed
    rw [← mem_plannedJobs_iff, ← hjobs] at hother
    exact ⟨JobGraph.mem_names_iff.mpr ⟨other, hother, hname⟩, hbefore⟩
  exact JobGraph.validate_eq_ok_iff.mpr
    ⟨fun job hjob need hneed => (hneeds job hjob need hneed).1,
      JobGraph.acyclic_of_rank stage fun job hjob need hneed => (hneeds job hjob need hneed).2⟩

/-! ## Faulty candidates -/

/-- A candidate that is no job is a fault in the settings of a type. -/
theorem configuration_of_candidate
    (h : .error error ∈ w.candidateJobs registry engine options) :
    error.kind = .configuration := by
  have hplain : ∀ jobs : List Job, (.error error : Except CompileError Job) ∉ jobs.map .ok := by
    intro jobs hmem
    obtain ⟨_, -, heq⟩ := List.mem_map.mp hmem
    cases heq
  obtain ⟨before, after, hcandidates, -⟩ := exists_candidateJobs_eq w registry engine options
  rw [hcandidates] at h
  rcases List.mem_append.mp h with h | h
  rcases List.mem_append.mp h with h | h
  · exact absurd h (hplain before)
  · obtain ⟨outputs, -, h⟩ := List.mem_flatMap.mp h
    rw [handlerJobs_eq] at h
    obtain ⟨type, -, hmade⟩ := List.mem_filterMap.mp h
    obtain ⟨settings, -, hchecked⟩ := Option.map_eq_some_iff.mp hmade
    rw [checkedJob] at hchecked
    split at hchecked
    · cases hchecked
      rfl
    · cases hchecked
  · exact absurd h (hplain after)

/-- Without the types whose settings are out of order, what a registry makes is planned. -/
theorem filterMap_handlerJobs :
    (w.handlerJobs registry (context registry outputs) (w.outcomeRunner outputs options)
        options).filterMap Except.toOption
      = (registry.types.filter fun type =>
          ((outputs.settings? type).bind (·.fault? type)).isNone).filterMap
        fun type => (outputs.settings? type).map fun settings => w.handlerJobOf type settings
          (context registry outputs) (w.outcomeRunner outputs options) options := by
  rw [handlerJobs_eq, List.filterMap_filterMap, List.filterMap_filter]
  refine List.filterMap_congr fun type _ => ?_
  show ((outputs.settings? type).map _).bind Except.toOption = _
  cases outputs.settings? type with
  | none => rfl
  | some settings =>
    rw [Option.bind_some, Option.map_some, Option.bind_some]
    cases hfault : settings.fault? type with
    | none => rw [checkedJob_eq_ok hfault]; rfl
    | some fault => rw [checkedJob_eq_error hfault]; rfl

/-- The jobs among the candidates are planned, perhaps without those of some types. -/
theorem filterMap_candidateJobs_sublist :
    ((w.candidateJobs registry engine options).filterMap Except.toOption).Sublist
      (w.plannedJobs registry engine options) := by
  have hplain : ∀ jobs : List Job,
      (jobs.map (.ok : Job → Except CompileError Job)).filterMap Except.toOption = jobs := by
    intro jobs
    rw [List.filterMap_map]
    exact List.filterMap_some
  obtain ⟨before, after, hcandidates, hplanned⟩ :=
    exists_candidateJobs_eq w registry engine options
  rw [hcandidates, hplanned, List.filterMap_append, List.filterMap_append, hplain, hplain]
  refine (List.Sublist.append (.refl _) ?_).append (.refl _)
  cases w.safeOutputs with
  | none => exact List.Sublist.refl _
  | some outputs =>
    rw [Option.toList_some, List.flatMap_singleton, List.flatMap_singleton, filterMap_handlerJobs]
    exact List.filter_sublist.filterMap _

/-- What can be assembled is valid once it is wired. -/
theorem validate_of_assemble (h : w.DeclaresNone) {g : JobGraph}
    (hg : JobGraph.assemble .graph (w.candidateJobs registry engine options) = .ok g) :
    (g.wireReferences w.declaredNames).validate = .ok () := by
  obtain ⟨-, hjobs⟩ := eq_plannedJobs_of_candidates (JobGraph.assemble_eq_ok_iff.mp hg)
  obtain ⟨planned, hplanned, hvalid⟩ := exists_graph_of_declaresNone h registry engine options
  rw [JobGraph.eq_of_jobs_eq (hjobs.trans hplanned.symm)]
  exact hvalid

/-- What cannot be assembled has a fault in the settings of a type. -/
theorem configuration_of_assemble (h : w.DeclaresNone)
    (herror : JobGraph.assemble .graph (w.candidateJobs registry engine options) = .error error) :
    error.kind = .configuration := by
  have hroster : (((w.candidateJobs registry engine options).filterMap Except.toOption).map
      Job.name).Sublist (roster registry) := by
    refine (filterMap_candidateJobs_sublist.map Job.name).trans ?_
    rw [map_name_plannedJobs]
    exact plannedNames_sublist_roster h
  refine configuration_of_candidate (JobGraph.mem_of_assemble_eq_error (fun job hjob => ?_)
    ((nodup_roster registry).sublist hroster) herror)
  exact ne_empty_of_mem_roster (hroster.subset (List.mem_map_of_mem hjob))

/-! ## The acceptance of a workflow -/

/-- **When a workflow without jobs of its own is accepted.** Its name is not blank, the agent, if it
has the tool, is granted what its toolsets need and, when strict, no more, and the settings of every
type that has a handler and is turned on are in order. Otherwise it is rejected for its
configuration or its permissions, and for nothing else. -/
theorem compile_accepts_iff (h : w.DeclaresNone) (registry : Registry) (engine : Engine)
    (options : CompileOptions) :
    ((∃ compiled, w.compile registry engine options = .ok compiled)
      ↔ Text.trim w.name ≠ ""
        ∧ (∀ tool, w.githubTool = some tool →
          (w.permissions.audit tool.toolsets tool.readOnly).missing = ∅
          ∧ ((w.strict || options.strict) = true →
            (w.permissions.audit tool.toolsets tool.readOnly).excess = ∅))
        ∧ ∀ outputs, w.safeOutputs = some outputs → ∀ type ∈ registry.types,
          ∀ settings, outputs.settings? type = some settings → settings.InOrder type)
    ∧ ∀ error, w.compile registry engine options = .error error →
      error.kind = .configuration ∨ error.kind = .permission := by
  refine ⟨⟨?_, ?_⟩, fun error herror => ?_⟩
  · rintro ⟨compiled, hcompiled⟩
    obtain ⟨hname, hpermissions, -⟩ := compile_eq_ok_iff.mp hcompiled
    refine ⟨checkName_eq_ok_iff.mp hname, exists_checkPermissions_iff.mp ⟨_, hpermissions⟩, ?_⟩
    intro outputs houtputs type htype settings hset
    exact OutputSettings.fault?_eq_none_iff.mp
      (settingsInOrder_of_compile hcompiled outputs houtputs type htype settings hset)
  · rintro ⟨hname, htool, hsettings⟩
    have hinOrder : w.SettingsInOrder registry := fun outputs houtputs type htype settings hset =>
      OutputSettings.fault?_eq_none_iff.mpr (hsettings outputs houtputs type htype settings hset)
    obtain ⟨warnings, hwarnings⟩ := exists_checkPermissions_iff.mpr htool
    obtain ⟨g, hg, hvalid⟩ := exists_graph_of_declaresNone h registry engine options
    refine ⟨⟨g.wireReferences w.declaredNames, warnings⟩, compile_eq_ok_iff.mpr
      ⟨checkName_eq_ok_iff.mpr hname, hwarnings, h.checkDeclared_eq, hvalid, g, ?_, rfl⟩⟩
    rw [candidateJobs_eq hinOrder, hg]
  · -- The checks come one after the other, and the first error is that of the compilation.
    rw [compile] at herror
    rcases bind_eq_error_iff.mp herror with hname | ⟨-, -, herror⟩
    · exact .inl (configuration_of_checkName hname)
    rcases bind_eq_error_iff.mp herror with hpermissions | ⟨warnings, -, herror⟩
    · exact .inr (permission_of_checkPermissions hpermissions)
    rcases bind_eq_error_iff.mp herror with hdeclared | ⟨-, -, herror⟩
    · rw [h.checkDeclared_eq] at hdeclared
      cases hdeclared
    rcases bind_eq_error_iff.mp herror with hassemble | ⟨g, hg, herror⟩
    · exact .inl (configuration_of_assemble h hassemble)
    · dsimp only at herror
      rw [validate_of_assemble h hg] at herror
      cases herror

/-- A workflow that declares no jobs and whose agent may ask for issues and comments on them. -/
def report : Workflow where
  name := "Report"
  permissions := Permissions.empty.set .issues .read
  githubTool := some { toolsets := ["issues"], readOnly := true }
  safeOutputs := some
    { types := fun type =>
        if type = .createIssue ∨ type = .addComment then .enabled { max := some 3 } else .absent }

theorem report_accepted :
    ∃ compiled, report.compile .default ⟨Engine.defaultCommand⟩ { strict := true }
      = .ok compiled := by
  have hnone : report.DeclaresNone := ⟨rfl, by rintro _ ⟨⟩; rfl⟩
  refine (compile_accepts_iff hnone .default ⟨Engine.defaultCommand⟩ { strict := true }).1.mpr
    ⟨by decide, ?_, ?_⟩
  · rintro _ ⟨⟩
    decide +kernel
  · rintro _ ⟨⟩ type - settings hset
    obtain rfl : settings = { max := some 3 } := by
      revert hset
      cases type <;> rintro ⟨⟩ <;> rfl
    exact ⟨fun _ h => (nomatch h), fun h => (nomatch h), fun _ _ h => (nomatch h),
      fun _ _ h => (nomatch h), fun _ _ h => (nomatch h)⟩

end Workflow

end AgentGate
