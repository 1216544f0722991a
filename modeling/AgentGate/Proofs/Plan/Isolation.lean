import AgentGate.Proofs.Handler.Variables
import AgentGate.Proofs.Plan.Needs
import AgentGate.Proofs.Plan.Outcome
import AgentGate.Proofs.Plan.Texts

/-!
# Turning on an output type

What the jobs of output types share is computed for the workflow as a whole: which types get a job,
who resolves temporary identifiers, whether detection is active. So a workflow is compared with the
one in which a further type is turned on. A job reads nothing of the other types but outputs of
those that it awaits, and gains a need and variables for these.

- `SafeOutputs.turnOn`: the further type, in the context of the handlers.
- `HandlerStep.variablesFrom`: the variables in which outputs of a type are read.
- `Job.Gains`: a job reads outputs of a further job and needs it, and is the same otherwise.
- `Job.Gains.wired`: the further job is not declared, so that what it reads adds no reference.
- `Workflow.compile_isolation`: the two graphs side by side.
-/

namespace AgentGate

/-- The outputs with a further type turned on. -/
abbrev SafeOutputs.turnOn (outputs : SafeOutputs) (source : OutputType) (given : OutputSettings) :
    SafeOutputs :=
  outputs.setType source (.enabled given)

/-- The workflow with these outputs. -/
def Workflow.turnOn (w : Workflow) (outputs : SafeOutputs) (source : OutputType)
    (given : OutputSettings) : Workflow :=
  { w with safeOutputs := some (outputs.turnOn source given) }

/-- A job reads outputs of the job of an output type, in variables of the step of its own script,
and needs that job. Otherwise it is the same. -/
structure Job.Gains (source : OutputType) (job other : Job) : Prop where
  rest : other = { job with needs := other.needs, steps := other.steps }
  needs : (other.needs.filter fun need => need ≠ source.name) = job.needs
  steps : ∃ before step after env, job.steps = before ++ step :: after
    ∧ other.steps = before ++ { step with env } :: after ∧ step.id = some job.name
    ∧ ∀ key, env.get? key = step.env.get? key
      ∨ step.env.get? key = none ∧ ∃ output ∈ source.outputs,
        env.get? key = some (OutputRef.expression ⟨source.name, output⟩)

/-- The outputs that an agent may ask for, as a job is told of them. -/
def SafeOutputs.allowedText (outputs : SafeOutputs) : String :=
  (Json.texts (Workflow.allowedOutputs outputs)).compact

/-- A job is told of other outputs that the agent may ask for. Otherwise it is the same. -/
def Job.Reallows (outputs outputs' : SafeOutputs) (job other : Job) : Prop :=
  ∃ before step after, job.steps = before ++ step :: after
    ∧ step.env.get? "GH_AW_ALLOWED_SAFE_OUTPUTS" = some outputs.allowedText
    ∧ other.steps
      = before ++ step.withEnv "GH_AW_ALLOWED_SAFE_OUTPUTS" outputs'.allowedText :: after
    ∧ other = { job with steps := other.steps }

variable {w : Workflow} {registry : Registry} {engine : Engine} {options : CompileOptions}
  {compiled compiled' : Compiled} {outputs : SafeOutputs} {job other : Job}
  {type source : OutputType} {settings given : OutputSettings} {runsOn name : String}

/-- Leaving out a name changes nothing where it does not occur. -/
theorem OutputType.filter_ne_name {needs : List String}
    (h : ∀ need ∈ needs, need ≠ source.name) :
    needs.filter (fun need => need ≠ source.name) = needs :=
  List.filter_eq_self.mpr fun need hneed => decide_eq_true (h need hneed)

/-! ## What handlers are told -/

namespace SafeOutputs

theorem settings?_turnOn (h : type ≠ source) :
    (outputs.turnOn source given).settings? type = outputs.settings? type := by
  show (if type = source then Switch.enabled given else outputs.types type).settings? = _
  rw [if_neg h]
  rfl

/-- No other type gets a job by this. -/
theorem emits_iff_turnOn (hoff : outputs.isEnabled source = false) : outputs.Emits registry type
    ↔ (outputs.turnOn source given).Emits registry type ∧ type ≠ source := by
  by_cases htype : type = source
  · rw [htype, Emits, hoff]
    exact iff_of_false (fun h => nomatch h.2) fun h => h.2 rfl
  · rw [and_iff_left htype, Emits, Emits]
    show _ ∧ (outputs.settings? type).isSome = true
      ↔ _ ∧ ((outputs.turnOn source given).settings? type).isSome = true
    rw [settings?_turnOn htype]

/-- The further type gets a job itself, if it has a handler. -/
theorem emits_turnOn (h : source ∈ registry.types) :
    (outputs.turnOn source given).Emits registry source := by
  refine ⟨h, ?_⟩
  show (if source = source then Switch.enabled given else outputs.types source).isEnabled = true
  rw [if_pos rfl]
  rfl

end SafeOutputs

namespace Workflow

theorem temporaryIds_turnOn (hoff : outputs.isEnabled source = false) :
    (context registry outputs).temporaryIds
      = (context registry (outputs.turnOn source given)).temporaryIds.filter
        fun ref => ref.job ≠ source.name := by
  refine Option.ext fun ref => ?_
  rw [Option.filter_eq_some_iff, temporaryIds_context_iff, temporaryIds_context_iff,
    SafeOutputs.emits_iff_turnOn hoff, decide_eq_true_eq]
  constructor
  · rintro ⟨⟨hemits, hne⟩, rfl⟩
    exact ⟨⟨hemits, rfl⟩, fun heq => hne (OutputType.name_injective heq)⟩
  · rintro ⟨⟨hemits, rfl⟩, hne⟩
    exact ⟨⟨hemits, fun heq => hne (congrArg OutputType.name heq)⟩, rfl⟩

/-- The reads of the other jobs' outputs stay, in their order. -/
theorem itemReads_turnOn (hoff : outputs.isEnabled source = false) :
    HandlerStep.itemReads type (context registry outputs)
      = (HandlerStep.itemReads type (context registry (outputs.turnOn source given))).filter
        fun entry => entry.2.job ≠ source.name := by
  rw [HandlerStep.itemReads, HandlerStep.itemReads, List.filter_append]
  congr 1
  · split
    case isTrue =>
      rw [List.filter_map, List.filter_filter]
      refine congrArg _ (List.filter_congr fun item _ => ?_)
      rw [Bool.eq_iff_iff, Bool.and_eq_true, List.contains_iff_mem, List.contains_iff_mem,
        mem_enabled_context_iff, mem_enabled_context_iff, SafeOutputs.emits_iff_turnOn hoff,
        and_comm]
      refine and_congr_left' ?_
      rw [Function.comp_apply, decide_eq_true_eq]
      exact OutputType.name_injective.ne_iff.symm
    case isFalse => rfl
  · split
    case isTrue =>
      rw [temporaryIds_turnOn hoff, Option.toList_filter, List.filter_map]
      rfl
    case isFalse => rfl

theorem idsResolver_turnOn (hoff : outputs.isEnabled source = false) :
    idsResolver type (context registry outputs)
      = (idsResolver type (context registry (outputs.turnOn source given))).filter
        fun need => need ≠ source.name := by
  rw [idsResolver, idsResolver]
  split
  case isTrue =>
    rw [temporaryIds_turnOn hoff, Option.toList_map, Option.toList_map, Option.toList_filter,
      Option.toList_filter, Option.toList_filter, List.filter_map, List.filter_filter,
      List.filter_filter]
    refine congrArg _ (List.filter_congr fun ref _ => ?_)
    exact Bool.and_comm _ _
  case isFalse => rfl

end Workflow

/-! ## The variables of a script -/

namespace HandlerStep

/-- The variables in which outputs of the job of a type are read. -/
def variablesFrom (source : OutputType) : List String :=
  (createdItems.filter fun item => item.1 = source).map (fun item => item.2.1)
    ++ if source.providesTemporaryIds then ["GH_AW_TEMPORARY_ID_MAP"] else []

/-- What is read is an output of the job of a type, in one of the variables for that. -/
theorem exists_source_of_itemReads {entry : String × OutputRef}
    (h : entry ∈ itemReads type (Workflow.context registry outputs)) :
    ∃ item : OutputType, ∃ output ∈ item.outputs, entry.2 = ⟨item.name, output⟩
      ∧ ∀ source, entry.1 ∈ variablesFrom source ↔ item.name = source.name := by
  have hcreated : ∀ item ∈ createdItems, item.2.2 ∈ item.1.outputs ∧ ∀ source ∈ OutputType.all,
      item.2.1 ∈ variablesFrom source ↔ item.1.name = source.name := by
    decide
  have hids : OutputType.temporaryIdOutput ∈ OutputType.createIssue.outputs
      ∧ ∀ source ∈ OutputType.all, "GH_AW_TEMPORARY_ID_MAP" ∈ variablesFrom source
        ↔ OutputType.createIssue.name = source.name := by
    decide
  rcases Workflow.mem_itemReads_iff.mp h with ⟨-, item, hitem, -, rfl⟩ | ⟨-, -, rfl⟩
  · obtain ⟨houtput, hsource⟩ := hcreated item hitem
    exact ⟨item.1, item.2.2, houtput, rfl, fun source => hsource source (OutputType.mem_all source)⟩
  · obtain ⟨houtput, hsource⟩ := hids
    exact ⟨_, _, houtput, rfl, fun source => hsource source (OutputType.mem_all source)⟩

theorem variablesFrom_subset (source : OutputType) : variablesFrom source ⊆ itemVariables := by
  cases source <;> decide

/-- The other variables of a script are none of these. -/
theorem not_mem_variablesFrom {ctx : HandlerContext} {entry : String × Option String}
    (h : entry ∈ commonEnv settings w ctx ++ ownEnv type settings w ctx) :
    entry.1 ∉ variablesFrom source := by
  intro hmem
  have hread : entry.1 ∈ readVariables :=
    List.mem_append_left _ (variablesFrom_subset source hmem)
  exact not_mem_readVariables (fst_mem_writtenVariables h) hread

theorem not_mem_variablesFrom_of_commentReads {entry : String × OutputRef}
    (h : entry ∈ commentReads type w) : entry.1 ∉ variablesFrom source := by
  refine fun hmem => absurd (variablesFrom_subset source hmem) ?_
  rw [commentReads] at h
  split at h
  case isTrue => rcases List.mem_pair.mp h with rfl | rfl <;> decide
  case isFalse => cases h

/-- The variables of a script in which no output is read, with their values. -/
def writtenEnv (type : OutputType) (settings : OutputSettings) (w : Workflow)
    (ctx : HandlerContext) : List (String × String) :=
  (commonEnv settings w ctx ++ ownEnv type settings w ctx).filterMap fun entry =>
    entry.2.map fun value => (entry.1, value)

theorem envOf_eq (type : OutputType) (settings : OutputSettings) (w : Workflow)
    (ctx : HandlerContext) : envOf type settings w ctx = Table.ofList
      (writtenEnv type settings w ctx
        ++ (reads type w ctx).map fun entry => (entry.1, entry.2.expression)) := by
  rw [envOf, writtenEnv, List.filterMap_append, List.filterMap_map, ← List.filterMap_eq_map]
  rfl

theorem not_mem_variablesFrom_of_writtenEnv {ctx : HandlerContext} {entry : String × String}
    (h : entry ∈ writtenEnv type settings w ctx) : entry.1 ∉ variablesFrom source := by
  obtain ⟨own, hown, hvalue⟩ := List.mem_filterMap.mp h
  obtain ⟨value, -, rfl⟩ := Option.map_eq_some_iff.mp hvalue
  exact not_mem_variablesFrom hown

/-- The variable in which an output is read says from which type it is. -/
theorem mem_variablesFrom_iff {entry : String × OutputRef}
    (h : entry ∈ reads type w (Workflow.context registry outputs)) :
    entry.1 ∈ variablesFrom source ↔ entry.2.job = source.name := by
  rcases List.mem_append.mp h with hitem | hcomment
  · obtain ⟨item, output, -, hread, hsource⟩ := exists_source_of_itemReads hitem
    rw [hread, hsource]
  · refine iff_of_false (not_mem_variablesFrom_of_commentReads hcomment) fun heq => ?_
    rw [(Workflow.eq_of_commentReads hcomment).2] at heq
    exact source.name_ne_builtin .activation heq.symm

theorem reads_turnOn (given : OutputSettings) (hoff : outputs.isEnabled source = false) :
    reads type w (Workflow.context registry outputs)
      = (reads type w (Workflow.context registry (outputs.turnOn source given))).filter
        fun entry => entry.2.job ≠ source.name := by
  rw [reads, reads, List.filter_append, Workflow.itemReads_turnOn hoff]
  congr 1
  refine (List.filter_eq_self.mpr fun entry hentry => decide_eq_true ?_).symm
  rw [(Workflow.eq_of_commentReads hentry).2]
  exact (source.name_ne_builtin .activation).symm

/-- Where the further type is turned off, its variables are missing and the others are the same. -/
theorem get?_envOf_turnOn (given : OutputSettings) (hoff : outputs.isEnabled source = false)
    (key : String) :
    (envOf type settings w (Workflow.context registry outputs)).get? key
      = if key ∉ variablesFrom source then
          (envOf type settings w
            (Workflow.context registry (outputs.turnOn source given))).get? key
        else none := by
  -- Values that are not read do not depend on the other types.
  have hwritten : (writtenEnv type settings w
      (Workflow.context registry (outputs.turnOn source given))).filter
        (fun entry => entry.1 ∉ variablesFrom source)
      = writtenEnv type settings w (Workflow.context registry outputs) := by
    rw [List.filter_eq_self.mpr fun entry hentry =>
      decide_eq_true (not_mem_variablesFrom_of_writtenEnv hentry)]
    rfl
  have hreads : reads type w (Workflow.context registry outputs)
      = (reads type w (Workflow.context registry (outputs.turnOn source given))).filter
        fun entry => entry.1 ∉ variablesFrom source := by
    rw [reads_turnOn given hoff]
    refine List.filter_congr fun entry hentry => ?_
    rw [decide_eq_decide, mem_variablesFrom_iff hentry]
  rw [envOf_eq, envOf_eq, hreads, ← hwritten]
  have hfilter := Table.get?_ofList_filter (fun key => key ∉ variablesFrom source)
    (writtenEnv type settings w (Workflow.context registry (outputs.turnOn source given))
      ++ (reads type w (Workflow.context registry (outputs.turnOn source given))).map
        fun entry => (entry.1, entry.2.expression)) key
  rw [List.filter_append, List.filter_map] at hfilter
  simp only [decide_eq_true_eq] at hfilter
  exact hfilter

/-- The variables in which outputs of a type are read hold outputs of its job. -/
theorem exists_output_of_variablesFrom {key value : String} (hkey : key ∈ variablesFrom source)
    (hvalue : (envOf type settings w (Workflow.context registry outputs)).get? key = some value) :
    ∃ output ∈ source.outputs, value = OutputRef.expression ⟨source.name, output⟩ := by
  rw [envOf_eq] at hvalue
  rcases List.mem_append.mp (Table.mem_of_get?_ofList hvalue) with hwritten | hread
  · exact absurd hkey (not_mem_variablesFrom_of_writtenEnv hwritten)
  · obtain ⟨entry, hentry, heq⟩ := List.mem_map.mp hread
    obtain ⟨rfl, rfl⟩ := Prod.mk.inj heq
    rcases List.mem_append.mp hentry with hitem | hcomment
    · obtain ⟨item, output, houtput, hread, hsource⟩ := exists_source_of_itemReads hitem
      obtain rfl := OutputType.name_injective ((hsource source).mp hkey)
      exact ⟨output, houtput, by rw [hread]⟩
    · exact absurd hkey (not_mem_variablesFrom_of_commentReads hcomment)

/-- What a script gains by the further type are variables with outputs of its job. -/
theorem get?_envOf_cases (given : OutputSettings) (hoff : outputs.isEnabled source = false)
    (key : String) :
    (envOf type settings w (Workflow.context registry (outputs.turnOn source given))).get? key
        = (envOf type settings w (Workflow.context registry outputs)).get? key
      ∨ (envOf type settings w (Workflow.context registry outputs)).get? key = none
        ∧ ∃ output ∈ source.outputs,
          (envOf type settings w (Workflow.context registry (outputs.turnOn source given))).get? key
            = some (OutputRef.expression ⟨source.name, output⟩) := by
  rw [get?_envOf_turnOn given hoff]
  by_cases hkey : key ∈ variablesFrom source
  · rw [if_neg (not_not_intro hkey)]
    cases hvalue : (envOf type settings w
        (Workflow.context registry (outputs.turnOn source given))).get? key with
    | none => exact .inl rfl
    | some value =>
      obtain ⟨output, houtput, rfl⟩ := exists_output_of_variablesFrom hkey hvalue
      exact .inr ⟨rfl, output, houtput, rfl⟩
  · rw [if_pos hkey]
    exact .inl rfl

end HandlerStep

/-! ## The job of another type -/

namespace Workflow

theorem conditionOf_turnOn
    (hactive : (outputs.turnOn source given).detectionActive = outputs.detectionActive) :
    HandlerStep.conditionOf type settings (context registry (outputs.turnOn source given))
      = HandlerStep.conditionOf type settings (context registry outputs) := by
  have hsame : (context registry (outputs.turnOn source given)).detectionActive
      = (context registry outputs).detectionActive := hactive
  rw [HandlerStep.conditionOf, HandlerStep.conditionOf, hsame]

theorem needsOf_turnOn (given : OutputSettings) (hoff : outputs.isEnabled source = false) :
    HandlerStep.needsOf type w (context registry outputs)
      = (HandlerStep.needsOf type w (context registry (outputs.turnOn source given))).filter
        fun need => need ≠ source.name := by
  have hpushes : (if type.pushesCode then [BuiltinJob.activation.name] else []).filter
      (fun need => need ≠ source.name)
      = if type.pushesCode then [BuiltinJob.activation.name] else [] := by
    refine OutputType.filter_ne_name fun need hneed => ?_
    split at hneed
    case isTrue =>
      rw [List.mem_singleton.mp hneed]
      exact (source.name_ne_builtin .activation).symm
    case isFalse => cases hneed
  rw [HandlerStep.needsOf, HandlerStep.needsOf, ← Table.distinct_filter, List.filter_append,
    hpushes, List.filter_map, HandlerStep.reads_turnOn given hoff]
  rfl

/-- The job of another type may need the further job; its other needs stay, in their order. -/
theorem needs_handlerJobOf_turnOn (hoff : outputs.isEnabled source = false)
    (hactive : (outputs.turnOn source given).detectionActive = outputs.detectionActive) :
    ((w.turnOn outputs source given).handlerJobOf type settings
        (context registry (outputs.turnOn source given)) runsOn options).needs.filter
          (fun need => need ≠ source.name)
      = (w.handlerJobOf type settings (context registry outputs) runsOn options).needs := by
  have hfixed : (CustomJob.outputNeeds outputs.detectionActive).filter
      (fun need => need ≠ source.name) = CustomJob.outputNeeds outputs.detectionActive := by
    refine OutputType.filter_ne_name fun need hneed => ?_
    rcases mem_outputNeeds_iff.mp hneed with rfl | ⟨-, rfl⟩
    · exact (source.name_ne_builtin .agent).symm
    · exact (source.name_ne_builtin .detection).symm
  have hneeds : CustomJob.outputNeeds outputs.detectionActive
        ++ HandlerStep.needsOf type w (context registry outputs)
      = (CustomJob.outputNeeds (outputs.turnOn source given).detectionActive
        ++ HandlerStep.needsOf type w (context registry (outputs.turnOn source given))).filter
          fun need => need ≠ source.name := by
    rw [List.filter_append, hactive, hfixed, needsOf_turnOn given hoff]
  rw [handlerJobOf, handlerJobOf, idsResolver_turnOn hoff]
  refine Job.filter_needs_addNeeds ?_ _
  rw [HandlerStep.toJob, HandlerStep.toJob]
  show _ = (Job.addNeeds _ (CustomJob.outputNeeds outputs.detectionActive
    ++ HandlerStep.needsOf type w (context registry outputs))).needs
  rw [hneeds]
  exact Job.filter_needs_addNeeds rfl _

/-- The job of another type reads outputs of the further job at most. -/
theorem gains_handlerJobOf (hoff : outputs.isEnabled source = false)
    (hactive : (outputs.turnOn source given).detectionActive = outputs.detectionActive) :
    (w.handlerJobOf type settings (context registry outputs) runsOn options).Gains source
      ((w.turnOn outputs source given).handlerJobOf type settings
        (context registry (outputs.turnOn source given)) runsOn options) where
  rest := by
    rw [handlerJobOf_eq (w.turnOn outputs source given), handlerJobOf_eq w,
      conditionOf_turnOn hactive]
    rfl
  needs := needs_handlerJobOf_turnOn hoff hactive
  steps := by
    refine ⟨_, _, _, _, steps_handlerJobOf, steps_handlerJobOf, ?_,
      HandlerStep.get?_envOf_cases given hoff⟩
    rw [name_handlerJobOf]
    rfl

/-- Where the further type is not awaited or has no handler, the job of another type is the same. -/
theorem handlerJobOf_turnOn (hoff : outputs.isEnabled source = false)
    (hactive : (outputs.turnOn source given).detectionActive = outputs.detectionActive)
    (hunread : source ∈ type.awaited → source ∉ registry.types) :
    (w.turnOn outputs source given).handlerJobOf type settings
        (context registry (outputs.turnOn source given)) runsOn options
      = w.handlerJobOf type settings (context registry outputs) runsOn options := by
  have hother : ∀ item ∈ type.awaited, (outputs.turnOn source given).Emits registry item →
      item.name ≠ source.name := by
    intro item hitem hemits heq
    obtain rfl := OutputType.name_injective heq
    exact hunread hitem hemits.1
  have hitems : HandlerStep.itemReads type (context registry (outputs.turnOn source given))
      = HandlerStep.itemReads type (context registry outputs) := by
    rw [itemReads_turnOn hoff]
    refine (List.filter_eq_self.mpr fun entry hentry => decide_eq_true ?_).symm
    obtain ⟨item, hitem, hemits, hname⟩ := exists_itemReads_iff.mp ⟨entry, hentry, rfl⟩
    exact hname ▸ hother item hitem hemits
  have hids : idsResolver type (context registry (outputs.turnOn source given))
      = idsResolver type (context registry outputs) := by
    rw [idsResolver_turnOn hoff]
    refine (OutputType.filter_ne_name fun need hneed => ?_).symm
    obtain ⟨item, hitem, hemits, hname⟩ := exists_awaited_of_idsResolver hneed
    exact hname ▸ hother item hitem hemits
  have hreads : HandlerStep.reads type w (context registry (outputs.turnOn source given))
      = HandlerStep.reads type w (context registry outputs) := by
    rw [HandlerStep.reads, HandlerStep.reads, hitems]
  have hstep : HandlerStep.ofSettings type settings (w.turnOn outputs source given)
        (context registry (outputs.turnOn source given))
      = HandlerStep.ofSettings type settings w (context registry outputs) := by
    have henv : HandlerStep.envOf type settings w (context registry (outputs.turnOn source given))
        = HandlerStep.envOf type settings w (context registry outputs) := by
      rw [HandlerStep.envOf_eq, HandlerStep.envOf_eq, hreads]
      rfl
    have hneeds : HandlerStep.needsOf type w (context registry (outputs.turnOn source given))
        = HandlerStep.needsOf type w (context registry outputs) := by
      rw [HandlerStep.needsOf, HandlerStep.needsOf, hreads]
    show { HandlerStep.ofSettings type settings w (context registry outputs) with
      env := HandlerStep.envOf type settings w (context registry (outputs.turnOn source given))
      condition := HandlerStep.conditionOf type settings
        (context registry (outputs.turnOn source given))
      needs := HandlerStep.needsOf type w (context registry (outputs.turnOn source given)) } = _
    rw [henv, hneeds, conditionOf_turnOn hactive]
    rfl
  rw [handlerJobOf, handlerJobOf, hids, hstep, HandlerStep.toJob, HandlerStep.toJob]
  show Job.addNeeds (Job.addNeeds _ (CustomJob.outputNeeds (outputs.turnOn source
    given).detectionActive ++ _)) _ = _
  rw [hactive]
  rfl

end Workflow

/-! ## References -/

/-- The text that reads an output of the job of a type refers to that job and to nothing else. -/
theorem OutputType.eq_name_of_mem_names {output : String} (houtput : output ∈ source.outputs)
    (h : name.toList ∈ Reference.names (OutputRef.expression ⟨source.name, output⟩).toList) :
    name = source.name := by
  let v : View := ⟨fun job => job = source.name, fun _ _ => True, fun _ => False⟩
  have hresolves : v.Resolves (OutputRef.expression ⟨source.name, output⟩).toList :=
    (View.resolves_jobOutput source.plain_name (plain_of_mem_outputs houtput) rfl trivial).embed
  have hjob := hresolves.job_of_mem_names h
  rwa [String.ofList_toList] at hjob

namespace Job.Gains

theorem name_eq (h : job.Gains source other) : other.name = job.name := by
  rw [h.rest]

/-- The texts of a job are those of its steps and those that a job keeps. -/
theorem texts_eq (h : job.Gains source other) : other.texts
    = job.condition.toList ++ job.env.values ++ job.outputs.values
      ++ other.steps.flatMap Step.texts :=
  congrArg Job.texts h.rest

/-- New texts read outputs of the further job. -/
theorem mem_texts (h : job.Gains source other) {text : String} (htext : text ∈ other.texts) :
    text ∈ job.texts
      ∨ ∃ output ∈ source.outputs, text = OutputRef.expression ⟨source.name, output⟩ := by
  obtain ⟨before, step, after, env, hsteps, hsteps', -, henv⟩ := h.steps
  have hstep : ∀ text ∈ ({ step with env } : Step).texts, text ∈ step.texts
      ∨ ∃ output ∈ source.outputs, text = OutputRef.expression ⟨source.name, output⟩ := by
    intro text htext
    rcases List.mem_append.mp htext with hfixed | hvalue
    · exact .inl (List.mem_append_left _ hfixed)
    · obtain ⟨key, hget⟩ := Table.mem_values_iff.mp hvalue
      rcases henv key with hsame | ⟨-, output, houtput, hread⟩
      · exact .inl (List.mem_append_right _ (Table.mem_values_iff.mpr ⟨key, hsame ▸ hget⟩))
      · exact .inr ⟨output, houtput, Option.some.inj (hget.symm.trans hread)⟩
  rw [h.texts_eq, hsteps', List.flatMap_append, List.flatMap_cons] at htext
  rw [Job.texts, hsteps, List.flatMap_append, List.flatMap_cons]
  simp only [List.mem_append] at htext ⊢
  rcases htext with hfixed | hbefore | htext | hafter
  · exact .inl (.inl hfixed)
  · exact .inl (.inr (.inl hbefore))
  · exact (hstep text htext).imp_left fun htext => .inr (.inr (.inl htext))
  · exact .inl (.inr (.inr (.inr hafter)))

theorem texts_subset (h : job.Gains source other) : job.texts ⊆ other.texts := by
  obtain ⟨before, step, after, env, hsteps, hsteps', -, henv⟩ := h.steps
  have hstep : step.texts ⊆ ({ step with env } : Step).texts := by
    intro text htext
    rcases List.mem_append.mp htext with hfixed | hvalue
    · exact List.mem_append_left _ hfixed
    · obtain ⟨key, hget⟩ := Table.mem_values_iff.mp hvalue
      rcases henv key with hsame | ⟨hnone, -⟩
      · exact List.mem_append_right _ (Table.mem_values_iff.mpr ⟨key, hsame.trans hget⟩)
      · rw [hnone] at hget
        cases hget
  rw [h.texts_eq, hsteps', Job.texts, hsteps, List.flatMap_append, List.flatMap_append,
    List.flatMap_cons, List.flatMap_cons]
  intro text htext
  simp only [List.mem_append] at htext ⊢
  exact htext.imp_right (Or.imp_right (Or.imp_left fun htext => hstep htext))

/-- What a job gains adds no reference to a declared job. -/
theorem jobs_texts (h : job.Gains source other) {declared : List String} {self : String}
    (hfree : source.name ∉ declared) :
    Reference.jobs other.texts declared self = Reference.jobs job.texts declared self := by
  refine Reference.jobs_congr fun name hname => ?_
  constructor
  · rintro ⟨text, htext, hrefers⟩
    rcases h.mem_texts htext with htext | ⟨output, houtput, rfl⟩
    · exact ⟨text, htext, hrefers⟩
    · exact absurd (OutputType.eq_name_of_mem_names houtput hrefers ▸ hname) hfree
  · rintro ⟨text, htext, hrefers⟩
    exact ⟨text, h.texts_subset htext, hrefers⟩

/-- Wiring keeps what a job gains: the further job is not declared. -/
theorem wired (h : job.Gains source other) {declared : List String}
    (hfree : source.name ∉ declared) :
    (job.wired declared).Gains source (other.wired declared) where
  rest := congrArg (fun job : Job => { job with needs := (other.wired declared).needs }) h.rest
  needs := by
    -- The references are the same in both, and none of them is to the further job.
    show ((if BuiltinJob.reserves other.name then other.needs
      else (other.addNeeds (Reference.jobs other.texts declared other.name)).needs).filter _)
      = if BuiltinJob.reserves job.name then job.needs
        else (job.addNeeds (Reference.jobs job.texts declared job.name)).needs
    rw [h.name_eq, h.jobs_texts hfree]
    split
    case isTrue => exact h.needs
    case isFalse =>
      have hkept : (Reference.jobs job.texts declared job.name).filter
          (fun need => need ≠ source.name) = Reference.jobs job.texts declared job.name := by
        refine OutputType.filter_ne_name fun need hneed heq => ?_
        exact hfree (heq ▸ (Reference.mem_jobs_iff.mp hneed).1)
      rw [Job.filter_needs_addNeeds h.needs, hkept]
  steps := h.steps

end Job.Gains

/-! ## The two graphs -/

/-- Only comments and discussions await other types, and only such that create something. -/
theorem OutputType.cases_of_awaited (h : source ∈ type.awaited) :
    type.name ∈ ["add_comment", "create_discussion"]
      ∧ source ∈ [createIssue, createDiscussion, createPullRequest] := by
  cases type with
  | addComment => exact ⟨List.mem_cons_self, h⟩
  | createDiscussion =>
    rw [List.mem_singleton.mp h]
    exact ⟨List.mem_cons_of_mem _ List.mem_cons_self, List.mem_cons_self⟩
  | createIssue | createPullRequest | createPrReviewComment | createCodeScanningAlert | addLabels
  | pushToPullRequestBranch | createAgentTask | missingTool | noop => cases h

namespace Workflow

theorem declaredNames_turnOn (houtputs : w.safeOutputs = some outputs) :
    (w.turnOn outputs source given).declaredNames = w.declaredNames := by
  rw [declaredNames, declaredNames, declaredJobs, declaredJobs, houtputs]
  rfl

/-- A planned job is planned with the further type turned on, too, unless it is the agent or the
conclusion or gains what it reads from that type. -/
theorem Planned.turnOn (houtputs : w.safeOutputs = some outputs)
    (hoff : outputs.isEnabled source = false)
    (hactive : (outputs.turnOn source given).detectionActive = outputs.detectionActive)
    (hjob : Planned w registry engine options job) :
    Planned (w.turnOn outputs source given) registry engine options job
    ∨ job.name ∈ ["agent", "conclusion"]
    ∨ job.name ∈ ["add_comment", "create_discussion"]
      ∧ source ∈ [.createIssue, .createDiscussion, .createPullRequest] ∧ source ∈ registry.types
      ∧ ∃ other, Planned (w.turnOn outputs source given) registry engine options other
        ∧ job.Gains source other := by
  cases hjob with
  | preActivation hpre => exact .inl (.preActivation hpre)
  | activation => exact .inl .activation
  | agent => exact .inr (.inl List.mem_cons_self)
  | beside hconfig => exact .inl (.beside hconfig)
  | detection hsome hdetects =>
    cases houtputs.symm.trans hsome
    have hplanned : Planned (w.turnOn outputs source given) registry engine options
        (Detection.job (w.turnOn outputs source given) (outputs.turnOn source given) engine _) :=
      .detection rfl (hactive.trans hdetects)
    exact .inl hplanned
  | @handler _ type settings hsome htype hset =>
    cases houtputs.symm.trans hsome
    have hother : type ≠ source := by
      rintro rfl
      rw [show outputs.isEnabled type = (outputs.settings? type).isSome from rfl, hset] at hoff
      cases hoff
    have hplanned : Planned (w.turnOn outputs source given) registry engine options _ :=
      .handler rfl htype ((SafeOutputs.settings?_turnOn hother).trans hset)
    by_cases hread : source ∈ type.awaited ∧ source ∈ registry.types
    · obtain ⟨hname, hcreates⟩ := OutputType.cases_of_awaited hread.1
      refine .inr (.inr ⟨?_, hcreates, hread.2, _, hplanned, gains_handlerJobOf hoff hactive⟩)
      rwa [name_handlerJobOf]
    · rw [handlerJobOf_turnOn hoff hactive fun hawaited hregistered =>
        hread ⟨hawaited, hregistered⟩] at hplanned
      exact .inl hplanned
  | @ownOutput _ name config hsome hconfig =>
    cases houtputs.symm.trans hsome
    have hplanned : Planned (w.turnOn outputs source given) registry engine options
        (config.forOutput name _ (outputs.turnOn source given) options
          (outputs.turnOn source given).detectionActive) :=
      .ownOutput rfl hconfig
    rw [hactive] at hplanned
    exact .inl hplanned
  | conclusion => exact .inr (.inl (List.mem_cons_of_mem _ List.mem_cons_self))

/-- The agent is told of the further type. -/
theorem reallows_agentJob (houtputs : w.safeOutputs = some outputs) :
    (w.agentJob options).Reallows outputs (outputs.turnOn source given)
      ((w.turnOn outputs source given).agentJob options) := by
  let collect := (Step.ofModule "Collect agent output" "collect_ndjson_output.cjs").withId
    "collect_output"
  refine ⟨[Step.checkout], collect.withEnv "GH_AW_ALLOWED_SAFE_OUTPUTS" outputs.allowedText,
    (collectingSteps outputs).tail, ?_, ?_, ?_, ?_⟩
  · show Step.checkout :: w.safeOutputs.toList.flatMap collectingSteps = _
    rw [houtputs]
    rfl
  · show (collect.env.insert _ _).get? _ = _
    rw [Table.get?_insert, if_pos rfl]
  · rw [Step.withEnv, Step.withEnv, Table.insert_insert]
    rfl
  · rw [agentJob, agentJob, houtputs]
    rfl

/-- **Output types do not interfere.** Turn a further output type on in a workflow whose detection
is active with it and without it, and let both be accepted. Then the jobs are the same but for the
agent, the conclusion, the comment and the discussion. The agent is told of another list of outputs
that may be asked for, and is the same otherwise. The comment and the discussion are the same unless
the further type creates issues, discussions or pull requests; then each of them is the same or
gains what it reads from that type: it may need its job and reads outputs of it in variables of its
script, and all else about it is as before. -/
theorem compile_isolation (houtputs : w.safeOutputs = some outputs)
    (hoff : outputs.isEnabled source = false)
    (hactive : (outputs.turnOn source given).detectionActive = outputs.detectionActive)
    (h : w.compile registry engine options = .ok compiled)
    (h' : (w.turnOn outputs source given).compile registry engine options = .ok compiled') :
    (∀ name job, compiled.graph.get? name = some job →
      name ∉ ["agent", "conclusion", "add_comment", "create_discussion"] →
      compiled'.graph.get? name = some job)
    ∧ (∃ agent agent', compiled.graph.get? "agent" = some agent
      ∧ compiled'.graph.get? "agent" = some agent'
      ∧ agent.Reallows outputs (outputs.turnOn source given) agent')
    ∧ ∀ name ∈ ["add_comment", "create_discussion"], ∀ job, compiled.graph.get? name = some job →
      ∃ job', compiled'.graph.get? name = some job'
        ∧ (job' = job ∨ source ∈ [.createIssue, .createDiscussion, .createPullRequest]
          ∧ job.Gains source job') := by
  -- What becomes of each job of the graph.
  have hjobs : ∀ name job, compiled.graph.get? name = some job →
      name ∈ ["agent", "conclusion"] ∨ compiled'.graph.get? name = some job
      ∨ name ∈ ["add_comment", "create_discussion"]
        ∧ source ∈ [.createIssue, .createDiscussion, .createPullRequest]
        ∧ ∃ job', compiled'.graph.get? name = some job' ∧ job.Gains source job' := by
    intro name job hget
    obtain ⟨hjob, rfl⟩ := JobGraph.get?_eq_some_iff.mp hget
    obtain ⟨planned, hplanned, rfl⟩ := (mem_jobs_of_compile_iff h).mp hjob
    rw [Job.name_wired, ← declaredNames_turnOn houtputs]
    rcases hplanned.turnOn houtputs hoff hactive with
      hsame | hname | ⟨hname, hcreates, hregistered, other, hother, hgains⟩
    · exact .inr (.inl (get?_of_planned h' hsame))
    · exact .inl hname
    · have hfree := not_mem_declaredNames_of_emits h' rfl (SafeOutputs.emits_turnOn hregistered)
      refine .inr (.inr ⟨hname, hcreates, _, ?_, hgains.wired hfree⟩)
      rw [← hgains.name_eq]
      exact get?_of_planned h' hother
  refine ⟨fun name job hget hname => ?_, ?_, fun name hname job hget => ?_⟩
  · rcases hjobs name job hget with hbuiltin | hsame | ⟨hreads, -⟩
    · exact absurd (List.mem_append_left ["add_comment", "create_discussion"] hbuiltin) hname
    · exact hsame
    · exact absurd (List.mem_append_right ["agent", "conclusion"] hreads) hname
  · exact ⟨_, _, get?_of_planned h .agent, get?_of_planned h' .agent, reallows_agentJob houtputs⟩
  · rcases hjobs name job hget with hbuiltin | hsame | ⟨-, hcreates, job', hget', hgains⟩
    · rcases List.mem_pair.mp hname with rfl | rfl <;> exact absurd hbuiltin (by decide)
    · exact ⟨job, hsame, .inl rfl⟩
    · exact ⟨job', hget', .inr ⟨hcreates, hgains⟩⟩

/-- Issues may be asked for, too. -/
def triageIssues : Workflow :=
  (triage none).turnOn (triageOutputs none) .createIssue { titlePrefix := some "[triage] " }

theorem triage_isolation :
    ∃ compiled compiled', (triage none).compile .default ⟨Engine.defaultCommand⟩ {} = .ok compiled
      ∧ triageIssues.compile .default ⟨Engine.defaultCommand⟩ {} = .ok compiled'
      ∧ compiled.graph.get? "notify" = compiled'.graph.get? "notify"
      ∧ ∃ job job', compiled.graph.get? "add_comment" = some job
        ∧ compiled'.graph.get? "add_comment" = some job'
        ∧ job.Gains .createIssue job' ∧ "create_issue" ∈ job'.needs := by
  have hfits : (triage none).fitsOrder .default ⟨Engine.defaultCommand⟩ {} triageOrder = true := by
    decide +kernel
  have hfits' : triageIssues.fitsOrder .default ⟨Engine.defaultCommand⟩ {}
      ["activation", "agent", "detection", "notify", "create_issue", "add_comment", "conclusion"]
      = true := by
    decide +kernel
  obtain ⟨compiled, hcompiled⟩ := exists_compile_of_fitsOrder hfits
  obtain ⟨compiled', hcompiled'⟩ := exists_compile_of_fitsOrder hfits'
  obtain ⟨hsame, -, hreads⟩ := compile_isolation rfl rfl rfl hcompiled hcompiled'
  obtain ⟨notify, hnotify, -⟩ := exists_get?_of_outputJobs hcompiled rfl
    (show (triageOutputs none).jobs.get? "notify" = some (notification none) from rfl)
  obtain ⟨comment, hcomment, -⟩ := exists_get?_of_emits hcompiled rfl
    (show SafeOutputs.Emits _ _ .addComment from ⟨by decide, rfl⟩)
  obtain ⟨comment', hcomment', hchange⟩ := hreads _ List.mem_cons_self comment hcomment
  have hneeds : "create_issue" ∈ comment'.needs := by
    refine (JobGraph.needs_iff_of_get? hcomment').mp ?_
    exact (needs_name_iff hcompiled' rfl ⟨by decide, rfl⟩ ⟨by decide, rfl⟩).mpr
      (show OutputType.createIssue ∈ OutputType.addComment.awaited by decide)
  refine ⟨compiled, compiled', hcompiled, hcompiled', hnotify.trans (hsame _ _ hnotify ?_).symm,
    comment, comment', hcomment, hcomment', ?_, hneeds⟩
  · decide
  · rcases hchange with rfl | ⟨-, hgains⟩
    · -- Without the further type there is no job that creates issues.
      obtain ⟨-, -, -, hvalid, -⟩ := compile_eq_ok_iff.mp hcompiled
      have hknown := (JobGraph.validate_eq_ok_iff.mp hvalid).1 _
        (JobGraph.get?_eq_some_iff.mp hcomment).1 _ hneeds
      rw [names_of_compile hcompiled] at hknown
      exact absurd hknown (by decide +kernel)
    · exact hgains

end Workflow

end AgentGate
