import AgentGate.Proofs.Plan.Needs
import AgentGate.Proofs.Plan.Outcome

/-!
# Who may write

What a job of an accepted workflow is granted depends on its kind alone. The agent and the jobs that
the workflow declares have what the workflow says; of the others only jobs that react and those of
output types write, and the latter only behind the agent and behind detection.

- `Workflow.MayWrite`: the four reasons for which a job may write on a scope.
- `Workflow.reactionPermissions_writes_iff`: what a reaction is granted.
- `HandlerStep.detectionSucceeded_mem_conjuncts`: the check that the condition of a type joins.
- `Workflow.compile_writes_iff`: a job writes on a scope just when it has such a reason.
-/

namespace AgentGate

open Expression

namespace HandlerStep

variable {type : OutputType} {settings : OutputSettings} {ctx : HandlerContext}

/-- Where detection is active, the condition of a type joins the check that it found nothing. -/
theorem detectionSucceeded_mem_conjuncts (hactive : ctx.detectionActive = true) :
    .raw "needs.detection.outputs.success == 'true'"
      ∈ (conditionOf type settings ctx).conjuncts := by
  have hvetted : .raw "needs.detection.outputs.success == 'true'"
      ∈ ((Condition.safeOutput type (settings.min.getD 0)).andAlso
        .detectionSucceeded).conjuncts :=
    Condition.raw_mem_conjuncts_conj (List.mem_cons_of_mem _ (List.mem_singleton_self _))
      (List.mem_singleton_self _)
  unfold conditionOf
  dsimp only
  rw [if_pos hactive]
  split
  case h_1 trigger htrigger =>
    split
    · exact Condition.raw_mem_conjuncts_conj List.mem_cons_self hvetted
    · exact hvetted
  case h_2 => exact hvetted

end HandlerStep

namespace Workflow

variable {w : Workflow} {registry : Registry} {engine : Engine} {options : CompileOptions}
  {compiled : Compiled} {outputs : SafeOutputs} {job : Job} {type : OutputType}
  {settings : OutputSettings} {ctx : HandlerContext} {runsOn name : String} {config : CustomJob}
  {scope : Scope} {active : Bool}

/-! ## The reasons -/

/-- The workflow declares a job under a name, beside the agent or for an output of its own. -/
def Declares (w : Workflow) (name : String) (config : CustomJob) : Prop :=
  w.jobs.get? name = some config
    ∨ ∃ outputs, w.safeOutputs = some outputs ∧ outputs.jobs.get? name = some config

/-- Why a job may write on a scope. -/
inductive MayWrite (w : Workflow) (registry : Registry) (job : Job) (scope : Scope) : Prop where
  /-- The job is the agent, and the workflow grants the agent that. -/
  | agent (hname : job.name = "agent") (hgrant : w.permissions.get scope = .write)
  /-- The job is declared with that. -/
  | declared {config : CustomJob} {granted : Permissions} (hconfig : w.Declares job.name config)
    (hpermissions : config.permissions = some granted) (hgrant : granted.get scope = .write)
  /-- The job adds or completes the comment of a reaction, and items on the scope have comments. -/
  | reaction (hname : job.name = "activation" ∨ job.name = "conclusion")
    (hreaction : w.reaction.isSome = true)
    (hscope : scope = .discussions ∨ scope = .issues ∨ scope = .pullRequests)
  /-- The job is that of an output type which is granted that; it waits for the agent, and for
  detection where it is active, whose verdict is a conjunct of its condition. -/
  | handler {outputs : SafeOutputs} {type : OutputType} (houtputs : w.safeOutputs = some outputs)
    (hemits : outputs.Emits registry type) (hname : job.name = type.name)
    (hgrant : type.permissions.get scope = .write) (hagent : "agent" ∈ job.needs)
    (hdetection : outputs.detectionActive = true → "detection" ∈ job.needs
      ∧ ∃ text, job.condition = some text
        ∧ HasConjunct text "needs.detection.outputs.success == 'true'")

/-! ## What each kind of job is granted -/

/-- With a reaction, its jobs write on what has comments; without one they write on nothing. -/
theorem reactionPermissions_writes_iff : w.reactionPermissions.get scope = .write
    ↔ w.reaction.isSome = true
      ∧ (scope = .discussions ∨ scope = .issues ∨ scope = .pullRequests) := by
  rw [reactionPermissions]
  split
  case isTrue hreaction =>
    rw [and_iff_right hreaction]
    cases scope <;> decide
  case isFalse hreaction =>
    rw [iff_false_right fun h => hreaction h.1]
    cases scope <;> decide

theorem readContents_get_ne_write (scope : Scope) : readContents.get scope ≠ .write := by
  cases scope <;> decide

@[simp] theorem permissions_besideAgent :
    (config.besideAgent name runsOn).permissions = config.permissions.getD ∅ := by
  have hjob : (config.toJob name runsOn).permissions = config.permissions.getD ∅ := by
    rw [CustomJob.toJob, Job.addNeeds_eq]
  rw [CustomJob.besideAgent]
  split
  · exact hjob
  · rw [Job.addNeed_eq, hjob]

@[simp] theorem permissions_forOutput :
    (config.forOutput name runsOn outputs options active).permissions
      = config.permissions.getD ∅ := by
  show ((config.toJob name runsOn).addNeeds _).permissions = _
  rw [Job.addNeeds_eq, CustomJob.toJob, Job.addNeeds_eq]

/-- A declared job that is granted `write` says so itself. -/
theorem exists_granted_of_getD : (config.permissions.getD ∅).get scope = .write →
    ∃ granted, config.permissions = some granted ∧ granted.get scope = .write := by
  cases config.permissions with
  | none => exact nofun
  | some granted => exact fun h => ⟨granted, rfl, h⟩

/-- The verdict of detection is a conjunct of what the job of an output type runs under. -/
theorem hasConjunct_conditionOf (hactive : ctx.detectionActive = true) :
    HasConjunct (HandlerStep.conditionOf type settings ctx).text
      "needs.detection.outputs.success == 'true'" :=
  (HandlerStep.readable_conditionOf type settings ctx).hasConjunct
    (HandlerStep.detectionSucceeded_mem_conjuncts hactive)

/-! ## Accepted workflows -/

/-- A planned job that writes has a reason, by its kind. -/
theorem mayWrite_of_planned (hjob : Planned w registry engine options job)
    (hwrite : job.permissions.get scope = .write) :
    MayWrite w registry (job.wired w.declaredNames) scope := by
  cases hjob with
  | preActivation => exact absurd hwrite (readContents_get_ne_write scope)
  | activation =>
    obtain ⟨hreaction, hscope⟩ := reactionPermissions_writes_iff.mp hwrite
    exact .reaction (.inl rfl) hreaction hscope
  | agent => exact .agent rfl hwrite
  | beside hconfig =>
    rw [permissions_besideAgent] at hwrite
    obtain ⟨granted, hpermissions, hgrant⟩ := exists_granted_of_getD hwrite
    exact .declared (.inl (by rwa [Job.name_wired, name_besideAgent])) hpermissions hgrant
  | detection => exact absurd hwrite (readContents_get_ne_write scope)
  | @handler outputs type settings houtputs htype hset =>
    rw [permissions_handlerJobOf] at hwrite
    refine .handler houtputs ⟨htype, Option.isSome_iff_exists.mpr ⟨settings, hset⟩⟩ ?_ hwrite ?_
      fun hactive => ⟨?_, ?_⟩
    · rw [Job.name_wired, name_handlerJobOf]
    · exact mem_needs_wired.mpr (.inl (mem_needs_handlerJobOf.mpr (.inl rfl)))
    · exact mem_needs_wired.mpr (.inl (mem_needs_handlerJobOf.mpr (.inr (.inl ⟨hactive, rfl⟩))))
    · exact ⟨_, condition_handlerJobOf, hasConjunct_conditionOf hactive⟩
  | ownOutput houtputs hconfig =>
    rw [permissions_forOutput] at hwrite
    obtain ⟨granted, hpermissions, hgrant⟩ := exists_granted_of_getD hwrite
    refine .declared (.inr ⟨_, houtputs, ?_⟩) hpermissions hgrant
    rwa [Job.name_wired, name_forOutput]
  | conclusion =>
    obtain ⟨hreaction, hscope⟩ := reactionPermissions_writes_iff.mp hwrite
    exact .reaction (.inr rfl) hreaction hscope

/-- A job that has a reason writes: its name says which job it is. -/
theorem writes_of_mayWrite (h : w.compile registry engine options = .ok compiled)
    (hjob : job ∈ compiled.graph.jobs) (hmay : MayWrite w registry job scope) :
    job.permissions.get scope = .write := by
  cases hmay with
  | agent hname hgrant =>
    rw [eq_wired_of_planned h .agent hjob hname]
    exact hgrant
  | @declared config granted hconfig hpermissions hgrant =>
    rcases hconfig with hconfig | ⟨outputs, houtputs, hconfig⟩
    · rw [eq_wired_of_planned h (.beside hconfig) hjob name_besideAgent.symm]
      show (config.besideAgent _ _).permissions.get scope = .write
      rw [permissions_besideAgent, hpermissions]
      exact hgrant
    · rw [eq_wired_of_planned h (.ownOutput houtputs hconfig) hjob name_forOutput.symm]
      show (config.forOutput job.name (w.outcomeRunner outputs options) outputs options
        outputs.detectionActive).permissions.get scope = .write
      rw [permissions_forOutput, hpermissions]
      exact hgrant
  | reaction hname hreaction hscope =>
    have hwrite := reactionPermissions_writes_iff.mpr ⟨hreaction, hscope⟩
    rcases hname with hname | hname
    · rw [eq_wired_of_planned h .activation hjob hname]
      exact hwrite
    · obtain ⟨outputs, houtputs⟩ := exists_outputs_of_conclusion h hjob hname
      rw [eq_wired_of_planned h (.conclusion houtputs) hjob hname]
      exact hwrite
  | handler houtputs hemits hname hgrant =>
    obtain ⟨settings, hset⟩ := Option.isSome_iff_exists.mp hemits.2
    rw [eq_wired_of_planned h (.handler houtputs hemits.1 hset) hjob
      (hname.trans name_handlerJobOf.symm)]
    show (w.handlerJobOf _ settings _ _ options).permissions.get scope = .write
    rw [permissions_handlerJobOf]
    exact hgrant

/-- The first job and the one that vets never write: no reason is theirs. -/
theorem not_mayWrite_of_name (h : w.compile registry engine options = .ok compiled)
    (hname : job.name = "pre_activation" ∨ job.name = "detection") :
    ¬ MayWrite w registry job scope := by
  have hreserved : BuiltinJob.reserves job.name = true := by
    rcases hname with hname | hname <;> rw [hname] <;> decide
  intro hmay
  cases hmay with
  | agent hagent =>
    rw [hagent] at hname
    exact absurd hname (by decide)
  | declared hconfig =>
    have hdeclared : job.name ∈ w.declaredNames := by
      refine mem_declaredNames_iff.mpr (hconfig.imp (fun hget => ⟨_, hget⟩) ?_)
      exact fun ⟨outputs, houtputs, hget⟩ => ⟨outputs, houtputs, _, hget⟩
    rw [reserves_of_mem_declaredNames h hdeclared] at hreserved
    cases hreserved
  | reaction hreacts =>
    rcases hreacts with hreacts | hreacts <;> rw [hreacts] at hname <;>
      exact absurd hname (by decide)
  | @handler outputs type houtputs hemits htype =>
    rw [htype, type.reserves_name] at hreserved
    cases hreserved

/-- **Who may write.** A job of an accepted workflow writes on a scope just when it is the agent and
the workflow grants the agent that; when it is declared with that; when it is activation or the
conclusion, there is a reaction and the scope has comments; or when it is the job of an output type
that is granted that, which waits for the agent and, where detection is active, for its verdict, a
conjunct of its condition. So the job before activation and detection never write, nor do the jobs
that report missing tools or do nothing. The agent is granted exactly what the workflow says. -/
theorem compile_writes_iff (h : w.compile registry engine options = .ok compiled) :
    (∀ job ∈ compiled.graph.jobs, ∀ scope,
      job.permissions.get scope = .write ↔ MayWrite w registry job scope)
    ∧ (∀ job ∈ compiled.graph.jobs, job.name = "pre_activation" ∨ job.name = "detection" →
      ∀ scope, job.permissions.get scope ≠ .write)
    ∧ (∀ outputs, w.safeOutputs = some outputs → ∀ type, outputs.Emits registry type →
      type = .missingTool ∨ type = .noop → ∀ job, compiled.graph.get? type.name = some job →
        ∀ scope, job.permissions.get scope ≠ .write)
    ∧ ∃ agent, compiled.graph.get? "agent" = some agent ∧ agent.permissions = w.permissions := by
  have hwrites : ∀ job ∈ compiled.graph.jobs, ∀ scope,
      job.permissions.get scope = .write ↔ MayWrite w registry job scope := by
    intro job hjob scope
    refine ⟨fun hwrite => ?_, writes_of_mayWrite h hjob⟩
    obtain ⟨planned, hplanned, rfl⟩ := (mem_jobs_of_compile_iff h).mp hjob
    exact mayWrite_of_planned hplanned hwrite
  refine ⟨hwrites, ?_, ?_, ?_⟩
  · intro job hjob hname scope hwrite
    exact not_mayWrite_of_name h hname ((hwrites job hjob scope).mp hwrite)
  · intro outputs houtputs type hemits htype job hget scope
    obtain ⟨settings, hset⟩ := Option.isSome_iff_exists.mp hemits.2
    obtain ⟨hjob, hname⟩ := JobGraph.get?_eq_some_iff.mp hget
    rw [eq_wired_of_planned h (.handler houtputs hemits.1 hset) hjob
      (hname.trans name_handlerJobOf.symm)]
    show (w.handlerJobOf type settings _ _ options).permissions.get scope ≠ .write
    rw [permissions_handlerJobOf]
    rcases htype with rfl | rfl <;> cases scope <;> decide
  · exact ⟨_, get?_of_planned h .agent, rfl⟩

theorem release_writes :
    ∃ compiled job text, release.compile .default ⟨Engine.defaultCommand⟩ {} = .ok compiled
      ∧ compiled.graph.get? "create_pull_request" = some job
      ∧ job.permissions.get .contents = .write ∧ job.condition = some text
      ∧ ∀ v : Valuation, v.holdsText text = true →
        v.holdsText "needs.detection.outputs.success == 'true'" = true := by
  obtain ⟨compiled, hcompiled⟩ := exists_compile_release
  obtain ⟨hwrites, -⟩ := compile_writes_iff hcompiled
  have hplanned : Planned release .default ⟨Engine.defaultCommand⟩ {} _ :=
    .handler rfl (show OutputType.createPullRequest ∈ Registry.default.types by decide) rfl
  have hget := get?_of_planned hcompiled hplanned
  rw [name_handlerJobOf] at hget
  obtain ⟨hmem, hname⟩ := JobGraph.get?_eq_some_iff.mp hget
  -- The job writes, and of the reasons only that of output types can be its own.
  have hgrant : ∀ settings ctx runsOn, ((release.handlerJobOf .createPullRequest settings ctx runsOn
      {}).wired release.declaredNames).permissions.get .contents = .write := by
    intro settings ctx runsOn
    show (release.handlerJobOf .createPullRequest settings ctx runsOn {}).permissions.get .contents
      = .write
    rw [permissions_handlerJobOf]
    decide
  cases (hwrites _ hmem .contents).mp (hgrant _ _ _) with
  | agent hagent => exact absurd (hname.symm.trans hagent) (by decide)
  | declared hconfig =>
    rw [hname] at hconfig
    rcases hconfig with hconfig | ⟨_, ⟨⟩, hconfig⟩ <;> cases hconfig
  | reaction hreacts =>
    rcases hreacts with hreacts | hreacts <;> exact absurd (hname.symm.trans hreacts) (by decide)
  | @handler outputs type houtputs _ _ _ _ hdetection =>
    cases houtputs
    obtain ⟨-, text, hcondition, hconjunct⟩ := hdetection rfl
    exact ⟨compiled, _, text, hcompiled, hget, hgrant _ _ _, hcondition,
      fun v => hconjunct.holdsText⟩

end Workflow

end AgentGate
