import AgentGate.Proofs.Json.Reader
import AgentGate.Proofs.Plan.Outcome
import AgentGate.Proofs.Plan.Registration

/-!
# What the conclusion is about

The names that a workflow chooses stand beside those of built-in jobs and of output types. In an
accepted workflow none of them is lost and none stands twice. The conclusion comes last and is about
the jobs of outputs in three ways, made from separate lists: it needs them, it reports their
results, and it leaves the report to some of them.

- `SafeOutputs.outputJobs`: the jobs of outputs, in order.
- `Workflow.ofText?_results`: the reported results are one for each job.
- `Condition.holdsText_conclusion`: when the conclusion runs.
- `Workflow.compile_conclusion`: the jobs of an accepted workflow, and its conclusion.
-/

namespace AgentGate

open Expression

/-- The jobs of outputs: those of types with a handler that are turned on, in the order of the
registry, and then those of outputs of the workflow's own, in the order of their names. -/
def SafeOutputs.outputJobs (outputs : SafeOutputs) (registry : Registry) : List String :=
  (registry.types.filter outputs.isEnabled).map OutputType.name ++ outputs.jobs.keys

/-- The reference to the result of a job. -/
def resultOf (job : String) : String :=
  "$\x7b\x7b needs." ++ job ++ ".result \x7d\x7d"

theorem embed_result (job : String) :
    Embedded.embed ("needs." ++ job ++ ".result") = resultOf job := by
  have hbefore : "$\x7b\x7b needs." = "$\x7b\x7b " ++ "needs." := rfl
  have hafter : ".result \x7d\x7d" = ".result" ++ " \x7d\x7d" := rfl
  rw [Embedded.embed, resultOf, hbefore, hafter]
  simp only [String.append_assoc]

/-! ## When the conclusion runs -/

theorem OutputType.reportsItself_iff {type : OutputType} : type.reportsItself = true
    ↔ type ∈ [addComment, createPullRequest, pushToPullRequestBranch] := by
  cases type <;> decide

namespace Condition

theorem readable_conclusion (types : List OutputType) : (conclusion types).Readable := by
  rw [conclusion_eq]
  refine .and (List.cons_ne_nil _ _) (List.forall_mem_cons.mpr ⟨.raw rfl (by decide), ?_⟩)
  refine List.forall_mem_cons.mpr ⟨readable_agentNotSkipped, fun item hitem => ?_⟩
  obtain ⟨type, -, rfl⟩ := List.mem_map.mp hitem
  exact .not (readable_outputTypePresent type)

/-- The conclusion runs when the agent was not skipped and asked for none of some types. -/
theorem holdsText_conclusion (types : List OutputType) (v : Valuation) :
    v.holdsText (conclusion types).text = true
      ↔ v.holdsText "always()" = true ∧ v.holdsText "needs.agent.result != 'skipped'" = true
        ∧ ∀ type ∈ types,
          v.holdsText ("contains(needs.agent.outputs.output_types, '" ++ type.name ++ "')")
            = false := by
  rw [(readable_conclusion types).holdsText_text, conclusion_eq, holds_and, List.all_cons,
    List.all_cons, Bool.and_eq_true, Bool.and_eq_true, List.all_map, List.all_eq_true,
    agentNotSkipped, holds_raw, holds_raw]
  simp only [Function.comp_apply, holds_not, Bool.not_eq_true', outputTypePresent,
    outputNamePresent, holds_raw]

end Condition

/-! ## What the conclusion reports -/

namespace Workflow

variable {w : Workflow} {registry : Registry} {engine : Engine} {options : CompileOptions}
  {compiled : Compiled} {outputs : SafeOutputs} {runsOn : String}

/-- The results, written on one line, are read as one member for each job. -/
theorem ofText?_results {jobs : List String} (hjobs : jobs.Nodup) :
    ∃ members, Json.ofText? (Json.ofTable (results jobs)).compact = some (.object members)
      ∧ members.Perm (jobs.map fun name => (name, .text (resultOf name))) := by
  have hkeys : ((jobs.map fun name => (name, Json.text (resultOf name))).map Prod.fst).Nodup := by
    rw [List.map_map]
    exact (List.map_id jobs).symm ▸ hjobs
  have hperm : (results jobs).entries.Perm
      (jobs.map fun name => (name, .text (resultOf name))) := by
    simp only [results, embed_result]
    exact Table.entries_ofList_perm hkeys
  refine ⟨(results jobs).entries, Json.ofText?_compact (.object fun entry hentry => ?_), hperm⟩
  obtain ⟨name, -, rfl⟩ := List.mem_map.mp (hperm.mem_iff.mp hentry)
  exact .text (resultOf name)

/-- Only the summary reports results. -/
theorem reports_conclusionJob (w : Workflow) (runsOn : String) (types : List OutputType)
    (custom : List String) :
    (w.conclusionJob runsOn types custom).steps.filterMap
        (fun step => step.env.get? "GH_AW_SAFE_OUTPUT_RESULTS")
      = [(Json.ofTable (results (types.map OutputType.name ++ custom))).compact] := by
  have hsummary : ∀ jobs, (w.summaryStep jobs).env.get? "GH_AW_SAFE_OUTPUT_RESULTS"
      = some (Json.ofTable (results jobs)).compact := fun jobs =>
    Table.get?_insert _ _ _ _
  have hcompletion : w.completionStep.env.get? "GH_AW_SAFE_OUTPUT_RESULTS" = none := by
    simp [completionStep, Step.withEnv, Step.withCondition, Step.ofModule, Step.ofAction,
      Step.withInput]
  have hdownload : (Artifact.downloadStep Artifact.outputDirectory).env.get?
      "GH_AW_SAFE_OUTPUT_RESULTS" = none := rfl
  simp only [conclusionJob, List.filterMap_append, List.filterMap_cons, hdownload, hsummary,
    List.filterMap_nil]
  split
  case isTrue => simp only [List.filterMap_cons, hcompletion, List.filterMap_nil, List.append_nil]
  case isFalse => rfl

/-! ## The jobs of an accepted workflow -/

theorem hasPreActivation_iff : w.hasPreActivation = true
    ↔ w.command.isSome = true ∨ w.stopTime.isSome = true ∨ ∃ name, w.IsEarly name := by
  rw [hasPreActivation, Bool.or_eq_true, Bool.or_eq_true, Bool.not_eq_true',
    List.isEmpty_eq_false_iff_exists_mem, or_assoc]
  simp only [mem_earlyJobs_iff]

/-- **The jobs of an accepted workflow and its conclusion.** The jobs are, in this order and each of
them once: the job before activation, just when there is a command, a stop time or a job that asks
to run early; activation; the agent; the jobs of the workflow's own; and where outputs are
configured, detection if it is active, the jobs of outputs, and the conclusion. The conclusion needs
the agent, activation and the jobs of outputs, each once. In one of its steps it reports the results
of these jobs, as a JSON object with one member for each that refers to the result of that job. And
given that `always()` holds, it runs just when the agent was not skipped and asked for no output
that is emitted by a job which reports for itself. -/
theorem compile_conclusion (h : w.compile registry engine options = .ok compiled) :
    (compiled.graph.names
        = (if w.hasPreActivation then ["pre_activation"] else []) ++ ["activation", "agent"]
          ++ w.jobs.keys
          ++ (match w.safeOutputs with
            | none => []
            | some outputs => (if outputs.detectionActive then ["detection"] else [])
              ++ outputs.outputJobs registry ++ ["conclusion"])
      ∧ compiled.graph.names.Nodup
      ∧ (w.hasPreActivation = true
        ↔ w.command.isSome = true ∨ w.stopTime.isSome = true ∨ ∃ name, w.IsEarly name))
    ∧ ∀ outputs, w.safeOutputs = some outputs →
      ∃ job, compiled.graph.get? "conclusion" = some job
        ∧ job.needs = ["agent", "activation"] ++ outputs.outputJobs registry
        ∧ job.needs.Nodup
        ∧ (∃ text members,
          job.steps.filterMap (fun step => step.env.get? "GH_AW_SAFE_OUTPUT_RESULTS") = [text]
            ∧ Json.ofText? text = some (.object members)
            ∧ members.Perm ((outputs.outputJobs registry).map fun name =>
              (name, .text ("$\x7b\x7b needs." ++ name ++ ".result \x7d\x7d"))))
        ∧ ∃ text, job.condition = some text ∧ ∀ v : Valuation, v.holdsText "always()" = true →
          (v.holdsText text = true
            ↔ v.holdsText "needs.agent.result != 'skipped'" = true
              ∧ ∀ type ∈ [OutputType.addComment, .createPullRequest, .pushToPullRequestBranch],
                outputs.Emits registry type →
                v.holdsText ("contains(needs.agent.outputs.output_types, '" ++ type.name ++ "')")
                  = false) := by
  refine ⟨⟨?_, compiled.graph.distinct, hasPreActivation_iff⟩, fun outputs houtputs => ?_⟩
  · rw [names_of_compile h, plannedNames]
    cases w.safeOutputs with
    | none => rfl
    | some outputs =>
      rw [Option.toList_some, List.flatMap_singleton, outcomeNames,
        List.append_assoc _ _ outputs.jobs.keys]
      rfl
  · have hget := get?_of_planned h (.conclusion houtputs)
    rw [Job.wired_of_reserves _ rfl] at hget
    have hneeds : (w.conclusionJob (w.outcomeRunner outputs options)
        (registry.types.filter outputs.isEnabled) outputs.jobs.keys).needs.Nodup :=
      nodup_needs_conclusionJob h houtputs
    refine ⟨_, hget, rfl, hneeds, ?_, _, rfl, fun v halways => ?_⟩
    · have hjobs : (outputs.outputJobs registry).Nodup :=
        (List.nodup_cons.mp (List.nodup_cons.mp hneeds).2).2
      obtain ⟨members, hread, hperm⟩ := ofText?_results hjobs
      exact ⟨_, members, reports_conclusionJob _ _ _ _, hread, hperm⟩
    · rw [Condition.holdsText_conclusion, and_iff_right halways]
      refine and_congr_right fun _ => ?_
      have hmem : ∀ type, type ∈ (registry.types.filter outputs.isEnabled).filter
          OutputType.reportsItself
          ↔ type ∈ [OutputType.addComment, .createPullRequest, .pushToPullRequestBranch]
            ∧ outputs.Emits registry type := by
        intro type
        rw [List.mem_filter, List.mem_filter, OutputType.reportsItself_iff, and_comm]
        rfl
      simp only [hmem, and_imp]

/-- A run in which the agent asks for outputs of some types. -/
def asking (types : List OutputType) : Valuation where
  Value := Bool
  truthy b := b
  ofBool b := b
  truthy_ofBool _ := rfl
  operand tokens :=
    tokens = [.word "always".toList, .opening .round, .closing .round]
      || types.any fun type => tokens = Condition.askedTokens type.name.toList
  compare _ _ _ := true

theorem release_conclusion :
    ∃ compiled, release.compile .default ⟨Engine.defaultCommand⟩ {} = .ok compiled
      ∧ compiled.graph.names = ["pre_activation", "activation", "agent", "lint", "detection",
        "create_issue", "add_comment", "create_pull_request", "conclusion"]
      ∧ ∃ job text, compiled.graph.get? "conclusion" = some job
        ∧ job.needs = ["agent", "activation", "create_issue", "add_comment", "create_pull_request"]
        ∧ job.condition = some text
        ∧ (asking [.createIssue]).holdsText text = true
        ∧ (asking [.createIssue, .addComment]).holdsText text = false := by
  obtain ⟨compiled, hcompiled⟩ := exists_compile_release
  obtain ⟨⟨hnames, -⟩, hconclusion⟩ := compile_conclusion hcompiled
  obtain ⟨job, hget, hneeds, -, -, text, htext, hholds⟩ := hconclusion _ rfl
  refine ⟨compiled, hcompiled, ?_, job, text, hget, ?_, htext, ?_, ?_⟩
  · rw [hnames]
    decide +kernel
  · rw [hneeds]
    decide +kernel
  · refine (hholds _ (by decide +kernel)).mpr ⟨by decide +kernel, fun type htype _ => ?_⟩
    have hall : [OutputType.addComment, .createPullRequest, .pushToPullRequestBranch].all
        (fun type => !(asking [.createIssue]).holdsText
          ("contains(needs.agent.outputs.output_types, '" ++ type.name ++ "')")) = true := by
      decide +kernel
    have hunasked := List.all_eq_true.mp hall type htype
    rwa [Bool.not_eq_true'] at hunasked
  · rw [← Bool.not_eq_true, hholds _ (by decide +kernel)]
    rintro ⟨-, hnone⟩
    have hcomment := hnone .addComment (by decide) ⟨by decide, rfl⟩
    exact absurd hcomment (by decide +kernel)

end Workflow

end AgentGate
