import AgentGate.Proofs.Condition
import AgentGate.Proofs.Plan.Compile

/-!
# When the jobs of outputs run

Every job that carries an output out waits for the agent and, unless detection is turned off, for
detection. Its condition is one text; what that text says in a run is what the settings ask for.

- `HandlerStep.readable_conditionOf`, `HandlerStep.holds_conditionOf`: the condition of a handler.
- `SafeOutputs.carriesOut`: the names of the jobs that carry outputs out.
- `Workflow.compile_guards_outputs`: both for accepted workflows.
-/

namespace AgentGate

open Expression

variable {type : OutputType} {settings : OutputSettings} {ctx : HandlerContext}
  {outputs : SafeOutputs} {leaf : String → Bool} {name : String}

namespace Condition

theorem readable_outputTypePresent (type : OutputType) : (outputTypePresent type).Readable := by
  refine readable_outputNamePresent ?_
  cases type <;> decide

theorem readable_afterAgent : afterAgent.Readable := by
  refine .conj (List.cons_ne_nil _ _) (List.forall_mem_cons.mpr ⟨.raw rfl (by decide), ?_⟩)
  exact List.forall_mem_singleton.mpr readable_agentNotSkipped

theorem holds_afterAgent : afterAgent.holds leaf
    = (leaf "!cancelled()" && leaf "needs.agent.result != 'skipped'") := by
  rw [afterAgent, holds_conj, List.all_cons, List.all_cons, List.all_nil, Bool.and_true, holds_raw,
    agentNotSkipped, holds_raw]

theorem readable_safeOutput (type : OutputType) (min : Nat) : (safeOutput type min).Readable := by
  unfold safeOutput
  split
  · exact readable_afterAgent
  · exact readable_afterAgent.andAlso (readable_outputTypePresent type)

theorem holds_safeOutput (type : OutputType) (min : Nat) :
    (safeOutput type min).holds leaf = true
      ↔ leaf "!cancelled()" = true ∧ leaf "needs.agent.result != 'skipped'" = true
        ∧ (0 < min ∨ leaf ("contains(needs.agent.outputs.output_types, '" ++ type.name ++ "')")
          = true) := by
  unfold safeOutput
  split
  case isTrue hmin => rw [holds_afterAgent, Bool.and_eq_true, and_iff_left (Or.inl hmin)]
  case isFalse hmin =>
    rw [holds_andAlso, holds_afterAgent, Bool.and_eq_true, Bool.and_eq_true, and_assoc,
      or_iff_right hmin, outputTypePresent, outputNamePresent, holds_raw]

end Condition

/-! ## The condition of a handler -/

/-- Whether the triggering event carries the item that a type acts on, for the types that may act
on it. -/
def OutputType.itemPresent (leaf : String → Bool) : OutputType → Bool
  | addComment | addLabels =>
    leaf "github.event.issue.number" || leaf "github.event.pull_request.number"
  | pushToPullRequestBranch | createPrReviewComment =>
    leaf "github.event.pull_request.number" || leaf "github.event.issue.pull_request"
  | createIssue | createDiscussion | createPullRequest | createCodeScanningAlert | createAgentTask
  | missingTool | noop => true

/-- The item is present when the check for it says so. -/
theorem OutputType.itemPresent_eq (type : OutputType) (leaf : String → Bool) :
    type.itemPresent leaf = type.trigger?.elim true (Condition.holds leaf) := by
  have hdisj : ∀ first second : String,
      (Condition.disj [.raw first, .raw second]).holds leaf = (leaf first || leaf second) := by
    intro first second
    rw [Condition.holds_disj, List.any_cons, List.any_cons, List.any_nil, Bool.or_false,
      Condition.holds_raw, Condition.holds_raw]
  cases type with
  | addComment | addLabels | pushToPullRequestBranch | createPrReviewComment =>
    exact (hdisj _ _).symm
  | createIssue | createDiscussion | createPullRequest | createCodeScanningAlert | createAgentTask
  | missingTool | noop => rfl

theorem OutputType.readable_trigger {trigger : Condition} (h : type.trigger? = some trigger) :
    trigger.Readable := by
  have hdisj : ∀ {first second : String}, (Condition.raw first).Readable →
      (Condition.raw second).Readable →
      (Condition.disj [.raw first, .raw second]).Readable := fun hfirst hsecond =>
    .disj (List.cons_ne_nil _ _)
      (List.forall_mem_cons.mpr ⟨hfirst, List.forall_mem_singleton.mpr hsecond⟩)
  cases type with
  | addComment | addLabels | pushToPullRequestBranch | createPrReviewComment =>
    cases h
    exact hdisj (.raw rfl (by decide)) (.raw rfl (by decide))
  | createIssue | createDiscussion | createPullRequest | createCodeScanningAlert | createAgentTask
  | missingTool | noop => cases h

namespace HandlerStep

/-- The condition of a handler, written out, is an expression. -/
theorem readable_conditionOf (type : OutputType) (settings : OutputSettings)
    (ctx : HandlerContext) : (conditionOf type settings ctx).Readable := by
  have hvetted :=
    (Condition.readable_safeOutput type (settings.min.getD 0)).vetted ctx.detectionActive
  unfold conditionOf
  dsimp only
  split
  case h_1 trigger htrigger =>
    split
    · exact hvetted.andAlso (OutputType.readable_trigger htrigger)
    · exact hvetted
  case h_2 => exact hvetted

/-- What the condition of a handler says about its checks. -/
theorem holds_conditionOf : (conditionOf type settings ctx).holds leaf = true
    ↔ leaf "!cancelled()" = true ∧ leaf "needs.agent.result != 'skipped'" = true
      ∧ (0 < settings.min.getD 0
        ∨ leaf ("contains(needs.agent.outputs.output_types, '" ++ type.name ++ "')") = true)
      ∧ (ctx.detectionActive = true → leaf "needs.detection.outputs.success == 'true'" = true)
      ∧ (settings.targetsTriggering = true → type.itemPresent leaf = true) := by
  rw [OutputType.itemPresent_eq]
  unfold conditionOf
  dsimp only
  split
  case h_1 trigger htrigger =>
    rw [htrigger, Option.elim_some]
    split
    case isTrue htargets =>
      rw [Condition.holds_andAlso, Bool.and_eq_true, Condition.holds_vetted,
        Condition.holds_safeOutput, forall_prop_of_true htargets]
      simp only [and_assoc]
    case isFalse htargets =>
      rw [Condition.holds_vetted, Condition.holds_safeOutput, forall_prop_of_false htargets,
        and_true]
      simp only [and_assoc]
  case h_2 htrigger =>
    rw [htrigger, Option.elim_none, Condition.holds_vetted, Condition.holds_safeOutput]
    simp only [and_assoc, implies_true, and_true]

end HandlerStep

/-! ## Accepted workflows -/

/-- The names of the jobs that carry outputs out: those of types with a handler that are turned on,
and those of outputs of the workflow's own. -/
def SafeOutputs.CarriesOut (outputs : SafeOutputs) (registry : Registry) (name : String) : Prop :=
  (∃ type ∈ registry.types, outputs.isEnabled type = true ∧ type.name = name)
    ∨ ∃ config, outputs.jobs.get? name = some config

/-- Unless it is turned off, detection is active wherever there is an output to vet. -/
theorem SafeOutputs.detectionActive_of_carriesOut {registry : Registry}
    (hdetection : ∀ setting, outputs.threatDetection = some setting → setting.isEnabled = true)
    (h : outputs.CarriesOut registry name) : outputs.detectionActive = true := by
  unfold SafeOutputs.detectionActive
  -- Where nothing is said about detection, the output itself turns it on.
  split
  case h_1 setting hsetting => exact hdetection setting hsetting
  case h_2 =>
    rw [Bool.or_eq_true, Bool.not_eq_true', Bool.not_eq_true']
    rcases h with ⟨type, -, henabled, -⟩ | ⟨config, hconfig⟩
    · right
      rw [List.isEmpty_eq_false_iff]
      exact List.ne_nil_of_mem (List.mem_filter.mpr ⟨OutputType.mem_all type, henabled⟩)
    · left
      show outputs.jobs.entries.isEmpty = false
      rw [List.isEmpty_eq_false_iff]
      exact List.ne_nil_of_mem (Table.get?_eq_some_iff.mp hconfig)

theorem Valuation.holdsText_not_cancelled (v : Valuation) :
    v.holdsText "!cancelled()" = !v.holdsText "cancelled()" := by
  have hread : read "cancelled()" = some (.operand (["cancelled".toList].map .word
      ++ [.opening .round, .closing .round])) := rfl
  rw [show "!cancelled()" = "!" ++ "cancelled()" from rfl,
    v.holdsText_of_read (read_not hread (by decide)), v.holds_not, v.holdsText_of_read hread]

namespace Workflow

variable {w : Workflow} {registry : Registry} {engine : Engine} {options : CompileOptions}
  {compiled : Compiled}

/-- **Every output is vetted and asked for.** Unless detection is turned off, a graph with a job
that carries an output out has the detection job, and each such job needs both the agent and
detection itself. The condition of the job of a type is an expression, and in every run it holds
just when the run is not cancelled, the agent was not skipped, the type was asked for or a minimum
is to be enforced, detection found nothing where it is active, and the triggering event carries the
item that the type acts on where that is its target. -/
theorem compile_guards_outputs (h : w.compile registry engine options = .ok compiled)
    (houtputs : w.safeOutputs = some outputs) :
    ((∀ setting, outputs.threatDetection = some setting → setting.isEnabled = true) →
      ∀ name, outputs.CarriesOut registry name →
        (∃ needs, compiled.graph.get? "detection" = some
          { Detection.job w outputs engine (outputs.runsOn.getD (w.runner options)) with needs })
        ∧ ∃ job, compiled.graph.get? name = some job
          ∧ "agent" ∈ job.needs ∧ "detection" ∈ job.needs) ∧
    ∀ type ∈ registry.types, ∀ settings, outputs.settings? type = some settings →
      ∃ job text, compiled.graph.get? type.name = some job ∧ job.condition = some text
        ∧ (read text).isSome = true ∧ ∀ v : Valuation, v.holdsText text = true ↔
          v.holdsText "cancelled()" = false
          ∧ v.holdsText "needs.agent.result != 'skipped'" = true
          ∧ (0 < settings.min.getD 0 ∨ v.holdsText
            ("contains(needs.agent.outputs.output_types, '" ++ type.name ++ "')") = true)
          ∧ (outputs.detectionActive = true
            → v.holdsText "needs.detection.outputs.success == 'true'" = true)
          ∧ (settings.target = none ∨ settings.target = some .triggering
            → type.itemPresent v.holdsText = true) := by
  constructor
  · intro hdetection name hname
    have hactive := SafeOutputs.detectionActive_of_carriesOut hdetection hname
    refine ⟨exists_get?_detection h houtputs hactive, ?_⟩
    have hneeds : ∀ {job : Job}, CustomJob.outputNeeds outputs.detectionActive ⊆ job.needs →
        "agent" ∈ job.needs ∧ "detection" ∈ job.needs := by
      intro job hsubset
      rw [hactive] at hsubset
      exact ⟨hsubset List.mem_cons_self, hsubset (List.mem_cons_of_mem _ List.mem_cons_self)⟩
    rcases hname with ⟨type, htype, henabled, rfl⟩ | ⟨config, hconfig⟩
    · obtain ⟨settings, hset⟩ := Option.isSome_iff_exists.mp henabled
      obtain ⟨job, hget, -, hsubset⟩ := exists_get?_of_handler h houtputs htype hset
      exact ⟨job, hget, hneeds hsubset⟩
    · obtain ⟨job, hget, -, hsubset⟩ := exists_get?_of_customOutput h houtputs hconfig
      exact ⟨job, hget, hneeds hsubset⟩
  · intro type htype settings hset
    obtain ⟨job, hget, hcondition, -⟩ := exists_get?_of_handler h houtputs htype hset
    -- The written condition says what the tree says, and the tree is taken apart check by check.
    have hreadable := HandlerStep.readable_conditionOf type settings
      (HandlerContext.ofRegistry registry outputs outputs.detectionActive)
    obtain ⟨e, hread, -⟩ := hreadable.readAs
    refine ⟨job, _, hget, hcondition, by rw [hread]; rfl, fun v => ?_⟩
    rw [hreadable.holdsText_text, HandlerStep.holds_conditionOf, v.holdsText_not_cancelled,
      Bool.not_eq_true']
    have htargets : settings.targetsTriggering = true
        ↔ settings.target = none ∨ settings.target = some .triggering := by
      rw [OutputSettings.targetsTriggering, Bool.or_eq_true, decide_eq_true_iff, decide_eq_true_iff]
    rw [htargets]
    rfl

/-- A job that notifies somebody. -/
def notification (condition : Option String) : CustomJob :=
  { condition, steps := [Step.ofScript "Notify" "./notify.sh"] }

/-- A comment may be asked for, and a notification under a condition of its own. -/
def triageOutputs (condition : Option String) : SafeOutputs where
  types type := if type = .addComment then .enabled {} else .absent
  jobs := Table.ofList [("notify", notification condition)]

/-- A workflow with these outputs. -/
def triage (condition : Option String) : Workflow :=
  { name := "Triage", safeOutputs := some (triageOutputs condition) }

/-- The jobs of that workflow, each after what it may need. -/
def triageOrder : List String :=
  ["activation", "agent", "detection", "notify", "add_comment", "conclusion"]

theorem triage_guards_outputs :
    ∃ compiled, (triage none).compile .default ⟨Engine.defaultCommand⟩ {} = .ok compiled
      ∧ (∃ job, compiled.graph.get? "notify" = some job
        ∧ "agent" ∈ job.needs ∧ "detection" ∈ job.needs)
      ∧ ∃ job text, compiled.graph.get? "add_comment" = some job ∧ job.condition = some text
        ∧ ∀ v : Valuation, v.holdsText text = true →
          v.holdsText "needs.detection.outputs.success == 'true'" = true
          ∧ (v.holdsText "github.event.issue.number"
            || v.holdsText "github.event.pull_request.number") = true := by
  have hfits : (triage none).fitsOrder .default ⟨Engine.defaultCommand⟩ {} triageOrder = true := by
    decide +kernel
  obtain ⟨compiled, hcompiled⟩ := exists_compile_of_fitsOrder hfits
  obtain ⟨hneeds, hconditions⟩ := compile_guards_outputs hcompiled rfl
  refine ⟨compiled, hcompiled, ?_, ?_⟩
  · exact (hneeds (fun _ h => nomatch h) "notify" (.inr ⟨_, rfl⟩)).2
  · obtain ⟨job, text, hget, hcondition, -, hholds⟩ :=
      hconditions .addComment (by decide) {} rfl
    refine ⟨job, text, hget, hcondition, fun v htext => ?_⟩
    obtain ⟨-, -, -, hdetection, hitem⟩ := (hholds v).mp htext
    exact ⟨hdetection rfl, hitem (.inl rfl)⟩

end Workflow

end AgentGate
