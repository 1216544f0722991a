import AgentGate.Proofs.Condition.Leaves
import AgentGate.Proofs.Plan.Accepted
import AgentGate.Proofs.Plan.Strings
import AgentGate.Proofs.Text.Mentions

/-!
# What does not mention the minted token

A text uses the minted token by a reference to the step that mints it. Where nothing that a workflow
is given mentions this step, the variables of a handler do not refer to it either, whatever they are
made of, nor does its condition: numbers and slugs have no dot, and names and operators no hyphen.

- `Token.reference`: how a text refers to the step.
- `Workflow.IgnoresMint`: nothing that is given mentions the step.
- `HandlerStep.Source.not_mentions`: variables that are made from settings and from the workflow.
- `HandlerStep.not_mentions_reads`: variables that read other jobs.
- `HandlerStep.not_mentions_condition`: the condition of a handler.
-/

namespace AgentGate

open Text

namespace Token

/-- How a text refers to the step that mints a token. -/
def reference : String := "steps." ++ mintId

theorem mentions_mintId : Mentions mintId reference := by
  decide +kernel

end Token

/-! ## Built-in names -/

theorem OutputType.hyphen_notMem_name (type : OutputType) : '-' ∉ type.name.toList := by
  cases type <;> decide

theorem OutputType.name_ne_mintId (type : OutputType) : type.name ≠ Token.mintId := fun heq =>
  type.hyphen_notMem_name (heq ▸ by decide)

theorem OutputType.hyphen_notMem_of_mem_outputs {type : OutputType} {key : String}
    (h : key ∈ type.outputs) : '-' ∉ key.toList := by
  revert key
  cases type <;> decide

namespace Token

variable {text : String}

theorem not_mentions_of_hyphen_notMem (h : '-' ∉ text.toList) : ¬Mentions reference text :=
  fun hmention => h (hmention.mem (by decide))

theorem not_mentions_of_dot_notMem (h : '.' ∉ text.toList) : ¬Mentions reference text :=
  fun hmention => h (hmention.mem (by decide))

/-- An output of a job, where neither name has a hyphen in it. -/
theorem not_mentions_expression {ref : OutputRef} (hjob : '-' ∉ ref.job.toList)
    (houtput : '-' ∉ ref.output.toList) : ¬Mentions reference ref.expression :=
  not_mentions_of_hyphen_notMem (by
    simp [OutputRef.expression, Embedded.embed, Embedded.jobOutput, hjob, houtput])

/-- An output of another step, where neither name has a hyphen in it. -/
theorem not_mentions_embed_stepOutput {step output : String} (hstep : '-' ∉ step.toList)
    (houtput : '-' ∉ output.toList) :
    ¬Mentions reference (Embedded.embed (Embedded.stepOutput step output)) :=
  not_mentions_of_hyphen_notMem (by
    simp [Embedded.embed, Embedded.stepOutput, hstep, houtput])

end Token

/-! ## What is given -/

namespace Workflow

/-- The strings that a workflow and its surroundings give to its jobs. -/
def given (w : Workflow) (options : CompileOptions) : List String :=
  w.strings ++ w.runsOn.toList ++ (w.safeOutputs.bind SafeOutputs.runsOn).toList ++ [options.runsOn]

/-- Nothing that is given mentions the step that mints a token. -/
def IgnoresMint (w : Workflow) (options : CompileOptions) : Prop :=
  ∀ s ∈ w.given options, ¬Mentions Token.mintId s

variable {w : Workflow} {options : CompileOptions} {outputs : SafeOutputs} {s : String}

theorem IgnoresMint.not_mentions (h : w.IgnoresMint options) (hs : s ∈ w.given options) :
    ¬Mentions Token.reference s :=
  fun hmention => h s hs (Token.mentions_mintId.trans hmention)

theorem IgnoresMint.of_strings (h : w.IgnoresMint options) (hs : s ∈ w.strings) :
    ¬Mentions Token.reference s :=
  h.not_mentions (List.mem_append_left _ (List.mem_append_left _ (List.mem_append_left _ hs)))

theorem IgnoresMint.outcomeRunner (h : w.IgnoresMint options)
    (houtputs : w.safeOutputs = some outputs) :
    ¬Mentions Token.reference (w.outcomeRunner outputs options) := by
  refine h.not_mentions ?_
  rw [Workflow.outcomeRunner, runner]
  cases hrunner : outputs.runsOn with
  | some runsOn => simp [given, houtputs, hrunner]
  | none =>
    cases hrunner : w.runsOn with
    | some runsOn => simp [given, hrunner]
    | none => simp [given]

/-- An identifier that is a slug has no dot in it. -/
theorem IgnoresMint.id (h : w.IgnoresMint options) : ¬Mentions Token.reference w.id := by
  rcases w.id_cases with hid | ⟨s, hslug⟩
  · exact h.of_strings (by simp [strings, hid])
  · rw [hslug]
    refine Token.not_mentions_of_dot_notMem fun hdot => ?_
    exact absurd (mem_slug hdot) (by decide)

theorem IgnoresMint.fileName (h : w.IgnoresMint options) :
    ¬Mentions Token.reference w.fileName :=
  not_mentions_append h.id (by decide +kernel) (by decide +kernel)

end Workflow

namespace HandlerStep

variable {type : OutputType} {settings : OutputSettings} {w : Workflow} {ctx : HandlerContext}
  {registry : Registry} {options : CompileOptions} {outputs : SafeOutputs} {value : String}

/-- The settings and the workflow do not mention the minted token, nor does what is made of them. -/
theorem Source.not_mentions (hignores : w.IgnoresMint options)
    (hsettings : ∀ s ∈ settings.strings, s ∈ w.strings) (h : Source settings w value) :
    ¬Mentions Token.reference value := by
  have hbuiltin : ∀ s ∈ builtinValues, ¬Mentions Token.reference s := by
    decide +kernel
  cases h with
  | setting h => exact hignores.of_strings (hsettings _ h)
  | workflow h =>
    refine hignores.of_strings ?_
    simp only [List.cons_append, List.mem_cons, List.mem_append] at h
    rcases h with rfl | (h | h) | h <;> simp [Workflow.strings, *]
  | listing h =>
    intro hmention
    obtain ⟨item, hitem, hmention⟩ := exists_of_mentions_listing (by decide) (by decide) hmention
    exact hignores.of_strings (hsettings item (h item hitem)) hmention
  | id => exact hignores.id
  | fileName => exact hignores.fileName
  | number n =>
    exact Token.not_mentions_of_dot_notMem fun hdot =>
      absurd (isDigit_of_mem_toString hdot) (by decide)
  | builtin h => exact hbuiltin _ h

/-- What a handler reads are outputs of jobs. -/
theorem not_mentions_reads {entry : String × OutputRef}
    (h : entry ∈ reads type w (Workflow.context registry outputs)) :
    ¬Mentions Token.reference entry.2.expression := by
  rcases List.mem_append.mp h with h | h
  · rcases Workflow.mem_itemReads_iff.mp h with ⟨-, item, hitem, -, rfl⟩ | ⟨-, -, rfl⟩
    · have hcreated : ∀ item ∈ createdItems, '-' ∉ item.2.2.toList := by
        decide
      exact Token.not_mentions_expression item.1.hyphen_notMem_name (hcreated item hitem)
    · exact Token.not_mentions_expression (OutputType.hyphen_notMem_name _) (by decide)
  · rw [commentReads] at h
    split at h
    · rcases List.mem_pair.mp h with rfl | rfl
      · exact Token.not_mentions_expression (by decide) (by decide)
      · exact Token.not_mentions_expression (by decide) (by decide)
    · cases h

/-- No text in the condition of a handler has a hyphen in it. -/
theorem notMem_leaves_conditionOf :
    ∀ leaf ∈ (conditionOf type settings ctx).leaves, '-' ∉ leaf.toList := by
  have hjoin : ∀ {first second : Condition}, (∀ leaf ∈ first.leaves, '-' ∉ leaf.toList) →
      (∀ leaf ∈ second.leaves, '-' ∉ leaf.toList) →
      ∀ leaf ∈ (first.andAlso second).leaves, '-' ∉ leaf.toList := by
    intro first second hfirst hsecond
    rw [Condition.leaves_andAlso]
    exact List.forall_mem_append.mpr ⟨hfirst, hsecond⟩
  have hagent : ∀ leaf ∈ Condition.afterAgent.leaves, '-' ∉ leaf.toList := by
    simp [Condition.afterAgent, Condition.agentNotSkipped]
  have hpresent : ∀ leaf ∈ (Condition.outputTypePresent type).leaves, '-' ∉ leaf.toList := by
    simp [Condition.outputTypePresent, Condition.outputNamePresent, type.hyphen_notMem_name]
  have hverdict : ∀ leaf ∈ Condition.detectionSucceeded.leaves, '-' ∉ leaf.toList := by
    simp [Condition.detectionSucceeded]
  have htrigger : ∀ trigger, type.trigger? = some trigger →
      ∀ leaf ∈ trigger.leaves, '-' ∉ leaf.toList := by
    cases type <;> rintro _ ⟨⟩ <;>
      simp [Condition.triggeredByIssueOrPullRequest, Condition.triggeredByPullRequest]
  have hasked : ∀ leaf ∈ (Condition.safeOutput type (settings.min.getD 0)).leaves,
      '-' ∉ leaf.toList := by
    rw [Condition.safeOutput]
    split
    · exact hagent
    · exact hjoin hagent hpresent
  have hvetted : ∀ leaf ∈ (if ctx.detectionActive then
      (Condition.safeOutput type (settings.min.getD 0)).andAlso .detectionSucceeded
      else .safeOutput type (settings.min.getD 0)).leaves, '-' ∉ leaf.toList := by
    split
    · exact hjoin hasked hverdict
    · exact hasked
  unfold conditionOf
  dsimp only
  split
  case h_1 trigger hgiven =>
    split
    · exact hjoin hvetted (htrigger trigger hgiven)
    · exact hvetted
  case h_2 => exact hvetted

theorem not_mentions_condition :
    ¬Mentions Token.reference (conditionOf type settings ctx).text := by
  intro hmention
  rcases Condition.mem_text (hmention.mem (by decide : '-' ∈ Token.reference.toList)) with
    hoperator | ⟨leaf, hleaf, h⟩
  · exact absurd hoperator (by decide)
  · exact notMem_leaves_conditionOf leaf hleaf h

end HandlerStep

end AgentGate
