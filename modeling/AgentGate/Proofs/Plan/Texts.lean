import AgentGate.Plan.Outcome
import AgentGate.Proofs.Condition
import AgentGate.Proofs.Job.Texts
import AgentGate.Proofs.Json.Reader
import AgentGate.Proofs.Reference

/-!
# The texts that jobs are made of

Conditions, JSON values and steps are made from texts. What they are made into refers to nothing
else than these texts do, so that what is in view for the parts is all that has to be in view for
the whole.

- `View.Admits`: the conditions over texts that refer to what is in view.
- `View.Admits.resolves_text`: the written form of such a condition refers to what is in view.
- `View.Clears`: the steps whose texts refer to what is in view.
- `View.resolves_results`: the results of jobs in view, as a JSON object.
-/

namespace AgentGate

open Reference Text

/-! ## Names -/

theorem Reference.plain_literal {cs : List Char}
    (h : cs.all isNameChar = true ∧ Silent cs) : Plain (String.ofList cs) where
  chars := by
    rw [String.toList_ofList]
    exact List.all_eq_true.mp h.1
  silent := silent_literal h.2

theorem BuiltinJob.plain_name (builtin : BuiltinJob) : Plain builtin.name := by
  cases builtin <;> exact plain_literal (by decide)

theorem OutputType.plain_name (type : OutputType) : Plain type.name := by
  cases type <;> exact plain_literal (by decide)

/-- The outputs of the job of a type. -/
theorem OutputType.plain_of_mem_outputs {type : OutputType} {key : String}
    (h : key ∈ type.outputs) : Plain key := by
  have hall : ∀ key ∈ type.outputs, Plain key := by
    cases type <;> simp only [outputs, temporaryIdOutput, List.forall_mem_cons, List.not_mem_nil,
      IsEmpty.forall_iff, implies_true, and_true] <;> and_intros <;> exact plain_literal (by decide)
  exact hall key h

namespace View

variable {v : View} {s title action value key : String} {cs : List Char}

/-! ## Conditions -/

/-- Conditions over texts that refer to what is in view. -/
inductive Admits (v : View) : Condition → Prop where
  | raw {text : String} (h : v.Resolves text.toList) : v.Admits (.raw text)
  | not {inner : Condition} (h : v.Admits inner) : v.Admits (.not inner)
  | and {items : List Condition} (h : ∀ item ∈ items, v.Admits item) : v.Admits (.and items)
  | or {items : List Condition} (h : ∀ item ∈ items, v.Admits item) : v.Admits (.or items)

theorem Resolves.parenthesized (h : v.Resolves s.toList) :
    v.Resolves (Condition.parenthesized s).toList :=
  (h.literal_append (by decide)).append_literal (by decide)

/-- The written form of a condition refers to what its texts refer to: the operators around them are
separators. -/
theorem Admits.resolves_text {c : Condition} (h : v.Admits c) : v.Resolves c.text.toList := by
  have hoperand : ∀ {item : Condition}, v.Resolves item.text.toList →
      v.Resolves item.operand.toList := by
    intro item hitem
    rw [Condition.operand]
    split
    · exact hitem.parenthesized
    · exact hitem
  induction h with
  | raw h => exact h
  | not _ ih =>
    rw [Condition.text]
    refine Resolves.literal_append ?_ (by decide)
    split
    · exact ih
    · exact ih.parenthesized
  | and _ ih | or _ ih =>
    rw [Condition.text, Condition.operands_eq_map]
    refine resolves_intercalate_literal (by decide) fun text htext => ?_
    obtain ⟨item, hitem, rfl⟩ := List.mem_map.mp htext
    exact hoperand (ih item hitem)

theorem Admits.conj {items : List Condition} (h : ∀ item ∈ items, v.Admits item) :
    v.Admits (.conj items) := by
  have hjoined : ∀ item ∈ items.flatMap Condition.conjuncts, v.Admits item := by
    intro item hitem
    obtain ⟨outer, houter, hinner⟩ := List.mem_flatMap.mp hitem
    cases h outer houter with
    | and hitems => exact hitems item hinner
    | raw hraw => exact List.mem_singleton.mp hinner ▸ .raw hraw
    | not hnot => exact List.mem_singleton.mp hinner ▸ .not hnot
    | or hor => exact List.mem_singleton.mp hinner ▸ .or hor
  rw [Condition.conj]
  split
  case h_1 single heq => exact hjoined single (heq ▸ List.mem_singleton_self single)
  case h_2 joined _ => exact .and hjoined

theorem Admits.disj {items : List Condition} (h : ∀ item ∈ items, v.Admits item) :
    v.Admits (.disj items) := by
  have hjoined : ∀ item ∈ items.flatMap Condition.disjuncts, v.Admits item := by
    intro item hitem
    obtain ⟨outer, houter, hinner⟩ := List.mem_flatMap.mp hitem
    cases h outer houter with
    | or hitems => exact hitems item hinner
    | raw hraw => exact List.mem_singleton.mp hinner ▸ .raw hraw
    | not hnot => exact List.mem_singleton.mp hinner ▸ .not hnot
    | and hand => exact List.mem_singleton.mp hinner ▸ .and hand
  rw [Condition.disj]
  split
  case h_1 single heq => exact hjoined single (heq ▸ List.mem_singleton_self single)
  case h_2 joined _ => exact .or hjoined

theorem Admits.andAlso {first second : Condition} (hfirst : v.Admits first)
    (hsecond : v.Admits second) : v.Admits (first.andAlso second) :=
  .conj (List.forall_mem_cons.mpr ⟨hfirst, List.forall_mem_singleton.mpr hsecond⟩)

theorem admits_literal (h : Silent cs) : v.Admits (.raw (String.ofList cs)) :=
  .raw (resolves_literal h)

theorem admits_agentNotSkipped (hjob : v.jobs BuiltinJob.agent.name) :
    v.Admits .agentNotSkipped := by
  have h : v.Resolves
      ("needs." ++ BuiltinJob.agent.name ++ ".result" ++ " != 'skipped'").toList :=
    (resolves_result (BuiltinJob.plain_name .agent) hjob).append_literal (by decide)
  exact .raw (by simpa [BuiltinJob.name] using h)

theorem admits_afterAgent (hjob : v.jobs BuiltinJob.agent.name) : v.Admits .afterAgent :=
  .conj (List.forall_mem_cons.mpr
    ⟨admits_literal (by decide), List.forall_mem_singleton.mpr (admits_agentNotSkipped hjob)⟩)

/-- The name that is looked for is a text of its own. -/
theorem admits_outputNamePresent (hjob : v.jobs BuiltinJob.agent.name)
    (houtput : v.outputs BuiltinJob.agent.name "output_types") (hs : Silent s.toList) :
    v.Admits (.outputNamePresent s) := by
  have htypes : v.Resolves (Embedded.jobOutput BuiltinJob.agent.name "output_types").toList :=
    resolves_jobOutput (BuiltinJob.plain_name .agent) (plain_literal (by decide)) hjob houtput
  have hname : v.Resolves (s ++ "')").toList :=
    (Resolves.silent hs).append_literal (by decide)
  have h : v.Resolves ("contains(" ++ Embedded.jobOutput BuiltinJob.agent.name "output_types"
      ++ ", '" ++ (s ++ "')")).toList :=
    (htypes.literal_append (by decide)).join hname (by decide)
  exact .raw (by simpa [Embedded.jobOutput, BuiltinJob.name] using h)

theorem admits_detectionSucceeded (hjob : v.jobs BuiltinJob.detection.name)
    (houtput : v.outputs BuiltinJob.detection.name "success") : v.Admits .detectionSucceeded := by
  have hsuccess : v.Resolves (Embedded.jobOutput BuiltinJob.detection.name "success").toList :=
    resolves_jobOutput (BuiltinJob.plain_name .detection) (plain_literal (by decide)) hjob houtput
  have h : v.Resolves
      (Embedded.jobOutput BuiltinJob.detection.name "success" ++ " == 'true'").toList :=
    hsuccess.append_literal (by decide)
  exact .raw (by simpa [Embedded.jobOutput, BuiltinJob.name] using h)

/-- A condition that the verdict is joined to, where detection is active. -/
theorem Admits.vetted {own : Condition} {active : Bool} (h : v.Admits own)
    (hdetection : active = true → v.jobs BuiltinJob.detection.name
      ∧ v.outputs BuiltinJob.detection.name "success") :
    v.Admits (if active then own.andAlso .detectionSucceeded else own) := by
  split
  case isTrue hactive =>
    obtain ⟨hneeded, hgiven⟩ := hdetection hactive
    exact h.andAlso (admits_detectionSucceeded hneeded hgiven)
  case isFalse => exact h

theorem admits_safeOutput (hjob : v.jobs BuiltinJob.agent.name)
    (houtput : v.outputs BuiltinJob.agent.name "output_types") (type : OutputType) (min : Nat) :
    v.Admits (.safeOutput type min) := by
  rw [Condition.safeOutput]
  split
  · exact admits_afterAgent hjob
  · exact (admits_afterAgent hjob).andAlso
      (admits_outputNamePresent hjob houtput type.plain_name.silent)

theorem admits_conclusion (hjob : v.jobs BuiltinJob.agent.name)
    (houtput : v.outputs BuiltinJob.agent.name "output_types") (types : List OutputType) :
    v.Admits (.conclusion types) := by
  refine .conj (List.forall_mem_cons.mpr ⟨admits_literal (by decide), List.forall_mem_cons.mpr
    ⟨admits_agentNotSkipped hjob, fun item hitem => ?_⟩⟩)
  obtain ⟨type, -, rfl⟩ := List.mem_map.mp hitem
  exact .not (admits_outputNamePresent hjob houtput type.plain_name.silent)

theorem admits_trigger {type : OutputType} {trigger : Condition}
    (h : type.trigger? = some trigger) : v.Admits trigger := by
  cases type with
  | addComment | addLabels | pushToPullRequestBranch | createPrReviewComment =>
    cases h
    exact .disj (List.forall_mem_cons.mpr ⟨admits_literal (by decide),
      List.forall_mem_singleton.mpr (admits_literal (by decide))⟩)
  | createIssue | createDiscussion | createPullRequest | createCodeScanningAlert | createAgentTask
  | missingTool | noop => cases h

/-- The condition of a handler, where the outputs that it reads are in view. -/
theorem admits_conditionOf {ctx : HandlerContext} (hjob : v.jobs BuiltinJob.agent.name)
    (houtput : v.outputs BuiltinJob.agent.name "output_types")
    (hdetection : ctx.detectionActive = true → v.jobs BuiltinJob.detection.name
      ∧ v.outputs BuiltinJob.detection.name "success")
    (type : OutputType) (settings : OutputSettings) :
    v.Admits (HandlerStep.conditionOf type settings ctx) := by
  have hvetted : v.Admits (if ctx.detectionActive then
      (Condition.safeOutput type (settings.min.getD 0)).andAlso .detectionSucceeded
      else .safeOutput type (settings.min.getD 0)) :=
    (admits_safeOutput hjob houtput type (settings.min.getD 0)).vetted hdetection
  unfold HandlerStep.conditionOf
  dsimp only
  split
  case h_1 trigger htrigger =>
    split
    · exact hvetted.andAlso (admits_trigger htrigger)
    · exact hvetted
  case h_2 => exact hvetted

/-! ## JSON -/

end View

namespace Json

/-- The characters of names are written as they are. -/
theorem escape_of_isNameChar {c : Char} (h : isNameChar c = true) : escape c = [c] := by
  have hgraphic : 0x20 ≤ c.toNat := by
    rw [isNameChar, Bool.or_eq_true, Bool.or_eq_true, beq_iff_eq, beq_iff_eq] at h
    rcases h with (h | rfl) | rfl
    · grind [Char.isAlphanum, Char.isAlpha, Char.isUpper, Char.isLower, Char.isDigit, Char.toNat,
        UInt32.le_iff_toNat_le]
    · decide
    · decide
  rw [escape.eq_def]
  split
  case h_1 | h_2 | h_3 | h_4 | h_5 => exact absurd h (by decide)
  case h_6 => rw [if_neg (by omega), if_neg (by omega), if_neg (by omega)]

/-- A text that is written as it is, but for the quotes around it. -/
def Unescaped (s : String) : Prop :=
  ∀ c ∈ s.toList, escape c = [c]

variable {s e : String}

theorem unescaped_of_plain (h : Plain s) : Unescaped s := fun c hc =>
  escape_of_isNameChar (h.chars c hc)

theorem unescaped_literal {cs : List Char} (h : (cs.all fun c => decide (escape c = [c])) = true) :
    Unescaped (String.ofList cs) := by
  rw [Unescaped, String.toList_ofList]
  exact fun c hc => of_decide_eq_true (List.all_eq_true.mp h c hc)

theorem Unescaped.append (hs : Unescaped s) (he : Unescaped e) : Unescaped (s ++ e) := by
  rw [Unescaped, String.toList_append]
  exact List.forall_mem_append.mpr ⟨hs, he⟩

theorem quoted_of_unescaped (h : Unescaped s) : quoted s = '"' :: s.toList ++ ['"'] := by
  rw [quoted, List.flatMap_congr h, List.flatMap_singleton']

end Json

namespace View

variable {v : View} {s title action value key : String} {names : List String}

theorem Resolves.quoted (h : v.Resolves s.toList) (hunescaped : Json.Unescaped s) :
    v.Resolves (Json.quoted s) := by
  rw [Json.quoted_of_unescaped hunescaped]
  exact (h.silent_append ['"'] (by decide)).append_silent ['"'] (by decide)

/-- The results of jobs in view, by their names. -/
theorem resolves_results (h : ∀ name ∈ names, Plain name ∧ v.jobs name) :
    v.Resolves (Json.ofTable (Workflow.results names)).compact.toList := by
  rw [Json.compact, String.toList_ofList, Json.ofTable, Json.compactChars,
    Json.compactMembers_eq_map]
  refine ((resolves_intercalate [','] (by decide) fun item hitem => ?_).silent_append ['\x7b']
    (by decide)).append_silent ['\x7d'] (by decide)
  obtain ⟨⟨name, value⟩, hentry, rfl⟩ := List.mem_map.mp hitem
  obtain ⟨_, hname, heq⟩ :=
    List.mem_map.mp (Table.mem_of_get?_ofList (Table.get?_eq_some_iff.mpr hentry))
  cases heq
  obtain ⟨hplain, hjob⟩ := h name hname
  have hunescaped : Json.Unescaped (Embedded.embed ("needs." ++ name ++ ".result")) := by
    have hresult : Json.Unescaped ("needs." ++ name ++ ".result") :=
      ((Json.unescaped_literal (by decide)).append (Json.unescaped_of_plain hplain)).append
        (Json.unescaped_literal (by decide))
    exact ((Json.unescaped_literal (by decide)).append hresult).append
      (Json.unescaped_literal (by decide))
  exact .seam (by decide) ((Resolves.silent hplain.silent).quoted (Json.unescaped_of_plain hplain))
    ((resolves_result hplain hjob).embed.quoted hunescaped)

/-- Plain names, one after the other. -/
theorem resolves_texts (h : ∀ name ∈ names, Plain name) :
    v.Resolves (Json.texts names).compact.toList := by
  rw [Json.compact, String.toList_ofList, Json.texts, Json.compactChars, Json.compactItems_eq_map]
  refine ((resolves_intercalate [','] (by decide) fun item hitem => ?_).silent_append ['[']
    (by decide)).append_silent [']'] (by decide)
  obtain ⟨_, htext, rfl⟩ := List.mem_map.mp hitem
  obtain ⟨name, hname, rfl⟩ := List.mem_map.mp htext
  have hplain := h name hname
  exact (Resolves.silent hplain.silent).quoted (Json.unescaped_of_plain hplain)

/-! ## Tables and steps -/

theorem resolves_ofList {entries : List (String × String)}
    (h : ∀ entry ∈ entries, v.Resolves entry.2.toList) :
    ∀ value ∈ (Table.ofList entries).values, v.Resolves value.toList := by
  intro value hvalue
  obtain ⟨key, hentry⟩ := Table.mem_values_ofList hvalue
  exact h _ hentry

/-- The texts of a step refer to what is in view. -/
def Clears (v : View) (step : Step) : Prop :=
  ∀ text ∈ step.texts, v.Resolves text.toList

theorem clears_ofAction (htitle : v.Resolves title.toList) (haction : v.Resolves action.toList) :
    v.Clears (.ofAction title action) :=
  List.forall_mem_cons.mpr ⟨htitle, List.forall_mem_singleton.mpr haction⟩

theorem clears_ofScript (htitle : v.Resolves title.toList) (hscript : v.Resolves s.toList) :
    v.Clears (.ofScript title s) :=
  List.forall_mem_cons.mpr ⟨htitle, List.forall_mem_singleton.mpr hscript⟩

variable {step : Step}

theorem Clears.withId (h : v.Clears step) (id : String) : v.Clears (step.withId id) :=
  h

theorem Clears.withCondition (h : v.Clears step) (hs : v.Resolves s.toList) :
    v.Clears (step.withCondition s) := by
  intro text htext
  rcases Step.mem_texts_withCondition htext with rfl | htext
  · exact hs
  · exact h text htext

theorem Clears.withInput (h : v.Clears step) (hvalue : v.Resolves value.toList) :
    v.Clears (step.withInput key value) := by
  intro text htext
  rcases Step.mem_texts_withInput htext with rfl | htext
  · exact hvalue
  · exact h text htext

theorem Clears.withEnv (h : v.Clears step) (hvalue : v.Resolves value.toList) :
    v.Clears (step.withEnv key value) := by
  intro text htext
  rcases Step.mem_texts_withEnv htext with rfl | htext
  · exact hvalue
  · exact h text htext

theorem Clears.withInputs (h : v.Clears step) {inputs : Table String}
    (hinputs : ∀ value ∈ inputs.values, v.Resolves value.toList) :
    v.Clears { step with inputs } := fun text htext =>
  (Step.mem_texts_withInputs htext).elim (hinputs text) (h text)

theorem Clears.withVariables (h : v.Clears step) {env : Table String}
    (henv : ∀ value ∈ env.values, v.Resolves value.toList) : v.Clears { step with env } :=
  fun text htext => (Step.mem_texts_withVariables htext).elim (henv text) (h text)

/-- The step that runs an installed module. -/
theorem clears_ofModule {module : String} (htitle : v.Resolves title.toList)
    (hmodule : v.Resolves module.toList) : v.Clears (.ofModule title module) := by
  have hscript : v.Resolves (moduleScript module).toList :=
    (hmodule.literal_append (by decide)).append_literal (by decide)
  exact (clears_ofAction htitle (resolves_literal (by decide))).withInput hscript

theorem clears_checkout : v.Clears .checkout :=
  (clears_ofAction (resolves_literal (by decide)) (resolves_literal (by decide))).withInput
    (resolves_literal (by decide))

theorem clears_fetchStep {artifact directory : String} (htitle : v.Resolves title.toList)
    (hartifact : v.Resolves artifact.toList) (hdirectory : v.Resolves directory.toList) :
    v.Clears (Artifact.fetchStep title artifact directory) :=
  ((clears_ofAction htitle (resolves_literal (by decide))).withInput hartifact).withInput hdirectory

theorem clears_downloadStep {directory : String} (h : v.Resolves directory.toList) :
    v.Clears (Artifact.downloadStep directory) :=
  clears_fetchStep (resolves_literal (by decide)) (resolves_literal (by decide)) h

theorem clears_uploadStep {condition artifact path : String} (htitle : v.Resolves title.toList)
    (hcondition : v.Resolves condition.toList) (hartifact : v.Resolves artifact.toList)
    (hpath : v.Resolves path.toList) :
    v.Clears (Artifact.uploadStep title condition artifact path) :=
  (((clears_ofAction htitle (resolves_literal (by decide))).withCondition hcondition).withInput
    hartifact).withInput hpath

end View

end AgentGate
