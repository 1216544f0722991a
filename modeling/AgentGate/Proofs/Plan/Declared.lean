import AgentGate.Proofs.Plan.Outcome

/-!
# When the jobs of a workflow's own outputs run

A job for an output of the workflow's own runs under a condition of its own, to which the check that
detection found nothing is joined by `&&`. The condition is joined as the workflow writes it. Where
it has a `||` outside of brackets, only the alternative behind the last one is checked.

- `CustomJob.ownText`: the condition of the job's own, written out.
- `CustomJob.text_outputCondition`: how the check is joined to it.
- `Workflow.compile_guards_customOutput_iff`: when the joined check guards the whole condition.
-/

namespace AgentGate

open Expression

variable {name : String} {config : CustomJob}

namespace CustomJob

/-- The condition that a job for an output declares, or else that the run goes on, the agent ran and
asked for the output. -/
def ownText (config : CustomJob) (name : String) : String :=
  config.condition.getD ("!cancelled() && needs.agent.result != 'skipped' && "
    ++ "contains(needs.agent.outputs.output_types, '" ++ name ++ "')")

/-- The check is written behind the condition of the job's own. -/
theorem text_outputCondition (config : CustomJob) (name : String) :
    (config.outputCondition name true).text
      = config.ownText name ++ " && " ++ "needs.detection.outputs.success == 'true'" := by
  unfold outputCondition ownText
  cases config.condition with
  | some given => rfl
  | none => rfl

/-- A job that declares no condition has one without alternatives, unless its name has quotes. -/
theorem read_ownText_of_none (hnone : config.condition = none) (hname : '\'' ∉ name.toList) :
    ∃ e, read (config.ownText name) = some e ∧ e.early? = none := by
  have hreadable : (Condition.and [.raw "!cancelled()", .agentNotSkipped,
      .outputNamePresent name]).Readable := by
    refine .and (List.cons_ne_nil _ _) ?_
    refine List.forall_mem_cons.mpr ⟨.raw rfl (by decide), List.forall_mem_cons.mpr
      ⟨Condition.readable_agentNotSkipped, List.forall_mem_singleton.mpr ?_⟩⟩
    exact Condition.readable_outputNamePresent hname
  obtain ⟨e, hread, hlevel, -⟩ := hreadable.readAs
  refine ⟨e, ?_, early?_of_level hlevel⟩
  rw [ownText, hnone]
  exact hread

end CustomJob

/-- Behind a text, the check that detection found nothing joins its last alternative. -/
theorem read_and_detection (text : String) :
    ∃ gate, read "needs.detection.outputs.success == 'true'" = some gate
      ∧ read (text ++ " && " ++ "needs.detection.outputs.success == 'true'")
        = (read text).map (andLast · gate) := by
  obtain ⟨gate, hgate⟩ :
      ∃ gate, read "needs.detection.outputs.success == 'true'" = some gate ∧ 2 ≤ gate.level :=
    ⟨_, rfl, by decide⟩
  exact ⟨gate, hgate.1, read_and hgate.1 hgate.2 text⟩

namespace Workflow

variable {w : Workflow} {registry : Registry} {engine : Engine} {options : CompileOptions}
  {compiled : Compiled} {outputs : SafeOutputs}

/-- **When the check guards a condition of the workflow's own.** Where detection is active, the job
for an output of the workflow's own runs under a text that is an expression just when the job's own
condition is one, and that holds just when an alternative before the last one does, or the job's own
condition does and detection found nothing. So the text implies that detection found nothing, and is
the conjunction of the two, exactly when the alternatives before the last one imply it; in
particular when the job's own condition has no `||` outside of brackets, as it has none where the
job declares none and has no quote in its name. -/
theorem compile_guards_customOutput_iff
    (h : w.compile registry engine options = .ok compiled) (houtputs : w.safeOutputs = some outputs)
    (hactive : outputs.detectionActive = true) (hconfig : outputs.jobs.get? name = some config) :
    ∃ job text, compiled.graph.get? name = some job ∧ job.condition = some text
      ∧ ((read text).isSome = true ↔ (read (config.ownText name)).isSome = true)
      ∧ (∀ own, read (config.ownText name) = some own →
        (∀ v : Valuation, v.holdsText text = true ↔ (∃ early ∈ own.early?, v.holds early = true)
          ∨ v.holds own = true ∧ v.holdsText "needs.detection.outputs.success == 'true'" = true)
        ∧ ((∀ v : Valuation, v.holdsText text = true →
            v.holdsText "needs.detection.outputs.success == 'true'" = true)
          ↔ ∀ early ∈ own.early?, ∀ v : Valuation, v.holds early = true →
            v.holdsText "needs.detection.outputs.success == 'true'" = true)
        ∧ ((∀ v : Valuation, v.holdsText text = true ↔ v.holds own = true
            ∧ v.holdsText "needs.detection.outputs.success == 'true'" = true)
          ↔ ∀ early ∈ own.early?, ∀ v : Valuation, v.holds early = true →
            v.holdsText "needs.detection.outputs.success == 'true'" = true))
      ∧ (config.condition = none → '\'' ∉ name.toList →
        ∃ own, read (config.ownText name) = some own ∧ own.early? = none) := by
  obtain ⟨job, hget, hcondition, -⟩ := exists_get?_of_customOutput h houtputs hconfig
  rw [hactive, CustomJob.text_outputCondition] at hcondition
  obtain ⟨gate, hgate, hread⟩ := read_and_detection (config.ownText name)
  refine ⟨job, _, hget, hcondition, ?_, fun own hown => ?_, CustomJob.read_ownText_of_none⟩
  · rw [hread, Option.isSome_map]
  · -- What is emitted is the own condition with the check on its last alternative.
    rw [hown, Option.map_some] at hread
    simp only [Valuation.holdsText_of_read _ hread, Valuation.holdsText_of_read _ hgate]
    exact ⟨fun v => holds_andLast_iff v own gate, andLast_implies_iff, andLast_equivalent_iff⟩

theorem triage_guards_success :
    ∃ compiled job text,
      (triage (some "success()")).compile .default ⟨Engine.defaultCommand⟩ {} = .ok compiled
      ∧ compiled.graph.get? "notify" = some job ∧ job.condition = some text
      ∧ ∀ v : Valuation, v.holdsText text = true →
        v.holdsText "needs.detection.outputs.success == 'true'" = true := by
  have hfits : (triage (some "success()")).fitsOrder .default ⟨Engine.defaultCommand⟩ {} triageOrder
      = true := by
    decide +kernel
  obtain ⟨compiled, hcompiled⟩ := exists_compile_of_fitsOrder hfits
  have hconfig : (triageOutputs (some "success()")).jobs.get? "notify"
      = some (notification (some "success()")) := rfl
  obtain ⟨job, text, hget, hcondition, -, hguard, -⟩ :=
    compile_guards_customOutput_iff hcompiled rfl rfl hconfig
  obtain ⟨-, himplies, -⟩ := hguard _ rfl
  exact ⟨compiled, job, text, hcompiled, hget, hcondition,
    himplies.mpr fun _ hearly => nomatch hearly⟩

/-- A run in which everything succeeded so far, and detection found something. -/
def foundSomething : Valuation where
  Value := Bool
  truthy value := value
  ofBool value := value
  truthy_ofBool _ := rfl
  operand tokens := tokens = [.word "success".toList, .opening .round, .closing .round]
  compare _ _ _ := false

/-- Behind another alternative the check does not guard the condition. -/
theorem triage_unguarded_failure :
    ∃ compiled job text,
      (triage (some "success() || failure()")).compile .default ⟨Engine.defaultCommand⟩ {}
        = .ok compiled
      ∧ compiled.graph.get? "notify" = some job ∧ job.condition = some text
      ∧ foundSomething.holdsText text = true
      ∧ foundSomething.holdsText "needs.detection.outputs.success == 'true'" = false := by
  have hfits : (triage (some "success() || failure()")).fitsOrder .default
      ⟨Engine.defaultCommand⟩ {} triageOrder = true := by
    decide +kernel
  obtain ⟨compiled, hcompiled⟩ := exists_compile_of_fitsOrder hfits
  have hconfig : (triageOutputs (some "success() || failure()")).jobs.get? "notify"
      = some (notification (some "success() || failure()")) := rfl
  obtain ⟨job, hget, hcondition, -⟩ := exists_get?_of_customOutput hcompiled rfl hconfig
  exact ⟨compiled, job, _, hcompiled, hget, hcondition, by decide +kernel, by decide +kernel⟩

end Workflow

end AgentGate
