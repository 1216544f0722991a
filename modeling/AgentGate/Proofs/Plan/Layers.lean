import AgentGate.Proofs.Plan.Needs

/-!
# The layers of an accepted workflow

Nothing checks where a job that asks to run early ends up: it may declare any needs and refer to any
job. But activation waits for every early job, the agent waits for activation, and all other jobs
wait for the agent. So an early job that waited for one of those would wait for itself, and graphs
in which a job does that are not accepted.

- `Workflow.needs_agent`: all jobs behind the agent need it themselves.
- `Workflow.early_of_transGen`: what activation waits for is early, by the lack of cycles.
- `Workflow.compile_layers`: the layers.
-/

namespace AgentGate

open Relation

/-- What is reached in a graph whose edges stay inside it is a job of the graph. -/
theorem JobGraph.Closed.mem_names {g : JobGraph} {first last : String} (h : g.Closed)
    (hreach : TransGen g.Needs first last) : last ∈ g.names := by
  obtain ⟨_, -, job, hjob, -, hneed⟩ := TransGen.tail'_iff.mp hreach
  exact h job hjob last hneed

namespace Workflow

variable {w : Workflow} {registry : Registry} {engine : Engine} {options : CompileOptions}
  {compiled : Compiled} {name early : String} {job : Job}

/-! ## Edges between the layers -/

/-- A planned job keeps its needs in the graph. -/
theorem needs_of_planned (h : w.compile registry engine options = .ok compiled)
    (hjob : Planned w registry engine options job) {need : String} (hneed : need ∈ job.needs) :
    compiled.graph.Needs job.name need :=
  (JobGraph.needs_iff_of_get? (get?_of_planned h hjob)).mpr (mem_needs_wired.mpr (.inl hneed))

/-- Activation waits for every early job. -/
theorem activation_needs (h : w.compile registry engine options = .ok compiled)
    (hearly : w.IsEarly early) : compiled.graph.Needs "activation" early :=
  needs_of_planned h .activation (List.mem_append_right _ (mem_earlyJobs_iff.mpr hearly))

/-- The agent waits for activation and for no other job directly. -/
theorem agent_needs_iff (h : w.compile registry engine options = .ok compiled) :
    compiled.graph.Needs "agent" name ↔ name = "activation" := by
  have hget : compiled.graph.get? "agent" = some (Job.wired w.declaredNames (w.agentJob options)) :=
    get?_of_planned h .agent
  rw [JobGraph.needs_iff_of_get? hget]
  exact List.mem_singleton

/-- Every job that is neither early nor one of the first three waits for the agent. -/
theorem needs_agent (h : w.compile registry engine options = .ok compiled)
    (hname : name ∈ compiled.graph.names)
    (hlate : name ≠ "pre_activation" ∧ name ≠ "activation" ∧ name ≠ "agent" ∧ ¬ w.IsEarly name) :
    compiled.graph.Needs name "agent" := by
  obtain ⟨job, hjob, rfl⟩ := exists_planned_of_mem_names h hname
  obtain ⟨hpre, hactivation, hagent, hearly⟩ := hlate
  refine needs_of_planned h hjob ?_
  cases hjob with
  | preActivation => exact absurd rfl hpre
  | activation => exact absurd rfl hactivation
  | agent => exact absurd rfl hagent
  | @beside name config hconfig =>
    rw [name_besideAgent] at hearly
    refine CustomJob.mem_needs_besideAgent.mpr (.inr ⟨fun hneed => ?_, rfl⟩)
    exact hearly ⟨config, hconfig, hneed⟩
  | detection => exact List.mem_singleton_self _
  | handler => exact mem_needs_handlerJobOf.mpr (.inl rfl)
  | ownOutput => exact CustomJob.mem_needs_forOutput.mpr (.inr (.inl rfl))
  | conclusion => exact List.mem_cons_self

/-! ## The layers -/

/-- What activation waits for is early: any other job waits for activation itself. -/
theorem early_of_transGen (h : w.compile registry engine options = .ok compiled)
    (hreach : TransGen compiled.graph.Needs "activation" name) :
    name = "pre_activation" ∨ w.IsEarly name := by
  obtain ⟨-, -, -, hvalid, -⟩ := compile_eq_ok_iff.mp h
  obtain ⟨hclosed, hacyclic⟩ := JobGraph.validate_eq_ok_iff.mp hvalid
  have hactivation : compiled.graph.Needs "agent" "activation" := (agent_needs_iff h).mpr rfl
  by_contra hlate
  obtain ⟨hpre, hearly⟩ := not_or.mp hlate
  by_cases hself : name = "activation"
  · exact hacyclic "activation" (hself ▸ hreach)
  by_cases hagent : name = "agent"
  · exact hacyclic "activation" ((hagent ▸ hreach).tail hactivation)
  · have hneeds := needs_agent h (hclosed.mem_names hreach) ⟨hpre, hself, hagent, hearly⟩
    exact hacyclic "activation" ((hreach.tail hneeds).tail hactivation)

/-- **The jobs of an accepted workflow are layered.** The agent waits for activation, and activation
for the early jobs. What activation and the early jobs wait for, directly or through others, is
early or decides whether the workflow runs; what the agent waits for is that or activation; and all
other jobs wait for the agent, and so for activation. So no job that waits for the agent is one that
the agent waits for. -/
theorem compile_layers (h : w.compile registry engine options = .ok compiled) :
    (compiled.graph.Needs "agent" "activation"
      ∧ ∀ early, w.IsEarly early → compiled.graph.Needs "activation" early)
    ∧ (∀ name, TransGen compiled.graph.Needs "activation" name →
      name = "pre_activation" ∨ w.IsEarly name)
    ∧ (∀ early, w.IsEarly early → ∀ name, TransGen compiled.graph.Needs early name →
      name = "pre_activation" ∨ w.IsEarly name)
    ∧ (∀ name, TransGen compiled.graph.Needs "agent" name →
      name = "activation" ∨ name = "pre_activation" ∨ w.IsEarly name)
    ∧ (∀ name ∈ compiled.graph.names,
      name ≠ "pre_activation" ∧ name ≠ "activation" ∧ name ≠ "agent" ∧ ¬ w.IsEarly name →
      TransGen compiled.graph.Needs name "agent" ∧ TransGen compiled.graph.Needs name "activation")
    ∧ ∀ name, TransGen compiled.graph.Needs name "agent" →
      ¬ TransGen compiled.graph.Needs "agent" name := by
  have hactivation : compiled.graph.Needs "agent" "activation" := (agent_needs_iff h).mpr rfl
  refine ⟨⟨hactivation, fun early => activation_needs h⟩, fun name => early_of_transGen h,
    fun early hearly name hreach => ?_, fun name hreach => ?_, fun name hname hlate => ?_,
    fun name hbefore hafter => ?_⟩
  · exact early_of_transGen h (.head (activation_needs h hearly) hreach)
  · obtain ⟨next, hnext, hrest⟩ := TransGen.head'_iff.mp hreach
    obtain rfl := (agent_needs_iff h).mp hnext
    rcases reflTransGen_iff_eq_or_transGen.mp hrest with heq | hrest
    · exact .inl heq
    · exact .inr (early_of_transGen h hrest)
  · have hagent := needs_agent h hname hlate
    exact ⟨.single hagent, .tail (.single hagent) hactivation⟩
  · obtain ⟨-, -, -, hvalid, -⟩ := compile_eq_ok_iff.mp h
    exact (JobGraph.validate_eq_ok_iff.mp hvalid).2 "agent" (hafter.trans hbefore)

theorem release_layers :
    ∃ compiled, release.compile .default ⟨Engine.defaultCommand⟩ {} = .ok compiled
      ∧ TransGen compiled.graph.Needs "agent" "lint"
      ∧ TransGen compiled.graph.Needs "add_comment" "activation"
      ∧ ¬ TransGen compiled.graph.Needs "lint" "add_comment" := by
  obtain ⟨compiled, hcompiled⟩ := exists_compile_release
  have hearly : release.IsEarly "lint" := ⟨lint, rfl, by decide⟩
  have hlate : ¬ release.IsEarly "add_comment" := fun ⟨_, hconfig, _⟩ => nomatch hconfig
  obtain ⟨⟨hagent, hactivation⟩, -, hbefore, -, hbehind, -⟩ := compile_layers hcompiled
  have hname : "add_comment" ∈ compiled.graph.names := by
    rw [names_of_compile hcompiled]
    decide +kernel
  refine ⟨compiled, hcompiled, ?_, ?_, fun hreach => ?_⟩
  · exact .tail (.single hagent) (hactivation "lint" hearly)
  · exact (hbehind "add_comment" hname ⟨by decide, by decide, by decide, hlate⟩).2
  · rcases hbefore "lint" hearly "add_comment" hreach with heq | hearly
    · exact absurd heq (by decide)
    · exact hlate hearly

end Workflow

end AgentGate
