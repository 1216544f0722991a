import AgentGate.Job.Builtin
import AgentGate.Proofs.Table

/-!
# The texts of a step

A step is built up from its action or script by setting one thing after the other. Each of these
adds a text and takes the others over.

- `Step.mem_texts_withCondition`, `Step.mem_texts_withInput`, `Step.mem_texts_withEnv`: what one of
  them adds.
- `Step.mem_texts_withInputs`, `Step.mem_texts_withVariables`: what a whole table adds.
- `Step.mem_texts_ofModule`: the texts of the step that runs an installed module.
-/

namespace AgentGate.Step

variable {step : Step} {text value key condition title module : String}

theorem mem_texts_withCondition (h : text ∈ (step.withCondition condition).texts) :
    text = condition ∨ text ∈ step.texts := by
  simp only [texts, withCondition, Option.toList_some, List.mem_append, List.mem_singleton] at h ⊢
  rcases h with ((((hname | rfl) | huses) | hrun) | hinput) | henv
  · exact .inr (.inl (.inl (.inl (.inl (.inl hname)))))
  · exact .inl rfl
  · exact .inr (.inl (.inl (.inl (.inr huses))))
  · exact .inr (.inl (.inl (.inr hrun)))
  · exact .inr (.inl (.inr hinput))
  · exact .inr (.inr henv)

theorem mem_texts_withInputs {inputs : Table String}
    (h : text ∈ texts { step with inputs }) : text ∈ inputs.values ∨ text ∈ step.texts := by
  rcases List.mem_append.mp h with h | henv
  · rcases List.mem_append.mp h with hplain | hinput
    · exact .inr (List.mem_append_left _ (List.mem_append_left _ hplain))
    · exact .inl hinput
  · exact .inr (List.mem_append_right _ henv)

theorem mem_texts_withVariables {env : Table String} (h : text ∈ texts { step with env }) :
    text ∈ env.values ∨ text ∈ step.texts := by
  rcases List.mem_append.mp h with hplain | henv
  · exact .inr (List.mem_append_left _ hplain)
  · exact .inl henv

theorem mem_texts_withInput (h : text ∈ (step.withInput key value).texts) :
    text = value ∨ text ∈ step.texts := by
  rcases mem_texts_withInputs h with hinput | h
  · refine (Table.mem_values_insert hinput).imp_right fun hinput => ?_
    exact List.mem_append_left _ (List.mem_append_right _ hinput)
  · exact .inr h

theorem mem_texts_withEnv (h : text ∈ (step.withEnv key value).texts) :
    text = value ∨ text ∈ step.texts := by
  rcases mem_texts_withVariables h with henv | h
  · exact (Table.mem_values_insert henv).imp_right fun henv => List.mem_append_right _ henv
  · exact .inr h

/-- The step that runs an installed module has its title, its action and a script. -/
theorem mem_texts_ofModule (h : text ∈ (ofModule title module).texts) :
    text = moduleScript module ∨ text = title ∨ text = scriptAction := by
  refine (mem_texts_withInput h).imp_right fun h => ?_
  simpa [ofAction, texts, Table.values] using h

end AgentGate.Step
