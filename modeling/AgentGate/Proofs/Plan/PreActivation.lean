import AgentGate.Proofs.Plan.Conclusion
import AgentGate.Proofs.Plan.Missing

/-!
# When the job before activation is there

The job before activation is made for a command, for a stop time, and for jobs of the workflow that
ask to run early. Jobs for outputs of the workflow's own may list it among their needs as well, but
are not looked at when it is decided on. So it is there when such a job asks for it only if there is
another reason for it.

- `Workflow.preActivation_mem_plannedNames_iff`: when the job is planned.
- `Workflow.missingNeed?_eq_preActivation_iff`: when it is the first need that is missing.
- `Workflow.compile_preActivation`: when it is in the graph, and when a workflow is rejected since
  it is not.
-/

namespace AgentGate.Workflow

variable {w : Workflow} {registry : Registry} {engine : Engine} {options : CompileOptions}
  {outputs : SafeOutputs} {name : String}

/-- There is a reason for the job before activation: a command, a stop time, or a job of the
workflow that asks to run early. -/
def IsGated (w : Workflow) : Prop :=
  w.command.isSome = true ∨ w.stopTime.isSome = true ∨ ∃ name, w.IsEarly name

/-- No job after the agent has its name, which is reserved and is that of no output type. -/
theorem not_mem_outcomeNames_preActivation
    (hfree : ∀ name ∈ outputs.jobs.keys, BuiltinJob.reserves name = false) :
    "pre_activation" ∉ outcomeNames outputs registry := by
  have htypes :
      "pre_activation" ∉ (registry.types.filter outputs.isEnabled).map OutputType.name := by
    intro h
    obtain ⟨type, -, hname⟩ := List.mem_map.mp h
    exact type.name_ne_builtin .preActivation hname
  intro h
  rw [outcomeNames] at h
  rcases List.mem_append.mp h with h | h
  · rcases List.mem_append.mp h with h | h
    · rcases List.mem_append.mp h with h | h
      · split at h
        · exact absurd h (by decide)
        · cases h
      · exact htypes h
    · exact absurd (hfree _ h) (by decide)
  · exact absurd h (by decide)

/-- The job before activation is planned only for one of the reasons. -/
theorem preActivation_mem_plannedNames_iff
    (hfree : ∀ name ∈ w.declaredNames, BuiltinJob.reserves name = false) :
    "pre_activation" ∈ w.plannedNames registry ↔ w.IsGated := by
  rw [IsGated, ← hasPreActivation_iff]
  constructor
  · intro h
    by_contra hgated
    rw [plannedNames, if_neg hgated, List.nil_append] at h
    rcases List.mem_append.mp h with h | h
    · rcases List.mem_append.mp h with h | h
      · exact absurd h (by decide)
      · have hname := mem_declaredNames_iff.mpr (.inl (Table.mem_keys_iff.mp h))
        exact absurd (hfree _ hname) (by decide)
    · obtain ⟨outputs, houtputs, h⟩ := List.mem_flatMap.mp h
      refine not_mem_outcomeNames_preActivation (fun name hname => ?_) h
      exact hfree name (mem_declaredNames_iff.mpr
        (.inr ⟨outputs, Option.mem_toList.mp houtputs, Table.mem_keys_iff.mp hname⟩))
  · intro h
    rw [plannedNames, if_pos h]
    exact List.mem_append_left _ (List.mem_append_left _ List.mem_cons_self)

theorem Assembles.reserves_eq_false {strict : Bool} (h : w.Assembles registry strict)
    (hname : name ∈ w.declaredNames) : BuiltinJob.reserves name = false := by
  rw [declaredNames, Table.mem_distinct] at hname
  obtain ⟨entry, hentry, rfl⟩ := List.mem_map.mp hname
  exact (h.declared entry hentry).1

/-- The missing need is the job before activation just when there is no reason for it, a job for an
output asks for it, and no need before that is missing. -/
theorem missingNeed?_eq_preActivation_iff
    (hfree : ∀ name ∈ w.declaredNames, BuiltinJob.reserves name = false) :
    w.missingNeed? registry = some (name, "pre_activation")
      ↔ ¬ w.IsGated ∧ ∃ outputs before config after listed unread,
        w.safeOutputs = some outputs
        ∧ outputs.jobs.entries = before ++ (name, config) :: after
        ∧ config.needs = listed ++ "pre_activation" :: unread
        ∧ (∀ entry ∈ w.jobs.entries ++ before, ∀ need ∈ entry.2.needs,
          need ∈ w.plannedNames registry)
        ∧ ∀ need ∈ listed, need ∈ w.plannedNames registry := by
  rw [missingNeed?_eq_some_iff, preActivation_mem_plannedNames_iff hfree]
  constructor
  · rintro ⟨before, config, after, listed, unread, hdeclared, hneeds, hgated, hbefore, hlisted⟩
    have hasks : "pre_activation" ∈ config.needs := by simp [hneeds]
    -- A job of the workflow itself would be a reason.
    have hbeside : (name, config) ∉ w.jobs.entries := fun hmem =>
      hgated (.inr (.inr ⟨name, config, Table.get?_eq_some_iff.mpr hmem, hasks⟩))
    obtain ⟨before', hbefore', hrest⟩ : ∃ before', before = w.jobs.entries ++ before'
        ∧ w.safeOutputs.toList.flatMap (fun outputs => outputs.jobs.entries)
          = before' ++ (name, config) :: after := by
      rcases List.append_eq_append_iff.mp hdeclared with hrest | ⟨between, hjobs, hrest⟩
      · exact hrest
      · cases between with
        | nil => exact ⟨[], by simpa using hjobs.symm, by simpa using hrest.symm⟩
        | cons first more =>
          obtain ⟨rfl, -⟩ := List.cons.inj hrest
          exact absurd (hjobs ▸ by simp) hbeside
    cases houtputs : w.safeOutputs with
    | none =>
      rw [houtputs] at hrest
      simp at hrest
    | some outputs =>
      rw [houtputs, Option.toList_some, List.flatMap_singleton] at hrest
      exact ⟨hgated, outputs, before', config, after, listed, unread, rfl, hrest, hneeds,
        hbefore' ▸ hbefore, hlisted⟩
  · rintro ⟨hgated, outputs, before, config, after, listed, unread, houtputs, hentries, hneeds,
      hbefore, hlisted⟩
    refine ⟨w.jobs.entries ++ before, config, after, listed, unread, ?_, hneeds, hgated, hbefore,
      hlisted⟩
    rw [declaredJobs, houtputs, Option.toList_some, List.flatMap_singleton, hentries,
      List.append_assoc]

/-- **When the job before activation is there.** An accepted workflow has it just when there is a
command, a stop time, or a job of the workflow that asks to run early; and it is there whenever any
declared job asks for it. A workflow is rejected since it is missing just when none of the three is
given, nothing else stands in the way of its graph, and a job for an output of its own asks for it
before any other need is missing. -/
theorem compile_preActivation (w : Workflow) (registry : Registry) (engine : Engine)
    (options : CompileOptions) :
    (∀ compiled, w.compile registry engine options = .ok compiled →
      ("pre_activation" ∈ compiled.graph.names
        ↔ w.command.isSome = true ∨ w.stopTime.isSome = true ∨ ∃ name, w.IsEarly name)
      ∧ ∀ entry ∈ w.declaredJobs, "pre_activation" ∈ entry.2.needs →
        "pre_activation" ∈ compiled.graph.names)
    ∧ ∀ name, w.compile registry engine options
        = .error (.graph (.unknownNeed name "pre_activation"))
      ↔ w.Assembles registry (w.strict || options.strict)
        ∧ ¬ (w.command.isSome = true ∨ w.stopTime.isSome = true ∨ ∃ name, w.IsEarly name)
        ∧ ∃ outputs before config after listed unread,
          w.safeOutputs = some outputs
          ∧ outputs.jobs.entries = before ++ (name, config) :: after
          ∧ config.needs = listed ++ "pre_activation" :: unread
          ∧ (∀ entry ∈ w.jobs.entries ++ before, ∀ need ∈ entry.2.needs,
            need ∈ w.plannedNames registry)
          ∧ ∀ need ∈ listed, need ∈ w.plannedNames registry := by
  refine ⟨fun compiled h => ⟨?there, fun entry => mem_names_of_declared h⟩, fun name => ?missing⟩
  case there =>
    rw [names_of_compile h]
    exact preActivation_mem_plannedNames_iff fun name => reserves_of_mem_declaredNames h
  case missing =>
    rw [compile_eq_unknownNeed_iff]
    exact and_congr_right fun h =>
      missingNeed?_eq_preActivation_iff fun name => h.reserves_eq_false

/-- A job for an output that is to run after the job before activation. -/
def probe : CustomJob :=
  { needs := ["pre_activation"], steps := [{ run := some "./probe.sh" }] }

/-- A workflow with that job, perhaps with a stop time. -/
def auditing (stopTime : Option String) : Workflow where
  name := "Audit"
  stopTime := stopTime
  safeOutputs := some { types := fun _ => .absent, jobs := Table.ofList [("probe", probe)] }

/-- With a stop time the job before activation is there. -/
theorem auditing_gated :
    ∃ compiled, (auditing (some "+25h")).compile .default ⟨Engine.defaultCommand⟩ {} = .ok compiled
      ∧ ("probe", probe) ∈ (auditing (some "+25h")).declaredJobs ∧ "pre_activation" ∈ probe.needs
      ∧ "pre_activation" ∈ compiled.graph.names := by
  have hfits : (auditing (some "+25h")).fitsOrder .default ⟨Engine.defaultCommand⟩ {}
      ["pre_activation", "activation", "agent", "detection", "probe", "conclusion"] = true := by
    decide +kernel
  obtain ⟨compiled, hcompiled⟩ := exists_compile_of_fitsOrder hfits
  have hentry : ("probe", probe) ∈ (auditing (some "+25h")).declaredJobs := by decide
  have hasks : "pre_activation" ∈ probe.needs := by decide
  exact ⟨compiled, hcompiled, hentry, hasks,
    ((compile_preActivation _ _ _ _).1 compiled hcompiled).2 _ hentry hasks⟩

/-- Without it the workflow is rejected, although the job may ask for the same. -/
theorem auditing_ungated :
    ("probe", probe) ∈ (auditing none).declaredJobs ∧ "pre_activation" ∈ probe.needs
      ∧ (auditing none).compile .default ⟨Engine.defaultCommand⟩ {}
        = .error (.graph (.unknownNeed "probe" "pre_activation")) := by
  have hassembles : (auditing none).Assembles .default false :=
    { named := by decide +kernel
      permitted := ⟨[], rfl⟩
      declared := by decide
      settings := by
        intro outputs houtputs type _ settings hset
        cases houtputs
        cases hset
      nonempty := by decide +kernel
      distinct := by decide +kernel }
  exact ⟨by decide, by decide, compile_eq_unknownNeed_iff.mpr ⟨hassembles, by decide +kernel⟩⟩

end AgentGate.Workflow
