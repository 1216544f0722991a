import AgentGate.Proofs.Plan.Effects

/-!
# References of an accepted workflow

The compiler writes references into the texts of jobs in one place and makes the edges, outputs and
steps behind them in another. In a graph that it has accepted the two agree: apart from what the
workflow itself writes, no text refers to anything that is not there when its job runs.

- `Reference.Occurs`, `Reference.OutputOccurs`: a text refers to a name, or to an output of a job.
- `JobGraph.view`: what the texts of a job can refer to.
- `Workflow.resolves_of_mem_texts`: the texts of an accepted workflow refer to what is in view.
- `Workflow.compile_references_resolve`: whatever they refer to is there.
-/

namespace AgentGate

open Reference

namespace Reference

/-- In a text there is a reference by a word to a name, which reaches from one dot to the next. -/
def Occurs (word name text : String) : Prop :=
  '.' ∉ name.toList ∧ ∃ before after, text = before ++ (word ++ "." ++ name ++ ".") ++ after

/-- In a text there is a reference to an output of a job, whose name reaches as far as names do. -/
def OutputOccurs (job output text : String) : Prop :=
  '.' ∉ job.toList ∧ (∀ c ∈ output.toList, isNameChar c = true)
    ∧ ∃ before after, text = before ++ Embedded.jobOutput job output ++ after
      ∧ after.toList.head?.any isNameChar = false

end Reference

/-- What the texts of a job of a graph can refer to. -/
def JobGraph.view (g : JobGraph) (job : Job) : View where
  jobs name := name ∈ job.needs
  outputs name key := ∃ other, g.get? name = some other ∧ key ∈ other.outputs.keys
  steps id := ∃ step ∈ job.steps, step.id = some id

/-! ## References in strings -/

namespace View

variable {v : View} {name key text : String}

theorem Resolves.job_of_occurs (h : v.Resolves text.toList) (hoccurs : Occurs "needs" name text) :
    v.jobs name := by
  obtain ⟨hname, before, after, htext⟩ := hoccurs
  have heq : text.toList = before.toList
      ++ (['n', 'e', 'e', 'd', 's'] ++ '.' :: (name.toList ++ '.' :: after.toList)) := by
    rw [htext]
    simp
  have hjob := h.job_of_eq hname heq
  rwa [String.ofList_toList] at hjob

theorem Resolves.step_of_occurs (h : v.Resolves text.toList) (hoccurs : Occurs "steps" name text) :
    v.steps name := by
  obtain ⟨hname, before, after, htext⟩ := hoccurs
  have heq : text.toList = before.toList
      ++ (['s', 't', 'e', 'p', 's'] ++ '.' :: (name.toList ++ '.' :: after.toList)) := by
    rw [htext]
    simp
  have hstep := h.step_of_eq hname heq
  rwa [String.ofList_toList] at hstep

theorem Resolves.output_of_occurs (h : v.Resolves text.toList)
    (hoccurs : OutputOccurs name key text) : v.outputs name key := by
  obtain ⟨hname, hkey, before, after, htext, hafter⟩ := hoccurs
  have heq : text.toList = before.toList ++ (['n', 'e', 'e', 'd', 's'] ++ '.' :: (name.toList
      ++ '.' :: ("outputs".toList ++ '.' :: (key.toList ++ after.toList)))) := by
    rw [htext, Embedded.jobOutput]
    simp
  have houtput := h.output_of_eq hname hkey hafter heq
  rwa [String.ofList_toList, String.ofList_toList] at houtput

end View

/-! ## Accepted workflows -/

namespace Workflow

variable {w : Workflow} {registry : Registry} {engine : Engine} {options : CompileOptions}
  {compiled : Compiled} {job : Job} {text : String}

/-- The jobs of an accepted workflow see the outputs of the planned ones: wiring keeps outputs. -/
theorem seesPlan_view (h : w.compile registry engine options = .ok compiled) (job : Job) :
    (compiled.graph.view job).SeesPlan w registry engine options := by
  intro other hother key hkey
  exact ⟨other.wired w.declaredNames, get?_of_planned h hother, hkey⟩

/-- What a job needs before it is wired it needs afterwards, and its steps are the same. -/
theorem sees_view (g : JobGraph) (job : Job) :
    (g.view (job.wired w.declaredNames)).Sees job where
  needs _ hneed := mem_needs_wired.mpr (.inl hneed)
  steps step hstep _ hid := ⟨step, hstep, hid⟩

/-- Every text of an accepted quiet workflow refers to what its job can refer to. -/
theorem resolves_of_mem_texts (h : w.compile registry engine options = .ok compiled)
    (hquiet : w.Quiet engine) (hjob : job ∈ compiled.graph.jobs) (htext : text ∈ job.texts) :
    (compiled.graph.view job).Resolves text.toList := by
  obtain ⟨planned, hplanned, rfl⟩ := (mem_jobs_of_compile_iff h).mp hjob
  have hsees : (compiled.graph.view (planned.wired w.declaredNames)).Sees planned :=
    sees_view compiled.graph planned
  have hcovers := View.covers_of_planned hquiet (seesPlan_view h _) hplanned hsees
  exact hcovers.resolves htext

/-- **The references of an accepted workflow resolve.** Where the workflow itself writes none, every
`needs` reference in a text of a job names a job of the graph that this job needs, every reference
to an output of a job names one that the job gives, and every `steps` reference names a step of the
job. -/
theorem compile_references_resolve (h : w.compile registry engine options = .ok compiled)
    (hquiet : w.Quiet engine) :
    ∀ job ∈ compiled.graph.jobs, ∀ text ∈ job.texts,
      (∀ name, Occurs "needs" name text → name ∈ compiled.graph.names ∧ name ∈ job.needs)
        ∧ (∀ name key, OutputOccurs name key text →
          ∃ other, compiled.graph.get? name = some other ∧ key ∈ other.outputs.keys)
        ∧ ∀ id, Occurs "steps" id text → ∃ step ∈ job.steps, step.id = some id := by
  intro job hjob text htext
  have hresolves := resolves_of_mem_texts h hquiet hjob htext
  obtain ⟨-, -, -, hvalid, -⟩ := compile_eq_ok_iff.mp h
  obtain ⟨hclosed, -⟩ := (JobGraph.validate_accepts_iff compiled.graph).mp hvalid
  refine ⟨fun name hoccurs => ?_, fun name key hoccurs => ?_, fun id hoccurs => ?_⟩
  · have hneeded : name ∈ job.needs := hresolves.job_of_occurs hoccurs
    exact ⟨hclosed job hjob name hneeded, hneeded⟩
  · exact hresolves.output_of_occurs hoccurs
  · exact hresolves.step_of_occurs hoccurs

theorem quiet_release : release.Quiet ⟨Engine.defaultCommand⟩ where
  strings := by decide +kernel
  command := by decide +kernel
  names := by
    have hall : release.declaredNames.all (·.toList.all isNameChar) = true := by decide +kernel
    exact fun name hname => List.all_eq_true.mp (List.all_eq_true.mp hall name hname)

theorem release_references_resolve :
    ∃ compiled, release.compile .default ⟨Engine.defaultCommand⟩ {} = .ok compiled
      ∧ ∃ job, compiled.graph.get? "activation" = some job ∧ "pre_activation" ∈ job.needs
        ∧ ∃ other, compiled.graph.get? "pre_activation" = some other
          ∧ "activated" ∈ other.outputs.keys := by
  obtain ⟨compiled, hcompiled⟩ := exists_compile_release
  have hget : compiled.graph.get? "activation"
      = some ((release.activationJob (release.runner {})).wired release.declaredNames) :=
    get?_of_planned hcompiled .activation
  have htext : Embedded.jobOutput "pre_activation" "activated" ++ " == 'true'"
      ∈ ((release.activationJob (release.runner {})).wired release.declaredNames).texts :=
    List.mem_append_left _ (List.mem_append_left _ (List.mem_append_left _ List.mem_cons_self))
  obtain ⟨hneeds, houtputs, -⟩ := compile_references_resolve hcompiled quiet_release _
    (JobGraph.get?_eq_some_iff.mp hget).1 _ htext
  refine ⟨compiled, hcompiled, _, hget, (hneeds _ ?_).2, houtputs _ _ ?_⟩
  · exact ⟨by decide +kernel, "", "outputs.activated == 'true'", by decide +kernel⟩
  · have hkey : "activated".toList.all isNameChar = true := by decide +kernel
    exact ⟨by decide +kernel, List.all_eq_true.mp hkey, "", " == 'true'", by decide +kernel,
      by decide +kernel⟩

end Workflow

end AgentGate
