import AgentGate.Proofs.Handler.Variables
import AgentGate.Proofs.Plan.Registration
import AgentGate.Proofs.Schema.Agreement
import AgentGate.Proofs.Schema.Target
import AgentGate.Proofs.Text.Mentions
import AgentGate.Storage.Documents
import AgentGate.Storage.Memory

/-!
# The identifier of a workflow

The file that a workflow is compiled to and the branches of its pull requests are named after its
identifier. One that the workflow gives is held to a pattern by the schema. Otherwise it is made of
the letters and digits of the file that the workflow comes from, or of its name where no file is
known; other characters are dropped, and nothing is put in their place when none is left.

- `Text.IsIdentifier`: the pattern of the schema.
- `slug_eq_empty_iff`: the texts of which nothing is left.
- `Workflow.Loaded`: workflows that are read from documents, and from files.
- `Workflow.GivesIdentifier`: a workflow gives no identifier, or one that has the pattern.
- `Workflow.Loaded.givesIdentifier`: a loaded workflow does so.
- `Workflow.Loaded.isIdentifier_id_iff`: when the one that it has does.
- `Workflow.compile_identifier`: the identifier, and where it is in the jobs.
-/

namespace AgentGate

namespace Text

/-- What the schema asks of an identifier. -/
def IsIdentifier (s : String) : Prop :=
  (Schema.text .identifier).accepts (.text s) = true

instance : DecidablePred IsIdentifier := fun s =>
  inferInstanceAs (Decidable ((Schema.text .identifier).accepts (.text s) = true))

theorem isIdentifier_iff {s : String} : IsIdentifier s
    ↔ s ≠ "" ∧ ∀ c ∈ s.toList, c.isAlphanum = true ∨ c = '_' ∨ c = '-' := by
  have hpattern : (s ≠ "" ∧ s.toList.all fun c => c.isAlphanum || c = '_' || c = '-')
      ↔ s ≠ "" ∧ ∀ c ∈ s.toList, c.isAlphanum = true ∨ c = '_' ∨ c = '-' := by
    simp only [List.all_eq_true, Bool.or_eq_true, decide_eq_true_eq, or_assoc]
  rw [← hpattern, IsIdentifier, Schema.accepts, Schema.violations, TextRule.violations]
  split
  case isTrue hmatches => exact iff_of_true rfl hmatches
  case isFalse hmatches => exact iff_of_false Bool.false_ne_true hmatches

end Text

/-- Nothing is left of a text without ASCII letters and digits, and something of any other. -/
theorem slug_eq_empty_iff {s : String} :
    slug s = "" ↔ ∀ c ∈ s.toList, c.isAlphanum = false := by
  rw [← String.toList_eq_nil_iff, slug, String.toList_ofList, Text.intercalate_eq_nil_iff,
    List.map_eq_nil_iff, List.filter_eq_nil_iff]
  · -- A letter or digit would be in one of the runs.
    have hrun : ∀ c, (∃ run ∈ s.toList.splitOnP fun c => !c.isAlphanum, c ∈ run)
        ↔ c ∈ s.toList ∧ (!c.isAlphanum) = false := fun c => Text.exists_mem_splitOnP_iff
    constructor
    · intro hempty c hc
      rw [← Bool.not_eq_true]
      intro hkept
      obtain ⟨run, hmem, hin⟩ := (hrun c).mpr ⟨hc, by simp [hkept]⟩
      exact hempty run hmem (by simpa using List.ne_nil_of_mem hin)
    · intro hother run hmem hne
      obtain ⟨c, hc⟩ := List.exists_mem_of_ne_nil run (by simpa using hne)
      obtain ⟨hin, hkept⟩ := (hrun c).mp ⟨run, hmem, hc⟩
      rw [hother c hin] at hkept
      cases hkept
  · -- Only runs with something in them are joined.
    intro word hword
    obtain ⟨run, hrun, rfl⟩ := List.mem_map.mp hword
    simpa using (List.mem_filter.mp hrun).2

/-- A session on files in memory gives its result through one of its first part. -/
theorem Session.run_bind_eq_ok {α β : Type} {first : Session (StateM Memory) α}
    {next : α → Session (StateM Memory) β} {memory memory' : Memory} {b : β}
    (h : (first >>= next).run.run memory = (.ok b, memory')) :
    ∃ a between, first.run.run memory = (.ok a, between)
      ∧ (next a).run.run between = (.ok b, memory') := by
  rw [ExceptT.run_bind, StateT.run_bind] at h
  rcases hfirst : first.run.run memory with ⟨failure | a, between⟩
  · rw [hfirst] at h
    cases h
  · rw [hfirst] at h
    exact ⟨a, between, rfl, h⟩

namespace Workflow

open Json

variable {w : Workflow} {registry : Registry} {engine : Engine} {options : CompileOptions}
  {compiled : Compiled} {value : Json} {given : String}

/-! ## Workflows that are loaded -/

/-- A workflow that is read from a document, or from a file in memory. -/
def Loaded (w : Workflow) : Prop :=
  (∃ text, ofDocument text = .ok w)
    ∨ ∃ (path : String) (memory memory' : Memory),
      (Memory.storage.loadWorkflow path).run.run memory = (.ok w, memory')

/-- A file only adds the source that the document does not name. -/
theorem exists_document_of_loadWorkflow {path : String} {memory memory' : Memory}
    (h : (Memory.storage.loadWorkflow path).run.run memory = (.ok w, memory')) :
    ∃ text given, ofDocument text = .ok given
      ∧ w = { given with source := some (given.source.getD path) } := by
  obtain ⟨text, between, -, h⟩ := Session.run_bind_eq_ok h
  obtain ⟨given, last, hgiven, hw⟩ := Session.run_bind_eq_ok h
  cases hread : ofDocument text with
  | error failure =>
    rw [hread] at hgiven
    cases hgiven
  | ok found =>
    rw [hread] at hgiven
    cases hgiven
    cases hw
    exact ⟨text, given, hread, rfl⟩

theorem setField_workflowId (w : Workflow) (content : String) :
    w.setField "workflow-id" (.text content) = .ok { w with workflowId := some content } := rfl

theorem workflowId_of_setField_ne {w w' : Workflow} {other : String}
    (hother : other ≠ "workflow-id") (h : w.setField other value = .ok w') :
    w'.workflowId = w.workflowId := by
  unfold Workflow.setField at h
  split at h
  case h_2 => exact absurd rfl hother
  case h_17 =>
    cases h
    rfl
  all_goals
    obtain ⟨_, -, rfl⟩ := map_eq_ok_iff.mp h
    rfl

/-- A workflow gives no identifier, or one that has the pattern. -/
def GivesIdentifier (w : Workflow) : Prop :=
  ∀ given, w.workflowId = some given → Text.IsIdentifier given

/-- Only its own member sets the identifier, to a text that the schema has let through. -/
theorem GivesIdentifier.setField {next : Workflow} {key field : String} (h : w.GivesIdentifier)
    (hfield : shape.field? key = some field) (hset : w.setField field value = .ok next)
    (haccepted : key = "workflow-id" → (Schema.text .identifier).accepts value = true) :
    next.GivesIdentifier := by
  intro given hgiven
  by_cases hid : field = "workflow-id"
  · subst hid
    -- No other key is read as this one.
    obtain rfl : key = "workflow-id" := by
      rw [Shape.field?] at hfield
      split at hfield
      case isTrue => exact Option.some.inj hfield
      case isFalse => cases hfield
    have htext := haccepted rfl
    obtain ⟨content, rfl⟩ := Schema.exists_text_of_accepts htext
    rw [setField_workflowId] at hset
    cases hset
    obtain rfl := Option.some.inj hgiven
    exact htext
  · exact h given ((workflowId_of_setField_ne hid hset).symm.trans hgiven)

/-- The schema holds the identifier of a document to its pattern. -/
theorem givesIdentifier_of_ofValidJson (h : ofValidJson value = .ok w) : w.GivesIdentifier := by
  obtain ⟨hvalid, hread⟩ := ofValidJson_eq_ok_iff.mp h
  obtain ⟨members, rfl, -⟩ := Schema.exists_object_of_accepts_record hvalid
  obtain ⟨-, hvalues⟩ := Schema.accepts_record_iff.mp hvalid
  have hstart : ({} : Workflow).GivesIdentifier := by
    intro given hnone
    cases hnone
  refine record_induction hstart ?_ hread
  intro before next key field value hmember hfield hbefore hset
  refine hbefore.setField hfield hset ?_
  rintro rfl
  exact List.isEmpty_iff.mpr (hvalues _ hmember)

/-- The identifier that a loaded workflow gives has the pattern of the schema. -/
theorem Loaded.givesIdentifier (h : w.Loaded) : w.GivesIdentifier := by
  have hdocument : ∃ text found, ofDocument text = .ok found
      ∧ found.workflowId = w.workflowId := by
    rcases h with ⟨text, hread⟩ | ⟨path, memory, memory', hload⟩
    · exact ⟨text, w, hread, rfl⟩
    · obtain ⟨text, found, hread, rfl⟩ := exists_document_of_loadWorkflow hload
      exact ⟨text, found, hread, rfl⟩
  obtain ⟨text, found, hread, hsame⟩ := hdocument
  rw [ofDocument] at hread
  split at hread
  case h_1 =>
    intro given hgiven
    exact givesIdentifier_of_ofValidJson hread given (hsame.trans hgiven)
  case h_2 => cases hread

/-! ## The identifier -/

/-- Nothing but letters, digits, underscores and hyphens is in the identifier. -/
theorem Loaded.mem_id (h : w.Loaded) :
    ∀ c ∈ w.id.toList, c.isAlphanum = true ∨ c = '_' ∨ c = '-' := by
  rcases w.id_cases with hgiven | ⟨s, hslug⟩
  · exact (Text.isIdentifier_iff.mp (h.givesIdentifier _ hgiven)).2
  · intro c hc
    rw [hslug] at hc
    rcases mem_slug hc with hhyphen | hletter
    · exact .inr (.inr hhyphen)
    · exact .inl hletter

/-- The identifier of a loaded workflow is the one that it gives, or a slug where it gives none. -/
theorem Loaded.id_eq (h : w.Loaded) :
    w.id = w.workflowId.getD (slug (w.sourceStem?.getD w.name)) := by
  rw [Workflow.id]
  split
  case h_1 given hgiven =>
    rw [if_neg (Text.isIdentifier_iff.mp (h.givesIdentifier _ hgiven)).1, hgiven]
    rfl
  case h_2 hnone =>
    rw [hnone]
    rfl

/-- The identifier has the pattern exactly where it is given, or where it is made from a text with
a letter or a digit. -/
theorem Loaded.isIdentifier_id_iff (h : w.Loaded) : Text.IsIdentifier w.id
    ↔ w.workflowId.isSome = true
      ∨ ∃ c ∈ (w.sourceStem?.getD w.name).toList, c.isAlphanum = true := by
  rw [Text.isIdentifier_iff, and_iff_left h.mem_id, h.id_eq]
  cases hid : w.workflowId with
  | some given =>
    exact iff_of_true (Text.isIdentifier_iff.mp (h.givesIdentifier _ hid)).1 (.inl rfl)
  | none =>
    show slug (w.sourceStem?.getD w.name) ≠ "" ↔ false = true ∨ _
    rw [or_iff_right Bool.false_ne_true, ne_eq, slug_eq_empty_iff]
    simp only [← Bool.not_eq_true, not_forall, not_not, exists_prop]

/-- The first job compares the compiled file, which is named after the identifier. -/
theorem exists_fileName_of_compile (h : w.compile registry engine options = .ok compiled) :
    ∃ job step, compiled.graph.get? "activation" = some job ∧ step ∈ job.steps
      ∧ step.env.get? "GH_AW_WORKFLOW_FILE" = some (w.id ++ ".lock.yml") := by
  have hget := get?_of_planned h .activation
  rw [Job.wired_of_reserves _ rfl] at hget
  exact ⟨_, _, hget, List.mem_cons_self, (Table.get?_insert ..).trans (if_pos rfl)⟩

/-- The job of a type runs its script, in an environment with what is written for the type. -/
theorem exists_script_of_compile (h : w.compile registry engine options = .ok compiled)
    {outputs : SafeOutputs} {type : OutputType} {settings : OutputSettings}
    (houtputs : w.safeOutputs = some outputs) (htype : type ∈ registry.types)
    (hset : outputs.settings? type = some settings) :
    ∃ job step, compiled.graph.get? type.name = some job ∧ step ∈ job.steps
      ∧ ∀ key given, (key, given) ∈ HandlerStep.ownEnv type settings w (context registry outputs) →
        step.env.get? key = given := by
  have hget := get?_of_planned h (.handler houtputs htype hset)
  rw [name_handlerJobOf] at hget
  refine ⟨_, w.scriptStep type settings (context registry outputs), hget, ?_, ?_⟩
  · show _ ∈ (w.handlerJobOf type settings _ _ _).steps
    rw [steps_handlerJobOf]
    exact List.mem_append_right _ List.mem_cons_self
  · intro key given hown
    exact HandlerStep.get?_envOf (List.mem_append_right _ hown)

/-- The script that makes pull requests is told the identifier. -/
theorem exists_identifier_of_compile (h : w.compile registry engine options = .ok compiled)
    {outputs : SafeOutputs} (houtputs : w.safeOutputs = some outputs)
    (htype : .createPullRequest ∈ registry.types)
    (hon : outputs.isEnabled .createPullRequest = true) :
    ∃ job step, compiled.graph.get? "create_pull_request" = some job ∧ step ∈ job.steps
      ∧ step.env.get? "GH_AW_WORKFLOW_ID" = some w.id := by
  obtain ⟨settings, hset⟩ := Option.isSome_iff_exists.mp hon
  obtain ⟨job, step, hget, hstep, hown⟩ := exists_script_of_compile h houtputs htype hset
  exact ⟨job, step, hget, hstep, hown _ _ List.mem_cons_self⟩

/-- **The identifier of a workflow.** A loaded workflow that is accepted has an identifier of
letters, digits, underscores and hyphens, by which its compiled file is named and its branches are.
It has the pattern that the schema asks for exactly where the workflow gives it, or where the text
that it is made from, the name of the source up to a dot or else the name of the workflow, has an
ASCII letter or digit. Otherwise it is empty. -/
theorem compile_identifier (hloaded : w.Loaded)
    (h : w.compile registry engine options = .ok compiled) :
    (∀ c ∈ w.id.toList, c.isAlphanum = true ∨ c = '_' ∨ c = '-')
    ∧ (Text.IsIdentifier w.id ↔ w.id ≠ "")
    ∧ (Text.IsIdentifier w.id ↔ w.workflowId.isSome = true
      ∨ ∃ c ∈ (w.sourceStem?.getD w.name).toList, c.isAlphanum = true)
    ∧ (∃ job step, compiled.graph.get? "activation" = some job ∧ step ∈ job.steps
      ∧ step.env.get? "GH_AW_WORKFLOW_FILE" = some (w.id ++ ".lock.yml"))
    ∧ ∀ outputs, w.safeOutputs = some outputs → .createPullRequest ∈ registry.types →
      outputs.isEnabled .createPullRequest = true →
      ∃ job step, compiled.graph.get? "create_pull_request" = some job ∧ step ∈ job.steps
        ∧ step.env.get? "GH_AW_WORKFLOW_ID" = some w.id := by
  refine ⟨hloaded.mem_id, ?_, hloaded.isIdentifier_id_iff, exists_fileName_of_compile h, ?_⟩
  · rw [Text.isIdentifier_iff, and_iff_left hloaded.mem_id]
  · intro outputs houtputs htype hon
    exact exists_identifier_of_compile h houtputs htype hon

/-- A workflow that makes pull requests, from a source. -/
def dailyText (file : String) : String :=
  "name = 'Daily report'\nsource = '.github/workflows/" ++ file
    ++ "'\n[safe-outputs]\ncreate-pull-request = true\n"

/-- The jobs of such a workflow, each after what it may need. -/
def dailyOrder : List String :=
  ["activation", "agent", "detection", "create_pull_request", "conclusion"]

/-- What is looked at in such a workflow. -/
def dailyView (w : Workflow) : String × Bool × Bool :=
  (w.id, w.fitsOrder .default ⟨Engine.defaultCommand⟩ {} dailyOrder,
    w.safeOutputs.any fun outputs => outputs.isEnabled .createPullRequest)

/-- Such a workflow is accepted if its jobs fit their order. -/
theorem exists_daily {text id : String}
    (h : ((ofDocument text).map dailyView).toOption = some (id, true, true)) :
    ∃ (w : Workflow) (compiled : Compiled) (outputs : SafeOutputs), w.Loaded
      ∧ w.compile .default ⟨Engine.defaultCommand⟩ {} = .ok compiled ∧ w.id = id
      ∧ w.safeOutputs = some outputs ∧ outputs.isEnabled .createPullRequest = true := by
  cases hread : ofDocument text with
  | error failure =>
    rw [hread] at h
    cases h
  | ok w =>
    rw [hread] at h
    obtain ⟨hid, hrest⟩ := Prod.mk.inj (Option.some.inj h)
    obtain ⟨hfits, hon⟩ := Prod.mk.inj hrest
    obtain ⟨compiled, hcompiled⟩ := exists_compile_of_fitsOrder hfits
    cases houtputs : w.safeOutputs with
    | none =>
      rw [houtputs] at hon
      cases hon
    | some outputs =>
      rw [houtputs] at hon
      exact ⟨w, compiled, outputs, .inl ⟨text, hread⟩, hcompiled, hid, houtputs, hon⟩

theorem daily_identifier : ∃ (w : Workflow) (compiled : Compiled), w.Loaded
    ∧ w.compile .default ⟨Engine.defaultCommand⟩ {} = .ok compiled
    ∧ Text.IsIdentifier w.id
    ∧ (∃ job step, compiled.graph.get? "activation" = some job ∧ step ∈ job.steps
      ∧ step.env.get? "GH_AW_WORKFLOW_FILE" = some "sales-2.lock.yml")
    ∧ ∃ job step, compiled.graph.get? "create_pull_request" = some job ∧ step ∈ job.steps
      ∧ step.env.get? "GH_AW_WORKFLOW_ID" = some "sales-2" := by
  have hview : ((ofDocument (dailyText "Sales (2).v1.md")).map dailyView).toOption
      = some ("sales-2", true, true) := by
    decide +kernel
  obtain ⟨w, compiled, outputs, hloaded, hcompiled, hid, houtputs, hon⟩ := exists_daily hview
  obtain ⟨-, hpattern, -, hfile, hbranch⟩ := compile_identifier hloaded hcompiled
  rw [hid] at hfile hbranch
  have hne : w.id ≠ "" := by
    rw [hid]
    decide
  exact ⟨w, compiled, hloaded, hcompiled, hpattern.mpr hne, hfile,
    hbranch outputs houtputs (by decide) hon⟩

/-- Nothing is left of a source in other letters: the compiled file and the branches are named after
nothing. -/
theorem daily_unidentified : ∃ (w : Workflow) (compiled : Compiled), w.Loaded
    ∧ w.compile .default ⟨Engine.defaultCommand⟩ {} = .ok compiled
    ∧ w.id = "" ∧ ¬Text.IsIdentifier w.id
    ∧ (∃ job step, compiled.graph.get? "activation" = some job ∧ step ∈ job.steps
      ∧ step.env.get? "GH_AW_WORKFLOW_FILE" = some ".lock.yml")
    ∧ ∃ job step, compiled.graph.get? "create_pull_request" = some job ∧ step ∈ job.steps
      ∧ step.env.get? "GH_AW_WORKFLOW_ID" = some "" := by
  have hview : ((ofDocument (dailyText "日報.md")).map dailyView).toOption
      = some ("", true, true) := by
    decide +kernel
  obtain ⟨w, compiled, outputs, hloaded, hcompiled, hid, houtputs, hon⟩ := exists_daily hview
  have hfile := exists_fileName_of_compile hcompiled
  have hbranch := exists_identifier_of_compile hcompiled houtputs (by decide) hon
  rw [hid] at hfile hbranch
  refine ⟨w, compiled, hloaded, hcompiled, hid, ?_, hfile, hbranch⟩
  rw [hid]
  decide

end Workflow

end AgentGate
