import AgentGate.Proofs.Permission
import AgentGate.Proofs.Schema.Agreement
import AgentGate.Workflow.Document

/-!
# The schema of a workflow and its type

A workflow document is checked against the schema and then read. The schema knows nothing of the
sizes of numbers and of what a target may say, and it lets a key of two spellings stand twice. Apart
from that the two agree on every key and on every shape.

- `Schema.agrees_permissions`, `Schema.agrees_step`, `Schema.agrees_job`,
  `Schema.agrees_outputType`, `Schema.agrees_safeOutputs`, `Schema.agrees_workflow`: the parts of a
  workflow, each with what its type asks for beyond the schema.
- `Schema.countsIn`, `Schema.targetsIn`: where in a document that is.
- `Workflow.schema_agrees`: which valid documents are read.
-/

namespace AgentGate

open Json

/-- The text is an unsigned decimal of at most 64 bits, perhaps with a plus sign. -/
def IsNat64Text (text : String) : Prop :=
  ∃ digits n, (text.toList = digits ∨ text.toList = '+' :: digits)
    ∧ Text.decimalValue? digits = some n ∧ n < Nat.pow 2 64

/-- The value names a target: a number, or a text that does when blanks around it are left out. -/
def Json.IsTarget : Json → Prop
  | .text content =>
    Text.trim content = "triggering" ∨ Text.trim content = "*" ∨ IsNat64Text (Text.trim content)
  | value => value.IsNat 64

/-! ## Targets -/

theorem exists_nat64OfText?_iff {text : String} :
    (∃ n, nat64OfText? text = some n) ↔ IsNat64Text text := by
  have hplus : ∀ rest, Text.decimalValue? ('+' :: rest) = none := fun rest => rfl
  simp only [nat64OfText?, Option.filter_eq_some_iff, decide_eq_true_eq]
  constructor
  · rintro ⟨n, hn, hlt⟩
    split at hn
    case h_1 rest heq => exact ⟨rest, n, .inr heq, hn, hlt⟩
    case h_2 => exact ⟨_, n, .inl rfl, hn, hlt⟩
  · rintro ⟨digits, n, hdigits | hdigits, hn, hlt⟩
    · refine ⟨n, ?_, hlt⟩
      split
      case h_1 rest heq =>
        rw [← hdigits, heq, hplus] at hn
        cases hn
      case h_2 => rwa [hdigits]
    · refine ⟨n, ?_, hlt⟩
      rw [hdigits]
      exact hn

theorem exists_target_iff {value : Json} :
    (∃ target, Target.ofJson value = .ok target) ↔ value.IsTarget := by
  cases value with
  | int n =>
    rw [Target.ofJson, exists_map_eq_ok_iff]
    simp only [mapError_eq_ok_iff]
    exact Schema.exists_readNat_iff
  | text content =>
    have hread : (∃ target, Target.ofJson (.text content) = .ok target)
        ↔ ∃ target, Target.ofText? content = some target := by
      rw [Target.ofJson]
      cases Target.ofText? content with
      | none => exact iff_of_false (fun ⟨_, h⟩ => nomatch h) fun ⟨_, h⟩ => nomatch h
      | some target => exact iff_of_true ⟨target, rfl⟩ ⟨target, rfl⟩
    rw [hread, Target.ofText?]
    show _ ↔ Text.trim content = _ ∨ Text.trim content = _ ∨ IsNat64Text (Text.trim content)
    generalize Text.trim content = trimmed
    split
    case h_1 => exact iff_of_true ⟨_, rfl⟩ (.inl rfl)
    case h_2 => exact iff_of_true ⟨_, rfl⟩ (.inr (.inl rfl))
    case h_3 htriggering hany =>
      rw [or_iff_right htriggering, or_iff_right hany, ← exists_nat64OfText?_iff]
      simp only [Option.map_eq_some_iff]
      exact ⟨fun ⟨_, n, hn, _⟩ => ⟨n, hn⟩, fun ⟨n, hn⟩ => ⟨_, n, hn, rfl⟩⟩
  | null | bool | float | array | object =>
    exact iff_of_false (fun ⟨_, h⟩ => nomatch h) id

instance : DecidablePred Json.IsTarget := fun value =>
  decidable_of_iff ((Target.ofJson value).isOk = true) <| by
    rw [← exists_target_iff]
    cases Target.ofJson value with
    | error => exact iff_of_false Bool.false_ne_true fun ⟨_, h⟩ => nomatch h
    | ok target => exact iff_of_true rfl ⟨target, rfl⟩

namespace Schema

variable {value : Json}

/-! ## Texts -/

theorem agrees_optionalText (rule : TextRule) :
    Agrees (.text rule) (optional readText) fun _ => True :=
  (agrees_text rule).optional rfl

theorem agrees_optionalBool : Agrees .boolean (optional readBool) fun _ => True :=
  agrees_bool.optional rfl

theorem agrees_texts : Agrees texts (Json.list readText) fun _ => True :=
  (agrees_text .free).list

theorem agrees_textTable : Agrees textTable (Json.table readText) fun _ => True :=
  (agrees_text .free).table.total fun _ _ _ => trivial

theorem agrees_oneOrMany : Agrees oneOrMany readOneOrMany fun _ => True := by
  refine Agrees.choice (agrees_text .free).map agrees_texts (fun value hvalid => ?_)
    fun value hvalid => ?_
  · obtain ⟨content, rfl⟩ := exists_text_of_accepts hvalid
    exact fun ⟨_, h⟩ => nomatch h
  · obtain ⟨items, rfl, -⟩ := exists_array_of_accepts hvalid
    exact fun ⟨_, h⟩ => nomatch h

/-! ## Grants -/

theorem exists_word_of_accepts {words : List String} (h : (word words).accepts value = true) :
    ∃ content ∈ words, value = .text content := by
  cases value with
  | text content =>
    refine ⟨content, Decidable.byContradiction fun hunknown => ?_, rfl⟩
    rw [accepts, List.isEmpty_iff, violations] at h
    change (if words.contains content then [] else _) = [] at h
    rw [if_neg (by rwa [List.contains_iff_mem])] at h
    cases h
  | null | bool | int | float | array | object => cases h

theorem agrees_word (words : List String) : Agrees (word words) readText fun _ => True := by
  intro value _ hvalid
  obtain ⟨content, -, rfl⟩ := exists_word_of_accepts hvalid
  exact iff_of_true ⟨content, rfl⟩ trivial

theorem agrees_permissions : Agrees permissions Permissions.ofJson fun _ => True := by
  intro value _ hvalid
  refine iff_of_true ?_ trivial
  rcases accepts_choice hvalid with hvalid | hvalid
  · obtain ⟨content, hcontent, rfl⟩ := exists_word_of_accepts hvalid
    rcases List.mem_pair.mp hcontent with rfl | rfl
    · exact ⟨_, rfl⟩
    · exact ⟨_, rfl⟩
  · obtain ⟨members, rfl, hmembers⟩ := exists_object_of_accepts_table hvalid
    have hentries : ∀ entry ∈ members, ∃ grant, Permissions.readEntry entry = .ok grant := by
      intro entry hentry
      obtain ⟨hkey, hword⟩ := hmembers entry hentry
      obtain ⟨scope, -, hscope⟩ := List.mem_map.mp (hkey _ rfl)
      obtain ⟨content, hcontent, hvalue⟩ := exists_word_of_accepts hword
      obtain ⟨level, -, hlevel⟩ := List.mem_map.mp hcontent
      have hentry : entry = (scope.name, .text level.name) :=
        Prod.ext hscope.symm (hvalue.trans (congrArg _ hlevel.symm))
      exact ⟨_, hentry ▸ Permissions.readEntry_name scope level⟩
    obtain ⟨grants, hgrants⟩ := exists_mapM_eq_ok_iff.mpr hentries
    refine ⟨Permissions.ofList grants, ?_⟩
    show (Permissions.readTable (.object members)).mapError _ = _
    rw [Permissions.readTable, hgrants]
    rfl

/-! ## Steps and jobs -/

theorem agrees_step : Agrees step Step.ofJson fun _ => True := by
  have htext := agrees_optionalText .free
  have hfields : Agrees step Step.ofJson (EachMember fun _ _ => True) := by
    refine Agrees.plainRecord (by decide) ?_
    simp only [List.forall_mem_cons]
    exact ⟨fun a => htext.map, fun a => htext.map, fun a => htext.map, fun a => htext.map,
      fun a => htext.map, fun a => agrees_textTable.map, fun a => agrees_textTable.map, nofun⟩
  exact hfields.total fun _ _ _ => trivial

/-- What the type of a job asks of its members. -/
def JobFits (key : String) (value : Json) : Prop :=
  match key with
  | "timeout-minutes" => value.IsNat 32
  | _ => True

theorem agrees_job : Agrees job CustomJob.ofJson (EachMember JobFits) := by
  have htext := agrees_optionalText .free
  have hpermissions := agrees_permissions.optional rfl
  have htimeout := (agrees_nat 32 "u32" 1).optional rfl
  refine Agrees.plainRecord (by decide) ?_
  simp only [List.forall_mem_cons]
  exact ⟨fun a => htext.map, fun a => agrees_oneOrMany.map, fun a => htext.map,
    fun a => htext.map, fun a => hpermissions.map, fun a => htimeout.map,
    fun a => agrees_textTable.map, fun a => agrees_textTable.map, fun a => agrees_step.list.map,
    nofun⟩

/-! ## Outputs -/

/-- What the type of the settings of an output type asks of its members. -/
def SettingFits (key : String) (value : Json) : Prop :=
  match key with
  | "max" | "min" => value.IsNat 32
  | "target" => value.IsTarget
  | _ => True

theorem agrees_outputType : Agrees outputType (Switch.ofJson {} OutputSettings.ofJson)
    (EachMember SettingFits) := by
  have htext := agrees_optionalText .free
  have hcount := (agrees_nat 32 "u32" 0).optional rfl
  have htarget : Agrees target (optional Target.ofJson) IsTarget :=
    Agrees.optional (fun _ _ _ => exists_target_iff) rfl
  refine Agrees.flagOrRecord (fun b => ⟨_, rfl⟩) (fun _ ⟨_, h⟩ => nomatch h)
    (fun _ ⟨_, h⟩ => nomatch h) (Agrees.plainRecord (by decide) ?_).map
  simp only [List.forall_mem_cons]
  exact ⟨fun a => hcount.map, fun a => hcount.map, fun a => htarget.map, fun a => htext.map,
    fun a => agrees_texts.map, fun a => htext.map, fun a => agrees_optionalBool.map,
    fun a => htext.map, fun a => agrees_texts.map, fun a => htext.map,
    fun a => agrees_optionalBool.map, fun a => htext.map, fun a => agrees_optionalBool.map,
    fun a => htext.map, fun a => htext.map, fun a => htext.map, fun a => htext.map,
    fun a => agrees_optionalBool.map, fun a => agrees_optionalBool.map,
    fun a => agrees_optionalBool.map, nofun⟩

theorem agrees_threatDetection : Agrees threatDetection Detection.ofJson fun _ => True := by
  have hfields : Agrees threatDetection Detection.ofJson (EachMember fun _ _ => True) := by
    refine Agrees.flagOrRecord (fun b => ⟨_, rfl⟩) (fun _ ⟨_, h⟩ => nomatch h)
      (fun _ ⟨_, h⟩ => nomatch h) (Agrees.plainRecord (by decide) ?_).map
    simp only [List.forall_mem_cons]
    exact ⟨fun a => agrees_optionalBool.map, fun a => (agrees_optionalText .free).map,
      fun a => agrees_step.list.map, nofun⟩
  exact hfields.total fun _ _ _ => trivial

theorem agrees_app : Agrees app GitHubApp.ofJson fun _ => True := by
  have hfields : Agrees app GitHubApp.ofJson (EachMember fun _ _ => True) := by
    refine Agrees.plainRecord (by decide) ?_
    simp only [List.forall_mem_cons]
    exact ⟨fun a => (agrees_text .free).map, fun a => (agrees_text .free).map,
      fun a => (agrees_optionalText .free).map, fun a => agrees_texts.map, nofun⟩
  exact hfields.total fun _ _ _ => trivial

/-- What the type of the outputs asks of its members. -/
def OutputsFit (key : String) (value : Json) : Prop :=
  match key with
  | "create-issue" | "create-discussion" | "add-comment" | "create-pull-request"
  | "create-pull-request-review-comment" | "create-pr-review-comment"
  | "create-code-scanning-alert" | "add-labels" | "push-to-pull-request-branch"
  | "create-agent-task" | "missing-tool" | "noop" => EachMember SettingFits value
  | "jobs" => ∀ job ∈ value.values, EachMember JobFits job
  | "max-patch-size" => value.IsNat 32
  | _ => True

theorem agrees_safeOutputs : Agrees safeOutputs SafeOutputs.ofJson fun value =>
    (value.keys.map SafeOutputs.shape.field?).Nodup ∧ EachMember OutputsFit value := by
  refine Agrees.record ?_
  simp only [List.forall_mem_cons]
  have htype : ∀ (type : OutputType) (a : SafeOutputs), Agrees outputType
      (SafeOutputs.setField a type.settingKey) (EachMember SettingFits) := by
    intro type a
    cases type <;> exact agrees_outputType.map
  have htext := agrees_optionalText .free
  refine ⟨⟨_, rfl, htype .createIssue⟩, ⟨_, rfl, htype .createDiscussion⟩,
    ⟨_, rfl, htype .addComment⟩, ⟨_, rfl, htype .createPullRequest⟩,
    ⟨_, rfl, htype .createPrReviewComment⟩, ⟨_, rfl, htype .createPrReviewComment⟩,
    ⟨_, rfl, htype .createCodeScanningAlert⟩, ⟨_, rfl, htype .addLabels⟩,
    ⟨_, rfl, htype .pushToPullRequestBranch⟩, ⟨_, rfl, htype .createAgentTask⟩,
    ⟨_, rfl, htype .missingTool⟩, ⟨_, rfl, htype .noop⟩, ⟨_, rfl, fun a => ?_⟩,
    ⟨_, rfl, fun a => ?_⟩, ⟨_, rfl, fun a => ?_⟩, ⟨_, rfl, fun a => htext.map⟩,
    ⟨_, rfl, fun a => agrees_bool.map⟩, ⟨_, rfl, fun a => htext.map⟩,
    ⟨_, rfl, fun a => agrees_textTable.map⟩, ⟨_, rfl, fun a => ?_⟩, nofun⟩
  · exact (agrees_threatDetection.optional rfl).map
  · exact agrees_job.table.map
  · exact (agrees_app.optional rfl).map
  · exact ((agrees_nat 32 "u32" 1).optional rfl).map

/-! ## Workflows -/

theorem agrees_githubTool : Agrees githubTool GitHubTool.ofJson fun _ => True := by
  have hfields : Agrees githubTool GitHubTool.ofJson (EachMember fun _ _ => True) := by
    refine Agrees.plainRecord (by decide) ?_
    simp only [List.forall_mem_cons]
    exact ⟨fun a => agrees_oneOrMany.map.map, fun a => agrees_bool.map, nofun⟩
  exact hfields.total fun _ _ _ => trivial

/-- Not both spellings of the key for review comments are there. -/
def OneSpelling (outputs : Json) : Prop :=
  ¬("create-pull-request-review-comment" ∈ outputs.keys
    ∧ "create-pr-review-comment" ∈ outputs.keys)

/-- The keys of a record. -/
def keys : Schema → List String
  | record _ fields => fields.map Prod.fst
  | _ => []

/-- Two keys of the outputs stand for one field only if they are the two spellings. -/
theorem field_injective : ∀ key ∈ safeOutputs.keys, ∀ other ∈ safeOutputs.keys,
    SafeOutputs.shape.field? key = SafeOutputs.shape.field? other →
      key = other
      ∨ key = "create-pull-request-review-comment" ∧ other = "create-pr-review-comment"
      ∨ key = "create-pr-review-comment" ∧ other = "create-pull-request-review-comment" := by
  decide +kernel

/-- The fields of valid outputs are different unless both spellings are there. -/
theorem nodup_fields_iff (hkeyed : value.Keyed) (hvalid : safeOutputs.accepts value = true) :
    (value.keys.map SafeOutputs.shape.field?).Nodup ↔ OneSpelling value := by
  obtain ⟨members, rfl, hmembers⟩ := exists_object_of_accepts_record hvalid
  cases hkeyed with
  | object hnodup _ =>
    have hknown : ∀ key ∈ (Json.object members).keys, key ∈ safeOutputs.keys := by
      intro key hkey
      obtain ⟨entry, hentry, rfl⟩ := List.mem_map.mp hkey
      obtain ⟨schema, hschema, -⟩ := hmembers entry hentry
      exact List.mem_map.mpr ⟨_, hschema, rfl⟩
    have hkeys : (Json.object members).keys.Nodup := hnodup
    rw [List.nodup_map_iff_inj_on hkeys]
    constructor
    · rintro hinj ⟨hlong, hshort⟩
      exact absurd (hinj _ hlong _ hshort rfl) (by decide)
    · intro hone key hkey other hother heq
      rcases field_injective key (hknown key hkey) other (hknown other hother) heq with
        h | ⟨rfl, rfl⟩ | ⟨rfl, rfl⟩
      · exact h
      · exact absurd ⟨hkey, hother⟩ hone
      · exact absurd ⟨hother, hkey⟩ hone

/-- What the type of a workflow asks of its members. -/
def WorkflowFits (key : String) (value : Json) : Prop :=
  match key with
  | "timeout-minutes" => value.IsNat 32
  | "jobs" => ∀ job ∈ value.values, EachMember JobFits job
  | "safe-outputs" => OneSpelling value ∧ EachMember OutputsFit value
  | _ => True

theorem agrees_workflow : Agrees workflow Workflow.ofJson (EachMember WorkflowFits) := by
  have htext := fun rule => agrees_optionalText rule
  have hword : ∀ words, Agrees (.word words) (optional readText) fun _ => True := fun words =>
    (agrees_word words).optional rfl
  have htimeout := (agrees_nat 32 "u32" 1).optional rfl
  have houtputs : Agrees safeOutputs (optional SafeOutputs.ofJson) fun value =>
      OneSpelling value ∧ EachMember OutputsFit value :=
    (agrees_safeOutputs.congr fun value hkeyed hvalid =>
      and_congr_left' (nodup_fields_iff hkeyed hvalid)).optional rfl
  refine Agrees.plainRecord (by decide) ?_
  simp only [List.forall_mem_cons]
  exact ⟨fun a => (agrees_text _).map, fun a => (htext _).map, fun a => (htext _).map,
    fun a => (htext _).map, fun a => (htext _).map, fun a => (htext _).map,
    fun a => agrees_permissions.map, fun a => (agrees_githubTool.optional rfl).map,
    fun a => agrees_bool.map, fun a => (htext _).map, fun a => (hword _).map,
    fun a => (htext _).map, fun a => (htext _).map, fun a => htimeout.map,
    fun a => agrees_job.table.map, fun a => houtputs.map, nofun⟩

/-! ## Places in a document -/

/-- The keys that turn an output type on. -/
def outputKeys : List String :=
  OutputType.all.map OutputType.settingKey ++ ["create-pr-review-comment"]

/-- The settings of output types in a document. -/
def settingsIn (document : Json) : List Json :=
  (document.under ["safe-outputs"]).flatMap (under outputKeys)

/-- The jobs that a document declares, beside the agent and for outputs. -/
def jobsIn (document : Json) : List Json :=
  ((document :: document.under ["safe-outputs"]).flatMap (under ["jobs"])).flatMap values

/-- What a document counts: minutes, outputs and the size of patches. -/
def countsIn (document : Json) : List Json :=
  (document :: jobsIn document).flatMap (under ["timeout-minutes"])
    ++ (settingsIn document).flatMap (under ["max", "min"])
    ++ (document.under ["safe-outputs"]).flatMap (under ["max-patch-size"])

/-- The targets of output types in a document. -/
def targetsIn (document : Json) : List Json :=
  (settingsIn document).flatMap (under ["target"])

theorem eachMember_jobFits_iff :
    EachMember JobFits value ↔ ∀ count ∈ value.under ["timeout-minutes"], count.IsNat 32 := by
  rw [forall_mem_under]
  refine forall₂_congr fun entry _ => ?_
  unfold JobFits
  split <;> simp_all

theorem eachMember_settingFits_iff : EachMember SettingFits value
    ↔ (∀ count ∈ value.under ["max", "min"], count.IsNat 32)
      ∧ ∀ target ∈ value.under ["target"], target.IsTarget := by
  rw [forall_mem_under, forall_mem_under, ← forall₂_and]
  refine forall₂_congr fun entry _ => ?_
  unfold SettingFits
  split <;> simp_all

theorem eachMember_outputsFit_iff : EachMember OutputsFit value
    ↔ (∀ settings ∈ value.under outputKeys, EachMember SettingFits settings)
      ∧ (∀ jobs ∈ value.under ["jobs"], ∀ job ∈ jobs.values, EachMember JobFits job)
      ∧ ∀ count ∈ value.under ["max-patch-size"], count.IsNat 32 := by
  rw [forall_mem_under, forall_mem_under, forall_mem_under, ← forall₂_and, ← forall₂_and]
  refine forall₂_congr fun entry _ => ?_
  unfold OutputsFit
  split <;> simp_all [outputKeys, OutputType.all, OutputType.settingKey]

theorem eachMember_workflowFits_iff : EachMember WorkflowFits value
    ↔ (∀ count ∈ value.under ["timeout-minutes"], count.IsNat 32)
      ∧ (∀ jobs ∈ value.under ["jobs"], ∀ job ∈ jobs.values, EachMember JobFits job)
      ∧ ∀ outputs ∈ value.under ["safe-outputs"],
        OneSpelling outputs ∧ EachMember OutputsFit outputs := by
  rw [forall_mem_under, forall_mem_under, forall_mem_under, ← forall₂_and, ← forall₂_and]
  refine forall₂_congr fun entry _ => ?_
  unfold WorkflowFits
  split <;> simp_all

theorem forall_mem_flatMap {α β : Type} {l : List α} {f : α → List β} {p : β → Prop} :
    (∀ b ∈ l.flatMap f, p b) ↔ ∀ a ∈ l, ∀ b ∈ f a, p b :=
  ⟨fun h a ha b hb => h b (List.mem_flatMap.mpr ⟨a, ha, hb⟩), fun h b hb =>
    let ⟨a, ha, hb⟩ := List.mem_flatMap.mp hb
    h a ha b hb⟩

theorem forall_countsIn_iff {p : Json → Prop} : (∀ count ∈ countsIn value, p count)
    ↔ ((∀ count ∈ value.under ["timeout-minutes"], p count)
        ∧ ∀ job ∈ jobsIn value, ∀ count ∈ job.under ["timeout-minutes"], p count)
      ∧ (∀ settings ∈ settingsIn value, ∀ count ∈ settings.under ["max", "min"], p count)
      ∧ ∀ outputs ∈ value.under ["safe-outputs"], ∀ count ∈ outputs.under ["max-patch-size"],
        p count := by
  rw [countsIn, List.forall_mem_append, List.forall_mem_append, forall_mem_flatMap,
    forall_mem_flatMap, forall_mem_flatMap, List.forall_mem_cons, and_assoc]

theorem forall_jobsIn_iff {p : Json → Prop} : (∀ job ∈ jobsIn value, p job)
    ↔ (∀ jobs ∈ value.under ["jobs"], ∀ job ∈ jobs.values, p job)
      ∧ ∀ outputs ∈ value.under ["safe-outputs"],
        ∀ jobs ∈ outputs.under ["jobs"], ∀ job ∈ jobs.values, p job := by
  rw [jobsIn, forall_mem_flatMap, forall_mem_flatMap, List.forall_mem_cons]

end Schema

namespace Workflow

open Schema

/-- **The schema and the type agree.** A document that satisfies the schema is read as a workflow,
unless one of its numbers is not written as an integer of 32 bits, or of 64 bits where it is a
target; or a target that is a text is, without the blanks around it, neither `triggering` nor `*`
nor a decimal of 64 bits; or both spellings of the key for review comments are there. Documents in
TOML have no key twice (`Toml.keyed_of_jsonOfText?`). -/
theorem schema_agrees {document : Json} (hkeyed : document.Keyed)
    (hvalid : Schema.workflow.accepts document = true) :
    (∃ w, Workflow.ofJson document = .ok w)
      ↔ (∀ count ∈ countsIn document, count.IsNat 32)
        ∧ (∀ target ∈ targetsIn document, target.IsTarget)
        ∧ ∀ outputs ∈ document.under ["safe-outputs"],
          ¬("create-pull-request-review-comment" ∈ outputs.keys
            ∧ "create-pr-review-comment" ∈ outputs.keys) := by
  rw [agrees_workflow document hkeyed hvalid, eachMember_workflowFits_iff]
  simp only [eachMember_outputsFit_iff, eachMember_settingFits_iff, eachMember_jobFits_iff,
    forall_countsIn_iff, forall_jobsIn_iff, targetsIn, settingsIn, forall_mem_flatMap, forall_and,
    OneSpelling]
  tauto

/-- A workflow with review comments on a target. -/
def reviewText (target : String) : String :=
  "name = 'Review'\ntimeout-minutes = 4294967295\n"
    ++ "[safe-outputs.create-pr-review-comment]\ntarget = '" ++ target ++ "'\n"

theorem review_schema_agrees :
    (∃ document, Toml.jsonOfText? fitsInteger (reviewText " +18446744073709551615") = some document
      ∧ ∃ w, Workflow.ofJson document = .ok w)
    ∧ ∃ document, Toml.jsonOfText? fitsInteger (reviewText "18446744073709551616") = some document
      ∧ ¬∃ w, Workflow.ofJson document = .ok w := by
  constructor
  · have hread : (Toml.jsonOfText? fitsInteger (reviewText " +18446744073709551615")).any
        (fun document => decide (Schema.workflow.accepts document = true
          ∧ (∀ count ∈ countsIn document, count.IsNat 32)
          ∧ (∀ target ∈ targetsIn document, target.IsTarget)
          ∧ ∀ outputs ∈ document.under ["safe-outputs"],
            ¬("create-pull-request-review-comment" ∈ outputs.keys
              ∧ "create-pr-review-comment" ∈ outputs.keys))) = true := by
      decide +kernel
    simp only [Option.any_eq_true, decide_eq_true_eq] at hread
    obtain ⟨document, hdocument, hvalid, hfits⟩ := hread
    exact ⟨document, hdocument,
      (schema_agrees (Toml.keyed_of_jsonOfText? hdocument) hvalid).mpr hfits⟩
  · have hread : (Toml.jsonOfText? fitsInteger (reviewText "18446744073709551616")).any
        (fun document => decide (Schema.workflow.accepts document = true
          ∧ ¬∀ target ∈ targetsIn document, target.IsTarget)) = true := by
      decide +kernel
    simp only [Option.any_eq_true, decide_eq_true_eq] at hread
    obtain ⟨document, hdocument, hvalid, hmisfit⟩ := hread
    refine ⟨document, hdocument, fun hw => hmisfit ?_⟩
    exact ((schema_agrees (Toml.keyed_of_jsonOfText? hdocument) hvalid).mp hw).2.1

end Workflow

end AgentGate
