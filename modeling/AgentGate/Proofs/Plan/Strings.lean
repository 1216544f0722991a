import AgentGate.Plan.Compile
import AgentGate.Proofs.Plan.Texts

/-!
# The strings that a workflow gives

The texts of jobs are made from what the workflow gives and from what is built in. A workflow is
quiet when its own strings are silent; then they bring no reference into any text, and neither does
what is derived from them, such as the identifier of the workflow, the variables of a handler or a
token that the workflow names. The only token that is a reference is the minted one.

- `Workflow.strings`: the strings of a workflow that may get into a text of a job.
- `Workflow.Quiet`: these strings are silent, and declared jobs have names that can be referred to.
- `HandlerStep.Source`: where the value of a variable comes from.
- `HandlerStep.mem_values_envOf`: the values of the variables of a handler.
- `Token.mem_texts_mintStep`: the texts of the step that mints a token.
- `Token.minted_or_silent`: a token is the minted one or silent.
-/

namespace AgentGate

open Reference Text

/-- A text that is silent if it is there. -/
def Text.SilentIfGiven (text : Option String) : Prop :=
  ∀ s, text = some s → Silent s.toList

theorem Text.SilentIfGiven.getD {text : Option String} {other : String} (h : SilentIfGiven text)
    (hother : Silent other.toList) : Silent (text.getD other).toList := by
  cases text with
  | none => exact hother
  | some s => exact h s rfl

/-! ## What is given -/

def OutputSettings.strings (settings : OutputSettings) : List String :=
  settings.targetRepo.toList ++ settings.githubToken.toList ++ settings.titlePrefix.toList
    ++ settings.category.toList ++ settings.ifNoChanges.toList ++ settings.commitTitleSuffix.toList
    ++ settings.side.toList ++ settings.driver.toList ++ settings.base.toList
    ++ settings.allowed ++ settings.labels

def DetectionSettings.strings (given : DetectionSettings) : List String :=
  given.prompt.toList ++ given.steps.flatMap Step.texts

def GitHubApp.strings (app : GitHubApp) : List String :=
  [app.appId, app.privateKey] ++ app.owner.toList ++ app.repositories

def CustomJob.strings (config : CustomJob) : List String :=
  config.condition.toList ++ config.env.values ++ config.outputs.values
    ++ config.steps.flatMap Step.texts

def SafeOutputs.strings (outputs : SafeOutputs) : List String :=
  (OutputType.all.flatMap fun type =>
      (outputs.settings? type).toList.flatMap OutputSettings.strings)
    ++ (outputs.threatDetection.bind Detection.settings?).toList.flatMap DetectionSettings.strings
    ++ outputs.app.toList.flatMap GitHubApp.strings ++ outputs.githubToken.toList
    ++ outputs.env.values

namespace Workflow

/-- The strings of a workflow that may get into a text of a job, with the names of its jobs. -/
def strings (w : Workflow) : List String :=
  w.name :: w.workflowId.toList ++ w.source.toList ++ w.trackerId.toList ++ w.engine.toList
    ++ w.githubToken.toList ++ w.command.toList ++ w.reaction.toList ++ w.stopTime.toList
    ++ (w.declaredJobs.flatMap fun entry => entry.1 :: entry.2.strings)
    ++ w.safeOutputs.toList.flatMap SafeOutputs.strings

/-- The strings of an output type's settings are among those of the workflow. -/
theorem mem_strings_of_settings {w : Workflow} {outputs : SafeOutputs} {type : OutputType}
    {settings : OutputSettings} (houtputs : w.safeOutputs = some outputs)
    (hset : outputs.settings? type = some settings) {s : String} (hs : s ∈ settings.strings) :
    s ∈ w.strings := by
  have hgiven : s ∈ OutputType.all.flatMap fun type =>
      (outputs.settings? type).toList.flatMap OutputSettings.strings :=
    List.mem_flatMap.mpr ⟨type, type.mem_all,
      List.mem_flatMap.mpr ⟨settings, Option.mem_toList.mpr hset, hs⟩⟩
  refine List.mem_append_right _ (List.mem_flatMap.mpr
    ⟨outputs, Option.mem_toList.mpr houtputs, ?_⟩)
  simp only [SafeOutputs.strings, List.mem_append, hgiven, true_or]

/-- What a workflow and its surroundings give brings no reference into a text: no string has one of
the words in it, in whatever letter case, and declared jobs have names that can be referred to. -/
structure Quiet (w : Workflow) (engine : Engine) : Prop where
  strings : ∀ s ∈ w.strings, Silent s.toList
  command : Silent engine.command.toList
  names : ∀ name ∈ w.declaredNames, ∀ c ∈ name.toList, isNameChar c = true

namespace Quiet

variable {w : Workflow} {engine : Engine} {outputs : SafeOutputs} {name : String}
  {config : CustomJob} {type : OutputType} {settings : OutputSettings}

theorem silent_name (h : w.Quiet engine) : Silent w.name.toList :=
  h.strings _ (by simp [Workflow.strings])

theorem silent_id (h : w.Quiet engine) : Silent w.id.toList :=
  Workflow.silent_id h.silent_name (fun id hid => h.strings id (by simp [Workflow.strings, hid]))
    fun source hsource => h.strings source (by simp [Workflow.strings, hsource])

theorem silent_fileName (h : w.Quiet engine) : Silent w.fileName.toList :=
  silent_append_literal h.silent_id (by decide)

/-- A declared job has a name that can be referred to, and silent strings. -/
theorem of_declaredJobs (h : w.Quiet engine) (hentry : (name, config) ∈ w.declaredJobs) :
    Plain name ∧ ∀ s ∈ config.strings, Silent s.toList := by
  have hgiven : ∀ s ∈ name :: config.strings, Silent s.toList := fun s hs =>
    h.strings s (List.mem_append_left _ (List.mem_append_right _
      (List.mem_flatMap.mpr ⟨_, hentry, hs⟩)))
  have hname : name ∈ w.declaredNames :=
    Table.mem_distinct.mpr (List.mem_map_of_mem hentry)
  exact ⟨⟨h.names name hname, hgiven name List.mem_cons_self⟩,
    fun s hs => hgiven s (List.mem_cons_of_mem _ hs)⟩

theorem of_beside (h : w.Quiet engine) (hconfig : w.jobs.get? name = some config) :
    Plain name ∧ ∀ s ∈ config.strings, Silent s.toList :=
  h.of_declaredJobs (List.mem_append_left _ (Table.get?_eq_some_iff.mp hconfig))

theorem of_ownOutput (h : w.Quiet engine) (houtputs : w.safeOutputs = some outputs)
    (hconfig : outputs.jobs.get? name = some config) :
    Plain name ∧ ∀ s ∈ config.strings, Silent s.toList :=
  h.of_declaredJobs (List.mem_append_right _ (List.mem_flatMap.mpr
    ⟨outputs, Option.mem_toList.mpr houtputs, Table.get?_eq_some_iff.mp hconfig⟩))

theorem of_outputs (h : w.Quiet engine) (houtputs : w.safeOutputs = some outputs) :
    ∀ s ∈ outputs.strings, Silent s.toList := fun s hs =>
  h.strings s (List.mem_append_right _
    (List.mem_flatMap.mpr ⟨outputs, Option.mem_toList.mpr houtputs, hs⟩))

theorem of_settings (h : w.Quiet engine) (houtputs : w.safeOutputs = some outputs)
    (hset : outputs.settings? type = some settings) : ∀ s ∈ settings.strings, Silent s.toList :=
  fun s hs => h.strings s (mem_strings_of_settings houtputs hset hs)

end Quiet

end Workflow

/-! ## The variables of a handler -/

namespace HandlerStep

open EnvEntries

/-- The values of variables that are built in. -/
def builtinValues : List String :=
  ["true", "false", "warn", "triggering", "*", Artifact.outputPath,
    Embedded.embed "github.ref_name", Embedded.embed "github.repository"]

/-- Where the value of a variable comes from that is neither a token nor an output of another job.
The settings or the workflow give it, or it is made of what they give, or it is a number, or it is
built in. -/
inductive Source (settings : OutputSettings) (w : Workflow) : String → Prop where
  | setting {s : String} (h : s ∈ settings.strings) : Source settings w s
  | workflow {s : String}
    (h : s ∈ w.name :: w.source.toList ++ w.trackerId.toList ++ w.engine.toList) :
    Source settings w s
  | listing {items : List String} (h : ∀ item ∈ items, item ∈ settings.strings) :
    Source settings w (",".intercalate items)
  | id : Source settings w w.id
  | fileName : Source settings w w.fileName
  | number (n : Nat) : Source settings w (toString n)
  | builtin {s : String} (h : s ∈ builtinValues) : Source settings w s

/-- A variable that, if it is there, has a value from such a source. -/
def Sourced (settings : OutputSettings) (w : Workflow) (given : Option String) : Prop :=
  ∀ value, given = some value → Source settings w value

variable {type : OutputType} {settings : OutputSettings} {w : Workflow} {ctx : HandlerContext}
  {engine : Engine} {value : String}

/-- What is made of silent strings is silent. -/
theorem Source.silent (hquiet : w.Quiet engine)
    (hsettings : ∀ s ∈ settings.strings, Silent s.toList) (h : Source settings w value) :
    Silent value.toList := by
  have hbuiltin : ∀ s ∈ builtinValues, Silent s.toList := by
    decide +kernel
  cases h with
  | setting h => exact hsettings _ h
  | workflow h =>
    refine hquiet.strings _ ?_
    simp only [List.cons_append, List.mem_cons, List.mem_append] at h
    rcases h with rfl | (h | h) | h <;> simp [Workflow.strings, *]
  | listing h => exact silent_listing fun item hitem => hsettings item (h item hitem)
  | id => exact hquiet.silent_id
  | fileName => exact hquiet.silent_fileName
  | number n => exact silent_toString_nat n
  | builtin h => exact hbuiltin _ h

namespace Sourced

theorem of_source {s : String} (h : Source settings w s) : Sourced settings w (some s) := by
  rintro _ ⟨⟩
  exact h

theorem of_setting {given : Option String}
    (h : ∀ s, given = some s → s ∈ settings.strings) : Sourced settings w given :=
  fun s hs => .setting (h s hs)

theorem of_workflow {given : Option String} (h : ∀ s, given = some s →
    s ∈ w.name :: w.source.toList ++ w.trackerId.toList ++ w.engine.toList) :
    Sourced settings w given :=
  fun s hs => .workflow (h s hs)

theorem of_listed {items : List String} (h : ∀ item ∈ items, item ∈ settings.strings) :
    Sourced settings w (listed items) := by
  rw [listed]
  split
  · exact nofun
  · exact of_source (.listing h)

theorem of_whenTrue (given : Option Bool) : Sourced settings w (whenTrue given) := by
  rw [whenTrue]
  split
  · exact of_source (.builtin (by decide))
  · exact nofun

theorem of_map {α : Type} {text : α → String} (h : ∀ a, Source settings w (text a))
    (given : Option α) : Sourced settings w (given.map text) := by
  cases given with
  | none => exact nofun
  | some a => exact of_source (h a)

end Sourced

theorem source_of_flag (b : Bool) : Source settings w (toString b) := by
  cases b <;> exact .builtin (by decide)

theorem source_of_target (target : Target) : Source settings w target.text := by
  cases target with
  | triggering => exact .builtin (by decide)
  | any => exact .builtin (by decide)
  | number n => exact .number n

/-- The variables that a type has of its own. -/
theorem sourced_ownEnv : ∀ entry ∈ ownEnv type settings w ctx, Sourced settings w entry.2 := by
  have hmode : Sourced settings w (some (settings.ifNoChanges.getD "warn")) := by
    refine Sourced.of_source ?_
    cases hgiven : settings.ifNoChanges with
    | none => exact .builtin (by decide)
    | some mode => exact .setting (by simp [OutputSettings.strings, hgiven])
  have hbuiltin : ∀ s ∈ builtinValues, Sourced settings w (some s) := fun s hs =>
    .of_source (.builtin hs)
  have hpath := hbuiltin Artifact.outputPath (by decide)
  have hbranch := hbuiltin (Embedded.embed "github.ref_name") (by decide)
  have hrepository := hbuiltin (Embedded.embed "github.repository") (by decide)
  have hid : Sourced settings w (some w.id) := .of_source .id
  have hfile : Sourced settings w (some w.fileName) := .of_source .fileName
  have hnumber := fun n : Nat => Sourced.of_source (.number n : Source settings w (toString n))
  have hflag := fun b : Bool => Sourced.of_source (source_of_flag b : Source settings w _)
  have hnumbers := Sourced.of_map (.number : ∀ n : Nat, Source settings w (toString n))
  have hflags := Sourced.of_map (source_of_flag : ∀ b : Bool, Source settings w (toString b))
  have htargets := Sourced.of_map (source_of_target : ∀ t : Target, Source settings w t.text)
  have hpush := Sourced.of_source
    (source_of_target (settings.target.getD .triggering) : Source settings w _)
  have hlabels : Sourced settings w (listed settings.labels) :=
    .of_listed fun _ h => by simp [OutputSettings.strings, h]
  have hallowed : Sourced settings w (listed settings.allowed) :=
    .of_listed fun _ h => by simp [OutputSettings.strings, h]
  have htitle : Sourced settings w settings.titlePrefix :=
    .of_setting fun _ h => by simp [OutputSettings.strings, h]
  have hcategory : Sourced settings w settings.category :=
    .of_setting fun _ h => by simp [OutputSettings.strings, h]
  have hsuffix : Sourced settings w settings.commitTitleSuffix :=
    .of_setting fun _ h => by simp [OutputSettings.strings, h]
  have hside : Sourced settings w settings.side :=
    .of_setting fun _ h => by simp [OutputSettings.strings, h]
  have hdriver : Sourced settings w settings.driver :=
    .of_setting fun _ h => by simp [OutputSettings.strings, h]
  have hbase : Sourced settings w settings.base :=
    .of_setting fun _ h => by simp [OutputSettings.strings, h]
  have hrepo : Sourced settings w settings.targetRepo :=
    .of_setting fun _ h => by simp [OutputSettings.strings, h]
  cases type <;>
    simp only [ownEnv, List.forall_mem_cons, List.not_mem_nil, IsEmpty.forall_iff, implies_true,
      Sourced.of_whenTrue, hnumbers, htargets, hpath, hbranch, hrepository, hid, hfile, htitle,
      hsuffix, hcategory, hside, hdriver, hbase, hrepo, hmode, hlabels, hallowed, hnumber, hflag,
      hflags, hpush, and_self]

/-- The variables that every type has. -/
theorem sourced_commonEnv : ∀ entry ∈ commonEnv settings w ctx,
    entry.2 = some (Token.ofSettings settings w ctx.outputs) ∨ Sourced settings w entry.2 := by
  have hname : Sourced settings w (some w.name) :=
    .of_source (.workflow (by simp))
  have hsource : Sourced settings w w.source := .of_workflow fun _ h => by simp [h]
  have htracker : Sourced settings w w.trackerId := .of_workflow fun _ h => by simp [h]
  have hengine : Sourced settings w w.engine := .of_workflow fun _ h => by simp [h]
  have hrepo : Sourced settings w settings.targetRepo :=
    .of_setting fun _ h => by simp [OutputSettings.strings, h]
  have hnumbers := Sourced.of_map (.number : ∀ n : Nat, Source settings w (toString n))
  simp only [commonEnv, List.forall_mem_cons, List.not_mem_nil, IsEmpty.forall_iff, implies_true,
    hname, hsource, htracker, hengine, hrepo, hnumbers, Sourced.of_whenTrue, true_or, or_true,
    and_self]

/-- The value of a variable of a handler is the token, or it comes from the settings or the
workflow, or it is an output of another job. -/
theorem mem_values_envOf (h : value ∈ (envOf type settings w ctx).values) :
    value = Token.ofSettings settings w ctx.outputs ∨ Source settings w value
      ∨ ∃ entry ∈ reads type w ctx, value = entry.2.expression := by
  obtain ⟨key, hentry⟩ := Table.mem_values_ofList h
  obtain ⟨⟨key, given⟩, hgiven, heq⟩ := List.mem_filterMap.mp hentry
  obtain ⟨value, rfl, heq⟩ := Option.map_eq_some_iff.mp heq
  cases heq
  simp only [List.mem_append] at hgiven
  rcases hgiven with (hcommon | hown) | hread
  · rcases sourced_commonEnv _ hcommon with htoken | hsourced
    · exact .inl (Option.some.inj htoken)
    · exact .inr (.inl (hsourced value rfl))
  · exact .inr (.inl (sourced_ownEnv _ hown value rfl))
  · obtain ⟨source, hsource, heq⟩ := List.mem_map.mp hread
    cases heq
    exact .inr (.inr ⟨source, hsource, rfl⟩)

end HandlerStep

/-! ## Tokens -/

/-- The texts of the step that mints a token that are built in. -/
def Token.mintTexts : List String :=
  ["Generate GitHub App token", "actions/create-github-app-token@v2",
    Embedded.embed "github.repository_owner", Embedded.embed "github.event.repository.name"]

/-- The other texts of that step are given by the app, or are its repositories, or levels. -/
theorem Token.mem_texts_mintStep {app : GitHubApp} {permissions : Permissions} {text : String}
    (h : text ∈ (mintStep app permissions).texts) :
    text ∈ mintTexts ∨ text ∈ app.strings ∨ text = ",".intercalate app.repositories
      ∨ ∃ level : Level, text = level.name := by
  rcases Step.mem_texts_withInputs h with hinput | haction
  · obtain ⟨key, hentry⟩ := Table.mem_values_ofList hinput
    rcases List.mem_append.mp hentry with hentry | hentry
    · simp only [List.mem_cons, List.not_mem_nil, or_false, Prod.mk.injEq] at hentry
      rcases hentry with ⟨-, rfl⟩ | ⟨-, rfl⟩ | ⟨-, rfl⟩ | ⟨-, rfl⟩
      · exact .inr (.inl List.mem_cons_self)
      · exact .inr (.inl (List.mem_cons_of_mem _ List.mem_cons_self))
      · cases howner : app.owner with
        | none => exact .inl (by simp [mintTexts])
        | some owner => exact .inr (.inl (by simp [GitHubApp.strings, howner]))
      · split
        · exact .inl (by simp [mintTexts])
        · exact .inr (.inr (.inl rfl))
    · obtain ⟨permission, -, heq⟩ := List.mem_map.mp hentry
      obtain ⟨-, rfl⟩ := Prod.mk.inj heq
      exact .inr (.inr (.inr ⟨permission.2, rfl⟩))
  · exact .inl (List.mem_append_left [_, _] haction)

/-- **A token is the minted one, where there is an app, or silent**: no other token refers to a
step. -/
theorem Token.minted_or_silent {w : Workflow} {engine : Engine} {outputs : SafeOutputs}
    {settings : OutputSettings} (hquiet : w.Quiet engine) (houtputs : w.safeOutputs = some outputs)
    (hsettings : ∀ s ∈ settings.strings, Silent s.toList) :
    (Token.ofSettings settings w outputs = Token.minted ∧ ∃ app, outputs.app = some app)
      ∨ Silent (Token.ofSettings settings w outputs).toList := by
  have hcustom : Silent (settings.githubToken.getD "").toList :=
    SilentIfGiven.getD
      (fun token htoken => hsettings token (by simp [OutputSettings.strings, htoken])) silent_nil
  have hnamed : ∀ token ∈ outputs.githubToken.toList ++ w.githubToken.toList,
      Silent token.toList := by
    intro token htoken
    rcases List.mem_append.mp htoken with htoken | htoken
    · exact hquiet.of_outputs houtputs token (by simp [SafeOutputs.strings, htoken])
    · exact hquiet.strings token (by simp [Workflow.strings, htoken])
  have htop : (Token.topLevel w outputs = Token.minted ∧ ∃ app, outputs.app = some app)
      ∨ Silent (Token.topLevel w outputs).toList := by
    rw [Token.topLevel]
    split
    case isTrue happ => exact .inl ⟨rfl, Option.isSome_iff_exists.mp happ⟩
    case isFalse =>
      exact .inr (SilentIfGiven.getD
        (fun token htoken => hnamed token (List.mem_of_find?_eq_some htoken)) silent_nil)
  rw [Token.ofSettings, Token.effective]
  split
  · exact .inr hcustom
  · split
    · exact htop
    · exact .inr (silent_append_literal
        (silent_literal_append (by decide) (silent_literal (by decide))) (by decide))

end AgentGate
