import AgentGate.Proofs.Handler.Variables
import AgentGate.Proofs.Json.Path
import AgentGate.Proofs.Permission
import AgentGate.Proofs.Permission.Level
import AgentGate.Proofs.Plan.Mentions

/-!
# The life of a minted token

Where a workflow names a GitHub App, a handler job mints a token for itself, and revokes it at its
end; but a type that has a token of its own acts with that one, and its job mints none. Who reads
the job sees which of the two it is: no step uses the minted token before it is minted, none is left
behind the step that revokes it, and a job with a token of its own does not mention the minted one.

- `Token.MintedIn`, `Token.AbsentFrom`: jobs that mint a token, and jobs that know of none.
- `Token.ActsIn`: jobs in which everything is done with one token.
- `HandlerStep.Ordinary`: the steps of a handler that neither mint nor revoke.
- `Workflow.steps_wired_handlerJobOf`: where minting and revoking stand among them.
- `Workflow.compile_token_hygiene`: the tokens of the handler jobs of an accepted workflow.
-/

namespace AgentGate

open Text

/-! ## Tokens in a job -/

namespace Token

/-- The texts of the step use the minted token. -/
def UsedBy (step : Step) : Prop :=
  ∃ text ∈ step.texts, Mentions reference text

instance : DecidablePred UsedBy := fun step =>
  inferInstanceAs (Decidable (∃ text ∈ step.texts, Mentions reference text))

/-- The script of the step asks for the end of the token that it has. -/
def RevokedBy (step : Step) : Prop :=
  ∃ script, step.run = some script ∧ Mentions "DELETE /installation/token" script

/-- The job mints a token and revokes it. -/
structure MintedIn (job : Job) : Prop where
  /-- One step mints the token, before any step uses it, with the permissions of the job. -/
  mint : ∃ before step after, job.steps = before ++ step :: after
    ∧ step.id = some mintId ∧ (∀ other ∈ before ++ after, other.id ≠ some mintId)
    ∧ (∀ other ∈ before ++ [step], ¬UsedBy other)
    ∧ ∀ name level, step.inputs.get? ("permission-" ++ name) = some level
      ↔ ∃ scope : Scope, scope.name = name ∧ Level.none < job.permissions.get scope
        ∧ (job.permissions.get scope).name = level
  /-- The last step and no other revokes it, whatever happened before. -/
  revoke : ∃ before step, job.steps = before ++ [step]
    ∧ RevokedBy step ∧ step.env.get? "GH_TOKEN" = some minted ∧ step.condition = some "always()"
    ∧ ∀ other ∈ before, ¬RevokedBy other

/-- The job neither mints a token nor revokes one, and nothing in it mentions the minted one. -/
structure AbsentFrom (job : Job) : Prop where
  mint : ∀ step ∈ job.steps, step.id ≠ some mintId
  revoke : ∀ step ∈ job.steps, ¬RevokedBy step
  mentions : ∀ path text, job.toJson.Holds path text → ¬Mentions reference text

/-- The script of a type acts with the token, and code is checked out with it. -/
structure ActsIn (token : String) (type : OutputType) (job : Job) : Prop where
  exists_script : ∃ step ∈ job.steps, step.id = some type.name
  script : ∀ step ∈ job.steps, step.id = some type.name →
    step.env.get? "GITHUB_TOKEN" = some token ∧ step.inputs.get? "github-token" = some token
  checkout : ∀ step ∈ job.steps, step.uses = Step.checkout.uses →
    step.inputs.get? "token" = some token

/-- Only a script revokes a token. -/
theorem not_revokedBy_of_run_eq_none {step : Step} (h : step.run = none) : ¬RevokedBy step := by
  rintro ⟨script, hrun, -⟩
  rw [h] at hrun
  cases hrun

end Token

/-! ## The steps of a handler -/

namespace HandlerStep

variable {type : OutputType} {settings : OutputSettings} {w : Workflow} {ctx : HandlerContext}
  {registry : Registry} {options : CompileOptions} {outputs : SafeOutputs}

/-- The steps of a handler that neither mint a token nor revoke one. -/
inductive Ordinary (type : OutputType) (settings : OutputSettings) (w : Workflow)
    (ctx : HandlerContext) : Step → Prop where
  | download : Ordinary type settings w ctx (Artifact.downloadStep Artifact.outputDirectory)
  | checkout : Ordinary type settings w ctx
    (Step.checkout.withInput "token" (Token.ofSettings settings w ctx.outputs))
  | script : Ordinary type settings w ctx (w.scriptStep type settings ctx)
  | upload (h : type = .createCodeScanningAlert) :
    Ordinary type settings w ctx (uploadFindingsStep type.name)

/-- The token is a variable of every handler. -/
theorem get?_envOf_token : (envOf type settings w ctx).get? "GITHUB_TOKEN"
    = some (Token.ofSettings settings w ctx.outputs) :=
  get?_envOf (List.mem_append_left _ (List.mem_cons_of_mem _ List.mem_cons_self))

namespace Ordinary

variable {step : Step}

theorem id_ne (h : Ordinary type settings w ctx step) : step.id ≠ some Token.mintId := by
  cases h with
  | download | checkout | upload => exact nofun
  | script => exact fun hid => type.name_ne_mintId (Option.some.inj hid)

theorem not_revokedBy (h : Ordinary type settings w ctx step) : ¬Token.RevokedBy step :=
  Token.not_revokedBy_of_run_eq_none (by cases h <;> rfl)

theorem eq_scriptStep (h : Ordinary type settings w ctx step) (hid : step.id = some type.name) :
    step = w.scriptStep type settings ctx := by
  cases h with
  | download | checkout | upload => cases hid
  | script => rfl

theorem token_of_uses (h : Ordinary type settings w ctx step)
    (huses : step.uses = Step.checkout.uses) :
    step.inputs.get? "token" = some (Token.ofSettings settings w ctx.outputs) := by
  cases h with
  | download => exact absurd huses (by decide)
  | checkout => exact (Table.get?_insert ..).trans (if_pos rfl)
  | script => exact absurd (show some scriptAction = Step.checkout.uses from huses) (by decide)
  | upload h =>
    subst h
    exact absurd huses (by decide)

theorem not_usedBy_download :
    ¬Token.UsedBy (Artifact.downloadStep Artifact.outputDirectory) := by
  decide +kernel

/-- With another token than the minted one no step uses the minted one. -/
theorem not_usedBy (hignores : w.IgnoresMint options)
    (hsettings : ∀ s ∈ settings.strings, s ∈ w.strings)
    (htoken : ¬Mentions Token.reference (Token.ofSettings settings w outputs))
    (h : Ordinary type settings w (Workflow.context registry outputs) step) :
    ¬Token.UsedBy step := by
  cases h with
  | download => exact not_usedBy_download
  | checkout =>
    have hplain : ¬Token.UsedBy Step.checkout := by
      decide +kernel
    rintro ⟨text, htext, hmention⟩
    rcases Step.mem_texts_withInput htext with rfl | htext
    · exact htoken hmention
    · exact hplain ⟨text, htext, hmention⟩
  | script =>
    rintro ⟨text, htext, hmention⟩
    have hmodule : ¬Mentions Token.reference (moduleScript (type.name ++ ".cjs")) := by
      cases type <;> decide +kernel
    have htitle : '.' ∉ type.title.toList := by
      cases type <;> decide
    rcases Step.mem_texts_withInput htext with rfl | htext
    · exact htoken hmention
    rcases Step.mem_texts_withVariables htext with hvalue | htext
    · rcases mem_values_envOf hvalue with rfl | hsource | ⟨entry, hentry, rfl⟩
      · exact htoken hmention
      · exact hsource.not_mentions hignores hsettings hmention
      · exact not_mentions_reads hentry hmention
    rcases Step.mem_texts_ofModule htext with rfl | rfl | rfl
    · exact hmodule hmention
    · exact Token.not_mentions_of_dot_notMem htitle hmention
    · exact absurd hmention (by decide +kernel)
  | upload h =>
    subst h
    decide +kernel

end Ordinary

end HandlerStep

/-! ## Minting -/

namespace Token

variable {app : GitHubApp} {permissions : Permissions} {w : Workflow} {options : CompileOptions}
  {outputs : SafeOutputs} {settings : OutputSettings} {token : String}

/-- The inputs for permissions are those of the scopes above none. -/
theorem mem_permissionInputs_iff {name level : String} :
    ("permission-" ++ name, level) ∈ permissionInputs permissions
      ↔ ∃ scope : Scope, scope.name = name ∧ Level.none < permissions.get scope
        ∧ (permissions.get scope).name = level := by
  simp only [permissionInputs, List.mem_map, List.mem_filter, decide_eq_true_eq, Prod.mk.injEq,
    Prod.exists, Permissions.mem_entries, String.append_right_inj]
  constructor
  · rintro ⟨scope, given, ⟨hgiven, hlt⟩, hname, hlevel⟩
    rw [← Permissions.get_of_level? hgiven] at hlt hlevel
    exact ⟨scope, hname, hlt, hlevel⟩
  · rintro ⟨scope, hname, hlt, hlevel⟩
    exact ⟨scope, _, ⟨Permissions.level?_of_lt_get hlt, hlt⟩, hname, hlevel⟩

/-- A minted token has the permissions that it is minted with. -/
theorem get?_mintStep_permission {name level : String} :
    (mintStep app permissions).inputs.get? ("permission-" ++ name) = some level
      ↔ ∃ scope : Scope, scope.name = name ∧ Level.none < permissions.get scope
        ∧ (permissions.get scope).name = level := by
  rw [← mem_permissionInputs_iff]
  -- The other inputs have no key that starts like that of a permission.
  have hother : ∀ {key value}, (key, value) ∈ [("app-id", app.appId),
      ("private-key", app.privateKey),
      ("owner", app.owner.getD (Embedded.embed "github.repository_owner")),
      ("repositories", if app.repositories.isEmpty then
        Embedded.embed "github.event.repository.name" else ",".intercalate app.repositories)] →
      key ≠ "permission-" ++ name := by
    rintro key value hentry rfl
    have hkey := List.mem_map_of_mem (f := Prod.fst) hentry
    have hstart : "permission-".toList <+: ("permission-" ++ name).toList := by
      rw [String.toList_append]
      exact List.prefix_append _ _
    have hfree : ∀ key ∈ ["app-id", "private-key", "owner", "repositories"],
        ¬"permission-".toList <+: key.toList := by
      decide
    exact hfree _ hkey hstart
  constructor
  · intro h
    exact (List.mem_append.mp (Table.mem_of_get?_ofList h)).resolve_left
      fun hentry => hother hentry rfl
  · intro h
    refine Table.get?_ofList_of_unique (List.mem_append_right _ h) fun other hentry => ?_
    obtain ⟨scope, rfl, -, rfl⟩ := mem_permissionInputs_iff.mp h
    obtain ⟨scope', hname, -, rfl⟩ := mem_permissionInputs_iff.mp
      ((List.mem_append.mp hentry).resolve_left fun hentry => hother hentry rfl)
    rw [Scope.name_injective hname]

theorem not_usedBy_mintStep (hignores : w.IgnoresMint options)
    (houtputs : w.safeOutputs = some outputs) (happ : outputs.app = some app) :
    ¬UsedBy (mintStep app permissions) := by
  have hbuiltin : ∀ text ∈ mintTexts, ¬Mentions reference text := by
    decide +kernel
  have hgiven : ∀ s ∈ app.strings, ¬Mentions reference s := fun s hs =>
    hignores.of_strings (List.mem_append_right _ (List.mem_flatMap.mpr
      ⟨outputs, Option.mem_toList.mpr houtputs, by simp [SafeOutputs.strings, happ, hs]⟩))
  rintro ⟨text, htext, hmention⟩
  rcases mem_texts_mintStep htext with hmint | hmem | rfl | ⟨level, rfl⟩
  · exact hbuiltin text hmint hmention
  · exact hgiven text hmem hmention
  · obtain ⟨item, hitem, hmention⟩ := exists_of_mentions_listing (by decide) (by decide) hmention
    exact hgiven item (by simp [GitHubApp.strings, hitem]) hmention
  · revert hmention
    cases level <;> decide +kernel

/-- Where there is an app, a type without a token of its own acts with the minted one. -/
theorem ofSettings_eq_minted (happ : outputs.app = some app)
    (hown : ∀ token, settings.githubToken = some token → token = "") :
    ofSettings settings w outputs = minted := by
  have hcustom : settings.githubToken.getD "" = "" := by
    cases hgiven : settings.githubToken with
    | none => rfl
    | some token => exact hown token hgiven
  have htop : topLevel w outputs = minted := by
    rw [topLevel, happ]
    rfl
  rw [ofSettings, effective, hcustom, if_neg (by decide), htop, if_pos (by decide)]

theorem ofSettings_eq_own (hown : settings.githubToken = some token) (hne : token ≠ "") :
    ofSettings settings w outputs = token := by
  rw [ofSettings, effective, hown, Option.getD_some, if_pos hne]

end Token

/-! ## The job of an output type -/

namespace Workflow

variable {w : Workflow} {registry : Registry} {engine : Engine} {options : CompileOptions}
  {compiled : Compiled} {outputs : SafeOutputs} {type : OutputType} {settings : OutputSettings}
  {ctx : HandlerContext} {app : GitHubApp} {runsOn name token : String} {step : Step}
  {declared : List String}

/-- The steps of a handler job between the minting of a token and its end. -/
def actingSteps (w : Workflow) (type : OutputType) (settings : OutputSettings)
    (ctx : HandlerContext) : List Step :=
  (if type.pushesCode then
      [Step.checkout.withInput "token" (Token.ofSettings settings w ctx.outputs)] else [])
    ++ w.scriptStep type settings ctx
    :: if type = .createCodeScanningAlert then [HandlerStep.uploadFindingsStep type.name] else []

theorem ordinary_of_mem_actingSteps (h : step ∈ w.actingSteps type settings ctx) :
    HandlerStep.Ordinary type settings w ctx step := by
  rcases List.mem_append.mp h with h | h
  · split at h
    · obtain rfl := List.mem_singleton.mp h
      exact .checkout
    · cases h
  rcases List.mem_cons.mp h with rfl | h
  · exact .script
  · split at h
    case isTrue htype =>
      obtain rfl := List.mem_singleton.mp h
      exact .upload htype
    case isFalse => cases h

/-- Minting and the end of the token stand around the steps that act with it. -/
theorem steps_wired_handlerJobOf :
    ((w.handlerJobOf type settings ctx runsOn options).wired declared).steps
      = Artifact.downloadStep Artifact.outputDirectory
        :: ((HandlerStep.minting? (Token.ofSettings settings w ctx.outputs) ctx.outputs).toList.map
          fun app => Token.mintStep app type.permissions)
        ++ w.actingSteps type settings ctx
        ++ (HandlerStep.minting? (Token.ofSettings settings w ctx.outputs) ctx.outputs).toList.map
          fun _ => Token.revokeStep := by
  show (w.handlerJobOf type settings ctx runsOn options).steps = _
  rw [steps_handlerJobOf]
  simp only [HandlerStep.ofSettings, actingSteps, List.cons_append, List.append_assoc]

/-- **The job mints a token** where it acts with a minted one. -/
theorem mintedIn_handlerJobOf (hignores : w.IgnoresMint options)
    (houtputs : w.safeOutputs = some outputs) (happ : outputs.app = some app)
    (htoken : Token.ofSettings settings w outputs = Token.minted) :
    Token.MintedIn ((w.handlerJobOf type settings (context registry outputs) runsOn
      options).wired declared) := by
  have hminting : HandlerStep.minting? (Token.ofSettings settings w outputs) outputs = some app := by
    rw [HandlerStep.minting?, if_pos htoken, happ]
  have hsteps : ((w.handlerJobOf type settings (context registry outputs) runsOn
      options).wired declared).steps
      = Artifact.downloadStep Artifact.outputDirectory :: Token.mintStep app type.permissions
        :: (w.actingSteps type settings (context registry outputs) ++ [Token.revokeStep]) := by
    rw [steps_wired_handlerJobOf]
    show _ :: (HandlerStep.minting? (Token.ofSettings settings w outputs) outputs).toList.map _
      ++ _ ++ (HandlerStep.minting? (Token.ofSettings settings w outputs) outputs).toList.map _ = _
    rw [hminting]
    rfl
  have hpermissions : ((w.handlerJobOf type settings (context registry outputs) runsOn
      options).wired declared).permissions = type.permissions := permissions_handlerJobOf
  refine ⟨⟨[_], _, _, hsteps, rfl, ?_, ?_, fun name level => ?_⟩,
    ⟨_ :: _ :: w.actingSteps type settings (context registry outputs), Token.revokeStep, hsteps,
      ⟨_, rfl, by decide +kernel⟩, rfl, rfl, ?_⟩⟩
  · refine List.forall_mem_append.mpr ⟨List.forall_mem_singleton.mpr nofun,
      List.forall_mem_append.mpr ⟨fun step hstep => ?_, List.forall_mem_singleton.mpr nofun⟩⟩
    exact (ordinary_of_mem_actingSteps hstep).id_ne
  · exact List.forall_mem_cons.mpr ⟨HandlerStep.Ordinary.not_usedBy_download,
      List.forall_mem_singleton.mpr (Token.not_usedBy_mintStep hignores houtputs happ)⟩
  · rw [hpermissions]
    exact Token.get?_mintStep_permission
  · exact List.forall_mem_cons.mpr ⟨Token.not_revokedBy_of_run_eq_none rfl,
      List.forall_mem_cons.mpr ⟨Token.not_revokedBy_of_run_eq_none rfl, fun step hstep =>
        (ordinary_of_mem_actingSteps hstep).not_revokedBy⟩⟩

/-- A job that mints no token consists of other steps. -/
theorem ordinary_of_minting?_eq_none
    (hminting : HandlerStep.minting? (Token.ofSettings settings w ctx.outputs) ctx.outputs = none)
    (h : step ∈ ((w.handlerJobOf type settings ctx runsOn options).wired declared).steps) :
    HandlerStep.Ordinary type settings w ctx step := by
  rw [steps_wired_handlerJobOf, hminting] at h
  simp only [Option.toList_none, List.map_nil, List.append_nil, List.cons_append,
    List.nil_append] at h
  rcases List.mem_cons.mp h with rfl | h
  · exact .download
  · exact ordinary_of_mem_actingSteps h

/-- With another token than the minted one, no text of a job that mints none mentions it. -/
theorem not_mentions_texts_handlerJobOf (hignores : w.IgnoresMint options)
    (houtputs : w.safeOutputs = some outputs) (hset : outputs.settings? type = some settings)
    (htoken : ¬Mentions Token.reference (Token.ofSettings settings w outputs))
    (hminting : HandlerStep.minting? (Token.ofSettings settings w outputs) outputs = none) {s : String}
    (hs : s ∈ ((w.handlerJobOf type settings (context registry outputs) runsOn options).wired
      declared).texts) : ¬Mentions Token.reference s := by
  simp only [Job.texts, List.mem_append, List.mem_flatMap] at hs
  rcases hs with ((hs | hs) | hs) | ⟨step, hstep, hs⟩
  · rw [Job.wired, condition_handlerJobOf, Option.toList_some, List.mem_singleton] at hs
    rw [hs]
    exact HandlerStep.not_mentions_condition
  · rw [Job.wired, env_handlerJobOf] at hs
    have hvalue : s ∈ outputs.env.values := hs
    exact hignores.of_strings (List.mem_append_right _ (List.mem_flatMap.mpr
      ⟨outputs, Option.mem_toList.mpr houtputs, List.mem_append_right _ hvalue⟩))
  · rw [Job.wired, outputs_handlerJobOf, Table.values_mapValues] at hs
    obtain ⟨key, hkey, rfl⟩ := List.mem_map.mp hs
    obtain ⟨name, hentry⟩ := Table.mem_values_ofList hkey
    obtain ⟨output, houtput, heq⟩ := List.mem_map.mp hentry
    cases heq
    exact Token.not_mentions_embed_stepOutput type.hyphen_notMem_name
      (OutputType.hyphen_notMem_of_mem_outputs houtput)
  · intro hmention
    have hsettings : ∀ s ∈ settings.strings, s ∈ w.strings := fun _ =>
      mem_strings_of_settings houtputs hset
    exact (ordinary_of_minting?_eq_none hminting hstep).not_usedBy hignores hsettings htoken
      ⟨s, hs, hmention⟩

theorem not_mentions_needs (hignores : w.IgnoresMint options)
    (hname : name ∈ ((w.handlerJobOf type settings (context registry outputs) runsOn
      options).wired w.declaredNames).needs) : ¬Mentions Token.reference name := by
  have hbuiltin : ∀ builtin : BuiltinJob, ¬Mentions Token.reference builtin.name := by
    intro builtin
    cases builtin <;> decide +kernel
  rcases mem_needs_wired.mp hname with hname | ⟨-, hdeclared, -⟩
  · rcases mem_needs_handlerJobOf.mp hname with rfl | ⟨-, rfl⟩ | ⟨-, rfl⟩ | ⟨item, -, -, rfl⟩
    · exact hbuiltin _
    · exact hbuiltin _
    · exact hbuiltin _
    · exact Token.not_mentions_of_hyphen_notMem item.hyphen_notMem_name
  · obtain ⟨entry, hentry, rfl⟩ := List.mem_map.mp (Table.mem_distinct.mp hdeclared)
    exact hignores.of_strings (List.mem_append_left _ (List.mem_append_right _
      (List.mem_flatMap.mpr ⟨entry, hentry, List.mem_cons_self⟩)))

/-- **The job knows of no minted token** where it acts with another one. -/
theorem absentFrom_handlerJobOf (hignores : w.IgnoresMint options)
    (houtputs : w.safeOutputs = some outputs) (hset : outputs.settings? type = some settings)
    (htoken : ¬Mentions Token.reference (Token.ofSettings settings w outputs)) :
    Token.AbsentFrom ((w.handlerJobOf type settings (context registry outputs)
      (w.outcomeRunner outputs options) options).wired w.declaredNames) := by
  have hminting : HandlerStep.minting? (Token.ofSettings settings w outputs) outputs = none := by
    have hne : Token.ofSettings settings w outputs ≠ Token.minted := by
      intro hminted
      rw [hminted] at htoken
      revert htoken
      decide +kernel
    rw [HandlerStep.minting?, if_neg hne]
  refine ⟨fun step hstep => (ordinary_of_minting?_eq_none hminting hstep).id_ne,
    fun step hstep => (ordinary_of_minting?_eq_none hminting hstep).not_revokedBy,
    fun path text hholds => ?_⟩
  rcases Job.holds_cases hholds with ⟨-, hneed⟩ | ⟨-, hrunner⟩ | ⟨-, step, hstep, hid⟩ | hs
    | ⟨level, rfl⟩
  · exact not_mentions_needs hignores hneed
  · rw [hrunner, Job.wired, handlerJobOf_eq]
    exact hignores.outcomeRunner houtputs
  · cases ordinary_of_minting?_eq_none hminting hstep with
    | download | checkout | upload => cases hid
    | script =>
      cases hid
      exact Token.not_mentions_of_hyphen_notMem type.hyphen_notMem_name
  · exact not_mentions_texts_handlerJobOf hignores houtputs hset htoken hminting hs
  · cases level <;> decide +kernel

/-- **The job acts with one token**, whichever it is. -/
theorem actsIn_handlerJobOf :
    Token.ActsIn (Token.ofSettings settings w outputs) type
      ((w.handlerJobOf type settings (context registry outputs) runsOn options).wired
        declared) := by
  have hcases : ∀ step ∈ ((w.handlerJobOf type settings (context registry outputs) runsOn
      options).wired declared).steps,
      HandlerStep.Ordinary type settings w (context registry outputs) step
        ∨ step = Token.revokeStep ∨ ∃ app, step = Token.mintStep app type.permissions := by
    intro step hstep
    rw [steps_wired_handlerJobOf, List.mem_append, List.mem_append, List.mem_cons] at hstep
    rcases hstep with ((rfl | hmint) | hacting) | hrevoke
    · exact .inl .download
    · obtain ⟨app, -, rfl⟩ := List.mem_map.mp hmint
      exact .inr (.inr ⟨app, rfl⟩)
    · exact .inl (ordinary_of_mem_actingSteps hacting)
    · obtain ⟨app, -, rfl⟩ := List.mem_map.mp hrevoke
      exact .inr (.inl rfl)
  refine ⟨⟨w.scriptStep type settings (context registry outputs), ?_, rfl⟩, fun step hstep hid => ?_,
    fun step hstep huses => ?_⟩
  · rw [steps_wired_handlerJobOf]
    exact List.mem_append_left _ (List.mem_append_right _
      (List.mem_append_right _ List.mem_cons_self))
  · rcases hcases step hstep with hordinary | rfl | ⟨app, rfl⟩
    · obtain rfl := hordinary.eq_scriptStep hid
      exact ⟨HandlerStep.get?_envOf_token, (Table.get?_insert ..).trans (if_pos rfl)⟩
    · cases hid
    · exact absurd (Option.some.inj hid).symm type.name_ne_mintId
  · rcases hcases step hstep with hordinary | rfl | ⟨app, rfl⟩
    · exact hordinary.token_of_uses huses
    · cases huses
    · exact absurd (show some "actions/create-github-app-token@v2" = Step.checkout.uses from huses)
        (by decide)

/-- **Tokens of handler jobs.** Let an accepted workflow have a GitHub App, and let nothing that is
given mention the step that mints tokens. The job of a type without a token of its own mints one
before any step uses it, with just the permissions of the job, and its last step revokes it whatever
happened before. The job of a type that has a token of its own neither mints nor revokes one, and
mentions no minted token anywhere. In both, the script acts with the one token of the job, and so
does what checks out the code. -/
theorem compile_token_hygiene (h : w.compile registry engine options = .ok compiled)
    (houtputs : w.safeOutputs = some outputs) (happ : outputs.app = some app)
    (hignores : w.IgnoresMint options) :
    ∀ type ∈ registry.types, ∀ settings, outputs.settings? type = some settings →
      ∃ job, compiled.graph.get? type.name = some job
        ∧ ((∀ token, settings.githubToken = some token → token = "") →
          Token.MintedIn job ∧ Token.ActsIn Token.minted type job)
        ∧ ∀ token, settings.githubToken = some token → token ≠ "" →
          Token.AbsentFrom job ∧ Token.ActsIn token type job := by
  intro type htype settings hset
  have hget := get?_of_planned h (.handler houtputs htype hset)
  rw [name_handlerJobOf] at hget
  refine ⟨_, hget, fun hown => ?_, fun token hown hne => ?_⟩
  · have htoken : Token.ofSettings settings w outputs = Token.minted :=
      Token.ofSettings_eq_minted happ hown
    exact ⟨mintedIn_handlerJobOf hignores houtputs happ htoken, htoken ▸ actsIn_handlerJobOf⟩
  · have htoken : Token.ofSettings settings w outputs = token := Token.ofSettings_eq_own hown hne
    -- A token of the type's own is given, so that it is not the minted one.
    have hmention : ¬Mentions Token.reference (Token.ofSettings settings w outputs) := by
      rw [htoken]
      exact hignores.of_strings (mem_strings_of_settings houtputs hset
        (by simp [OutputSettings.strings, hown]))
    exact ⟨absentFrom_handlerJobOf hignores houtputs hset hmention, htoken ▸ actsIn_handlerJobOf⟩

/-- Pull requests, and comments that are made with a token of their own. -/
def deliveryOutputs : SafeOutputs where
  types type :=
    match type with
    | .createPullRequest => .enabled {}
    | .addComment => .enabled { githubToken := some (Embedded.embed "secrets.COMMENT_TOKEN") }
    | _ => .absent
  app := some
    { appId := Embedded.embed "vars.APP_ID", privateKey := Embedded.embed "secrets.APP_KEY" }

/-- A workflow with these outputs, and with an app that mints tokens. -/
def delivery : Workflow :=
  { name := "Delivery", safeOutputs := some deliveryOutputs }

theorem delivery_token_hygiene :
    ∃ compiled, delivery.compile .default ⟨Engine.defaultCommand⟩ {} = .ok compiled
      ∧ (∃ job, compiled.graph.get? "create_pull_request" = some job ∧ Token.MintedIn job
        ∧ Token.ActsIn Token.minted .createPullRequest job)
      ∧ ∃ job, compiled.graph.get? "add_comment" = some job ∧ Token.AbsentFrom job
        ∧ Token.ActsIn (Embedded.embed "secrets.COMMENT_TOKEN") .addComment job := by
  have hfits : delivery.fitsOrder .default ⟨Engine.defaultCommand⟩ {}
      ["activation", "agent", "detection", "create_pull_request", "add_comment",
        "conclusion"] = true := by
    decide +kernel
  obtain ⟨compiled, hcompiled⟩ := exists_compile_of_fitsOrder hfits
  have hignores : ∀ s ∈ delivery.given {}, ¬Mentions Token.mintId s := by
    decide +kernel
  have hhygiene := compile_token_hygiene hcompiled rfl rfl hignores
  obtain ⟨request, hrequest, hminted, -⟩ := hhygiene .createPullRequest (by decide) {} rfl
  obtain ⟨comment, hcomment, -, habsent⟩ := hhygiene .addComment (by decide) _ rfl
  exact ⟨compiled, hcompiled, ⟨request, hrequest, hminted nofun⟩,
    comment, hcomment, habsent _ rfl (by decide)⟩

end Workflow

end AgentGate
