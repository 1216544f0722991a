import AgentGate.Proofs.Plan.Views

/-!
# What the jobs after the agent refer to

The jobs after the agent read what it asked for and what others among them have given. Here the
needs, the outputs and the steps behind a reference depend on most settings: on detection, on the
types that get a job, on the reaction and on the app that mints tokens.

- `View.covers_detectionJob`: the detection job.
- `View.resolves_envOf`: the variables of a handler, which read outputs of other jobs.
- `View.covers_handlerJobOf`: the job of an output type.
- `View.covers_besideAgent`, `View.covers_forOutput`: jobs that the workflow declares.
- `View.covers_conclusionJob`: the last job.
- `View.covers_of_planned`: every planned job of a quiet workflow.
-/

namespace AgentGate

open Reference Text

namespace View

variable {v : View} {w : Workflow} {registry : Registry} {engine : Engine}
  {options : CompileOptions} {outputs : SafeOutputs} {type : OutputType}
  {settings : OutputSettings} {config : CustomJob} {runsOn name title text : String}

/-! ## Detection -/

theorem resolves_directory : v.Resolves Detection.directory.toList :=
  resolves_literal (by decide)

theorem resolves_logPath : v.Resolves Detection.logPath.toList :=
  resolves_directory.append_literal (by decide)

theorem resolves_promptPath : v.Resolves Detection.promptPath.toList :=
  resolves_directory.append_literal (by decide)

/-- The built-in instructions hold no reference but through the name of the workflow. -/
theorem resolves_prompt (hname : Silent name.toList) :
    v.Resolves (Detection.prompt name).toList := by
  have htitle : v.Resolves ("\"" ++ name
      ++ "\" workflow, before any of it is applied to the repository.").toList :=
    ((Resolves.silent hname).literal_append (by decide)).append_literal (by decide)
  have houtput : v.Resolves ("- Agent output (JSON lines, one safe output per line): `"
      ++ Detection.outputPath ++ "`").toList :=
    ((resolves_directory.join (resolves_literal (by decide)) (by decide)).literal_append
      (by decide)).append_literal (by decide)
  have hpatch : v.Resolves ("- Code changes proposed by the agent (may be absent): `"
      ++ Detection.patchPath ++ "`").toList :=
    ((resolves_directory.join (resolves_literal (by decide)) (by decide)).literal_append
      (by decide)).append_literal (by decide)
  have hverdict : v.Resolves
      ("THREAT_DETECTION_RESULT:\x7b\"prompt_injection\":false,\"secret_leak\":false,"
        ++ "\"malicious_patch\":false,\"reasons\":[]\x7d").toList :=
    (resolves_literal (by decide)).literal_append (by decide)
  refine resolves_intercalate_literal (by decide) ?_
  simp only [Detection.promptLines, List.forall_mem_cons, List.not_mem_nil, IsEmpty.forall_iff,
    implies_true, and_true, htitle, houtput, hpatch, hverdict, true_and]
  and_intros <;> exact resolves_literal (by decide)

theorem resolves_setupScript (hname : Silent name.toList) {custom : Option String}
    (hcustom : ∀ prompt, custom = some prompt → Silent prompt.toList) :
    v.Resolves (Detection.setupScript name custom).toList := by
  have hmake : v.Resolves ("mkdir -p " ++ Detection.directory ++ "/prompts").toList :=
    (resolves_directory.literal_append (by decide)).append_literal (by decide)
  have hexport : v.Resolves
      ("echo \"GH_AW_PROMPT=" ++ Detection.promptPath ++ "\" >> \"$GITHUB_ENV\"").toList :=
    (resolves_promptPath.literal_append (by decide)).append_literal (by decide)
  have hsetup : ∀ line ∈ Detection.promptSetup name custom, v.Resolves line.toList := by
    intro line hline
    cases custom with
    | none =>
      have hopen : v.Resolves
          ("cat > " ++ Detection.promptPath ++ " << '" ++ Detection.promptEnd ++ "'").toList :=
        ((resolves_promptPath.literal_append (by decide)).join (resolves_literal (by decide))
          (by decide)).append_literal (by decide)
      simp only [Detection.promptSetup, List.mem_cons, List.not_mem_nil, or_false] at hline
      rcases hline with rfl | rfl | rfl
      · exact hopen
      · exact resolves_prompt hname
      · exact resolves_literal (by decide)
    | some prompt =>
      have hprompt : v.Resolves prompt.toList := .silent (hcustom prompt rfl)
      rw [Detection.promptSetup] at hline
      split at hline
      · obtain rfl := List.mem_singleton.mp hline
        exact ((resolves_promptPath.literal_append (by decide)).join hprompt
          (by decide)).append_literal (by decide)
      · obtain rfl := List.mem_singleton.mp hline
        exact (hprompt.literal_append (by decide)).join resolves_promptPath (by decide)
  refine resolves_intercalate_literal (by decide) fun line hline => ?_
  simp only [List.mem_append, List.mem_singleton] at hline
  rcases hline with (rfl | hline) | rfl
  · exact hmake
  · exact hsetup line hline
  · exact hexport

theorem resolves_verdictScript : v.Resolves Detection.verdictScript.toList := by
  have hread : v.Resolves ("verdict=$(grep -o 'THREAT_DETECTION_RESULT:.*' \"" ++ Detection.logPath
      ++ "\" 2>/dev/null | tail -n 1 | cut -d: -f2- || true)").toList :=
    (resolves_logPath.literal_append (by decide)).append_literal (by decide)
  have htest : v.Resolves
      ("if [ -n \"$verdict\" ] && echo \"$verdict\" | jq -e '(.prompt_injection or .secret_leak or "
        ++ ".malicious_patch) | not' > /dev/null; then").toList :=
    (resolves_literal (by decide)).literal_append (by decide)
  refine resolves_intercalate_literal (by decide) ?_
  simp only [List.forall_mem_cons, List.not_mem_nil, IsEmpty.forall_iff, implies_true, and_true,
    hread, htest, true_and]
  and_intros <;> exact resolves_literal (by decide)

/-- The instructions that a quiet workflow names are silent. -/
theorem silent_of_customPrompt (hquiet : w.Quiet engine) (houtputs : w.safeOutputs = some outputs)
    (h : Detection.customPrompt? outputs = some text) : Silent text.toList := by
  obtain ⟨setting, hsetting, h⟩ := Option.bind_eq_some_iff.mp h
  obtain ⟨given, hgiven, h⟩ := Option.bind_eq_some_iff.mp h
  obtain ⟨prompt, hprompt, h⟩ := Option.bind_eq_some_iff.mp h
  have hsilent : Silent prompt.toList := by
    refine hquiet.of_outputs houtputs prompt ?_
    have hfound : outputs.threatDetection.bind Detection.settings? = some given :=
      Option.bind_eq_some_iff.mpr ⟨setting, hsetting, hgiven⟩
    simp [SafeOutputs.strings, DetectionSettings.strings, hfound, hprompt]
  dsimp only at h
  split at h
  · cases h
  · cases h
    exact hsilent.trim

/-- The steps before the engine read whether the agent has changed code. -/
theorem clears_preparation (hname : Silent name.toList) {custom : Option String}
    (hcustom : ∀ prompt, custom = some prompt → Silent prompt.toList)
    (hneeded : v.jobs BuiltinJob.agent.name)
    (hgiven : v.outputs BuiltinJob.agent.name "has_patch") :
    ∀ step ∈ Detection.preparation name custom, v.Clears step := by
  have hdirectory : v.Resolves (Detection.directory ++ "/").toList :=
    resolves_directory.append_literal (by decide)
  have hpatch : v.Resolves
      (Embedded.jobOutput BuiltinJob.agent.name "has_patch" ++ " == 'true'").toList :=
    (resolves_jobOutput (BuiltinJob.plain_name .agent) (plain_literal (by decide)) hneeded
      hgiven).append_literal (by decide)
  intro step hstep
  rcases List.mem_append.mp hstep with hstep | hstep
  · cases custom with
    | none => cases hstep
    | some prompt =>
      dsimp only at hstep
      split at hstep
      · cases hstep
      · obtain rfl := List.mem_singleton.mp hstep
        exact clears_checkout
  · simp only [List.mem_cons, List.not_mem_nil, or_false] at hstep
    rcases hstep with rfl | rfl | rfl
    · exact clears_downloadStep hdirectory
    · exact (clears_fetchStep (resolves_literal (by decide)) (resolves_literal (by decide))
        hdirectory).withCondition hpatch
    · exact (clears_ofScript (resolves_literal (by decide))
        (resolves_setupScript hname hcustom)).withEnv (.silent hname)

theorem clears_engineSteps (hcommand : Silent engine.command.toList) :
    ∀ step ∈ engine.steps Detection.logPath, v.Clears step := by
  have hscript : v.Resolves (Text.trim engine.command
      ++ " \"$(cat \"$GH_AW_PROMPT\")\" 2>&1 | tee " ++ Detection.logPath).toList :=
    (Resolves.silent hcommand.trim).join resolves_logPath (by decide)
  exact List.forall_mem_singleton.mpr
    (((clears_ofScript (resolves_literal (by decide)) hscript).withId _).withEnv
      (.silent hcommand.firstWord))

theorem clears_evaluation : ∀ step ∈ Detection.evaluation, v.Clears step := by
  refine List.forall_mem_cons.mpr ⟨?_, List.forall_mem_singleton.mpr ?_⟩
  · exact (clears_ofScript (resolves_literal (by decide)) resolves_verdictScript).withId _
  · exact (clears_uploadStep (resolves_literal (by decide)) (resolves_literal (by decide))
      (resolves_literal (by decide)) resolves_logPath).withInput (resolves_literal (by decide))

/-- The steps that a quiet workflow adds to detection are silent. -/
theorem clears_extraSteps (hquiet : w.Quiet engine) (houtputs : w.safeOutputs = some outputs) :
    ∀ step ∈ Detection.extraSteps outputs, v.Clears step := by
  intro step hstep text htext
  rw [Detection.extraSteps] at hstep
  split at hstep
  case h_1 given hgiven =>
    refine .silent (hquiet.of_outputs houtputs text ?_)
    have hstrings : text ∈ given.strings :=
      List.mem_append_right _ (List.mem_flatMap.mpr ⟨step, hstep, htext⟩)
    simp [SafeOutputs.strings, hgiven, hstrings]
  case h_2 => cases hstep

theorem covers_detectionJob (hquiet : w.Quiet engine) (houtputs : w.safeOutputs = some outputs)
    (hplan : v.SeesPlan w registry engine options)
    (hsees : v.Sees (Detection.job w outputs engine runsOn)) :
    v.Covers (Detection.job w outputs engine runsOn) where
  condition := fun _ h => nomatch h
  env := resolves_values_empty
  outputs := by
    have hseen : v.steps "parse_results" :=
      hsees.step ⟨_, List.mem_append_right _ List.mem_cons_self, rfl⟩
    refine resolves_ofList (List.forall_mem_singleton.mpr ?_)
    exact (resolves_stepOutput (plain_literal (by decide)) (plain_literal (by decide)) hseen).embed
  steps := by
    have hneeded : v.jobs BuiltinJob.agent.name := hsees.needs _ List.mem_cons_self
    have hgiven := hplan.agent houtputs "has_patch" (by decide)
    intro step hstep
    simp only [Detection.job, List.mem_append] at hstep
    rcases hstep with ((hstep | hstep) | hstep) | hstep
    · exact clears_preparation hquiet.silent_name
        (fun _ => silent_of_customPrompt hquiet houtputs) hneeded hgiven step hstep
    · exact clears_engineSteps hquiet.command step hstep
    · exact clears_extraSteps hquiet houtputs step hstep
    · exact clears_evaluation step hstep

/-! ## The step of a handler -/

/-- A token is silent, or the step that mints it is in view. -/
theorem resolves_token (hquiet : w.Quiet engine) (houtputs : w.safeOutputs = some outputs)
    (hsettings : ∀ s ∈ settings.strings, Silent s.toList)
    (hminting : ∀ app, HandlerStep.minting? (Token.ofSettings settings w outputs) outputs
      = some app → v.steps Token.mintId) :
    v.Resolves (Token.ofSettings settings w outputs).toList := by
  rcases Token.minted_or_silent hquiet houtputs hsettings with ⟨hminted, app, happ⟩ | hsilent
  · have hstep : v.steps Token.mintId := by
      refine hminting app ?_
      rw [HandlerStep.minting?, if_pos hminted, happ]
    rw [hminted]
    exact (resolves_stepOutput (plain_literal (by decide)) (plain_literal (by decide)) hstep).embed
  · exact .silent hsilent

/-- What a handler reads of other jobs is in view: it needs these jobs, and they give it. -/
theorem resolves_reads (hplan : v.SeesPlan w registry engine options)
    (houtputs : w.safeOutputs = some outputs)
    (hneeds : ∀ need ∈ (w.handlerJobOf type settings (Workflow.context registry outputs) runsOn
      options).needs, v.jobs need) :
    ∀ entry ∈ HandlerStep.reads type w (Workflow.context registry outputs),
      v.Resolves entry.2.expression.toList := by
  have hitem : ∀ (item : OutputType) (key : String), item ∈ type.awaited →
      outputs.Emits registry item → key ∈ item.outputs →
      v.Resolves (OutputRef.expression ⟨item.name, key⟩).toList := by
    intro item key hawaited hemits hkey
    have hneeded : v.jobs item.name := hneeds _ (Workflow.mem_needs_handlerJobOf.mpr
      (.inr (.inr (.inr ⟨item, hawaited, hemits, rfl⟩))))
    exact (resolves_jobOutput item.plain_name (OutputType.plain_of_mem_outputs hkey) hneeded
      (hplan.handler houtputs hemits key hkey)).embed
  intro entry hentry
  rcases List.mem_append.mp hentry with hentry | hentry
  · rcases Workflow.mem_itemReads_iff.mp hentry with
      ⟨rfl, created, hcreated, hemits, rfl⟩ | ⟨hids, hemits, rfl⟩
    · have hlinked : ∀ created ∈ HandlerStep.createdItems,
          created.1 ∈ OutputType.addComment.awaited ∧ created.2.2 ∈ created.1.outputs := by
        decide
      exact hitem _ _ (hlinked created hcreated).1 hemits (hlinked created hcreated).2
    · have hawaited : OutputType.createIssue ∈ type.awaited := by
        revert hids
        cases type <;> decide
      exact hitem _ _ hawaited hemits (by decide)
  · obtain ⟨hpushes, hactivation⟩ := Workflow.eq_of_commentReads hentry
    have hneeded : v.jobs BuiltinJob.activation.name :=
      hneeds _ (Workflow.mem_needs_handlerJobOf.mpr (.inr (.inr (.inl ⟨hpushes, rfl⟩))))
    rw [HandlerStep.commentReads] at hentry
    split at hentry
    case isTrue hreaction =>
      have hgiven := hplan.activation hreaction.2
      rcases List.mem_pair.mp hentry with rfl | rfl
      · exact (resolves_jobOutput (BuiltinJob.plain_name .activation) (plain_literal (by decide))
          hneeded (hgiven _ (by decide))).embed
      · exact (resolves_jobOutput (BuiltinJob.plain_name .activation) (plain_literal (by decide))
          hneeded (hgiven _ (by decide))).embed
    case isFalse => cases hentry

/-- **The variables of a handler** are silent, or the token, or outputs of other jobs. -/
theorem resolves_envOf {ctx : HandlerContext} (hquiet : w.Quiet engine)
    (hsettings : ∀ s ∈ settings.strings, Silent s.toList)
    (htoken : v.Resolves (Token.ofSettings settings w ctx.outputs).toList)
    (hreads : ∀ entry ∈ HandlerStep.reads type w ctx, v.Resolves entry.2.expression.toList) :
    ∀ value ∈ (HandlerStep.envOf type settings w ctx).values, v.Resolves value.toList := by
  intro value hvalue
  rcases HandlerStep.mem_values_envOf hvalue with rfl | hsource | ⟨entry, hentry, rfl⟩
  · exact htoken
  · exact .silent (hsource.silent hquiet hsettings)
  · exact hreads entry hentry

/-- The step that mints a token for some permissions. -/
theorem clears_mintStep {app : GitHubApp} {permissions : Permissions}
    (happ : ∀ s ∈ app.strings, Silent s.toList) : v.Clears (Token.mintStep app permissions) := by
  have hbuiltin : ∀ text ∈ Token.mintTexts, v.Resolves text.toList := by
    simp only [Token.mintTexts, List.forall_mem_cons, List.not_mem_nil, IsEmpty.forall_iff,
      implies_true, and_true]
    exact ⟨resolves_literal (by decide), resolves_literal (by decide),
      (resolves_literal (by decide)).embed, (resolves_literal (by decide)).embed⟩
  intro text htext
  rcases Token.mem_texts_mintStep htext with hmint | hgiven | rfl | ⟨level, rfl⟩
  · exact hbuiltin text hmint
  · exact .silent (happ text hgiven)
  · exact .silent (silent_listing fun item hitem =>
      happ item (by simp [GitHubApp.strings, hitem]))
  · cases level <;> exact resolves_literal (by decide)

theorem clears_revokeStep (hstep : v.steps Token.mintId) : v.Clears Token.revokeStep := by
  have hminted : v.Resolves Token.minted.toList :=
    (resolves_stepOutput (plain_literal (by decide)) (plain_literal (by decide)) hstep).embed
  have hscript : v.Clears (Step.ofScript "Invalidate GitHub App token"
      "gh api --method DELETE /installation/token || true") :=
    clears_ofScript (resolves_literal (by decide)) (resolves_literal (by decide))
  exact (hscript.withCondition (resolves_literal (by decide))).withEnv hminted

theorem clears_uploadFindingsStep {id : String} (hid : Plain id) (hstep : v.steps id) :
    v.Clears (HandlerStep.uploadFindingsStep id) := by
  have hfile : v.Resolves (Embedded.stepOutput id "sarif_file").toList :=
    resolves_stepOutput hid (plain_literal (by decide)) hstep
  exact (((clears_ofAction (resolves_literal (by decide))
    (resolves_literal (by decide))).withCondition (hfile.append_literal (by decide))).withInput
    hfile.embed).withInput (resolves_literal (by decide))

/-! ## The job of an output type -/

/-- The app whose token a handler mints is one that the workflow gives. -/
theorem silent_of_minting (hquiet : w.Quiet engine) (houtputs : w.safeOutputs = some outputs)
    {token : String} {app : GitHubApp} (happ : HandlerStep.minting? token outputs = some app) :
    ∀ s ∈ app.strings, Silent s.toList := by
  intro s hs
  rw [HandlerStep.minting?] at happ
  split at happ
  · exact hquiet.of_outputs houtputs s (by simp [SafeOutputs.strings, happ, hs])
  · cases happ

section Handler

variable (hsees : v.Sees (w.handlerJobOf type settings (Workflow.context registry outputs) runsOn
  options))
include hsees

/-- The step that runs the script is in view. -/
theorem Sees.scriptStep : v.steps type.name := by
  refine hsees.step ?_
  rw [Workflow.steps_handlerJobOf]
  exact ⟨_, List.mem_append_right _ List.mem_cons_self, rfl⟩

/-- The step that mints a token is in view where there is one. -/
theorem Sees.mintStep {app : GitHubApp}
    (happ : HandlerStep.minting? (Token.ofSettings settings w outputs) outputs = some app) :
    v.steps Token.mintId := by
  refine hsees.step ?_
  rw [Workflow.steps_handlerJobOf]
  exact ⟨_, List.mem_append_left _ (List.mem_cons_of_mem _ (List.mem_append_left _
    (List.mem_map_of_mem (Option.mem_toList.mpr happ)))), rfl⟩

theorem Sees.agent : v.jobs BuiltinJob.agent.name :=
  hsees.needs _ (Workflow.mem_needs_handlerJobOf.mpr (.inl rfl))

theorem Sees.detection (hactive : outputs.detectionActive = true) :
    v.jobs BuiltinJob.detection.name :=
  hsees.needs _ (Workflow.mem_needs_handlerJobOf.mpr (.inr (.inl ⟨hactive, rfl⟩)))

/-- The steps of the job of a type. -/
theorem clears_handlerSteps (hquiet : w.Quiet engine) (houtputs : w.safeOutputs = some outputs)
    (hset : outputs.settings? type = some settings)
    (hplan : v.SeesPlan w registry engine options) :
    ∀ step ∈ (w.handlerJobOf type settings (Workflow.context registry outputs) runsOn
      options).steps, v.Clears step := by
  have hsettings := hquiet.of_settings houtputs hset
  have htoken : v.Resolves (Token.ofSettings settings w outputs).toList :=
    resolves_token hquiet houtputs hsettings fun _ => hsees.mintStep
  have hreads : ∀ entry ∈ HandlerStep.reads type w (Workflow.context registry outputs),
      v.Resolves entry.2.expression.toList := resolves_reads hplan houtputs hsees.needs
  have henv : ∀ value ∈ (HandlerStep.envOf type settings w
      (Workflow.context registry outputs)).values, v.Resolves value.toList :=
    resolves_envOf hquiet hsettings htoken hreads
  have hdirectory : v.Resolves Artifact.outputDirectory.toList := resolves_literal (by decide)
  have htitle : v.Resolves type.title.toList := by
    cases type <;> exact resolves_literal (by decide)
  have hscript : v.Resolves (type.name ++ ".cjs").toList :=
    .silent (silent_append_literal type.plain_name.silent (by decide))
  intro step hstep
  rw [Workflow.steps_handlerJobOf] at hstep
  rcases List.mem_append.mp hstep with hstep | hstep
  · rcases List.mem_cons.mp hstep with rfl | hstep
    · exact clears_downloadStep hdirectory
    · -- Before the script: the token, and the code where it is pushed.
      rcases List.mem_append.mp hstep with hstep | hstep
      · obtain ⟨app, happ, rfl⟩ := List.mem_map.mp hstep
        exact clears_mintStep (silent_of_minting hquiet houtputs (Option.mem_toList.mp happ))
      · split at hstep
        · obtain rfl := List.mem_singleton.mp hstep
          exact clears_checkout.withInput htoken
        · cases hstep
  · rcases List.mem_cons.mp hstep with rfl | hstep
    · exact (((clears_ofModule htitle hscript).withId _).withVariables henv).withInput htoken
    · -- Behind the script: the findings of a code scan, and the end of the token.
      rcases List.mem_append.mp hstep with hstep | hstep
      · split at hstep
        · obtain rfl := List.mem_singleton.mp hstep
          exact clears_uploadFindingsStep type.plain_name hsees.scriptStep
        · cases hstep
      · obtain ⟨app, happ, rfl⟩ := List.mem_map.mp hstep
        exact clears_revokeStep (hsees.mintStep (Option.mem_toList.mp happ))

/-- **The job of an output type** refers to jobs that it needs and to steps of its own. -/
theorem covers_handlerJobOf (hquiet : w.Quiet engine) (houtputs : w.safeOutputs = some outputs)
    (hset : outputs.settings? type = some settings)
    (hplan : v.SeesPlan w registry engine options) :
    v.Covers (w.handlerJobOf type settings (Workflow.context registry outputs) runsOn
      options) where
  condition := by
    rw [Workflow.condition_handlerJobOf]
    rintro _ ⟨⟩
    have hasked := hplan.agent houtputs "output_types" (by decide)
    have hdetection : outputs.detectionActive = true → v.jobs BuiltinJob.detection.name
        ∧ v.outputs BuiltinJob.detection.name "success" := fun hactive =>
      ⟨hsees.detection hactive, hplan.detection houtputs hactive⟩
    exact (admits_conditionOf hsees.agent hasked hdetection type settings).resolves_text
  env := by
    rw [Workflow.env_handlerJobOf]
    intro value hvalue
    exact .silent (hquiet.of_outputs houtputs value (List.mem_append_right _ hvalue))
  outputs := by
    rw [Workflow.outputs_handlerJobOf, Table.values_mapValues]
    intro value hvalue
    obtain ⟨key, hkey, rfl⟩ := List.mem_map.mp hvalue
    obtain ⟨name, hname⟩ := Table.mem_values_iff.mp hkey
    obtain ⟨key, hkey, heq⟩ := List.mem_map.mp (Table.mem_of_get?_ofList hname)
    cases heq
    exact (resolves_stepOutput type.plain_name (OutputType.plain_of_mem_outputs hkey)
      hsees.scriptStep).embed
  steps := clears_handlerSteps hsees hquiet houtputs hset hplan

end Handler

/-! ## Declared jobs -/

theorem covers_toJob (hsilent : ∀ s ∈ config.strings, Silent s.toList) :
    v.Covers (config.toJob name runsOn) := by
  refine Covers.addNeeds ⟨?_, ?_, ?_, ?_⟩ _
  · intro text htext
    replace htext : config.condition = some text := htext
    exact .silent (hsilent text (by simp [CustomJob.strings, htext]))
  · intro value hvalue
    replace hvalue : value ∈ config.env.values := hvalue
    exact .silent (hsilent value (by simp [CustomJob.strings, hvalue]))
  · intro value hvalue
    replace hvalue : value ∈ config.outputs.values := hvalue
    exact .silent (hsilent value (by simp [CustomJob.strings, hvalue]))
  · intro step hstep text htext
    exact .silent (hsilent text (List.mem_append_right _ (List.mem_flatMap.mpr
      ⟨step, hstep, htext⟩)))

theorem covers_besideAgent (hsilent : ∀ s ∈ config.strings, Silent s.toList) :
    v.Covers (config.besideAgent name runsOn) := by
  rw [CustomJob.besideAgent]
  split
  · exact covers_toJob hsilent
  · exact (covers_toJob hsilent).addNeeds [_]

theorem resolves_foldl_insertIfNew {entries : List (String × String)} {t : Table String}
    (ht : ∀ value ∈ t.values, v.Resolves value.toList)
    (hentries : ∀ entry ∈ entries, v.Resolves entry.2.toList) :
    ∀ value ∈ (entries.foldl (fun env entry => env.insertIfNew entry.1 entry.2) t).values,
      v.Resolves value.toList := by
  induction entries generalizing t with
  | nil => exact ht
  | cons entry rest ih =>
    obtain ⟨hentry, hrest⟩ := List.forall_mem_cons.mp hentries
    refine ih (fun value hvalue => ?_) hrest
    rcases Table.mem_values_insertIfNew hvalue with rfl | hvalue
    · exact hentry
    · exact ht value hvalue

/-- The condition of a job for an output reads what the agent asked for, and the verdict where
detection is active. -/
theorem admits_outputCondition {active : Bool} (hname : Silent name.toList)
    (hsilent : ∀ s ∈ config.strings, Silent s.toList) (hagent : v.jobs BuiltinJob.agent.name)
    (hasked : v.outputs BuiltinJob.agent.name "output_types")
    (hdetection : active = true → v.jobs BuiltinJob.detection.name
      ∧ v.outputs BuiltinJob.detection.name "success") :
    v.Admits (config.outputCondition name active) := by
  unfold CustomJob.outputCondition
  dsimp only
  refine Admits.vetted ?_ hdetection
  split
  case h_1 text hgiven =>
    exact .raw (.silent (hsilent text (by simp [CustomJob.strings, hgiven])))
  case h_2 =>
    exact .conj (List.forall_mem_cons.mpr ⟨admits_literal (by decide), List.forall_mem_cons.mpr
      ⟨admits_agentNotSkipped hagent, List.forall_mem_singleton.mpr
        (admits_outputNamePresent hagent hasked hname)⟩⟩)

theorem covers_forOutput (hquiet : w.Quiet engine) (houtputs : w.safeOutputs = some outputs)
    (hconfig : outputs.jobs.get? name = some config) (hplan : v.SeesPlan w registry engine options)
    (hsees : v.Sees (config.forOutput name runsOn outputs options outputs.detectionActive)) :
    v.Covers (config.forOutput name runsOn outputs options outputs.detectionActive) := by
  obtain ⟨hname, hsilent⟩ := hquiet.of_ownOutput houtputs hconfig
  have hagent : v.jobs BuiltinJob.agent.name :=
    hsees.needs _ (CustomJob.mem_needs_forOutput.mpr (.inr (.inl rfl)))
  have hdetection : outputs.detectionActive = true → v.jobs BuiltinJob.detection.name
      ∧ v.outputs BuiltinJob.detection.name "success" := fun hactive =>
    ⟨hsees.needs _ (CustomJob.mem_needs_forOutput.mpr (.inr (.inr ⟨hactive, rfl⟩))),
      hplan.detection houtputs hactive⟩
  have hdeclared : v.Covers ((config.toJob name runsOn).addNeeds
      (CustomJob.outputNeeds outputs.detectionActive)) := (covers_toJob hsilent).addNeeds _
  refine ⟨fun text htext => ?_, ?_, hdeclared.outputs, ?_⟩
  · cases htext
    exact (admits_outputCondition hname.silent hsilent hagent
      (hplan.agent houtputs "output_types" (by decide)) hdetection).resolves_text
  · refine resolves_foldl_insertIfNew (fun value hvalue => ?_) fun entry hentry => ?_
    · exact .silent (hsilent value (by simp [CustomJob.strings, hvalue]))
    · rcases List.mem_append.mp hentry with hentry | hentry
      · exact .silent (hquiet.of_outputs houtputs entry.2
          (List.mem_append_right _ (List.mem_map_of_mem hentry)))
      · obtain rfl := List.mem_singleton.mp hentry
        exact (resolves_literal (by decide)).literal_append (by decide)
  · refine List.forall_mem_cons.mpr ⟨clears_downloadStep (resolves_literal (by decide)), ?_⟩
    intro step hstep text htext
    exact .silent (hsilent text (List.mem_append_right _ (List.mem_flatMap.mpr
      ⟨step, hstep, htext⟩)))

/-! ## The conclusion -/

theorem resolves_agentResult (h : v.jobs BuiltinJob.agent.name) :
    v.Resolves Workflow.agentResult.toList :=
  (resolves_result (BuiltinJob.plain_name .agent) h).embed

theorem clears_summaryStep (hname : Silent w.name.toList) {jobs : List String}
    (hjobs : ∀ name ∈ jobs, Plain name ∧ v.jobs name) (hagent : v.jobs BuiltinJob.agent.name) :
    v.Clears (w.summaryStep jobs) :=
  (((clears_ofModule (resolves_literal (by decide)) (resolves_literal (by decide))).withEnv
    (.silent hname)).withEnv (resolves_agentResult hagent)).withEnv (resolves_results hjobs)

/-- The step that completes the comment reads where the activation job made it. -/
theorem clears_completionStep (hname : Silent w.name.toList)
    (hagent : v.jobs BuiltinJob.agent.name) (hactivation : v.jobs BuiltinJob.activation.name)
    (hgiven : ∀ key ∈ Workflow.reactionOutputs, v.outputs BuiltinJob.activation.name key) :
    v.Clears w.completionStep := by
  have hid : v.Resolves (Embedded.jobOutput BuiltinJob.activation.name "comment_id").toList :=
    resolves_jobOutput (BuiltinJob.plain_name .activation) (plain_literal (by decide)) hactivation
      (hgiven _ (by decide))
  have hrepo : v.Resolves (Embedded.jobOutput BuiltinJob.activation.name "comment_repo").toList :=
    resolves_jobOutput (BuiltinJob.plain_name .activation) (plain_literal (by decide)) hactivation
      (hgiven _ (by decide))
  have hurl : v.Resolves (Embedded.embed "github.server_url" ++ "/"
      ++ Embedded.embed "github.repository" ++ "/actions/runs/"
      ++ Embedded.embed "github.run_id").toList :=
    ((resolves_literal (by decide)).embed.join (resolves_literal (by decide)).embed
      (by decide)).join (resolves_literal (by decide)).embed (by decide)
  have hmodule : v.Clears (Step.ofModule "Update reaction comment with completion status"
      "notify_comment.cjs") :=
    clears_ofModule (resolves_literal (by decide)) (resolves_literal (by decide))
  exact (((((hmodule.withCondition (hid.append_literal (by decide))).withEnv hid.embed).withEnv
    hrepo.embed).withEnv hurl).withEnv (.silent hname)).withEnv (resolves_agentResult hagent)

theorem covers_conclusionJob (hquiet : w.Quiet engine) (houtputs : w.safeOutputs = some outputs)
    (hplan : v.SeesPlan w registry engine options) {types : List OutputType}
    (hsees : v.Sees (w.conclusionJob runsOn types outputs.jobs.keys)) :
    v.Covers (w.conclusionJob runsOn types outputs.jobs.keys) := by
  have hagent : v.jobs BuiltinJob.agent.name := hsees.needs _ List.mem_cons_self
  have hactivation : v.jobs BuiltinJob.activation.name :=
    hsees.needs _ (List.mem_cons_of_mem _ List.mem_cons_self)
  have hjobs : ∀ name ∈ types.map OutputType.name ++ outputs.jobs.keys,
      Plain name ∧ v.jobs name := by
    intro name hname
    refine ⟨?_, hsees.needs _ (List.mem_cons_of_mem _ (List.mem_cons_of_mem _ hname))⟩
    rcases List.mem_append.mp hname with hname | hname
    · obtain ⟨type, -, rfl⟩ := List.mem_map.mp hname
      exact type.plain_name
    · obtain ⟨config, hconfig⟩ := Table.mem_keys_iff.mp hname
      exact (hquiet.of_ownOutput houtputs hconfig).1
  refine ⟨fun text htext => ?_, resolves_values_empty, resolves_values_empty, fun step hstep => ?_⟩
  · cases htext
    exact (admits_conclusion hagent (hplan.agent houtputs "output_types" (by decide))
      _).resolves_text
  · rcases List.mem_append.mp hstep with hstep | hstep
    · rcases List.mem_pair.mp hstep with rfl | rfl
      · exact clears_downloadStep (resolves_literal (by decide))
      · exact clears_summaryStep hquiet.silent_name hjobs hagent
    · split at hstep
      case isTrue hreaction =>
        obtain rfl := List.mem_singleton.mp hstep
        exact clears_completionStep hquiet.silent_name hagent hactivation
          (hplan.activation hreaction)
      case isFalse => cases hstep

/-! ## All jobs -/

/-- **Every planned job of a quiet workflow** refers to jobs that it needs, to outputs that planned
jobs give, and to steps of its own. -/
theorem covers_of_planned {job : Job} (hquiet : w.Quiet engine)
    (hplan : v.SeesPlan w registry engine options)
    (hjob : w.Planned registry engine options job) (hsees : v.Sees job) : v.Covers job := by
  cases hjob with
  | preActivation => exact covers_preActivationJob hquiet hsees
  | activation => exact covers_activationJob hquiet hplan hsees
  | agent => exact covers_agentJob hquiet hsees
  | beside hconfig => exact covers_besideAgent (hquiet.of_beside hconfig).2
  | detection houtputs => exact covers_detectionJob hquiet houtputs hplan hsees
  | handler houtputs _ hset => exact covers_handlerJobOf hsees hquiet houtputs hset hplan
  | ownOutput houtputs hconfig => exact covers_forOutput hquiet houtputs hconfig hplan hsees
  | conclusion houtputs => exact covers_conclusionJob hquiet houtputs hplan hsees

end View

end AgentGate
