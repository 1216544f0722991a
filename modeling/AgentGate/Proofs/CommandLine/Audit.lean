import AgentGate.CommandLine.Report
import AgentGate.Proofs.Permission
import AgentGate.Proofs.Plan.Accepted
import AgentGate.Proofs.Toolset

/-!
# An audit on the command line

A grant can be audited in a workflow, as part of its compilation, or on its own by a command. The
two are given the list of toolsets in different ways and decide each by itself what is rejected, yet
come to the same verdict.

- `Filling.step_valued`, `Filling.step_bare`: a parameter by its long name, with and without value.
- `AuditCommand.arguments`: a grant and some toolsets as arguments.
- `AuditCommand.ofArguments_arguments`: these arguments are read as what they were made of.
- `AuditCommand.execute_agrees`: a check and a command that are given the same names decide alike.
- `AuditCommand.verdict_agrees`: they do so however the list of toolsets is written.
-/

namespace AgentGate

namespace CommandLine

/-! ## Parameters by their long names -/

namespace Filling

variable {α : Type} {form : Form α} {filling : Filling α}

theorem takeWhile_name {name : List Char} (hname : '=' ∉ name) (value : List Char) :
    (name ++ '=' :: value).takeWhile (fun c => c ≠ '=') = name
      ∧ (name ++ '=' :: value).dropWhile (fun c => c ≠ '=') = '=' :: value := by
  have hall : ∀ c ∈ name, decide (c ≠ '=') = true := fun c hc =>
    decide_eq_true fun heq => hname (heq ▸ hc)
  rw [List.takeWhile_append_of_pos hall, List.dropWhile_append_of_pos hall]
  exact ⟨List.append_nil name, rfl⟩

/-- A parameter with its value behind an equals sign. -/
theorem step_valued (name : List Char) (hoperands : filling.operandsOnly = false)
    (hname : '=' ∉ name) (value : String) :
    Filling.step form filling (String.ofList ('-' :: '-' :: (name ++ ['='])) ++ value)
      = filling.long form (String.ofList name) (some value) := by
  obtain ⟨htake, hdrop⟩ := takeWhile_name hname value.toList
  have hchars : (String.ofList ('-' :: '-' :: (name ++ ['='])) ++ value).toList
      = '-' :: '-' :: (name ++ '=' :: value.toList) := by
    rw [String.toList_append, String.toList_ofList, List.cons_append, List.cons_append,
      List.append_assoc, List.singleton_append]
  rw [Filling.step, hoperands, if_neg Bool.false_ne_true, hchars]
  cases hrest : name ++ '=' :: value.toList with
  | nil => exact absurd hrest (List.append_ne_nil_of_right_ne_nil _ (List.cons_ne_nil _ _))
  | cons c rest =>
    rw [hrest] at htake hdrop
    simp only [htake, hdrop, String.ofList_toList]

/-- A parameter without a value in the same argument. -/
theorem step_bare (name : List Char) (hoperands : filling.operandsOnly = false)
    (hname : '=' ∉ name) (hne : name ≠ []) :
    Filling.step form filling (String.ofList ('-' :: '-' :: name))
      = filling.long form (String.ofList name) none := by
  have hall : ∀ c ∈ name, decide (c ≠ '=') = true := fun c hc =>
    decide_eq_true fun heq => hname (heq ▸ hc)
  have htake := List.takeWhile_eq_self_iff.mpr hall
  have hdrop := List.dropWhile_eq_nil_iff.mpr hall
  rw [Filling.step, hoperands, if_neg Bool.false_ne_true, String.toList_ofList]
  cases name with
  | nil => exact absurd rfl hne
  | cons c rest => simp only [htake, hdrop]

variable {parameter : Parameter α} {value : String} {draft : α}

/-- A parameter that has not been given, or may be repeated, is set. -/
theorem parameter_eq_ok (hpending : filling.pending = none)
    (hnew : filling.given.contains parameter.long = false ∨ parameter.repeats = true)
    (hset : parameter.set value filling.draft = .ok draft) :
    filling.parameter parameter value
      = .ok { filling with draft, given := parameter.long :: filling.given } := by
  have hallowed : ¬ (filling.given.contains parameter.long && !parameter.repeats) = true := by
    rcases hnew with h | h
    · rw [h, Bool.false_and]
      exact Bool.false_ne_true
    · rw [h, Bool.not_true, Bool.and_false]
      exact Bool.false_ne_true
  have hsettle : filling.settle = .ok filling := by
    rw [settle, hpending]
  have happly : filling.apply parameter value
      = .ok { filling with draft, given := parameter.long :: filling.given } := by
    rw [apply, if_neg hallowed, hset]
    rfl
  rw [Filling.parameter, hsettle]
  exact congrArg (Except.mapError Halt.misuse) happly

/-- A parameter with its value, by its place in the form. -/
theorem long_valued {name : String}
    (hfound : form.parameters.find? (fun other => other.long = name) = some parameter)
    (hvalue : parameter.value.isSome = true) (value : String) :
    filling.long form name (some value) = filling.parameter parameter value := by
  simp only [Filling.long, hfound]
  exact if_pos hvalue

/-- A parameter without value, by its place in the form. -/
theorem long_bare {name : String}
    (hfound : form.parameters.find? (fun other => other.long = name) = some parameter)
    (hvalue : parameter.value.isSome = false) :
    filling.long form name none = filling.parameter parameter "" := by
  simp only [Filling.long, hfound]
  exact if_neg (Bool.eq_false_iff.mp hvalue)

end Filling

/-! ## The arguments of an audit -/

namespace AuditCommand

variable {draft : AuditCommand} {given : List String}

/-- A grant and some toolsets, given as one text, as arguments of the command. -/
def arguments (toolsets : String) (granted : Permissions) (readOnly strict : Bool) : List String :=
  ("--toolsets=" ++ toolsets) ::
    ((if readOnly then ["--read-only"] else [])
      ++ (granted.entries.map (fun entry => "--grant=" ++ (entry.1.name ++ ("=" ++ entry.2.name)))
        ++ (if strict then ["--strict"] else [])))

theorem step_toolsets (text : String) :
    Filling.step form { draft, given } ("--toolsets=" ++ text)
      = .ok { draft := { draft with toolsets := draft.toolsets ++ Text.pieces ',' text }
              given := "toolsets" :: given } := by
  refine (Filling.step_valued "toolsets".toList rfl (by decide) text).trans ?_
  exact (Filling.long_valued rfl rfl text).trans (Filling.parameter_eq_ok rfl (.inr rfl) rfl)

theorem step_readOnly (h : given.contains "read-only" = false) :
    Filling.step form { draft, given } "--read-only"
      = .ok { draft := { draft with readOnly := true }, given := "read-only" :: given } := by
  refine (Filling.step_bare "read-only".toList rfl (by decide) (by decide)).trans ?_
  exact (Filling.long_bare rfl rfl).trans (Filling.parameter_eq_ok rfl (.inl h) rfl)

theorem step_strict (h : given.contains "strict" = false) :
    Filling.step form { draft, given } "--strict"
      = .ok { draft := { draft with strict := true }, given := "strict" :: given } := by
  refine (Filling.step_bare "strict".toList rfl (by decide) (by decide)).trans ?_
  exact (Filling.long_bare rfl rfl).trans (Filling.parameter_eq_ok rfl (.inl h) rfl)

/-- A grant is read from the two names that it is written with. -/
theorem grantOfText_name (scope : Scope) (level : Level) :
    grantOfText (scope.name ++ ("=" ++ level.name)) = .ok (scope, level) := by
  have hname : '=' ∉ scope.name.toList := by
    cases scope <;> decide
  have hscope : Text.trim scope.name = scope.name := by
    cases scope <;> rfl
  have hlevel : Text.trim level.name = level.name := by
    cases level <;> rfl
  have hchars : (scope.name ++ ("=" ++ level.name)).toList
      = scope.name.toList ++ '=' :: level.name.toList := by
    rw [String.toList_append, String.toList_append]
    rfl
  obtain ⟨htake, hdrop⟩ := Filling.takeWhile_name hname level.name.toList
  simp only [grantOfText, hchars, htake, hdrop, String.ofList_toList, hscope, hlevel,
    Scope.ofName_name, Level.ofName_name]
  rfl

theorem step_grant (scope : Scope) (level : Level) :
    Filling.step form { draft, given } ("--grant=" ++ (scope.name ++ ("=" ++ level.name)))
      = .ok { draft := { draft with granted := draft.granted.set scope level }
              given := "grant" :: given } := by
  refine (Filling.step_valued "grant".toList rfl (by decide) _).trans ?_
  refine (Filling.long_valued rfl rfl _).trans (Filling.parameter_eq_ok rfl (.inr rfl) ?_)
  simp only [grantOfText_name]

theorem foldlM_grants (entries : List (Scope × Level)) :
    (entries.map fun entry => "--grant=" ++ (entry.1.name ++ ("=" ++ entry.2.name))).foldlM
        (Filling.step form) { draft, given }
      = .ok { draft := { draft with
                granted := entries.foldl (fun p entry => p.set entry.1 entry.2) draft.granted }
              given := List.replicate entries.length "grant" ++ given } := by
  induction entries generalizing draft given with
  | nil => rfl
  | cons entry entries ih =>
    rw [List.map_cons, List.foldlM_cons, step_grant]
    refine ih.trans ?_
    rw [List.length_cons, List.replicate_succ', List.append_assoc]
    rfl

theorem foldlM_readOnly (readOnly : Bool) (h : given.contains "read-only" = false) :
    (if readOnly then ["--read-only"] else []).foldlM (Filling.step form) { draft, given }
      = .ok { draft := { draft with readOnly := readOnly || draft.readOnly }
              given := (if readOnly then ["read-only"] else []) ++ given } := by
  cases readOnly with
  | false => rfl
  | true => exact (bind_pure _).trans (step_readOnly h)

theorem foldlM_strict (strict : Bool) (h : given.contains "strict" = false) :
    (if strict then ["--strict"] else []).foldlM (Filling.step form) { draft, given }
      = .ok { draft := { draft with strict := strict || draft.strict }
              given := (if strict then ["strict"] else []) ++ given } := by
  cases strict with
  | false => rfl
  | true => exact (bind_pure _).trans (step_strict h)

/-- The arguments are taken one by one, and each parameter without value comes once. -/
theorem exists_foldlM_arguments (toolsets : String) (granted : Permissions)
    (readOnly strict : Bool) :
    ∃ given, (arguments toolsets granted readOnly strict).foldlM (Filling.step form) { draft := {} }
      = .ok { draft := { toolsets := Text.pieces ',' toolsets, readOnly, granted, strict }
              given } := by
  have hgranted : granted.entries.foldl (fun p entry => p.set entry.1 entry.2) ∅ = granted :=
    granted.ofList_entries
  have hnew : (List.replicate granted.entries.length "grant"
      ++ ((if readOnly then ["read-only"] else []) ++ ["toolsets"])).contains "strict" = false := by
    rw [← Bool.not_eq_true, List.contains_iff_mem, List.mem_append, List.mem_replicate, not_or]
    exact ⟨fun h => absurd h.2 (by decide), by cases readOnly <;> decide⟩
  refine ⟨(if strict then ["strict"] else []) ++ (List.replicate granted.entries.length "grant"
    ++ ((if readOnly then ["read-only"] else []) ++ ["toolsets"])), ?_⟩
  refine bind_eq_ok_iff.mpr ⟨_, step_toolsets toolsets, ?_⟩
  rw [List.foldlM_append]
  refine bind_eq_ok_iff.mpr ⟨_, foldlM_readOnly readOnly rfl, ?_⟩
  rw [List.foldlM_append]
  refine bind_eq_ok_iff.mpr ⟨_, foldlM_grants granted.entries, ?_⟩
  rw [foldlM_strict strict hnew]
  simp only [List.nil_append, Bool.or_false, hgranted]

/-- What is read of the arguments is what was written. -/
theorem ofArguments_arguments (toolsets : String) (granted : Permissions) (readOnly strict : Bool) :
    Invocation.ofArguments ("permissions" :: arguments toolsets granted readOnly strict)
      = .ok (.run (.permissions
        { toolsets := Text.pieces ',' toolsets, readOnly, granted, strict })) := by
  have hpieces : (Text.pieces ',' toolsets).isEmpty = false := by
    rw [Text.pieces, List.isEmpty_map, List.splitOn_eq_splitOnP, List.isEmpty_eq_false_iff]
    exact List.splitOnP_ne_nil _ _
  obtain ⟨given, harguments⟩ := exists_foldlM_arguments toolsets granted readOnly strict
  have hfill : form.fill {} (arguments toolsets granted readOnly strict)
      = .ok { toolsets := Text.pieces ',' toolsets, readOnly, granted, strict } :=
    bind_eq_ok_iff.mpr ⟨_, harguments, rfl⟩
  change (Command.ofArguments "permissions"
    (arguments toolsets granted readOnly strict)).map Invocation.run = _
  rw [Command.ofArguments, hfill]
  change (((check _).mapError Halt.misuse).map Command.permissions).map Invocation.run = _
  rw [check, hpieces]
  rfl

/-! ## One verdict -/

/-- A check in a workflow and a command that are given the same names, and otherwise agree, decide
alike: they reject with one message, or accept with one warning or none. -/
theorem execute_agrees {w : Workflow} {tool : GitHubTool} {command : AuditCommand} {strict : Bool}
    (htool : w.githubTool = some tool) (hgranted : command.granted = w.permissions)
    (hnames : Toolset.names tool.toolsets = Toolset.names command.toolsets)
    (hreadOnly : command.readOnly = tool.readOnly) (hstrict : command.strict = strict) :
    (∃ error failure, w.checkPermissions strict = .error error
        ∧ command.execute = .error failure ∧ failure.message = error.message)
      ∨ ∃ (warning : Option String) (report : Report),
        w.checkPermissions strict = .ok warning.toList
          ∧ command.execute = .ok report
          ∧ report.stderr = (warning.map (· ++ "\n")).getD "" := by
  have haudit : w.audit? = some (command.granted.audit command.toolsets command.readOnly) := by
    rw [Workflow.audit?, htool, hgranted, hreadOnly]
    exact congrArg some (Permissions.audit_congr hnames _ _)
  generalize haudited : command.granted.audit command.toolsets command.readOnly = audit at haudit
  rw [Workflow.checkPermissions_of_audit haudit, execute, haudited, hstrict]
  cases hrejects : audit.rejects strict with
  | true => exact .inl ⟨_, _, rfl, rfl, String.intercalate_singleton⟩
  | false =>
    have hmissing : audit.missing.isEmpty = true := by
      rw [Audit.rejects, Bool.or_eq_false_iff, Bool.not_eq_false'] at hrejects
      exact hrejects.1
    have hissues : audit.hasIssues = !audit.excess.isEmpty := by
      rw [Audit.hasIssues, hmissing]
      rfl
    refine .inr ⟨if audit.excess.isEmpty then none else some (audit.message false), _, ?_, rfl, ?_⟩
    · cases audit.excess.isEmpty <;> rfl
    · rw [hissues]
      cases audit.excess.isEmpty <;> rfl

theorem ofJson_members {value : Json} {names : List String} (readOnly : Bool)
    (h : readNames value = .ok names) :
    GitHubTool.ofJson (.object [("toolsets", value), ("read-only", .bool readOnly)])
      = .ok { toolsets := names, readOnly } := by
  rw [GitHubTool.ofJson, Json.record_fields (List.Sublist.refl _) (by decide)]
  refine bind_eq_ok_iff.mpr ⟨{ toolsets := names }, ?_, rfl⟩
  change (readNames value).map _ = _
  rw [h]
  rfl

/-- **One list, one verdict.** A list of toolsets may be written in a workflow as one text, or as a
list of texts that make up this text with commas between them, and it may be given to the command,
which takes the text apart by itself. A workflow reads the same tool of both, the command line gives
a command, and the check of the workflow and the command agree: both reject with the same message,
or both accept and give the same warning or none. -/
theorem verdict_agrees (w : Workflow) (items : List String) (readOnly strict : Bool) :
    ∃ tool command,
      GitHubTool.ofJson (.object [("toolsets", .text (",".intercalate items)),
          ("read-only", .bool readOnly)]) = .ok tool
        ∧ GitHubTool.ofJson (.object [("toolsets", Json.texts items),
          ("read-only", .bool readOnly)]) = .ok tool
        ∧ Invocation.ofArguments
            ("permissions" :: arguments (",".intercalate items) w.permissions readOnly strict)
          = .ok (.run (.permissions command))
        ∧ ((∃ error failure,
              { w with githubTool := some tool }.checkPermissions strict = .error error
                ∧ command.execute = .error failure ∧ failure.message = error.message)
          ∨ ∃ (warning : Option String) (report : Report),
              { w with githubTool := some tool }.checkPermissions strict = .ok warning.toList
                ∧ command.execute = .ok report
                ∧ report.stderr = (warning.map (· ++ "\n")).getD "") := by
  have htext := readNames_text (",".intercalate items)
  have hlist : readNames (Json.texts items)
      = .ok (Toolset.names (Text.pieces ',' (",".intercalate items))) := by
    rw [readNames_texts, Toolset.names_pieces_intercalate]
  refine ⟨_, _, ofJson_members readOnly htext, ofJson_members readOnly hlist,
    ofArguments_arguments _ _ _ _, ?_⟩
  exact execute_agrees rfl rfl (Toolset.names_names _) rfl rfl

end AuditCommand

end CommandLine

end AgentGate
