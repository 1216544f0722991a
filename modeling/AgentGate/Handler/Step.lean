import AgentGate.Handler.Basic
import AgentGate.Handler.Token
import AgentGate.Job.Builtin

/-!
# The step of a handler

The settings of an output type become a step: the environment that its script reads, its condition,
its token, the steps around it, and the jobs whose outputs it reads.

- `OutputSettings.fault?`: the first thing that is wrong with settings for a type.
- `HandlerStep.ofSettings`: the step for settings that are in order.
- `HandlerStep.build`: the step of a type, if the type is turned on.
-/

namespace AgentGate

/-! ## Faulty settings -/

namespace OutputSettings

/-- A mode for pushing nothing, where the type checks it. -/
def modeFault? (settings : OutputSettings) (type : OutputType) : Option SettingFault :=
  match type, settings.ifNoChanges with
  | .createPullRequest, some mode =>
    if mode = "warn" ∨ mode = "error" ∨ mode = "ignore" then none
    else some (.unknownNoChangesMode mode)
  | _, _ => none

/-- A side of a difference, where the type checks it. -/
def sideFault? (settings : OutputSettings) (type : OutputType) : Option SettingFault :=
  match type, settings.side with
  | .createPrReviewComment, some side =>
    if side = "LEFT" ∨ side = "RIGHT" then none else some (.unknownSide side)
  | _, _ => none

/-- A target repository that is any, or that comes with the triggering item as the target. -/
def targetFault? (settings : OutputSettings) (type : OutputType) : Option SettingFault :=
  match settings.targetRepo with
  | some repo =>
    if Text.trim repo = "*" then some (.anyTargetRepo type)
    else if settings.target = some .triggering then some (.targetRepoWithTriggering type)
    else none
  | none => none

/-- Limits on the number of items that no number keeps. -/
def limitFault? (settings : OutputSettings) (type : OutputType) : Option SettingFault :=
  match settings.max, settings.min with
  | some 0, _ => some (.zeroMax type)
  | some max, some min => if max < min then some (.minAboveMax min max type) else none
  | _, _ => none

/-- The first thing that is wrong with settings for a type. -/
def fault? (settings : OutputSettings) (type : OutputType) : Option SettingFault :=
  settings.modeFault? type
    <|> settings.sideFault? type
    <|> settings.targetFault? type
    <|> settings.limitFault? type

/-- Whether the output acts on the item that triggered the workflow. -/
def targetsTriggering (settings : OutputSettings) : Bool :=
  settings.target = none || settings.target = some .triggering

end OutputSettings

/-! ## The environment of the script -/

/-- The size in KB up to which code is pushed when the workflow does not say. -/
def defaultMaxPatchSize : Nat := 1024

/-- Variables with the values that are set. -/
abbrev EnvEntries := List (String × Option String)

namespace EnvEntries

/-- The value of a list, unless it is empty: its items joined by commas. -/
def listed (items : List String) : Option String :=
  if items.isEmpty then none else some (",".intercalate items)

/-- The word `true`, where it is true. -/
def whenTrue (value : Option Bool) : Option String :=
  if value = some true then some "true" else none

end EnvEntries

namespace HandlerStep

open EnvEntries

/-- The variables that every type has. -/
def commonEnv (settings : OutputSettings) (w : Workflow) (ctx : HandlerContext) : EnvEntries :=
  [("GH_AW_WORKFLOW_NAME", some w.name),
    ("GITHUB_TOKEN", some (Token.ofSettings settings w ctx.outputs)),
    ("GH_AW_WORKFLOW_SOURCE", w.source),
    ("GH_AW_TRACKER_ID", w.trackerId),
    ("GH_AW_ENGINE_ID", w.engine),
    ("GH_AW_SAFE_OUTPUTS_STAGED",
      whenTrue (some (settings.staged.getD ctx.outputs.staged))),
    ("GH_AW_TARGET_REPO_SLUG", settings.targetRepo),
    ("GH_AW_SAFE_OUTPUT_MAX", settings.max.map toString),
    ("GH_AW_SAFE_OUTPUT_MIN", settings.min.map toString)]

/-- The variables that a type has of its own, apart from outputs of other jobs. -/
def ownEnv (type : OutputType) (settings : OutputSettings) (w : Workflow) (ctx : HandlerContext) :
    EnvEntries :=
  match type with
  | .createIssue =>
    [("GH_AW_AGENT_OUTPUT", some Artifact.outputPath),
      ("GH_AW_ISSUE_TITLE_PREFIX", settings.titlePrefix),
      ("GH_AW_ISSUE_LABELS", listed settings.labels),
      ("GH_AW_ISSUE_ALLOWED_LABELS", listed settings.allowed)]
  | .createDiscussion =>
    [("GH_AW_AGENT_OUTPUT", some Artifact.outputPath),
      ("GH_AW_DISCUSSION_CATEGORY", settings.category),
      ("GH_AW_DISCUSSION_TITLE_PREFIX", settings.titlePrefix),
      ("GH_AW_DISCUSSION_LABELS", listed settings.labels),
      ("GH_AW_CLOSE_OLDER_DISCUSSIONS", whenTrue settings.closeOlderDiscussions)]
  | .addComment =>
    [("GH_AW_AGENT_OUTPUT", some Artifact.outputPath),
      ("GH_AW_COMMENT_TARGET", settings.target.map Target.text),
      ("GITHUB_AW_COMMENT_DISCUSSION", whenTrue settings.discussion),
      ("GH_AW_HIDE_OLDER_COMMENTS", whenTrue settings.hideOlderComments)]
  | .createPullRequest =>
    [("GH_AW_WORKFLOW_ID", some w.id),
      ("GH_AW_BASE_BRANCH", some (Embedded.embed "github.ref_name")),
      ("GH_AW_AGENT_OUTPUT", some Artifact.outputPath),
      ("GH_AW_PR_TITLE_PREFIX", settings.titlePrefix),
      ("GH_AW_PR_LABELS", listed settings.labels),
      ("GH_AW_PR_ALLOWED_LABELS", listed settings.allowed),
      ("GH_AW_PR_DRAFT", some (toString (settings.draft.getD true))),
      ("GH_AW_PR_IF_NO_CHANGES", some (settings.ifNoChanges.getD "warn")),
      ("GH_AW_PR_ALLOW_EMPTY", settings.allowEmpty.map toString),
      ("GH_AW_MAX_PATCH_SIZE",
        some (toString (ctx.outputs.maxPatchSize.getD defaultMaxPatchSize)))]
  | .createPrReviewComment =>
    [("GH_AW_AGENT_OUTPUT", some Artifact.outputPath),
      ("GH_AW_PR_REVIEW_COMMENT_TARGET", settings.target.map Target.text),
      ("GH_AW_PR_REVIEW_COMMENT_SIDE", settings.side)]
  | .createCodeScanningAlert =>
    [("GH_AW_AGENT_OUTPUT", some Artifact.outputPath),
      ("GH_AW_WORKFLOW_FILENAME", some w.fileName),
      ("GH_AW_SECURITY_REPORT_DRIVER", settings.driver),
      ("GH_AW_SECURITY_REPORT_MAX", settings.max.map toString)]
  | .addLabels =>
    [("GH_AW_AGENT_OUTPUT", some Artifact.outputPath),
      ("GH_AW_LABELS_ALLOWED", listed settings.allowed),
      ("GH_AW_LABELS_TARGET", settings.target.map Target.text)]
  | .pushToPullRequestBranch =>
    [("GH_AW_AGENT_OUTPUT", some Artifact.outputPath),
      ("GH_AW_PUSH_TARGET", some (settings.target.getD .triggering).text),
      ("GH_AW_PR_TITLE_PREFIX", settings.titlePrefix),
      ("GH_AW_PR_LABELS", listed settings.labels),
      ("GH_AW_COMMIT_TITLE_SUFFIX", settings.commitTitleSuffix),
      ("GH_AW_PUSH_IF_NO_CHANGES", some (settings.ifNoChanges.getD "warn")),
      ("GH_AW_MAX_PATCH_SIZE",
        some (toString (ctx.outputs.maxPatchSize.getD defaultMaxPatchSize)))]
  | .createAgentTask =>
    [("GITHUB_AW_AGENT_OUTPUT", some Artifact.outputPath),
      ("GITHUB_REPOSITORY", some (Embedded.embed "github.repository")),
      ("GITHUB_REF_NAME", some (Embedded.embed "github.ref_name")),
      ("GITHUB_AW_TARGET_REPO", settings.targetRepo),
      ("GITHUB_AW_AGENT_TASK_BASE", settings.base)]
  | .missingTool =>
    [("GH_AW_AGENT_OUTPUT", some Artifact.outputPath),
      ("GH_AW_MISSING_TOOL_MAX", settings.max.map toString)]
  | .noop =>
    [("GH_AW_AGENT_OUTPUT", some Artifact.outputPath),
      ("GH_AW_NOOP_MAX", settings.max.map toString)]

/-! ## Outputs of other jobs -/

/-- Outputs of the jobs that create items, under the variables in which a comment reads them. -/
def createdItems : List (OutputType × String × String) :=
  [(.createIssue, "GH_AW_CREATED_ISSUE_URL", "issue_url"),
    (.createIssue, "GH_AW_CREATED_ISSUE_NUMBER", "issue_number"),
    (.createDiscussion, "GH_AW_CREATED_DISCUSSION_URL", "discussion_url"),
    (.createDiscussion, "GH_AW_CREATED_DISCUSSION_NUMBER", "discussion_number"),
    (.createPullRequest, "GH_AW_CREATED_PULL_REQUEST_URL", "pull_request_url"),
    (.createPullRequest, "GH_AW_CREATED_PULL_REQUEST_NUMBER", "pull_request_number")]

/-- The outputs of handler jobs that a type reads, by variable. -/
def itemReads (type : OutputType) (ctx : HandlerContext) : List (String × OutputRef) :=
  let created :=
    if type = .addComment then
      (createdItems.filter fun item => ctx.enabled.contains item.1).map fun item =>
        (item.2.1, ⟨item.1.name, item.2.2⟩)
    else []
  let identifiers :=
    if type.requiresTemporaryIds then
      ctx.temporaryIds.toList.map fun ref => ("GH_AW_TEMPORARY_ID_MAP", ref)
    else []
  created ++ identifiers

/-- The outputs of the activation job that a type reads: where the reaction was commented. -/
def commentReads (type : OutputType) (w : Workflow) : List (String × OutputRef) :=
  if type = .createPullRequest ∧ w.reaction.isSome then
    [("GH_AW_COMMENT_ID", ⟨BuiltinJob.activation.name, "comment_id"⟩),
      ("GH_AW_COMMENT_REPO", ⟨BuiltinJob.activation.name, "comment_repo"⟩)]
  else []

/-- All outputs that a type reads, by variable. -/
def reads (type : OutputType) (w : Workflow) (ctx : HandlerContext) : List (String × OutputRef) :=
  itemReads type ctx ++ commentReads type w

end HandlerStep

/-! ## The step -/

/-- The step of a handler, with what its job takes from it. -/
structure HandlerStep where
  title : String
  id : String
  /-- The module that the step runs. -/
  script : String
  env : Table String
  condition : Condition
  /-- The step's output behind each output of the job. -/
  outputs : Table String
  token : String
  permissions : Permissions
  /-- The jobs whose outputs the step reads, ascending. -/
  needs : List String
  /-- Steps before it. -/
  preSteps : List Step
  /-- Steps after it. -/
  postSteps : List Step

namespace HandlerStep

/-- The environment of the script. -/
def envOf (type : OutputType) (settings : OutputSettings) (w : Workflow) (ctx : HandlerContext) :
    Table String :=
  let entries :=
    commonEnv settings w ctx ++ ownEnv type settings w ctx
      ++ (reads type w ctx).map fun entry => (entry.1, some entry.2.expression)
  Table.ofList (entries.filterMap fun entry => entry.2.map fun value => (entry.1, value))

/-- The condition: the agent asked for the type, detection found nothing where it is active, and
the triggering event carries the item where the type acts on that. -/
def conditionOf (type : OutputType) (settings : OutputSettings) (ctx : HandlerContext) :
    Condition :=
  let asked := Condition.safeOutput type (settings.min.getD 0)
  let vetted := if ctx.detectionActive then asked.andAlso .detectionSucceeded else asked
  match type.trigger? with
  | some trigger => if settings.targetsTriggering then vetted.andAlso trigger else vetted
  | none => vetted

/-- The jobs whose outputs the step reads. Pushing code waits for the activation job in any case. -/
def needsOf (type : OutputType) (w : Workflow) (ctx : HandlerContext) : List String :=
  Table.distinct <|
    (reads type w ctx).map (fun entry => entry.2.job)
      ++ if type.pushesCode then [BuiltinJob.activation.name] else []

/-- The step that uploads the findings of a code scan. -/
def uploadFindingsStep (id : String) : Step :=
  (Step.ofAction "Upload SARIF" "github/codeql-action/upload-sarif@v3").withCondition
      (Embedded.stepOutput id "sarif_file" ++ " != ''")
    |>.withInput "sarif_file" (Embedded.embed (Embedded.stepOutput id "sarif_file"))
    |>.withInput "category" "safe-outputs"

/-- The app that mints the token, where the token is a minted one. -/
def minting? (token : String) (outputs : SafeOutputs) : Option GitHubApp :=
  if token = Token.minted then outputs.app else none

/-- The step for settings that are in order. -/
def ofSettings (type : OutputType) (settings : OutputSettings) (w : Workflow)
    (ctx : HandlerContext) : HandlerStep :=
  let token := Token.ofSettings settings w ctx.outputs
  let app := minting? token ctx.outputs
  { title := type.title
    id := type.name
    script := type.name ++ ".cjs"
    env := envOf type settings w ctx
    condition := conditionOf type settings ctx
    outputs := Table.ofList (type.outputs.map fun name => (name, name))
    token
    permissions := type.permissions
    needs := needsOf type w ctx
    preSteps :=
      (app.toList.map fun app => Token.mintStep app type.permissions)
        ++ if type.pushesCode then [Step.checkout.withInput "token" token] else []
    postSteps :=
      (if type = .createCodeScanningAlert then [uploadFindingsStep type.name] else [])
        ++ app.toList.map fun _ => Token.revokeStep }

/-- The step of a type, if it is turned on. -/
def build (type : OutputType) (w : Workflow) (ctx : HandlerContext) :
    Except SettingFault (Option HandlerStep) :=
  match ctx.outputs.settings? type with
  | none => .ok none
  | some settings =>
    match settings.fault? type with
    | some fault => .error fault
    | none => .ok (some (ofSettings type settings w ctx))

end HandlerStep

end AgentGate
