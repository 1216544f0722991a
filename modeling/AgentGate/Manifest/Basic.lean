import AgentGate.OutputType

/-!
# Environment manifests

The script of an output type reads its settings from environment variables. The manifest of a type
lists the variables that its script reads, and says which of them it cannot do without.

- `EnvManifest.common`: the variables that every script reads.
- `EnvManifest.ofType`: the manifest of an output type.
-/

namespace AgentGate

/-- A variable that a script reads. -/
structure EnvVar where
  name : String
  isRequired : Bool
  description : String
  /-- What the script takes in its absence, where that is fixed. -/
  fallback : Option String := none
  deriving DecidableEq, Repr

namespace EnvVar

/-- A variable without which a script does not run. -/
def required (name description : String) : EnvVar :=
  { name, isRequired := true, description }

/-- A variable that may be absent. -/
def optional (name description : String) : EnvVar :=
  { name, isRequired := false, description }

/-- A variable that may be absent and then has a fixed value. -/
def defaulting (name description value : String) : EnvVar :=
  { name, isRequired := false, description, fallback := some value }

end EnvVar

/-- The variables that the script of an output type reads. -/
structure EnvManifest where
  type : OutputType
  description : String
  vars : List EnvVar
  deriving DecidableEq, Repr

namespace EnvManifest

/-- The variables that every script reads. -/
def common : List EnvVar :=
  [.required "GH_AW_WORKFLOW_NAME" "Workflow name",
    .optional "GH_AW_WORKFLOW_SOURCE" "Workflow source file path",
    .optional "GH_AW_WORKFLOW_SOURCE_URL" "URL to workflow source file",
    .optional "GH_AW_TRACKER_ID" "Tracker ID for workflow runs",
    .optional "GH_AW_ENGINE_ID" "AI engine identifier",
    .optional "GH_AW_ENGINE_VERSION" "AI engine version",
    .optional "GH_AW_ENGINE_MODEL" "AI engine model",
    .optional "GH_AW_SAFE_OUTPUTS_STAGED" "Set to 'true' when in staged/trial mode",
    .optional "GH_AW_TARGET_REPO_SLUG" "Target repository for cross-repo operations (owner/repo)",
    .optional "GH_AW_SAFE_OUTPUT_MESSAGES" "JSON configuration for custom messages",
    .optional "GH_AW_SAFE_OUTPUT_MAX" "Maximum number of items of this type to process",
    .optional "GH_AW_SAFE_OUTPUT_MIN" "Minimum number of items of this type the agent must emit",
    .required "GITHUB_TOKEN" "GitHub token for API calls"]

/-- What the variable with the agent's output is described as. -/
def agentOutputText : String := "Path to agent output file"

/-- What the script of a type does. -/
def purpose : OutputType → String
  | .createIssue => "Creates GitHub issues from agent output"
  | .createDiscussion => "Creates GitHub discussions from agent output"
  | .addComment => "Adds comments to issues, pull requests, or discussions"
  | .createPullRequest => "Creates a pull request from agent code changes"
  | .createPrReviewComment => "Creates review comments on pull requests"
  | .createCodeScanningAlert => "Creates code scanning alerts from security findings"
  | .addLabels => "Adds labels to issues or pull requests"
  | .pushToPullRequestBranch => "Pushes code changes to an existing pull request branch"
  | .createAgentTask => "Creates agent tasks for follow-up work"
  | .missingTool => "Reports missing tools or functionality requested by the agent"
  | .noop => "No-operation job that logs messages without taking GitHub API actions"

/-- The variables that the script of a type reads besides the common ones. -/
def own : OutputType → List EnvVar
  | .createIssue =>
    [.required "GH_AW_AGENT_OUTPUT" agentOutputText,
      .optional "GH_AW_ISSUE_TITLE_PREFIX" "Prefix for issue titles",
      .optional "GH_AW_ISSUE_LABELS" "Comma-separated labels to apply to issues",
      .optional "GH_AW_ISSUE_ALLOWED_LABELS" "Comma-separated list of labels the agent may add",
      .optional "GH_AW_ASSIGN_COPILOT" "Set to 'true' to assign copilot to created issues"]
  | .createDiscussion =>
    [.required "GH_AW_AGENT_OUTPUT" agentOutputText,
      .optional "GH_AW_DISCUSSION_CATEGORY" "Discussion category ID or name",
      .optional "GH_AW_DISCUSSION_TITLE_PREFIX" "Prefix for discussion titles",
      .optional "GH_AW_DISCUSSION_LABELS" "Comma-separated labels to apply to discussions",
      .optional "GH_AW_CLOSE_OLDER_DISCUSSIONS"
        "Set to 'true' to close older discussions with same prefix or labels",
      .optional "GH_AW_TEMPORARY_ID_MAP" "Temporary ID map from create_issue job"]
  | .addComment =>
    [.optional "GH_AW_AGENT_OUTPUT" agentOutputText,
      .optional "GH_AW_COMMENT_TARGET"
        "Target for comment: 'triggering' (default), '*' (any), or issue number",
      .optional "GITHUB_AW_COMMENT_DISCUSSION" "Set to 'true' to target discussion comments",
      .optional "GH_AW_HIDE_OLDER_COMMENTS" "Set to 'true' to minimize older comments",
      .optional "GH_AW_ALLOWED_REASONS" "JSON array of allowed reasons for hiding comments",
      .optional "GH_AW_CREATED_ISSUE_URL" "Issue URL output from create_issue job",
      .optional "GH_AW_CREATED_ISSUE_NUMBER" "Issue number output from create_issue job",
      .optional "GH_AW_TEMPORARY_ID_MAP" "Temporary ID map from create_issue job",
      .optional "GH_AW_CREATED_DISCUSSION_URL" "Discussion URL output from create_discussion job",
      .optional "GH_AW_CREATED_DISCUSSION_NUMBER"
        "Discussion number output from create_discussion job",
      .optional "GH_AW_CREATED_PULL_REQUEST_URL" "PR URL output from create_pull_request job",
      .optional "GH_AW_CREATED_PULL_REQUEST_NUMBER"
        "PR number output from create_pull_request job"]
  | .createPullRequest =>
    [.required "GH_AW_WORKFLOW_ID" "Main job name used for branch naming",
      .required "GH_AW_BASE_BRANCH" "Base branch from github.ref_name",
      .required "GH_AW_AGENT_OUTPUT" agentOutputText,
      .optional "GH_AW_PR_TITLE_PREFIX" "Prefix for PR titles",
      .optional "GH_AW_PR_LABELS" "Comma-separated labels to apply to PR",
      .optional "GH_AW_PR_ALLOWED_LABELS" "Comma-separated list of allowed labels",
      .defaulting "GH_AW_PR_DRAFT" "Set to 'true' or 'false' for draft status" "true",
      .defaulting "GH_AW_PR_IF_NO_CHANGES"
        "Behavior when no changes: 'warn', 'error', or 'ignore'" "warn",
      .defaulting "GH_AW_PR_ALLOW_EMPTY" "Allow creating PR without changes" "false",
      .defaulting "GH_AW_MAX_PATCH_SIZE" "Maximum patch size in KB" "1024",
      .optional "GH_AW_PR_EXPIRES" "Days until PR expires and should be closed",
      .optional "GH_AW_COMMENT_ID" "Comment ID from activation job (when reaction is enabled)",
      .optional "GH_AW_COMMENT_REPO"
        "Comment repository from activation job (when reaction is enabled)"]
  | .createPrReviewComment =>
    [.required "GH_AW_AGENT_OUTPUT" agentOutputText,
      .optional "GH_AW_PR_REVIEW_COMMENT_TARGET" "Target PR for review comments",
      .optional "GH_AW_PR_REVIEW_COMMENT_SIDE" "Side of diff: 'LEFT' or 'RIGHT'"]
  | .createCodeScanningAlert =>
    [.required "GH_AW_AGENT_OUTPUT" agentOutputText,
      .required "GH_AW_WORKFLOW_FILENAME" "Workflow filename",
      .optional "GH_AW_SECURITY_REPORT_DRIVER" "Driver for security reporting",
      .optional "GH_AW_SECURITY_REPORT_MAX" "Maximum number of security reports"]
  | .addLabels =>
    [.required "GH_AW_AGENT_OUTPUT" agentOutputText,
      .optional "GH_AW_LABELS_ALLOWED" "Comma-separated list of labels the agent may add",
      .optional "GH_AW_LABELS_TARGET"
        "Target for labels: 'triggering' (default), '*' (any), or issue number"]
  | .pushToPullRequestBranch =>
    [.required "GH_AW_AGENT_OUTPUT" agentOutputText,
      .required "GH_AW_PUSH_TARGET" "Target for push operations",
      .optional "GH_AW_PR_TITLE_PREFIX" "Prefix for PR titles",
      .optional "GH_AW_PR_LABELS" "Comma-separated labels to apply",
      .optional "GH_AW_COMMIT_TITLE_SUFFIX" "Suffix for commit messages",
      .optional "GH_AW_PUSH_IF_NO_CHANGES" "Behavior when no changes to push",
      .defaulting "GH_AW_MAX_PATCH_SIZE" "Maximum patch size in KB" "1024"]
  | .createAgentTask =>
    [.required "GITHUB_AW_AGENT_OUTPUT" agentOutputText,
      .required "GITHUB_REPOSITORY" "Repository slug (owner/repo)",
      .optional "GITHUB_AW_TARGET_REPO" "Target repository for agent tasks",
      .optional "GITHUB_AW_AGENT_TASK_BASE" "Base configuration for agent tasks",
      .optional "GITHUB_REF_NAME" "Current branch name"]
  | .missingTool =>
    [.required "GH_AW_AGENT_OUTPUT" agentOutputText,
      .optional "GH_AW_MISSING_TOOL_MAX" "Maximum number of missing tools to report"]
  | .noop =>
    [.required "GH_AW_AGENT_OUTPUT" agentOutputText,
      .optional "GH_AW_NOOP_MAX" "Maximum number of noop messages to log"]

/-- The manifest of an output type. -/
def ofType (type : OutputType) : EnvManifest :=
  { type, description := purpose type, vars := common ++ own type }

/-- The manifests of all output types. -/
def all : List EnvManifest :=
  OutputType.all.map ofType

/-- The variable of a name. -/
def var? (manifest : EnvManifest) (name : String) : Option EnvVar :=
  manifest.vars.find? fun var => var.name = name

/-- The names of the variables without which the script does not run. -/
def requiredNames (manifest : EnvManifest) : List String :=
  (manifest.vars.filter EnvVar.isRequired).map EnvVar.name

end EnvManifest

end AgentGate
