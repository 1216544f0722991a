import AgentGate.UnknownName

/-!
# Output types

The side effects that an agent may ask for. Each has a name, which is also the name of the job that
carries it out, and a setting in the workflow that turns it on.

- `OutputType.all`: the types in the order in which jobs and contexts list them.
- `OutputType.ofName`: the type of a name, as the agent and the command line write it.
- `OutputType.settingKey`: the key under `safe-outputs` that turns a type on.
-/

namespace AgentGate

/-- A kind of side effect that an agent may ask for. -/
inductive OutputType where
  | createIssue | createDiscussion | addComment | createPullRequest | createPrReviewComment
  | createCodeScanningAlert | addLabels | pushToPullRequestBranch | createAgentTask | missingTool
  | noop
  deriving DecidableEq, Repr

namespace OutputType

/-- All output types. -/
def all : List OutputType :=
  [createIssue, createDiscussion, addComment, createPullRequest, createPrReviewComment,
    createCodeScanningAlert, addLabels, pushToPullRequestBranch, createAgentTask, missingTool, noop]

/-- The name of a type, and of the job that carries it out. -/
def name : OutputType → String
  | createIssue => "create_issue"
  | createDiscussion => "create_discussion"
  | addComment => "add_comment"
  | createPullRequest => "create_pull_request"
  | createPrReviewComment => "create_pr_review_comment"
  | createCodeScanningAlert => "create_code_scanning_alert"
  | addLabels => "add_labels"
  | pushToPullRequestBranch => "push_to_pull_request_branch"
  | createAgentTask => "create_agent_task"
  | missingTool => "missing_tool"
  | noop => "noop"

/-- The title of the step that carries a type out. -/
def title : OutputType → String
  | createIssue => "Create Issue"
  | createDiscussion => "Create Discussion"
  | addComment => "Add Comment"
  | createPullRequest => "Create Pull Request"
  | createPrReviewComment => "Create PR Review Comment"
  | createCodeScanningAlert => "Create Code Scanning Alert"
  | addLabels => "Add Labels"
  | pushToPullRequestBranch => "Push To Pull Request Branch"
  | createAgentTask => "Create Agent Task"
  | missingTool => "Missing Tool"
  | noop => "Noop"

/-- The key of a type under `safe-outputs`. -/
def settingKey : OutputType → String
  | createIssue => "create-issue"
  | createDiscussion => "create-discussion"
  | addComment => "add-comment"
  | createPullRequest => "create-pull-request"
  | createPrReviewComment => "create-pull-request-review-comment"
  | createCodeScanningAlert => "create-code-scanning-alert"
  | addLabels => "add-labels"
  | pushToPullRequestBranch => "push-to-pull-request-branch"
  | createAgentTask => "create-agent-task"
  | missingTool => "missing-tool"
  | noop => "noop"

/-- The type of a name, if it is one. -/
def ofName? (text : String) : Option OutputType :=
  all.find? fun type => type.name = text

/-- The type of a name. -/
def ofName (text : String) : Except UnknownName OutputType :=
  match ofName? text with
  | some type => .ok type
  | none => .error (.outputType text)

@[simp] theorem mem_all (type : OutputType) : type ∈ all := by cases type <;> decide

/-- Every type is found under its name. -/
theorem ofName?_name (type : OutputType) : ofName? type.name = some type := by
  cases type <;> decide

end OutputType

end AgentGate
