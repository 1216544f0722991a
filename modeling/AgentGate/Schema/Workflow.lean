import AgentGate.Permission.Basic
import AgentGate.Schema.Basic

/-!
# The schema of a workflow

What a workflow document may hold. The schema is checked before a workflow is read, so that a
mistake is reported with the value that holds it.

- `Schema.workflow`: the schema.
-/

namespace AgentGate.Schema

/-- Any text. -/
def anyText : Schema := .text .free

/-- A text that is not empty. -/
def someText : Schema := .text (.minLength 1)

/-- Some texts. -/
def texts : Schema := .list anyText

/-- A text, or some texts. -/
def oneOrMany : Schema := .oneOf [anyText, texts]

/-- A table of texts. -/
def textTable : Schema := .table none anyText

/-- A grant: a word for all scopes, or levels by scope. -/
def permissions : Schema :=
  .oneOf
    [.word ["read-all", "write-all"],
      .table (some (Scope.all.map Scope.name))
        (.word ([Level.none, .read, .write].map Level.name))]

/-- A step of a job. -/
def step : Schema :=
  .record []
    [("name", anyText), ("id", anyText), ("if", anyText), ("uses", anyText), ("run", anyText),
      ("with", textTable), ("env", textTable)]

/-- A job that the workflow declares. -/
def job : Schema :=
  .record []
    [("description", anyText), ("needs", oneOrMany), ("if", anyText), ("runs-on", anyText),
      ("permissions", permissions), ("timeout-minutes", .integer 1), ("env", textTable),
      ("outputs", textTable), ("steps", .list step)]

/-- The issue or pull request that an output acts on. -/
def target : Schema := .oneOf [.integer 1, someText]

/-- The switch of an output type. -/
def outputType : Schema :=
  .oneOf
    [.boolean,
      .record []
        [("max", .integer 0), ("min", .integer 0), ("target", target), ("target-repo", anyText),
          ("allowed", texts), ("github-token", anyText), ("staged", .boolean),
          ("title-prefix", anyText), ("labels", texts), ("category", anyText),
          ("draft", .boolean), ("if-no-changes", anyText), ("allow-empty", .boolean),
          ("commit-title-suffix", anyText), ("side", anyText), ("driver", anyText),
          ("base", anyText), ("discussion", .boolean), ("hide-older-comments", .boolean),
          ("close-older-discussions", .boolean)]]

/-- The setting of threat detection. -/
def threatDetection : Schema :=
  .oneOf
    [.boolean,
      .record [] [("enabled", .boolean), ("prompt", anyText), ("steps", .list step)]]

/-- The app that mints tokens. -/
def app : Schema :=
  .record ["app-id", "private-key"]
    [("app-id", anyText), ("private-key", anyText), ("owner", anyText), ("repositories", texts)]

/-- The outputs. -/
def safeOutputs : Schema :=
  .record []
    [("create-issue", outputType), ("create-discussion", outputType),
      ("add-comment", outputType), ("create-pull-request", outputType),
      ("create-pull-request-review-comment", outputType),
      ("create-pr-review-comment", outputType), ("create-code-scanning-alert", outputType),
      ("add-labels", outputType), ("push-to-pull-request-branch", outputType),
      ("create-agent-task", outputType), ("missing-tool", outputType), ("noop", outputType),
      ("threat-detection", threatDetection), ("jobs", .table none job), ("app", app),
      ("github-token", anyText), ("staged", .boolean), ("runs-on", anyText),
      ("env", textTable), ("max-patch-size", .integer 1)]

/-- The agent's GitHub tool. -/
def githubTool : Schema :=
  .record [] [("toolsets", oneOrMany), ("read-only", .boolean)]

/-- A workflow. -/
def workflow : Schema :=
  .record ["name"]
    [("name", someText), ("workflow-id", .text .identifier), ("source", anyText),
      ("tracker-id", .text (.minLength 8)), ("engine", anyText), ("github-token", anyText),
      ("permissions", permissions), ("github-tool", githubTool), ("strict", .boolean),
      ("command", someText),
      ("reaction",
        .word ["+1", "-1", "laugh", "confused", "heart", "hooray", "rocket", "eyes"]),
      ("stop-time", anyText), ("runs-on", someText), ("timeout-minutes", .integer 1),
      ("jobs", .table none job), ("safe-outputs", safeOutputs)]

end AgentGate.Schema
