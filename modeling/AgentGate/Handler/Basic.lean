import AgentGate.CompileError
import AgentGate.Condition
import AgentGate.Embedded
import AgentGate.Workflow.Basic

/-!
# Handlers

A handler carries out one output type. What it needs and gives is fixed by the type: the outputs of
its job, the permissions of its side effect, the event that it acts on. A registry lists the types
that have a handler, each once, in the order in which their jobs are made.

- `OutputType.outputs`, `OutputType.permissions`: what the job of a type gives and is granted.
- `Registry.register`: add a type, once.
- `HandlerContext`: what a handler may ask about the other types.
-/

namespace AgentGate

namespace OutputType

/-- The output with the map from temporary identifiers to real ones. -/
def temporaryIdOutput : String := "temporary_id_map"

/-- The outputs of a type's job, each read from the step's output of the same name. -/
def outputs : OutputType → List String
  | createIssue => ["issue_number", "issue_url", temporaryIdOutput]
  | createDiscussion => ["discussion_number", "discussion_url"]
  | addComment => ["comment_id", "comment_url"]
  | createPullRequest => ["branch_name", "pull_request_number", "pull_request_url"]
  | createPrReviewComment => ["review_comment_id", "review_comment_url"]
  | createCodeScanningAlert => ["findings_count", "sarif_file"]
  | addLabels => ["labels_added"]
  | pushToPullRequestBranch => ["branch_name", "commit_sha", "push_url"]
  | createAgentTask => ["task_number", "task_url"]
  | missingTool => ["tools_reported", "total_count"]
  | noop => ["noop_message"]

/-- The least permissions with which the side effect of a type succeeds. -/
def permissions (type : OutputType) : Permissions :=
  Permissions.ofList <|
    match type with
    | createIssue => [(.contents, .read), (.issues, .write)]
    | createDiscussion => [(.contents, .read), (.discussions, .write)]
    | addComment =>
      [(.contents, .read), (.discussions, .write), (.issues, .write), (.pullRequests, .write)]
    | createPullRequest => [(.contents, .write), (.issues, .write), (.pullRequests, .write)]
    | createPrReviewComment => [(.contents, .read), (.pullRequests, .write)]
    | createCodeScanningAlert => [(.contents, .read), (.securityEvents, .write)]
    | addLabels => [(.contents, .read), (.issues, .write), (.pullRequests, .write)]
    | pushToPullRequestBranch => [(.contents, .write), (.issues, .read), (.pullRequests, .read)]
    | createAgentTask => [(.contents, .read), (.issues, .write), (.pullRequests, .write)]
    | missingTool | noop => [(.contents, .read)]

/-- Whether the job of a type gives the map from temporary identifiers to real ones. -/
def providesTemporaryIds (type : OutputType) : Bool :=
  type = createIssue

/-- Whether the job of a type resolves temporary identifiers. -/
def requiresTemporaryIds (type : OutputType) : Bool :=
  type = createDiscussion || type = addComment

/-- Whether the job of a type changes the code of the repository. -/
def pushesCode (type : OutputType) : Bool :=
  type = createPullRequest || type = pushToPullRequestBranch

/-- Whether the job of a type tells the triggering item about its outcome itself. -/
def reportsItself (type : OutputType) : Bool :=
  type = addComment || type = createPullRequest || type = pushToPullRequestBranch

/-- The check that the triggering event carries the item that a type acts on. -/
def trigger? : OutputType → Option Condition
  | addComment | addLabels => some .triggeredByIssueOrPullRequest
  | pushToPullRequestBranch | createPrReviewComment => some .triggeredByPullRequest
  | _ => none

end OutputType

/-! ## Registries -/

/-- The types with a handler, in the order in which their jobs are made. -/
structure Registry where
  types : List OutputType
  distinct : types.Nodup
  deriving DecidableEq

namespace Registry

/-- The registry without handlers. -/
def empty : Registry := ⟨[], .nil⟩

instance : EmptyCollection Registry := ⟨empty⟩

/-- The registry of all types. Issues come first, since others read their temporary identifiers. -/
def default : Registry := ⟨OutputType.all, by decide⟩

instance : Inhabited Registry := ⟨default⟩

/-- Whether a type has a handler. -/
def contains (registry : Registry) (type : OutputType) : Bool :=
  registry.types.contains type

/-- The registry with a handler for a further type. -/
def register (registry : Registry) (type : OutputType) : Except SettingFault Registry :=
  if taken : type ∈ registry.types then .error (.handlerRegistered type)
  else .ok
    { types := registry.types ++ [type]
      distinct := by
        rw [List.nodup_append]
        refine ⟨registry.distinct, by simp, ?_⟩
        rintro other mem _ last rfl
        have eq : other = type := by simpa using last
        exact taken (eq ▸ mem) }

end Registry

/-! ## The context of a handler -/

/-- An output of a job that another job can read. -/
structure OutputRef where
  job : String
  output : String
  deriving DecidableEq, Repr

/-- The embedded expression that reads an output. -/
def OutputRef.expression (ref : OutputRef) : String :=
  Embedded.embed (Embedded.jobOutput ref.job ref.output)

/-- What a handler may ask about the workflow besides its own settings. -/
structure HandlerContext where
  outputs : SafeOutputs
  detectionActive : Bool
  /-- Where temporary identifiers are resolved, if a job does that. -/
  temporaryIds : Option OutputRef
  /-- The types whose jobs are made, in the order of `OutputType.all`. -/
  enabled : List OutputType
  deriving Inhabited

namespace HandlerContext

/-- The context in which every type that is turned on counts, and no identifiers are resolved. -/
def ofOutputs (outputs : SafeOutputs) (detectionActive : Bool) : HandlerContext :=
  { outputs, detectionActive, temporaryIds := none, enabled := outputs.enabledTypes }

/-- The context in which only types with a handler count. -/
def ofRegistry (registry : Registry) (outputs : SafeOutputs) (detectionActive : Bool) :
    HandlerContext where
  outputs := outputs
  detectionActive := detectionActive
  temporaryIds :=
    (registry.types.find? fun type => type.providesTemporaryIds && outputs.isEnabled type).map
      fun type => ⟨type.name, OutputType.temporaryIdOutput⟩
  enabled := outputs.enabledTypes.filter registry.contains

end HandlerContext

end AgentGate
