import AgentGate.Job.Graph
import AgentGate.OutputType
import AgentGate.Permission.Audit

/-!
# Why a workflow is rejected

Compilation ends at the first error. An error is its cause, and its text is made from the cause.

- `SettingFault`: settings that contradict each other or are out of range.
- `ManifestFault`: an environment that a script does not expect.
- `CompileError`: these, a faulty job graph, permissions that do not fit, or an unknown type.
-/

namespace AgentGate

/-- Settings that contradict each other or are out of range. -/
inductive SettingFault where
  | emptyWorkflowName
  | reservedJobName (name : String)
  | jobWithoutSteps (name : String)
  | handlerRegistered (type : OutputType)
  | anyTargetRepo (type : OutputType)
  | targetRepoWithTriggering (type : OutputType)
  | zeroMax (type : OutputType)
  | minAboveMax (min max : Nat) (type : OutputType)
  | unknownNoChangesMode (mode : String)
  | unknownSide (side : String)
  deriving DecidableEq, Repr

/-- The text of a faulty setting. -/
def SettingFault.message : SettingFault → String
  | emptyWorkflowName => "workflow name cannot be empty"
  | reservedJobName name => "job name '" ++ name ++ "' is reserved"
  | jobWithoutSteps name => "job '" ++ name ++ "' has no steps"
  | handlerRegistered type => "handler for '" ++ type.name ++ "' is already registered"
  | anyTargetRepo type => "target-repo '*' is not allowed for " ++ type.name
  | targetRepoWithTriggering type =>
    "target-repo cannot be combined with target 'triggering' for " ++ type.name
  | zeroMax type => "max must be greater than 0 for " ++ type.name
  | minAboveMax min max type =>
    "min (" ++ toString min ++ ") cannot exceed max (" ++ toString max ++ ") for " ++ type.name
  | unknownNoChangesMode mode =>
    "if-no-changes must be 'warn', 'error', or 'ignore' (got '" ++ mode
      ++ "') for create_pull_request"
  | unknownSide side =>
    "side must be 'LEFT' or 'RIGHT' (got '" ++ side ++ "') for create_pr_review_comment"

/-- An environment that the script of a job does not expect. -/
inductive ManifestFault where
  | undeclared (name : String)
  | missing (names : List String)
  deriving DecidableEq, Repr

/-- The text of a faulty environment. -/
def ManifestFault.message : ManifestFault → String
  | undeclared name => "env var '" ++ name ++ "' is not declared in the manifest"
  | missing names => "missing required env vars: " ++ ", ".intercalate names

/-- Why a workflow is rejected. -/
inductive CompileError where
  | configuration (fault : SettingFault)
  | manifest (type : OutputType) (fault : ManifestFault)
  | graph (fault : GraphFault)
  | permission (audit : Audit) (strict : Bool)
  | unknownJobType (text : String)

/-- A coarse classification of errors. -/
inductive ErrorKind where
  | configuration | manifest | graph | permission | unknownJobType
  deriving DecidableEq, Repr

/-- The words for a kind of error. -/
def ErrorKind.label : ErrorKind → String
  | configuration => "configuration error"
  | manifest => "manifest violation"
  | graph => "graph integrity error"
  | permission => "permission error"
  | unknownJobType => "unknown job type"

namespace CompileError

/-- The kind of an error. -/
def kind : CompileError → ErrorKind
  | configuration _ => .configuration
  | manifest _ _ => .manifest
  | graph _ => .graph
  | permission _ _ => .permission
  | unknownJobType _ => .unknownJobType

/-- The text of an error. -/
def message : CompileError → String
  | configuration fault => "configuration error: " ++ fault.message
  | manifest type fault => "manifest violation in '" ++ type.name ++ "': " ++ fault.message
  | graph fault => "job graph integrity error: " ++ fault.message
  | permission audit strict => audit.message strict
  | unknownJobType text => "unknown safe output job type: " ++ text

end CompileError

end AgentGate
