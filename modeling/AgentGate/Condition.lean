import AgentGate.OutputType

/-!
# Conditions

A job runs when its condition holds. Conditions are trees over opaque texts, so that a further
check can be joined to a condition without looking into its text, and a tree is written out once.

- `Condition.conj`, `Condition.disj`: joining, with one level of nesting opened and a single
  condition left as it is.
- `Condition.text`: the written form. A joined condition inside another one stands in parentheses.
- `Condition.safeOutput`, `Condition.conclusion`: the conditions of the jobs after the agent.
-/

namespace AgentGate

/-- A condition over texts that are not looked into. -/
inductive Condition where
  | raw (text : String)
  | not (inner : Condition)
  | and (items : List Condition)
  | or (items : List Condition)

namespace Condition

/-! ## Joining -/

/-- The conditions that a conjunction joins, and any other condition alone. -/
def conjuncts : Condition → List Condition
  | .and items => items
  | other => [other]

/-- The conditions that a disjunction joins, and any other condition alone. -/
def disjuncts : Condition → List Condition
  | .or items => items
  | other => [other]

/-- All the items hold. -/
def conj (items : List Condition) : Condition :=
  match items.flatMap conjuncts with
  | [single] => single
  | joined => .and joined

/-- One of the items holds. -/
def disj (items : List Condition) : Condition :=
  match items.flatMap disjuncts with
  | [single] => single
  | joined => .or joined

/-- Both conditions hold. -/
def andAlso (first second : Condition) : Condition :=
  conj [first, second]

/-! ## The written form -/

/-- Whether the written form is put in parentheses inside a joined condition. -/
def isJoined : Condition → Bool
  | .and _ | .or _ => true
  | .raw _ | .not _ => false

/-- A text in parentheses. -/
def parenthesized (text : String) : String :=
  "(" ++ text ++ ")"

/-- Whether the condition is a text without a space, which binds as it stands. -/
def isPlain : Condition → Bool
  | .raw text => !text.toList.contains ' '
  | .not _ | .and _ | .or _ => false

mutual

/-- The written form. -/
def text : Condition → String
  | .raw text => text
  | .not inner => "!" ++ if inner.isPlain then inner.text else parenthesized inner.text
  | .and items => " && ".intercalate (operands items)
  | .or items => " || ".intercalate (operands items)

/-- The written forms of joined conditions, in parentheses where they are joined themselves. -/
def operands : List Condition → List String
  | [] => []
  | item :: rest =>
    (if item.isJoined then parenthesized item.text else item.text) :: operands rest

end

/-! ## The conditions of generated jobs -/

/-- The agent ran. -/
def agentNotSkipped : Condition :=
  .raw "needs.agent.result != 'skipped'"

/-- The agent asked for an output of this name. -/
def outputNamePresent (name : String) : Condition :=
  .raw ("contains(needs.agent.outputs.output_types, '" ++ name ++ "')")

/-- The agent asked for an output of this type. -/
def outputTypePresent (type : OutputType) : Condition :=
  outputNamePresent type.name

/-- The run goes on and the agent ran. -/
def afterAgent : Condition :=
  conj [.raw "!cancelled()", agentNotSkipped]

/-- The job for an output type runs after the agent, if the agent asked for the type. With a
minimum above zero it runs in any case, so that it can enforce the minimum. -/
def safeOutput (type : OutputType) (min : Nat) : Condition :=
  if 0 < min then afterAgent else afterAgent.andAlso (outputTypePresent type)

/-- Threat detection found nothing. -/
def detectionSucceeded : Condition :=
  .raw "needs.detection.outputs.success == 'true'"

/-- The triggering event is about an issue or a pull request. -/
def triggeredByIssueOrPullRequest : Condition :=
  disj [.raw "github.event.issue.number", .raw "github.event.pull_request.number"]

/-- The triggering event is about a pull request, or a comment on one. -/
def triggeredByPullRequest : Condition :=
  disj [.raw "github.event.pull_request.number", .raw "github.event.issue.pull_request"]

/-- The concluding job runs after the agent unless a job that reports for itself was asked for. -/
def conclusion (reportingThemselves : List OutputType) : Condition :=
  conj <| .raw "always()" :: agentNotSkipped ::
    reportingThemselves.map fun type => .not (outputTypePresent type)

end Condition

end AgentGate
