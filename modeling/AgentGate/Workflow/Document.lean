import AgentGate.Failure
import AgentGate.Schema.Workflow
import AgentGate.Toml.Tree
import AgentGate.Workflow.Reading

/-!
# Workflow documents

A workflow is written in TOML. The document is checked against the schema as a whole before the
workflow is read from it.

- `Workflow.ofDocument`: the workflow of a document.
-/

namespace AgentGate.Workflow

/-- Integers in a workflow have at most 64 bits. -/
def fitsInteger (value : Int) : Bool :=
  -Int.pow 2 63 ≤ value && value < Int.pow 2 63

/-- The workflow of a JSON value that satisfies the schema. -/
def ofValidJson (value : Json) : Except Failure Workflow :=
  match Schema.workflow.report value with
  | [] => (Workflow.ofJson value).mapError fun misfit => ⟨["deserialize workflow"], .misfit misfit⟩
  | messages => .error (.ofCause (.schema messages))

/-- The workflow of a document. -/
def ofDocument (text : String) : Except Failure Workflow :=
  match Toml.jsonOfText? fitsInteger text with
  | some value => ofValidJson value
  | none => .error ⟨["parse workflow toml"], .document⟩

end AgentGate.Workflow
