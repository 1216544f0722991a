import AgentGate.CompileError
import AgentGate.Json.Reading

/-!
# Messages of the agent

The agent asks for an output by a message: an object with the type of the output, a temporary
identifier under which other messages may refer to the item, and whatever the type needs.

- `Message.ofJson`, `Message.toJson`: reading and writing.
- `Message.outputType`: the type, whose name may be written with hyphens.
-/

namespace AgentGate

/-- What the agent asks for. -/
structure Message where
  /-- The type as it is written. -/
  kind : String
  temporaryId : Option String := none
  /-- All other members. -/
  fields : Table Json := ∅

namespace Message

open Json

/-- A message under construction. -/
structure Draft where
  kind : Option String := none
  temporaryId : Option (Option String) := none
  fields : Table Json := ∅

/-- Give a message one member. -/
def Draft.member (draft : Draft) (entry : String × Json) : Except Misfit Draft :=
  match entry.1 with
  | "type" =>
    if draft.kind.isSome then .error (.duplicateField "type")
    else (readText entry.2).map fun kind => { draft with kind := some kind }
  | "temporary_id" =>
    if draft.temporaryId.isSome then .error (.duplicateField "temporary_id")
    else (optional readText entry.2).map fun id => { draft with temporaryId := some id }
  | key => .ok { draft with fields := draft.fields.insert key entry.2 }

/-- A message from an object. -/
def ofJson : Reading Message
  | .object members => do
    let draft ← members.foldlM Draft.member {}
    match draft.kind with
    | none => .error (.missingField "type")
    | some kind =>
      return { kind, temporaryId := draft.temporaryId.getD none, fields := draft.fields }
  | other => .error (.wrongType other "struct OutputMessage")

/-- A message as an object, with its own two members first. -/
def toJson (message : Message) : Json :=
  .object <|
    ("type", .text message.kind)
      :: message.temporaryId.toList.map (fun id => ("temporary_id", .text id))
      ++ message.fields.entries

/-- A text with underscores in place of hyphens. -/
def underscored (text : String) : String :=
  String.ofList (text.toList.map fun c => if c = '-' then '_' else c)

/-- The type that a message asks for. -/
def outputType (message : Message) : Except CompileError OutputType :=
  match OutputType.ofName? (underscored message.kind) with
  | some type => .ok type
  | none => .error (.unknownJobType message.kind)

end Message

end AgentGate
