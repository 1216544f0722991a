import AgentGate.Json.Token

/-!
# Reading JSON

Tokens are taken one by one by a machine with a stack: the arrays and objects that are open, each
with what it holds so far. A value that is complete is put into the innermost of them, or is the
result when none is open.

- `Json.Reader.step`: what one token does to the machine.
- `Json.ofText?`: the value of a text, with the members of objects in the order of the text.
-/

namespace AgentGate.Json

namespace Reader

/-- An array or object that is still open, with its contents in reverse order. -/
inductive Frame where
  | array (done : List Json)
  | object (done : List (String × Json)) (key : String)

/-- What the machine expects next. -/
inductive State where
  /-- A value. -/
  | value (frames : List Frame)
  /-- The first item of an array, or its end. -/
  | firstItem (frames : List Frame)
  /-- A comma or the end of an array. -/
  | afterItem (done : List Json) (frames : List Frame)
  /-- The first key of an object, or its end. -/
  | firstKey (frames : List Frame)
  /-- A key. -/
  | key (done : List (String × Json)) (frames : List Frame)
  /-- A colon. -/
  | colon (done : List (String × Json)) (key : String) (frames : List Frame)
  /-- A comma or the end of an object. -/
  | afterMember (done : List (String × Json)) (frames : List Frame)
  /-- Nothing more. -/
  | finished (value : Json)

/-- Put a complete value where it belongs. -/
def deliver (value : Json) : List Frame → State
  | [] => .finished value
  | .array done :: frames => .afterItem (value :: done) frames
  | .object done key :: frames => .afterMember ((key, value) :: done) frames

/-- Start a value. -/
def begin? (frames : List Frame) : Token → Option State
  | .scalar value => some (deliver value frames)
  | .openArray => some (.firstItem frames)
  | .openObject => some (.firstKey frames)
  | _ => none

/-- What one token does. -/
def step : State → Token → Option State
  | .value frames, token => begin? frames token
  | .firstItem frames, .closeArray => some (deliver (.array []) frames)
  | .firstItem frames, token => begin? (.array [] :: frames) token
  | .afterItem done frames, .comma => some (.value (.array done :: frames))
  | .afterItem done frames, .closeArray => some (deliver (.array done.reverse) frames)
  | .firstKey frames, .closeObject => some (deliver (.object []) frames)
  | .firstKey frames, .scalar (.text key) => some (.colon [] key frames)
  | .key done frames, .scalar (.text key) => some (.colon done key frames)
  | .colon done key frames, .colon => some (.value (.object done key :: frames))
  | .afterMember done frames, .comma => some (.key done frames)
  | .afterMember done frames, .closeObject => some (deliver (.object done.reverse) frames)
  | _, _ => none

/-- The value of some tokens. -/
def ofTokens? (tokens : List Token) : Option Json :=
  match tokens.foldlM step (.value []) with
  | some (.finished value) => some value
  | _ => none

end Reader

/-- The value of a text. -/
def ofText? (text : String) : Option Json :=
  (Token.ofChars? text.toList).bind Reader.ofTokens?

end AgentGate.Json
