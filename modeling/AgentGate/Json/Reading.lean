import AgentGate.Json.Basic
import AgentGate.Text.Shown

/-!
# Reading values of a type

A reading turns a JSON value into a value of some type, or says why the value does not fit. The
members of an object are read in the order in which they stand, and the first that does not fit
decides.

- `Misfit`: the reasons, with their texts in `Misfit.message`.
- `Json.record`: a record from an object, member by member, or from an array, field by field.
- `Json.choice`: the first of several readings that fits.
-/

namespace AgentGate

/-- Why a JSON value does not fit a type. -/
inductive Misfit where
  /-- A value of one kind stands where another is expected. -/
  | wrongType (found : Json) (expected : String)
  /-- A value of the right kind is out of bounds. -/
  | wrongValue (found : Json) (expected : String)
  /-- An array has more items than a record has fields. -/
  | tooLong (count : Nat)
  | unknownField (key : String) (known : List String)
  | unknownVariant (text : String) (known : List String)
  | duplicateField (field : String)
  | missingField (field : String)
  /-- None of several readings fits; `choice` names what they are readings of. -/
  | noVariant (choice : String)
  | permissionsWord (text : String)
  | target (text : String)

namespace Misfit

/-- A value as a misfit names it: its kind, and the value itself if it is a simple one. -/
def describe : Json → String
  | .null => "null"
  | .bool true => "boolean `true`"
  | .bool false => "boolean `false`"
  | .int value => "integer `" ++ toString value ++ "`"
  | .float value => "floating point `" ++ Shortest.text value ++ "`"
  | .text value => "string " ++ Text.shown value
  | .array _ => "sequence"
  | .object _ => "map"

/-- A name between backticks. -/
def ticked (name : String) : String :=
  "`" ++ name ++ "`"

/-- The known names as a misfit lists them. -/
def expectedNames : List String → String
  | [one] => "expected " ++ ticked one
  | [one, other] => "expected " ++ ticked one ++ " or " ++ ticked other
  | names => "expected one of " ++ ", ".intercalate (names.map ticked)

/-- The text of a misfit. -/
def message : Misfit → String
  | wrongType found expected => "invalid type: " ++ describe found ++ ", expected " ++ expected
  | wrongValue found expected => "invalid value: " ++ describe found ++ ", expected " ++ expected
  | tooLong count =>
    "invalid length " ++ toString count ++ ", expected fewer elements in array"
  | unknownField key [] => "unknown field " ++ ticked key ++ ", there are no fields"
  | unknownField key known => "unknown field " ++ ticked key ++ ", " ++ expectedNames known
  | unknownVariant text [] => "unknown variant " ++ ticked text ++ ", there are no variants"
  | unknownVariant text known => "unknown variant " ++ ticked text ++ ", " ++ expectedNames known
  | duplicateField field => "duplicate field " ++ ticked field
  | missingField field => "missing field " ++ ticked field
  | noVariant choice => "data did not match any variant of untagged enum " ++ choice
  | permissionsWord text =>
    "invalid permissions shorthand '" ++ text ++ "' (expected read-all or write-all)"
  | target text =>
    "invalid target '" ++ text ++ "' (expected 'triggering', '*', or a number)"

end Misfit

namespace Json

/-- A way to read values of a type. -/
abbrev Reading (α : Type) := Json → Except Misfit α

variable {α β : Type}

/-! ## Simple values -/

/-- A truth value. -/
def readBool : Reading Bool
  | .bool value => .ok value
  | other => .error (.wrongType other "a boolean")

/-- A text. -/
def readText : Reading String
  | .text value => .ok value
  | other => .error (.wrongType other "a string")

/-- A natural number of at most so many bits, under the name of its type. -/
def readNat (bits : Nat) (expected : String) : Reading Nat
  | .int value =>
    if 0 ≤ value ∧ value < Int.pow 2 bits then .ok value.toNat
    else .error (.wrongValue (.int value) expected)
  | other => .error (.wrongType other expected)

/-- A natural number of at most 32 bits. -/
def readNat32 : Reading Nat :=
  readNat 32 "u32"

/-- A natural number of at most 64 bits. -/
def readNat64 : Reading Nat :=
  readNat 64 "u64"

/-! ## Composed values -/

/-- A value, or null in its place. -/
def optional (read : Reading α) : Reading (Option α)
  | .null => .ok none
  | value => (read value).map some

/-- A list, from an array. -/
def list (read : Reading α) : Reading (List α)
  | .array items => items.mapM read
  | other => .error (.wrongType other "a sequence")

/-- A table, from an object. -/
def table (read : Reading α) : Reading (Table α)
  | .object members => do
    return Table.ofList (← members.mapM fun entry => do return (entry.1, ← read entry.2))
  | other => .error (.wrongType other "a map")

/-- The first of two readings that fits. -/
def choice (name : String) (first second : Reading α) : Reading α := fun value =>
  match first value with
  | .ok result => .ok result
  | .error _ =>
    match second value with
    | .ok result => .ok result
    | .error _ => .error (.noVariant name)

/-! ## Records -/

/-- The keys of a record. -/
structure Shape where
  /-- What a value that is neither object nor array is reported not to be. -/
  label : String
  /-- The fields in order, each under its own key. -/
  fields : List String
  /-- Further keys for some fields. -/
  aliases : List (String × String) := []
  /-- Whether keys of no field are passed over. -/
  lenient : Bool := false

namespace Shape

/-- The field that a key stands for. -/
def field? (shape : Shape) (key : String) : Option String :=
  if shape.fields.contains key then some key
  else (shape.aliases.find? fun entry => entry.1 = key).map Prod.snd

/-- All keys of a field, ascending. -/
def keysOf (shape : Shape) (field : String) : List String :=
  Table.distinct <|
    field :: (shape.aliases.filter fun entry => entry.2 = field).map Prod.fst

/-- All keys, field by field. -/
def keys (shape : Shape) : List String :=
  shape.fields.flatMap shape.keysOf

end Shape

/-- A record under construction, with the fields that it has been given. -/
structure Draft (α : Type) where
  given : List String
  value : α

/-- Give a record the field that a member stands for. -/
def Draft.member (shape : Shape) (setField : α → String → Json → Except Misfit α)
    (draft : Draft α) (entry : String × Json) : Except Misfit (Draft α) :=
  match shape.field? entry.1 with
  | none => if shape.lenient then .ok draft else .error (.unknownField entry.1 shape.keys)
  | some field =>
    if draft.given.contains field then .error (.duplicateField field)
    else do
      let value ← setField draft.value field entry.2
      return { given := field :: draft.given, value }

/-- A record from an object, or from an array that gives the first fields in order. Fields that are
not given keep their value in `start`. -/
def record (shape : Shape) (start : α) (setField : α → String → Json → Except Misfit α) :
    Reading α
  | .object members => do
    let draft ← members.foldlM (Draft.member shape setField) { given := [], value := start }
    return draft.value
  | .array items => do
    let value ← (shape.fields.zip items).foldlM
      (fun value entry => setField value entry.1 entry.2) start
    if shape.fields.length < items.length then .error (.tooLong items.length) else return value
  | other => .error (.wrongType other shape.label)

end Json

end AgentGate
