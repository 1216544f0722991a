import AgentGate.Decimal.Shortest
import AgentGate.Table

/-!
# JSON values

A JSON value keeps the members of an object in the order in which they were written or read, since
some documents have an order of their own. `Json.sorted` gives the order of keys instead.
-/

namespace AgentGate

/-- A JSON value. Numbers written without point and exponent are integers. -/
inductive Json where
  | null
  | bool (value : Bool)
  | int (value : Int)
  | float (value : Binary64)
  | text (value : String)
  | array (items : List Json)
  | object (members : List (String × Json))
  deriving Inhabited

namespace Json

/-- The object with the entries of a table. -/
def ofTable (t : Table Json) : Json :=
  .object t.entries

/-- The object of a table of texts. -/
def ofTexts (t : Table String) : Json :=
  .object (t.entries.map fun entry => (entry.1, .text entry.2))

/-- The array of some texts. -/
def texts (items : List String) : Json :=
  .array (items.map .text)

/-- A text, or null when there is none. -/
def optionalText (value : Option String) : Json :=
  (value.map Json.text).getD .null

/-- The member of an object. -/
def member? (key : String) : Json → Option Json
  | .object members => (members.find? fun entry => entry.1 = key).map Prod.snd
  | _ => none

mutual

/-- The value with the members of every object in the order of their keys, the last of equal keys
counting. -/
def sorted : Json → Json
  | .array items => .array (sortedItems items)
  | .object members => ofTable (Table.ofList (sortedMembers members))
  | other => other

/-- `sorted` on the items of an array. -/
def sortedItems : List Json → List Json
  | [] => []
  | item :: rest => item.sorted :: sortedItems rest

/-- `sorted` on the values of an object. -/
def sortedMembers : List (String × Json) → List (String × Json)
  | [] => []
  | (key, value) :: rest => (key, value.sorted) :: sortedMembers rest

end

end Json

end AgentGate
