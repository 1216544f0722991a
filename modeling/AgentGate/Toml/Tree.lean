import AgentGate.Json.Basic
import AgentGate.Toml.Statement

/-!
# The tree of a TOML document

The statements of a document build a tree of tables. A key is given once, and a table is opened
once: by its header, by dotted keys, or in braces. Only a table that so far was a step on the way to
others may still be opened by its header.

- `Members.define`: give a key its value.
- `Members.addSection`: a table with its header.
- `Members.ofText?`: the tree of a document.
- `Node.toJson?`: the tree as JSON.
-/

namespace AgentGate.Toml

/-- How a table was opened. -/
inductive Origin where
  /-- By its own header, or as the table around the document. -/
  | header
  /-- As a step on the way to the table of a header. -/
  | step
  /-- As a step on the way to a dotted key. -/
  | dotted
  /-- In braces. -/
  | inline
  deriving DecidableEq, Repr

/-- A value of the tree. Keys of a table stand in the order of their first mention. -/
inductive Node where
  | scalar (value : Scalar)
  /-- An array in brackets. -/
  | array (items : List Node)
  /-- An array of tables with headers, the last one first. -/
  | tables (items : List (List (String × Node)))
  | table (origin : Origin) (members : List (String × Node))
  deriving Inhabited

/-- The members of a table. -/
abbrev Members := List (String × Node)

namespace Members

/-- The members with the value of one key exchanged or added. -/
def put (members : Members) (key : String) (node : Node) : Members :=
  if (Table.find key members).isSome then
    members.map fun member => if member.1 = key then (key, node) else member
  else members ++ [(key, node)]

/-- Change the table at the end of some keys. Tables that are not there are opened as steps, of an
array of tables the last one counts, and nothing is changed within braces; for a dotted key neither
in a table that has a header. -/
def descend (dotted : Bool) (change : Origin → Members → Option Members) :
    List String → Origin → Members → Option Members
  | [], origin, members => change origin members
  | key :: rest, _, members =>
    match Table.find key members with
    | none => do
      let origin := if dotted then Origin.dotted else .step
      let inner ← descend dotted change rest origin []
      return members.put key (.table origin inner)
    | some (.table origin inner) =>
      if origin = .inline ∨ (dotted ∧ origin = .header) then none
      else do
        let inner ← descend dotted change rest origin inner
        return members.put key (.table origin inner)
    | some (.tables (last :: earlier)) => do
      let last ← descend dotted change rest .header last
      return members.put key (.tables (last :: earlier))
    | some _ => none

/-- Give a key its value. A dotted key belongs to a table that was opened by dotted keys. -/
def define (members : Members) (path : Path) (node : Node) : Option Members :=
  descend true
    (fun origin members =>
      if ¬ path.parents.isEmpty ∧ origin ≠ .dotted then none
      else if (Table.find path.key members).isSome then none
      else some (members ++ [(path.key, node)]))
    path.parents .header members

end Members

/-! ## Values -/

mutual

/-- The node of a value, unless an inline table in it gives a key twice. -/
def Node.ofValue? : Value → Option Node
  | .scalar value => some (.scalar value)
  | .array items => (Node.ofItems? items).map .array
  | .inline members => (Node.ofMembers? members []).map (.table .inline)

/-- The nodes of the items of an array. -/
def Node.ofItems? : List Value → Option (List Node)
  | [] => some []
  | item :: rest => do return (← Node.ofValue? item) :: (← Node.ofItems? rest)

/-- The members of an inline table, with those that it has so far. -/
def Node.ofMembers? : List (Path × Value) → Members → Option Members
  | [], members => some members
  | (path, value) :: rest, members => do
    Node.ofMembers? rest (← members.define path (← Node.ofValue? value))

end

/-! ## Documents -/

/-- An entry of a table. -/
abbrev Entry := Path × Value

/-- A header with the entries that follow it. -/
structure Section where
  /-- Whether the header adds an item to an array of tables. -/
  isItem : Bool
  path : Path
  entries : List Entry

/-- The entries before the first header, and the sections. -/
def Section.ofStatements : List Statement → List Entry × List Section
  | [] => ([], [])
  | statement :: rest =>
    let (entries, sections) := Section.ofStatements rest
    match statement with
    | .entry path value => ((path, value) :: entries, sections)
    | .table path => ([], ⟨false, path, entries⟩ :: sections)
    | .item path => ([], ⟨true, path, entries⟩ :: sections)

namespace Members

/-- Add entries to a table. -/
def addEntries (members : Members) (entries : List Entry) : Option Members :=
  entries.foldlM
    (fun members entry => do members.define entry.1 (← Node.ofValue? entry.2)) members

/-- Add a section to the tree. -/
def addSection (root : Members) (part : Section) : Option Members :=
  descend false
    (fun _ members =>
      match part.isItem, Table.find part.path.key members with
      | false, none => do
        return members.put part.path.key (.table .header (← addEntries [] part.entries))
      | false, some (.table .step inner) => do
        return members.put part.path.key (.table .header (← addEntries inner part.entries))
      | true, none => do
        return members.put part.path.key (.tables [← addEntries [] part.entries])
      | true, some (.tables items) => do
        return members.put part.path.key (.tables ((← addEntries [] part.entries) :: items))
      | _, _ => none)
    part.path.parents .header root

/-- The tree of a document. -/
def ofText? (text : String) : Option Members := do
  let (entries, sections) := Section.ofStatements (← Statement.ofText? text)
  sections.foldlM addSection (← addEntries [] entries)

end Members

/-! ## As JSON -/

/-- The key of the object that stands for a moment. -/
def momentKey : String := "$__toml_private_datetime"

/-- A scalar as JSON. An integer has to be among those that fit; what is not a finite number is
null. -/
def Scalar.toJson? (fits : Int → Bool) : Scalar → Option Json
  | .text value => some (.text value)
  | .bool value => some (.bool value)
  | .integer value => if fits value then some (.int value) else none
  | .float value => some (.float value)
  | .notFinite => some .null
  | .moment written => some (.object [(momentKey, .text written)])

mutual

/-- A tree as JSON. -/
def Node.toJson? (fits : Int → Bool) : Node → Option Json
  | .scalar value => value.toJson? fits
  | .array items => (Node.itemsToJson? fits items).map .array
  | .tables items => (Node.tablesToJson? fits items).map fun items => .array items.reverse
  | .table _ members => (Node.membersToJson? fits members).map .object

/-- The items of an array as JSON. -/
def Node.itemsToJson? (fits : Int → Bool) : List Node → Option (List Json)
  | [] => some []
  | item :: rest => do return (← item.toJson? fits) :: (← Node.itemsToJson? fits rest)

/-- The tables of an array as JSON. -/
def Node.tablesToJson? (fits : Int → Bool) : List (List (String × Node)) → Option (List Json)
  | [] => some []
  | members :: rest => do
    return .object (← Node.membersToJson? fits members) :: (← Node.tablesToJson? fits rest)

/-- The members of a table as JSON. -/
def Node.membersToJson? (fits : Int → Bool) :
    List (String × Node) → Option (List (String × Json))
  | [] => some []
  | (key, node) :: rest => do
    return (key, ← node.toJson? fits) :: (← Node.membersToJson? fits rest)

end

/-- The JSON of a document, its members in the order of their keys. -/
def jsonOfText? (fits : Int → Bool) (text : String) : Option Json := do
  let members ← Members.ofText? text
  return (Json.object (← Node.membersToJson? fits members)).sorted

end AgentGate.Toml
