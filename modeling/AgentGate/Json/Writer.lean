import AgentGate.Json.Basic

/-!
# Writing JSON

Values are written on one line without spaces, or over several lines with an indent of two spaces.
In a text the quote, the backslash and the characters below U+0020 are escaped, and nothing else.

- `Json.quoted`: the written form of a text.
- `Json.compact`: a value on one line.
- `Json.pretty`: a value over several lines; empty arrays and objects stay on one.
-/

namespace AgentGate.Json

/-- The written form of one character of a text. -/
def escape (c : Char) : List Char :=
  match c with
  | '"' => ['\\', '"']
  | '\\' => ['\\', '\\']
  | '\n' => ['\\', 'n']
  | '\r' => ['\\', 'r']
  | '\t' => ['\\', 't']
  | c =>
    if c.toNat = 0x08 then ['\\', 'b']
    else if c.toNat = 0x0C then ['\\', 'f']
    else if c.toNat < 0x20 then
      ['\\', 'u', '0', '0', Nat.digitChar (c.toNat / 16), Nat.digitChar (c.toNat % 16)]
    else [c]

/-- The written form of a text. -/
def quoted (s : String) : List Char :=
  '"' :: s.toList.flatMap escape ++ ['"']

/-- The written form of a value without items or members. -/
def scalar : Json → List Char
  | .null => "null".toList
  | .bool true => "true".toList
  | .bool false => "false".toList
  | .int value => (toString value).toList
  | .float value => (Shortest.text value).toList
  | .text value => quoted value
  | .array _ => "[]".toList
  | .object _ => "\x7b\x7d".toList

/-! ## On one line -/

mutual

/-- The characters of a value on one line. -/
def compactChars : Json → List Char
  | .array items => '[' :: [','].intercalate (compactItems items) ++ [']']
  | .object members => '\x7b' :: [','].intercalate (compactMembers members) ++ ['\x7d']
  | other => scalar other

/-- The characters of each item. -/
def compactItems : List Json → List (List Char)
  | [] => []
  | item :: rest => compactChars item :: compactItems rest

/-- The characters of each member. -/
def compactMembers : List (String × Json) → List (List Char)
  | [] => []
  | (key, value) :: rest => (quoted key ++ ':' :: compactChars value) :: compactMembers rest

end

/-- A value on one line. -/
def compact (value : Json) : String :=
  String.ofList (compactChars value)

/-! ## Over several lines -/

/-- A new line at a depth of nesting. -/
def newline (depth : Nat) : List Char :=
  '\n' :: List.replicate (2 * depth) ' '

/-- Items between brackets, each on a line of its own. -/
def block (opening closing : Char) (depth : Nat) (items : List (List Char)) : List Char :=
  match items with
  | [] => [opening, closing]
  | items =>
    opening :: newline (depth + 1) ++ (',' :: newline (depth + 1)).intercalate items
      ++ newline depth ++ [closing]

mutual

/-- The characters of a value that starts at a depth of nesting. -/
def prettyChars (depth : Nat) : Json → List Char
  | .array items => block '[' ']' depth (prettyItems (depth + 1) items)
  | .object members => block '\x7b' '\x7d' depth (prettyMembers (depth + 1) members)
  | other => scalar other

/-- The characters of each item. -/
def prettyItems (depth : Nat) : List Json → List (List Char)
  | [] => []
  | item :: rest => prettyChars depth item :: prettyItems depth rest

/-- The characters of each member. -/
def prettyMembers (depth : Nat) : List (String × Json) → List (List Char)
  | [] => []
  | (key, value) :: rest =>
    (quoted key ++ ':' :: ' ' :: prettyChars depth value) :: prettyMembers depth rest

end

/-- A value over several lines. -/
def pretty (value : Json) : String :=
  String.ofList (prettyChars 0 value)

end AgentGate.Json
