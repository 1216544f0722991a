import AgentGate.Toml.Scalar
import AgentGate.Toml.Token

/-!
# Statements of TOML

A document is a list of statements: headers of tables, headers of items of arrays of tables, and
entries with a key and a value. Tokens are taken one by one by a machine with a stack: the arrays
and inline tables that are open, each with what it holds so far.

- `Path.ofPieces?`: the path that the pieces of a dotted key make up.
- `Parse.step`: what one token does to the machine.
- `Statement.ofText?`: the statements of a document.
-/

namespace AgentGate.Toml

/-- A dotted key: the keys of the tables on the way and the last key. -/
structure Path where
  parents : List String
  key : String
  deriving DecidableEq

/-- A value as it is written. -/
inductive Value where
  | scalar (value : Scalar)
  | array (items : List Value)
  | inline (members : List (Path × Value))
  deriving Inhabited

/-- A line of a document, or several of them when the value takes more than one. -/
inductive Statement where
  /-- The header of a table. -/
  | table (path : Path)
  /-- The header of a further item of an array of tables. -/
  | item (path : Path)
  | entry (path : Path) (value : Value)

/-! ## Keys -/

/-- A piece of a dotted key. -/
inductive Piece where
  | dot
  | name (text : String)
  deriving DecidableEq

namespace Path

/-- The characters of a key without quotes. -/
def isBare (c : Char) : Bool :=
  c.isAlphanum || c = '_' || c = '-'

/-- The pieces of a word: names with dots between them. -/
def piecesOfWord? (word : List Char) : Option (List Piece) :=
  if word.all fun c => isBare c || c = '.' then
    let names := (word.splitOn '.').map fun name =>
      if name.isEmpty then [] else [Piece.name (String.ofList name)]
    some ([Piece.dot].intercalate names)
  else none

/-- The pieces of a token in a key. -/
def piecesOfToken? : Token → Option (List Piece)
  | .word chars => piecesOfWord? chars
  | .text value false => some [.name value]
  | _ => none

/-- The path of some pieces, in which names and dots take turns. -/
def ofPieces? : List Piece → Option Path
  | [.name key] => some ⟨[], key⟩
  | .name parent :: .dot :: rest =>
    (ofPieces? rest).map fun path => { path with parents := parent :: path.parents }
  | _ => none

end Path

/-! ## The machine -/

namespace Parse

/-- An array or inline table that is still open, with its contents in reverse order. -/
inductive Frame where
  | array (done : List Value)
  | inline (done : List (Path × Value)) (path : Path)

/-- How many arrays and inline tables may be open at once. -/
def maxDepth : Nat := 80

/-- What the machine expects next. The `goal` is the path of the entry whose value is read. -/
inductive Mode where
  /-- A statement or an empty line. -/
  | line
  /-- The rest of the key of an entry. -/
  | key (pieces : List Piece)
  /-- The rest of the path in a header. -/
  | header (isItem : Bool) (pieces : List Piece)
  /-- The second closing bracket of a header. -/
  | headerEnd (path : Path)
  /-- The end of the line. -/
  | lineEnd
  /-- A value. -/
  | value (goal : Path) (frames : List Frame)
  /-- An item of an array, or its end. -/
  | item (goal : Path) (done : List Value) (frames : List Frame)
  /-- A comma or the end of an array. -/
  | afterItem (goal : Path) (done : List Value) (frames : List Frame)
  /-- The key of a member of an inline table, or the end of the table. -/
  | member (goal : Path) (done : List (Path × Value)) (pieces : List Piece) (frames : List Frame)
  /-- The sign between the key and the value of a member. -/
  | equals (goal : Path) (done : List (Path × Value)) (path : Path) (frames : List Frame)
  /-- A comma or the end of an inline table. -/
  | afterMember (goal : Path) (done : List (Path × Value)) (frames : List Frame)

end Parse

/-- The statements read so far, last one first, and what is expected next. -/
structure Parse where
  statements : List Statement
  mode : Parse.Mode

namespace Parse

/-- Put a complete value where it belongs. -/
def deliver (statements : List Statement) (goal : Path) (value : Value) : List Frame → Parse
  | [] => ⟨.entry goal value :: statements, .lineEnd⟩
  | .array done :: frames => ⟨statements, .afterItem goal (value :: done) frames⟩
  | .inline done path :: frames => ⟨statements, .afterMember goal ((path, value) :: done) frames⟩

/-- Start a value. -/
def begin? (statements : List Statement) (goal : Path) (frames : List Frame) :
    Token → Option Parse
  | .word chars => do
    return deliver statements goal (.scalar (← Scalar.ofWord? chars)) frames
  | .text value _ => some (deliver statements goal (.scalar (.text value)) frames)
  | .openBracket _ =>
    if frames.length < maxDepth then some ⟨statements, .item goal [] frames⟩ else none
  | .openBrace =>
    if frames.length < maxDepth then some ⟨statements, .member goal [] [] frames⟩ else none
  | _ => none

/-- What one token does. -/
def step (parse : Parse) (token : Token) : Option Parse :=
  let go (mode : Mode) : Option Parse := some ⟨parse.statements, mode⟩
  match parse.mode, token with
  | .line, .lineEnd => go .line
  | .line, .openBracket _ => go (.header false [])
  | .line, token => (Path.piecesOfToken? token).bind fun pieces => go (.key pieces)
  | .key pieces, .equals => (Path.ofPieces? pieces).bind fun path => go (.value path [])
  | .key pieces, token =>
    (Path.piecesOfToken? token).bind fun more => go (.key (pieces ++ more))
  | .header false [], .openBracket true => go (.header true [])
  | .header false pieces, .closeBracket _ =>
    (Path.ofPieces? pieces).map fun path => ⟨.table path :: parse.statements, .lineEnd⟩
  | .header true pieces, .closeBracket _ =>
    (Path.ofPieces? pieces).bind fun path => go (.headerEnd path)
  | .header isItem pieces, token =>
    (Path.piecesOfToken? token).bind fun more => go (.header isItem (pieces ++ more))
  | .headerEnd path, .closeBracket true => some ⟨.item path :: parse.statements, .lineEnd⟩
  | .lineEnd, .lineEnd => go .line
  | .value goal (.inline done path :: frames), .lineEnd =>
    go (.value goal (.inline done path :: frames))
  | .value goal frames, token => begin? parse.statements goal frames token
  | .item goal done frames, .lineEnd => go (.item goal done frames)
  | .item goal done frames, .closeBracket _ =>
    some (deliver parse.statements goal (.array done.reverse) frames)
  | .item goal done frames, token => begin? parse.statements goal (.array done :: frames) token
  | .afterItem goal done frames, .lineEnd => go (.afterItem goal done frames)
  | .afterItem goal done frames, .comma => go (.item goal done frames)
  | .afterItem goal done frames, .closeBracket _ =>
    some (deliver parse.statements goal (.array done.reverse) frames)
  | .member goal done [] frames, .lineEnd => go (.member goal done [] frames)
  | .member goal done [] frames, .closeBrace =>
    some (deliver parse.statements goal (.inline done.reverse) frames)
  | .member goal done pieces frames, .lineEnd =>
    (Path.ofPieces? pieces).bind fun path => go (.equals goal done path frames)
  | .member goal done pieces frames, .equals =>
    (Path.ofPieces? pieces).bind fun path => go (.value goal (.inline done path :: frames))
  | .member goal done pieces frames, token =>
    (Path.piecesOfToken? token).bind fun more => go (.member goal done (pieces ++ more) frames)
  | .equals goal done path frames, .lineEnd => go (.equals goal done path frames)
  | .equals goal done path frames, .equals => go (.value goal (.inline done path :: frames))
  | .afterMember goal done frames, .lineEnd => go (.afterMember goal done frames)
  | .afterMember goal done frames, .comma => go (.member goal done [] frames)
  | .afterMember goal done frames, .closeBrace =>
    some (deliver parse.statements goal (.inline done.reverse) frames)
  | _, _ => none

end Parse

namespace Statement

/-- The statements of some tokens. -/
def ofTokens? (tokens : List Token) : Option (List Statement) :=
  match tokens.foldlM Parse.step ⟨[], .line⟩ with
  | some ⟨statements, .line⟩ => some statements.reverse
  | _ => none

/-- The statements of a document. -/
def ofText? (text : String) : Option (List Statement) :=
  (Token.ofText? text).bind ofTokens?

end Statement

end AgentGate.Toml
