import AgentGate.Toml.Token

/-!
# Writing TOML texts

A text is written in the plainest quotes in which no character has to be escaped: double quotes on
one line, single quotes on one line, then three of either kind. Where nothing else is left, its
characters are escaped between double quotes.

- `Quotes.choose`: the quotes for a text.
- `quoted`: a text in its quotes.
-/

namespace AgentGate.Toml

/-- How a written text is enclosed. -/
inductive Quotes where
  | double | single | tripleDouble | tripleSingle
  deriving DecidableEq, Repr

/-- The longest run of a character. -/
def longestRun (c : Char) (chars : List Char) : Nat :=
  (chars.foldl
    (fun (longest, run) other =>
      let run := if other = c then run + 1 else 0
      (max longest run, run))
    (0, 0)).1

/-- Characters that are written as escapes in any quotes that know escapes, and in no others. -/
def needsEscape (c : Char) : Bool :=
  Scan.isControl c && c != '\n'

namespace Quotes

/-- Whether a text can be written in some quotes without an escape. -/
def suit (quotes : Quotes) (chars : List Char) : Bool :=
  !chars.any needsEscape &&
    match quotes with
    | double => !chars.any fun c => c = '"' || c = '\\' || c = '\n'
    | single => !chars.any fun c => c = '\'' || c = '\n'
    | tripleDouble => !chars.contains '\\' && longestRun '"' chars ≤ 2
    | tripleSingle => longestRun '\'' chars ≤ 2

/-- The quotes for a text. -/
def choose (chars : List Char) : Quotes :=
  match [double, single, tripleDouble, tripleSingle].find? fun quotes => quotes.suit chars with
  | some quotes => quotes
  | none => if chars.contains '\n' then tripleDouble else double

/-- The quote characters on each side. -/
def mark : Quotes → List Char
  | double => ['"']
  | single => ['\'']
  | tripleDouble => ['"', '"', '"']
  | tripleSingle => ['\'', '\'', '\'']

/-- Whether a text may take several lines. -/
def isMultiline : Quotes → Bool
  | double | single => false
  | tripleDouble | tripleSingle => true

/-- Whether characters are escaped. -/
def hasEscapes : Quotes → Bool
  | double | tripleDouble => true
  | single | tripleSingle => false

end Quotes

/-- The written form of a character that is not a double quote, between double quotes. -/
def escape (multiline : Bool) (c : Char) : List Char :=
  match c with
  | '\\' => ['\\', '\\']
  | '\t' => ['\\', 't']
  | '\r' => ['\\', 'r']
  | '\n' => if multiline then ['\n'] else ['\\', 'n']
  | c =>
    if c.toNat = 0x08 then ['\\', 'b']
    else if c.toNat = 0x0C then ['\\', 'f']
    else if needsEscape c then
      let digit (n : Nat) : Char := (Nat.digitChar n).toUpper
      ['\\', 'u', '0', '0', digit (c.toNat / 16), digit (c.toNat % 16)]
    else [c]

/-- The characters of a text between double quotes, in which at most `maxRun` of them may stand in a
row without an escape; `run` of them have just been written. -/
def escaped (multiline : Bool) (maxRun : Nat) : Nat → List Char → List Char
  | _, [] => []
  | run, c :: rest =>
    if c = '"' then
      if run < maxRun then '"' :: escaped multiline maxRun (run + 1) rest
      else '\\' :: '"' :: escaped multiline maxRun 0 rest
    else escape multiline c ++ escaped multiline maxRun 0 rest

/-- A text in its quotes. A text of several lines starts on a line of its own. -/
def quoted (text : String) : String :=
  let chars := text.toList
  let quotes := Quotes.choose chars
  let multiline := quotes.isMultiline
  let start := if multiline && chars.contains '\n' then ['\n'] else []
  let body :=
    if quotes.hasEscapes then escaped multiline (if multiline then 2 else 0) 0 chars else chars
  String.ofList (quotes.mark ++ start ++ body ++ quotes.mark)

end AgentGate.Toml
