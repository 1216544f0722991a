import AgentGate.Text.Digits

/-!
# The tokens of TOML

A document is cut into marks, quoted texts, words and line ends, character by character. A word is a
run of characters that are neither blank nor marks nor quotes; what it stands for depends on its
place, so that the dots of a key and of a number are kept in it. A date and a time with a space
between them are one word. Blanks and comments are dropped.

- `Scan.step`: what one character does to the scanner.
- `Token.ofText?`: the tokens of a document, with a line end behind the last line.
-/

namespace AgentGate.Toml

/-- A piece of a document. -/
inductive Token where
  | word (chars : List Char)
  | text (value : String) (multiline : Bool)
  | equals
  | comma
  /-- An opening bracket; `glued` when it directly follows another one. -/
  | openBracket (glued : Bool)
  /-- A closing bracket; `glued` when it directly follows another one. -/
  | closeBracket (glued : Bool)
  | openBrace
  | closeBrace
  | lineEnd
  deriving DecidableEq

namespace Scan

/-- How a text is quoted. -/
structure Quoting where
  quote : Char
  multiline : Bool

/-- What the scanner is in the middle of. Characters that are kept stand in reverse order. -/
inductive Mode where
  /-- Outside of quotes and comments, within a word unless `word` is empty. -/
  | plain (word : List Char) (previous : Option Char)
  /-- Behind a date and a space, where a time may follow. -/
  | dated (word : List Char)
  | comment
  /-- Behind one or two quotes that may open a text. -/
  | opening (quote : Char) (count : Nat)
  /-- At the start of a text of several lines, where a line end does not count. -/
  | first (quote : Char)
  | body (quoting : Quoting) (chars : List Char)
  /-- Behind quotes that may close a text of several lines. -/
  | closing (quote : Char) (chars : List Char) (count : Nat)
  | escape (quoting : Quoting) (chars : List Char)
  /-- Within an escape that gives a code point. -/
  | code (quoting : Quoting) (chars : List Char) (missing value : Nat)
  /-- Behind a backslash at the end of a line, up to the next character that is not blank. -/
  | joining (quoting : Quoting) (chars : List Char) (pastLine : Bool)

end Scan

/-- What the scanner has found and what it is in the middle of. -/
structure Scan where
  /-- The tokens found, last one first. -/
  found : List Token
  mode : Scan.Mode

namespace Scan

/-- Characters that no comment and no text holds. -/
def isControl (c : Char) : Bool :=
  (c.toNat < 0x20 && c != '\t') || c.toNat == 0x7F

/-- Blanks within a line. The first half of a line end is one of them. -/
def isGap (c : Char) : Bool :=
  c == ' ' || c == '\t' || c == '\r'

/-- The token of a mark. -/
def mark? (previous : Option Char) (c : Char) : Option Token :=
  match c with
  | '=' => some .equals
  | ',' => some .comma
  | '[' => some (.openBracket (previous = some '['))
  | ']' => some (.closeBracket (previous = some ']'))
  | '\x7b' => some .openBrace
  | '\x7d' => some .closeBrace
  | '\n' => some .lineEnd
  | _ => none

/-- The tokens with a word that has come to its end. -/
def endWord (found : List Token) (word : List Char) : List Token :=
  if word.isEmpty then found else .word word.reverse :: found

/-- Whether a word, in reverse order, has the form of a date. -/
def isDate (word : List Char) : Bool :=
  match word with
  | [a, b, '-', c, d, '-', e, f, g, h] => [a, b, c, d, e, f, g, h].all Char.isDigit
  | _ => false

/-- A character outside of quotes and comments. -/
def plainStep (found : List Token) (word : List Char) (previous : Option Char) (c : Char) : Scan :=
  if c = '"' ∨ c = '\'' then ⟨endWord found word, .opening c 1⟩
  else if c = '#' then ⟨endWord found word, .comment⟩
  else if c = ' ' ∧ isDate word then ⟨found, .dated word⟩
  else if isGap c then ⟨endWord found word, .plain [] none⟩
  else
    match mark? previous c with
    | some mark => ⟨mark :: endWord found word, .plain [] (some c)⟩
    | none => ⟨found, .plain (c :: word) none⟩

/-- A text that has come to its end. -/
def endText (found : List Token) (quoting : Quoting) (chars : List Char) : Scan :=
  ⟨.text (String.ofList chars.reverse) quoting.multiline :: found, .plain [] none⟩

/-- A character of a text. -/
def bodyStep? (found : List Token) (quoting : Quoting) (chars : List Char) (c : Char) :
    Option Scan :=
  if c = quoting.quote then
    if quoting.multiline then some ⟨found, .closing quoting.quote chars 1⟩
    else some (endText found quoting chars)
  else if c = '\\' ∧ quoting.quote = '"' then some ⟨found, .escape quoting chars⟩
  else if isControl c ∧ ¬ (quoting.multiline ∧ (c = '\n' ∨ c = '\r')) then none
  else some ⟨found, .body quoting (c :: chars)⟩

/-- The character of an escape with one letter. -/
def simpleEscape? (c : Char) : Option Char :=
  match c with
  | '"' => some '"'
  | '\\' => some '\\'
  | 'b' => some '\x08'
  | 'e' => some '\x1b'
  | 'f' => some '\x0c'
  | 'n' => some '\n'
  | 'r' => some '\r'
  | 't' => some '\t'
  | _ => none

/-- How many digits the code point of an escape has. -/
def codeLength? (c : Char) : Option Nat :=
  match c with
  | 'x' => some 2
  | 'u' => some 4
  | 'U' => some 8
  | _ => none

/-- The character behind a backslash. -/
def escapeStep? (found : List Token) (quoting : Quoting) (chars : List Char) (c : Char) :
    Option Scan :=
  match simpleEscape? c, codeLength? c with
  | some char, _ => some ⟨found, .body quoting (char :: chars)⟩
  | none, some length => some ⟨found, .code quoting chars length 0⟩
  | none, none =>
    if quoting.multiline ∧ (c = '\n' ∨ isGap c) then
      some ⟨found, .joining quoting chars (c = '\n')⟩
    else none

/-- What one character does. -/
def step (scan : Scan) (c : Char) : Option Scan :=
  match scan.mode with
  | .plain word previous => some (plainStep scan.found word previous c)
  | .dated word =>
    if c.isDigit then some ⟨scan.found, .plain (c :: ' ' :: word) none⟩
    else some (plainStep (endWord scan.found word) [] none c)
  | .comment =>
    if c = '\n' then some ⟨.lineEnd :: scan.found, .plain [] none⟩
    else if isControl c ∧ c ≠ '\r' then none
    else some scan
  | .opening quote 1 =>
    if c = quote then some ⟨scan.found, .opening quote 2⟩
    else bodyStep? scan.found ⟨quote, false⟩ [] c
  | .opening quote _ =>
    if c = quote then some ⟨scan.found, .first quote⟩
    else some (plainStep (.text "" false :: scan.found) [] none c)
  | .first quote =>
    if c = '\r' then some scan
    else if c = '\n' then some ⟨scan.found, .body ⟨quote, true⟩ []⟩
    else bodyStep? scan.found ⟨quote, true⟩ [] c
  | .body quoting chars => bodyStep? scan.found quoting chars c
  | .closing quote chars count =>
    if c = quote then
      if count < 5 then some ⟨scan.found, .closing quote chars (count + 1)⟩ else none
    else if count < 3 then
      bodyStep? scan.found ⟨quote, true⟩ (List.replicate count quote ++ chars) c
    else
      let ended := endText scan.found ⟨quote, true⟩ (List.replicate (count - 3) quote ++ chars)
      some (plainStep ended.found [] none c)
  | .escape quoting chars => escapeStep? scan.found quoting chars c
  | .code quoting chars missing value => do
    let value := 16 * value + (← Text.hexDigit? c)
    if missing = 1 then
      return ⟨scan.found, .body quoting ((← Text.character? value) :: chars)⟩
    else return ⟨scan.found, .code quoting chars (missing - 1) value⟩
  | .joining quoting chars pastLine =>
    if c = '\n' then some ⟨scan.found, .joining quoting chars true⟩
    else if isGap c then some scan
    else if pastLine then bodyStep? scan.found quoting chars c
    else none

/-- Whether every carriage return is the first half of a line end. -/
def returnsPaired : List Char → Bool
  | [] => true
  | '\r' :: rest => rest.head? = some '\n' && returnsPaired rest
  | _ :: rest => returnsPaired rest

/-- The characters of a document without a byte order mark. -/
def withoutMark (chars : List Char) : List Char :=
  match chars with
  | '\uFEFF' :: rest => rest
  | chars => chars

end Scan

/-- The tokens of a document. -/
def Token.ofText? (text : String) : Option (List Token) :=
  let chars := Scan.withoutMark text.toList
  if Scan.returnsPaired chars then
    match (chars ++ ['\n']).foldlM Scan.step ⟨[], .plain [] none⟩ with
    | some ⟨found, .plain _ _⟩ => some found.reverse
    | _ => none
  else none

end AgentGate.Toml
