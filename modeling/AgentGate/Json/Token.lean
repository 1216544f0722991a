import AgentGate.Json.Basic
import AgentGate.Text.Digits

/-!
# The tokens of JSON

A JSON text is cut into brackets, commas, colons and scalars; blanks between them are dropped.

- `Json.Token.ofChars?`: the tokens of a text, if it has no others.
- `Json.textBody?`: a quoted text up to its closing quote, with escapes resolved.
- `Json.number?`: a number from the characters that it is written with.
-/

namespace AgentGate.Json

open Text

/-- A piece of JSON. -/
inductive Token where
  | openArray | closeArray | openObject | closeObject | comma | colon
  | scalar (value : Json)

/-! ## Texts -/

/-- The character that two surrogates stand for. -/
def surrogates? (high low : Nat) : Option Char :=
  if 0xD800 ≤ high ∧ high < 0xDC00 ∧ 0xDC00 ≤ low ∧ low < 0xE000 then
    character? (0x10000 + (high - 0xD800) * 0x400 + (low - 0xDC00))
  else none

/-- The character of an escape with one letter. -/
def simpleEscape? (c : Char) : Option Char :=
  match c with
  | '"' => some '"'
  | '\\' => some '\\'
  | '/' => some '/'
  | 'b' => some '\x08'
  | 'f' => some '\x0c'
  | 'n' => some '\n'
  | 'r' => some '\r'
  | 't' => some '\t'
  | _ => none

/-- The characters up to the closing quote, and what follows it. -/
def textBody? : List Char → Option (List Char × List Char)
  | [] => none
  | '"' :: rest => some ([], rest)
  | '\\' :: 'u' :: a :: b :: c :: d :: '\\' :: 'u' :: e :: f :: g :: h :: rest => do
    let first ← hexValue? [a, b, c, d]
    match character? first with
    | some char =>
      let (body, after) ← textBody? ('\\' :: 'u' :: e :: f :: g :: h :: rest)
      return (char :: body, after)
    | none =>
      let char ← surrogates? first (← hexValue? [e, f, g, h])
      let (body, after) ← textBody? rest
      return (char :: body, after)
  | '\\' :: 'u' :: a :: b :: c :: d :: rest => do
    let char ← character? (← hexValue? [a, b, c, d])
    let (body, after) ← textBody? rest
    return (char :: body, after)
  | '\\' :: c :: rest => do
    let char ← simpleEscape? c
    let (body, after) ← textBody? rest
    return (char :: body, after)
  | c :: rest =>
    if c.toNat < 0x20 then none
    else do
      let (body, after) ← textBody? rest
      return (c :: body, after)

/-- What follows a quoted text is shorter than the text with its closing quote. -/
theorem length_lt_of_textBody? {text body after : List Char}
    (h : textBody? text = some (body, after)) : after.length < text.length := by
  fun_induction textBody? text generalizing body after with
  | case1 => simp at h
  | case2 rest => simp_all
  | case3 a b c d e f g i rest ih₁ ih₂ =>
    simp only [Option.bind_eq_bind, Option.bind_eq_some_iff] at h
    obtain ⟨first, _, h⟩ := h
    split at h
    · simp only [Option.bind_eq_some_iff] at h
      obtain ⟨⟨inner, left⟩, found, h⟩ := h
      have less := ih₁ found
      simp only [Option.pure_def, Option.some.injEq, Prod.mk.injEq] at h
      obtain ⟨_, rfl⟩ := h
      simp only [List.length_cons] at less ⊢
      omega
    · simp only [Option.bind_eq_some_iff] at h
      obtain ⟨_, _, _, _, ⟨inner, left⟩, found, h⟩ := h
      have less := ih₂ found
      simp only [Option.pure_def, Option.some.injEq, Prod.mk.injEq] at h
      obtain ⟨_, rfl⟩ := h
      simp only [List.length_cons]
      omega
  | case4 a b c d rest _ ih =>
    simp only [Option.bind_eq_bind, Option.bind_eq_some_iff] at h
    obtain ⟨_, _, _, _, ⟨inner, left⟩, found, h⟩ := h
    have less := ih found
    simp only [Option.pure_def, Option.some.injEq, Prod.mk.injEq] at h
    obtain ⟨_, rfl⟩ := h
    simp only [List.length_cons]
    omega
  | case5 c rest _ _ ih =>
    simp only [Option.bind_eq_bind, Option.bind_eq_some_iff] at h
    obtain ⟨_, _, ⟨inner, left⟩, found, h⟩ := h
    have less := ih found
    simp only [Option.pure_def, Option.some.injEq, Prod.mk.injEq] at h
    obtain ⟨_, rfl⟩ := h
    simp only [List.length_cons]
    omega
  | case6 => simp at h
  | case7 c rest _ _ _ _ _ ih =>
    simp only [Option.bind_eq_bind, Option.bind_eq_some_iff] at h
    obtain ⟨⟨inner, left⟩, found, h⟩ := h
    have less := ih found
    simp only [Option.pure_def, Option.some.injEq, Prod.mk.injEq] at h
    obtain ⟨_, rfl⟩ := h
    simp only [List.length_cons]
    omega

/-! ## Numbers -/

/-- The characters that numbers are written with. -/
def isNumberChar (c : Char) : Bool :=
  c.isDigit || c == '-' || c == '+' || c == '.' || c == 'e' || c == 'E'

/-- The value of an exponent with its sign. -/
def exponentValue? (chars : List Char) : Option Int :=
  match chars with
  | '-' :: digits => (decimalValue? digits).map fun value => -(value : Int)
  | '+' :: digits => (decimalValue? digits).map Int.ofNat
  | digits => (decimalValue? digits).map Int.ofNat

/-- Digits before the point, without a zero in front of others. -/
def wholeDigits? (digits : List Char) : Option (List Char) :=
  match digits with
  | '0' :: _ :: _ => none
  | digits => if digits ≠ [] ∧ digits.all Char.isDigit then some digits else none

/-- Digits behind the point, if there is one. -/
def fractionDigits? (chars : List Char) : Option (List Char) :=
  match chars with
  | [] => some []
  | '.' :: digits => if digits ≠ [] ∧ digits.all Char.isDigit then some digits else none
  | _ => none

/-- The number that some characters write. Minus zero and integers beyond 64 bits are numbers with a
point, as are those written with a point or an exponent. -/
def number? (chars : List Char) : Option Json := do
  let (negative, unsigned) :=
    match chars with
    | '-' :: rest => (true, rest)
    | rest => (false, rest)
  let mantissa := unsigned.takeWhile fun c => c != 'e' && c != 'E'
  let power := (unsigned.dropWhile fun c => c != 'e' && c != 'E').drop 1
  let whole ← wholeDigits? (mantissa.takeWhile fun c => c != '.')
  let fraction ← fractionDigits? (mantissa.dropWhile fun c => c != '.')
  let digits ← decimalValue? (whole ++ fraction)
  let integer : Int := if negative then -(digits : Int) else digits
  if mantissa.length = unsigned.length ∧ fraction = [] ∧ ¬ (negative ∧ digits = 0)
      ∧ -Int.pow 2 63 ≤ integer ∧ integer < Int.pow 2 64 then
    return .int integer
  else
    let exponent ← if mantissa.length = unsigned.length then some 0 else exponentValue? power
    (Binary64.ofDecimal negative digits (exponent - fraction.length)).map .float

/-! ## Scanning -/

/-- Blanks between tokens. -/
def isSpace (c : Char) : Bool :=
  c == ' ' || c == '\t' || c == '\n' || c == '\r'

/-- The word of three values. -/
def word? (chars : List Char) : Option Json :=
  if chars = "true".toList then some (.bool true)
  else if chars = "false".toList then some (.bool false)
  else if chars = "null".toList then some .null
  else none

namespace Token

/-- The token of a bracket, a comma or a colon. -/
def mark? (c : Char) : Option Token :=
  match c with
  | '[' => some .openArray
  | ']' => some .closeArray
  | '\x7b' => some .openObject
  | '\x7d' => some .closeObject
  | ',' => some .comma
  | ':' => some .colon
  | _ => none

/-- The tokens of some characters. -/
def ofChars? (chars : List Char) : Option (List Token) :=
  match chars with
  | [] => some []
  | c :: rest =>
    if isSpace c then ofChars? rest
    else if c = '"' then
      match _h : textBody? rest with
      | some (body, after) => (ofChars? after).map (.scalar (.text (String.ofList body)) :: ·)
      | none => none
    else
      match mark? c with
      | some mark => (ofChars? rest).map (mark :: ·)
      | none =>
        if c.isAlpha then do
          let value ← word? (c :: rest.takeWhile Char.isAlpha)
          return .scalar value :: (← ofChars? (rest.dropWhile Char.isAlpha))
        else do
          let value ← number? (c :: rest.takeWhile isNumberChar)
          return .scalar value :: (← ofChars? (rest.dropWhile isNumberChar))
termination_by chars.length
decreasing_by
  · simp
  · exact Nat.lt_succ_of_lt (length_lt_of_textBody? _h)
  · simp
  · exact Nat.lt_succ_of_le (List.dropWhile_sublist _).length_le
  · exact Nat.lt_succ_of_le (List.dropWhile_sublist _).length_le

end Token

end AgentGate.Json
