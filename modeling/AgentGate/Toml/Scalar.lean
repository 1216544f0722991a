import AgentGate.Decimal.Binary
import AgentGate.Toml.Moment

/-!
# Scalars of TOML

What a word stands for in the place of a value: a truth value, a number or a moment.

- `Scalar.ofWord?`: the scalar of a word, if it is one.
-/

namespace AgentGate.Toml

/-- A value without parts. -/
inductive Scalar where
  | text (value : String)
  | bool (value : Bool)
  | integer (value : Int)
  | float (value : Binary64)
  /-- Infinity or what is not a number. -/
  | notFinite
  | moment (text : String)
  deriving DecidableEq

namespace Scalar

/-- Digits without the single underscores between them. -/
def ungrouped? (isDigit : Char → Bool) (chars : List Char) : Option (List Char) :=
  let groups := chars.splitOn '_'
  if groups.all fun group => !group.isEmpty && group.all isDigit then some groups.flatten else none

/-- A sign, positive where there is none, and what follows it. -/
def signed (chars : List Char) : Bool × List Char :=
  match chars with
  | '-' :: rest => (true, rest)
  | '+' :: rest => (false, rest)
  | rest => (false, rest)

/-- The digits of a decimal integer, without a zero in front of others. -/
def wholeDigits? (chars : List Char) : Option (List Char) := do
  match ← ungrouped? Char.isDigit chars with
  | '0' :: _ :: _ => none
  | digits => some digits

/-- An integer with a sign. -/
def decimal? (chars : List Char) : Option Scalar := do
  let (negative, rest) := signed chars
  let value ← Text.decimalValue? (← wholeDigits? rest)
  return .integer (if negative then -(value : Int) else value)

/-- An integer in another base. -/
def inBase? (base : Nat) (chars : List Char) : Option Scalar := do
  let digits ← ungrouped? (fun c => (Text.hexDigit? c).isSome) chars
  return .integer (← Text.valueInBase? base digits)

/-- An integer. -/
def integer? : List Char → Option Scalar
  | '0' :: 'x' :: digits => inBase? 16 digits
  | '0' :: 'o' :: digits => inBase? 8 digits
  | '0' :: 'b' :: digits => inBase? 2 digits
  | chars => decimal? chars

/-- The value of an exponent, with its letter, or zero where there is none. -/
def exponent? : List Char → Option Int
  | [] => some 0
  | _ :: chars => do
    let (negative, rest) := signed chars
    let value ← Text.decimalValue? (← ungrouped? Char.isDigit rest)
    return if negative then -(value : Int) else value

/-- The digits of a fraction, with its point, or none where there is no point. -/
def fraction? : List Char → Option (List Char)
  | [] => some []
  | _ :: chars => ungrouped? Char.isDigit chars

/-- A number with a point or an exponent. Its size may not go beyond that of the largest number. -/
def float? (chars : List Char) : Option Scalar := do
  let (negative, rest) := signed chars
  let startsExponent (c : Char) : Bool := c = 'e' || c = 'E'
  let mantissa := rest.takeWhile fun c => !startsExponent c
  let exponent ← exponent? (rest.dropWhile fun c => !startsExponent c)
  let whole ← wholeDigits? (mantissa.takeWhile fun c => c ≠ '.')
  let fraction ← fraction? (mantissa.dropWhile fun c => c ≠ '.')
  let digits ← Text.decimalValue? (whole ++ fraction)
  (Binary64.ofDecimal negative digits (exponent - fraction.length)).map .float

/-- A truth value, or a word for what is not a finite number. -/
def named? (chars : List Char) : Option Scalar :=
  if chars = "true".toList then some (.bool true)
  else if chars = "false".toList then some (.bool false)
  else
    let name := (signed chars).2
    if name = "inf".toList ∨ name = "nan".toList then some .notFinite else none

/-- The scalar of a word. -/
def ofWord? (chars : List Char) : Option Scalar :=
  named? chars <|> integer? chars <|> float? chars <|> (Moment.ofChars? chars).map .moment

end Scalar

end AgentGate.Toml
