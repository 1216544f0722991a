import AgentGate.Text.Digits

/-!
# Dates and times

A moment is a date, a time, or both with or without an offset from universal time. It is kept as its
text in one form: a `T` between date and time, seconds always written, at most nine digits of a
fraction and none that are zeros at its end.

- `Moment.ofChars?`: the text of a moment in that form, if the moment exists.
-/

namespace AgentGate.Toml.Moment

/-- The text of two digits, if their value is in bounds. -/
def pair? (low high : Nat) (first second : Char) : Option (List Char) := do
  let value ← Text.decimalValue? [first, second]
  if low ≤ value ∧ value ≤ high then some [first, second] else none

/-- Whether a year has a 29th of February. -/
def isLeap (year : Nat) : Bool :=
  year % 4 = 0 && (year % 100 ≠ 0 || year % 400 = 0)

/-- How many days a month has. -/
def daysIn (year month : Nat) : Nat :=
  if month = 2 then if isLeap year then 29 else 28
  else if month = 4 ∨ month = 6 ∨ month = 9 ∨ month = 11 then 30
  else 31

/-- A date. -/
def date? : List Char → Option (List Char)
  | [a, b, c, d, '-', e, f, '-', g, h] => do
    let year ← Text.decimalValue? [a, b, c, d]
    let month ← Text.decimalValue? (← pair? 1 12 e f)
    let _ ← pair? 1 (daysIn year month) g h
    return [a, b, c, d, '-', e, f, '-', g, h]
  | _ => none

/-- A fraction of a second with its point, empty when it is zero. -/
def fraction? (digits : List Char) : Option (List Char) :=
  if digits ≠ [] ∧ digits.all Char.isDigit then
    match ((digits.take 9).reverse.dropWhile fun c => c = '0').reverse with
    | [] => some []
    | kept => some ('.' :: kept)
  else none

/-- The part of a time from the seconds on. -/
def seconds? : List Char → Option (List Char)
  | [] => some [':', '0', '0']
  | [':', a, b] => (pair? 0 60 a b).map (':' :: ·)
  | ':' :: a :: b :: '.' :: digits => do
    return ':' :: (← pair? 0 60 a b) ++ (← fraction? digits)
  | _ => none

/-- A time. -/
def time? : List Char → Option (List Char)
  | a :: b :: ':' :: c :: d :: rest => do
    return (← pair? 0 23 a b) ++ ':' :: (← pair? 0 59 c d) ++ (← seconds? rest)
  | _ => none

/-- An offset, or nothing. No offset to the west is written as one to the east. -/
def offset? : List Char → Option (List Char)
  | [] => some []
  | ['Z'] | ['z'] => some ['Z']
  | [sign, a, b, ':', c, d] =>
    if sign = '+' ∨ sign = '-' then do
      let hours ← pair? 0 23 a b
      let minutes ← pair? 0 59 c d
      let zero := (hours ++ minutes).all fun c => c = '0'
      return (if zero then '+' else sign) :: hours ++ ':' :: minutes
    else none
  | _ => none

/-- The characters with which an offset starts. -/
def startsOffset (c : Char) : Bool :=
  c = 'Z' || c = 'z' || c = '+' || c = '-'

/-- The time and offset behind a date. -/
def clock? : List Char → Option (List Char)
  | [] => some []
  | separator :: rest =>
    if separator = 'T' ∨ separator = 't' ∨ separator = ' ' then do
      let time ← time? (rest.takeWhile fun c => !startsOffset c)
      let offset ← offset? (rest.dropWhile fun c => !startsOffset c)
      return 'T' :: time ++ offset
    else none

/-- The text of a moment. -/
def ofChars? (chars : List Char) : Option String :=
  (match date? (chars.take 10) with
    | some date => (clock? (chars.drop 10)).map (date ++ ·)
    | none => time? chars).map String.ofList

end AgentGate.Toml.Moment
