/-!
# Digits and code points

The values of decimal and hexadecimal digits, and the characters of code points.
-/

namespace AgentGate.Text

/-- The value of a hexadecimal digit. -/
def hexDigit? (c : Char) : Option Nat :=
  if c.isDigit then some (c.toNat - '0'.toNat)
  else if 'a' ≤ c ∧ c ≤ 'f' then some (c.toNat - 'a'.toNat + 10)
  else if 'A' ≤ c ∧ c ≤ 'F' then some (c.toNat - 'A'.toNat + 10)
  else none

/-- The value of digits in a base, each of which must be smaller than the base. -/
def valueInBase? (base : Nat) (digits : List Char) : Option Nat :=
  digits.foldlM
    (fun value c => do
      let digit ← hexDigit? c
      if digit < base then some (base * value + digit) else none)
    0

/-- The value of hexadecimal digits. -/
def hexValue? (digits : List Char) : Option Nat :=
  valueInBase? 16 digits

/-- The value of decimal digits, of which there must be some. -/
def decimalValue? (digits : List Char) : Option Nat :=
  if digits ≠ [] ∧ digits.all Char.isDigit then
    some (digits.foldl (fun value c => 10 * value + (c.toNat - '0'.toNat)) 0)
  else none

/-- The character of a code point that is not a surrogate. -/
def character? (code : Nat) : Option Char :=
  if code < 0xD800 || (0xE000 ≤ code && code < 0x110000) then some (Char.ofNat code) else none

end AgentGate.Text
