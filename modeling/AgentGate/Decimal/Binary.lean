/-!
# Binary floating-point numbers

A finite number in the binary64 format is a significand times a power of two. It is kept as such, so
that reading a decimal and writing one are exact computations on natural numbers.

- `Binary64.ofDecimal`: the binary64 number nearest to a decimal; of two equally near ones, the one
  with the even significand. A decimal beyond the largest number has none.
- `Binary64.isIntegral`, `Binary64.lt`: questions about the exact value.
-/

namespace AgentGate

/-- The number `significand * 2 ^ exponent`, or its negation. The significand lies below `2 ^ 53`,
and below `2 ^ 52` only when the exponent is the least one. -/
structure Binary64 where
  negative : Bool
  significand : Nat
  exponent : Int
  deriving DecidableEq, Repr

namespace Binary64

/-- The least exponent. -/
def minExponent : Int := -1074

/-- The greatest exponent. -/
def maxExponent : Int := 971

/-- Zero with a sign. -/
def zero (negative : Bool) : Binary64 := ⟨negative, 0, minExponent⟩

/-- The integer nearest to a quotient; a half goes to the even neighbour. -/
def nearest (numerator denominator : Nat) : Nat :=
  let quotient := numerator / denominator
  let rest := 2 * (numerator % denominator)
  if rest < denominator then quotient
  else if denominator < rest then quotient + 1
  else if quotient % 2 = 0 then quotient
  else quotient + 1

/-- The number nearest to a positive quotient. -/
def ofRatio (negative : Bool) (numerator denominator : Nat) : Option Binary64 :=
  let guess : Int := (numerator.log2 : Int) - denominator.log2 - 52
  let above := numerator * Nat.pow 2 (-guess).toNat
  let below := denominator * Nat.pow 2 guess.toNat
  let exponent := max minExponent (if above < Nat.pow 2 52 * below then guess - 1 else guess)
  let significand :=
    nearest (numerator * Nat.pow 2 (-exponent).toNat) (denominator * Nat.pow 2 exponent.toNat)
  let rounded : Binary64 :=
    if significand = Nat.pow 2 53 then ⟨negative, Nat.pow 2 52, exponent + 1⟩
    else ⟨negative, significand, exponent⟩
  if maxExponent < rounded.exponent then none else some rounded

/-- The number nearest to `digits * 10 ^ exponent`. Decimals far outside the range of the format are
decided by their size alone. -/
def ofDecimal (negative : Bool) (digits : Nat) (exponent : Int) : Option Binary64 :=
  if digits = 0 then some (zero negative)
  else
    let magnitude := exponent + (Nat.toDigits 10 digits).length
    if 400 < magnitude then none
    else if magnitude < -400 then some (zero negative)
    else ofRatio negative (digits * Nat.pow 10 exponent.toNat) (Nat.pow 10 (-exponent).toNat)

/-- Whether the number is an integer. -/
def isIntegral (x : Binary64) : Bool :=
  0 ≤ x.exponent || x.significand % Nat.pow 2 (-x.exponent).toNat = 0

/-- Whether the number is smaller than an integer. -/
def lt (x : Binary64) (bound : Int) : Bool :=
  let magnitude : Int := x.significand * Int.pow 2 x.exponent.toNat
  let value := if x.negative then -magnitude else magnitude
  value < bound * Int.pow 2 (-x.exponent).toNat

end Binary64

end AgentGate
