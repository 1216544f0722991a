import AgentGate.Decimal.Binary

/-!
# The shortest decimal of a number

A binary64 number is written with the fewest digits that read back as the same number, and of the
decimals with so few digits the one nearest to it. On the grid of decimals with a given number of
digits only the two neighbours of the number have to be looked at.

- `Shortest.decimal`: digits and exponent of the shortest decimal.
- `Shortest.text`: the text of a number, positional unless the number is large or small.
-/

namespace AgentGate.Shortest

/-- Whether `digits * 10 ^ grid` lies among the reals that round to a number. The bounds belong to
them when the significand is even. -/
def readsBack (x : Binary64) (digits : Nat) (grid : Int) : Bool :=
  let quarter := x.exponent - 2
  let candidate := digits * Nat.pow 10 grid.toNat * Nat.pow 2 (-quarter).toNat
  let scale := Nat.pow 10 (-grid).toNat * Nat.pow 2 quarter.toNat
  let gapBelow :=
    if x.significand = Nat.pow 2 52 && Binary64.minExponent < x.exponent then 1 else 2
  let low := (4 * x.significand - gapBelow) * scale
  let high := (4 * x.significand + 2) * scale
  if x.significand % 2 = 0 then low ≤ candidate && candidate ≤ high
  else low < candidate && candidate < high

/-- The number of digits before the point of a positive number, zero or negative for a number below
a tenth and so on. -/
def magnitude (x : Binary64) : Int :=
  let scaled :=
    x.significand * Nat.pow 10 340 * Nat.pow 2 x.exponent.toNat / Nat.pow 2 (-x.exponent).toNat
  ((Nat.toDigits 10 scaled).length : Int) - 340

/-- The decimal with the given number of digits that is nearest to a number, if one of its two
neighbours reads back. -/
def withDigits? (x : Binary64) (count : Nat) : Option (Nat × Int) :=
  let grid := magnitude x - count
  let numerator := x.significand * Nat.pow 2 x.exponent.toNat * Nat.pow 10 (-grid).toNat
  let denominator := Nat.pow 2 (-x.exponent).toNat * Nat.pow 10 grid.toNat
  let below := numerator / denominator
  match readsBack x below grid, readsBack x (below + 1) grid with
  | true, true => some (Binary64.nearest numerator denominator, grid)
  | true, false => some (below, grid)
  | false, true => some (below + 1, grid)
  | false, false => none

/-- Move the zeros at the end of the digits into the exponent. -/
def dropZeros (digits : Nat) (exponent : Int) : Nat × Int :=
  if h : digits ≠ 0 ∧ digits % 10 = 0 then dropZeros (digits / 10) (exponent + 1)
  else (digits, exponent)
termination_by digits
decreasing_by exact Nat.div_lt_self (Nat.pos_of_ne_zero h.1) (by decide)

/-- Digits and exponent of the shortest decimal; seventeen digits always suffice. -/
def decimal (x : Binary64) : Nat × Int :=
  if x.significand = 0 then (0, 0)
  else
    match (List.range 17).findSome? fun fewer => withDigits? x (fewer + 1) with
    | some (digits, exponent) => dropZeros digits exponent
    | none => (0, 0)

/-- A text of zeros. -/
def zeros (count : Nat) : List Char :=
  List.replicate count '0'

/-- Digits with the point at a place, with a zero where a side would be empty. -/
def pointed (digits : List Char) (exponent : Int) : List Char :=
  let place := digits.length + exponent
  if 0 ≤ exponent then digits ++ zeros exponent.toNat ++ ['.', '0']
  else if 0 < place then digits.take place.toNat ++ '.' :: digits.drop place.toNat
  else ['0', '.'] ++ zeros (-place).toNat ++ digits

/-- A power of ten with its sign and at least two digits. -/
def powerOfTen (power : Int) : List Char :=
  let digits := Nat.toDigits 10 power.natAbs
  (if power < 0 then '-' else '+') :: List.replicate (2 - digits.length) '0' ++ digits

/-- Digits with the point behind the first and a power of ten. -/
def scientific (digits : List Char) (exponent : Int) : List Char :=
  let fraction :=
    match digits.drop 1 with
    | [] => []
    | rest => '.' :: rest
  digits.take 1 ++ fraction ++ 'e' :: powerOfTen (exponent + digits.length - 1)

/-- The sign in front of a text. -/
def signed (x : Binary64) (digits : List Char) : String :=
  String.ofList (if x.negative then '-' :: digits else digits)

/-- The text of a number: positional from `0.00001` up to sixteen digits before the point, and with
an exponent otherwise. -/
def text (x : Binary64) : String :=
  let (digits, exponent) := decimal x
  let chars := Nat.toDigits 10 digits
  let place := chars.length + exponent
  if -5 < place && place ≤ 16 then signed x (pointed chars exponent)
  else signed x (scientific chars exponent)

end AgentGate.Shortest
