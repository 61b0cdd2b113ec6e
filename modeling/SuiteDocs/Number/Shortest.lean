import SuiteDocs.Number.Binary64
import SuiteDocs.Text.Symbol

/-!
The shortest decimal text of a double-precision number.

A finite number is written with the fewest digits that read back as the same number and, among
those, with the digits nearest to it. The text is positional for decimal exponents from -4 to 15
and scientific outside them.
-/

set_option autoImplicit false

namespace SuiteDocs.Binary64

/-- The numbers `low ≤ value ≤ high`, in units of `2 ^ (exponent - 2)`, that round to one finite
number. The ends belong to it if `closed`. -/
structure RoundingInterval where
  low : Nat
  value : Nat
  high : Nat
  closed : Bool

/-- The interval that rounds to `mantissa · 2 ^ exponent`. Below a power of two the numbers lie
twice as dense as above it. -/
def roundingInterval (mantissa : Nat) (exponent : Int) : RoundingInterval :=
  let dense := mantissa == Nat.pow 2 52 && leastExponent < exponent
  { low := 4 * mantissa - (if dense then 1 else 2)
    value := 4 * mantissa
    high := 4 * mantissa + 2
    closed := mantissa % 2 == 0 }

/-- A power with any whole exponent, as numerator and denominator. -/
def ratioPower (base : Nat) (exponent : Int) : Nat × Nat :=
  match exponent with
  | .ofNat power => (Nat.pow base power, 1)
  | .negSucc power => (1, Nat.pow base (power + 1))

/-- The decimal digits `digits · 10 ^ power`. -/
structure Decimal where
  digits : Nat
  power : Int
  deriving DecidableEq, Repr

/-- The point of the grid of multiples of `10 ^ power` that reads back as the number, the nearer
one if there are two. -/
def gridPoint? (interval : RoundingInterval) (unit : Nat × Nat) (power : Int) : Option Decimal :=
  let grid := ratioPower 10 power
  -- A multiple `c` of the grid and a number `x` of units compare as `c * scale` and `x * weight`.
  let scale := grid.1 * unit.2
  let weight := unit.1 * grid.2
  let below := interval.value * weight / scale
  let above := below + 1
  let reads (c : Nat) : Bool :=
    if interval.closed then interval.low * weight ≤ c * scale && c * scale ≤ interval.high * weight
    else interval.low * weight < c * scale && c * scale < interval.high * weight
  let gapBelow := interval.value * weight - below * scale
  let gapAbove := above * scale - interval.value * weight
  if reads below && below != 0 then
    if reads above && (gapAbove < gapBelow || (gapAbove == gapBelow && below % 2 == 1)) then
      some ⟨above, power⟩
    else some ⟨below, power⟩
  else if reads above then some ⟨above, power⟩
  else none

/-- The decimal exponent of a positive number: the power of ten of its first digit. -/
def decimalExponent (mantissa : Nat) (exponent : Int) : Int :=
  let guess := ((Nat.log2 mantissa : Int) + exponent) * 30103 / 100000
  let value := ratioPower 2 exponent
  let atLeast (power : Int) : Bool :=
    let ten := ratioPower 10 power
    ten.1 * value.2 ≤ mantissa * value.1 * ten.2
  if atLeast (guess + 1) then guess + 1
  else if atLeast guess then guess
  else guess - 1

/-- The shortest decimal of a positive number. Seventeen digits always suffice. -/
def shortestDecimal (mantissa : Nat) (exponent : Int) : Decimal :=
  let interval := roundingInterval mantissa exponent
  let unit := ratioPower 2 (exponent - 2)
  let first := decimalExponent mantissa exponent
  let found := (List.range 17).findSome? fun (more : Nat) =>
    gridPoint? interval unit (first - more)
  found.getD ⟨0, 0⟩

/-- Digits without the zeros at their end, and how many zeros those were. -/
def withoutTrailingZeros (digits : Text) : Text × Nat :=
  let kept := (digits.reverse.dropWhile (· == .char '0')).reverse
  (kept, digits.length - kept.length)

def zeros (count : Nat) : Text :=
  List.replicate count '0'

/-- The decimal text of `0.d₁d₂… · 10 ^ point`, where the digits `d₁d₂…` are given. -/
def decimalText (digits : Text) (point : Int) : Text :=
  if point ≤ -4 || 16 < point then
    let exponent := point - 1
    let magnitude := Text.ofNat exponent.natAbs
    let fraction : Text := if digits.length ≤ 1 then "" else "." ++ digits.drop 1
    let mark : Text := if exponent < 0 then "e-" else "e+"
    digits.take 1 ++ fraction ++ mark ++ zeros (2 - magnitude.length) ++ magnitude
  else match point with
    | .negSucc more => "0." ++ zeros (more + 1) ++ digits
    | .ofNat 0 => "0." ++ digits
    | .ofNat whole =>
      let fraction : Text := if digits.length ≤ whole then "0" else digits.drop whole
      digits.take whole ++ zeros (whole - digits.length) ++ "." ++ fraction

def text : Binary64 → Text
  | .notANumber => "nan"
  | .infinite negative => if negative then "-inf" else "inf"
  | .finite negative mantissa exponent =>
    let body : Text :=
      if mantissa == 0 then "0.0"
      else
        let decimal := shortestDecimal mantissa exponent
        let digits := Text.ofNat decimal.digits
        let kept := withoutTrailingZeros digits
        decimalText kept.1 (digits.length + decimal.power)
    if negative then "-" ++ body else body

end SuiteDocs.Binary64
