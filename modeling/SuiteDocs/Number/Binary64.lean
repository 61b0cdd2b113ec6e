/-!
Double-precision numbers, and the nearest one to a decimal fraction.

Everything is computed with natural numbers, so that no rounding happens but the one that is meant.
-/

set_option autoImplicit false

namespace SuiteDocs

/-- A double-precision number. A finite one is `mantissa · 2 ^ exponent`, where `mantissa` is below
`2 ^ 53` and at least `2 ^ 52` unless `exponent` is the least one, -1074. -/
inductive Binary64 where
  | finite (negative : Bool) (mantissa : Nat) (exponent : Int)
  | infinite (negative : Bool)
  | notANumber
  deriving DecidableEq, Repr

namespace Binary64

/-- The least exponent of a finite number. -/
def leastExponent : Int := -1074

/-- The greatest exponent of a finite number. -/
def greatestExponent : Int := 971

/-- The quotient rounded to the nearest whole number, a half to the even neighbour. -/
def roundQuotient (numerator denominator : Nat) : Nat :=
  let quotient := numerator / denominator
  let remainder := numerator % denominator
  if denominator < 2 * remainder || (2 * remainder == denominator && quotient % 2 == 1) then
    quotient + 1
  else quotient

/-- Numerator and denominator of a fraction divided by a power of two. -/
def scaleDown (numerator denominator : Nat) (exponent : Int) : Nat × Nat :=
  match exponent with
  | .ofNat power => (numerator, denominator * Nat.pow 2 power)
  | .negSucc power => (numerator * Nat.pow 2 (power + 1), denominator)

/-- The exponent at which the mantissa of a positive fraction has 53 binary digits, or the least
exponent if that is greater. -/
def exponentFor (numerator denominator : Nat) : Int :=
  let guess : Int := (Nat.log2 numerator : Int) - Nat.log2 denominator - 52
  let scaled := scaleDown numerator denominator guess
  let exact := if scaled.1 / scaled.2 < Nat.pow 2 52 then guess - 1 else guess
  max exact leastExponent

/-- The number nearest to a fraction, a tie going to the even mantissa. -/
def ofFraction (negative : Bool) (numerator denominator : Nat) : Binary64 :=
  if numerator == 0 then .finite negative 0 leastExponent
  else
    let exponent := exponentFor numerator denominator
    let scaled := scaleDown numerator denominator exponent
    let mantissa := roundQuotient scaled.1 scaled.2
    let carried := mantissa == Nat.pow 2 53
    let mantissa := if carried then Nat.pow 2 52 else mantissa
    let exponent := if carried then exponent + 1 else exponent
    if greatestExponent < exponent then .infinite negative
    else .finite negative mantissa exponent

/-- The number nearest to `digits · 10 ^ power`. Powers that leave the range of all finite numbers
are decided without computing them. -/
def ofDecimal (negative : Bool) (digits : Nat) (power : Int) : Binary64 :=
  if digits == 0 then .finite negative 0 leastExponent
  else
    let magnitude : Int := (Nat.toDigits 10 digits).length + power
    if 310 < magnitude then .infinite negative
    else if magnitude < -330 then .finite negative 0 leastExponent
    else match power with
      | .ofNat power => ofFraction negative (digits * Nat.pow 10 power) 1
      | .negSucc power => ofFraction negative digits (Nat.pow 10 (power + 1))

def negate : Binary64 → Binary64
  | .finite negative mantissa exponent => .finite (!negative) mantissa exponent
  | .infinite negative => .infinite (!negative)
  | .notANumber => .notANumber

/-- Numerator and denominator of the magnitude of a finite number. -/
def magnitude (mantissa : Nat) (exponent : Int) : Nat × Nat :=
  match exponent with
  | .ofNat power => (mantissa * Nat.pow 2 power, 1)
  | .negSucc power => (mantissa, Nat.pow 2 (power + 1))

/-- Whether a number is below zero, or the zero below. -/
def isNegative : Binary64 → Bool
  | .finite negative _ _ => negative
  | .infinite negative => negative
  | .notANumber => false

/-- The number nearest to the sum of two finite numbers. A sum of nothing is the zero above, unless
both are the zero below. -/
def addFinite (negative negative' : Bool) (first second : Nat × Nat) : Binary64 :=
  let signed (negative : Bool) (value : Nat) : Int := if negative then -value else value
  let sum := signed negative (first.1 * second.2) + signed negative' (second.1 * first.2)
  ofFraction (if sum == 0 then negative && negative' else sum < 0) sum.natAbs (first.2 * second.2)

/-- The number nearest to a sum. -/
def add : Binary64 → Binary64 → Binary64
  | .finite negative mantissa exponent, .finite negative' mantissa' exponent' =>
    addFinite negative negative' (magnitude mantissa exponent) (magnitude mantissa' exponent')
  | .infinite negative, .infinite negative' =>
    if negative == negative' then .infinite negative else .notANumber
  | .infinite negative, .finite .. => .infinite negative
  | .finite .., .infinite negative => .infinite negative
  | _, _ => .notANumber

/-- The number nearest to a product. -/
def mul (first second : Binary64) : Binary64 :=
  let negative := first.isNegative != second.isNegative
  match first, second with
  | .finite _ mantissa exponent, .finite _ mantissa' exponent' =>
    let (numerator, denominator) := magnitude mantissa exponent
    let (numerator', denominator') := magnitude mantissa' exponent'
    ofFraction negative (numerator * numerator') (denominator * denominator')
  | .finite _ mantissa _, .infinite _ => infiniteTimes negative mantissa
  | .infinite _, .finite _ mantissa _ => infiniteTimes negative mantissa
  | .infinite _, .infinite _ => .infinite negative
  | _, _ => .notANumber
where
  /-- The product of an infinite number and a finite one. -/
  infiniteTimes (negative : Bool) (mantissa : Nat) : Binary64 :=
    if mantissa == 0 then .notANumber else .infinite negative

/-- The number nearest to a natural number, if that is finite. -/
def ofNat? (value : Nat) : Option Binary64 :=
  match ofFraction false value 1 with
  | .finite negative mantissa exponent => some (.finite negative mantissa exponent)
  | _ => none

end Binary64

end SuiteDocs
