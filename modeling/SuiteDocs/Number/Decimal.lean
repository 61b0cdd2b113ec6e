import SuiteDocs.Number.Binary64
import SuiteDocs.Number.Whole

/-!
Double-precision numbers as texts spell them: decimal digits with a point and an exponent, or the
names of the values that no digits spell. White space may stand on both sides and a sign in front.
-/

set_option autoImplicit false

namespace SuiteDocs.Binary64

open SuiteDocs.Text

/-- The digits at the start of a text, of any script, and what follows them. -/
def takeDigits (text : Text) : Text × Text :=
  let digits := text.takeWhile isDecimal
  (digits, text.drop digits.length)

/-- The exponent that a text spells: nothing, or a letter, a sign or none, and digits. -/
def exponentOf? : Text → Option Int
  | [] => some 0
  | mark :: rest =>
    if mark == 'e' || mark == 'E' then
      let (negative, unsigned) := Whole.takeSign rest
      let (digits, ending) := takeDigits unsigned
      if digits.isEmpty || !ending.isEmpty then none
      else
        let value : Int := Whole.valueOf 10 digits
        some (if negative then -value else value)
    else none

/-- The number that digits with a point and an exponent spell. -/
def ofDigits? (negative : Bool) (text : Text) : Option Binary64 := do
  let (whole, rest) := takeDigits text
  let (decimals, rest) := match rest with
    | .char '.' :: rest => takeDigits rest
    | rest => ([], rest)
  if whole.isEmpty && decimals.isEmpty then none
  let exponent ← exponentOf? rest
  return .ofDecimal negative (Whole.valueOf 10 (whole ++ decimals)) (exponent - decimals.length)

def ofText? (text : Text) : Option Binary64 :=
  let (negative, unsigned) := Whole.takeSign (Whole.trim text)
  let name := unsigned.map Symbol.toLower
  if name == "inf" || name == "infinity" then some (.infinite negative)
  else if name == "nan" then some .notANumber
  else ofDigits? negative unsigned

end SuiteDocs.Binary64
