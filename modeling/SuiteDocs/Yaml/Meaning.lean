import SuiteDocs.Number.Decimal
import SuiteDocs.Text.Base64
import SuiteDocs.Text.Lower
import SuiteDocs.Yaml.Error
import SuiteDocs.Yaml.Resolution

/-!
What a text means once its tag is known.

A tag that is written out may ask for a meaning that the text does not look like, so every text has
to be considered under every tag.
-/

set_option autoImplicit false

namespace SuiteDocs.Yaml

/-- A value that is no collection. -/
inductive Atom where
  | null
  | truth (value : Bool)
  | integer (value : Int)
  | number (value : Binary64)
  | bytes (value : List UInt8)
  | moment (value : Moment)
  | text (value : Text)

namespace Atom

def dropUnderscores (text : Text) : Text :=
  text.filter (· != '_')

/-- A sign, and what follows it, of a text that may not be empty. -/
def splitSign : Text → Except Error (Bool × Text)
  | [] => .error .empty
  | c :: rest => .ok (Whole.takeSign (c :: rest))

/-- The whole number that a text spells in a base. -/
def wholeIn (base : Nat) (text : Text) : Except Error Int :=
  (Whole.read base text).mapError .whole

/-- The number in base sixty that places spell, the first of which is worth the most. -/
def sixtieths (places : List Int) : Int :=
  places.foldl (fun value place => value * 60 + place) 0

/-- The whole number that a text without its sign spells. The start of the text tells its base. -/
def unsignedInteger : Text → Except Error Int
  | [] => .error .empty
  | [.char '0'] => .ok 0
  | .char '0' :: .char 'b' :: digits => wholeIn 2 digits
  | .char '0' :: .char 'x' :: digits => wholeIn 16 digits
  | .char '0' :: digits => wholeIn 8 (.char '0' :: digits)
  | digits =>
    if digits.contains ':' then ((Text.splitOn ':' digits).mapM (wholeIn 10)).map sixtieths
    else wholeIn 10 digits

def integerOf (text : Text) : Except Error Int := do
  let (negative, unsigned) ← splitSign (dropUnderscores text)
  let value ← unsignedInteger unsigned
  return if negative then -value else value

def numberIn (text : Text) : Except Error Binary64 :=
  match Binary64.ofText? text with
  | some value => .ok value
  | none => .error (.noNumber text)

/-- The sum of the places of a number in base sixty, added up from the last place on. -/
def sumOfPlaces (sum : Binary64) (worth : Nat) : List Binary64 → Except Error Binary64
  | [] => .ok sum
  | place :: places =>
    match Binary64.ofNat? worth with
    | none => .error .largePlace
    | some factor => sumOfPlaces (sum.add (place.mul factor)) (worth * 60) places

/-- The number that a text without its sign spells. -/
def unsignedNumber (text : Text) : Except Error Binary64 :=
  if text == ".inf" then .ok (.infinite false)
  else if text == ".nan" then .ok .notANumber
  else if text.contains ':' then do
    let places ← (Text.splitOn ':' text).mapM numberIn
    sumOfPlaces (.ofDecimal false 0 0) 1 places.reverse
  else numberIn text

def numberOf (text : Text) : Except Error Binary64 := do
  let (negative, unsigned) ← splitSign (Text.lower (dropUnderscores text))
  let value ← unsignedNumber unsigned
  return if negative then value.negate else value

def truthOf (text : Text) : Except Error Bool :=
  let word := Text.lower text
  if (["yes", "true", "on"] : List Text).contains word then .ok true
  else if (["no", "false", "off"] : List Text).contains word then .ok false
  else .error (.noTruth word)

/-- The bytes that a text of ASCII characters spells. -/
def bytesOf (text : Text) : Except Error (List UInt8) :=
  match if text.all (·.code < 128) then Text.Base64.decode text else none with
  | some read => .ok read
  | none => .error .malformed

def momentOf (text : Text) : Except Error Moment :=
  match DateFields.ofText? (dropLineEnd text) with
  | none => .error .noDate
  | some fields => do
    let (hour, minute, second, microsecond, offset) := fields.time.getD (0, 0, 0, 0, none)
    let moment : Moment :=
      { year := fields.year, month := fields.month, day := fields.day, hour, minute, second,
        microsecond, offset }
    match moment.check with
    | .ok () => return moment
    | .error error => throw (.moment error)

/-- What a text means under a kind of its own. -/
def ofText (kind : Kind) (text : Text) : Except Error Atom :=
  match kind with
  | .null => .ok .null
  | .truth => (truthOf text).map .truth
  | .integer => (integerOf text).map .integer
  | .number => (numberOf text).map .number
  | .bytes => (bytesOf text).map .bytes
  | .moment => (momentOf text).map .moment
  | .text => .ok (.text text)
  | _ => .error .malformed

end Atom

end SuiteDocs.Yaml
