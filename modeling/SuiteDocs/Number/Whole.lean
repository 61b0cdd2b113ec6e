import SuiteDocs.Text.Quoted
import SuiteDocs.Text.Strip

/-!
Whole numbers as texts spell them in a base.

White space may stand on both sides, a sign and the mark of the base (`0b`, `0o` or `0x`) in front,
and single underscores between digits. Digits of every script count. In bases that are no power of
two the number of digits is limited, both for reading and for writing.
-/

set_option autoImplicit false

namespace SuiteDocs.Whole

open SuiteDocs.Text

/-- Why a text spells no whole number. -/
inductive Error where
  /-- The text is not one of the base. -/
  | malformed (base : Nat) (text : Text)
  /-- The text has that many digits, which is too many. -/
  | tooLong (digits : Nat)
  /-- The number that is to be written has too many digits. -/
  | tooLongToWrite
  deriving DecidableEq, Repr

/-- The most digits that a number may have in a base that is no power of two. -/
def maxDigits : Nat := 4300

/-- The end of the messages about the number of digits. -/
def limitAdvice : Text := "use sys.set_int_max_str_digits() to increase the limit"

/-- The wording of an error. A long text is cut off. -/
def Error.message : Error → Text
  | .malformed base text =>
    "invalid literal for int() with base " ++ Text.ofNat base ++ ": " ++ (quoted text).take 200
  | .tooLong digits =>
    "Exceeds the limit (" ++ Text.ofNat maxDigits ++
      " digits) for integer string conversion: value has " ++ Text.ofNat digits ++ " digits; " ++
      limitAdvice
  | .tooLongToWrite =>
    "Exceeds the limit (" ++ Text.ofNat maxDigits ++
      " digits) for integer string conversion; " ++ limitAdvice

/-- White space that may stand around a number. The information separators are none. -/
def isMargin (c : Symbol) : Bool :=
  isBlank c && !(28 ≤ c.code && c.code ≤ 31)

/-- The text without white space around a number. -/
def trim (text : Text) : Text :=
  dropWhileEnd isMargin (text.dropWhile isMargin)

/-- The value of a digit in bases up to 36. -/
def digit? (c : Symbol) : Option Nat :=
  if 'a' ≤ c && c ≤ 'z' then some (c.code - 'a'.toNat + 10)
  else if 'A' ≤ c && c ≤ 'Z' then some (c.code - 'A'.toNat + 10)
  else digitValue? c

/-- Whether a character is a digit of a base. -/
def isDigitIn (base : Nat) (c : Symbol) : Bool :=
  match digit? c with
  | some value => value < base
  | none => false

/-- The letter that marks a base. -/
def markOf? : Nat → Option Symbol
  | 2 => some 'b'
  | 8 => some 'o'
  | 16 => some 'x'
  | _ => none

/-- The digits behind the mark of the base, if it is there. One underscore may follow the mark. -/
def dropMark (base : Nat) (text : Text) : Text :=
  match text with
  | .char '0' :: letter :: rest =>
    if markOf? base == some letter.toLower then
      match rest with
      | .char '_' :: digits => digits
      | digits => digits
    else text
  | _ => text

/-- A sign in front of a text: whether it is a minus, and the rest. -/
def takeSign : Text → Bool × Text
  | .char '-' :: rest => (true, rest)
  | .char '+' :: rest => (false, rest)
  | rest => (false, rest)

/-- The number that digits of a base spell. -/
def valueOf (base : Nat) (digits : Text) : Nat :=
  digits.foldl (fun value c => value * base + (digit? c).getD 0) 0

/-- The number that a text spells in a base. -/
def read (base : Nat) (text : Text) : Except Error Int :=
  let (negative, unsigned) := takeSign (trim text)
  let body := dropMark base unsigned
  let written := body.takeWhile fun (c : Symbol) => c == .char '_' || isDigitIn base c
  let groups := splitOn '_' written
  let digits := groups.flatten
  if groups.any List.isEmpty then .error (.malformed base text)
  else if (markOf? base).isNone && maxDigits < digits.length then .error (.tooLong digits.length)
  else if written.length < body.length then .error (.malformed base text)
  else
    let value : Int := valueOf base digits
    .ok (if negative then -value else value)

def text (value : Int) : Except Error Text :=
  if value.natAbs < Nat.pow 10 maxDigits then .ok (Text.ofInt value) else .error .tooLongToWrite

end SuiteDocs.Whole
