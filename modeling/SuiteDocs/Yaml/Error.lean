import SuiteDocs.Moment
import SuiteDocs.Number.Whole

/-!
Why a configuration text has no value.
-/

set_option autoImplicit false

namespace SuiteDocs.Yaml

open SuiteDocs.Text

/-- Why a configuration text has no value. -/
inductive Error where
  /-- The text breaks the rules of the format. -/
  | malformed
  /-- An escape by number names no character, or its number does not fit in a machine word. -/
  | noCharacter
  | noWord
  /-- A value is empty where its first character decides. -/
  | empty
  /-- A value that should be a truth value is none. -/
  | noTruth (text : Text)
  /-- A value that should be a whole number is none. -/
  | whole (error : Whole.Error)
  /-- A value that should be a number is none. -/
  | noNumber (text : Text)
  /-- A place of a number in base sixty is worth too much. -/
  | largePlace
  /-- A value that should be a date is none, or is no text at all. -/
  | noDate
  | dateMapping
  /-- A date or time is not one of the calendar. -/
  | moment (error : Moment.Error)
  /-- Nodes are nested too deeply, or in each other. -/
  | tooDeep
  deriving DecidableEq, Repr

/-- The wording of an error; what breaks the rules of the format is not told. -/
def Error.message : Error → Text
  | .malformed => ""
  | .noCharacter => "chr() arg not in range(0x110000)"
  | .noWord => "Python int too large to convert to C int"
  | .empty => "string index out of range"
  | .noTruth text => quoted text
  | .whole error => error.message
  | .noNumber text => "could not convert string to float: " ++ quoted text
  | .largePlace => "int too large to convert to float"
  | .noDate => "'NoneType' object has no attribute 'groupdict'"
  | .dateMapping => "expected string or bytes-like object, got 'list'"
  | .moment error => error.message
  | .tooDeep => "maximum recursion depth exceeded"

end SuiteDocs.Yaml
