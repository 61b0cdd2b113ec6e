import SuiteDocs.Json.Value
import SuiteDocs.Text.Utf8

/-!
Writing values as bytes, without white space.

Strings are written as they are, but for quotes, backslashes and control characters. Numbers that
are not finite have no text, and halves of pairs have no bytes.
-/

set_option autoImplicit false

namespace SuiteDocs.Json

open SuiteDocs.Text

def writtenChar (c : Symbol) : Text :=
  if c == '"' then "\\\""
  else if c == '\\' then "\\\\"
  else if c == '\n' then "\\n"
  else if c == '\r' then "\\r"
  else if c == '\t' then "\\t"
  else if c == '\x08' then "\\b"
  else if c == '\x0c' then "\\f"
  else if c.code < 0x20 then "\\u" ++ hexadecimal 4 c.code
  else [c]

def writtenString (value : Text) : Text :=
  "\"" ++ value.flatMap writtenChar ++ "\""

/-- Texts with commas between them, in brackets. -/
def enclosed (opener closer : Text) (texts : List Text) : Text :=
  opener ++ List.intercalate "," texts ++ closer

/-- A number, if it is finite. -/
def writtenNumber? : Binary64 → Option Text
  | .finite negative mantissa exponent => some (Binary64.finite negative mantissa exponent).text
  | _ => none

mutual

/-- The text of a value, unless there is a number without one in it. -/
def written? : Json → Option Text
  | .null => some "null"
  | .bool value => some (if value then "true" else "false")
  | .int value => some (Text.ofInt value)
  | .number value => writtenNumber? value
  | .string value => some (writtenString value)
  | .array items => (writtenItems? items).map (enclosed "[" "]")
  | .object fields => (writtenFields? fields).map (enclosed "\x7b" "\x7d")

/-- The texts of the items of an array. -/
def writtenItems? : List Json → Option (List Text)
  | [] => some []
  | item :: rest => do return (← written? item) :: (← writtenItems? rest)

/-- The texts of the fields of an object. -/
def writtenFields? : List (Text × Json) → Option (List Text)
  | [] => some []
  | (name, value) :: rest => do
    return (writtenString name ++ ":" ++ (← written? value)) :: (← writtenFields? rest)

end

/-- Why a value cannot be written. -/
inductive WriteError where
  | notFinite
  | encoding (error : Utf8.EncodeError)
  deriving DecidableEq, Repr

def WriteError.message : WriteError → Text
  | .notFinite => "Out of range float values are not JSON compliant"
  | .encoding error => error.message

def write (value : Json) : Except WriteError (List UInt8) :=
  match written? value with
  | none => .error .notFinite
  | some text => (Utf8.encode text).mapError .encoding

end SuiteDocs.Json
