import SuiteDocs.Text.Quoted

/-!
The ways in which reading a piece of source text can fail.
-/

set_option autoImplicit false

namespace SuiteDocs.Source

open SuiteDocs.Text

/-- Why a piece of source text could not be read. -/
inductive Fault where
  /-- An offset at or past the end of the text. -/
  | outOfRange
  /-- A character that opens no bracket. -/
  | unsupportedOpener (opener : Symbol) (offset : Nat)
  /-- A bracket that the text does not close. -/
  | unclosedBracket (opener closer : Symbol) (offset : Nat)
  /-- A character that opens no string. -/
  | noString (offset : Nat)
  /-- A string that its line or the text does not close. -/
  | unclosedString (quote : Symbol) (offset : Nat)
  deriving DecidableEq, Repr

/-- Whether the text ended before something that it opened was closed. Readers of whole files
recover from these faults only. -/
def Fault.isUnbalanced : Fault → Bool
  | .unclosedBracket .. => true
  | .unclosedString .. => true
  | _ => false

def Fault.message : Fault → Text
  | .outOfRange => "string index out of range"
  | .unsupportedOpener opener offset =>
    "Unsupported opening delimiter " ++ quoted [opener] ++ " at offset " ++ Text.ofNat offset
  | .unclosedBracket opener closer offset =>
    "No closing " ++ quoted [closer] ++ " for " ++ quoted [opener] ++ " at offset " ++
      Text.ofNat offset
  | .noString offset => "No string literal at offset " ++ Text.ofNat offset
  | .unclosedString quote offset =>
    "Unterminated " ++ [quote] ++ " literal at offset " ++ Text.ofNat offset

end SuiteDocs.Source
